import EntityScaffold.Proofs.Artifact.ImportBlock

/-!
# Imports of other artifacts

The artifacts of an entity refer to each other by names that are fixed before anything is renamed.
Where these names are words of their own (`Settings.NamesApart`), a renamed artifact imports its
siblings as before: its own name, which is all that is replaced, stands as a word in none of the
lines that import them (`Artifact.IsOf.isLineOf_import_of_rename`).
-/

namespace EntityScaffold

open Text

/-! ### Names of word characters -/

namespace Text.IsWordName

variable {s t : String}

theorem isSolid (h : IsWordName s) : IsSolid s := by
  intro c hc
  have hword := List.all_eq_true.1 h.2 c hc
  constructor
  · cases hblank : isBlank c with
    | false => rfl
    | true => exact absurd hc (h.notMem (isWord_of_isBlank hblank))
  · rintro rfl
    exact h.notMem (by decide) hc

/-- Another name stands nowhere in it as a whole word. -/
theorem not_isWordOf (hs : IsWordName s) (ht : IsWordName t) (hne : s ≠ t) :
    ¬ IsWordOf s.toList t.toList := fun h =>
  hne (String.toList_injective (h.eq_of_all hs.toList_ne_nil ht.2))

end Text.IsWordName

/-! ### Parts of packages -/

namespace Package

/-- The names between the dots of a package. The empty package has none. -/
def parts (package : String) : List String :=
  if package = "" then [] else (package.toList.splitOn '.').map String.ofList

theorem join_parts (package : String) : join "." (parts package) = package := by
  unfold parts
  split
  · rename_i hempty
    rw [hempty]
    rfl
  · have hchars : ((package.toList.splitOn '.').map String.ofList).map String.toList =
        package.toList.splitOn '.' := by
      simp
    rw [← String.toList_inj, toList_join, hchars]
    exact List.intercalate_splitOn '.'

variable {name package : String}

/-- A package of word names is solid. -/
theorem isSolid_of_parts (h : ∀ s ∈ parts package, IsWordName s) : IsSolid package := by
  rw [← join_parts package]
  exact IsSolid.join (by decide) fun s hs => (h s hs).isSolid

/-- A name that is no part of a package stands nowhere in it. -/
theorem not_isWordOf (hname : IsWordName name) (h : ∀ s ∈ parts package, IsWordName s)
    (hne : name ∉ parts package) : ¬ IsWordOf name.toList package.toList := by
  rw [← join_parts package]
  refine hname.not_isWordOf_join rfl (by decide) fun s hs => ?_
  refine hname.not_isWordOf (h s hs) ?_
  rintro rfl
  exact hne hs

/-- What stands in none of several packages does not stand in the one that is put together from
them. -/
theorem not_isWordOf_joinParts {packages : List String} (hname : IsWordName name)
    (h : ∀ s ∈ packages, ¬ IsWordOf name.toList s.toList) :
    ¬ IsWordOf name.toList (joinParts packages).toList := by
  refine hname.not_isWordOf_join rfl (by decide) fun s hs hword => ?_
  obtain ⟨s, hmem, rfl⟩ := List.mem_map.1 (List.mem_filter.1 hs).1
  rw [trimDots, stripOf, toList_onChars] at hword
  refine h s hmem (hword.of_trim fun c hc => ?_)
  obtain rfl : c = '.' := by simpa using hc
  decide

end Package

/-- The names between the dots of all packages that an entity's artifacts are put into. -/
def Settings.packageParts (p : Settings) (m : Entity) : List String :=
  Package.parts m.package ++ Package.parts p.basePackage ++
    Layer.generated.flatMap fun k => Package.parts (p.layer k).subPackage

/-- All layers are generated, under names of their own: class names and parts of packages are made
of word characters, and no class name is that of another layer, a part of a package, or the word
that starts an import. -/
structure Settings.NamesApart (p : Settings) (m : Entity) : Prop where
  enabled : ∀ k, p.enabled k = true
  part : ∀ s ∈ p.packageParts m, IsWordName s
  className : ∀ k : Layer, IsWordName (k.className m p)
  injective : ∀ j k : Layer, j.className m p = k.className m p → j = k
  notMem_parts : ∀ k : Layer, k.className m p ∉ p.packageParts m
  ne_import : ∀ k : Layer, k.className m p ≠ "import"

namespace Settings.NamesApart

variable {j k : Layer} {m : Entity} {p : Settings}

theorem part_cases (h : p.NamesApart m) {package : String}
    (hpackage : package = m.package ∨ package = p.basePackage ∨
      ∃ k, package = (p.layer k).subPackage) :
    (∀ s ∈ Package.parts package, IsWordName s) ∧
      ∀ k : Layer, k.className m p ∉ Package.parts package := by
  have hsub : Package.parts package ⊆ p.packageParts m := by
    intro s hs
    unfold packageParts
    rcases hpackage with rfl | rfl | ⟨k, rfl⟩
    · simp [hs]
    · simp [hs]
    · refine List.mem_append_right _ (List.mem_flatMap.2 ⟨k, ?_, hs⟩)
      cases k <;> simp [Layer.generated]
  exact ⟨fun s hs => h.part s (hsub hs), fun k hk => h.notMem_parts k (hsub hk)⟩

/-- The package of a layer is solid, and no class name stands in it. -/
theorem package (h : p.NamesApart m) (k : Layer) :
    Text.IsSolid (k.package m p) ∧
      ∀ j : Layer, ¬ IsWordOf (j.className m p).toList (k.package m p).toList := by
  have hbase : strip p.basePackage = p.basePackage :=
    (Package.isSolid_of_parts (h.part_cases (Or.inr (Or.inl rfl))).1).strip_eq_self
  have hpackages : ∀ s ∈ [if p.basePackage = "" then m.package else p.basePackage,
      (p.layer k).subPackage], (∀ q ∈ Package.parts s, IsWordName q) ∧
        ∀ j : Layer, j.className m p ∉ Package.parts s := by
    intro s hs
    refine h.part_cases ?_
    rcases List.mem_pair.1 hs with rfl | rfl
    · split
      · exact Or.inl rfl
      · exact Or.inr (Or.inl rfl)
    · exact Or.inr (Or.inr ⟨k, rfl⟩)
  rw [Layer.package, Settings.package, hbase]
  refine ⟨Package.isSolid_joinParts fun s hs => ?_, fun j => ?_⟩
  · exact Package.isSolid_of_parts (hpackages s hs).1
  · refine Package.not_isWordOf_joinParts (h.className j) fun s hs => ?_
    exact Package.not_isWordOf (h.className j) (hpackages s hs).1 ((hpackages s hs).2 j)

theorem isSolid_qualifiedName (h : p.NamesApart m) (k : Layer) :
    Text.IsSolid (k.qualifiedName m p) := by
  rw [Layer.qualifiedName_eq]
  exact ResolvedType.isSolid_qualify (h.package k).1 (h.className k).isSolid

/-- The class name of a layer stands nowhere in the line that imports another one. -/
theorem not_isWordOf_line (h : p.NamesApart m) (hjk : j ≠ k) (hpackage : j.package m p ≠ "") :
    ¬ IsWordOf (k.className m p).toList (ImportBlock.line (j.qualifiedName m p)).toList := by
  have hk := h.className k
  have hline : (ImportBlock.line (j.qualifiedName m p)).toList =
      "import".toList ++ ' ' :: ((j.package m p).toList ++ '.' ::
        ((j.className m p).toList ++ ';' :: [])) := by
    simp [ImportBlock.line, Layer.qualifiedName_eq, ResolvedType.qualify, hpackage]
  rw [hline]
  intro hword
  -- word by word: the keyword, the package, and the name of the other layer
  rcases hword.of_append_cons hk.toList_ne_nil (hk.notMem (by decide)) (by decide) with hw | hword
  · exact hk.not_isWordOf (t := "import") (by decide) (h.ne_import k) hw
  rcases hword.of_append_cons hk.toList_ne_nil (hk.notMem (by decide)) (by decide) with hw | hword
  · exact (h.package j).2 k hw
  rcases hword.of_append_cons hk.toList_ne_nil (hk.notMem (by decide)) (by decide) with hw | hword
  · exact hk.not_isWordOf (h.className j) (fun he => hjk (h.injective j k he.symm)) hw
  · exact hk.toList_ne_nil (hword.eq_of_all hk.toList_ne_nil (by decide))

end Settings.NamesApart

/-! ### Lines that import siblings -/

namespace Layer

variable {j k : Layer} {m : Entity} {p : Settings} {l : Listing}

/-- What a listing imports by a solid name has a line in its text. -/
theorem isLineOf_line {q : String} (hq : q ∈ l.imports) (hsolid : Text.IsSolid q) (hne : q ≠ "") :
    IsLineOf (ImportBlock.line q).toList l.render.toList := by
  have hlines : ImportBlock.line q ∈ ImportBlock.lines l.imports := by
    rw [ImportBlock.lines, mem_sortedSet]
    refine List.mem_map_of_mem (List.mem_filter.2 ⟨List.mem_map.2 ⟨q, hq, ?_⟩, by simpa using hne⟩)
    exact ImportBlock.target_eq_self hsolid
  refine Listing.isLineOf_render (List.mem_append_left _ (List.mem_append_right _ ?_))
  unfold Listing.importLines
  split
  · rename_i hnil
    rw [hnil] at hlines
    cases hlines
  · exact List.mem_append_left _ hlines

/-- A listing imports the siblings from other packages. -/
theorem Lists.qualifiedName_mem_imports (hl : Lists m p k l) (h : p.NamesApart m)
    (hj : j ∈ k.siblings p) (hpackage : j.package m p ≠ "")
    (hne : j.package m p ≠ k.package m p) : j.qualifiedName m p ∈ l.imports := by
  have hcut : Listing.packageOf? (j.qualifiedName m p) = some (j.package m p) := by
    have hchars : (j.qualifiedName m p).toList =
        (j.package m p).toList ++ '.' :: (j.className m p).toList := by
      simp [qualifiedName_eq, ResolvedType.qualify, hpackage]
    rw [Listing.packageOf?, hchars,
      cutLast_append_cons ((h.className j).notMem (by decide)), Option.map_some,
      String.ofList_toList]
  refine hl.mem_imports_iff.2 (List.mem_append_left _ (mem_foreign.2 ⟨?_, ?_⟩))
  · refine List.mem_append_left _ (List.mem_append_right _ ?_)
    exact List.mem_map_of_mem hj
  · rw [hcut]
    simpa using hne

end Layer

namespace Artifact

variable {a : Artifact} {j : Layer} {m : Entity} {p : Settings}

/-- **An artifact has lines that import its siblings from other packages.** -/
theorem IsOf.isLineOf_import (ha : a.IsOf m p) (h : p.NamesApart m) (hj : j ∈ a.layer.siblings p)
    (hpackage : j.package m p ≠ "") (hne : j.package m p ≠ a.layer.package m p) :
    IsLineOf (ImportBlock.line (j.qualifiedName m p)).toList a.text.toList := by
  obtain ⟨l, hl, htext⟩ := ha.exists_lists
  rw [htext]
  refine Layer.isLineOf_line (hl.qualifiedName_mem_imports h hj hpackage hne)
    (h.isSolid_qualifiedName j) ?_
  rw [Layer.qualifiedName_eq, ResolvedType.qualify, if_neg hpackage]
  intro hempty
  have hchars := congrArg String.toList hempty
  simp at hchars

/-- **A renamed artifact still has them**, since its own name stands nowhere in them. -/
theorem IsOf.isLineOf_import_of_rename {name text : String} (ha : a.IsOf m p)
    (h : p.NamesApart m) (hr : Text.rename a.text a.className name = .ok text)
    (hj : j ∈ a.layer.siblings p) (hpackage : j.package m p ≠ "")
    (hne : j.package m p ≠ a.layer.package m p) :
    IsLineOf (ImportBlock.line (j.qualifiedName m p)).toList text.toList := by
  have hline := ha.isLineOf_import h hj hpackage hne
  have hown := h.className a.layer
  have hlayer : j ≠ a.layer := by
    rintro rfl
    exact hne rfl
  rw [ha.className_eq, rename] at hr
  cases hnew : Template.expand (a.layer.className m p).toList name.toList with
  | error fault =>
    rw [hnew] at hr
    cases hr
  | ok new =>
    rw [hnew] at hr
    obtain rfl := Except.ok.inj hr
    have hkept := hline.replaceWord hown.toList_ne_nil (hown.notMem (by decide)) new
    rw [replaceWord_eq_self hown.toList_ne_nil (h.not_isWordOf_line hlayer hpackage)] at hkept
    rwa [String.toList_ofList]

end Artifact

end EntityScaffold
