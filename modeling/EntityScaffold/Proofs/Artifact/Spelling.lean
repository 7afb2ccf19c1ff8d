import Mathlib.Data.Set.List
import EntityScaffold.Proofs.Artifact.MadeName
import EntityScaffold.Proofs.Java.Layout
import EntityScaffold.Proofs.Source.Alone

/-!
# Listings that are read back

A listing is laid out as a type if its lines spell the tokens of that type (`Listing.LaysOut`).
Indentation and blank lines do not count. The text of such a listing is read as one description,
with the package of the listing and the name, the kind and the fields of the type
(`Listing.LaysOut.exists_readAll`).
-/

namespace EntityScaffold

open Java Text Java.Token

/-! ### Qualified names as tokens -/

namespace Java

/-- The parts of a name are written with dots between them. -/
theorem write_pathTokens {path : List String} (hpath : path ≠ []) :
    write (pathTokens path) = (".".intercalate path).toList := by
  obtain ⟨first, more, rfl⟩ := List.exists_cons_of_ne_nil hpath
  rw [pathTokens_cons, write, text_identifier]
  induction more generalizing first with
  | nil => simp [writeAfter]
  | cons second more ih =>
    have hgaps : gap (.identifier first) dot = [] ∧ gap dot (.identifier second) = [] := ⟨rfl, rfl⟩
    rw [String.intercalate_cons_cons, String.toList_append, ← ih second (List.cons_ne_nil _ _)]
    simp [writeAfter, hgaps]

/-- A dotted name is written like a word. -/
theorem writesAsWord_pathTokens {path : List String} (hpath : path ≠ []) :
    WritesAsWord (pathTokens path) := by
  obtain ⟨first, more, rfl⟩ := List.exists_cons_of_ne_nil hpath
  rw [pathTokens_cons]
  refine writesAsWord_of_ends ⟨.identifier first, rfl, rfl⟩ ?_
  rcases List.eq_nil_or_concat more with rfl | ⟨more, last, rfl⟩
  · exact ⟨.identifier first, rfl, .inl rfl⟩
  · refine ⟨.identifier last, ?_, .inl rfl⟩
    simp [List.getLast?_cons]

end Java

namespace Listing

variable {ls : List String} {ts us : List Token}

/-! ### Lines of a listing -/

theorem isLine_indentation {line : String} (h : IsLine line ts) :
    IsLine (indentation ++ line) ts := by
  obtain ⟨before, hblank, hwrite⟩ := h
  have hindentation : ∀ c ∈ indentation.toList, isBlank c = true :=
    forall_mem_of_all (by decide)
  exact ⟨indentation.toList ++ before, List.forall_mem_append.2 ⟨hindentation, hblank⟩,
    by rw [String.toList_append, hwrite, List.append_assoc]⟩

/-- Lines further to the right spell the same. -/
theorem spells_indent (h : Spells ls ts) : Spells (indent ls) ts := by
  induction h with
  | nil => exact .nil
  | cons hline _ ih =>
    refine .cons ?_ ih
    show IsLine (if _ then _ else _) _
    split
    · exact hline
    · exact isLine_indentation hline

/-- A block in braces, behind its opening. -/
theorem spells_braced {opening : String} {body : List String}
    (h : IsLine (opening ++ " \x7b") (ts ++ [openBrace])) (hbody : Spells body us) :
    Spells (braced opening body) (ts ++ openBrace :: (us ++ [closeBrace])) := by
  have hclose : Spells ["\x7d"] [closeBrace] := .single (isLine_of_eq rfl)
  have hall := Spells.cons h ((spells_indent hbody).append hclose)
  rwa [List.append_assoc, List.singleton_append] at hall

/-- Blank lines between blocks spell nothing. -/
theorem spells_spacedLines {blocks : List (List String)} {tss : List (List Token)}
    (h : List.Forall₂ Spells blocks tss) : Spells (spacedLines (blocks.map indent)) tss.flatten := by
  induction h with
  | nil => exact .nil
  | @cons block ts blocks tss hblock hblocks ih =>
    rw [List.map_cons, List.flatten_cons]
    cases hblocks with
    | nil => simpa [spacedLines] using spells_indent hblock
    | cons => exact (spells_indent hblock).append ih.blank

/-- The lines of the package declaration. -/
theorem spells_packageLines {l : Listing} {path : List String}
    (hpackage : l.package = ".".intercalate path) (hpath : path = [] ∨ IsNamePath path) :
    Spells l.packageLines (UnitTree.packageTokens path) := by
  rcases hpath with rfl | hpath
  · have hempty : l.package = "" := by simpa using hpackage
    rw [packageLines, if_pos hempty]
    exact .nil
  · have hne : l.package ≠ "" := by
      rw [hpackage]
      exact hpath.isQualified.isSolid.2
    have hline : IsLine ("package " ++ l.package ++ ";")
        (.keyword "package" :: (pathTokens path ++ [semicolon])) := by
      have hword := writesAsWord_pathTokens hpath.ne_nil (.keyword "package") [semicolon] (by simp)
      refine isLine_of_eq ?_
      rw [write, hword, write_pathTokens hpath.ne_nil, ← hpackage]
      simp [writeAfter, gap, tight, isSymbolIn, closers]
    rw [packageLines, if_neg hne, UnitTree.packageTokens, if_neg hpath.ne_nil]
    simpa using Spells.cons hline (Spells.blank .nil)

/-- An import line. -/
theorem isLine_line {path : List String} (hpath : IsNamePath path) :
    IsLine (ImportBlock.line (".".intercalate path)) (UnitTree.importTokens path) := by
  have hword := writesAsWord_pathTokens hpath.ne_nil (.keyword "import") [semicolon] (by simp)
  refine isLine_of_eq ?_
  rw [ImportBlock.line, UnitTree.importTokens, write, hword, write_pathTokens hpath.ne_nil]
  simp [writeAfter, gap, tight, isSymbolIn, closers]

/-- Names that are imported, by their parts. -/
theorem exists_paths {names : List String} (h : ∀ q ∈ names, IsQualified q) :
    ∃ paths : List (List String), (∀ path ∈ paths, IsNamePath path) ∧
      ImportBlock.lines names = paths.map (fun path => ImportBlock.line (".".intercalate path)) ∧
      (names ≠ [] → paths ≠ []) := by
  have hmem {l : String} := ImportBlock.mem_lines (l := l) fun q hq => (h q hq).isSolid
  have hlines : ImportBlock.lines names ∈ Set.range (List.map
      fun path : { path // IsNamePath path } => ImportBlock.line (".".intercalate path.1)) := by
    rw [Set.range_list_map]
    intro l hl
    obtain ⟨q, hq, rfl⟩ := hmem.1 hl
    obtain ⟨path, hpath, rfl⟩ := (h q hq).exists_path
    exact ⟨⟨path, hpath⟩, rfl⟩
  obtain ⟨paths, hpaths⟩ := hlines
  refine ⟨paths.map (·.1), List.forall_mem_map.2 fun path _ => path.2, ?_, fun hne hnil => ?_⟩
  · rw [← hpaths, List.map_map]
    rfl
  · obtain ⟨q, hq⟩ := List.exists_mem_of_ne_nil names hne
    have hline := hmem.2 ⟨q, hq, rfl⟩
    rw [← hpaths, List.map_eq_nil_iff.1 hnil] at hline
    cases hline

theorem spells_importLines {l : Listing} {paths : List (List String)}
    (hpaths : ∀ path ∈ paths, IsNamePath path)
    (hlines : ImportBlock.lines l.imports =
      paths.map fun path => ImportBlock.line (".".intercalate path)) :
    Spells l.importLines (paths.flatMap UnitTree.importTokens) := by
  have hspells := Spells.of_map fun path hpath => isLine_line (hpaths path hpath)
  rw [← hlines] at hspells
  unfold importLines
  split
  · rename_i hnil
    rwa [hnil] at hspells
  · simpa using hspells.append (Spells.blank .nil)

/-! ### Types that are laid out -/

/-- **The listing is the type as it is laid out**: its lines spell the tokens of the type, and each
block of its members is some of the members. -/
structure LaysOut (l : Listing) (t : TypeTree) : Prop where
  markings : Spells l.markings (t.markings.flatMap Marking.tokens)
  declaration : IsLine (l.declaration ++ " \x7b")
    (TypeTree.declarationTokens t.heading t.name ++ [openBrace])
  members : ∃ groups : List (List MemberTree), t.members = groups.flatten ∧
    List.Forall₂ (fun block ms => Spells block (ms.flatMap MemberTree.tokens)) l.members groups

variable {l : Listing} {t : TypeTree}

theorem LaysOut.spells_typeLines (h : l.LaysOut t) : Spells l.typeLines t.tokens := by
  obtain ⟨groups, hgroups, hmembers⟩ := h.members
  have hopen := Spells.single h.declaration
  have hclose : Spells ["\x7d"] [closeBrace] := .single (isLine_of_eq rfl)
  have htokens : t.tokens = t.markings.flatMap Marking.tokens ++
      ((TypeTree.declarationTokens t.heading t.name ++ [openBrace]) ++
        ((groups.map fun ms => ms.flatMap MemberTree.tokens).flatten ++ [closeBrace])) := by
    have hmembers : t.members.flatMap MemberTree.tokens =
        (groups.map fun ms => ms.flatMap MemberTree.tokens).flatten := by
      rw [hgroups, ← List.flatMap_id, List.flatMap_assoc, List.flatMap_def]
      rfl
    simp [TypeTree.tokens, TypeTree.bodyTokens, hmembers]
  rw [htokens, typeLines]
  refine h.markings.append ?_
  cases hl : l.members with
  | nil =>
    rw [hl] at hmembers
    cases hmembers
    exact hopen.append hclose
  | cons block blocks =>
    have hblocks : List.Forall₂ Spells l.members
        (groups.map fun ms => ms.flatMap MemberTree.tokens) :=
      List.forall₂_map_right_iff.2 hmembers
    rw [hl] at hblocks
    exact hopen.append ((spells_spacedLines hblocks).append hclose).blank

end Listing

/-! ### Descriptions -/

/-- What is described of a type is what it was written with: its name and kind, and of a class the
names of its fields. -/
structure SourceClass.Describes (c : SourceClass) (package : String) (t : TypeTree) : Prop where
  package : c.package = package
  name : c.name = t.name
  kind : c.kind = t.heading.kind
  fields : t.heading.kind = .classType →
    c.fields.map (·.name) = t.members.filterMap MemberTree.fieldName?

/-- The fields of a class that is read are those that were written. -/
theorem Scan.map_name_describeFields (s : Scan) (scope : Scope) {ms : List MemberTree}
    {found : List Member} (h : List.Forall₂ MemberTree.IsReadAs ms found) :
    (found.flatMap fun
      | .fields g => s.describeFields scope g
      | _ => []).map (·.name) = ms.filterMap MemberTree.fieldName? := by
  induction h with
  | nil => rfl
  | @cons m member ms found hm _ ih =>
    rw [List.flatMap_cons, List.map_append, ih]
    cases m with
    | field =>
      obtain ⟨modifiers, type, rfl⟩ := hm
      rfl
    | constructor =>
      obtain ⟨arity, rfl⟩ := hm
      rfl
    | method =>
      cases hm
      rfl

/-- **A listing that is laid out is read back.** -/
theorem Listing.LaysOut.exists_readAll {l : Listing} {t : TypeTree} (h : l.LaysOut t)
    (ht : t.IsProper) (hpackage : l.package = "" ∨ IsQualified l.package)
    (himports : ∀ q ∈ l.imports, IsQualified q) (hmarked : t.markings ≠ [] → l.imports ≠ []) :
    ∃ c, SourceClass.readAll none l.render = .ok [c] ∧ c.Describes l.package t := by
  obtain ⟨path, hpath, hpackage⟩ : ∃ path, (path = [] ∨ IsNamePath path) ∧
      l.package = ".".intercalate path := by
    rcases hpackage with hempty | hqualified
    · exact ⟨[], .inl rfl, by simpa using hempty⟩
    · obtain ⟨path, hpath, heq⟩ := hqualified.exists_path
      exact ⟨path, .inr hpath, heq⟩
  obtain ⟨paths, hpaths, hlines, hne⟩ := exists_paths himports
  have hproper : (UnitTree.mk path paths t).IsProper :=
    ⟨hpath, hpaths, ht, fun hmarkings => hne (hmarked hmarkings)⟩
  -- the lines of the text spell the tokens of the unit, which is read as what it is
  have hspells : Spells l.allLines (UnitTree.mk path paths t).tokens := by
    have hall := (spells_packageLines hpackage hpath).append
      ((spells_importLines hpaths hlines).append h.spells_typeLines)
    rwa [← List.append_assoc l.packageLines] at hall
  have htokens := hspells.tokens_eq hproper.isWritable l.toList_render
  obtain ⟨d, hkind, hname, hmembers, hd⟩ := hproper.ofTokens_eq
  obtain ⟨u, hread, hunit, htypes⟩ : ∃ u, SourceUnit.read none l.render = .ok u ∧
      u.package = l.package ∧ u.types = [d] := by
    refine ⟨_, by rw [SourceUnit.read, CompilationUnit.read, htokens]; simp only [hd]; rfl, ?_, rfl⟩
    rw [hpackage]
    show ".".intercalate (Option.getD (if path = [] then none else some path) []) = _
    split
    · rename_i hnil
      rw [hnil, Option.getD_none]
    · rfl
  refine ⟨_, by rw [SourceClass.readAll, hread]; exact congrArg _ (Scan.classes_of_types_eq htypes),
    hunit, hname, hkind, fun hclass => ?_⟩
  have hfields := (Scan.mk [u]).map_name_describeFields ⟨u, (Scan.mk [u]).declared⟩ hmembers
  simp only [Scan.describe, if_pos (hkind.trans hclass)]
  exact hfields

end EntityScaffold
