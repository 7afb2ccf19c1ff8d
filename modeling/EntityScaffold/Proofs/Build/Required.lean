import EntityScaffold.Build.Feature
import EntityScaffold.Proofs.Artifact.SimpleName
import EntityScaffold.Proofs.Text.WordStart

/-!
# Required features and imported namespaces

Each feature stands for namespaces. If no own name of an entity and its settings lies under the
namespaces of the libraries, then an import line from there names a library type that the layer is
built on (`Layer.Lists.isLibraryLine_of_isFrom`). The feature for that namespace is required, with
one exception: a service names a type of Spring and does not require anything by itself
(`Feature.covers_iff`).
-/

namespace EntityScaffold

open Text

/-! ### Namespaces -/

/-- A name lies under a namespace, or one of its words does. -/
def LiesUnder (ns name : String) : Prop := StartsWordIn (ns ++ ".").toList name.toList

/-- A name without blanks lies under the namespaces that it starts with. -/
theorem liesUnder_iff_of_isSolid {ns name : String} (h : Text.IsSolid name) :
    LiesUnder ns name ↔ startsWith name (ns ++ ".") = true := by
  rw [LiesUnder, StartsWordIn.iff_start fun c hc => (h c hc).1, startsWith,
    List.isPrefixOf_iff_prefix]

/-- The line imports a name from a namespace. -/
def ImportBlock.IsFrom (ns line : String) : Prop :=
  startsWith line ("import " ++ ns ++ ".") = true

namespace ImportBlock

variable {ns q : List Char}

theorem isFrom_line_iff : IsFrom (.ofList ns) (line (.ofList q)) ↔ ns ++ ['.'] <+: q ++ [';'] := by
  have hline : (line (.ofList q)).toList = "import ".toList ++ (q ++ [';']) := by simp [line]
  rw [IsFrom, startsWith, List.isPrefixOf_iff_prefix, hline, String.append_assoc,
    String.toList_append, List.prefix_append_right_inj]
  simp

/-- Literals are compared by their characters, without taking their bytes apart. -/
theorem isFrom_line (h : (ns ++ ['.']).isPrefixOf q = true) :
    IsFrom (.ofList ns) (line (.ofList q)) :=
  isFrom_line_iff.2 ((List.isPrefixOf_iff_prefix.1 h).trans (List.prefix_append _ _))

/-- A line imports from one namespace only, if none of them is inside another one. -/
theorem not_isFrom_of_isFrom {ns' : List Char} {line : String} (h : IsFrom (.ofList ns) line)
    (hne : (ns ++ ['.']).isPrefixOf (ns' ++ ['.']) = false)
    (hne' : (ns' ++ ['.']).isPrefixOf (ns ++ ['.']) = false) : ¬ IsFrom (.ofList ns') line := by
  intro h'
  simp only [IsFrom, startsWith, List.isPrefixOf_iff_prefix, String.append_assoc] at h h'
  rw [String.toList_append] at h h'
  rw [← Bool.not_eq_true, List.isPrefixOf_iff_prefix] at hne hne'
  rcases List.prefix_or_prefix_of_prefix h h' with hprefix | hprefix
  · exact hne (by simpa [List.prefix_append_right_inj] using hprefix)
  · exact hne' (by simpa [List.prefix_append_right_inj] using hprefix)

end ImportBlock

namespace Feature

/-- The namespaces that come with a feature alone. -/
def ownNamespaces : Feature → List String
  | lombok => ["lombok"]
  | mapStruct => ["org.mapstruct"]
  | springDataJpa => ["org.springframework.data"]
  | springWeb => ["org.springframework.web", "org.springframework.http"]
  | jpaEntity | other _ => []

/-- The namespaces that come with a feature. The annotations for components come with either of the
two features of Spring. -/
def namespaces (f : Feature) : List String :=
  f.ownNamespaces ++
    if f = springDataJpa ∨ f = springWeb then ["org.springframework.stereotype"] else []

/-- The namespaces that all of these are in. -/
def roots : List String := ["lombok", "org.mapstruct", "org.springframework"]

/-- The namespaces of the libraries start neither like a package declaration or an import nor like
those of the language. -/
theorem exists_root_cons {r : String} (hr : r ∈ roots) :
    ∃ c cs, (r ++ ".").toList = c :: cs ∧ c ≠ 'p' ∧ c ≠ 'i' ∧ c ≠ 'j' ∧ ';' ∉ c :: cs := by
  simp only [roots, List.mem_cons, List.not_mem_nil, or_false] at hr
  rcases hr with rfl | rfl | rfl <;> exact ⟨_, _, rfl, by decide⟩

/-- A required feature brings the namespace that a line imports from. -/
def Covers (p : Settings) (line : String) : Prop :=
  ∃ f ∈ required p, ∃ ns ∈ f.namespaces, ImportBlock.IsFrom ns line

theorem mem_required_iff {p : Settings} {f : Feature} :
    f ∈ required p ↔
      match f with
      | jpaEntity => True
      | springDataJpa => p.enabled .repository = true
      | springWeb => p.enabled .controller = true
      | mapStruct => Layer.mapper.isEnabled p = true
      | lombok => p.enabled .dto = true ∧ p.accessorStyle = true
      | other _ => False := by
  cases f <;> simp [required]

end Feature

/-- No own name of an entity and its settings lies under the namespaces of the libraries: the
entity, the types of its fields with all types inside them, and the artifacts. -/
structure Entity.KeepsClear (m : Entity) (p : Settings) : Prop where
  entity : ∀ r ∈ Feature.roots, ¬ LiesUnder r m.qualifiedName
  types : ∀ r ∈ Feature.roots, ∀ f ∈ m.fields, ∀ n ∈ f.type.nodes, ¬ LiesUnder r n.qualifiedName
  artifacts : ∀ r ∈ Feature.roots, ∀ k : Layer, ¬ LiesUnder r (k.qualifiedName m p)

/-- For names without blanks and semicolons it is enough to look at what each of them starts
with. -/
theorem Entity.KeepsClear.of_isSolid {m : Entity} {p : Settings} (hm : m.IsSolid) (hp : p.IsSolid)
    (h : ∀ r ∈ Feature.roots, startsWith m.qualifiedName (r ++ ".") = false ∧
      (∀ f ∈ m.fields, ∀ n ∈ f.type.nodes, startsWith n.qualifiedName (r ++ ".") = false) ∧
      ∀ k ∈ Layer.all, startsWith (k.qualifiedName m p) (r ++ ".") = false) : m.KeepsClear p where
  entity r hr := by
    have hsolid : Text.IsSolid m.qualifiedName :=
      ResolvedType.isSolid_qualify hm.package hm.className
    rw [liesUnder_iff_of_isSolid hsolid, Bool.not_eq_true]
    exact (h r hr).1
  types r hr f hf n hn := by
    rw [liesUnder_iff_of_isSolid (hm.types f hf n hn).1, Bool.not_eq_true]
    exact (h r hr).2.1 f hf n hn
  artifacts r hr k := by
    rw [liesUnder_iff_of_isSolid (Layer.isSolid_qualifiedName hm hp k), Bool.not_eq_true]
    exact (h r hr).2.2 k k.mem_all

/-! ### Lines above the type -/

namespace Listing

variable {l : Listing} {r line : String}

/-- The lines of a file above its type. -/
def headLines (l : Listing) : List String :=
  (l.packageLines ++ l.importLines).flatMap fun s => lines s.toList

/-- **The lines of a file are those above its type and those of its type.** -/
theorem lines_render (l : Listing) :
    lines l.render.toList = l.headLines ++ lines (unlines l.typeLines) := by
  rw [toList_render, allLines, unlines_append, lines_unlines_append, headLines]

/-- A line above the type is empty or a line of the package declaration or of an import. -/
theorem cases_of_mem_headLines (h : line ∈ l.headLines) :
    line = "" ∨ line ∈ lines ("package " ++ l.package ++ ";").toList ∨
      ∃ q ∈ l.imports, line ∈ lines (ImportBlock.line (ImportBlock.target q)).toList := by
  obtain ⟨item, hitem, hline⟩ := List.mem_flatMap.1 h
  have hempty : item = "" → line = "" := by
    rintro rfl
    exact List.mem_singleton.1 hline
  rcases List.mem_append.1 hitem with hitem | hitem
  · unfold packageLines at hitem
    split at hitem
    · cases hitem
    · rcases List.mem_pair.1 hitem with rfl | hitem
      · exact Or.inr (Or.inl hline)
      · exact Or.inl (hempty hitem)
  · unfold importLines at hitem
    split at hitem
    · cases hitem
    · rcases List.mem_append.1 hitem with hitem | hitem
      · rw [ImportBlock.lines, mem_sortedSet] at hitem
        obtain ⟨t, ht, rfl⟩ := List.mem_map.1 hitem
        obtain ⟨q, hq, rfl⟩ := List.mem_map.1 (List.mem_filter.1 ht).1
        exact Or.inr (Or.inr ⟨q, hq, hline⟩)
      · exact Or.inl (hempty (List.mem_singleton.1 hitem))

/-- The line of an imported name that has neither blanks nor semicolons stands above the type. -/
theorem line_mem_headLines {q : String} (hq : q ∈ l.imports) (hsolid : Text.IsSolid q)
    (hne : q ≠ "") : ImportBlock.line q ∈ l.headLines := by
  have hitem : ImportBlock.line q ∈ ImportBlock.lines l.imports := by
    rw [ImportBlock.lines, mem_sortedSet]
    refine List.mem_map_of_mem (List.mem_filter.2 ⟨?_, by simpa using hne⟩)
    exact List.mem_map.2 ⟨q, hq, ImportBlock.target_eq_self hsolid⟩
  have himport : ImportBlock.line q ∈ l.importLines := by
    unfold importLines
    split
    · rename_i hnone
      rw [hnone] at hitem
      cases hitem
    · exact List.mem_append_left _ hitem
  refine List.mem_flatMap.2 ⟨_, List.mem_append_right _ himport, ?_⟩
  rw [lines_eq_singleton (ImportBlock.newline_notMem_line hsolid)]
  exact List.mem_cons_self

/-- **A line above the type that imports from a library belongs to an imported name**, and that
name or the package lies under the namespace of the library. -/
theorem liesUnder_of_isFrom (hr : r ∈ Feature.roots) (h : line ∈ l.headLines)
    (hfrom : ImportBlock.IsFrom r line) :
    LiesUnder r l.package ∨ ∃ q ∈ l.imports, LiesUnder r q ∧
      line ∈ lines (ImportBlock.line (ImportBlock.target q)).toList := by
  obtain ⟨c, cs, hroot, hp, hi, -, hsemicolon⟩ := Feature.exists_root_cons hr
  have hword : StartsWordIn (c :: cs) line.toList := by
    obtain ⟨rest, hrest⟩ := List.isPrefixOf_iff_prefix.1 hfrom
    rw [← hroot, ← hrest]
    exact ⟨"import ".toList, rest, by simp, by simp [isBlank]⟩
  unfold LiesUnder
  rw [hroot]
  rcases cases_of_mem_headLines h with rfl | hline | ⟨q, hq, hline⟩
  · exact absurd hfrom (by simp [ImportBlock.IsFrom, startsWith])
  · have hin := hword.trans (.of_mem_lines hline)
    have htext : ("package " ++ l.package ++ ";").toList =
        "package".toList ++ ' ' :: (l.package.toList ++ [';']) := by simp
    rw [htext] at hin
    exact Or.inl (hin.of_statement (by simp [isBlank]) (by simp [hp]) hsemicolon)
  · have hin := hword.trans (.of_mem_lines hline)
    have htext : (ImportBlock.line (ImportBlock.target q)).toList =
        "import".toList ++ ' ' :: ((ImportBlock.target q).toList ++ [';']) := by
      simp [ImportBlock.line]
    rw [htext] at hin
    have htarget := hin.of_statement (by simp [isBlank]) (by simp [hi]) hsemicolon
    exact Or.inr ⟨q, hq, htarget.trans (.target q), hline⟩

end Listing

namespace Entity.KeepsClear

variable {m : Entity} {p : Settings} {r : String}

theorem not_liesUnder_package (h : m.KeepsClear p) (hr : r ∈ Feature.roots) (k : Layer) :
    ¬ LiesUnder r (k.package m p) := by
  intro hunder
  refine h.artifacts r hr k ?_
  rw [Layer.qualifiedName_eq, ResolvedType.qualify]
  split
  · rename_i hempty
    obtain ⟨c, cs, hroot, -⟩ := Feature.exists_root_cons hr
    rw [LiesUnder, hroot, hempty, StartsWordIn.iff_start (by simp)] at hunder
    cases List.prefix_nil.1 hunder
  · exact hunder.mono_right (by simp [String.toList_append])

theorem not_liesUnder_of_mem_references (h : m.KeepsClear p) (hr : r ∈ Feature.roots) {k : Layer}
    {q : String} (hq : q ∈ k.references m p) : ¬ LiesUnder r q := by
  simp only [Layer.references, List.mem_append, List.mem_map, List.mem_flatMap] at hq
  rcases hq with (hself | ⟨j, -, rfl⟩) | ⟨t, ht, himport⟩
  · split at hself
    · cases hself
    · rw [List.mem_singleton.1 hself]
      exact h.entity r hr
  · exact h.artifacts r hr j
  · obtain ⟨n, hn, -, rfl⟩ := ResolvedType.mem_imports.1 himport
    refine Layer.forall_nodes_writtenTypes (P := fun n => ¬ LiesUnder r n.qualifiedName)
      (h.types r hr) (fun w hw => ?_) ht n hn
    have hsolid : ∀ w ∈ ResolvedType.wrappers.map (·.2), Text.IsSolid
        (ResolvedType.plain .boxed w ResolvedType.languageNamespace).qualifiedName := by
      decide
    have hnone : ∀ r ∈ Feature.roots, ∀ w ∈ ResolvedType.wrappers.map (·.2),
        ¬ startsWith (ResolvedType.plain .boxed w ResolvedType.languageNamespace).qualifiedName
          (r ++ ".") = true := by
      decide +kernel
    rw [liesUnder_iff_of_isSolid (hsolid w hw)]
    exact hnone r hr w hw

end Entity.KeepsClear

/-! ### Library types of a layer -/

namespace Layer

variable {m : Entity} {p : Settings} {k : Layer} {l : Listing} {r line q : String}

/-- **An import line from a library names a library type that the layer is built on.** -/
theorem Lists.isLibraryLine_of_isFrom (h : Lists m p k l) (hclear : m.KeepsClear p)
    (hr : r ∈ Feature.roots) (hline : line ∈ l.headLines) (hfrom : ImportBlock.IsFrom r line) :
    ∃ q ∈ k.libraryNames m p, ImportBlock.line q = line := by
  rcases Listing.liesUnder_of_isFrom hr hline hfrom with hpackage | ⟨q, hq, hunder, hline⟩
  · rw [h.package_eq] at hpackage
    exact absurd hpackage (hclear.not_liesUnder_package hr k)
  · rcases List.mem_append.1 (h.mem_imports_iff.1 hq) with hq | hq
    · exact absurd hunder (hclear.not_liesUnder_of_mem_references hr (mem_foreign.1 hq).1)
    · have hsolid := (isSolid_of_mem_libraryTypes q (k.libraryNames_subset m p hq)).1
      rw [ImportBlock.target_eq_self hsolid,
        lines_eq_singleton (ImportBlock.newline_notMem_line hsolid)] at hline
      exact ⟨q, hq, (List.mem_singleton.1 hline).symm⟩

/-- A library type that a layer is built on is imported by a line of its own. -/
theorem Lists.line_mem_headLines (h : Lists m p k l) (hq : q ∈ k.libraryNames m p) :
    ImportBlock.line q ∈ l.headLines := by
  obtain ⟨hsolid, hne⟩ := isSolid_of_mem_libraryTypes q (k.libraryNames_subset m p hq)
  exact Listing.line_mem_headLines (h.mem_imports_iff.2 (List.mem_append_right _ hq)) hsolid hne

/-- The features each of which brings all that a layer takes from the libraries. -/
def features : Layer → List Feature
  | dto => [.lombok]
  | mapper => [.mapStruct]
  | repository => [.springDataJpa]
  | service => [.springDataJpa, .springWeb]
  | controller => [.springWeb]

/-- The namespaces that a layer takes library types from. -/
def libraryNamespaces : Layer → List String
  | dto => ["lombok"]
  | mapper => ["org.mapstruct"]
  | repository => ["org.springframework.data", "org.springframework.stereotype"]
  | service => ["org.springframework.stereotype"]
  | controller => ["org.springframework.web", "org.springframework.http"]

theorem libraryNamespaces_subset {f : Feature} (hf : f ∈ k.features) :
    k.libraryNamespaces ⊆ f.namespaces := by
  cases k <;> simp only [features, List.mem_cons, List.not_mem_nil, or_false] at hf <;>
    rcases hf with rfl | rfl <;>
    simp [libraryNamespaces, Feature.namespaces, Feature.ownNamespaces]

/-- What a layer imports is in one of its namespaces or in a package of the language. -/
theorem cases_of_mem_libraryNames (k : Layer) (m : Entity) (p : Settings) :
    ∀ q ∈ k.libraryNames m p,
      (∃ ns ∈ k.libraryNamespaces, ImportBlock.IsFrom ns (ImportBlock.line q)) ∨
        ∃ cs, q = .ofList ('j' :: cs) := by
  cases k <;> simp only [libraryNames, libraryNamespaces] <;> (try split)
  all_goals simp only [Artifact.accessorImports, Artifact.controllerImports, List.cons_append,
    List.nil_append, List.forall_mem_cons, List.not_mem_nil, false_implies, implies_true, and_true]
  all_goals and_intros
  all_goals first
    | exact Or.inl ⟨_, List.mem_cons_self, ImportBlock.isFrom_line (by decide)⟩
    | exact Or.inl
        ⟨_, List.mem_cons_of_mem _ List.mem_cons_self, ImportBlock.isFrom_line (by decide)⟩
    | exact Or.inr ⟨_, rfl⟩

/-- **What a layer takes from a library is in one of its namespaces.** -/
theorem isFrom_of_mem_libraryNames (hq : q ∈ k.libraryNames m p) (hr : r ∈ Feature.roots)
    (hfrom : ImportBlock.IsFrom r (ImportBlock.line q)) :
    ∃ ns ∈ k.libraryNamespaces, ImportBlock.IsFrom ns (ImportBlock.line q) := by
  rcases cases_of_mem_libraryNames k m p q hq with h | ⟨cs, rfl⟩
  · exact h
  · -- the packages of the language start with another letter than the libraries
    obtain ⟨c, rest, hroot, -, -, hj, -⟩ := Feature.exists_root_cons hr
    have hchars : r.toList ++ ['.'] = c :: rest := by simpa using hroot
    rw [← String.ofList_toList (s := r), ImportBlock.isFrom_line_iff, hchars, List.cons_append,
      List.cons_prefix_cons] at hfrom
    exact absurd hfrom.1 hj

end Layer

/-! ### Features and imports -/

namespace Feature

variable {m : Entity} {p : Settings} {k : Layer} {f : Feature} {r line q : String}

/-- A feature of a layer is required if the layer is enabled and takes anything from the libraries,
other than by a service. -/
theorem mem_required_of_mem_features (hk : k.isEnabled p = true) (hservice : k ≠ .service)
    (hq : q ∈ k.libraryNames m p) (hf : f ∈ k.features) : f ∈ required p := by
  rw [mem_required_iff]
  cases k with
  | dto =>
    have hstyle : p.accessorStyle = true := by
      by_contra hstyle
      simp [Layer.libraryNames, hstyle] at hq
    rw [List.mem_singleton.1 hf]
    exact ⟨by simpa [Layer.isEnabled] using hk, hstyle⟩
  | mapper =>
    rw [List.mem_singleton.1 hf]
    exact hk
  | repository | controller =>
    rw [List.mem_singleton.1 hf]
    simpa [Layer.isEnabled] using hk
  | service => exact absurd rfl hservice

/-- The annotations for components come with no other features than those of a service. -/
theorem mem_features_service {ns : String} (hns : ns ∈ f.namespaces)
    (hin : ImportBlock.IsFrom ns line)
    (hcomponent : ImportBlock.IsFrom "org.springframework.stereotype" line) :
    f ∈ Layer.service.features := by
  cases f with
  | springDataJpa | springWeb => decide
  | mapStruct | lombok =>
    rw [List.mem_singleton.1 hns] at hin
    exact absurd hin (ImportBlock.not_isFrom_of_isFrom hcomponent (by decide) (by decide))
  | jpaEntity | other name => cases hns

/-- **A library type that an enabled layer takes is covered**, other than by a service without a
repository and a controller. -/
theorem covers_iff (hk : k.isEnabled p = true) (hq : q ∈ k.libraryNames m p) (hr : r ∈ roots)
    (hfrom : ImportBlock.IsFrom r (ImportBlock.line q)) :
    Covers p (ImportBlock.line q) ↔
      (k = .service → p.enabled .repository = true ∨ p.enabled .controller = true) := by
  obtain ⟨ns, hns, hin⟩ := Layer.isFrom_of_mem_libraryNames hq hr hfrom
  have hcovers : (∃ f ∈ k.features, f ∈ required p) → Covers p (ImportBlock.line q) :=
    fun ⟨f, hf, hrequired⟩ => ⟨f, hrequired, ns, Layer.libraryNamespaces_subset hf hns, hin⟩
  by_cases hservice : k = .service
  · subst hservice
    rw [List.mem_singleton.1 hns] at hin
    constructor
    · rintro ⟨f, hrequired, ns', hns', hin'⟩ -
      rcases List.mem_pair.1 (mem_features_service hns' hin' hin) with rfl | rfl
      · exact Or.inl (mem_required_iff.1 hrequired)
      · exact Or.inr (mem_required_iff.1 hrequired)
    · intro h
      rcases h rfl with h | h
      · exact hcovers ⟨.springDataJpa, by decide, mem_required_iff.2 h⟩
      · exact hcovers ⟨.springWeb, by decide, mem_required_iff.2 h⟩
  · have hfeature : ∃ f, f ∈ k.features := by
      cases k <;> exact ⟨_, List.mem_cons_self⟩
    obtain ⟨f, hf⟩ := hfeature
    exact iff_of_true (hcovers ⟨f, hf, mem_required_of_mem_features hk hservice hq hf⟩)
      fun h => absurd h hservice

/-- A required feature, other than the one for entities, brings a namespace that an enabled layer
takes a library type from. -/
theorem exists_libraryName_of_required (m : Entity) (hf : f ∈ required p) (hne : f ≠ .jpaEntity) :
    ∃ k : Layer, k.isEnabled p = true ∧ ∃ q ∈ k.libraryNames m p, ∃ ns ∈ f.ownNamespaces,
      ImportBlock.IsFrom ns (ImportBlock.line q) := by
  rw [mem_required_iff] at hf
  cases f with
  | jpaEntity => exact absurd rfl hne
  | springDataJpa =>
    exact ⟨.repository, by simpa [Layer.isEnabled] using hf,
      "org.springframework.data.jpa.repository.JpaRepository", by simp [Layer.libraryNames],
      "org.springframework.data", by decide, ImportBlock.isFrom_line (by decide)⟩
  | springWeb =>
    exact ⟨.controller, by simpa [Layer.isEnabled] using hf,
      "org.springframework.web.bind.annotation.RestController",
      by simp [Layer.libraryNames, Artifact.controllerImports],
      "org.springframework.web", by decide, ImportBlock.isFrom_line (by decide)⟩
  | mapStruct =>
    exact ⟨.mapper, hf, "org.mapstruct.Mapper", by simp [Layer.libraryNames],
      "org.mapstruct", by decide, ImportBlock.isFrom_line (by decide)⟩
  | lombok =>
    exact ⟨.dto, by simpa [Layer.isEnabled] using hf.1, "lombok.Data",
      by simp [Layer.libraryNames, hf.2, Artifact.accessorImports], "lombok", by decide,
      ImportBlock.isFrom_line (by decide)⟩
  | other name => cases hf

end Feature

namespace Artifact

variable {m : Entity} {p : Settings} {a : Artifact} {line : String}

/-- The line stands above the type in the text of an artifact. -/
def HasHeadLine (a : Artifact) (m : Entity) (p : Settings) (line : String) : Prop :=
  ∃ l, a.layer.listing? m p = .ok (some l) ∧ a.text = l.render ∧ line ∈ l.headLines

/-- A line above the type is a line of the text. -/
theorem HasHeadLine.mem_lines (h : a.HasHeadLine m p line) : line ∈ lines a.text.toList := by
  obtain ⟨l, -, htext, hline⟩ := h
  rw [htext, l.lines_render]
  exact List.mem_append_left _ hline

/-- The import line of a library type stands above the type. -/
theorem IsOf.hasHeadLine (h : a.IsOf m p) {q : String} (hq : q ∈ a.layer.libraryNames m p) :
    a.HasHeadLine m p (ImportBlock.line q) := by
  obtain ⟨l, hl, htext⟩ := Layer.text?_eq_some_iff.1 h.text
  exact ⟨l, hl, htext.symm, (Layer.lists_of_listing? hl).line_mem_headLines hq⟩

/-- An enabled layer has its artifact among all of an entity. -/
theorem exists_of_isEnabled {artifacts : List Artifact} (h : Artifact.all m p = .ok artifacts)
    {k : Layer} (hk : k.isEnabled p = true) : ∃ a ∈ artifacts, a.layer = k := by
  have hmem : k ∈ artifacts.map (·.layer) := by
    rw [map_layer_of_all h]
    exact List.mem_filter.2 ⟨by cases k <;> decide, hk⟩
  exact List.mem_map.1 hmem

/-- **Features are required for what is imported.** Where no own name of an entity lies under the
namespaces of the libraries, each import line from there belongs to a required feature, other than
the one of a service without a repository and a controller. And each required feature, other than
the one for entities, has an import line from a namespace of its own in one of the texts. -/
theorem covers_imports_iff {artifacts : List Artifact} (h : Artifact.all m p = .ok artifacts)
    (hclear : m.KeepsClear p) :
    (∀ a ∈ artifacts, ∀ line, a.HasHeadLine m p line →
      (∃ r ∈ Feature.roots, ImportBlock.IsFrom r line) →
        (Feature.Covers p line ↔
          (a.layer = .service → p.enabled .repository = true ∨ p.enabled .controller = true))) ∧
    ∀ f ∈ Feature.required p, f ≠ .jpaEntity → ∃ a ∈ artifacts, ∃ line, a.HasHeadLine m p line ∧
      ∃ ns ∈ f.ownNamespaces, ImportBlock.IsFrom ns line := by
  constructor
  · rintro a ha line ⟨l, hl, -, hline⟩ ⟨r, hr, hfrom⟩
    obtain ⟨q, hq, rfl⟩ :=
      (Layer.lists_of_listing? hl).isLibraryLine_of_isFrom hclear hr hline hfrom
    exact Feature.covers_iff (isOf_of_mem_all h ha).isEnabled hq hr hfrom
  · intro f hf hne
    obtain ⟨k, hk, q, hq, ns, hns, hfrom⟩ := Feature.exists_libraryName_of_required m hf hne
    obtain ⟨a, ha, rfl⟩ := exists_of_isEnabled h hk
    exact ⟨a, ha, _, (isOf_of_mem_all h ha).hasHeadLine hq, ns, hns, hfrom⟩

theorem isSolid_priceList : (Entity.describe .standard priceList).IsSolid :=
  SourceClass.IsSolid.describe ⟨.ofList (by decide), .ofList (by decide), by decide +kernel⟩

/-- With the standard settings, all imports of an order's texts are covered. -/
theorem covers_imports_priceList :
    (Entity.describe .standard priceList).KeepsClear .standard ∧
    ∃ artifacts, Artifact.all (.describe .standard priceList) .standard = .ok artifacts ∧
      (∀ a ∈ artifacts, ∀ line, a.HasHeadLine (.describe .standard priceList) .standard line →
        (∃ r ∈ Feature.roots, ImportBlock.IsFrom r line) → Feature.Covers .standard line) ∧
      ∀ f ∈ Feature.required .standard, f ≠ .jpaEntity →
        ∃ a ∈ artifacts, ∃ line, a.HasHeadLine (.describe .standard priceList) .standard line ∧
          ∃ ns ∈ f.ownNamespaces, ImportBlock.IsFrom ns line := by
  have hclear : (Entity.describe .standard priceList).KeepsClear .standard :=
    .of_isSolid isSolid_priceList isSolid_standard (by decide +kernel)
  obtain ⟨artifacts, hall, -⟩ := exists_of_layer (k := .service)
    (m := .describe .standard priceList) (p := .standard) (by decide +kernel)
  obtain ⟨hcovers, hrequired⟩ := covers_imports_iff hall hclear
  exact ⟨hclear, artifacts, hall, fun a ha line hline hfrom =>
    (hcovers a ha line hline hfrom).2 fun _ => Or.inl rfl, hrequired⟩

/-- A service that is generated alone imports an annotation that no required feature brings. -/
theorem not_covers_of_serviceAlone :
    (Entity.describe .standard priceList).KeepsClear (sparse [.service] "Service") ∧
    ∃ artifacts,
      Artifact.all (.describe .standard priceList) (sparse [.service] "Service") = .ok artifacts ∧
      ∃ a ∈ artifacts, ∃ line,
        a.HasHeadLine (.describe .standard priceList) (sparse [.service] "Service") line ∧
        line = "import org.springframework.stereotype.Service;" ∧
        ImportBlock.IsFrom "org.springframework" line ∧
        ¬ Feature.Covers (sparse [.service] "Service") line := by
  have hp : (sparse [.service] "Service").IsSolid := isSolid_sparse _ (.ofList (by decide))
  have hclear : (Entity.describe .standard priceList).KeepsClear (sparse [.service] "Service") :=
    .of_isSolid isSolid_priceList hp (by decide +kernel)
  obtain ⟨artifacts, hall, a, ha, hlayer, hof⟩ := exists_of_layer (k := .service)
    (m := .describe .standard priceList) (p := sparse [.service] "Service") (by decide +kernel)
  have hq : "org.springframework.stereotype.Service" ∈ a.layer.libraryNames
      (.describe .standard priceList) (sparse [.service] "Service") := by
    rw [hlayer]
    simp [Layer.libraryNames]
  have hfrom : ImportBlock.IsFrom "org.springframework"
      (ImportBlock.line "org.springframework.stereotype.Service") :=
    ImportBlock.isFrom_line (by decide)
  refine ⟨hclear, artifacts, hall, a, ha, _, hof.hasHeadLine hq, by decide, hfrom, ?_⟩
  intro hcovers
  have hother := (Feature.covers_iff hof.isEnabled hq (by decide) hfrom).1 hcovers hlayer
  revert hother
  decide

end Artifact

end EntityScaffold
