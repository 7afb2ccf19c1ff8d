import EntityScaffold.Entity.OfClass
import EntityScaffold.Proofs.Artifact.Declaration
import EntityScaffold.Proofs.Artifact.Projection
import EntityScaffold.Proofs.Artifact.Reference
import EntityScaffold.Proofs.Text.Solid

/-!
# Import blocks

The import lines of a generated text are those of its listing, one for each name and in order
(`Layer.Lists.mem_importBlock_render`), as long as no name has blanks or semicolons. Every type that
is written out is then imported with all types inside it, from wherever it comes
(`Artifact.imports_complete`).
-/

namespace EntityScaffold

open Text

/-- The import lines at the head of a text, after its package and blank lines. -/
def importBlock (text : String) : List String :=
  ((lines text.toList).dropWhile fun l => startsWith l "package " || l == "").takeWhile
    (startsWith · "import ")

/-! ### Solid classes, entities and settings -/

/-- The names of a class and of the types of its state have neither blanks nor semicolons. -/
structure SourceClass.IsSolid (c : SourceClass) : Prop where
  name : Text.IsSolid c.name
  package : Text.IsSolid c.package
  types : ∀ f ∈ c.stateFields, ∀ n ∈ (TypeTable.standard.resolve f.typeText).nodes,
    Text.IsSolid n.qualifiedName

/-- Suffixes and packages have neither blanks nor semicolons. -/
structure Settings.IsSolid (p : Settings) : Prop where
  suffix : ∀ k, Text.IsSolid (p.layer k).suffix
  subPackage : ∀ k, Text.IsSolid (p.layer k).subPackage
  basePackage : Text.IsSolid p.basePackage

/-- The names of an entity and of its types have neither blanks nor semicolons, and the simple names
of its types are told from their namespaces. -/
structure Entity.IsSolid (m : Entity) : Prop where
  className : Text.IsSolid m.className
  package : Text.IsSolid m.package
  types : ∀ f ∈ m.fields, ∀ n ∈ f.type.nodes, Text.IsSolid n.qualifiedName ∧ n.IsCanonical

theorem SourceClass.IsSolid.describe {c : SourceClass} (h : c.IsSolid) :
    (Entity.describe .standard c).IsSolid where
  className := h.name
  package := h.package
  types := by
    intro f hf n hn
    obtain ⟨g, hg, rfl⟩ := List.mem_map.1 hf
    exact ⟨h.types g hg n hn, TypeTable.standard_isCanonical _ n hn⟩

theorem SourceClass.IsSolid.of_ofClass? {c : SourceClass} {m : Entity} (h : c.IsSolid)
    (hm : Entity.ofClass? .standard c = some m) : m.IsSolid := by
  unfold Entity.ofClass? at hm
  split at hm
  · exact Option.some.inj hm ▸ h.describe
  · cases hm

namespace Layer

variable {m : Entity} {p : Settings} {k : Layer} {l : Listing}

theorem isSolid_className (hm : m.IsSolid) (hp : p.IsSolid) (k : Layer) :
    Text.IsSolid (k.className m p) :=
  hm.className.append (hp.suffix k)

theorem isSolid_package (hm : m.IsSolid) (hp : p.IsSolid) (k : Layer) :
    Text.IsSolid (k.package m p) := by
  refine Package.isSolid_joinParts fun s hs => ?_
  rcases List.mem_pair.1 hs with rfl | rfl
  · split
    · exact hm.package
    · exact hp.basePackage.stripOf _
  · exact hp.subPackage k

theorem qualifiedName_eq (k : Layer) :
    k.qualifiedName m p = ResolvedType.qualify (k.package m p) (k.className m p) := by
  rw [qualifiedName, Identity.qualifiedName, identity]

theorem isSolid_qualifiedName (hm : m.IsSolid) (hp : p.IsSolid) (k : Layer) :
    Text.IsSolid (k.qualifiedName m p) := by
  rw [qualifiedName_eq]
  exact ResolvedType.isSolid_qualify (isSolid_package hm hp k) (isSolid_className hm hp k)

/-- What holds of the nodes of all fields, and of classes that stand for primitives, holds of the
nodes of all types that are written out. -/
theorem forall_nodes_writtenTypes {P : ResolvedType → Prop}
    (hfields : ∀ f ∈ m.fields, ∀ n ∈ f.type.nodes, P n)
    (hboxed : ∀ w ∈ ResolvedType.wrappers.map (·.2),
      P (.plain .boxed w ResolvedType.languageNamespace))
    {t : ResolvedType} (ht : t ∈ k.writtenTypes m p) : ∀ n ∈ t.nodes, P n := by
  have hlong : ∀ n ∈ ResolvedType.boxedLong.nodes, P n := by
    intro n hn
    rw [ResolvedType.boxedLong, ResolvedType.nodes_plain, List.mem_singleton] at hn
    exact hn ▸ hboxed "Long" (by decide)
  have hid : ∀ n ∈ m.identifierType.nodes, P n := by
    rcases m.identifierType_cases with h | ⟨f, hf, h⟩
    · rwa [h]
    · rcases f.type.boxed_cases with hsame | ⟨w, hw, hwrapper⟩
      · rw [h, hsame]
        exact hfields f hf
      · rw [h, hwrapper, ResolvedType.nodes_plain]
        intro n hn
        exact List.mem_singleton.1 hn ▸ hboxed w hw
  cases k with
  | dto =>
    obtain ⟨f, hf, rfl⟩ := List.mem_map.1 ht
    rcases Entity.projection_type hf with h | ⟨g, hg, h⟩
    · rwa [h]
    · rw [h]
      exact hfields g hg
  | mapper => cases ht
  | repository =>
    rcases List.mem_cons.1 ht with rfl | ht
    · exact hid
    · obtain ⟨f, hf, rfl⟩ := List.mem_map.1 ht
      unfold Artifact.queryAttributes at hf
      split at hf
      · exact hfields f (Entity.mem_fields_of_mem_queried hf)
      · cases hf
  | service | controller =>
    rw [List.mem_singleton.1 ht]
    exact hid

/-- The library types of all layers. -/
def libraryTypes : List String :=
  Artifact.accessorImports ++ Artifact.controllerImports ++
    ["java.util.Optional", "java.util.stream.Collectors", "org.mapstruct.Mapper",
     "org.mapstruct.Mapping", "org.springframework.data.jpa.repository.JpaRepository",
     "org.springframework.stereotype.Repository", "org.springframework.stereotype.Service"]

theorem libraryNames_subset (k : Layer) (m : Entity) (p : Settings) :
    k.libraryNames m p ⊆ libraryTypes := by
  unfold libraryTypes
  cases k with
  | dto =>
    simp only [libraryNames]
    split <;> simp
  | mapper | repository =>
    simp only [libraryNames]
    split <;> simp [Artifact.controllerImports]
  | service => simp [libraryNames, Artifact.controllerImports]
  | controller =>
    simp only [libraryNames]
    split <;> simp

theorem isSolid_of_mem_libraryTypes : ∀ q ∈ libraryTypes, Text.IsSolid q ∧ q ≠ "" := by
  simp only [libraryTypes, Artifact.accessorImports, Artifact.controllerImports,
    List.cons_append, List.nil_append, List.forall_mem_cons]
  and_intros
  all_goals first | exact .ofList (by decide) | simp

/-- **Solid names make solid references**: all that is imported has a name without blanks and
semicolons. -/
theorem isSolid_of_mem_importedNames (hm : m.IsSolid) (hp : p.IsSolid) {q : String}
    (hq : q ∈ k.importedNames m p) : Text.IsSolid q ∧ q ≠ "" := by
  rcases List.mem_append.1 hq with hq | hq
  · obtain ⟨hreference, hpackage⟩ := mem_foreign.1 hq
    constructor
    · simp only [references, List.mem_append, List.mem_map, List.mem_flatMap] at hreference
      rcases hreference with (hself | ⟨j, -, rfl⟩) | ⟨t, ht, himport⟩
      · split at hself
        · cases hself
        · rw [List.mem_singleton.1 hself]
          exact ResolvedType.isSolid_qualify hm.package hm.className
      · exact isSolid_qualifiedName hm hp j
      · obtain ⟨n, hn, -, rfl⟩ := ResolvedType.mem_imports.1 himport
        exact forall_nodes_writtenTypes (P := fun n => Text.IsSolid n.qualifiedName)
          (fun f hf n hn => (hm.types f hf n hn).1) (by decide) ht n hn
    · rintro rfl
      have hnone : Listing.packageOf? "" = none := by decide
      rw [hnone] at hpackage
      cases hpackage
  · exact isSolid_of_mem_libraryTypes q (k.libraryNames_subset m p hq)

end Layer

/-! ### The import block of a listing -/

namespace Listing

variable {l : Listing}

/-- The lines of the type start with an annotation or a declaration. -/
def Opens (l : Listing) : Prop :=
  ∃ first rest, l.typeLines = first :: rest ∧
    ("@".toList <+: first.toList ∨ "public ".toList <+: first.toList)

theorem opens_of_marking {marking : String} {rest : List String} (h : l.markings = marking :: rest)
    (hmarking : "@".toList <+: marking.toList := by decide) : l.Opens :=
  ⟨marking, _, by rw [typeLines, h, List.cons_append], Or.inl hmarking⟩

theorem opens_of_declaration (hm : l.markings = [])
    (hd : "public ".toList <+: l.declaration.toList) : l.Opens := by
  have hfirst : "public ".toList <+: (l.declaration ++ " \x7b").toList := by
    rw [String.toList_append]
    exact hd.trans (List.prefix_append _ _)
  unfold Opens typeLines
  rw [hm, List.nil_append]
  cases l.members with
  | nil => exact ⟨_, _, rfl, Or.inr hfirst⟩
  | cons first rest => exact ⟨_, _, rfl, Or.inr hfirst⟩

theorem toList_render (l : Listing) : l.render.toList = unlines l.allLines :=
  toList_join (List.ne_nil_of_mem l.declaration_mem_allLines)

/-- With solid names, the lines above the type are single lines. -/
theorem newline_notMem_of_mem_head (hpackage : Text.IsSolid l.package)
    (himports : ∀ q ∈ l.imports, Text.IsSolid q ∧ q ≠ "") {line : String}
    (h : line ∈ l.packageLines ++ l.importLines) : '\n' ∉ line.toList := by
  rcases List.mem_append.1 h with h | h
  · unfold packageLines at h
    split at h
    · cases h
    · rcases List.mem_pair.1 h with rfl | rfl
      · simp [hpackage.newline_notMem]
      · decide
  · unfold importLines at h
    split at h
    · cases h
    · rcases List.mem_append.1 h with h | h
      · obtain ⟨q, hq, rfl⟩ := (ImportBlock.mem_lines himports).1 h
        exact ImportBlock.newline_notMem_line (himports q hq).1
      · rw [List.mem_singleton.1 h]
        decide

/-- A line that is an annotation or starts a declaration is neither an import nor passed over. -/
theorem ends_importBlock {line : String}
    (h : "@".toList <+: line.toList ∨ "public ".toList <+: line.toList) :
    (startsWith line "package " || line == "") = false ∧ startsWith line "import " = false := by
  obtain ⟨w, s, hw, rfl⟩ : ∃ w s, (w = "@" ∨ w = "public ") ∧ line = w ++ String.ofList s := by
    rcases h with ⟨s, hs⟩ | ⟨s, hs⟩
    · exact ⟨"@", s, Or.inl rfl, by simp [← String.toList_inj, ← hs]⟩
    · exact ⟨"public ", s, Or.inr rfl, by simp [← String.toList_inj, ← hs]⟩
  rcases hw with rfl | rfl <;> constructor <;> simp [startsWith, List.isPrefixOf]

/-- The first line of the type ends the import block. -/
theorem Opens.exists_lines (h : l.Opens) :
    ∃ first rest, lines (unlines l.typeLines) = first :: rest ∧
      (startsWith first "package " || first == "") = false ∧ startsWith first "import " = false := by
  obtain ⟨first, rest, htype, hfirst⟩ := h
  -- a line of the listing may hold line ends; its start stands in the first line all the same
  have hstart {w : List Char} (hw : '\n' ∉ w) (h : w <+: first.toList) :
      ∃ first' rest', lines (unlines l.typeLines) = first' :: rest' ∧ w <+: first'.toList := by
    obtain ⟨s, hs⟩ := h
    obtain ⟨first', rest', hlines, hprefix⟩ :=
      exists_lines_append hw (s ++ ['\n'] ++ unlines rest)
    refine ⟨first', rest', ?_, hprefix⟩
    rw [← hlines, htype]
    simp [unlines, ← hs]
  rcases hfirst with hfirst | hfirst
  · obtain ⟨first', rest', hlines, hprefix⟩ := hstart (by decide) hfirst
    exact ⟨first', rest', hlines, ends_importBlock (.inl hprefix)⟩
  · obtain ⟨first', rest', hlines, hprefix⟩ := hstart (by decide) hfirst
    exact ⟨first', rest', hlines, ends_importBlock (.inr hprefix)⟩

/-- The lines of an import block are imports, and none of them is passed over. -/
theorem isImport_of_mem_lines (himports : ∀ q ∈ l.imports, Text.IsSolid q ∧ q ≠ "") {line : String}
    (h : line ∈ ImportBlock.lines l.imports) :
    startsWith line "import " = true ∧ (startsWith line "package " || line == "") = false := by
  obtain ⟨q, -, rfl⟩ := (ImportBlock.mem_lines himports).1 h
  constructor
  · simp [startsWith, ImportBlock.line]
  · simp [startsWith, ImportBlock.line, List.isPrefixOf]

/-- **The import block of a text is that of its listing.** -/
theorem importBlock_render (hpackage : Text.IsSolid l.package)
    (himports : ∀ q ∈ l.imports, Text.IsSolid q ∧ q ≠ "") (hopens : l.Opens) :
    importBlock l.render = ImportBlock.lines l.imports := by
  obtain ⟨first, rest, hlines, hskip, himport⟩ := hopens.exists_lines
  have hall : lines l.render.toList = l.packageLines ++ (l.importLines ++ first :: rest) := by
    rw [toList_render, allLines, unlines_append, lines_append, hlines, List.append_assoc]
    exact fun line => newline_notMem_of_mem_head hpackage himports
  have hpassed : ∀ line ∈ l.packageLines,
      (startsWith line "package " || line == "") = true := by
    unfold packageLines
    split
    · simp
    · simp [startsWith]
  rw [importBlock, hall, List.dropWhile_append_of_pos hpassed, importLines]
  cases hblock : ImportBlock.lines l.imports with
  | nil => simp [hskip, himport]
  | cons line block =>
    have hline : ∀ x ∈ line :: block, startsWith x "import " = true ∧
        (startsWith x "package " || x == "") = false := fun x hx =>
      isImport_of_mem_lines himports (hblock ▸ hx)
    have hstop : startsWith "" "import " = false := by decide
    dsimp only
    rw [List.append_assoc, List.cons_append, List.dropWhile_cons_of_neg
        (by simp [(hline line List.mem_cons_self).2]), ← List.cons_append,
      List.takeWhile_append_of_pos fun x hx => (hline x hx).1]
    simp [hstop]

end Listing

namespace Layer.Lists

variable {m : Entity} {p : Settings} {k : Layer} {l : Listing}

theorem opens (h : Lists m p k l) : l.Opens := by
  cases h with
  | dto =>
    cases hstyle : p.accessorStyle with
    | false =>
      exact Listing.opens_of_declaration (by simp [Artifact.dto, hstyle]) (by simp [Artifact.dto])
    | true =>
      have hmarkings : (Artifact.dto m p).markings = Artifact.accessorMarkings := by
        simp [Artifact.dto, hstyle]
      exact Listing.opens_of_marking hmarkings
  | mapper | repository | service | controller => exact Listing.opens_of_marking rfl

/-- **A generated text has one import line for each name that its layer imports.** -/
theorem mem_importBlock_render (h : Lists m p k l) (hm : m.IsSolid) (hp : p.IsSolid)
    {line : String} :
    line ∈ importBlock l.render ↔ ∃ q ∈ k.importedNames m p, ImportBlock.line q = line := by
  have himports : ∀ q ∈ l.imports, Text.IsSolid q ∧ q ≠ "" := fun q hq =>
    isSolid_of_mem_importedNames hm hp (h.mem_imports_iff.1 hq)
  have hpackage : Text.IsSolid l.package := h.package_eq ▸ isSolid_package hm hp k
  rw [Listing.importBlock_render hpackage himports h.opens, ImportBlock.mem_lines himports]
  simp only [h.mem_imports_iff]

theorem pairwise_importBlock_render (h : Lists m p k l) (hm : m.IsSolid) (hp : p.IsSolid) :
    (importBlock l.render).Pairwise (· < ·) := by
  have himports : ∀ q ∈ l.imports, Text.IsSolid q ∧ q ≠ "" := fun q hq =>
    isSolid_of_mem_importedNames hm hp (h.mem_imports_iff.1 hq)
  have hpackage : Text.IsSolid l.package := h.package_eq ▸ isSolid_package hm hp k
  rw [Listing.importBlock_render hpackage himports h.opens]
  exact pairwise_lt_sortedSet _

end Layer.Lists

/-! ### All that is written out is imported -/

namespace Artifact

variable {a : Artifact} {m : Entity} {p : Settings}

theorem IsOf.exists_lists (h : a.IsOf m p) :
    ∃ l, Layer.Lists m p a.layer l ∧ a.text = l.render := by
  obtain ⟨l, hl, htext⟩ := Layer.text?_eq_some_iff.1 h.text
  exact ⟨l, Layer.lists_of_listing? hl, htext.symm⟩

theorem IsOf.package_eq (h : a.IsOf m p) : a.package = a.layer.package m p := by
  rw [package, h.identity, Layer.identity]

theorem IsOf.className_eq (h : a.IsOf m p) : a.className = a.layer.className m p := by
  rw [className, h.identity, Layer.identity]

theorem IsOf.mem_importBlock (h : a.IsOf m p) (hm : m.IsSolid) (hp : p.IsSolid) {line : String} :
    line ∈ importBlock a.text ↔ ∃ q ∈ a.layer.importedNames m p, ImportBlock.line q = line := by
  obtain ⟨l, hl, htext⟩ := h.exists_lists
  rw [htext, hl.mem_importBlock_render hm hp]

theorem IsOf.pairwise_importBlock (h : a.IsOf m p) (hm : m.IsSolid) (hp : p.IsSolid) :
    (importBlock a.text).Pairwise (· < ·) := by
  obtain ⟨l, hl, htext⟩ := h.exists_lists
  rw [htext]
  exact hl.pairwise_importBlock_render hm hp

/-- A node of a type that is written out is a reference of the layer to the node's namespace. -/
theorem mem_importedNames_of_node (hm : m.IsSolid) {k : Layer} {t n : ResolvedType}
    (ht : t ∈ k.writtenTypes m p) (hn : n ∈ t.nodes) (hns : n.ns ≠ "")
    (hlanguage : n.ns ≠ ResolvedType.languageNamespace) (hpackage : n.ns ≠ k.package m p) :
    n.qualifiedName ∈ k.importedNames m p := by
  have hcanonical : n.IsCanonical :=
    Layer.forall_nodes_writtenTypes (P := ResolvedType.IsCanonical)
      (fun f hf n hn => (hm.types f hf n hn).2) (by decide) ht n hn
  have himport : n.qualifiedName ∈ t.imports :=
    ResolvedType.mem_imports.2 ⟨n, hn, hcanonical.needsImport_iff.2 ⟨hns, hlanguage⟩, rfl⟩
  refine List.mem_append_left _ (Layer.mem_foreign.2 ⟨?_, ?_⟩)
  · exact List.mem_append_right _ (List.mem_flatMap.2 ⟨t, ht, himport⟩)
  · rw [hcanonical.packageOf? hns]
    simpa using hpackage

/-- **Imports are complete and in order.** In every text that is generated for a class with solid
names, each node of each type that is written out is imported, unless its namespace is empty, the
language's own or the artifact's package; and the import lines ascend strictly. -/
theorem imports_complete {c : SourceClass} {artifacts : List Artifact} (hc : c.IsSolid)
    (hp : p.IsSolid) (hm : Entity.ofClass? .standard c = some m)
    (h : Artifact.all m p = .ok artifacts) :
    ∀ a ∈ artifacts,
      (∀ t ∈ a.layer.writtenTypes m p, ∀ n ∈ t.nodes, n.isPrimitive = false → n.ns ≠ "" →
        n.ns ≠ ResolvedType.languageNamespace → n.ns ≠ a.package →
        ImportBlock.line n.qualifiedName ∈ importBlock a.text) ∧
      (importBlock a.text).Pairwise (· < ·) := by
  have hsolid : m.IsSolid := hc.of_ofClass? hm
  intro a ha
  have hof := isOf_of_mem_all h ha
  refine ⟨fun t ht n hn _ hns hlanguage hpackage => ?_, hof.pairwise_importBlock hsolid hp⟩
  rw [hof.package_eq] at hpackage
  exact (hof.mem_importBlock hsolid hp).2
    ⟨_, mem_importedNames_of_node hsolid ht hn hns hlanguage hpackage, rfl⟩

/-- An order with a price list from another package. -/
def priceList : SourceClass where
  name := "Order"
  package := "shop"
  annotations := [⟨"jakarta.persistence.Entity", []⟩]
  fields :=
    [{ name := "id", typeText := "long", annotations := [⟨"jakarta.persistence.Id", []⟩] },
     { name := "prices",
       typeText := "java.util.Map<java.util.UUID, ? extends shop.model.Money[]>" }]

theorem isSolid_standard : Settings.standard.IsSolid where
  suffix k := by cases k <;> exact .ofList (by decide)
  subPackage k := by cases k <;> exact .ofList (by decide)
  basePackage := .ofList (by decide)

/-- The transfer object of a price list imports the element type of the arrays that bound an
argument. -/
theorem imports_priceList :
    ∃ artifacts, Artifact.all (.describe .standard priceList) .standard = .ok artifacts ∧
      ∃ a ∈ artifacts, a.layer = .dto ∧
        "import shop.model.Money;" ∈ importBlock a.text ∧
        (importBlock a.text).Pairwise (· < ·) := by
  obtain ⟨artifacts, hall, a, ha, hlayer, hof⟩ := exists_of_layer (k := .dto)
    (m := .describe .standard priceList) (p := .standard) (by decide +kernel)
  refine ⟨artifacts, hall, a, ha, hlayer, ?_⟩
  have hsolid : priceList.IsSolid := ⟨.ofList (by decide), .ofList (by decide), by decide +kernel⟩
  have hentity : Entity.ofClass? .standard priceList = some (.describe .standard priceList) :=
    if_pos (by decide +kernel)
  obtain ⟨himports, hsorted⟩ := imports_complete hsolid isSolid_standard hentity hall a ha
  have hmoney : ∃ t ∈ Layer.dto.writtenTypes (.describe .standard priceList) .standard,
      ∃ n ∈ t.nodes, n.qualifiedName = "shop.model.Money" ∧ n.isPrimitive = false ∧ n.ns ≠ "" ∧
        n.ns ≠ ResolvedType.languageNamespace ∧
        n.ns ≠ Layer.dto.package (.describe .standard priceList) .standard := by
    decide +kernel
  obtain ⟨t, ht, n, hn, hname, hprimitive, hns, hlanguage, hpackage⟩ := hmoney
  have hline := himports t (hlayer ▸ ht) n hn hprimitive hns hlanguage
    (by rwa [hof.package_eq, hlayer])
  rw [hname] at hline
  exact ⟨hline, hsorted⟩

end Artifact

end EntityScaffold
