import EntityScaffold.Proofs.Artifact.ImportBlock

/-!
# Simple names of imports

A generated text writes a type by its simple name. Two imported types with one simple name are not
kept apart, and neither is an imported type from the one that the text declares, so the text is
unambiguous exactly if the simple names of all that its layer imports are distinct and none is the
artifact's own (`Artifact.isUnambiguous_iff`).
-/

namespace EntityScaffold

open Text

/-- The last part of a qualified name. -/
def simpleName (q : String) : String :=
  match cutLast '.' q.toList with
  | some (_, name) => .ofList name
  | none => q

/-- The simple name that an import line ends in. -/
def importedName (line : String) : String :=
  simpleName (.ofList (line.toList.drop "import ".toList.length).dropLast)

/-- No two import lines of a text end in one simple name, and none ends in the name that the text
itself declares. -/
structure IsUnambiguous (text declared : String) : Prop where
  imports : ((importBlock text).map importedName).Nodup
  declared : declared ∉ (importBlock text).map importedName

instance (text declared : String) : Decidable (IsUnambiguous text declared) :=
  decidable_of_iff (((importBlock text).map importedName).Nodup ∧
      declared ∉ (importBlock text).map importedName)
    ⟨fun h => ⟨h.1, h.2⟩, fun h => ⟨h.imports, h.declared⟩⟩

@[simp]
theorem importedName_line (q : String) : importedName (ImportBlock.line q) = simpleName q := by
  have hline : (ImportBlock.line q).toList = "import ".toList ++ (q.toList ++ [';']) := by
    simp [ImportBlock.line]
  rw [importedName, hline, List.drop_left, List.dropLast_concat, String.ofList_toList]

namespace Artifact

variable {a : Artifact} {m : Entity} {p : Settings}

theorem IsOf.mem_map_importedName (h : a.IsOf m p) (hm : m.IsSolid) (hp : p.IsSolid)
    {name : String} :
    name ∈ (importBlock a.text).map importedName ↔
      ∃ q ∈ a.layer.importedNames m p, simpleName q = name := by
  constructor
  · rintro hname
    obtain ⟨line, hline, rfl⟩ := List.mem_map.1 hname
    obtain ⟨q, hq, rfl⟩ := (h.mem_importBlock hm hp).1 hline
    exact ⟨q, hq, (importedName_line q).symm⟩
  · rintro ⟨q, hq, rfl⟩
    exact List.mem_map.2 ⟨_, (h.mem_importBlock hm hp).2 ⟨q, hq, rfl⟩, importedName_line q⟩

/-- Import lines that differ end in different simple names exactly if imported names do. -/
theorem IsOf.nodup_map_importedName_iff (h : a.IsOf m p) (hm : m.IsSolid) (hp : p.IsSolid) :
    ((importBlock a.text).map importedName).Nodup ↔
      ∀ q ∈ a.layer.importedNames m p, ∀ q' ∈ a.layer.importedNames m p,
        simpleName q = simpleName q' → q = q' := by
  have hnodup : (importBlock a.text).Nodup :=
    (h.pairwise_importBlock hm hp).imp fun hlt => hlt.ne
  rw [List.nodup_map_iff_inj_on hnodup]
  constructor
  · intro hinj q hq q' hq' hname
    have hline := hinj _ ((h.mem_importBlock hm hp).2 ⟨q, hq, rfl⟩) _
      ((h.mem_importBlock hm hp).2 ⟨q', hq', rfl⟩) (by simpa using hname)
    exact ImportBlock.line_injective hline
  · intro hinj line hline line' hline' hname
    obtain ⟨q, hq, rfl⟩ := (h.mem_importBlock hm hp).1 hline
    obtain ⟨q', hq', rfl⟩ := (h.mem_importBlock hm hp).1 hline'
    rw [hinj q hq q' hq' (by simpa using hname)]

/-- **When imports are unambiguous.** For a class and settings with solid names, the imports of a
generated text are unambiguous exactly if the names that its layer imports have distinct simple
names, none of which is the class name of the artifact. -/
theorem isUnambiguous_iff {c : SourceClass} {artifacts : List Artifact} (hc : c.IsSolid)
    (hp : p.IsSolid) (hm : Entity.ofClass? .standard c = some m)
    (h : Artifact.all m p = .ok artifacts) :
    ∀ a ∈ artifacts, IsUnambiguous a.text a.className ↔
      (∀ q ∈ a.layer.importedNames m p, ∀ q' ∈ a.layer.importedNames m p,
        simpleName q = simpleName q' → q = q') ∧
      ∀ q ∈ a.layer.importedNames m p, simpleName q ≠ a.className := by
  have hsolid : m.IsSolid := hc.of_ofClass? hm
  intro a ha
  have hof := isOf_of_mem_all h ha
  rw [← hof.nodup_map_importedName_iff hsolid hp]
  constructor
  · rintro ⟨himports, hdeclared⟩
    refine ⟨himports, fun q hq hname => hdeclared ?_⟩
    exact (hof.mem_map_importedName hsolid hp).2 ⟨q, hq, hname⟩
  · rintro ⟨himports, hdeclared⟩
    refine ⟨himports, fun hname => ?_⟩
    obtain ⟨q, hq, heq⟩ := (hof.mem_map_importedName hsolid hp).1 hname
    exact hdeclared q hq heq

/-- An order with two fields of given types. -/
def orderWith (created shipped : String) : SourceClass where
  name := "Order"
  package := "shop"
  annotations := [⟨"jakarta.persistence.Entity", []⟩]
  fields :=
    [{ name := "id", typeText := "long", annotations := [⟨"jakarta.persistence.Id", []⟩] },
     { name := "created", typeText := created },
     { name := "shipped", typeText := shipped }]

/-- Settings under which only some layers are generated, with one suffix and without annotations. -/
def sparse (layers : List Layer) (suffix : String) : Settings :=
  { Settings.standard with
    layer := fun k => ⟨k ∈ layers, suffix, (Settings.standard.layer k).subPackage⟩
    accessorStyle := false }

theorem isSolid_sparse (layers : List Layer) {suffix : String} (h : Text.IsSolid suffix) :
    (sparse layers suffix).IsSolid where
  suffix _ := h
  subPackage := isSolid_standard.subPackage
  basePackage := isSolid_standard.basePackage

/-- Two dates of one class bring no ambiguity about. -/
theorem isUnambiguous_oneDate :
    ∃ artifacts,
      Artifact.all (.describe .standard (orderWith "java.util.Date" "Date"))
        (sparse [.dto] "Dto") = .ok artifacts ∧
      ∃ a ∈ artifacts, a.layer = .dto ∧ IsUnambiguous a.text a.className := by
  have hc : (orderWith "java.util.Date" "Date").IsSolid :=
    ⟨.ofList (by decide), .ofList (by decide), by decide +kernel⟩
  have hentity : Entity.ofClass? .standard (orderWith "java.util.Date" "Date") =
      some (.describe .standard (orderWith "java.util.Date" "Date")) :=
    if_pos (by decide +kernel)
  have hp : (sparse [.dto] "Dto").IsSolid := isSolid_sparse _ (.ofList (by decide))
  obtain ⟨artifacts, hall, a, ha, hlayer, hof⟩ := exists_of_layer (k := .dto)
    (m := .describe .standard (orderWith "java.util.Date" "Date")) (p := sparse [.dto] "Dto")
    (by decide +kernel)
  refine ⟨artifacts, hall, a, ha, hlayer, ?_⟩
  rw [isUnambiguous_iff hc hp hentity hall a ha, hof.className_eq, hlayer]
  decide +kernel

/-! ### Ambiguous texts -/

/-- The text of a layer is generated for an entity, and it is ambiguous. -/
def IsAmbiguous (k : Layer) (m : Entity) (p : Settings) : Prop :=
  ∃ artifacts, Artifact.all m p = .ok artifacts ∧
    ∃ a ∈ artifacts, a.layer = k ∧ ¬ IsUnambiguous a.text a.className

section Ambiguous

variable {k : Layer} {m : Entity} {p : Settings}

/-- The text of a layer is ambiguous if the layer has one, and every artifact of it is. -/
theorem isAmbiguous_of (hlayer : (Artifact.all m p).toOption.any (·.any (·.layer = k)) = true)
    (h : ∀ a : Artifact, a.IsOf m p → a.layer = k → ¬ IsUnambiguous a.text a.className) :
    IsAmbiguous k m p := by
  obtain ⟨artifacts, hall, a, ha, hk, hof⟩ := exists_of_layer hlayer
  exact ⟨artifacts, hall, a, ha, hk, h a hof hk⟩

/-- So it is if two import lines of its listing's text end in one simple name, where a line of the
listing may be several lines of the text. -/
theorem isAmbiguous_of_lines {l : Listing} {first : String} {rest : List String}
    (hlayer : (Artifact.all m p).toOption.any (·.any (·.layer = k)) = true)
    (hlisting : k.listing? m p = .ok (some l))
    (hlines : ImportBlock.lines l.imports = first :: rest)
    (h : ∀ text : String,
      text.toList = unlines (l.packageLines ++ (first :: rest ++ [""]) ++ l.typeLines) →
        ¬ ((importBlock text).map importedName).Nodup) : IsAmbiguous k m p := by
  refine isAmbiguous_of hlayer fun a hof hk hunambiguous => ?_
  subst hk
  refine h a.text ?_ hunambiguous.imports
  rw [hof.text_eq hlisting, Listing.toList_render, Listing.allLines, Listing.importLines, hlines]

end Ambiguous

theorem isAmbiguous_twoDates :
    IsAmbiguous .dto (.describe .standard (orderWith "java.util.Date" "java.sql.Date"))
      (sparse [.dto] "Dto") := by
  have hc : (orderWith "java.util.Date" "java.sql.Date").IsSolid :=
    ⟨.ofList (by decide), .ofList (by decide), by decide +kernel⟩
  have hp : (sparse [.dto] "Dto").IsSolid := isSolid_sparse _ (.ofList (by decide))
  refine isAmbiguous_of (by decide +kernel) fun a hof hlayer h => ?_
  have hinj := (hof.nodup_map_importedName_iff hc.describe hp).1 h.imports
  rw [hlayer] at hinj
  have hsame := hinj "java.util.Date" (by decide +kernel) "java.sql.Date" (by decide +kernel)
    (by decide +kernel)
  revert hsame
  decide

theorem isAmbiguous_ownName :
    IsAmbiguous .service (.describe .standard (orderWith "String" "String"))
      (sparse [.service] "") := by
  have hc : (orderWith "String" "String").IsSolid :=
    ⟨.ofList (by decide), .ofList (by decide), by decide +kernel⟩
  have hp : (sparse [.service] "").IsSolid := isSolid_sparse _ (.ofList (by decide))
  refine isAmbiguous_of (by decide +kernel) fun a hof hlayer h => h.declared ?_
  rw [hof.mem_map_importedName hc.describe hp, hof.className_eq, hlayer]
  exact ⟨"shop.Order", by decide +kernel, by decide +kernel⟩

/-- A type text that holds an import line makes two lines of one import. -/
theorem isAmbiguous_typeText :
    IsAmbiguous .dto (.describe .standard (orderWith "List" "x.List;\nimport y.A"))
      (sparse [.dto] "Dto") ∧
    ((Layer.dto.importedNames (.describe .standard (orderWith "List" "x.List;\nimport y.A"))
      (sparse [.dto] "Dto")).map simpleName).Nodup := by
  have hlines : ImportBlock.lines (dto (.describe .standard
      (orderWith "List" "x.List;\nimport y.A")) (sparse [.dto] "Dto")).imports =
        ["import java.util.List;", "import x.List;\nimport y.A;"] :=
    sortedSet_eq (by decide +kernel) (by decide +kernel) (by decide +kernel)
  refine ⟨isAmbiguous_of_lines (by decide +kernel) rfl hlines fun text htext => ?_,
    by decide +kernel⟩
  rw [importBlock, htext]
  decide +kernel

/-- So does a suffix. -/
theorem isAmbiguous_suffix :
    IsAmbiguous .mapper (.describe .standard (orderWith "String" "String"))
      (sparse [.dto, .mapper] ";\nimport x.List;\nimport y.A") ∧
    ((Layer.mapper.importedNames (.describe .standard (orderWith "String" "String"))
      (sparse [.dto, .mapper] ";\nimport x.List;\nimport y.A")).map simpleName).Nodup := by
  have hlines : ImportBlock.lines (mapper (.describe .standard (orderWith "String" "String"))
      (sparse [.dto, .mapper] ";\nimport x.List;\nimport y.A")).imports =
        ["import java.util.List;", "import org.mapstruct.Mapper;", "import shop.Order;",
         "import shop.dto.Order;\nimport x.List;\nimport y.A;"] :=
    sortedSet_eq (by decide +kernel) (by decide +kernel) (by decide +kernel)
  refine ⟨isAmbiguous_of_lines (by decide +kernel) rfl hlines fun text htext => ?_,
    by decide +kernel⟩
  rw [importBlock, htext]
  decide +kernel

/-- **Imports need not be unambiguous**: two classes of one simple name may be imported, and so may
a class of the artifact's own name. Where a type text or a suffix holds import lines of its own,
there is an ambiguity even though the imported names have distinct last parts. -/
theorem exists_ambiguous_imports :
    IsAmbiguous .dto (.describe .standard (orderWith "java.util.Date" "java.sql.Date"))
      (sparse [.dto] "Dto") ∧
    IsAmbiguous .service (.describe .standard (orderWith "String" "String"))
      (sparse [.service] "") ∧
    (IsAmbiguous .dto (.describe .standard (orderWith "List" "x.List;\nimport y.A"))
        (sparse [.dto] "Dto") ∧
      ((Layer.dto.importedNames (.describe .standard (orderWith "List" "x.List;\nimport y.A"))
        (sparse [.dto] "Dto")).map simpleName).Nodup) ∧
    (IsAmbiguous .mapper (.describe .standard (orderWith "String" "String"))
        (sparse [.dto, .mapper] ";\nimport x.List;\nimport y.A") ∧
      ((Layer.mapper.importedNames (.describe .standard (orderWith "String" "String"))
        (sparse [.dto, .mapper] ";\nimport x.List;\nimport y.A")).map simpleName).Nodup) :=
  ⟨isAmbiguous_twoDates, isAmbiguous_ownName, isAmbiguous_typeText, isAmbiguous_suffix⟩

end Artifact

end EntityScaffold
