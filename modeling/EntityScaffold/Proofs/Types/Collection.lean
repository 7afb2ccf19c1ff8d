import EntityScaffold.Entity.OfClass
import EntityScaffold.Proofs.Text.Trim
import EntityScaffold.Proofs.Types.Resolver

/-!
# Collections and what they resolve to

Whether a type text names a collection is told from its head alone, and what it resolves to is told
by a table first. Both agree, since no known type is a collection and no collection is a known type
(`TypeTable.collectionHead?_eq_some_iff`): a text that is no wildcard names a collection exactly if
it resolves to one that is no array, and its elements are of the last argument of the resolved type
(`TypeTable.collection_agrees`).
-/

namespace EntityScaffold

open Text

namespace TypeTable

/-! ### Heads -/

/-- A collection's head is its simple name, or that name behind its namespace. -/
theorem collectionHead?_cases {head : List Char} {name : String}
    (h : collectionHead? head = some name) :
    name ∈ collectionNames ∧
      (String.ofList head = name ∨ head = "java.util.".toList ++ name.toList) := by
  unfold collectionHead? at h
  dsimp only at h
  split_ifs at h with hhead hsimple
  · obtain rfl := Option.some.inj h
    exact ⟨hhead, Or.inl rfl⟩
  · obtain rfl := Option.some.inj h
    refine ⟨hsimple, Or.inr ?_⟩
    cases hdrop : dropStart? "java.util.".toList head with
    | none =>
      rw [hdrop, Option.getD_none] at hsimple
      exact absurd hsimple hhead
    | some simple =>
      have hchars : (String.ofList simple).toList = simple := String.toList_ofList
      rw [Option.getD_some, hchars]
      exact eq_append_of_dropStart? hdrop

/-- No collection is a known type. -/
theorem find?_collectionHead {head : List Char} {name : String}
    (h : collectionHead? head = some name) : standard.find? (.ofList head) = none := by
  have hunknown : ∀ name ∈ collectionNames, standard.find? name = none ∧
      standard.find? (.ofList ("java.util.".toList ++ name.toList)) = none := by
    decide +kernel
  obtain ⟨hname, hhead | hhead⟩ := collectionHead?_cases h
  · rw [hhead]
    exact (hunknown name hname).1
  · rw [hhead]
    exact (hunknown name hname).2

/-- No known type is a collection. -/
theorem kind_of_find? {name : String} {t : ResolvedType} (h : standard.find? name = some t) :
    t.kind ≠ .collection := by
  have hentries : ∀ entry ∈ standard.entries, entry.2.kind ≠ .collection := by decide +kernel
  obtain ⟨before, after, heq, -⟩ := List.lookup_eq_some_iff.1 h
  exact hentries (name, t) (by simp [heq])

/-- **A head names a collection exactly if it resolves to one**, and then it is the type's name. -/
theorem collectionHead?_eq_some_iff {head : List Char} {name : String} :
    collectionHead? head = some name ↔
      (standard.resolveHead head).kind = .collection ∧ name = (standard.resolveHead head).name := by
  unfold resolveHead
  cases hfind : standard.find? (.ofList head) with
  | some t =>
    constructor
    · intro h
      rw [find?_collectionHead h] at hfind
      cases hfind
    · rintro ⟨hkind, -⟩
      exact absurd hkind (kind_of_find? hfind)
  | none =>
    cases hcollection : collectionHead? head with
    | some simple => simp [ResolvedType.plain, eq_comm]
    | none => cases cutLast '.' head <;> simp [ResolvedType.plain]

/-! ### Texts -/

variable {s : String}

/-- What a text that is no wildcard resolves to, by its parts. -/
theorem resolve_of_written (h : ∀ rest, trim isBlank s.toList ≠ '?' :: rest) :
    standard.resolve s =
      { standard.resolveHead (WrittenType.ofText s.toList).head with
        arguments := (WrittenType.ofText s.toList).arguments.map standard.resolveChars
        rank := (WrittenType.ofText s.toList).rank } := by
  have htrim : WrittenType.ofText (trim isBlank s.toList) = WrittenType.ofText s.toList := by
    rw [WrittenType.ofText, WrittenType.ofText, trim_trim]
  rw [resolve, resolveChars_of_written h, htrim,
    assemble_of_plain (standard_isPlain.resolveHead _)]

/-- A text names a collection if its head does, and it has no dimensions. -/
theorem collectionName?_eq_some_iff {name : String} :
    collectionName? s = some name ↔ (WrittenType.ofText s.toList).rank = 0 ∧
      collectionHead? (WrittenType.ofText s.toList).head = some name := by
  unfold collectionName?
  dsimp only
  split_ifs with hrank <;> simp [hrank]

theorem elementType?_eq (table : TypeTable) (s : String) :
    table.elementType? s =
      if (collectionName? s).isSome then
        (WrittenType.ofText s.toList).arguments.getLast?.map table.resolveChars
      else none := by
  unfold elementType?
  cases collectionName? s <;> rfl

/-- **A type text and its resolved type agree on collections.** The text is no wildcard, and may be
malformed in any other way. It names a collection exactly if it resolves to a collection that is no
array, by the name of the resolved type; and the elements of a collection, of nothing else, are of
the last argument of the resolved type, if it has any. So the same holds of every field that is
declared with the text. -/
theorem collection_agrees (h : ∀ rest, trim isBlank s.toList ≠ '?' :: rest) :
    (∀ name, collectionName? s = some name ↔
      (standard.resolve s).kind = .collection ∧ (standard.resolve s).rank = 0 ∧
        name = (standard.resolve s).name) ∧
    (standard.elementType? s =
      if (collectionName? s).isSome then (standard.resolve s).arguments.getLast? else none) ∧
    ∀ f : SourceField, f.typeText = s →
      let a := Attribute.ofSource standard f
      (a.isCollection = true ↔ a.type.kind = .collection ∧ a.type.rank = 0) ∧
        (a.collectionName = if a.isCollection then some a.type.name else none) ∧
        a.elementType = if a.isCollection then a.type.arguments.getLast? else none := by
  have hname : ∀ name, collectionName? s = some name ↔
      (standard.resolve s).kind = .collection ∧ (standard.resolve s).rank = 0 ∧
        name = (standard.resolve s).name := by
    intro name
    rw [collectionName?_eq_some_iff, collectionHead?_eq_some_iff, resolve_of_written h]
    exact and_left_comm
  have hsome : (collectionName? s).isSome = true ↔
      (standard.resolve s).kind = .collection ∧ (standard.resolve s).rank = 0 := by
    rw [Option.isSome_iff_exists]
    simp [hname]
  have helement : standard.elementType? s =
      if (collectionName? s).isSome then (standard.resolve s).arguments.getLast? else none := by
    rw [elementType?_eq, resolve_of_written h, List.getLast?_map]
  refine ⟨hname, helement, ?_⟩
  rintro f rfl a
  refine ⟨hsome, ?_, helement⟩
  cases hcollection : collectionName? f.typeText with
  | none => simp [a, Attribute.ofSource, Attribute.isCollection, hcollection]
  | some name =>
    obtain ⟨-, -, rfl⟩ := (hname name).1 hcollection
    simp [a, Attribute.ofSource, Attribute.isCollection, hcollection]

/-- A malformed text: an argument is missing, and one of the brackets is not closed. -/
def mapText : String := " java.util.Map<String,, List<Item> "

/-- The text names a map, and its values are of what stands last between the outer brackets. -/
theorem collection_agrees_mapText :
    (∀ rest, trim isBlank mapText.toList ≠ '?' :: rest) ∧
      (standard.resolve mapText).kind = .collection ∧ (standard.resolve mapText).rank = 0 ∧
      (standard.resolve mapText).name = "Map" ∧
      standard.elementType? mapText = (standard.resolve mapText).arguments.getLast? ∧
      (Attribute.ofSource standard { name := "stock", typeText := mapText }).isCollection = true := by
  have hfirst : ∀ rest, trim isBlank mapText.toList ≠ '?' :: rest := by
    have hhead : (trim isBlank mapText.toList).head? ≠ some '?' := by decide
    exact fun rest hrest => hhead (by rw [hrest]; rfl)
  have hmap : collectionName? mapText = some "Map" := by decide +kernel
  obtain ⟨hname, helement, hfield⟩ := collection_agrees hfirst
  obtain ⟨hkind, hrank, heq⟩ := (hname "Map").1 hmap
  rw [hmap] at helement
  exact ⟨hfirst, hkind, hrank, heq.symm, helement, (hfield _ rfl).1.2 ⟨hkind, hrank⟩⟩

end TypeTable

end EntityScaffold
