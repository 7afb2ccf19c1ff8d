import EntityScaffold.Proofs.Artifact.Declaration
import EntityScaffold.Proofs.Artifact.Method

/-!
# References in mappers

A mapper turns a reference to an entity into that entity's identifier. Which references there are is
decided twice, for the members of the transfer object and for the annotations of the mapper, and
both times after names that come twice have been dropped. Both come to the same: the annotations
read exactly those members of the transfer object that come from a reference, in their order, and
leave the fields behind them empty on the way back (`Artifact.mapper_agrees_with_dto`).
-/

namespace EntityScaffold

/-! ### Members of a text -/

namespace Listing

/-- A block of lines stands in a text as a member of its type: further to the right, after a blank
line, and before a blank line or the closing brace. -/
def IsMemberOf (block : List String) (text : String) : Prop :=
  ∃ before after, text.toList =
      before ++ '\n' :: '\n' :: ((indent block).flatMap (fun l => l.toList ++ ['\n']) ++ after) ∧
    (after.head? = some '\n' ∨ after.head? = some '\x7d')

/-- Around one of several blocks there are blank lines, but not at the ends. -/
theorem spacedLines_append_cons (before : List (List String)) (block : List String)
    (after : List (List String)) :
    ∃ u v, spacedLines (before ++ block :: after) = u ++ (block ++ v) ∧
      (u = [] ∨ ∃ u', u = u' ++ [""]) ∧ (v = [] ∨ ∃ v', v = "" :: v') := by
  induction before with
  | nil =>
    cases after with
    | nil => exact ⟨[], [], by simp [spacedLines], Or.inl rfl, Or.inl rfl⟩
    | cons next after =>
      exact ⟨[], "" :: spacedLines (next :: after), rfl, Or.inl rfl, Or.inr ⟨_, rfl⟩⟩
  | cons first before ih =>
    obtain ⟨u, v, hlines, hu, hv⟩ := ih
    refine ⟨first ++ "" :: u, v, ?_, Or.inr ?_, hv⟩
    · have hstep : spacedLines (first :: (before ++ block :: after)) =
          first ++ "" :: spacedLines (before ++ block :: after) := by
        cases before <;> rfl
      rw [List.cons_append, hstep, hlines]
      simp
    · rcases hu with rfl | ⟨u', rfl⟩
      · exact ⟨first, rfl⟩
      · exact ⟨first ++ "" :: u', by simp⟩

/-- The lines of a listing around one of its members. -/
theorem exists_lines_around {l : Listing} {block : List String} (h : block ∈ l.members) :
    ∃ before line after last, l.allLines = before ++ line :: "" :: (indent block ++ last :: after) ∧
      (last = "" ∨ last = "\x7d") := by
  obtain ⟨ms, ms', hms⟩ := List.append_of_mem h
  obtain ⟨u, v, hlines, hu, hv⟩ :=
    spacedLines_append_cons (ms.map indent) (indent block) (ms'.map indent)
  have htype : l.typeLines = l.markings ++
      ([l.declaration ++ " \x7b", ""] ++ (u ++ (indent block ++ v)) ++ ["\x7d"]) := by
    rw [typeLines, ← hlines, ← List.map_cons, ← List.map_append, hms]
    cases ms <;> simp
  have hend : ∃ after last, v ++ ["\x7d"] = last :: after ∧ (last = "" ∨ last = "\x7d") := by
    rcases hv with rfl | ⟨v', rfl⟩
    · exact ⟨[], _, rfl, Or.inr rfl⟩
    · exact ⟨_, _, rfl, Or.inl rfl⟩
  obtain ⟨after, last, hafter, hlast⟩ := hend
  let start := l.packageLines ++ l.importLines ++ l.markings
  have hall : l.allLines =
      start ++ (l.declaration ++ " \x7b") :: "" :: (u ++ (indent block ++ last :: after)) := by
    rw [allLines, htype, ← hafter]
    simp [start]
  rcases hu with rfl | ⟨u', rfl⟩
  · exact ⟨start, _, after, last, hall, hlast⟩
  · rcases List.eq_nil_or_concat u' with rfl | ⟨u', line, rfl⟩
    · exact ⟨start ++ [l.declaration ++ " \x7b"], "", after, last, by simp [hall], hlast⟩
    · exact ⟨start ++ (l.declaration ++ " \x7b") :: "" :: u', line, after, last, by simp [hall],
        hlast⟩

/-- **Each member of a listing is one of its text.** -/
theorem isMemberOf_render {l : Listing} {block : List String} (h : block ∈ l.members) :
    IsMemberOf block l.render := by
  obtain ⟨before, line, after, last, hall, hlast⟩ := exists_lines_around h
  refine ⟨before.flatMap (fun l => l.toList ++ ['\n']) ++ line.toList,
    (last :: after).flatMap fun l => l.toList ++ ['\n'], ?_, ?_⟩
  · rw [render, hall, toList_join (by simp)]
    simp
  · rcases hlast with rfl | rfl
    · exact Or.inl rfl
    · exact Or.inr rfl

end Listing

/-! ### Mappings -/

/-- An annotation on a method of a mapper: which property of the result it is about, and where that
is read, or that it stays empty. -/
inductive Mapping
  | read (target source : String)
  | ignored (target : String)
  deriving DecidableEq, Repr

namespace Mapping

/-- The property that an annotation is about. -/
def target : Mapping → String
  | read target _ => target
  | ignored target => target

/-- The annotation as it is written. -/
def line : Mapping → String
  | read target source =>
    "@Mapping(target = \"" ++ target ++ "\", source = \"" ++ source ++ "\")"
  | ignored target => "@Mapping(target = \"" ++ target ++ "\", ignore = true)"

end Mapping

/-- A method with annotations above it. -/
structure MappingMethod where
  mappings : List Mapping
  head : MethodHead
  deriving Repr

/-- The lines of the method. -/
def MappingMethod.lines (x : MappingMethod) : List String :=
  x.mappings.map Mapping.line ++ [x.head.text ++ ";"]

namespace Artifact

variable {m : Entity} {p : Settings}

/-- Each reference of the flat view, read from the identifier of the entity that its field refers
to. -/
def readMappings (m : Entity) : List Mapping :=
  (references m).map fun f => .read f.name (f.origin.name ++ ".id")

/-- The field of each reference, left empty. -/
def ignoredMappings (m : Entity) : List Mapping :=
  (references m).map fun f => .ignored f.origin.name

/-- The method from an entity to its transfer object. -/
def toDto (m : Entity) (p : Settings) : MappingMethod where
  mappings := readMappings m
  head := ⟨Layer.dto.className m p, "toDto", [(m.className, "entity")]⟩

/-- The method from a transfer object to its entity. -/
def toEntity (m : Entity) (p : Settings) : MappingMethod where
  mappings := ignoredMappings m
  head := ⟨m.className, "toEntity", [(Layer.dto.className m p, "dto")]⟩

theorem line_read (f : FlatAttribute) :
    (Mapping.read f.name (f.origin.name ++ ".id")).line = sourceLine f := by
  have hend : ".id" ++ "\")" = ".id\")" := by decide
  show "@Mapping(target = \"" ++ f.name ++ "\", source = \"" ++ (f.origin.name ++ ".id") ++ "\")" =
    "@Mapping(target = \"" ++ f.name ++ "\", source = \"" ++ f.origin.name ++ ".id\")"
  simp only [String.append_assoc, hend]

/-- A method with one parameter, as it is written. -/
theorem lines_of_parameter {name param : String} (opening closing : String)
    (hopening : " " ++ (name ++ "(") = opening) (hclosing : " " ++ (param ++ ");") = closing)
    (mappings : List Mapping) (result type : String) :
    MappingMethod.lines ⟨mappings, result, name, [(type, param)]⟩ =
      mappings.map Mapping.line ++ [result ++ opening ++ type ++ closing] := by
  have hend : ")" ++ ";" = ");" := by decide
  simp only [MappingMethod.lines, MethodHead.text, List.map_cons, List.map_nil, Text.join,
    ← hopening, ← hclosing, String.append_assoc, hend]

/-- **The first two members of a mapper are the methods for one entity.** -/
theorem take_members_mapper (m : Entity) (p : Settings) :
    (mapper m p).members.take 2 = [(toDto m p).lines, (toEntity m p).lines] := by
  have hread : (readMappings m).map Mapping.line = (references m).map sourceLine := by
    rw [readMappings, List.map_map]
    exact List.map_congr_left fun f _ => line_read f
  have hignored : (ignoredMappings m).map Mapping.line = (references m).map ignoredLine := by
    rw [ignoredMappings, List.map_map]
    rfl
  rw [toDto, lines_of_parameter " toDto(" " entity);" (by decide) (by decide), hread,
    toEntity, lines_of_parameter " toEntity(" " dto);" (by decide) (by decide), hignored]
  rfl

/-- What a reference of the flat view comes from. -/
theorem of_mem_references {f : FlatAttribute} (h : f ∈ references m) :
    f.origin ∈ m.fields ∧ f.origin.isTransient = false ∧ f.origin.isReference = true ∧
      f.name = f.origin.name ++ "Id" := by
  obtain ⟨hmem, href⟩ := List.mem_filter.1 h
  obtain ⟨g, hg, hf⟩ := Entity.mem_fields_of_mem_projection hmem
  unfold Attribute.projection? at hf
  split_ifs at hf with hleft hreference <;> cases hf
  · simp only [Bool.or_eq_true, not_or, Bool.not_eq_true] at hleft
    exact ⟨hg, hleft.1, href, rfl⟩
  · exact absurd href hreference

theorem nodup_names_references (m : Entity) : ((references m).map (·.name)).Nodup :=
  m.nodup_names_projection.sublist (List.filter_sublist.map _)

/-- The fields of the references have distinct names, since these are the names of the references
but for an ending. -/
theorem nodup_origins_references (m : Entity) :
    ((references m).map (·.origin.name)).Nodup := by
  have hnames : ((references m).map (·.origin.name)).map (· ++ "Id") =
      (references m).map (·.name) := by
    rw [List.map_map]
    exact List.map_congr_left fun f hf => (of_mem_references hf).2.2.2.symm
  exact List.Nodup.of_map _ (hnames ▸ nodup_names_references m)

end Artifact

/-- The annotation reads a member of the flat view from the identifier behind the field that the
member comes from, which refers to one entity and is not transient. -/
structure Mapping.Reads (g : Mapping) (m : Entity) (f : FlatAttribute) : Prop where
  mem : f.origin ∈ m.fields
  isTransient : f.origin.isTransient = false
  isReference : f.origin.isReference = true
  name : f.name = f.origin.name ++ "Id"
  eq : g = .read f.name (f.origin.name ++ ".id")

namespace Artifact

variable {m : Entity} {p : Settings}

/-- **Mapper and transfer object agree on references.** Where both are enabled, both are made. The
mapper reads those members of the transfer object that come from a reference, each one once and in
their order, from the identifier behind the field it comes from; and it leaves just these fields
empty on the way back. -/
theorem mapper_agrees_with_dto (m : Entity) (hdto : p.enabled .dto = true)
    (hmapper : p.enabled .mapper = true) :
    ∃ dtoText mapperText : String,
      Layer.dto.build? m p = .ok (some ⟨.dto, Layer.dto.identity m p, dtoText⟩) ∧
      Layer.mapper.build? m p = .ok (some ⟨.mapper, Layer.mapper.identity m p, mapperText⟩) ∧
      (m.projection ≠ [] →
        Listing.IsMemberOf (m.projection.map memberDeclaration) dtoText) ∧
      Listing.IsMemberOf (toDto m p).lines mapperText ∧
      Listing.IsMemberOf (toEntity m p).lines mapperText ∧
      ((toDto m p).mappings.map (·.target)).Nodup ∧
      (toDto m p).mappings.map (·.target) =
        (m.projection.filter (·.origin.isReference)).map (·.name) ∧
      List.Forall₂ (·.Reads m ·) (toDto m p).mappings
        (m.projection.filter (·.origin.isReference)) ∧
      ((toEntity m p).mappings.map (·.target)).Nodup ∧
      (toEntity m p).mappings =
        (m.projection.filter (·.origin.isReference)).map fun f => .ignored f.origin.name := by
  have htargets : (toDto m p).mappings.map (·.target) = (references m).map (·.name) := by
    rw [toDto, readMappings, List.map_map]
    rfl
  have hignored : (toEntity m p).mappings.map (·.target) =
      (references m).map (·.origin.name) := by
    rw [toEntity, ignoredMappings, List.map_map]
    rfl
  refine ⟨(dto m p).render, (mapper m p).render, ?_, ?_, ?_, ?_, ?_, ?_, htargets, ?_, ?_, rfl⟩
  · simp [Layer.build?, Layer.isEnabled, Layer.text?, Layer.listing?, hdto, Except.map]
  · simp [Layer.build?, Layer.isEnabled, Layer.text?, Layer.listing?, hdto, hmapper, Except.map]
  · intro hne
    refine Listing.isMemberOf_render ?_
    simp [dto, hne]
  · refine Listing.isMemberOf_render (List.mem_of_mem_take (i := 2) ?_)
    simp [take_members_mapper]
  · refine Listing.isMemberOf_render (List.mem_of_mem_take (i := 2) ?_)
    simp [take_members_mapper]
  · rw [htargets]
    exact nodup_names_references m
  · refine List.forall₂_map_left_iff.2 (List.forall₂_same.2 fun f hf => ?_)
    obtain ⟨hmem, htransient, href, hname⟩ := of_mem_references hf
    exact ⟨hmem, htransient, href, hname, rfl⟩
  · rw [hignored]
    exact nodup_origins_references m

/-- An order with a customer whose identifier is a field of its own, an owner who is declared twice,
and a transient reference. -/
def orderWithReferences : Entity :=
  let state (name : String) : Attribute := ⟨name, "Long", .boxedLong, name, false, false, false,
    false, none, none, none⟩
  let reference (name : String) : Attribute :=
    { state name with
      typeText := "Person", type := .plain .reference "Person" "shop"
      relationship := some .manyToOne }
  ⟨"Order", "shop", "orders",
    [state "customerId", reference "customer", reference "owner", reference "owner",
      { reference "editor" with isTransient := true }, reference "buyer"]⟩

theorem mapper_agrees_with_dto_order :
    Settings.standard.enabled .dto = true ∧ Settings.standard.enabled .mapper = true ∧
      ∃ mapperText : String,
        Layer.mapper.build? orderWithReferences .standard =
          .ok (some ⟨.mapper, ⟨"shop.mapper", "OrderMapper"⟩, mapperText⟩) ∧
        Listing.IsMemberOf
          ["@Mapping(target = \"ownerId\", source = \"owner.id\")",
           "@Mapping(target = \"buyerId\", source = \"buyer.id\")",
           "OrderDto toDto(Order entity);"] mapperText ∧
        Listing.IsMemberOf
          ["@Mapping(target = \"owner\", ignore = true)",
           "@Mapping(target = \"buyer\", ignore = true)",
           "Order toEntity(OrderDto dto);"] mapperText := by
  refine ⟨rfl, rfl, ?_⟩
  obtain ⟨-, mapperText, -, hbuild, -, htoDto, htoEntity, -⟩ :=
    mapper_agrees_with_dto (p := .standard) orderWithReferences rfl rfl
  have hidentity : Layer.mapper.identity orderWithReferences .standard =
      ⟨"shop.mapper", "OrderMapper"⟩ := by
    decide
  have hread : (toDto orderWithReferences .standard).lines =
      ["@Mapping(target = \"ownerId\", source = \"owner.id\")",
       "@Mapping(target = \"buyerId\", source = \"buyer.id\")",
       "OrderDto toDto(Order entity);"] := by
    decide
  have hignored : (toEntity orderWithReferences .standard).lines =
      ["@Mapping(target = \"owner\", ignore = true)",
       "@Mapping(target = \"buyer\", ignore = true)",
       "Order toEntity(OrderDto dto);"] := by
    decide
  exact ⟨mapperText, hidentity ▸ hbuild, hread ▸ htoDto, hignored ▸ htoEntity⟩

end Artifact

end EntityScaffold
