import Mathlib.Data.List.Forall2
import Mathlib.Tactic.Common
import EntityScaffold.Entity.Check

/-!
# What is read off markers

Of an annotation nothing is read but which marker it uses and the name that it gives. Two classes
whose annotations agree in this (`AnnotationUse.Agrees`) and which agree in everything else that is
asked of a class (`SourceClass.Agrees`) are entities alike, are taken for the same entity and have
the same defects. Interfaces are asked for by the warning about writing objects out and by nothing
else, so agreement leaves them aside.
-/

namespace EntityScaffold

open List (Forall₂)

/-- Values that are the same for related elements of two lists. -/
theorem map_eq_map_of_forall₂ {α β γ : Type} {R : α → β → Prop} {f : α → γ} {g : β → γ}
    (hfg : ∀ a b, R a b → f a = g b) {as : List α} {bs : List β} (h : Forall₂ R as bs) :
    as.map f = bs.map g := by
  have hmaps : Forall₂ Eq (as.map f) (bs.map g) := List.rel_map (fun a b => hfg a b) h
  rwa [List.forall₂_eq_eq_eq] at hmaps

/-- Two annotations use the same markers and give the same name. -/
structure AnnotationUse.Agrees (a b : AnnotationUse) : Prop where
  names : ∀ m : Marker, a.name ∈ m.names ↔ b.name ∈ m.names
  given : a.values.lookup "name" = b.values.lookup "name"

theorem AnnotationUse.Agrees.givenName?_eq {a b : AnnotationUse} (h : a.Agrees b) :
    a.givenName? = b.givenName? := by
  rw [givenName?, givenName?, h.given]

/-! ### Lists of annotations -/

section Uses

variable {uses uses' : List AnnotationUse} (h : Forall₂ AnnotationUse.Agrees uses uses')

include h

/-- The first uses of a marker agree. -/
theorem Marker.rel_find? (m : Marker) :
    Option.Rel AnnotationUse.Agrees (m.find? uses) (m.find? uses') := by
  induction h with
  | nil => exact .none
  | @cons a b uses uses' hab _ ih =>
    unfold find? at ih ⊢
    have hiff := hab.names m
    by_cases ha : a.name ∈ m.names
    · rw [List.find?_cons_of_pos (by simpa using ha),
        List.find?_cons_of_pos (by simpa using hiff.1 ha)]
      exact .some hab
    · rw [List.find?_cons_of_neg (by simpa using ha),
        List.find?_cons_of_neg (by simpa using fun hb => ha (hiff.2 hb))]
      exact ih

theorem Marker.isIn_eq (m : Marker) : m.isIn uses = m.isIn uses' := by
  have hfound := m.rel_find? h
  unfold isIn
  generalize m.find? uses = found, m.find? uses' = found' at hfound ⊢
  cases hfound <;> rfl

theorem Marker.givenName_eq (m : Marker) (otherwise : String) :
    m.givenName uses otherwise = m.givenName uses' otherwise := by
  have hgiven : (m.find? uses).bind (·.givenName?) = (m.find? uses').bind (·.givenName?) := by
    have hfound := m.rel_find? h
    generalize m.find? uses = found, m.find? uses' = found' at hfound ⊢
    cases hfound with
    | none => rfl
    | some hab => rw [Option.bind_some, Option.bind_some, hab.givenName?_eq]
  rw [givenName, givenName, hgiven]

theorem Relationship.of?_eq : Relationship.of? uses = Relationship.of? uses' := by
  have hmarked : (fun r : Relationship => r.marker.isIn uses) = fun r => r.marker.isIn uses' :=
    funext fun r => r.marker.isIn_eq h
  rw [of?, of?, hmarked]

end Uses

/-! ### Fields -/

/-- Two fields agree in all that is asked of a field. -/
structure SourceField.Agrees (f g : SourceField) : Prop where
  name : f.name = g.name
  typeText : f.typeText = g.typeText
  modifiers : f.modifiers = g.modifiers
  annotations : Forall₂ AnnotationUse.Agrees f.annotations g.annotations
  isEnum : f.isEnum = g.isEnum

namespace SourceField.Agrees

variable {f g : SourceField} (h : f.Agrees g)

include h

theorem isState : f.isState = g.isState := by
  rw [SourceField.isState, SourceField.isState, isStatic, isStatic, isFinal, isFinal, h.modifiers]

theorem defects : f.defects = g.defects := by
  rw [SourceField.defects, SourceField.defects, Relationship.of?_eq h.annotations, h.name,
    h.typeText]

theorem ofSource (table : TypeTable) : Attribute.ofSource table f = Attribute.ofSource table g := by
  rw [Attribute.ofSource, Attribute.ofSource, h.name, h.typeText, h.modifiers, h.isEnum,
    Marker.givenName_eq h.annotations, Marker.isIn_eq h.annotations, Marker.isIn_eq h.annotations,
    Marker.isIn_eq h.annotations, Relationship.of?_eq h.annotations]

end SourceField.Agrees

/-! ### Classes -/

/-- Two classes agree in all that is asked of a class itself, its interfaces aside. -/
structure SourceClass.Agrees (c d : SourceClass) : Prop where
  name : c.name = d.name
  package : c.package = d.package
  kind : c.kind = d.kind
  modifiers : c.modifiers = d.modifiers
  annotations : Forall₂ AnnotationUse.Agrees c.annotations d.annotations
  fields : Forall₂ SourceField.Agrees c.fields d.fields
  arities : c.arities = d.arities

namespace SourceClass

variable {c d : SourceClass}

theorem Agrees.isEntity (h : c.Agrees d) : c.isEntity = d.isEntity := by
  rw [SourceClass.isEntity, SourceClass.isEntity, isAbstract, isAbstract, h.kind, h.modifiers,
    Marker.isIn_eq h.annotations]

/-- The fields that count are related one by one. -/
theorem rel_stateFields (h : Forall₂ Agrees c.hierarchy d.hierarchy) :
    Forall₂ SourceField.Agrees c.stateFields d.stateFields := by
  have hfields : Forall₂ SourceField.Agrees c.allFields d.allFields :=
    List.rel_flatMap h fun _ _ hagrees => hagrees.fields
  exact List.rel_filter (fun _ _ hagrees => Bool.eq_iff_iff.1 hagrees.isState) hfields

/-- The classes themselves stand first in their hierarchies. -/
theorem agrees_of_hierarchy (h : Forall₂ Agrees c.hierarchy d.hierarchy) : c.Agrees d :=
  (List.forall₂_cons.1 h).1

/-- **Classes that agree are taken for the same entity.** -/
theorem ofClass?_eq (h : Forall₂ Agrees c.hierarchy d.hierarchy) (table : TypeTable) :
    Entity.ofClass? table c = Entity.ofClass? table d := by
  have hagrees := agrees_of_hierarchy h
  have hfields := map_eq_map_of_forall₂ (fun _ _ hf => hf.ofSource table) (rel_stateFields h)
  rw [Entity.ofClass?, Entity.ofClass?, Entity.describe, Entity.describe, hagrees.isEntity,
    hagrees.name, hagrees.package, Marker.givenName_eq hagrees.annotations, hfields]

/-- **Classes that agree have the same defects.** -/
theorem defects_check_eq (h : Forall₂ Agrees c.hierarchy d.hierarchy) :
    c.check.defects = d.check.defects := by
  have hagrees := agrees_of_hierarchy h
  have hfields := rel_stateFields h
  have hid : c.stateFields.any (fun f => Marker.id.isIn f.annotations) =
      d.stateFields.any fun f => Marker.id.isIn f.annotations := by
    have hmaps := map_eq_map_of_forall₂ (fun _ _ hf => Marker.isIn_eq hf.annotations .id) hfields
    simpa [List.any_map, Function.comp_def] using congrArg (List.any · id) hmaps
  have hdefects : c.stateFields.flatMap (·.defects) = d.stateFields.flatMap (·.defects) := by
    rw [List.flatMap_def, List.flatMap_def,
      map_eq_map_of_forall₂ (fun _ _ hf => hf.defects) hfields]
  unfold check
  dsimp only
  rw [hid, hdefects, isAbstract, isAbstract, hagrees.name, hagrees.modifiers, hagrees.arities,
    Marker.isIn_eq hagrees.annotations]

/-- The warning about writing objects out asks for an interface in each class of the hierarchy. -/
theorem concerns_check_eq
    (h : Forall₂ (fun c d => serializable ∈ c.interfaces ↔ serializable ∈ d.interfaces)
      c.hierarchy d.hierarchy) (hname : c.name = d.name) :
    c.check.concerns = d.check.concerns := by
  have hany : (c.hierarchy.any fun c => serializable ∈ c.interfaces) =
      d.hierarchy.any fun d => serializable ∈ d.interfaces := by
    have hmaps : c.hierarchy.map (fun c => decide (serializable ∈ c.interfaces)) =
        d.hierarchy.map fun d => decide (serializable ∈ d.interfaces) :=
      map_eq_map_of_forall₂ (fun _ _ hiff => decide_eq_decide.2 hiff) h
    simpa [List.any_map, Function.comp_def] using congrArg (List.any · id) hmaps
  unfold check
  dsimp only
  rw [hany, hname]

end SourceClass

end EntityScaffold
