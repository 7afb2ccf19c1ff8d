import Mathlib.Tactic.Common
import EntityScaffold.Proofs.Generation.Admission
import EntityScaffold.Store.Memory

/-!
# The two checks

A class is checked as it is declared, and the entity that it is taken for is checked again. The
second check has rules of its own, but it finds nothing new: its defects are those of the class that
concern fields, in the same order and in the words of an entity (`Entity.defects_describe`). A class
without defects is therefore never stopped as invalid by the second check.
-/

namespace EntityScaffold

namespace Defect

/-- What a defect of a class is to the entity that the class is taken for. What only a class can
lack is nothing to the entity. -/
def inEntity? : Defect → Option Defect
  | noMarkedId c => some (noIdField c)
  | notACollection f r _ => some (relationshipWithoutCollection f r)
  | noIdField c => some (noIdField c)
  | relationshipWithoutCollection f r => some (relationshipWithoutCollection f r)
  | notMarked _ | abstractClass _ | noDefaultConstructor _ => none

/-- The field that refers to many entities without being a collection. -/
def brokenField? : Defect → Option String
  | notACollection f _ _ | relationshipWithoutCollection f _ => some f
  | _ => none

/-- A defect is about the same field in both checks. -/
theorem brokenField?_inEntity? (d : Defect) : d.inEntity?.bind brokenField? = d.brokenField? := by
  cases d <;> rfl

end Defect

theorem mem_defectIf {present : Bool} {d e : Defect} :
    e ∈ defectIf present d ↔ present = true ∧ e = d := by
  cases present <;> simp [defectIf]

@[simp] theorem filterMap_defectIf {β : Type} (f : Defect → Option β) (present : Bool)
    (d : Defect) : (defectIf present d).filterMap f = if present then (f d).toList else [] := by
  cases present
  · rfl
  · cases h : f d <;> simp [defectIf, h]

/-! ### Defects of the entity -/

theorem Attribute.defects_ofSource (table : TypeTable) (f : SourceField) :
    (Attribute.ofSource table f).defects = f.defects.filterMap Defect.inEntity? := by
  have hrelationship :
      (Attribute.ofSource table f).relationship = Relationship.of? f.annotations := rfl
  rw [Attribute.defects, SourceField.defects, hrelationship]
  cases Relationship.of? f.annotations with
  | none => rfl
  | some r =>
    rw [filterMap_defectIf]
    show defectIf (r.isPlural && !(collectionName? f.typeText).isSome) _ = _
    rw [Option.not_isSome]
    rfl

/-- An entity has an identifier if a field of the class is marked as one. -/
theorem Entity.isNone_identifier?_describe (table : TypeTable) (c : SourceClass) :
    (describe table c).identifier?.isNone =
      !c.stateFields.any fun f => Marker.id.isIn f.annotations := by
  show ((c.stateFields.map (Attribute.ofSource table)).find? (·.isId)).isNone = _
  rw [List.find?_map, Option.isNone_map, ← Option.not_isSome, List.isSome_find?]
  rfl

/-- **The entity has the defects of the class that concern it, and no others.** -/
theorem Entity.defects_describe (table : TypeTable) (c : SourceClass) :
    (describe table c).check.defects = c.check.defects.filterMap Defect.inEntity? := by
  have hfields : (describe table c).fields.flatMap (·.defects) =
      (c.stateFields.flatMap (·.defects)).filterMap Defect.inEntity? := by
    show (c.stateFields.map (Attribute.ofSource table)).flatMap (·.defects) = _
    rw [List.flatMap_map, List.filterMap_flatMap]
    exact congrArg (c.stateFields.flatMap ·) (funext (Attribute.defects_ofSource table))
  unfold check SourceClass.check
  dsimp only
  rw [hfields, isNone_identifier?_describe]
  simp only [List.filterMap_append, filterMap_defectIf, Defect.inEntity?]
  simp [defectIf, describe]

theorem Entity.isValid_describe (table : TypeTable) {c : SourceClass} (h : c.check.isValid = true) :
    (describe table c).check.isValid = true := by
  unfold Findings.isValid at h ⊢
  rw [defects_describe, List.isEmpty_iff.1 h]
  rfl

theorem Entity.eq_describe {table : TypeTable} {c : SourceClass} {m : Entity}
    (h : ofClass? table c = some m) : m = describe table c := by
  unfold ofClass? at h
  split at h
  · exact (Option.some.inj h).symm
  · cases h

/-! ### Agreement -/

/-- A defect of a field says that the field should be a collection. -/
theorem SourceField.eq_of_mem_defects {f : SourceField} {d : Defect} (h : d ∈ f.defects) :
    ∃ r, d = .notACollection f.name r f.typeText := by
  unfold defects at h
  split at h
  · rename_i r hr
    exact ⟨r, (mem_defectIf.1 h).2⟩
  · cases h

/-- The check of a class does not speak of entities. -/
theorem SourceClass.noIdField_notMem_defects (c : SourceClass) (name : String) :
    .noIdField name ∉ c.check.defects := by
  intro h
  simp only [check, List.mem_append, mem_defectIf, List.mem_flatMap, reduceCtorEq, and_false,
    false_or] at h
  obtain ⟨f, -, hd⟩ := h
  obtain ⟨r, hr⟩ := f.eq_of_mem_defects hd
  cases hr

/-- **The two checks agree.** -/
theorem SourceClass.checks_agree (table : TypeTable) (c : SourceClass) :
    (∀ m, Entity.ofClass? table c = some m →
      (.noIdField m.className ∈ m.check.defects ↔ .noMarkedId c.name ∈ c.check.defects) ∧
        m.check.defects.filterMap Defect.brokenField? =
          c.check.defects.filterMap Defect.brokenField?) ∧
      (c.check.isValid = true →
        ∀ {σ τ : Type} [Store τ] (w : Partner σ) (p : Settings) (k : τ) (s : σ)
          (report : RunReport), (w.run table c p k s).1 = .ok report →
            report.status ≠ .invalid) := by
  constructor
  · intro m hm
    obtain rfl := Entity.eq_describe hm
    rw [Entity.defects_describe]
    constructor
    · constructor
      · intro hd
        -- of the defects of the class, the missing mark alone is one of the entity by another name
        obtain ⟨d, hmem, hd⟩ := List.mem_filterMap.1 hd
        cases d with
        | noMarkedId name =>
          cases hd
          exact hmem
        | noIdField name => exact absurd hmem (c.noIdField_notMem_defects name)
        | _ => cases hd
      · exact fun hmem => List.mem_filterMap.2 ⟨_, hmem, rfl⟩
    · rw [List.filterMap_filterMap]
      exact congrArg (c.check.defects.filterMap ·) (funext Defect.brokenField?_inEntity?)
  · intro hvalid σ τ _ w p k s report h
    rw [w.run_eq] at h
    have hentity (m : Entity) (hm : Entity.ofClass? table c = some m) : m.check.isValid = true :=
      Entity.eq_describe hm ▸ Entity.isValid_describe table hvalid
    split at h
    · rename_i report' s₁ ha
      cases h
      have hs := w.status_of_stopped (congrArg Prod.fst ha) hvalid hentity
      simp [hs]
    · cases h
    · exact w.status_produce h

namespace SourceClass

/-- An order without an identifier. Of its three references to many entities, one is inherited and
one alone is a collection. -/
def order : SourceClass where
  name := "Order"
  package := "shop"
  annotations := [⟨"javax.persistence.Entity", []⟩]
  fields :=
    [{ name := "tags", typeText := "String", annotations := [⟨"javax.persistence.OneToMany", []⟩] },
     { name := "ids", typeText := "Long", modifiers := ["static"],
       annotations := [⟨"javax.persistence.Id", []⟩] },
     { name := "lines", typeText := "java.util.List<Line>",
       annotations := [⟨"jakarta.persistence.OneToMany", []⟩] }]
  superclass := some
    { name := "Base", package := "shop"
      fields :=
        [{ name := "parts", typeText := "Set<Part>[]",
           annotations := [⟨"jakarta.persistence.ManyToMany", []⟩] }] }

/-- A customer without defects, whose orders have no type. -/
def customer : SourceClass where
  name := "Customer"
  package := "shop"
  annotations := [⟨"jakarta.persistence.Entity", []⟩]
  fields :=
    [{ name := "id", typeText := "Long", annotations := [⟨"jakarta.persistence.Id", []⟩] },
     { name := "orders", typeText := "List",
       annotations := [⟨"jakarta.persistence.OneToMany", []⟩] }]
  interfaces := [serializable]

theorem run_customer :
    ((Partner.passive Unit).run .standard customer .standard ({} : MemoryStore) ()).1 =
      .ok { status := .cancelled, concerns := [.noElementType "orders"] } := by
  decide +kernel

/-- The entity of an order has no identifier, and the same broken fields as its class, inherited
ones last. A run for a customer comes to the second check and is not stopped as invalid there. -/
theorem checks_agree_order :
    .noIdField "Order" ∈ (Entity.describe .standard order).check.defects ∧
      (Entity.describe .standard order).check.defects.filterMap Defect.brokenField? =
        ["tags", "parts"] ∧
      customer.check.isValid = true ∧ RunStatus.cancelled ≠ .invalid := by
  obtain ⟨hid, hfields⟩ := (checks_agree .standard order).1 _ (if_pos (by decide +kernel))
  have hvalid : customer.check.isValid = true := by decide +kernel
  refine ⟨hid.2 (by decide +kernel), hfields.trans (by decide +kernel), hvalid, ?_⟩
  exact (checks_agree .standard customer).2 hvalid _ _ _ _ _ run_customer

end SourceClass

end EntityScaffold
