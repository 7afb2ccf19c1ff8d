import EntityScaffold.Artifact.All
import EntityScaffold.Proofs.Entity.Marker
import EntityScaffold.Proofs.Source.Superclass

/-!
# What becomes of a class

All that is made of a class with given settings: what the checks of it and of its entity find, that
entity, and its artifacts (`SourceClass.appraise`). Classes are compared link by link: what relates
two chains of superclasses relates the hierarchies that are read off them
(`SourceClass.rel_hierarchy`).
-/

namespace EntityScaffold

open List (Forall₂)

/-- What becomes of a class. -/
structure Appraisal where
  isEntity : Bool
  found : Findings
  /-- The entity that the class is, if it is one. -/
  entity? : Option Entity
  foundInEntity? : Option Findings
  artifacts? : Option (Except Text.Braces.Fault (List Artifact))

namespace SourceClass

variable {c d : SourceClass} {table : TypeTable}

/-- All that is made of a class. -/
def appraise (table : TypeTable) (p : Settings) (c : SourceClass) : Appraisal where
  isEntity := c.isEntity
  found := c.check
  entity? := Entity.ofClass? table c
  foundInEntity? := (Entity.ofClass? table c).map (·.check)
  artifacts? := (Entity.ofClass? table c).map fun m => Artifact.all m p

theorem isEntity_eq_isSome (table : TypeTable) (c : SourceClass) :
    c.isEntity = (Entity.ofClass? table c).isSome := by
  unfold Entity.ofClass?
  split_ifs with h
  · exact h
  · exact Bool.eq_false_iff.2 h

/-- Nothing is read off a class but what its check finds and the entity that it is. -/
theorem appraise_eq (hcheck : c.check = d.check)
    (hentity : Entity.ofClass? table c = Entity.ofClass? table d) (p : Settings) :
    c.appraise table p = d.appraise table p := by
  rw [appraise, appraise, isEntity_eq_isSome table, isEntity_eq_isSome table, hcheck, hentity]

/-- A class whose identifier is inherited, with markers of both namespaces. -/
def employee : SourceClass where
  name := "Employee"
  package := "shop"
  annotations :=
    [⟨"jakarta.persistence.Entity", []⟩, ⟨"javax.persistence.Table", [("name", "staff")]⟩]
  fields :=
    [{ name := "title", typeText := "String",
       annotations := [⟨"javax.persistence.Column", [("name", "job")]⟩] }]
  interfaces := [serializable]
  superclass := some
    { name := "Person", package := "shop"
      fields :=
        [{ name := "id", typeText := "Long",
           annotations := [⟨"javax.persistence.Id", []⟩] }] }

/-! ### Hierarchies -/

theorem chain_eq_of_superclass_eq (h : c.superclass = d.superclass) : c.chain = d.chain := by
  cases hd : d.superclass with
  | none => rw [chain_of_superclass_eq_none (h.trans hd), chain_of_superclass_eq_none hd]
  | some s => rw [chain_of_superclass_eq_some (h.trans hd), chain_of_superclass_eq_some hd]

variable {R : SourceClass → SourceClass → Prop}
  (hR : ∀ c d, R c d → c.qualifiedName = d.qualifiedName)

include hR

theorem rel_untilRepeated {cs ds : List SourceClass} (h : Forall₂ R cs ds) (seen : List String) :
    Forall₂ R (untilRepeated seen cs) (untilRepeated seen ds) := by
  induction h generalizing seen with
  | nil => exact .nil
  | @cons c d cs ds hcd _ ih =>
    rw [untilRepeated, untilRepeated, hR c d hcd]
    split_ifs
    · exact .nil
    · exact .cons hcd (ih _)

/-- **Chains that are related link by link have related hierarchies.** -/
theorem rel_hierarchy (h : R c d) (hchain : Forall₂ R c.chain d.chain) :
    Forall₂ R c.hierarchy d.hierarchy := by
  rw [hierarchy, hierarchy, ancestors, ancestors, hR c d h]
  exact .cons h (rel_untilRepeated hR hchain _)

end SourceClass

end EntityScaffold
