import Mathlib.Logic.Relation
import EntityScaffold.Proofs.Entity.Appraisal

/-!
# Namespaces of markers

The namespaces that define the markers may stand for each other. In the names of any annotations of
a class, of its fields, and of all that in the classes above, one may be written for another
(`SourceClass.Respelled`); the same is made of the class (`SourceClass.appraise_of_respelled`). The
reason is that a marker's name holds a namespace in one place only, and that place is its start
(`Marker.eq_of_append_mem_names`).
-/

namespace EntityScaffold

open List (Forall₂)

namespace Marker

/-- In one place of a name, a namespace is put in for another one. -/
def SwapsNamespace (s t : String) : Prop :=
  ∃ before after, ∃ ns ∈ namespaces, ∃ ns' ∈ namespaces,
    s = before ++ ns ++ after ∧ t = before ++ ns' ++ after

theorem SwapsNamespace.symm {s t : String} (h : SwapsNamespace s t) : SwapsNamespace t s := by
  obtain ⟨before, after, ns, hns, ns', hns', hs, ht⟩ := h
  exact ⟨before, after, ns', hns', ns, hns, ht, hs⟩

/-- All namespaces start with a letter that comes nowhere else in a marker's name. -/
theorem exists_toList_of_mem_namespaces {ns : String} (h : ns ∈ namespaces) :
    ∃ rest, ns.toList = 'j' :: rest ∧ 'j' ∉ rest := by
  simp only [namespaces, List.mem_cons, List.not_mem_nil, or_false] at h
  rcases h with rfl | rfl
  · exact ⟨_, rfl, by decide⟩
  · exact ⟨_, rfl, by decide⟩

theorem notMem_toList_simpleName (m : Marker) : 'j' ∉ m.simpleName.toList := by
  cases m <;> decide

/-- No namespace starts another one. -/
theorem eq_of_append_eq {ns ns' : String} (h : ns ∈ namespaces) (h' : ns' ∈ namespaces)
    {x y : List Char} (heq : ns.toList ++ x = ns'.toList ++ y) : ns = ns' ∧ x = y := by
  simp only [namespaces, List.mem_cons, List.not_mem_nil, or_false] at h h'
  rcases h with rfl | rfl <;> rcases h' with rfl | rfl
  · exact ⟨rfl, List.append_cancel_left heq⟩
  · simp at heq
  · simp at heq
  · exact ⟨rfl, List.append_cancel_left heq⟩

/-- **A namespace in a marker's name stands at its start.** -/
theorem eq_of_append_mem_names {m : Marker} {before ns after : String} (hns : ns ∈ namespaces)
    (h : before ++ ns ++ after ∈ m.names) : before = "" ∧ after = "." ++ m.simpleName := by
  obtain ⟨start, hstart, heq⟩ := List.mem_map.1 h
  have hlist : before.toList ++ (ns.toList ++ after.toList) =
      start.toList ++ ("." ++ m.simpleName).toList := by
    rw [← String.toList_append, ← String.toList_append, ← String.toList_append,
      ← String.append_assoc, ← String.append_assoc, heq]
  cases hbefore : before.toList with
  | nil =>
    rw [hbefore, List.nil_append] at hlist
    exact ⟨String.toList_inj.1 hbefore, String.toList_inj.1 (eq_of_append_eq hns hstart hlist).2⟩
  | cons c cs =>
    -- the letter would come once more, behind the start
    obtain ⟨rest, hrest, hnot⟩ := exists_toList_of_mem_namespaces hstart
    obtain ⟨letters, hletters, -⟩ := exists_toList_of_mem_namespaces hns
    rw [hbefore, hrest, List.cons_append, List.cons_append, List.cons.injEq, hletters] at hlist
    have hmem : 'j' ∈ rest ++ ("." ++ m.simpleName).toList := by
      rw [← hlist.2]
      simp
    rcases List.mem_append.1 hmem with hmem | hmem
    · exact absurd hmem hnot
    · rw [String.toList_append, List.mem_append] at hmem
      rcases hmem with hmem | hmem
      · exact absurd hmem (by decide)
      · exact absurd hmem m.notMem_toList_simpleName

theorem mem_names_of_swapsNamespace {m : Marker} {s t : String} (h : SwapsNamespace s t)
    (hs : s ∈ m.names) : t ∈ m.names := by
  obtain ⟨before, after, ns, hns, ns', hns', rfl, rfl⟩ := h
  obtain ⟨rfl, rfl⟩ := eq_of_append_mem_names hns hs
  refine List.mem_map.2 ⟨ns', hns', ?_⟩
  rw [String.empty_append, String.append_assoc]

/-- **Namespaces put in for others make no marker and spoil none.** -/
theorem mem_names_iff_of_swaps (m : Marker) {s t : String}
    (h : Relation.ReflTransGen SwapsNamespace s t) : s ∈ m.names ↔ t ∈ m.names := by
  induction h with
  | refl => rfl
  | tail _ hswap ih =>
    exact ih.trans ⟨mem_names_of_swapsNamespace hswap, mem_names_of_swapsNamespace hswap.symm⟩

end Marker

/-! ### Annotations, fields and classes -/

/-- An annotation with some namespaces in its name put in for others, and with the same values. -/
structure AnnotationUse.Respelled (a b : AnnotationUse) : Prop where
  name : Relation.ReflTransGen Marker.SwapsNamespace a.name b.name
  values : a.values = b.values

theorem AnnotationUse.Respelled.agrees {a b : AnnotationUse} (h : a.Respelled b) : a.Agrees b where
  names m := m.mem_names_iff_of_swaps h.name
  given := by rw [h.values]

/-- A field with some of its annotations respelled. -/
structure SourceField.Respelled (f g : SourceField) : Prop where
  annotations : Forall₂ AnnotationUse.Respelled f.annotations g.annotations
  same : { f with annotations := g.annotations } = g

theorem SourceField.Respelled.agrees {f g : SourceField} (h : f.Respelled g) : f.Agrees g where
  name := (congrArg SourceField.name h.same :)
  typeText := (congrArg SourceField.typeText h.same :)
  modifiers := (congrArg SourceField.modifiers h.same :)
  annotations := h.annotations.imp fun _ _ hab => hab.agrees
  isEnum := (congrArg SourceField.isEnum h.same :)

namespace SourceClass

/-- A class with some annotations respelled, its own and those of its fields. Nothing is said of
the class above. -/
structure RespelledAlone (c d : SourceClass) : Prop where
  annotations : Forall₂ AnnotationUse.Respelled c.annotations d.annotations
  fields : Forall₂ SourceField.Respelled c.fields d.fields
  same : { c with
    annotations := d.annotations, fields := d.fields, superclass := d.superclass } = d

theorem RespelledAlone.agrees {c d : SourceClass} (h : c.RespelledAlone d) : c.Agrees d where
  name := (congrArg SourceClass.name h.same :)
  package := (congrArg SourceClass.package h.same :)
  kind := (congrArg SourceClass.kind h.same :)
  modifiers := (congrArg SourceClass.modifiers h.same :)
  annotations := h.annotations.imp fun _ _ hab => hab.agrees
  fields := h.fields.imp fun _ _ hfg => hfg.agrees
  arities := (congrArg SourceClass.arities h.same :)

theorem RespelledAlone.qualifiedName {c d : SourceClass} (h : c.RespelledAlone d) :
    c.qualifiedName = d.qualifiedName := by
  rw [SourceClass.qualifiedName, SourceClass.qualifiedName, h.agrees.name, h.agrees.package]

theorem RespelledAlone.interfaces {c d : SourceClass} (h : c.RespelledAlone d) :
    c.interfaces = d.interfaces :=
  (congrArg SourceClass.interfaces h.same :)

/-- A class with some annotations respelled, in itself and in all classes above it. -/
inductive Respelled : SourceClass → SourceClass → Prop
  | alone {c d : SourceClass} : c.RespelledAlone d → c.superclass = none → d.superclass = none →
    Respelled c d
  | above {c d s t : SourceClass} : c.RespelledAlone d → c.superclass = some s →
    d.superclass = some t → Respelled s t → Respelled c d

theorem Respelled.self {c d : SourceClass} (h : c.Respelled d) : c.RespelledAlone d := by
  cases h <;> assumption

theorem Respelled.chain {c d : SourceClass} (h : c.Respelled d) :
    Forall₂ RespelledAlone c.chain d.chain := by
  induction h with
  | alone _ hc hd =>
    rw [chain_of_superclass_eq_none hc, chain_of_superclass_eq_none hd]
    exact .nil
  | above _ hc hd hst ih =>
    rw [chain_of_superclass_eq_some hc, chain_of_superclass_eq_some hd]
    exact .cons hst.self ih

/-- **Namespaces of markers may stand for each other.** A class is given with any of the annotations
in it and above it respelled: whether it is an entity, what its check finds, the entity, what the
check of that finds, and the artifacts are the same. -/
theorem appraise_of_respelled {c d : SourceClass} (h : c.Respelled d) (table : TypeTable)
    (p : Settings) : c.appraise table p = d.appraise table p := by
  have hhierarchy := rel_hierarchy (fun _ _ hcd => hcd.qualifiedName) h.self h.chain
  have hagrees := hhierarchy.imp fun _ _ hcd => hcd.agrees
  have hconcerns : c.check.concerns = d.check.concerns :=
    concerns_check_eq (hhierarchy.imp fun _ _ hcd => by rw [hcd.interfaces]) h.self.agrees.name
  exact appraise_eq (congrArg₂ Findings.mk (defects_check_eq hagrees) hconcerns)
    (ofClass?_eq hagrees table) p

/-- The employee with the namespaces of three markers changed, one of them in the class above. -/
def reannotatedEmployee : SourceClass where
  name := "Employee"
  package := "shop"
  annotations :=
    [⟨"javax.persistence.Entity", []⟩, ⟨"javax.persistence.Table", [("name", "staff")]⟩]
  fields :=
    [{ name := "title", typeText := "String",
       annotations := [⟨"jakarta.persistence.Column", [("name", "job")]⟩] }]
  interfaces := [serializable]
  superclass := some
    { name := "Person", package := "shop"
      fields :=
        [{ name := "id", typeText := "Long",
           annotations := [⟨"jakarta.persistence.Id", []⟩] }] }

theorem respelled_employee : employee.Respelled reannotatedEmployee := by
  have hmodern : "jakarta.persistence" ∈ Marker.namespaces := by decide
  have hlegacy : "javax.persistence" ∈ Marker.namespaces := by decide
  refine .above ⟨.cons ⟨.single ⟨"", ".Entity", _, hmodern, _, hlegacy, rfl, rfl⟩, rfl⟩
    (.cons ⟨.refl, rfl⟩ .nil), .cons ⟨?_, rfl⟩ .nil, rfl⟩ rfl rfl
    (.alone ⟨.nil, .cons ⟨?_, rfl⟩ .nil, rfl⟩ rfl rfl)
  · exact .cons ⟨.single ⟨"", ".Column", _, hlegacy, _, hmodern, rfl, rfl⟩, rfl⟩ .nil
  · exact .cons ⟨.single ⟨"", ".Id", _, hlegacy, _, hmodern, rfl, rfl⟩, rfl⟩ .nil

/-- The employee is the same entity in both spellings. -/
theorem appraise_reannotatedEmployee :
    employee.Respelled reannotatedEmployee ∧ employee.isEntity = true ∧
      employee.appraise .standard .standard = reannotatedEmployee.appraise .standard .standard :=
  ⟨respelled_employee, by decide +kernel, appraise_of_respelled respelled_employee _ _⟩

end SourceClass

end EntityScaffold
