import EntityScaffold.Proofs.Artifact.Dependence
import EntityScaffold.Proofs.Entity.Appraisal

/-!
# Fields that are left aside

A field may be put into the field list of a class, or of one above it, wherever one likes
(`SourceClass.withField`). If it is static or final, nothing that is made of the class changes. If
it is no identifier, and is transient or refers to any number of entities, the artifacts do not
change (`SourceClass.appraise_withField`).
-/

namespace EntityScaffold

open List (Forall₂)

/-! ### Fields of an entity that artifacts show -/

/-- Artifacts may show the field. -/
def Attribute.isShown (f : Attribute) : Bool := f.isId || !(f.isTransient || f.isPlural)

namespace Entity

variable {m n : Entity}

theorem identifier?_eq_shown (m : Entity) :
    m.identifier? = (m.fields.filter (·.isShown)).find? (·.isId) := by
  have hshown : (fun f : Attribute => decide (f.isShown = true ∧ f.isId = true)) = (·.isId) := by
    funext f
    cases hid : f.isId <;> simp [Attribute.isShown, hid]
  rw [identifier?, List.find?_filter, hshown]

theorem projection_eq_shown (m : Entity) :
    m.projection = firstBy (·.name) ((m.fields.filter (·.isShown)).filterMap (·.projection?)) := by
  have hshown : (fun f : Attribute => if f.isShown = true then f.projection? else none) =
      (·.projection?) := by
    funext f
    split_ifs with h
    · rfl
    · rw [Attribute.isShown, Bool.or_eq_true, Bool.not_eq_true', not_or, Bool.not_eq_false] at h
      rw [Attribute.projection?, if_pos h.2]
  rw [projection, List.filterMap_filter, hshown]

theorem queried_eq_shown (m : Entity) :
    m.queried = firstBy (·.name) ((m.fields.filter (·.isShown)).filter (·.isQueried)) := by
  have hshown : (fun f : Attribute => f.isQueried && f.isShown) = (·.isQueried) := by
    funext f
    cases hqueried : f.isQueried
    · rfl
    · simp_all [Attribute.isShown, Attribute.isQueried]
  rw [queried, List.filter_filter, hshown]

/-- Entities with the same names and the same fields that artifacts show agree. -/
theorem agrees_of_shown (hname : m.className = n.className) (hpackage : m.package = n.package)
    (hfields : m.fields.filter (·.isShown) = n.fields.filter (·.isShown)) : m.Agrees n where
  className := hname
  package := hpackage
  identifier? := by rw [identifier?_eq_shown, hfields, ← identifier?_eq_shown]
  projection := by rw [projection_eq_shown, hfields, ← projection_eq_shown]
  queried := by rw [queried_eq_shown, hfields, ← queried_eq_shown]

end Entity

/-! ### Classes with a field more -/

/-- A field that fails a test is put into a list without a trace among the items that pass. -/
theorem filter_insertIdx {α : Type} {q : α → Bool} {a : α} (ha : q a = false) (l : List α)
    (place : Nat) : (l.insertIdx place a).filter q = l.filter q := by
  induction l generalizing place with
  | nil => cases place <;> simp [ha]
  | cons b l ih =>
    cases place with
    | zero => simp [ha]
    | succ place => rw [List.insertIdx_succ_cons, List.filter_cons, List.filter_cons, ih]

namespace SourceClass

/-- The class with a field more at a place of the field list, its own or that of the class so many
levels above. -/
def withField (f : SourceField) (place : Nat) : Nat → SourceClass → SourceClass
  | 0, c => { c with fields := c.fields.insertIdx place f }
  | level + 1, c => { c with superclass := c.superclass.map (withField f place level) }

section WithField

variable (f : SourceField) (place level : Nat) (c : SourceClass)

@[simp] theorem name_withField : (withField f place level c).name = c.name := by
  cases level <;> rfl

@[simp] theorem package_withField : (withField f place level c).package = c.package := by
  cases level <;> rfl

@[simp] theorem kind_withField : (withField f place level c).kind = c.kind := by
  cases level <;> rfl

@[simp] theorem modifiers_withField : (withField f place level c).modifiers = c.modifiers := by
  cases level <;> rfl

@[simp] theorem annotations_withField :
    (withField f place level c).annotations = c.annotations := by
  cases level <;> rfl

@[simp] theorem arities_withField : (withField f place level c).arities = c.arities := by
  cases level <;> rfl

@[simp] theorem isEntity_withField : (withField f place level c).isEntity = c.isEntity := by
  simp [isEntity, isAbstract]

end WithField

/-- Two classes agree in their names, in the fields that pass a test, and in their interfaces. -/
structure PassAlike (q : SourceField → Bool) (c d : SourceClass) : Prop where
  qualifiedName : c.qualifiedName = d.qualifiedName
  fields : c.fields.filter q = d.fields.filter q
  interfaces : c.interfaces = d.interfaces

variable {q : SourceField → Bool} {f : SourceField}

theorem PassAlike.refl (q : SourceField → Bool) (c : SourceClass) : PassAlike q c c :=
  ⟨rfl, rfl, rfl⟩

/-- A field that fails the test leaves no trace in a class nor in the classes above it. -/
theorem passAlike_withField (hq : q f = false) (place level : Nat) (c : SourceClass) :
    PassAlike q (withField f place level c) c ∧
      Forall₂ (PassAlike q) (withField f place level c).chain c.chain := by
  induction level generalizing c with
  | zero =>
    have hchain : (withField f place 0 c).chain = c.chain := chain_eq_of_superclass_eq rfl
    rw [hchain]
    exact ⟨⟨rfl, filter_insertIdx hq c.fields place, rfl⟩,
      List.forall₂_same.2 fun d _ => .refl q d⟩
  | succ level ih =>
    refine ⟨⟨rfl, rfl, rfl⟩, ?_⟩
    cases hsuper : c.superclass with
    | none =>
      have hnone : (withField f place (level + 1) c).superclass = none := by
        rw [withField, hsuper, Option.map_none]
      rw [chain_of_superclass_eq_none hsuper, chain_of_superclass_eq_none hnone]
      exact .nil
    | some s =>
      have hsome : (withField f place (level + 1) c).superclass =
          some (withField f place level s) := by
        rw [withField, hsuper, Option.map_some]
      rw [chain_of_superclass_eq_some hsuper, chain_of_superclass_eq_some hsome]
      exact .cons (ih s).1 (ih s).2

theorem passAlike_hierarchy (hq : q f = false) (place level : Nat) (c : SourceClass) :
    Forall₂ (PassAlike q) (withField f place level c).hierarchy c.hierarchy :=
  rel_hierarchy (fun _ _ h => h.qualifiedName) (passAlike_withField hq place level c).1
    (passAlike_withField hq place level c).2

/-- **A field that fails a test does not count among the fields that pass it.** -/
theorem filter_allFields_withField (hq : q f = false) (place level : Nat) (c : SourceClass) :
    (withField f place level c).allFields.filter q = c.allFields.filter q := by
  rw [allFields, allFields, List.filter_flatMap, List.filter_flatMap, List.flatMap_def,
    List.flatMap_def,
    map_eq_map_of_forall₂ (fun _ _ h => h.fields) (passAlike_hierarchy hq place level c)]

/-! ### Static and final fields -/

theorem check_withField (hf : f.isState = false) (place level : Nat) (c : SourceClass) :
    (withField f place level c).check = c.check := by
  have hfields : (withField f place level c).stateFields = c.stateFields :=
    filter_allFields_withField hf place level c
  have hdefects : (withField f place level c).check.defects = c.check.defects := by
    simp [check, hfields, isAbstract]
  have hconcerns : (withField f place level c).check.concerns = c.check.concerns :=
    concerns_check_eq ((passAlike_hierarchy hf place level c).imp fun _ _ h => by rw [h.interfaces])
      (name_withField f place level c)
  exact congrArg₂ Findings.mk hdefects hconcerns

theorem ofClass?_withField (hf : f.isState = false) (place level : Nat) (table : TypeTable)
    (c : SourceClass) :
    Entity.ofClass? table (withField f place level c) = Entity.ofClass? table c := by
  have hfields : (withField f place level c).stateFields = c.stateFields :=
    filter_allFields_withField hf place level c
  simp [Entity.ofClass?, Entity.describe, hfields]

/-! ### Fields that artifacts do not show -/

theorem agrees_describe_withField (table : TypeTable)
    (hf : (Attribute.ofSource table f).isShown = false) (place level : Nat) (c : SourceClass) :
    (Entity.describe table (withField f place level c)).Agrees (Entity.describe table c) := by
  refine Entity.agrees_of_shown (by simp [Entity.describe]) (by simp [Entity.describe]) ?_
  have hfields := filter_allFields_withField (f := f)
    (q := fun g => (Attribute.ofSource table g).isShown && g.isState) (by simp [hf]) place level c
  rw [← List.filter_filter, ← List.filter_filter] at hfields
  rw [Entity.describe, Entity.describe, List.filter_map, List.filter_map]
  exact congrArg (List.map _) hfields

theorem artifacts?_withField (table : TypeTable)
    (hf : (Attribute.ofSource table f).isShown = false) (place level : Nat) (p : Settings)
    (c : SourceClass) :
    ((withField f place level c).appraise table p).artifacts? =
      (c.appraise table p).artifacts? := by
  have hall := Artifact.all_eq (agrees_describe_withField table hf place level c)
    (Settings.Agrees.refl p)
  simp only [appraise, Entity.ofClass?, isEntity_withField]
  split_ifs
  · exact congrArg some hall
  · rfl

/-- **Fields that are left aside have no influence.** A field is put into the field list of a class,
or of a class above it, at any place. If it is static or final, the same is made of the class as
before, whatever the field is called and however it is annotated. If it is not marked as an
identifier, and is transient or refers to any number of entities, the same artifacts are made. -/
theorem appraise_withField (table : TypeTable) (p : Settings) (f : SourceField)
    (place level : Nat) (c : SourceClass) :
    (f.isStatic = true ∨ f.isFinal = true →
      (withField f place level c).appraise table p = c.appraise table p) ∧
    (Marker.id.isIn f.annotations = false →
      (Marker.transient.isIn f.annotations = true ∨ "transient" ∈ f.modifiers) ∨
        (Relationship.of? f.annotations = some .oneToMany ∨
          Relationship.of? f.annotations = some .manyToMany) →
      ((withField f place level c).appraise table p).artifacts? =
        (c.appraise table p).artifacts?) := by
  constructor
  · intro hf
    have hstate : f.isState = false := by
      rcases hf with hstatic | hfinal <;> simp [SourceField.isState, *]
    exact appraise_eq (check_withField hstate place level c)
      (ofClass?_withField hstate place level table c) p
  · intro hid hf
    refine artifacts?_withField table ?_ place level p c
    have hleft : ((Attribute.ofSource table f).isTransient ||
        (Attribute.ofSource table f).isPlural) = true := by
      rcases hf with (hmarked | hmodifier) | hmany | hmany <;>
        simp [Attribute.ofSource, Attribute.isPlural, Relationship.isPlural, *]
    rw [Attribute.isShown, hleft, Bool.not_true, Bool.or_false]
    exact hid

/-- A constant that is marked as an identifier. -/
def constantId : SourceField where
  name := "id"
  typeText := "int"
  modifiers := ["static", "final"]
  annotations := [⟨"javax.persistence.Id", []⟩]

/-- A reference to many entities. -/
def manyOrders : SourceField where
  name := "orders"
  typeText := "java.util.List<Order>"
  annotations := [⟨"jakarta.persistence.OneToMany", []⟩]

/-- In front of the inherited identifier, neither of the two has an influence. -/
theorem appraise_withField_employee :
    (withField constantId 0 1 employee).allFields.map (·.typeText) = ["String", "int", "Long"] ∧
      constantId.isStatic = true ∧
      (withField constantId 0 1 employee).appraise .standard .standard =
        employee.appraise .standard .standard ∧
      Marker.id.isIn manyOrders.annotations = false ∧
      Relationship.of? manyOrders.annotations = some .oneToMany ∧
      ((withField manyOrders 0 1 employee).appraise .standard .standard).artifacts? =
        (employee.appraise .standard .standard).artifacts? := by
  have hstatic : constantId.isStatic = true := by decide +kernel
  have hid : Marker.id.isIn manyOrders.annotations = false := by decide +kernel
  have hmany : Relationship.of? manyOrders.annotations = some .oneToMany := by decide +kernel
  exact ⟨by decide +kernel, hstatic,
    (appraise_withField .standard .standard constantId 0 1 employee).1 (.inl hstatic), hid, hmany,
    (appraise_withField .standard .standard manyOrders 0 1 employee).2 hid (.inr (.inl hmany))⟩

end SourceClass

end EntityScaffold
