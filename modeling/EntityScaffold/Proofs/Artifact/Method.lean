import Mathlib.Data.List.Pairwise
import EntityScaffold.Artifact.Dto
import EntityScaffold.Artifact.Repository
import EntityScaffold.Entity.OfClass
import EntityScaffold.Proofs.Artifact.Projection
import EntityScaffold.Proofs.Text.Identifier

/-!
# Methods of generated types

The members of a repository are its query methods (`Artifact.members_repository`), and a transfer
object without annotations declares accessors behind its fields (`Artifact.members_dto`). Methods of
one type are told apart by their names and the types of their parameters.

Names of fields come once in each of the two views, but the names of methods are made from them with
a capital, and for a part of a string with an ending behind. So two methods have one signature as
soon as two fields differ in the case of their first letters only, or one is named as the query for
a part of the other (`Artifact.nodup_signatures_iff`).
-/

namespace EntityScaffold

open Text

/-- How a method begins: the type of its result, its name, and its parameters by types and
names. -/
structure MethodHead where
  result : String
  name : String
  parameters : List (String × String)
  deriving DecidableEq, Repr, Inhabited

namespace MethodHead

/-- The beginning of a method as it is written. -/
def text (h : MethodHead) : String :=
  h.result ++ " " ++ h.name ++ "(" ++
    join ", " (h.parameters.map fun x => x.1 ++ " " ++ x.2) ++ ")"

/-- What methods of one type are told apart by: the name and the types of the parameters. -/
def signature (h : MethodHead) : String × List String := (h.name, h.parameters.map (·.1))

end MethodHead

namespace Artifact

variable {m : Entity} {p : Settings}

/-! ### Queries of a repository -/

/-- The query for a value of a field. -/
def valueQuery (entity : String) (f : Attribute) : MethodHead :=
  ⟨"List<" ++ entity ++ ">", "findBy" ++ Naming.capitalize f.name, [(f.type.render, f.name)]⟩

/-- The query for a part of a string. -/
def partQuery (entity : String) (f : Attribute) : MethodHead :=
  ⟨"List<" ++ entity ++ ">", "findBy" ++ Naming.capitalize f.name ++ "ContainingIgnoreCase",
    [("String", f.name)]⟩

/-- The methods of a repository. -/
def queryMethods (m : Entity) (p : Settings) : List MethodHead :=
  (queryAttributes m p).flatMap fun f =>
    valueQuery m.className f :: if f.type.isString then [partQuery m.className f] else []

theorem findBy_eq (entity : String) (f : Attribute) :
    findBy entity f = [(valueQuery entity f).text ++ ";"] := by
  rw [findBy, List.singleton_inj, ← String.toList_inj]
  simp [MethodHead.text, valueQuery, join]

theorem findContaining_eq (entity : String) (f : Attribute) :
    findContaining entity f = [(partQuery entity f).text ++ ";"] := by
  rw [findContaining, List.singleton_inj, ← String.toList_inj]
  simp [MethodHead.text, partQuery, join]

/-- **The members of a repository are its methods.** -/
theorem members_repository (m : Entity) (p : Settings) :
    (repository m p).members = (queryMethods m p).map fun h => [h.text ++ ";"] := by
  rw [repository, queryMethods, List.map_flatMap]
  refine List.flatMap_congr fun f _ => ?_
  rw [queries, findBy_eq, findContaining_eq, List.map_cons]
  split <;> rfl

/-! ### Accessors of a transfer object -/

/-- A method with its body. -/
structure Method where
  head : MethodHead
  body : List String

/-- A public method as it is written. -/
def Method.block (x : Method) : List String := Listing.braced ("public " ++ x.head.text) x.body

/-- The methods that read and write a member. -/
def accessors (f : FlatAttribute) : List Method :=
  [⟨⟨f.type.render, "get" ++ Naming.capitalize f.name, []⟩, ["return " ++ f.name ++ ";"]⟩,
   ⟨⟨"void", "set" ++ Naming.capitalize f.name, [(f.type.render, f.name)]⟩,
    ["this." ++ f.name ++ " = " ++ f.name ++ ";"]⟩]

/-- The methods of a transfer object without annotations. -/
def accessorMethods (m : Entity) : List Method := m.projection.flatMap accessors

theorem getter_setter_eq (f : FlatAttribute) :
    [getter f, setter f] = (accessors f).map (·.block) := by
  have hget : "public " ++ f.type.render ++ " get" ++ Naming.capitalize f.name ++ "()" =
      "public " ++ (MethodHead.mk f.type.render ("get" ++ Naming.capitalize f.name) []).text := by
    rw [← String.toList_inj]
    simp [MethodHead.text, join]
  have hset : "public void set" ++ Naming.capitalize f.name ++ "(" ++ f.type.render ++ " " ++
        f.name ++ ")" =
      "public " ++ (MethodHead.mk "void" ("set" ++ Naming.capitalize f.name)
        [(f.type.render, f.name)]).text := by
    rw [← String.toList_inj]
    simp [MethodHead.text, join]
  rw [getter, setter, accessors, hget, hset]
  rfl

/-- **The members of a transfer object are its fields and, without annotations, its methods.** -/
theorem members_dto (m : Entity) (p : Settings) :
    (dto m p).members =
      (if m.projection.isEmpty then [] else [m.projection.map memberDeclaration]) ++
        if p.accessorStyle then [] else (accessorMethods m).map (·.block) := by
  have hmethods : m.projection.flatMap (fun f => [getter f, setter f]) =
      (accessorMethods m).map (·.block) := by
    rw [accessorMethods, List.map_flatMap]
    exact List.flatMap_congr fun f _ => getter_setter_eq f
  rw [dto, ← hmethods]

/-! ### Signatures -/

/-- The queries for two fields have a signature in common. -/
def QueriesClash (f g : Attribute) : Prop :=
  (Naming.capitalize f.name = Naming.capitalize g.name ∧
    (f.type.render = g.type.render ∨ f.type.isString = true ∧ g.type.isString = true)) ∨
  (Naming.capitalize f.name = Naming.capitalize g.name ++ "ContainingIgnoreCase" ∧
    f.type.render = "String" ∧ g.type.isString = true)

instance (f g : Attribute) : Decidable (QueriesClash f g) := inferInstanceAs (Decidable (_ ∨ _))

/-- The signatures of the queries for a field. -/
def querySignatures (f : Attribute) : List (String × List String) :=
  ("findBy" ++ Naming.capitalize f.name, [f.type.render]) ::
    if f.type.isString then
      [("findBy" ++ Naming.capitalize f.name ++ "ContainingIgnoreCase", ["String"])]
    else []

theorem mem_querySignatures {f : Attribute} {s : String × List String} :
    s ∈ querySignatures f ↔
      s = ("findBy" ++ Naming.capitalize f.name, [f.type.render]) ∨
      f.type.isString = true ∧
        s = ("findBy" ++ Naming.capitalize f.name ++ "ContainingIgnoreCase", ["String"]) := by
  unfold querySignatures
  split <;> simp_all

theorem ne_append_containing (s : String) : s ≠ s ++ "ContainingIgnoreCase" := by
  intro h
  have hlength := congrArg (·.toList.length) h
  simp at hlength

theorem nodup_querySignatures (f : Attribute) : (querySignatures f).Nodup := by
  have hne := ne_append_containing ("findBy" ++ Naming.capitalize f.name)
  unfold querySignatures
  split
  · simp [hne]
  · simp

theorem findBy_inj {s t : String} : "findBy" ++ s = "findBy" ++ t ↔ s = t := by
  simp [← String.toList_inj]

theorem append_containing_inj {s t : String} :
    s ++ "ContainingIgnoreCase" = t ++ "ContainingIgnoreCase" ↔ s = t := by
  simp [← String.toList_inj]

theorem QueriesClash.exists_mem {f g : Attribute} (h : QueriesClash f g) :
    ∃ s, s ∈ querySignatures f ∧ s ∈ querySignatures g := by
  rcases h with ⟨hname, htype | ⟨hf, hg⟩⟩ | ⟨hname, htype, hg⟩
  · exact ⟨_, mem_querySignatures.2 (Or.inl rfl),
      mem_querySignatures.2 (Or.inl (by rw [hname, htype]))⟩
  · exact ⟨_, mem_querySignatures.2 (Or.inr ⟨hf, rfl⟩),
      mem_querySignatures.2 (Or.inr ⟨hg, by rw [hname]⟩)⟩
  · exact ⟨_, mem_querySignatures.2 (Or.inl rfl),
      mem_querySignatures.2 (Or.inr ⟨hg, by rw [hname, htype, String.append_assoc]⟩)⟩

/-- **Queries for two fields clash exactly if they have a signature in common.** -/
theorem exists_mem_querySignatures_iff {f g : Attribute} :
    (∃ s, s ∈ querySignatures f ∧ s ∈ querySignatures g) ↔
      QueriesClash f g ∨ QueriesClash g f := by
  constructor
  · rintro ⟨s, hsf, hsg⟩
    rcases mem_querySignatures.1 hsf with rfl | ⟨hf, rfl⟩
    · rcases mem_querySignatures.1 hsg with heq | ⟨hg, heq⟩
      · rw [Prod.mk.injEq, findBy_inj, List.singleton_inj] at heq
        exact Or.inl (Or.inl ⟨heq.1, Or.inl heq.2⟩)
      · rw [Prod.mk.injEq, String.append_assoc, findBy_inj, List.singleton_inj] at heq
        exact Or.inl (Or.inr ⟨heq.1, heq.2, hg⟩)
    · rcases mem_querySignatures.1 hsg with heq | ⟨hg, heq⟩
      · rw [Prod.mk.injEq, String.append_assoc, findBy_inj, List.singleton_inj] at heq
        exact Or.inr (Or.inr ⟨heq.1.symm, heq.2.symm, hf⟩)
      · rw [Prod.mk.injEq, append_containing_inj, findBy_inj] at heq
        exact Or.inl (Or.inl ⟨heq.1, Or.inr ⟨hf, hg⟩⟩)
  · rintro (h | h)
    · exact h.exists_mem
    · obtain ⟨s, hg, hf⟩ := h.exists_mem
      exact ⟨s, hf, hg⟩

/-- Where keys are distinct, a symmetric relation holds pairwise if it holds of all items with
different keys. -/
theorem pairwise_iff_of_nodup_map {α β : Type} {key : α → β} {R : α → α → Prop} [Std.Symm R]
    {as : List α} (h : (as.map key).Nodup) :
    as.Pairwise R ↔ ∀ a ∈ as, ∀ b ∈ as, key a ≠ key b → R a b := by
  constructor
  · intro hpairwise a ha b hb hne
    exact hpairwise.forall ha hb fun heq => hne (congrArg key heq)
  · intro hall
    exact (List.pairwise_map.1 h).imp_of_mem fun ha hb hne => hall _ ha _ hb hne

instance symm_onFun_disjoint {α β : Type} (f : α → List β) :
    Std.Symm (Function.onFun List.Disjoint f) :=
  ⟨fun _ _ h _ hs ht => h ht hs⟩

theorem signatures_queryMethods (m : Entity) (p : Settings) :
    (queryMethods m p).map (·.signature) = (queryAttributes m p).flatMap querySignatures := by
  rw [queryMethods, List.map_flatMap]
  refine List.flatMap_congr fun f _ => ?_
  rw [querySignatures, List.map_cons]
  split <;> rfl

theorem nodup_names_queryAttributes (m : Entity) (p : Settings) :
    ((queryAttributes m p).map (·.name)).Nodup := by
  unfold queryAttributes
  split
  · exact m.nodup_names_queried
  · exact List.nodup_nil

/-- **A repository declares no method twice exactly if the queries for no two of its fields
clash.** -/
theorem nodup_queryMethods_iff (m : Entity) (p : Settings) :
    ((queryMethods m p).map (·.signature)).Nodup ↔
      ∀ f ∈ queryAttributes m p, ∀ g ∈ queryAttributes m p, f.name ≠ g.name →
        ¬ QueriesClash f g := by
  rw [signatures_queryMethods, List.nodup_flatMap,
    and_iff_right fun f _ => nodup_querySignatures f,
    pairwise_iff_of_nodup_map (nodup_names_queryAttributes m p)]
  constructor
  · intro h f hf g hg hne hclash
    obtain ⟨s, hsf, hsg⟩ := hclash.exists_mem
    exact h f hf g hg hne hsf hsg
  · intro h f hf g hg hne s hsf hsg
    rcases exists_mem_querySignatures_iff.1 ⟨s, hsf, hsg⟩ with hclash | hclash
    · exact h f hf g hg hne hclash
    · exact h g hg f hf hne.symm hclash

/-- The signatures of the accessors of a member. -/
def accessorSignatures (f : FlatAttribute) : List (String × List String) :=
  [("get" ++ Naming.capitalize f.name, []), ("set" ++ Naming.capitalize f.name, [f.type.render])]

theorem nodup_accessorSignatures (f : FlatAttribute) : (accessorSignatures f).Nodup := by
  simp [accessorSignatures]

/-- Accessors of two members have a signature in common exactly if both are read by methods of one
name. -/
theorem disjoint_accessorSignatures_iff {f g : FlatAttribute} :
    (accessorSignatures f).Disjoint (accessorSignatures g) ↔
      Naming.capitalize f.name ≠ Naming.capitalize g.name := by
  have hget {s t : String} : "get" ++ s = "get" ++ t ↔ s = t := by simp [← String.toList_inj]
  have hset {s t : String} : "set" ++ s = "set" ++ t ↔ s = t := by simp [← String.toList_inj]
  have hne {s t : String} : "get" ++ s ≠ "set" ++ t := by simp [← String.toList_inj]
  constructor
  · intro h heq
    exact h (a := ("get" ++ Naming.capitalize f.name, [])) List.mem_cons_self
      (by rw [heq]; exact List.mem_cons_self)
  · intro h s hf hg
    rcases List.mem_pair.1 hf with rfl | rfl
    · rcases List.mem_pair.1 hg with heq | heq
      · exact h (hget.1 (Prod.mk.inj heq).1)
      · exact hne (Prod.mk.inj heq).1
    · rcases List.mem_pair.1 hg with heq | heq
      · exact hne (Prod.mk.inj heq).1.symm
      · exact h (hset.1 (Prod.mk.inj heq).1)

/-- **A transfer object without annotations declares no method twice exactly if no two of its
members have the same name with a capital.** -/
theorem nodup_accessorMethods_iff (m : Entity) :
    ((accessorMethods m).map (·.head.signature)).Nodup ↔
      ∀ f ∈ m.projection, ∀ g ∈ m.projection, f.name ≠ g.name →
        Naming.capitalize f.name ≠ Naming.capitalize g.name := by
  have hsignatures : (accessorMethods m).map (·.head.signature) =
      m.projection.flatMap accessorSignatures := by
    rw [accessorMethods, List.map_flatMap]
    rfl
  rw [hsignatures, List.nodup_flatMap, and_iff_right fun f _ => nodup_accessorSignatures f,
    pairwise_iff_of_nodup_map m.nodup_names_projection]
  simp only [Function.onFun, disjoint_accessorSignatures_iff]

/-- **Which methods are declared twice.** The members of a repository are query methods, and no two
of them have one name and one type of parameter exactly if the queries for no two fields clash. A
transfer object without annotations declares accessors, and no two of them have one name and the
same types of parameters exactly if no two members have the same name with a capital. -/
theorem nodup_signatures_iff (m : Entity) (p : Settings) :
    ((repository m p).members = (queryMethods m p).map fun h => [h.text ++ ";"]) ∧
    (((queryMethods m p).map (·.signature)).Nodup ↔
      ∀ f ∈ queryAttributes m p, ∀ g ∈ queryAttributes m p, f.name ≠ g.name →
        ¬ QueriesClash f g) ∧
    ((dto m p).members =
      (if m.projection.isEmpty then [] else [m.projection.map memberDeclaration]) ++
        if p.accessorStyle then [] else (accessorMethods m).map (·.block)) ∧
    (((accessorMethods m).map (·.head.signature)).Nodup ↔
      ∀ f ∈ m.projection, ∀ g ∈ m.projection, f.name ≠ g.name →
        Naming.capitalize f.name ≠ Naming.capitalize g.name) :=
  ⟨members_repository m p, nodup_queryMethods_iff m p, members_dto m p,
    nodup_accessorMethods_iff m⟩

/-- A person with two strings. -/
def personWith (first second : String) : SourceClass where
  name := "Person"
  package := "shop"
  annotations := [⟨"jakarta.persistence.Entity", []⟩]
  fields :=
    [{ name := "id", typeText := "Long", annotations := [⟨"jakarta.persistence.Id", []⟩] },
     { name := first, typeText := "String" },
     { name := second, typeText := "String" }]

/-- **Methods may be declared twice**: by fields whose names differ in the case of the first letter,
and by a field that is named as the query for a part of another one. -/
theorem exists_duplicate_methods :
    (personWith "name" "Name").isEntity = true ∧
    (∀ f ∈ (personWith "name" "Name").allFields, Java.IsIdentifier f.name) ∧
    ¬ ((queryMethods (.describe .standard (personWith "name" "Name")) .standard).map
      (·.signature)).Nodup ∧
    ¬ ((accessorMethods (.describe .standard (personWith "name" "Name"))).map
      (·.head.signature)).Nodup ∧
    (personWith "name" "nameContainingIgnoreCase").isEntity = true ∧
    (∀ f ∈ (personWith "name" "nameContainingIgnoreCase").allFields, Java.IsIdentifier f.name) ∧
    ¬ ((queryMethods (.describe .standard (personWith "name" "nameContainingIgnoreCase"))
      .standard).map (·.signature)).Nodup := by
  refine ⟨?_, ?_, ?_, ?_, ?_, ?_, ?_⟩
  all_goals decide +kernel

end Artifact

end EntityScaffold
