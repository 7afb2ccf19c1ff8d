import Mathlib.Data.List.Chain
import Mathlib.Data.List.Forall2
import EntityScaffold.Entity.OfClass
import EntityScaffold.Proofs.Artifact.Projection
import EntityScaffold.Proofs.Source.Superclass

/-!
# First fields

A flat view takes each name from the first field that gives it. `TakesFirsts` says this by places:
the view is what is given at those places of the field list, in ascending order, where no earlier
place gives anything of the same name. Both views are of this kind (`takesFirsts_projection`,
`takesFirsts_queried`). The fields of a class come in the order of its hierarchy, so the first field
is one of the nearest class (`Entity.members_from_first_fields`).
-/

namespace EntityScaffold

/-! ### What is given first -/

section Firsts

variable {α β γ : Type}

/-- At a place of a list an item gives something, and nothing of its key is given at an earlier
place. -/
structure IsFirstAt (gives : α → β → Prop) (key : β → String) (as : List α) (i : Nat) (b : β) :
    Prop where
  given : ∃ a, as[i]? = some a ∧ gives a b
  first : ∀ j < i, ∀ a, as[j]? = some a → ∀ b', gives a b' → key b' ≠ key b

/-- A list of all that is given first, in the order of the places where it is given. -/
def TakesFirsts (gives : α → β → Prop) (key : β → String) (as : List α) (bs : List β) : Prop :=
  ∃ places : List Nat, places.Pairwise (· < ·) ∧
    (∀ i, i ∈ places ↔ ∃ b, IsFirstAt gives key as i b) ∧
    List.Forall₂ (IsFirstAt gives key as) places bs

variable {gives : α → β → Prop} {key : β → String} {as as' : List α} {a : α} {bs : List β} {b : β}
  {i : Nat}

theorem IsFirstAt.lt_length (h : IsFirstAt gives key as i b) : i < as.length := by
  obtain ⟨a, ha, -⟩ := h.given
  exact (List.getElem?_eq_some_iff.1 ha).1

theorem IsFirstAt.lt_or_eq_of_concat (h : IsFirstAt gives key (as ++ [a]) i b) :
    i < as.length ∨ i = as.length := by
  have hlt := h.lt_length
  rw [List.length_append, List.length_singleton] at hlt
  exact Nat.lt_succ_iff_lt_or_eq.1 hlt

/-- Nothing changes at the places of a list that goes on. -/
theorem isFirstAt_append_of_lt (hi : i < as.length) :
    IsFirstAt gives key (as ++ as') i b ↔ IsFirstAt gives key as i b := by
  have hget : ∀ j ≤ i, (as ++ as')[j]? = as[j]? := fun j hj =>
    List.getElem?_append_left (Nat.lt_of_le_of_lt hj hi)
  constructor
  · intro h
    exact ⟨by rw [← hget i le_rfl]; exact h.given,
      fun j hj => by rw [← hget j hj.le]; exact h.first j hj⟩
  · intro h
    exact ⟨by rw [hget i le_rfl]; exact h.given,
      fun j hj => by rw [hget j hj.le]; exact h.first j hj⟩

/-- Behind a list, something is given first whose key no item of the list gives. -/
theorem isFirstAt_append_length_add : IsFirstAt gives key (as ++ as') (as.length + i) b ↔
    (∀ a ∈ as, ∀ b', gives a b' → key b' ≠ key b) ∧ IsFirstAt gives key as' i b := by
  have hright : ∀ j, (as ++ as')[as.length + j]? = as'[j]? := fun j => by
    rw [List.getElem?_append_right (Nat.le_add_right _ _), Nat.add_sub_cancel_left]
  constructor
  · intro h
    refine ⟨fun a ha => ?_, by rw [← hright]; exact h.given, fun j hj => ?_⟩
    · obtain ⟨j, hj, rfl⟩ := List.getElem_of_mem ha
      exact h.first j (Nat.lt_add_right i hj) _
        (by rw [List.getElem?_append_left hj, List.getElem?_eq_getElem hj])
    · rw [← hright]
      exact h.first _ (Nat.add_lt_add_left hj _)
  · rintro ⟨hbefore, h⟩
    refine ⟨by rw [hright]; exact h.given, fun j hj => ?_⟩
    rcases Nat.lt_or_ge j as.length with hlt | hge
    · rw [List.getElem?_append_left hlt]
      exact fun a ha => hbefore a (List.mem_of_getElem? ha)
    · obtain ⟨k, rfl⟩ := Nat.exists_eq_add_of_le hge
      rw [hright]
      exact h.first k (Nat.lt_of_add_lt_add_left hj)

/-- At its last place a list gives first what no other item gives. -/
theorem isFirstAt_concat_length : IsFirstAt gives key (as ++ [a]) as.length b ↔
    gives a b ∧ ∀ a' ∈ as, ∀ b', gives a' b' → key b' ≠ key b := by
  have halone : IsFirstAt gives key [a] 0 b ↔ gives a b :=
    ⟨fun h => by simpa using h.given, fun h => ⟨⟨a, rfl, h⟩, fun j hj => absurd hj (by simp)⟩⟩
  have h : IsFirstAt gives key (as ++ [a]) (as.length + 0) b ↔
      (∀ a' ∈ as, ∀ b', gives a' b' → key b' ≠ key b) ∧ IsFirstAt gives key [a] 0 b :=
    isFirstAt_append_length_add
  rw [halone, and_comm] at h
  exact h

/-- In joined lists, something is given first in one of them, which gives it first, and no list
before gives anything of its key. -/
theorem IsFirstAt.exists_nearest {items : γ → List α} {cs : List γ}
    (h : IsFirstAt gives key (cs.flatMap items) i b) :
    ∃ near c far j, cs = near ++ c :: far ∧ IsFirstAt gives key (items c) j b ∧
      ∀ d ∈ near, ∀ a ∈ items d, ∀ b', gives a b' → key b' ≠ key b := by
  induction cs generalizing i with
  | nil => exact absurd h.lt_length (Nat.not_lt_zero i)
  | cons c cs ih =>
    rw [List.flatMap_cons] at h
    -- the place is in the nearest list, or counts on from its end
    rcases Nat.lt_or_ge i (items c).length with hlt | hge
    · exact ⟨[], c, cs, i, rfl, (isFirstAt_append_of_lt hlt).1 h, fun d hd => by cases hd⟩
    · obtain ⟨k, rfl⟩ := Nat.exists_eq_add_of_le hge
      obtain ⟨hc, h⟩ := isFirstAt_append_length_add.1 h
      obtain ⟨near, d, far, j, rfl, hd, hnear⟩ := ih h
      exact ⟨c :: near, d, far, j, rfl, hd, List.forall_mem_cons.2 ⟨hc, hnear⟩⟩

namespace TakesFirsts

theorem isFirstAt (h : TakesFirsts gives key as bs) (hb : b ∈ bs) :
    ∃ i, IsFirstAt gives key as i b := by
  obtain ⟨places, -, -, hgiven⟩ := h
  induction hgiven with
  | nil => cases hb
  | @cons i _ _ _ hi _ ih =>
    rcases List.mem_cons.1 hb with rfl | hb
    · exact ⟨i, hi⟩
    · exact ih hb

/-- A list that goes on with an item that gives nothing first. -/
theorem concat_of_not (h : TakesFirsts gives key as bs)
    (hlast : ∀ b, ¬IsFirstAt gives key (as ++ [a]) as.length b) :
    TakesFirsts gives key (as ++ [a]) bs := by
  obtain ⟨places, hsorted, hplaces, hgiven⟩ := h
  have hfirst : ∀ i b, IsFirstAt gives key (as ++ [a]) i b ↔ IsFirstAt gives key as i b := by
    intro i b
    constructor
    · intro h
      rcases h.lt_or_eq_of_concat with hi | rfl
      · exact (isFirstAt_append_of_lt hi).1 h
      · exact absurd h (hlast b)
    · exact fun h => (isFirstAt_append_of_lt h.lt_length).2 h
  refine ⟨places, hsorted, fun i => ?_, hgiven.imp fun i b => (hfirst i b).2⟩
  simp only [hplaces, hfirst]

/-- A list that goes on with an item that gives something first. -/
theorem concat_of_isFirstAt (h : TakesFirsts gives key as bs)
    (hlast : IsFirstAt gives key (as ++ [a]) as.length b) :
    TakesFirsts gives key (as ++ [a]) (bs ++ [b]) := by
  obtain ⟨places, hsorted, hplaces, hgiven⟩ := h
  have hlt : ∀ i ∈ places, i < as.length := by
    intro i hi
    obtain ⟨_, h⟩ := (hplaces i).1 hi
    exact h.lt_length
  refine ⟨places ++ [as.length], ?_, fun i => ?_, ?_⟩
  · rw [List.pairwise_append]
    exact ⟨hsorted, List.pairwise_singleton _ _, fun i hi j hj => by
      rw [List.mem_singleton.1 hj]; exact hlt i hi⟩
  · rw [List.mem_append, List.mem_singleton, hplaces]
    constructor
    · rintro (⟨b', h⟩ | rfl)
      · exact ⟨b', (isFirstAt_append_of_lt h.lt_length).2 h⟩
      · exact ⟨b, hlast⟩
    · rintro ⟨b', h⟩
      rcases h.lt_or_eq_of_concat with hi | hi
      · exact Or.inl ⟨b', (isFirstAt_append_of_lt hi).1 h⟩
      · exact Or.inr hi
  · refine List.rel_append (hgiven.imp fun i b' h => ?_) (.cons hlast .nil)
    exact (isFirstAt_append_of_lt h.lt_length).2 h

end TakesFirsts

/-- **What the items of a list make, each key from its first item, is what they give first.** -/
theorem takesFirsts_firstBy {make : α → Option β} (hmake : ∀ a b, gives a b ↔ make a = some b)
    (key : β → String) (as : List α) :
    TakesFirsts gives key as (firstBy key (as.filterMap make)) := by
  -- by induction from the end: the last item is given first, or its key was given before
  induction as using List.reverseRecOn with
  | nil =>
    refine ⟨[], .nil, fun i => ?_, .nil⟩
    simp only [List.not_mem_nil, false_iff, not_exists]
    exact fun b h => absurd h.lt_length (Nat.not_lt_zero i)
  | append_singleton as a ih =>
    have hlast : ∀ b, IsFirstAt gives key (as ++ [a]) as.length b ↔
        make a = some b ∧ key b ∉ (as.filterMap make).map key := by
      intro b
      rw [isFirstAt_concat_length, hmake]
      refine and_congr_right' ⟨fun h hmem => ?_, fun h a' ha' b' hb' heq => h ?_⟩
      · obtain ⟨b', hb', heq⟩ := List.mem_map.1 hmem
        obtain ⟨a', ha', hmade⟩ := List.mem_filterMap.1 hb'
        exact h a' ha' b' ((hmake a' b').2 hmade) heq
      · exact heq ▸ List.mem_map_of_mem (List.mem_filterMap.2 ⟨a', ha', (hmake a' b').1 hb'⟩)
    rw [List.filterMap_append]
    cases hmade : make a with
    | none =>
      rw [List.filterMap_cons_none hmade, List.filterMap_nil, List.append_nil]
      exact ih.concat_of_not fun b h => by simpa [hmade] using ((hlast b).1 h).1
    | some b =>
      rw [List.filterMap_cons_some hmade, List.filterMap_nil, firstBy_concat]
      by_cases hkey : key b ∈ (as.filterMap make).map key
      · rw [if_pos hkey, List.append_nil]
        refine ih.concat_of_not fun b' h => ?_
        obtain ⟨hb', hnew⟩ := (hlast b').1 h
        obtain rfl := Option.some.inj (hmade.symm.trans hb')
        exact hnew hkey
      · rw [if_neg hkey]
        exact ih.concat_of_isFirstAt ((hlast b).2 ⟨hmade, hkey⟩)

end Firsts

/-! ### Members and query fields -/

namespace Attribute

/-- The member that a field gives: the identifier of the one entity that it refers to, or else the
field itself. A transient field gives none, nor does a field that refers to any number of
entities. -/
inductive GivesMember (f : Attribute) : FlatAttribute → Prop
  | reference (hf : f.isTransient = false)
      (hr : f.relationship = some .manyToOne ∨ f.relationship = some .oneToOne) :
      GivesMember f ⟨f.name ++ "Id", .boxedLong, f⟩
  | value (hf : f.isTransient = false) (hr : f.relationship = none) :
      GivesMember f ⟨f.name, f.type, f⟩

/-- A field to query by: a single value of its own that is kept and is no identifier. -/
structure GivesQuery (f g : Attribute) : Prop where
  same : g = f
  isTransient : f.isTransient = false
  collectionName : f.collectionName = none
  isId : f.isId = false
  relationship : f.relationship ≠ some .oneToMany ∧ f.relationship ≠ some .manyToMany

variable {f g : Attribute} {b : FlatAttribute}

theorem givesMember_iff : f.GivesMember b ↔ f.projection? = some b := by
  constructor
  · rintro (⟨hf, hr | hr⟩ | ⟨hf, hr⟩) <;>
      simp [projection?, isPlural, isReference, Relationship.isPlural, hf, hr]
  · intro h
    cases hf : f.isTransient with
    | true => simp [projection?, hf] at h
    | false =>
      rcases hr : f.relationship with _ | r
      · obtain rfl : _ = b := by simpa [projection?, isPlural, isReference, hf, hr] using h
        exact .value hf hr
      · have hsingle : r = .manyToOne ∨ r = .oneToOne := by
          cases r <;> simp_all [projection?, isPlural, Relationship.isPlural]
        obtain rfl : _ = b := by
          rcases hsingle with rfl | rfl <;>
            simpa [projection?, isPlural, isReference, Relationship.isPlural, hf, hr] using h
        exact .reference hf (by simpa [hr] using hsingle)

theorem givesQuery_iff : f.GivesQuery g ↔ f.isQueried = true ∧ f = g := by
  have hplural : f.isPlural = false ↔
      f.relationship ≠ some .oneToMany ∧ f.relationship ≠ some .manyToMany := by
    unfold isPlural
    rcases f.relationship with _ | (_ | _ | _ | _) <;> decide
  simp only [isQueried, isCollection, Bool.and_eq_true, Bool.not_eq_true', hplural,
    Option.isSome_eq_false_iff, Option.isNone_iff_eq_none]
  constructor
  · rintro ⟨rfl, hf, hcollection, hid, hrelationship⟩
    exact ⟨⟨⟨⟨hf, hcollection⟩, hid⟩, hrelationship⟩, rfl⟩
  · rintro ⟨⟨⟨⟨hf, hcollection⟩, hid⟩, hrelationship⟩, rfl⟩
    exact ⟨rfl, hf, hcollection, hid, hrelationship⟩

/-- A field to query by gives a member. -/
theorem GivesQuery.exists_givesMember (h : f.GivesQuery g) : ∃ b, f.GivesMember b := by
  obtain ⟨-, hf, -, -, hone, hmany⟩ := h
  cases hr : f.relationship with
  | none => exact ⟨_, .value hf hr⟩
  | some r =>
    cases r with
    | manyToOne => exact ⟨_, .reference hf (Or.inl hr)⟩
    | oneToOne => exact ⟨_, .reference hf (Or.inr hr)⟩
    | oneToMany => exact absurd hr hone
    | manyToMany => exact absurd hr hmany

end Attribute

namespace Entity

theorem takesFirsts_projection (m : Entity) :
    TakesFirsts Attribute.GivesMember (·.name) m.fields m.projection :=
  have hmake : ∀ (f : Attribute) b, f.GivesMember b ↔ f.projection? = some b :=
    fun _ _ => Attribute.givesMember_iff
  takesFirsts_firstBy hmake _ _

theorem takesFirsts_queried (m : Entity) :
    TakesFirsts Attribute.GivesQuery (·.name) m.fields m.queried := by
  rw [queried, ← List.filterMap_eq_filter]
  refine takesFirsts_firstBy (fun f g => ?_) _ _
  rw [Attribute.givesQuery_iff, Option.guard_eq_some_iff, and_comm]

/-- A member of the name is kept. -/
theorem name_mem_of_givesMember {m : Entity} {f : Attribute} {b : FlatAttribute}
    (hf : f ∈ m.fields) (hb : f.GivesMember b) : b.name ∈ m.projection.map (·.name) :=
  map_firstBy_subset _ _
    (List.mem_map_of_mem (List.mem_filterMap.2 ⟨f, hf, Attribute.givesMember_iff.1 hb⟩))

end Entity

/-! ### Hierarchies -/

namespace SourceClass

/-- The entity fields that a class has of its own. -/
def attributes (table : TypeTable) (c : SourceClass) : List Attribute :=
  (c.fields.filter (·.isState)).map (Attribute.ofSource table)

/-- The classes are linked, each to the next one. -/
def IsLinked (cs : List SourceClass) : Prop := cs.IsChain fun c d => c.superclass = some d

theorem isLinked_cons_chain (c : SourceClass) : IsLinked (c :: c.chain) := by
  induction c using superclass_induction with
  | alone c hp =>
    rw [chain_of_superclass_eq_none hp]
    exact List.isChain_singleton _
  | above c p hp ih =>
    rw [chain_of_superclass_eq_some hp]
    exact List.isChain_cons_cons.2 ⟨hp, ih⟩

theorem untilRepeated_isPrefix (seen : List String) (cs : List SourceClass) :
    untilRepeated seen cs <+: cs := by
  induction cs generalizing seen with
  | nil => exact List.prefix_rfl
  | cons c cs ih =>
    rw [untilRepeated]
    split
    · exact List.nil_prefix
    · exact List.cons_prefix_cons.2 ⟨rfl, ih _⟩

theorem isLinked_hierarchy (c : SourceClass) : IsLinked c.hierarchy :=
  List.IsChain.prefix (isLinked_cons_chain c)
    (List.cons_prefix_cons.2 ⟨rfl, untilRepeated_isPrefix _ _⟩)

end SourceClass

/-- Of a hierarchy, the nearest class that gives anything of a key gives this, and gives it
first. -/
def IsFromNearest {β : Type} (gives : Attribute → β → Prop) (key : β → String) (table : TypeTable)
    (cs : List SourceClass) (b : β) : Prop :=
  ∃ near c far i, cs = near ++ c :: far ∧ IsFirstAt gives key (c.attributes table) i b ∧
    ∀ d ∈ near, ∀ f ∈ d.attributes table, ∀ b', gives f b' → key b' ≠ key b

namespace Entity

theorem describe_fields (table : TypeTable) (c : SourceClass) :
    (describe table c).fields = c.hierarchy.flatMap (·.attributes table) := by
  show (c.allFields.filter _).map _ = _
  rw [SourceClass.allFields, List.filter_flatMap, List.map_flatMap]
  rfl

/-- **What a view takes is of the nearest class that gives it.** -/
theorem isFromNearest {β : Type} {gives : Attribute → β → Prop} {key : β → String}
    {table : TypeTable} {c : SourceClass} {m : Entity} (hm : ofClass? table c = some m)
    {bs : List β} (h : TakesFirsts gives key m.fields bs) :
    ∀ b ∈ bs, IsFromNearest gives key table c.hierarchy b := by
  intro b hb
  obtain ⟨i, hi⟩ := h.isFirstAt hb
  obtain rfl : describe table c = m := by
    unfold ofClass? at hm
    split_ifs at hm
    exact Option.some.inj hm
  rw [describe_fields] at hi
  exact hi.exists_nearest

/-- **Each name is taken from the first field that gives it.** The members of the flat view have
distinct names and are what the fields give first, in the order of the fields; so are the fields to
query by, and each of them has its member. In a hierarchy the first is one of the nearest class. -/
theorem members_from_first_fields (m : Entity) :
    (m.projection.map (·.name)).Nodup ∧
      TakesFirsts Attribute.GivesMember (·.name) m.fields m.projection ∧
      (m.queried.map (·.name)).Nodup ∧
      TakesFirsts Attribute.GivesQuery (·.name) m.fields m.queried ∧
      (∀ f ∈ m.queried, ∃ b, f.GivesMember b ∧ b.name ∈ m.projection.map (·.name)) ∧
      ∀ table c, ofClass? table c = some m →
        SourceClass.IsLinked c.hierarchy ∧
        (∀ b ∈ m.projection,
          IsFromNearest Attribute.GivesMember (·.name) table c.hierarchy b) ∧
        ∀ f ∈ m.queried, IsFromNearest Attribute.GivesQuery (·.name) table c.hierarchy f := by
  have hmembers := m.takesFirsts_projection
  have hqueried := m.takesFirsts_queried
  refine ⟨m.nodup_names_projection, hmembers, m.nodup_names_queried, hqueried, fun f hf => ?_,
    fun table c hm => ⟨c.isLinked_hierarchy, isFromNearest hm hmembers, isFromNearest hm hqueried⟩⟩
  obtain ⟨i, hi⟩ := hqueried.isFirstAt hf
  obtain ⟨g, -, hg⟩ := hi.given
  obtain ⟨b, hb⟩ := (hg.same ▸ hg : f.GivesQuery f).exists_givesMember
  exact ⟨b, hb, name_mem_of_givesMember (mem_fields_of_mem_queried hf) hb⟩

/-- A class with an identifier and two values. -/
def vehicle : SourceClass where
  name := "Vehicle"
  package := "fleet"
  fields :=
    [{ name := "id", typeText := "Long", annotations := [⟨"javax.persistence.Id", []⟩] },
     { name := "ownerId", typeText := "int" },
     { name := "plate", typeText := "Integer" }]

/-- A class that refers to one entity and has a value called as one above it. -/
def car : SourceClass where
  name := "Car"
  package := "fleet"
  annotations := [⟨"jakarta.persistence.Entity", []⟩]
  fields :=
    [{ name := "serial", typeText := "long", modifiers := ["static"] },
     { name := "owner", typeText := "Person", annotations := [⟨"javax.persistence.ManyToOne", []⟩] },
     { name := "plate", typeText := "String" }]
  superclass := some vehicle

/-- Of the two members called as the owner's identifier, and of the two plates, those of the nearer
class are kept, and the owner is queried by what its member identifies. -/
theorem members_from_first_fields_car :
    ofClass? .standard car = some (describe .standard car) ∧
      (describe .standard car).projection.map (fun b => (b.name, b.type.name)) =
        [("ownerId", "Long"), ("plate", "String"), ("id", "Long")] ∧
      (describe .standard car).queried.map (·.name) = ["owner", "plate", "ownerId"] ∧
      SourceClass.IsLinked car.hierarchy ∧
      (∃ b ∈ (describe .standard car).projection, b.name = "plate" ∧ b.type.name = "String" ∧
        IsFromNearest Attribute.GivesMember (·.name) .standard car.hierarchy b) ∧
      ∃ f ∈ (describe .standard car).queried, f.name = "owner" ∧
        ∃ b, f.GivesMember b ∧ b.name ∈ (describe .standard car).projection.map (·.name) := by
  have hcar : ofClass? .standard car = some (describe .standard car) :=
    if_pos (by decide +kernel)
  have hmembers : (describe .standard car).projection.map (fun b => (b.name, b.type.name)) =
      [("ownerId", "Long"), ("plate", "String"), ("id", "Long")] := by decide +kernel
  have hqueried : (describe .standard car).queried.map (·.name) = ["owner", "plate", "ownerId"] := by
    decide +kernel
  obtain ⟨-, -, -, -, hcovered, h⟩ := members_from_first_fields (describe .standard car)
  obtain ⟨hlinked, hnearest, -⟩ := h .standard car hcar
  obtain ⟨b, hb, heq⟩ := List.mem_map.1 (hmembers ▸ List.mem_cons_of_mem _ List.mem_cons_self)
  obtain ⟨hname, htype⟩ := Prod.mk.inj heq
  obtain ⟨f, hf, howner⟩ := List.mem_map.1 (hqueried ▸ List.mem_cons_self)
  exact ⟨hcar, hmembers, hqueried, hlinked, ⟨b, hb, hname, htype, hnearest b hb⟩,
    f, hf, howner, hcovered f hf⟩

end Entity

end EntityScaffold
