import Mathlib.Tactic.Common
import EntityScaffold.Json.Reader
import EntityScaffold.Proofs.Lookup
import EntityScaffold.Proofs.Step

/-!
# Members of objects

In an object that has each name once, a member is what is found under its name, so the order of the
members does not matter. A text is always read as such a value (`isProper_of_read`): of members of
one name the last one counts.
-/

namespace EntityScaffold.Json

/-- The value names the members of each of its objects once. -/
inductive IsProper : Json → Prop
  | null : IsProper .null
  | bool (b : Bool) : IsProper (.bool b)
  | whole (n : Int) : IsProper (.whole n)
  | decimal (text : String) : IsProper (.decimal text)
  | string (s : String) : IsProper (.string s)
  | array {items : List Json} : (∀ v ∈ items, IsProper v) → IsProper (.array items)
  | object {members : List (String × Json)} : (members.map (·.1)).Nodup →
      (∀ m ∈ members, IsProper m.2) → IsProper (.object members)

/-- The values are the same but for the order of members. -/
inductive Reordered : Json → Json → Prop
  | refl (v : Json) : Reordered v v
  | object {members members' : List (String × Json)} (counterpart : String × Json → Json) :
      (∀ m ∈ members, Reordered m.2 (counterpart m)) →
      (members.map fun m => (m.1, counterpart m)).Perm members' →
      Reordered (.object members) (.object members')

variable {members members' : List (String × Json)} {name : String} {v v' : Json}

/-! ### Finding members -/

theorem get?_eq_some (h : v.get? name = some v') :
    ∃ members, v = .object members ∧ (name, v') ∈ members := by
  cases v with
  | object members => exact ⟨members, rfl, mem_of_lookup_eq_some h⟩
  | null | bool | whole | decimal | string | array => cases h

/-! ### Order -/

theorem IsProper.nodup (h : IsProper (.object members)) : (members.map (·.1)).Nodup := by
  cases h with
  | object hnodup _ => exact hnodup

theorem IsProper.mem (h : IsProper (.object members)) {m : String × Json} (hm : m ∈ members) :
    m.2.IsProper := by
  cases h with
  | object _ hall => exact hall m hm

theorem IsProper.get? (h : v.IsProper) (hv : v.get? name = some v') : v'.IsProper := by
  obtain ⟨members, rfl, hmem⟩ := get?_eq_some hv
  exact h.mem hmem

/-- What is found under a name is found there in any order. -/
theorem Reordered.rel_get? (h : Reordered v v') (hproper : v'.IsProper) (name : String) :
    Option.Rel Reordered (v.get? name) (v'.get? name) := by
  cases h with
  | refl =>
    cases v.get? name with
    | none => exact .none
    | some w => exact .some (.refl w)
  | @object members members' counterpart hsame hperm =>
    have hnames : name ∈ members.map (·.1) ↔ name ∈ members'.map (·.1) := by
      have hmap := (hperm.map (·.1)).mem_iff (a := name)
      rwa [List.map_map] at hmap
    cases hw : members.lookup name with
    | none =>
      have hw' : members'.lookup name = none :=
        lookup_eq_none_iff_notMem.2 fun hmem => lookup_eq_none_iff_notMem.1 hw (hnames.2 hmem)
      rw [get?, hw, get?, hw']
      exact .none
    | some w =>
      have hmem := mem_of_lookup_eq_some hw
      have hmem' : (name, counterpart (name, w)) ∈ members' :=
        hperm.mem_iff.1 (List.mem_map.2 ⟨_, hmem, rfl⟩)
      rw [get?, hw, get?, lookup_of_mem hproper.nodup hmem']
      exact .some (hsame _ hmem)

/-- What holds of the members of an object holds of them in any order. -/
theorem Reordered.exists_members {P : String × Json → Prop}
    (hP : ∀ {name v v'}, Reordered v v' → P (name, v) → P (name, v'))
    (h : Reordered (.object members) v') (hall : ∀ m ∈ members, P m) :
    ∃ members', v' = .object members' ∧ ∀ m ∈ members', P m := by
  cases h with
  | refl => exact ⟨members, rfl, hall⟩
  | @object _ members' counterpart hsame hperm =>
    refine ⟨members', rfl, fun m' hm' => ?_⟩
    obtain ⟨m, hm, rfl⟩ := List.mem_map.1 (hperm.mem_iff.2 hm')
    exact hP (hsame m hm) (hall m hm)

theorem Reordered.eq_of_bool {b : Bool} (h : Reordered (.bool b) v) : v = .bool b := by
  cases h
  rfl

theorem Reordered.eq_of_string {s : String} (h : Reordered (.string s) v) : v = .string s := by
  cases h
  rfl

/-! ### Reading -/

theorem map_fst_put (members : List (String × Json)) (name : String) (v : Json) :
    (put members name v).map (·.1) =
      if name ∈ members.map (·.1) then members.map (·.1) else members.map (·.1) ++ [name] := by
  have hany : members.any (·.1 == name) = true ↔ name ∈ members.map (·.1) := by
    simp [List.any_eq_true]
  unfold put
  simp only [hany]
  split
  · rw [List.map_map]
    refine List.map_congr_left fun m _ => ?_
    by_cases hm : m.1 = name <;> simp [hm]
  · simp

theorem mem_put {m : String × Json} (h : m ∈ put members name v) :
    m ∈ members ∨ m = (name, v) := by
  unfold put at h
  split at h
  · obtain ⟨m', hm', rfl⟩ := List.mem_map.1 h
    split
    · exact Or.inr rfl
    · exact Or.inl hm'
  · simpa using h

/-- A member that is put keeps an object proper. -/
theorem IsProper.put (h : IsProper (.object members)) (hv : v.IsProper) :
    IsProper (.object (put members name v)) := by
  refine .object ?_ fun m hm => ?_
  · rw [map_fst_put]
    split
    · exact h.nodup
    · rename_i hname
      exact List.nodup_append.2 ⟨h.nodup, List.pairwise_singleton _ name, by
        rintro other hother _ hsingle rfl
        exact hname (List.mem_singleton.1 hsingle ▸ hother)⟩
  · rcases mem_put hm with hm | rfl
    · exact h.mem hm
    · exact hv

theorem isProper_of_scalar {s rest : List Char} (h : scalar s = .ok (v, rest)) : v.IsProper := by
  unfold scalar at h
  split at h
  · rename_i word w hfound
    cases h
    have hmem := List.mem_of_find?_eq_some hfound
    simp only [wordValues, List.mem_cons, Prod.mk.injEq, List.not_mem_nil, or_false] at hmem
    rcases hmem with ⟨-, rfl⟩ | ⟨-, rfl⟩ | ⟨-, rfl⟩ | ⟨-, rfl⟩ | ⟨-, rfl⟩ | ⟨-, rfl⟩ <;> constructor
  · split at h
    · rename_i r hr
      cases h
      simp only [number?, Option.bind_eq_bind, Option.bind_eq_some_iff] at hr
      obtain ⟨ds, -, hr⟩ := hr
      split at hr <;> cases hr <;> constructor
    · cases h

/-- What is read down to a depth is proper: values, the members after those that were found, and
items. -/
structure ReadsProper (n : Nat) : Prop where
  value {s : List Char} {v : Json} {rest : List Char} : Json.value n s = .ok (v, rest) → v.IsProper
  members {found : List (String × Json)} {s : List Char} {v : Json} {rest : List Char} :
    IsProper (.object found) → Json.members n found s = .ok (v, rest) → v.IsProper
  items {s : List Char} {vs : List Json} {rest : List Char} :
    Json.items n s = .ok (vs, rest) → ∀ v ∈ vs, v.IsProper

namespace ReadsProper

variable {n : Nat} {s rest : List Char}

/-- A value is proper if what it is nested from is. -/
theorem value_succ (h : ReadsProper n) (hv : Json.value (n + 1) s = .ok (v, rest)) :
    v.IsProper := by
  have hempty : IsProper (.object []) := .object List.nodup_nil (List.forall_mem_nil _)
  unfold Json.value at hv
  split at hv
  · obtain ⟨r, -, hr⟩ := map_eq_ok_iff.1 hv
    cases hr
    exact .string _
  · split at hv
    · cases hv
      exact hempty
    · exact h.members hempty hv
  · split at hv
    · cases hv
      exact .array (List.forall_mem_nil _)
    · obtain ⟨r, hitems, hr⟩ := map_eq_ok_iff.1 hv
      cases hr
      exact .array (h.items hitems)
  · exact isProper_of_scalar hv

/-- The member that is read replaces one of the same name, so the object stays proper. -/
theorem members_succ (h : ReadsProper n) {found : List (String × Json)}
    (hfound : IsProper (.object found)) (hv : Json.members (n + 1) found s = .ok (v, rest)) :
    v.IsProper := by
  unfold Json.members at hv
  split at hv
  · obtain ⟨⟨name, rest'⟩, -, hv⟩ := bind_eq_ok_iff.1 hv
    dsimp only at hv
    split at hv
    · obtain ⟨⟨w, rest''⟩, hw, hv⟩ := bind_eq_ok_iff.1 hv
      have hput : IsProper (.object (put found name w)) := hfound.put (h.value hw)
      dsimp only at hv
      split at hv
      · cases hv
        exact hput
      · exact h.members hput hv
      · cases hv
    · cases hv
  · cases hv

theorem items_succ (h : ReadsProper n) {vs : List Json}
    (hvs : Json.items (n + 1) s = .ok (vs, rest)) : ∀ v ∈ vs, v.IsProper := by
  unfold Json.items at hvs
  obtain ⟨⟨w, rest'⟩, hw, hvs⟩ := bind_eq_ok_iff.1 hvs
  dsimp only at hvs
  split at hvs
  · cases hvs
    exact List.forall_mem_singleton.2 (h.value hw)
  · obtain ⟨⟨ws, rest''⟩, hws, hvs⟩ := bind_eq_ok_iff.1 hvs
    cases hvs
    exact List.forall_mem_cons.2 ⟨h.value hw, h.items hws⟩
  · cases hvs

end ReadsProper

/-- Values, members and items that are read are proper, however deep they may be nested. -/
theorem readsProper (n : Nat) : ReadsProper n := by
  induction n with
  | zero => constructor <;> intros <;> contradiction
  | succ n ih => exact ⟨ih.value_succ, ih.members_succ, ih.items_succ⟩

/-- **What is read from a text is proper.** -/
theorem isProper_of_read {text : String} (h : read text = .ok v) : v.IsProper := by
  unfold read at h
  dsimp only at h
  split at h
  · cases h
  · obtain ⟨⟨w, rest⟩, hw, h⟩ := bind_eq_ok_iff.1 h
    dsimp only at h
    split at h
    · cases h
      exact (readsProper _).value hw
    · cases h

end EntityScaffold.Json
