import EntityScaffold.Proofs.Conflict.Target
import Mathlib.Data.Set.Card
import Mathlib.Logic.Function.Iterate

/-!
# Names for renamed artifacts

An artifact that is renamed gets the first name to try that nothing takes. The names to try are
numbered, or made by a function over and over; both are told by their place (`nameAt`). So the
number is the least that is free, and the artifact is refused exactly if all names to try are taken
(`decide_rename_least`). Names with different numbers differ, and none is the artifact's own, so a
thousand numbers suffice as long as no more than a thousand names are taken.
-/

namespace EntityScaffold.Batch

variable {σ : Type} {alternative : Option (String → String)} {existing : List Identity}
  {id : Identity} {b : Batch} {name className : String}

/-! ### Names by their place -/

/-- The name at a place among those to try, counted from zero. -/
def nameAt (alternative : Option (String → String)) (className : String) (k : Nat) : String :=
  match alternative with
  | none => className ++ toString (k + 2)
  | some f => f^[k + 1] className

theorem iterates_eq_map (f : String → String) (n : Nat) (start : String) :
    iterates f n start = (List.range n).map fun k => f^[k + 1] start := by
  induction n generalizing start with
  | zero => rfl
  | succ n ih =>
    rw [iterates, ih, List.range_succ_eq_map, List.map_cons, List.map_map]
    rfl

theorem candidates_eq_map (alternative : Option (String → String)) (className : String) :
    candidates alternative className =
      (List.range attempts).map (nameAt alternative className) := by
  cases alternative with
  | none => rfl
  | some f => exact iterates_eq_map f attempts className

/-- The first name that is free is the free one whose place is the least. -/
theorem unusedName?_eq_some_iff :
    b.unusedName? alternative existing id = some name ↔
      ∃ k < attempts, name = nameAt alternative id.className k ∧
        b.isTaken existing { id with className := name } = false ∧
        ∀ j < k, b.isTaken existing
          { id with className := nameAt alternative id.className j } = true := by
  rw [unusedName?, candidates_eq_map, List.find?_eq_some_iff_getElem]
  simp only [Bool.not_eq_true', Bool.not_not, List.getElem_map, List.getElem_range,
    List.length_map, List.length_range]
  constructor
  · rintro ⟨hfree, k, hk, rfl, hbefore⟩
    exact ⟨k, hk, rfl, hfree, hbefore⟩
  · rintro ⟨k, hk, rfl, hfree, hbefore⟩
    exact ⟨hfree, k, hk, rfl, hbefore⟩

theorem unusedName?_eq_none_iff :
    b.unusedName? alternative existing id = none ↔
      ∀ k < attempts, b.isTaken existing
        { id with className := nameAt alternative id.className k } = true := by
  rw [unusedName?, candidates_eq_map, List.find?_eq_none]
  simp

/-- What comes to no name found all names to try taken. -/
theorem Applies.eq_noNameLeft {a : ConflictAction} {e : NoNameLeft}
    (h : b.Applies alternative existing id a (.error e)) :
    e = ⟨id⟩ ∧ b.unusedName? alternative existing id = none := by
  cases h with
  | noNameLeft hall =>
    refine ⟨rfl, List.find?_eq_none.2 fun name hname => ?_⟩
    simp [hall name hname]

/-! ### Deciding to rename -/

/-- The names to try are those that a function gives for the numbers from a first to a last one. -/
structure Numbers (alternative : Option (String → String)) (className : String)
    (nameOf : Nat → String) (first last : Nat) : Prop where
  nameAt_eq : ∀ k, nameAt alternative className k = nameOf (k + first)
  last_eq : last + 1 = attempts + first

theorem numbers_none (className : String) :
    Numbers none className (fun n => className ++ toString n) 2 1001 :=
  ⟨fun _ => rfl, rfl⟩

theorem numbers_some (f : String → String) (className : String) :
    Numbers (some f) className (fun n => f^[n] className) 1 1000 :=
  ⟨fun _ => rfl, rfl⟩

variable {nameOf : Nat → String} {first last : Nat}

/-- A renamed artifact gets the name of the least number that is free. -/
theorem decide_rename_eq_ok_iff (h : Numbers alternative id.className nameOf first last) :
    b.decide alternative existing id .rename = .ok (.rename name) ↔
      ∃ n, first ≤ n ∧ n ≤ last ∧ name = nameOf n ∧
        ¬ b.isTaken existing { id with className := name } = true ∧
        ∀ m, first ≤ m → m < n →
          b.isTaken existing { id with className := nameOf m } = true := by
  have hdecide : b.decide alternative existing id .rename = .ok (.rename name) ↔
      b.unusedName? alternative existing id = some name := by
    cases hfound : b.unusedName? alternative existing id <;> simp [decide, hfound]
  have hlast := h.last_eq
  simp only [hdecide, unusedName?_eq_some_iff, h.nameAt_eq, Bool.not_eq_true]
  constructor
  · rintro ⟨k, hk, hname, hfree, hbefore⟩
    refine ⟨k + first, by omega, by omega, hname, hfree, fun m hm hmk => ?_⟩
    obtain ⟨j, rfl⟩ := Nat.exists_eq_add_of_le' hm
    exact hbefore j (by omega)
  · rintro ⟨n, hn, hn', hname, hfree, hbefore⟩
    obtain ⟨k, rfl⟩ := Nat.exists_eq_add_of_le' hn
    exact ⟨k, by omega, hname, hfree, fun j hj => hbefore _ (by omega) (by omega)⟩

/-- It gets none if those of all numbers are taken. -/
theorem decide_rename_eq_error_iff (h : Numbers alternative id.className nameOf first last) :
    b.decide alternative existing id .rename = .error ⟨id⟩ ↔
      ∀ n, first ≤ n → n ≤ last →
        b.isTaken existing { id with className := nameOf n } = true := by
  have hdecide : b.decide alternative existing id .rename = .error ⟨id⟩ ↔
      b.unusedName? alternative existing id = none := by
    cases hfound : b.unusedName? alternative existing id <;> simp [decide, hfound]
  have hlast := h.last_eq
  simp only [hdecide, unusedName?_eq_none_iff, h.nameAt_eq]
  constructor
  · intro hall n hn hn'
    obtain ⟨k, rfl⟩ := Nat.exists_eq_add_of_le' hn
    exact hall k (by omega)
  · exact fun hall k hk => hall _ (by omega) (by omega)

/-- A call fails only where it is to rename and no name is left, and then records nothing. -/
theorem resolve_eq_error {advisor : Advisor σ} {s : σ} {e : NoNameLeft}
    (h : (b.resolve advisor alternative existing id s).1 = .error e) :
    e = ⟨id⟩ ∧ b.decide alternative existing id .rename = .error ⟨id⟩ ∧
      (b.resolve advisor alternative existing id s).2.1.decisions = b.decisions ∧
      (b.resolve advisor alternative existing id s).2.1.claimed = b.claimed := by
  rcases resolve_records advisor alternative existing b id s with
    ⟨d, hd, -⟩ | ⟨e', -, hdecisions, hclaimed⟩
  · cases h.symm.trans hd
  · have ht : b.isTaken existing id = true := by
      by_contra hfree
      rw [resolve_of_free (by simpa using hfree)] at h
      cases h
    have happlied := applies_resolve advisor alternative s ht
    rw [h] at happlied
    obtain ⟨rfl, hnone⟩ := happlied.eq_noNameLeft
    exact ⟨rfl, by simp only [decide, hnone], hdecisions, hclaimed⟩

/-! ### Enough numbers -/

theorem numbered_injective (className : String) : (nameAt none className).Injective := by
  intro k j h
  have hchars := congrArg String.toList h
  simp only [nameAt, String.toList_append, Nat.toString_eq_repr, Nat.toList_repr] at hchars
  have hread := congrArg (Nat.ofDigitChars 10 · 0) (List.append_cancel_left hchars)
  simpa using hread

/-- An artifact's own name and all its numbered ones differ from each other. -/
theorem nodup_cons_candidates (className : String) :
    (className :: candidates none className).Nodup := by
  refine List.nodup_cons.2 ⟨fun h => (ne_of_mem_candidates h).2 rfl, ?_⟩
  rw [candidates_eq_map]
  exact List.nodup_range.map (numbered_injective className)

theorem finite_isTaken (b : Batch) (existing : List Identity) (id : Identity) :
    {name | b.isTaken existing { id with className := name } = true}.Finite := by
  refine ((existing ++ b.claimed).map (·.className)).finite_toSet.subset fun name hname => ?_
  refine List.mem_map.2 ⟨{ id with className := name }, List.mem_append.2 ?_, rfl⟩
  exact isTaken_iff.1 hname

/-- **Numbers suffice.** If the own name is taken, a thousand taken names leave a number free. -/
theorem unusedName?_ne_none_of_ncard_le (hown : b.isTaken existing id = true)
    (hfew : {name | b.isTaken existing { id with className := name } = true}.ncard ≤ attempts) :
    b.unusedName? none existing id ≠ none := by
  intro hnone
  rw [unusedName?, List.find?_eq_none] at hnone
  have htaken : ∀ name ∈ id.className :: candidates none id.className,
      b.isTaken existing { id with className := name } = true := by
    refine List.forall_mem_cons.2 ⟨hown, fun name hname => ?_⟩
    simpa using hnone name hname
  have hcard : (id.className :: candidates none id.className).toFinset.card = attempts + 1 := by
    rw [List.toFinset_card_of_nodup (nodup_cons_candidates _), List.length_cons,
      candidates_eq_map, List.length_map, List.length_range]
  have hsubset : ((id.className :: candidates none id.className).toFinset : Set String) ⊆
      {name | b.isTaken existing { id with className := name } = true} :=
    fun name hname => htaken name (List.mem_toFinset.1 hname)
  have hmany := Set.ncard_le_ncard hsubset (finite_isTaken b existing id)
  rw [Set.ncard_coe_finset, hcard] at hmany
  omega

/-- **The name of a renamed artifact.** Without a function for new names it is the artifact's own
with the least number from 2 to 1001 that is free, and the artifact is refused exactly if none of
them is; in particular it is not if its own name is taken and at most a thousand names of the
package are. With a function it is the first free one among what the function makes of the own name
in one to a thousand steps, and the artifact is refused exactly if all of them are taken. A call
that ends so leaves the decisions and what is claimed as they were. -/
theorem decide_rename_least (b : Batch) (existing : List Identity) (id : Identity) :
    let taken (name : String) : Prop := b.isTaken existing { id with className := name } = true
    (∀ name, b.decide none existing id .rename = .ok (.rename name) ↔
      ∃ n, 2 ≤ n ∧ n ≤ 1001 ∧ name = id.className ++ toString n ∧ ¬ taken name ∧
        ∀ m, 2 ≤ m → m < n → taken (id.className ++ toString m)) ∧
    (b.decide none existing id .rename = .error ⟨id⟩ ↔
      ∀ n, 2 ≤ n → n ≤ 1001 → taken (id.className ++ toString n)) ∧
    (taken id.className → {name | taken name}.ncard ≤ 1000 →
      ∃ name, b.decide none existing id .rename = .ok (.rename name)) ∧
    (∀ f name, b.decide (some f) existing id .rename = .ok (.rename name) ↔
      ∃ n, 1 ≤ n ∧ n ≤ 1000 ∧ name = f^[n] id.className ∧ ¬ taken name ∧
        ∀ m, 1 ≤ m → m < n → taken (f^[m] id.className)) ∧
    (∀ f, b.decide (some f) existing id .rename = .error ⟨id⟩ ↔
      ∀ n, 1 ≤ n → n ≤ 1000 → taken (f^[n] id.className)) ∧
    ∀ (σ : Type) (advisor : Advisor σ) (alternative : Option (String → String)) (s : σ)
      (e : NoNameLeft), (b.resolve advisor alternative existing id s).1 = .error e →
        e = ⟨id⟩ ∧ b.decide alternative existing id .rename = .error ⟨id⟩ ∧
          (b.resolve advisor alternative existing id s).2.1.decisions = b.decisions ∧
          (b.resolve advisor alternative existing id s).2.1.claimed = b.claimed := by
  intro taken
  refine ⟨fun name => decide_rename_eq_ok_iff (numbers_none _),
    decide_rename_eq_error_iff (numbers_none _), fun hown hfew => ?_,
    fun f name => decide_rename_eq_ok_iff (numbers_some f _),
    fun f => decide_rename_eq_error_iff (numbers_some f _),
    fun σ advisor alternative s e h => resolve_eq_error h⟩
  obtain ⟨name, hname⟩ := Option.ne_none_iff_exists'.1 (unusedName?_ne_none_of_ncard_le hown hfew)
  exact ⟨name, by simp only [decide, hname]⟩

/-- A user and two numbered ones are there already, so the next one gets the number four. -/
theorem decide_rename_least_user :
    let existing : List Identity := [⟨"shop", "User"⟩, ⟨"shop", "User3"⟩, ⟨"shop", "User2"⟩]
    (start none).isTaken existing ⟨"shop", "User"⟩ = true ∧
      {name | (start none).isTaken existing ⟨"shop", name⟩ = true}.ncard ≤ 1000 ∧
      (∃ name, (start none).decide none existing ⟨"shop", "User"⟩ .rename =
        .ok (.rename name)) ∧
      (start none).decide none existing ⟨"shop", "User"⟩ .rename = .ok (.rename "User4") := by
  intro existing
  obtain ⟨hleast, -, henough, -⟩ := decide_rename_least (start none) existing ⟨"shop", "User"⟩
  have hown : (start none).isTaken existing ⟨"shop", "User"⟩ = true := by decide
  have hsubset : {name | (start none).isTaken existing ⟨"shop", name⟩ = true} ⊆
      (["User", "User3", "User2"].toFinset : Set String) := by
    intro name hname
    simpa [isTaken, existing, start] using hname
  have hfew : {name | (start none).isTaken existing ⟨"shop", name⟩ = true}.ncard ≤ 1000 := by
    have hcard := Set.ncard_le_ncard hsubset (Finset.finite_toSet _)
    rw [Set.ncard_coe_finset] at hcard
    have hlength := List.toFinset_card_le ["User", "User3", "User2"]
    simp only [List.length_cons, List.length_nil] at hlength
    omega
  refine ⟨hown, hfew, henough hown hfew, (hleast "User4").2 ?_⟩
  refine ⟨4, by omega, by omega, by decide, by decide, fun m hm hm' => ?_⟩
  obtain rfl | rfl : m = 2 ∨ m = 3 := by omega
  · decide
  · decide

end EntityScaffold.Batch
