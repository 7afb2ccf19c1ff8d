import Mathlib.Tactic.Common
import EntityScaffold.Store.Memory

/-!
# Files in memory

A write that succeeds puts one text in its place and touches no other; one that fails touches
nothing.
-/

namespace EntityScaffold.MemoryStore

theorem lookup_replaced (files : List (Identity × String)) (id other : Identity) (text : String) :
    (files.map fun f => if f.1 = id then (id, text) else f).lookup other =
      if other = id then (files.lookup other).map fun _ => text else files.lookup other := by
  induction files with
  | nil => simp
  | cons f files ih =>
    obtain ⟨key, old⟩ := f
    by_cases hf : other = key
    · subst hf
      by_cases ho : other = id <;> simp [ho]
    · have hb : (other == key) = false := by simpa using hf
      by_cases hk : key = id
      · subst hk
        simp only [List.map_cons, if_true, List.lookup_cons, hb, ih, if_neg hf]
      · simp only [List.map_cons, hk, if_false, List.lookup_cons, hb, ih]

/-- A file that is put under an identity is found there, and all others stay. -/
theorem lookup_putFile (files : List (Identity × String)) (id other : Identity) (text : String) :
    (putFile files id text).lookup other =
      if other = id then some text else files.lookup other := by
  unfold putFile
  split_ifs with hany ho ho
  · subst ho
    obtain ⟨f, hf, hid⟩ := List.any_eq_true.1 hany
    rw [lookup_replaced, if_pos rfl]
    cases hl : files.lookup other with
    | some old => rfl
    | none =>
      have := List.lookup_eq_none_iff.1 hl f hf
      simp_all
  · rw [lookup_replaced, if_neg ho]
  · subst ho
    have hn : files.lookup other = none := by
      rw [List.lookup_eq_none_iff]
      intro f hf
      have : ¬ f.1 = other := fun e => hany (List.any_eq_true.2 ⟨f, hf, by simp [e]⟩)
      simpa using fun e => this e.symm
    rw [List.lookup_append, hn]
    simp
  · rw [List.lookup_append]
    cases files.lookup other <;> simp [ho]

/-- What is found under an identity is one of the existing identities. -/
theorem mem_existing_of_text? {k : MemoryStore} {id : Identity} {text : String}
    (h : k.text? id = some text) : id ∈ Store.existing k := by
  obtain ⟨before, after, hf, -⟩ := List.lookup_eq_some_iff.1 h
  exact List.mem_map.2 ⟨(id, text), by rw [hf]; simp, rfl⟩

theorem text?_eq_none_iff {k : MemoryStore} {id : Identity} :
    k.text? id = none ↔ id ∉ Store.existing k := by
  constructor
  · intro h hm
    obtain ⟨f, hf, rfl⟩ := List.mem_map.1 hm
    have := List.lookup_eq_none_iff.1 h f hf
    simp at this
  · intro h
    cases ht : k.text? id with
    | none => rfl
    | some text => exact absurd (mem_existing_of_text? ht) h

theorem isSome_text?_iff {k : MemoryStore} {id : Identity} :
    (k.text? id).isSome ↔ id ∈ Store.existing k := by
  rw [← not_iff_not, ← text?_eq_none_iff]
  simp

/-! ### Writing -/

theorem write_of_fails {k : MemoryStore} {id : Identity} (h : k.fails id = true) (text : String) :
    Store.write k id text = (.error ⟨id, "simulated write failure"⟩, k) := by
  simp [Store.write, h]

theorem write_of_not_fails {k : MemoryStore} {id : Identity} (h : k.fails id = false)
    (text : String) :
    Store.write k id text =
      (.ok (), { k with files := putFile k.files id text, writes := k.writes ++ [id] }) := by
  simp [Store.write, h]

end EntityScaffold.MemoryStore
