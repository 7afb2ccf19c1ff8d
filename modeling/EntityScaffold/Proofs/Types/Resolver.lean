import Mathlib.Tactic.Common
import EntityScaffold.Proofs.Types.Written
import EntityScaffold.Types.Resolver

/-!
# What a type text resolves to

One equation for each way a text can start: a wildcard resolves to its bound or to any object
(`resolveChars_of_wildcard`), and any other text to its head with the types of its arguments and its
array rank (`resolveChars_of_written`). No known type has arguments or dimensions of its own, so
those that are written are all that the type has.
-/

namespace EntityScaffold

open Text

namespace TypeTable

/-! ### Known types -/

/-- No known type has arguments or dimensions. -/
def IsPlain (table : TypeTable) : Prop :=
  ∀ entry ∈ table.entries, entry.2.arguments = [] ∧ entry.2.rank = 0

theorem plain_of_mem_group {kind : ResolvedType.Kind} {ns : String} {names : List String}
    {entry : String × ResolvedType} (h : entry ∈ group kind ns names) :
    entry.2.arguments = [] ∧ entry.2.rank = 0 := by
  obtain ⟨name, -, hentry⟩ := List.mem_flatMap.1 h
  dsimp only at hentry
  split at hentry
  · rw [List.mem_singleton.1 hentry]
    exact ⟨rfl, rfl⟩
  · rcases List.mem_pair.1 hentry with rfl | rfl <;> exact ⟨rfl, rfl⟩

theorem standard_isPlain : standard.IsPlain := by
  intro entry h
  simp only [standard, List.mem_append] at h
  rcases h with (((((h | h) | h) | h) | h) | h) | h <;> exact plain_of_mem_group h

variable {table : TypeTable}

/-- A head alone has neither arguments nor dimensions. -/
theorem IsPlain.resolveHead (h : table.IsPlain) (head : List Char) :
    (table.resolveHead head).arguments = [] ∧ (table.resolveHead head).rank = 0 := by
  unfold TypeTable.resolveHead
  split
  · next t ht =>
    obtain ⟨before, after, hentries, -⟩ := List.lookup_eq_some_iff.1 ht
    exact h (String.ofList head, t) (by simp [hentries])
  · split
    · exact ⟨rfl, rfl⟩
    · split <;> exact ⟨rfl, rfl⟩

/-- A type without parts of its own gets the parts that are written. -/
theorem assemble_of_plain {base : ResolvedType} (h : base.arguments = [] ∧ base.rank = 0)
    (args : List ResolvedType) (rank : Nat) :
    assemble base args rank = { base with arguments := args, rank := rank } := by
  obtain ⟨kind, name, ns, baseArgs, baseRank⟩ := base
  obtain ⟨rfl, rfl⟩ := h
  cases args <;> cases rank <;> rfl

/-! ### Texts -/

theorem resolveChars_of_wildcard {s rest : List Char} (h : trim isBlank s = '?' :: rest) :
    table.resolveChars s =
      match wildcardBound? rest with
      | some bound => table.resolveChars bound
      | none => .object := by
  rw [resolveChars]
  split
  · next rest' h' =>
    rw [h, List.cons.injEq] at h'
    obtain ⟨-, rfl⟩ := h'
    split <;> simp_all
  · next h' => exact absurd h (h' rest)

/-- A text that is no wildcard resolves to its head with the types of its arguments. -/
theorem resolveChars_of_written {s : List Char} (h : ∀ rest, trim isBlank s ≠ '?' :: rest) :
    table.resolveChars s =
      let written := WrittenType.ofText (trim isBlank s)
      assemble (table.resolveHead written.head) (written.arguments.map table.resolveChars)
        written.rank := by
  rw [resolveChars]
  split
  · next rest h' => exact absurd h' (h rest)
  · simp only [List.map_attach_eq_pmap, List.pmap_eq_map]

theorem resolveChars_any : table.resolveChars ['?'] = .object := by
  have htrim : trim isBlank ['?'] = ['?'] := by decide
  exact resolveChars_of_wildcard htrim

/-- A wildcard with a bound resolves to the bound. -/
theorem resolveChars_wildcard {word bound : List Char}
    (hword : word = "extends".toList ∨ word = "super".toList) (h : IsTight bound) :
    table.resolveChars (WrittenType.wildcard word bound) = table.resolveChars bound := by
  have htight : IsTight word := by
    rcases hword with rfl | rfl <;> exact .of_all (by decide) (by decide)
  have hrest : IsTight (word ++ ' ' :: bound) := by
    simpa using htight.append h [' ']
  have hbound : wildcardBound? (' ' :: (word ++ ' ' :: bound)) = some bound := by
    rw [wildcardBound?, hrest.trim_cons_blank (by decide)]
    rcases hword with rfl | rfl
    · have hdrop : dropStart? "extends ".toList ("extends".toList ++ ' ' :: bound) = some bound :=
        dropStart?_append "extends ".toList bound
      rw [hdrop, Option.some_or]
    · exact dropStart?_append "super ".toList bound
  rw [resolveChars_of_wildcard (WrittenType.isTight_wildcard h).trim_eq_self, hbound]

theorem ne_wildcard_of_isProper {w : WrittenType} (h : w.IsProper) (rest : List Char) :
    w.text ≠ '?' :: rest := by
  intro heq
  have hmem : '?' ∈ w.head := by
    obtain ⟨c, name, hname⟩ := List.exists_cons_of_ne_nil h.head.ne_nil
    rw [WrittenType.text, WrittenType.unranked, hname] at heq
    rw [hname, (List.cons.inj heq).1]
    exact List.mem_cons_self
  exact h.head.notMem (by decide) (by decide) hmem

theorem resolveChars_text {w : WrittenType} (h : w.IsProper) :
    table.resolveChars w.text =
      assemble (table.resolveHead w.head) (w.arguments.map table.resolveChars) w.rank := by
  have htrim := h.isArgument_text.isTight.trim_eq_self
  rw [resolveChars_of_written (by rw [htrim]; exact ne_wildcard_of_isProper h), htrim,
    h.ofText_text]

/-- A name resolves as a head. -/
theorem resolveChars_name {name : List Char} (h : IsDottedName name) :
    table.resolveChars name = table.resolveHead name := by
  have hproper : WrittenType.IsProper ⟨name, [], 0⟩ := ⟨h, fun _ ha => nomatch ha⟩
  have htext : WrittenType.text ⟨name, [], 0⟩ = name := by
    simp [WrittenType.text, WrittenType.unranked, WrittenType.dimensions]
  have hresolve : table.resolveChars (WrittenType.text ⟨name, [], 0⟩) = table.resolveHead name :=
    resolveChars_text hproper
  rwa [htext] at hresolve

/-- **A type that is put together from proper parts resolves part by part**: its head alone, its
arguments one by one, and the dimensions are kept. -/
theorem IsPlain.resolveChars_text (hplain : table.IsPlain) {w : WrittenType} (h : w.IsProper) :
    table.resolveChars w.text =
      { table.resolveChars w.head with
        arguments := w.arguments.map table.resolveChars
        rank := w.rank } := by
  rw [TypeTable.resolveChars_text h, assemble_of_plain (hplain.resolveHead _),
    resolveChars_name h.head]

end TypeTable

end EntityScaffold
