import EntityScaffold.Proofs.Generation.Steady

/-!
# The store after a steady run

Where all conflicts are settled by one decision, each artifact of a plan does one of two things to
the text under its identity: it puts its own there, or it leaves the one that is there
(`settledText`). A plan does this for its artifacts in order, up to the first one that must be
written and cannot be (`MemoryStore.reached`, `Partner.text?_emit_planBy`). To settle artifacts
again changes nothing, also if only the first of them were settled before
(`settledText_settledText`).
-/

namespace EntityScaffold

variable {σ : Type}

/-- The text under an identity after artifacts have been settled, from the text before them. To
write always puts a text in its place, to skip only where there is none. -/
def settledText (d : Decision) (id : Identity) : List Artifact → Option String → Option String
  | [], text? => text?
  | a :: rest, text? =>
    settledText d id rest
      (if a.identity = id ∧ (d = .skip → text? = none) then some (markedText a.text) else text?)

section SettledText

variable {d : Decision} {id : Identity} {artifacts : List Artifact}

/-- Artifacts of other identities change nothing. -/
theorem settledText_of_forall_ne (h : ∀ a ∈ artifacts, a.identity ≠ id) (text? : Option String) :
    settledText d id artifacts text? = text? := by
  induction artifacts with
  | nil => rfl
  | cons a rest ih =>
    obtain ⟨ha, hrest⟩ := List.forall_mem_cons.1 h
    rw [settledText, if_neg fun hid => ha hid.1, ih hrest]

theorem settledText_append (before after : List Artifact) (text? : Option String) :
    settledText d id (before ++ after) text? =
      settledText d id after (settledText d id before text?) := by
  induction before generalizing text? with
  | nil => rfl
  | cons a before ih => rw [List.cons_append, settledText, settledText, ih]

/-- A text that is there is not replaced where conflicts are skipped. -/
theorem settledText_skip_some (artifacts : List Artifact) (text : String) :
    settledText .skip id artifacts (some text) = some text := by
  induction artifacts with
  | nil => rfl
  | cons a rest ih => rw [settledText, if_neg (by simp), ih]

/-- What is written does not depend on what was there. -/
theorem settledText_write (h : ∃ a ∈ artifacts, a.identity = id) (text? text?' : Option String) :
    settledText .write id artifacts text? = settledText .write id artifacts text?' := by
  induction artifacts generalizing text? text?' with
  | nil =>
    obtain ⟨a, ha, -⟩ := h
    cases ha
  | cons a rest ih =>
    rw [settledText, settledText]
    by_cases ha : a.identity = id
    · simp [ha]
    · simp only [ha, false_and, if_false]
      obtain ⟨a', ha', hid⟩ := h
      rcases List.mem_cons.1 ha' with rfl | hm
      · exact absurd hid ha
      · exact ih ⟨a', hm, hid⟩ _ _

/-- There is a text if there was one, or if an artifact has the identity. -/
theorem isSome_settledText (text? : Option String) :
    (settledText d id artifacts text?).isSome ↔
      text?.isSome ∨ ∃ a ∈ artifacts, a.identity = id := by
  induction artifacts generalizing text? with
  | nil => simp [settledText]
  | cons a rest ih =>
    rw [settledText, ih]
    by_cases ha : a.identity = id
    · cases text? <;> simp [ha]
      split <;> simp
    · simp [ha]

/-- **Artifacts that have been settled before are settled to the same end.** -/
theorem settledText_settledText (hd : d = .write ∨ d = .skip) {before : List Artifact}
    (h : before <+: artifacts) (text? : Option String) :
    settledText d id artifacts (settledText d id before text?) =
      settledText d id artifacts text? := by
  obtain ⟨after, rfl⟩ := h
  by_cases hid : ∃ a ∈ before, a.identity = id
  · rw [settledText_append, settledText_append]
    rcases hd with rfl | rfl
    · rw [settledText_write hid]
    · obtain ⟨text, htext⟩ := Option.isSome_iff_exists.1
        ((isSome_settledText (d := .skip) text?).2 (Or.inr hid))
      rw [htext, settledText_skip_some]
  · push Not at hid
    rw [settledText_of_forall_ne hid]

end SettledText

namespace MemoryStore

variable {k : MemoryStore} {d : Decision} {a : Artifact} {id : Identity}

/-- An artifact ends a plan: its write fails, and it is not kept from being written by a file that
is there. -/
def stops (k : MemoryStore) (d : Decision) (a : Artifact) : Bool :=
  k.fails a.identity && (d = .write || (k.text? a.identity).isNone)

/-- The artifacts that are settled before one of them ends the plan. -/
def reached (k : MemoryStore) (d : Decision) (artifacts : List Artifact) : List Artifact :=
  artifacts.takeWhile fun a => !k.stops d a

theorem reached_cons_of_stops (h : k.stops d a = true) (rest : List Artifact) :
    k.reached d (a :: rest) = [] := by
  simp [reached, h]

theorem reached_cons (h : k.stops d a = false) (rest : List Artifact) :
    k.reached d (a :: rest) = a :: k.reached d rest := by
  simp [reached, h]

/-- A file that can be written changes nothing about what ends a plan. -/
theorem reached_withFile {f : Identity × String} (hf : k.fails f.1 = false) (d : Decision)
    (artifacts : List Artifact) :
    (k.withFile f).reached d artifacts = k.reached d artifacts := by
  have hstops : ∀ a, (k.withFile f).stops d a = k.stops d a := by
    intro a
    have hfails : (k.withFile f).fails a.identity = k.fails a.identity := rfl
    rw [stops, stops, hfails, text?_withFile]
    by_cases ha : a.identity = f.1
    · rw [ha, hf]
      rfl
    · rw [if_neg ha]
  simp only [reached, hstops]

end MemoryStore

namespace Partner

variable (w : Partner σ) {d : Decision} {taken : List Identity} {k : MemoryStore}

/-- An artifact that a file is there for leaves the file as it is, where conflicts are skipped. -/
theorem emit_planBy_of_taken {a : Artifact} (hmem : a.identity ∈ taken)
    (hthere : (k.text? a.identity).isSome) (rest : List Artifact) (report : RunReport) (s : σ) :
    k.stops .skip a = false ∧ ∃ report' s',
      w.emit (planBy .skip taken (a :: rest)) report k s =
        w.emit (planBy .skip (a.identity :: taken) rest) report' k s' ∧
      ∀ id, k.text? id = settledText .skip id [a] (k.text? id) := by
  obtain ⟨text, htext⟩ := Option.isSome_iff_exists.1 hthere
  let e : Emission := ⟨a, .skip, none, rfl⟩
  rw [planBy, if_pos hmem]
  refine ⟨?_, _, _, w.emit_cons_of_skipped (e := e) _ report k s rfl, fun id => ?_⟩
  · simp [MemoryStore.stops, htext]
  · rw [settledText, settledText, if_neg]
    rintro ⟨rfl, hnone⟩
    exact absurd (htext.symm.trans (hnone rfl)) (by simp)

/-- Any other artifact is written, or ends the plan as its write fails. -/
theorem emit_planBy_of_write (hd : d = .write ∨ d = .skip) {a : Artifact}
    (hwrite : (if a.identity ∈ taken then d else .write) = .write)
    (hfree : d = .skip → k.text? a.identity = none) (rest : List Artifact) (report : RunReport)
    (s : σ) :
    k.stops d a = true ∧ (w.emit (planBy d taken (a :: rest)) report k s).2.1 = k ∨
      k.stops d a = false ∧ ∃ k' report' s',
        w.emit (planBy d taken (a :: rest)) report k s =
          w.emit (planBy d (a.identity :: taken) rest) report' k' s' ∧
        (∀ id, k'.text? id = settledText d id [a] (k.text? id)) ∧
        k'.reached d rest = k.reached d rest := by
  have hstops : k.stops d a = k.fails a.identity := by
    rcases hd with rfl | rfl
    · simp [MemoryStore.stops]
    · simp [MemoryStore.stops, hfree rfl]
  let e : Emission := ⟨a, .write, some (a.identity, a.text), rfl⟩
  rw [planBy, hwrite, hstops]
  cases hfails : k.fails a.identity with
  | true => exact Or.inl ⟨rfl, (w.emit_cons_of_failed (e := e) _ report k s rfl hfails).2⟩
  | false =>
    refine Or.inr ⟨rfl, k.withFile (a.identity, a.text), _, _,
      w.emit_cons_of_written (e := e) _ report k s rfl hfails, fun id => ?_,
      MemoryStore.reached_withFile hfails d rest⟩
    rw [MemoryStore.text?_withFile, settledText, settledText]
    by_cases hid : id = a.identity
    · subst hid
      rw [if_pos rfl, if_pos ⟨rfl, hfree⟩]
    · rw [if_neg hid, if_neg fun h => hid h.1.symm]

/-- The first artifact of a plan of one decision ends it; or it is settled, and the plan goes on
from a store that has it. -/
theorem emit_planBy_cons (hd : d = .write ∨ d = .skip)
    (ht : ∀ id, id ∈ taken ↔ (k.text? id).isSome) (a : Artifact) (rest : List Artifact)
    (report : RunReport) (s : σ) :
    k.stops d a = true ∧ (w.emit (planBy d taken (a :: rest)) report k s).2.1 = k ∨
      k.stops d a = false ∧ ∃ k' report' s',
        w.emit (planBy d taken (a :: rest)) report k s =
          w.emit (planBy d (a.identity :: taken) rest) report' k' s' ∧
        (∀ id, k'.text? id = settledText d id [a] (k.text? id)) ∧
        k'.reached d rest = k.reached d rest := by
  rcases hd with rfl | rfl
  · exact w.emit_planBy_of_write (.inl rfl) (ite_self _) nofun rest report s
  · by_cases hmem : a.identity ∈ taken
    · obtain ⟨hstops, report', s', hgo, htext⟩ :=
        w.emit_planBy_of_taken hmem ((ht _).1 hmem) rest report s
      exact Or.inr ⟨hstops, k, report', s', hgo, htext, rfl⟩
    · have hfree : k.text? a.identity = none := by simpa using (ht a.identity).not.1 hmem
      exact w.emit_planBy_of_write (.inr rfl) (if_neg hmem) (fun _ => hfree) rest report s

/-- **What a plan of one decision leaves behind**: the artifacts before the one that ends it are
settled, and the others change nothing. -/
theorem text?_emit_planBy (hd : d = .write ∨ d = .skip)
    (ht : ∀ id, id ∈ taken ↔ (k.text? id).isSome) (artifacts : List Artifact)
    (report : RunReport) (s : σ) (id : Identity) :
    (w.emit (planBy d taken artifacts) report k s).2.1.text? id =
      settledText d id (k.reached d artifacts) (k.text? id) := by
  induction artifacts generalizing taken k report s with
  | nil => rfl
  | cons a rest ih =>
    rcases w.emit_planBy_cons hd ht a rest report s with
      ⟨hstops, hk⟩ | ⟨hstops, k', report', s', hgo, htext, hreached⟩
    · rw [hk, k.reached_cons_of_stops hstops]
      rfl
    · -- what is taken from now on is what the next store has
      have hnext : ∀ id, id ∈ a.identity :: taken ↔ (k'.text? id).isSome := by
        intro id
        rw [htext, isSome_settledText, ← ht, List.mem_cons, or_comm]
        simp [eq_comm]
      rw [hgo, ih hnext, hreached, htext, k.reached_cons hstops]
      exact (settledText_append [a] _ _).symm

end Partner

namespace RunRequest

variable {r : RunRequest σ} {d : Decision}

/-- **The text under an identity after a steady run**: some artifacts of the request, always the
same, are settled until one of them ends the plan. -/
theorem IsSteady.text?_run (h : r.IsSteady) (hd : r.firstBatch.Holds r.partner.advisor d)
    (hword : d = .write ∨ d = .skip) :
    ∃ artifacts : List Artifact, artifacts ⊆ r.artifacts ∧
      ∀ x id, (r.run x).2.1.text? id =
        settledText d id (x.1.reached d artifacts) (x.1.text? id) := by
  rcases h.run_cases hd with ⟨o, hrun⟩ | ⟨concerns, missing, hrun⟩
  · refine ⟨[], List.nil_subset _, fun x id => ?_⟩
    obtain ⟨s, hs⟩ := hrun x
    rw [hs]
    rfl
  · refine ⟨r.artifacts, List.Subset.refl _, fun x id => ?_⟩
    obtain ⟨s, hs⟩ := hrun x
    rw [hs]
    exact r.partner.text?_emit_planBy hword (fun _ => MemoryStore.isSome_text?_iff.symm) _ _ _ _

end RunRequest

end EntityScaffold
