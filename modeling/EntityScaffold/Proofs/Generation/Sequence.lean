import Mathlib.Logic.Relation
import EntityScaffold.Proofs.Generation.Stop

/-!
# Runs one after the other

Runs follow each other on one store of any kind, and each goes on with what the one before has left.
Of every run there is a transcript: what is asked and answered in it, and what it comes to. All that
runs do to a store are writes (`RunRequest.reaches_runAll`).
-/

namespace EntityScaffold

variable {σ τ : Type} [Store τ]

/-- What is asked in a run, with the answers, and what the run comes to. -/
structure Transcript where
  asked : List Consultation
  result : Except RunFault RunReport

/-- A write has failed in the run. -/
def Transcript.Fails (t : Transcript) : Prop :=
  ∃ report, t.result = .ok report ∧ report.status = .failed

theorem Transcript.not_fails_of_ok {t : Transcript} (h : t.result.map (·.status) = .ok .ok) :
    ¬ t.Fails := by
  rintro ⟨report, hreport, hfailed⟩
  rw [hreport, Except.map, Except.ok.injEq, hfailed] at h
  cases h

namespace RunRequest

/-- The transcript of a run. -/
def transcript (r : RunRequest σ) (k : τ) (s : σ) : Transcript where
  asked := ((r.observed fun q asked => asked ++ [q]).runOn k (s, [])).2.2.2
  result := (r.runOn k s).1

/-- The transcripts of runs one after the other, the store after them, and the state of those who
took part. -/
def runAll : List (RunRequest σ) → τ → σ → List Transcript × τ × σ
  | [], k, s => ([], k, s)
  | r :: rs, k, s =>
    let rest := runAll rs (r.runOn k s).2.1 (r.runOn k s).2.2
    (r.transcript k s :: rest.1, rest.2)

theorem runAll_cons (r : RunRequest σ) (rs : List (RunRequest σ)) (k : τ) (s : σ) :
    runAll (r :: rs) k s =
      (r.transcript k s :: (runAll rs (r.runOn k s).2.1 (r.runOn k s).2.2).1,
        (runAll rs (r.runOn k s).2.1 (r.runOn k s).2.2).2) := rfl

/-- A run that is observed comes to the same result. -/
theorem result_observed {ρ : Type} (r : RunRequest σ) (note : Consultation → ρ → ρ) (k : τ) (s : σ)
    (t : ρ) : ((r.observed note).runOn k (s, t)).1 = (r.runOn k s).1 := by
  obtain ⟨qs, -, h⟩ := r.runOn_observed note k s
  rw [h]

end RunRequest

/-! ### Writes -/

/-- A store becomes another one by writes, which may fail. -/
def Store.Reaches : τ → τ → Prop :=
  Relation.ReflTransGen fun k k' => ∃ id text, k' = (Store.write k id text).2

theorem Partner.reaches_emit (w : Partner σ) (plan : List (Artifact × Decision))
    (report : RunReport) (k : τ) (s : σ) : Store.Reaches k (w.emit plan report k s).2.1 := by
  induction plan generalizing report k s with
  | nil => exact .refl
  | cons step plan ih =>
    obtain ⟨a, d⟩ := step
    unfold emit
    rcases a.filed d with fault | _ | ⟨id, text⟩
    · exact .refl
    · exact ih _ _ _
    · dsimp only
      rcases hw : Store.write k id (markedText text) with ⟨fault | _, k'⟩
      · exact .single ⟨id, markedText text, by rw [hw]⟩
      · exact .head ⟨id, markedText text, by rw [hw]⟩ (ih _ _ _)

/-- **A plan fails only where a write does.** -/
theorem Partner.exists_fault_of_emit (w : Partner σ) {plan : List (Artifact × Decision)}
    {report result : RunReport} {k : τ} {s : σ} (h : (w.emit plan report k s).1 = .ok result)
    (hfailed : result.status = .failed) (hstart : report.status ≠ .failed) :
    ∃ k' id text fault, Store.Reaches k k' ∧ (Store.write k' id text).1 = .error fault := by
  induction plan generalizing report k s with
  | nil =>
    cases h
    exact absurd hfailed hstart
  | cons step plan ih =>
    obtain ⟨a, d⟩ := step
    unfold emit at h
    rcases hfiled : a.filed d with fault | _ | ⟨id, text⟩ <;> rw [hfiled] at h
    · cases h
    · exact ih h hstart
    · dsimp only at h
      rcases hw : Store.write k id (markedText text) with ⟨fault | _, k'⟩ <;> rw [hw] at h
      · exact ⟨k, id, _, fault, .refl, congrArg Prod.fst hw⟩
      · obtain ⟨k'', id', text', fault, hreach, hfault⟩ := ih h hstart
        exact ⟨k'', id', text', fault, .head ⟨id, markedText text, by rw [hw]⟩ hreach, hfault⟩

namespace RunRequest

theorem reaches_runOn (r : RunRequest σ) (k : τ) (s : σ) :
    Store.Reaches k (r.runOn k s).2.1 := by
  rcases r.runOn_cases k s with ⟨report, s', -, hr⟩ | ⟨fault, s', -, hr⟩ |
    ⟨m, concerns, missing, artifacts, plan, s₁, s₂, -, -, -, hr⟩ <;> rw [hr]
  · exact .refl
  · exact .refl
  · exact r.partner.reaches_emit plan _ k s₂

/-- **A run fails only where a write does.** -/
theorem exists_fault_of_runOn {r : RunRequest σ} {k : τ} {s : σ} {report : RunReport}
    (h : (r.runOn k s).1 = .ok report) (hfailed : report.status = .failed) :
    ∃ k' id text fault, Store.Reaches k k' ∧ (Store.write k' id text).1 = .error fault := by
  rcases r.runOn_cases k s with ⟨stop, s', hstop, hr⟩ | ⟨fault, s', -, hr⟩ |
    ⟨m, concerns, missing, artifacts, plan, s₁, s₂, -, -, -, hr⟩ <;> rw [hr] at h
  · cases h
    have hstatus := hstop.status
    simp [hfailed] at hstatus
  · cases h
  · exact r.partner.exists_fault_of_emit h hfailed (by simp)

/-- **All that runs do to a store are writes.** -/
theorem reaches_runAll (rs : List (RunRequest σ)) (k : τ) (s : σ) :
    Store.Reaches k (runAll rs k s).2.1 := by
  induction rs generalizing k s with
  | nil => exact .refl
  | cons r rs ih => exact (r.reaches_runOn k s).trans (ih _ _)

end RunRequest

end EntityScaffold
