import EntityScaffold.Proofs.Conflict.Calls
import EntityScaffold.Proofs.Generation.Admission

/-!
# What a run asks

Whoever takes part in a run may take notes of what they are asked and answer (`Partner.observed`).
Notes change nothing: each part of a run comes to the same result, and the notes get what that part
asks, in order. What a part asks is described beside it: `Findings.Asks` for a check that may stop
the run, `Settings.Asks` for the features of the project, `Partner.asked` for an artifact that is
settled.
-/

namespace EntityScaffold

/-- Something that is asked in a run, with the answer. -/
inductive Consultation
  | concerns (found : List Concern) (accepted : Bool)
  | feature (f : Feature) (found : Bool)
  | missing (report : FeatureReport) (accepted : Bool)
  | conflict (id : Identity) (answer : Option Answer)
  deriving DecidableEq, Repr

/-- What is asked about findings, and the status with which they stop a run if they do. -/
inductive Findings.Asks (f : Findings) : Option RunStatus → List Consultation → Prop
  | defective : f.isValid = false → f.Asks (some .invalid) []
  | sound : f.isValid = true → f.hasConcerns = false → f.Asks none []
  | declined : f.isValid = true → f.hasConcerns = true →
      f.Asks (some .cancelled) [.concerns f.concerns false]
  | accepted : f.isValid = true → f.hasConcerns = true →
      f.Asks none [.concerns f.concerns true]

/-- The features that are missing by these answers. -/
def missingBy (answers : List (Feature × Bool)) : List Feature :=
  (answers.filter fun q => !q.2).map (·.1)

/-- What is asked about features. -/
def featureQuestions (answers : List (Feature × Bool)) : List Consultation :=
  answers.map fun q => .feature q.1 q.2

/-- What is asked about the features that settings require, each once, and the status with which
they stop a run if they do. -/
inductive Settings.Asks (p : Settings) : Option RunStatus → List Consultation → Prop
  | complete (answers : List (Feature × Bool)) : answers.map (·.1) = Feature.required p →
      missingBy answers = [] → p.Asks none (featureQuestions answers)
  | declined (answers : List (Feature × Bool)) : answers.map (·.1) = Feature.required p →
      missingBy answers ≠ [] →
      p.Asks (some .cancelled)
        (featureQuestions answers ++ [.missing ⟨Feature.required p, missingBy answers⟩ false])
  | accepted (answers : List (Feature × Bool)) : answers.map (·.1) = Feature.required p →
      missingBy answers ≠ [] →
      p.Asks none
        (featureQuestions answers ++ [.missing ⟨Feature.required p, missingBy answers⟩ true])

namespace Partner

variable {σ τ ρ : Type} (w : Partner σ) (note : Consultation → ρ → ρ)

/-- A partner who also takes notes of what is asked and answered. -/
def observed : Partner (σ × ρ) where
  log l x := (w.log l x.1, x.2)
  advisor id x :=
    ((w.advisor id x.1).1, (w.advisor id x.1).2, note (.conflict id (w.advisor id x.1).1) x.2)
  alternative := w.alternative
  hasFeature f x :=
    ((w.hasFeature f x.1).1, (w.hasFeature f x.1).2, note (.feature f (w.hasFeature f x.1).1) x.2)
  confirmConcerns cs x :=
    ((w.confirmConcerns cs x.1).1, (w.confirmConcerns cs x.1).2,
      note (.concerns cs (w.confirmConcerns cs x.1).1) x.2)
  confirmMissing r x :=
    ((w.confirmMissing r x.1).1, (w.confirmMissing r x.1).2,
      note (.missing r (w.confirmMissing r x.1).1) x.2)

section Equations

variable (x : σ × ρ)

@[simp] theorem alternative_observed : (w.observed note).alternative = w.alternative := rfl

@[simp] theorem advisor_observed (id : Identity) :
    (w.observed note).advisor id x =
      ((w.advisor id x.1).1, (w.advisor id x.1).2,
        note (.conflict id (w.advisor id x.1).1) x.2) := rfl

@[simp] theorem hasFeature_observed (f : Feature) :
    (w.observed note).hasFeature f x =
      ((w.hasFeature f x.1).1, (w.hasFeature f x.1).2,
        note (.feature f (w.hasFeature f x.1).1) x.2) := rfl

@[simp] theorem confirmConcerns_observed (cs : List Concern) :
    (w.observed note).confirmConcerns cs x =
      ((w.confirmConcerns cs x.1).1, (w.confirmConcerns cs x.1).2,
        note (.concerns cs (w.confirmConcerns cs x.1).1) x.2) := rfl

@[simp] theorem confirmMissing_observed (r : FeatureReport) :
    (w.observed note).confirmMissing r x =
      ((w.confirmMissing r x.1).1, (w.confirmMissing r x.1).2,
        note (.missing r (w.confirmMissing r x.1).1) x.2) := rfl

@[simp] theorem say_observed (level : LogLevel) (text : String) :
    (w.observed note).say level text x = (w.say level text x.1, x.2) := rfl

@[simp] theorem sayAll_observed (level : LogLevel) (texts : List String) :
    (w.observed note).sayAll level texts x = (w.sayAll level texts x.1, x.2) := by
  unfold sayAll
  induction texts generalizing x with
  | nil => rfl
  | cons text texts ih => rw [List.foldl_cons, ih]; rfl

end Equations

/-- Notes of several things, one after the other. -/
def noteAll (qs : List Consultation) (t : ρ) : ρ := qs.foldl (fun t q => note q t) t

theorem noteAll_append (qs qs' : List Consultation) (t : ρ) :
    noteAll note (qs ++ qs') t = noteAll note qs' (noteAll note qs t) := List.foldl_append

/-! ### Checks -/

/-- Findings that are observed stop the same runs. -/
theorem passFindings_observed (found : Findings) (earlier : List Concern) (s : σ) :
    ∃ qs, found.Asks ((w.passFindings found earlier s).1.map (·.status)) qs ∧
      ∀ t, (w.observed note).passFindings found earlier (s, t) =
        ((w.passFindings found earlier s).1, (w.passFindings found earlier s).2,
          noteAll note qs t) := by
  unfold passFindings
  cases hv : found.isValid with
  | false => exact ⟨[], .defective hv, fun t => by simp [noteAll]⟩
  | true =>
    cases hc : found.hasConcerns with
    | false => exact ⟨[], .sound hv hc, fun t => by simp [noteAll]⟩
    | true =>
      simp only [if_true, sayAll_observed, confirmConcerns_observed]
      cases ha : (w.confirmConcerns found.concerns (w.sayAll .warning found.warnings s)).1 with
      | false => exact ⟨_, .declined hv hc, fun t => rfl⟩
      | true => exact ⟨_, .accepted hv hc, fun t => rfl⟩

theorem missingOf_cons (f : Feature) (fs : List Feature) (s : σ) :
    w.missingOf (f :: fs) s =
      (if (w.hasFeature f s).1 then (w.missingOf fs (w.hasFeature f s).2).1
        else f :: (w.missingOf fs (w.hasFeature f s).2).1,
        (w.missingOf fs (w.hasFeature f s).2).2) := rfl

/-- Each feature is asked for once, in order. -/
theorem missingOf_observed (fs : List Feature) (s : σ) :
    ∃ answers : List (Feature × Bool), answers.map (·.1) = fs ∧
      (w.missingOf fs s).1 = missingBy answers ∧
      ∀ t, (w.observed note).missingOf fs (s, t) =
        ((w.missingOf fs s).1, (w.missingOf fs s).2,
          noteAll note (featureQuestions answers) t) := by
  induction fs generalizing s with
  | nil => exact ⟨[], rfl, rfl, fun t => rfl⟩
  | cons f fs ih =>
    obtain ⟨answers, rfl, hmissing, h⟩ := ih (w.hasFeature f s).2
    refine ⟨(f, (w.hasFeature f s).1) :: answers, rfl, ?_, fun t => ?_⟩
    · rw [missingOf_cons, hmissing]
      cases (w.hasFeature f s).1 <;> rfl
    · rw [missingOf_cons, missingOf_cons, hasFeature_observed, h]
      rfl

/-- Features that are observed are missing from the same projects. -/
theorem passFeatures_observed (p : Settings) (s : σ) :
    ∃ qs, p.Asks (if (w.passFeatures p s).2.1 then none else some .cancelled) qs ∧
      ∀ t, (w.observed note).passFeatures p (s, t) =
        ((w.passFeatures p s).1, (w.passFeatures p s).2.1, (w.passFeatures p s).2.2,
          noteAll note qs t) := by
  obtain ⟨answers, hrequired, hmissing, h⟩ := w.missingOf_observed note (Feature.required p) s
  unfold passFeatures
  simp only [h, hmissing]
  cases hm : (missingBy answers).isEmpty with
  | true =>
    simp only [if_true]
    exact ⟨_, .complete answers hrequired (List.isEmpty_iff.1 hm), fun t => rfl⟩
  | false =>
    have hne : missingBy answers ≠ [] := fun he => by simp [he] at hm
    simp only [Bool.false_eq_true, if_false, sayAll_observed, confirmMissing_observed]
    cases ha : (w.confirmMissing ⟨Feature.required p, missingBy answers⟩
        (w.sayAll .warning ((missingBy answers).map fun f => "Missing dependency: " ++ f.name)
          (w.missingOf (Feature.required p) s).2)).1 with
    | false =>
      refine ⟨_, .declined answers hrequired hne, fun t => ?_⟩
      rw [noteAll_append]
      rfl
    | true =>
      refine ⟨_, .accepted answers hrequired hne, fun t => ?_⟩
      rw [noteAll_append]
      rfl

/-! ### Conflicts -/

/-- What an advisor is asked and answers. -/
abbrev Record := List (Identity × Option Answer)

variable (existing : List Identity)

/-- What one artifact adds to the record: its question, if it is taken and nothing is pinned. -/
def asked (b : Batch) (id : Identity) (s : σ) : Record :=
  if b.isTaken existing id ∧ b.pin = none then [(id, (w.advisor id s).1)] else []

theorem asked_eq_questions (b : Batch) (id : Identity) (s : σ) :
    w.asked existing b id s = b.questions w.advisor existing id s := rfl

theorem asked_eq (b : Batch) (id : Identity) (s : σ) :
    w.asked existing b id s = [] ∨ ∃ c, w.asked existing b id s = [(id, c)] := by
  unfold asked
  split
  · exact Or.inr ⟨_, rfl⟩
  · exact Or.inl rfl

/-- Questions about conflicts. -/
def conflictQuestions (answers : Record) : List Consultation :=
  answers.map fun q => .conflict q.1 q.2

/-- What is asked about conflicts: questions that are answered, and a last one without an answer if
that stops the run. -/
inductive ConflictsAsk : Option RunStatus → List Consultation → Prop
  | settled (answers : List (Identity × Answer)) :
      ConflictsAsk none (conflictQuestions (answers.map fun q => (q.1, some q.2)))
  | cancelled (answers : List (Identity × Answer)) (id : Identity) :
      ConflictsAsk (some .cancelled)
        (conflictQuestions (answers.map fun q => (q.1, some q.2)) ++ [.conflict id none])

theorem ConflictsAsk.cons {o : Option RunStatus} {qs : List Consultation} (h : ConflictsAsk o qs)
    (id : Identity) (c : Answer) : ConflictsAsk o (.conflict id (some c) :: qs) := by
  cases h with
  | settled answers => exact .settled ((id, c) :: answers)
  | cancelled answers id' => exact .cancelled ((id, c) :: answers) id'

/-- An artifact that is observed is settled the same way. -/
theorem resolve_observed (b : Batch) (id : Identity) (x : σ × ρ) :
    b.resolve (w.observed note).advisor (w.observed note).alternative existing id x =
      ((b.resolve w.advisor w.alternative existing id x.1).1,
        (b.resolve w.advisor w.alternative existing id x.1).2.1,
        (b.resolve w.advisor w.alternative existing id x.1).2.2,
        noteAll note (conflictQuestions (w.asked existing b id x.1)) x.2) := by
  have hadvisor : (w.observed note).advisor =
      w.advisor.observed fun id answer => note (.conflict id answer) := rfl
  rw [hadvisor, alternative_observed, Batch.resolve_observed, asked_eq_questions, noteAll,
    conflictQuestions, List.foldl_map]

/-- A batch that goes on is cancelled by a question without an answer, and by nothing else. -/
theorem cancelled_resolve {b : Batch} (hb : b.cancelled = false) (id : Identity) (s : σ) :
    (b.resolve w.advisor w.alternative existing id s).2.1.cancelled = true ↔
      w.asked existing b id s = [(id, none)] := by
  rw [Batch.cancelled_resolve_iff, asked_eq_questions, Batch.questions]
  split <;> simp [hb]

/-- The question of an artifact that cancels nothing is answered, and comes before the others. -/
theorem conflictsAsk_asked {b : Batch} (hb : b.cancelled = false) {id : Identity} {s : σ}
    (hc : (b.resolve w.advisor w.alternative existing id s).2.1.cancelled = false)
    {o : Option RunStatus} {qs : List Consultation} (h : ConflictsAsk o qs) :
    ConflictsAsk o (conflictQuestions (w.asked existing b id s) ++ qs) := by
  rcases w.asked_eq existing b id s with hnone | ⟨_ | c, hone⟩
  · rw [hnone]
    exact h
  · exact absurd ((w.cancelled_resolve existing hb id s).2 hone) (by simp [hc])
  · rw [hone]
    exact h.cons id c

section Steps

variable {existing} {a : Artifact} {b b' : Batch} {s s' : σ}

/-- An artifact that no name is left for ends the plan. -/
theorem settle_cons_of_error {e : Batch.NoNameLeft}
    (h : b.resolve w.advisor w.alternative existing a.identity s = (.error e, b', s'))
    (rest : List Artifact) : w.settle existing (a :: rest) b s = (.error e, s') := by
  rw [settle, h]

/-- An artifact that is not answered cancels the plan. -/
theorem settle_cons_of_cancelled {d : Decision}
    (h : b.resolve w.advisor w.alternative existing a.identity s = (.ok d, b', s'))
    (hc : b'.cancelled = true) (rest : List Artifact) :
    w.settle existing (a :: rest) b s = (.ok none, s') := by
  rw [settle, h]
  simp only [hc, if_true]

/-- Any other artifact has its decision, and the next ones are settled. -/
theorem settle_cons_of_settled {d : Decision}
    (h : b.resolve w.advisor w.alternative existing a.identity s = (.ok d, b', s'))
    (hc : b'.cancelled = false) (rest : List Artifact) :
    w.settle existing (a :: rest) b s =
      ((w.settle existing rest b' s').1.map fun plan? => plan?.map ((a, d) :: ·),
        (w.settle existing rest b' s').2) := by
  rw [settle, h]
  simp only [hc, Bool.false_eq_true, if_false]

/-- How an artifact that is observed is settled where that is known without notes. -/
theorem resolve_observed_of_eq {result : Except Batch.NoNameLeft Decision}
    (h : b.resolve w.advisor w.alternative existing a.identity s = (result, b', s')) (t : ρ) :
    b.resolve (w.observed note).advisor (w.observed note).alternative existing a.identity (s, t) =
      (result, b', s',
        noteAll note (conflictQuestions (w.asked existing b a.identity s)) t) := by
  rw [resolve_observed, h]

end Steps

/-- Artifacts that are observed are settled the same way, each question is put once, and the one
that cancels the batch is the last. -/
theorem settle_observed (artifacts : List Artifact) (b : Batch) (s : σ) :
    ∃ qs, (b.cancelled = false → ∀ plan?, (w.settle existing artifacts b s).1 = .ok plan? →
        ConflictsAsk (if plan?.isNone then some .cancelled else none) qs) ∧
      ∀ t, (w.observed note).settle existing artifacts b (s, t) =
        ((w.settle existing artifacts b s).1, (w.settle existing artifacts b s).2,
          noteAll note qs t) := by
  induction artifacts generalizing b s with
  | nil =>
    refine ⟨[], fun _ plan? h => ?_, fun t => rfl⟩
    cases h
    exact .settled []
  | cons a rest ih =>
    rcases hr : b.resolve w.advisor w.alternative existing a.identity s with ⟨e | d, b', s'⟩
    · rw [w.settle_cons_of_error hr]
      refine ⟨conflictQuestions (w.asked existing b a.identity s), fun _ plan? h => ?_, fun t => ?_⟩
      · cases h
      · exact (w.observed note).settle_cons_of_error (w.resolve_observed_of_eq note hr t) rest
    · have hbatch : (b.resolve w.advisor w.alternative existing a.identity s).2.1 = b' := by rw [hr]
      cases hc : b'.cancelled with
      | true =>
        -- the question that cancels is the last one, and the only one without an answer
        rw [w.settle_cons_of_cancelled hr hc]
        refine ⟨conflictQuestions (w.asked existing b a.identity s), fun hb plan? h => ?_,
          fun t => ?_⟩
        · cases h
          rw [(w.cancelled_resolve existing hb a.identity s).1 (hbatch ▸ hc)]
          exact .cancelled [] a.identity
        · exact (w.observed note).settle_cons_of_cancelled (w.resolve_observed_of_eq note hr t) hc
            rest
      | false =>
        obtain ⟨qs, hqs, h⟩ := ih b' s'
        rw [w.settle_cons_of_settled hr hc]
        refine ⟨conflictQuestions (w.asked existing b a.identity s) ++ qs,
          fun hb plan? hplan => ?_, fun t => ?_⟩
        · cases hrest : (w.settle existing rest b' s').1 with
          | error e => rw [hrest] at hplan; cases hplan
          | ok rest? =>
            rw [hrest] at hplan
            cases hplan
            rw [Option.isNone_map]
            exact w.conflictsAsk_asked existing hb (hbatch ▸ hc) (hqs hc rest? hrest)
        · rw [(w.observed note).settle_cons_of_settled (w.resolve_observed_of_eq note hr t) hc, h,
            noteAll_append]

/-! ### Emissions -/

/-- Carrying out a plan asks nothing. -/
theorem emit_observed [Store τ] (plan : List (Artifact × Decision)) (report : RunReport) (k : τ)
    (x : σ × ρ) :
    (w.observed note).emit plan report k x =
      ((w.emit plan report k x.1).1, (w.emit plan report k x.1).2.1,
        (w.emit plan report k x.1).2.2, x.2) := by
  induction plan generalizing report k x with
  | nil => rfl
  | cons first rest ih =>
    obtain ⟨a, d⟩ := first
    have hsay : (w.observed note).sayRenamed a d x = (w.sayRenamed a d x.1, x.2) := by
      cases d <;> rfl
    rw [emit, emit]
    rcases a.filed d with fault | _ | ⟨id, text⟩
    · rfl
    · exact ih _ _ _
    · dsimp only
      rw [hsay]
      rcases Store.write k id (markedText text) with ⟨fault | _, k'⟩
      · rfl
      · exact ih _ _ _

end Partner

end EntityScaffold
