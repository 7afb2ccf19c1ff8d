import EntityScaffold.Proofs.Generation.Emission
import EntityScaffold.Proofs.Generation.Observation
import EntityScaffold.Proofs.Generation.Request

/-!
# Runs that are stopped

A run passes four gates: the class as it is declared, the entity that it is, the features of the
project, and the conflicts of the artifacts. A gate asks, and then lets the run pass or stops it. A
run that is stopped has changed nothing, and it has asked what the gates up to the stopping one ask,
in their order, and nothing else (`RunRequest.stopped_in_order`).
-/

namespace EntityScaffold

variable {σ ρ : Type}

/-- The status with which a run is stopped, if it is. -/
def RunReport.stop? (report : RunReport) : Option RunStatus :=
  if report.status = .invalid ∨ report.status = .cancelled then some report.status else none

theorem RunReport.IsStop.stop?_eq {report : RunReport} (h : report.IsStop) :
    report.stop? = some report.status := if_pos h.status

/-- The status with which checks stop a run, if they do. -/
def Admission.stop? : Admission → Option RunStatus
  | stopped report => some report.status
  | _ => none

/-- A point at which a run may be stopped. -/
inductive Gate
  | declaration
  | entity
  | features
  | conflicts
  deriving DecidableEq, Repr

/-- The gates before anything is made. -/
def Gate.checks : List Gate := [declaration, entity, features]

/-- All gates, in the order in which a run comes to them. -/
def Gate.all : List Gate := checks ++ [conflicts]

namespace RunRequest

/-- What a gate of a run asks, and the status with which it stops the run if it does. -/
inductive Asks (r : RunRequest σ) : Gate → Option RunStatus → List Consultation → Prop
  | declaration {stop : Option RunStatus} {qs : List Consultation} :
      r.cls.check.Asks stop qs → r.Asks .declaration stop qs
  | entity {m : Entity} {stop : Option RunStatus} {qs : List Consultation} :
      Entity.ofClass? r.table r.cls = some m → m.check.Asks stop qs → r.Asks .entity stop qs
  | features {stop : Option RunStatus} {qs : List Consultation} :
      r.settings.Asks stop qs → r.Asks .features stop qs
  | conflicts {stop : Option RunStatus} {qs : List Consultation} :
      Partner.ConflictsAsk stop qs → r.Asks .conflicts stop qs

/-- What gates ask one after the other, as far as a run comes, and the status with which one of them
stops it if it does. -/
inductive AsksAll (r : RunRequest σ) : List Gate → Option RunStatus → List Consultation → Prop
  | nil : r.AsksAll [] none []
  | stopped {g : Gate} {status : RunStatus} {qs : List Consultation} (gs : List Gate) :
      r.Asks g (some status) qs → r.AsksAll (g :: gs) (some status) qs
  | passed {g : Gate} {gs : List Gate} {stop : Option RunStatus} {qs qs' : List Consultation} :
      r.Asks g none qs → r.AsksAll gs stop qs' → r.AsksAll (g :: gs) stop (qs ++ qs')

namespace AsksAll

variable {r : RunRequest σ} {gs gs' : List Gate} {qs qs' : List Consultation}

theorem single {g : Gate} (h : r.Asks g none qs) : r.AsksAll [g] none qs := by
  simpa using passed h nil

/-- A run that comes through some gates comes to the next ones. -/
theorem append {stop : Option RunStatus} (h : r.AsksAll gs none qs)
    (h' : r.AsksAll gs' stop qs') : r.AsksAll (gs ++ gs') stop (qs ++ qs') := by
  generalize hnone : (none : Option RunStatus) = o at h
  induction h with
  | nil => exact h'
  | stopped gs _ => cases hnone
  | passed hg _ ih =>
    rw [List.cons_append, List.append_assoc]
    exact passed hg (ih hnone)

/-- A run that is stopped comes to no further gate. -/
theorem append_of_stopped {status : RunStatus} (h : r.AsksAll gs (some status) qs)
    (gs' : List Gate) : r.AsksAll (gs ++ gs') (some status) qs := by
  generalize hsome : some status = o at h
  induction h with
  | nil => cases hsome
  | stopped gs hg => exact stopped (gs ++ gs') hg
  | passed hg _ ih => exact passed hg (ih hsome)

/-- Where a run is stopped: gates that let it pass, and the one after them. -/
theorem exists_stop {status : RunStatus} (h : r.AsksAll gs (some status) qs) :
    ∃ (passed : List (Gate × List Consultation)) (g : Gate) (last : List Consultation),
      passed.map Prod.fst ++ [g] <+: gs ∧ (∀ q ∈ passed, r.Asks q.1 none q.2) ∧
      r.Asks g (some status) last ∧ qs = passed.flatMap Prod.snd ++ last := by
  generalize hsome : some status = o at h
  induction h with
  | nil => cases hsome
  | @stopped g _ qs gs hg =>
    cases hsome
    exact ⟨[], g, qs, by simp, by simp, hg, rfl⟩
  | @passed g gs _ qs _ hg _ ih =>
    obtain ⟨before, g', last, hprefix, hbefore, hg', rfl⟩ := ih hsome
    refine ⟨(g, qs) :: before, g', last, ?_, ?_, hg', ?_⟩
    · simpa using hprefix
    · rintro q (_ | ⟨_, hq⟩)
      · exact hg
      · exact hbefore q hq
    · simp

end AsksAll

/-! ### What a run asks -/

variable (r : RunRequest σ) (note : Consultation → ρ → ρ)

/-- The same run with a partner who takes notes. -/
def observed : RunRequest (σ × ρ) where
  partner := r.partner.observed note
  table := r.table
  cls := r.cls
  settings := r.settings

/-- Features that are observed are admitted the same way, and the notes get what their gate
asks. -/
theorem admitFeatures_observed (m : Entity) (concerns : List Concern) (s : σ) :
    ∃ qs, r.AsksAll [.features] (r.partner.admitFeatures r.settings m concerns s).1.stop? qs ∧
      ∀ t, (r.partner.observed note).admitFeatures r.settings m concerns (s, t) =
        ((r.partner.admitFeatures r.settings m concerns s).1,
          (r.partner.admitFeatures r.settings m concerns s).2, Partner.noteAll note qs t) := by
  obtain ⟨qs, hask, h⟩ := r.partner.passFeatures_observed note r.settings s
  unfold Partner.admitFeatures
  simp only [h]
  rcases hf : r.partner.passFeatures r.settings s with ⟨missing, _ | _, s'⟩ <;> rw [hf] at hask
  · exact ⟨qs, .stopped [] (.features hask), fun t => rfl⟩
  · exact ⟨qs, .single (.features hask), fun t => rfl⟩

/-- The same for the checks from an entity on. -/
theorem admitEntity_observed {m : Entity} (hm : Entity.ofClass? r.table r.cls = some m)
    (earlier : List Concern) (s : σ) :
    ∃ qs, r.AsksAll [.entity, .features]
        (r.partner.admitEntity r.settings m earlier s).1.stop? qs ∧
      ∀ t, (r.partner.observed note).admitEntity r.settings m earlier (s, t) =
        ((r.partner.admitEntity r.settings m earlier s).1,
          (r.partner.admitEntity r.settings m earlier s).2, Partner.noteAll note qs t) := by
  obtain ⟨qs, hask, h⟩ := r.partner.passFindings_observed note m.check earlier s
  unfold Partner.admitEntity
  simp only [h]
  rcases hf : r.partner.passFindings m.check earlier s with ⟨_ | report, s'⟩ <;> rw [hf] at hask
  · obtain ⟨qs', hask', h'⟩ :=
      r.admitFeatures_observed note m (earlier ++ m.check.concerns) s'
    refine ⟨qs ++ qs', .passed (.entity hm hask) hask', fun t => ?_⟩
    rw [Partner.noteAll_append]
    exact h' _
  · exact ⟨qs, .stopped _ (.entity hm hask), fun t => rfl⟩

/-- The same for all checks, unless the class is refused. -/
theorem admission_observed (s : σ) :
    ∃ qs, ((∀ fault, (r.partner.admission r.table r.cls r.settings s).1 ≠ .refused fault) →
        r.AsksAll Gate.checks (r.partner.admission r.table r.cls r.settings s).1.stop? qs) ∧
      ∀ t, (r.partner.observed note).admission r.table r.cls r.settings (s, t) =
        ((r.partner.admission r.table r.cls r.settings s).1,
          (r.partner.admission r.table r.cls r.settings s).2, Partner.noteAll note qs t) := by
  obtain ⟨qs, hask, h⟩ := r.partner.passFindings_observed note r.cls.check []
    (r.partner.say .info ("Entity: " ++ r.cls.qualifiedName) s)
  simp only [Partner.admission, Partner.say_observed, h]
  rcases hf : r.partner.passFindings r.cls.check []
    (r.partner.say .info ("Entity: " ++ r.cls.qualifiedName) s) with ⟨_ | report, s'⟩ <;>
    rw [hf] at hask
  · cases hm : Entity.ofClass? r.table r.cls with
    | none => exact ⟨qs, fun hrefused => absurd rfl (hrefused _), fun t => rfl⟩
    | some m =>
      obtain ⟨qs', hask', h'⟩ := r.admitEntity_observed note hm r.cls.check.concerns s'
      refine ⟨qs ++ qs', fun _ => .passed (.declaration hask) hask', fun t => ?_⟩
      rw [Partner.noteAll_append]
      exact h' _
  · exact ⟨qs, fun _ => .stopped _ (.declaration hask), fun t => rfl⟩

/-- Artifacts that are observed are planned the same way, and the notes get what they ask. -/
theorem plan_observed (existing : List Identity) (artifacts : List Artifact) (s : σ) :
    ∃ qs, (∀ plan?, (r.partner.plan r.settings existing artifacts s).1 = .ok plan? →
        r.Asks .conflicts (if plan?.isNone then some .cancelled else none) qs) ∧
      ∀ t, (r.partner.observed note).plan r.settings existing artifacts (s, t) =
        ((r.partner.plan r.settings existing artifacts s).1,
          (r.partner.plan r.settings existing artifacts s).2, Partner.noteAll note qs t) := by
  obtain ⟨qs, hask, h⟩ := r.partner.settle_observed note existing artifacts
    (if r.settings.overwrite then .pinned .write else {}) s
  have hcancelled :
      (if r.settings.overwrite then Batch.pinned .write else {}).cancelled = false := by
    split <;> rfl
  exact ⟨qs, fun plan? hplan => .conflicts (hask hcancelled plan? hplan), h⟩

/-- **Taking notes changes no run, and the notes get what its gates ask**, all of them or those up
to the one that stops it. -/
theorem runOn_observed {τ : Type} [Store τ] (k : τ) (s : σ) :
    ∃ qs, (∀ report, (r.runOn k s).1 = .ok report → r.AsksAll Gate.all report.stop? qs) ∧
      ∀ t, (r.observed note).runOn k (s, t) =
        ((r.runOn k s).1, (r.runOn k s).2.1, (r.runOn k s).2.2, Partner.noteAll note qs t) := by
  unfold runOn observed
  simp only [Partner.run_eq]
  obtain ⟨qs₁, hchecks, h₁⟩ := r.admission_observed note s
  simp only [h₁]
  rcases ha : r.partner.admission r.table r.cls r.settings s with
    ⟨report | fault | ⟨m, concerns, missing⟩, s₁⟩ <;> rw [ha] at hchecks
  · -- a check stops the run, and nothing is asked after it
    refine ⟨qs₁, fun report' h => ?_, fun t => rfl⟩
    cases h
    rw [(r.partner.isStop_of_stopped (congrArg Prod.fst ha)).stop?_eq]
    exact (hchecks fun _ => by simp).append_of_stopped [.conflicts]
  · exact ⟨qs₁, fun report h => (by cases h), fun t => rfl⟩
  · -- all checks are passed, and what is left to ask is about conflicts
    have hpassed : r.AsksAll Gate.checks none qs₁ := hchecks fun _ => by simp
    dsimp only
    unfold Partner.produce
    cases Artifact.all m r.settings with
    | error fault => exact ⟨qs₁, fun report h => (by cases h), fun t => rfl⟩
    | ok artifacts =>
      dsimp only
      obtain ⟨qs₂, hask, h₂⟩ := r.plan_observed note (Store.existing k) artifacts s₁
      simp only [h₂]
      refine ⟨qs₁ ++ qs₂, ?_⟩
      simp only [Partner.noteAll_append]
      rcases hp : r.partner.plan r.settings (Store.existing k) artifacts s₁ with
        ⟨fault | _ | plan, s₂⟩ <;> rw [hp] at hask
      · exact ⟨fun report h => (by cases h), fun t => rfl⟩
      · refine ⟨fun report h => ?_, fun t => rfl⟩
        cases h
        exact hpassed.append (.stopped [] (hask none rfl))
      · refine ⟨fun report h => ?_, fun t => r.partner.emit_observed note plan _ k _⟩
        have hgoes : report.stop? = none := by
          rcases r.partner.status_emit h with hs | hs <;> simp [RunReport.stop?, hs]
        rw [hgoes]
        exact hpassed.append (.single (hask (some plan) rfl))

/-- What is asked in a run, in order. -/
def consultations (x : MemoryStore × σ) : List Consultation :=
  ((r.observed fun q asked => asked ++ [q]).run (x.1, (x.2, []))).2.2.2

theorem asksAll_consultations {r : RunRequest σ} {x : MemoryStore × σ} {report : RunReport}
    (h : (r.run x).1 = .ok report) : r.AsksAll Gate.all report.stop? (r.consultations x) := by
  obtain ⟨qs, hask, hrun⟩ := r.runOn_observed (fun q asked => asked ++ [q]) x.1 x.2
  have hnotes : ∀ (qs asked : List Consultation),
      Partner.noteAll (fun q asked => asked ++ [q]) qs asked = asked ++ qs := by
    intro qs
    induction qs with
    | nil => exact fun asked => (List.append_nil asked).symm
    | cons q qs ih =>
      intro asked
      exact (ih (asked ++ [q])).trans (by simp)
  have heq : r.consultations x = qs := by
    have hlast := congrArg (·.2.2.2) (hrun [])
    rwa [hnotes, List.nil_append] at hlast
  rw [heq]
  exact hask report h

/-- **A run that is stopped has changed nothing, and asks nothing after the gate that stops it.**
What is asked in the run is what some gates ask that let it pass, followed by what the gate after
them asks. -/
theorem stopped_in_order {r : RunRequest σ} {x : MemoryStore × σ} {report : RunReport}
    (h : (r.run x).1 = .ok report)
    (hstop : report.status = .invalid ∨ report.status = .cancelled) :
    (r.run x).2.1 = x.1 ∧ report.written = [] ∧
      ∃ (passed : List (Gate × List Consultation)) (g : Gate) (last : List Consultation),
        passed.map Prod.fst ++ [g] <+: Gate.all ∧ (∀ q ∈ passed, r.Asks q.1 none q.2) ∧
        r.Asks g (some report.status) last ∧
        r.consultations x = passed.flatMap Prod.snd ++ last := by
  have hask := asksAll_consultations h
  rw [RunReport.stop?, if_pos hstop] at hask
  rcases r.run_cases x with ⟨report', s, hstopped, hr⟩ | ⟨fault, s, -, hr⟩ |
    ⟨plan, concerns, missing, s, -, hr⟩
  · rw [hr] at h ⊢
    cases h
    exact ⟨rfl, hstopped.written, hask.exists_stop⟩
  · rw [hr] at h
    cases h
  · rw [hr] at h
    have hstatus := r.partner.status_emit h
    rcases hstop with hs | hs <;> simp [hs] at hstatus

/-- Somebody who approves the transfer object and cancels at anything else. -/
def approveDto : Advisor Unit := fun id s =>
  (if id.className = "UserDTO" then some (.once .write) else none, s)

/-- Two layers of a user, for a store that has both. -/
def twoLayers : RunRequest Unit := ofLayers approveDto [.dto, .repository]

def twoLayersStore : MemoryStore where
  files := [(⟨"shop.api", "UserDTO"⟩, "a"), (⟨"shop.api", "UserRepository"⟩, "b")]

theorem run_twoLayers :
    (twoLayers.run (twoLayersStore, ())).1 =
      .ok { status := .cancelled
            skipped :=
              [⟨.dto, ⟨"shop.api", "UserDTO"⟩⟩,
               ⟨.repository, ⟨"shop.api", "UserRepository"⟩⟩] } := by
  decide +kernel

theorem consultations_twoLayers :
    twoLayers.consultations (twoLayersStore, ()) =
      [.feature .jpaEntity true, .feature .springDataJpa true,
       .conflict ⟨"shop.api", "UserDTO"⟩ (some (.once .write)),
       .conflict ⟨"shop.api", "UserRepository"⟩ none] := by
  decide +kernel

/-- A run that is cancelled at its second artifact does not write the first one, though that was
approved. -/
theorem stopped_twoLayers :
    (twoLayers.run (twoLayersStore, ())).2.1 = twoLayersStore ∧
      ∃ (g : Gate) (last : List Consultation), twoLayers.Asks g (some .cancelled) last ∧
        last <:+ [.feature .jpaEntity true, .feature .springDataJpa true,
          .conflict ⟨"shop.api", "UserDTO"⟩ (some (.once .write)),
          .conflict ⟨"shop.api", "UserRepository"⟩ none] := by
  obtain ⟨hstore, -, passed, g, last, -, -, hlast, hasked⟩ :=
    stopped_in_order run_twoLayers (Or.inr rfl)
  rw [consultations_twoLayers] at hasked
  exact ⟨hstore, g, last, hlast, hasked ▸ List.suffix_append _ _⟩

end RunRequest

end EntityScaffold
