import Mathlib.Logic.IsEmpty.Basic
import EntityScaffold.Proofs.Generation.Emission
import EntityScaffold.Proofs.Generation.Request

/-!
# Steady runs

A partner is steady who answers the questions of a run's checks from what is asked alone, and a run
is steady if also all of its conflicts are settled in one way that takes no new name. The plan of
such a run is known without a batch: every artifact whose identity is taken gets the one decision,
and every other one is written (`planBy`, `Partner.plan_eq_planBy`). So what the run comes to
depends on little of the store: on the writes that fail, and on which of the run's own identities
are there (`RunRequest.IsSteady.run_eq_of_agree`).
-/

namespace EntityScaffold

variable {σ : Type}

/-- The decision that an action leads to whatever is taken. To rename depends on more. -/
def ConflictAction.decision? : ConflictAction → Option Decision
  | write => some .write
  | skip => some .skip
  | rename => none

namespace Batch

variable {b : Batch} {advisor : Advisor σ} {alternative : Option (String → String)}
  {existing : List Identity} {d : Decision}

/-- A batch settles every conflict by one decision: its action is pinned, or the advisor gives it
as the answer to everything. -/
structure Holds (b : Batch) (advisor : Advisor σ) (d : Decision) : Prop where
  cancelled : b.cancelled = false
  action : ∃ a : ConflictAction, a.decision? = some d ∧
    (b.pin = some a ∨ b.pin = none ∧
      ∃ c : Answer, c.action = a ∧ ∀ id s, (advisor id s).1 = some c)

theorem decide_of_decision? {a : ConflictAction} (h : a.decision? = some d) (id : Identity) :
    b.decide alternative existing id a = .ok d := by
  cases a <;> cases h <;> rfl

theorem Holds.record (h : b.Holds advisor d) (id : Identity) (d' : Decision) :
    (b.record id d').Holds advisor d := ⟨h.cancelled, h.action⟩

/-- Such a batch stays one when it is consulted. -/
theorem Holds.consult (h : b.Holds advisor d) (id : Identity) (s : σ) :
    (b.consult advisor id s).1.2.decision? = some d ∧
      (b.consult advisor id s).1.1.Holds advisor d := by
  obtain ⟨hc, a, ha, hp | ⟨hp, c, rfl, hall⟩⟩ := h
  · rw [consult_of_pin hp]
    exact ⟨ha, hc, a, ha, Or.inl hp⟩
  · rw [consult_of_no_pin hp, hall]
    cases c with
    | once a => exact ⟨ha, hc, a, ha, Or.inr ⟨hp, .once a, rfl, hall⟩⟩
    | always a => exact ⟨ha, hc, a, ha, Or.inl rfl⟩

/-- The one decision takes no other identity. -/
theorem Holds.target? (h : b.Holds advisor d) {id other : Identity}
    (ht : d.target? id = some other) : id = other := by
  obtain ⟨-, a, ha, -⟩ := h
  cases a <;> cases ha <;> cases ht
  rfl

/-- **A conflict is settled by the one decision, and everything else is written.** -/
theorem Holds.resolve (h : b.Holds advisor d) (alternative : Option (String → String))
    (existing : List Identity) (id : Identity) (s : σ) :
    ∃ b' s', b.resolve advisor alternative existing id s =
        (.ok (if b.isTaken existing id then d else .write), b', s') ∧ b'.Holds advisor d := by
  cases ht : b.isTaken existing id with
  | false =>
    rw [resolve_of_free ht]
    exact ⟨_, _, rfl, h.record id .write⟩
  | true =>
    obtain ⟨ha, hholds⟩ := h.consult id s
    rw [resolve_of_taken ht, decide_of_decision? ha]
    exact ⟨_, _, rfl, hholds.record id d⟩

end Batch

/-- The plan for artifacts, some identities being taken, if every conflict is settled by one
decision. -/
def planBy (d : Decision) : List Identity → List Artifact → List (Artifact × Decision)
  | _, [] => []
  | taken, a :: rest =>
    (a, if a.identity ∈ taken then d else .write) :: planBy d (a.identity :: taken) rest

/-- A plan depends only on which of its own identities are taken. -/
theorem planBy_congr {d : Decision} {taken taken' : List Identity} {artifacts : List Artifact}
    (h : ∀ a ∈ artifacts, a.identity ∈ taken ↔ a.identity ∈ taken') :
    planBy d taken artifacts = planBy d taken' artifacts := by
  induction artifacts generalizing taken taken' with
  | nil => rfl
  | cons a rest ih =>
    obtain ⟨ha, hrest⟩ := List.forall_mem_cons.1 h
    have hnext : ∀ a' ∈ rest,
        a'.identity ∈ a.identity :: taken ↔ a'.identity ∈ a.identity :: taken' := by
      intro a' ha'
      rw [List.mem_cons, List.mem_cons, hrest a' ha']
    rw [planBy, planBy, ih hnext]
    simp only [ha]

/-- Who writes over everything does not mind what is taken. -/
theorem planBy_write (taken : List Identity) (artifacts : List Artifact) :
    planBy .write taken artifacts = artifacts.map (·, .write) := by
  induction artifacts generalizing taken with
  | nil => rfl
  | cons a rest ih => rw [planBy, ite_self, ih, List.map_cons]

namespace Partner

variable {w : Partner σ}

/-- **Artifacts are settled by the plan of the one decision.** -/
theorem settle_eq_planBy {existing taken : List Identity} {d : Decision} {b : Batch}
    {artifacts : List Artifact} (h : b.Holds w.advisor d)
    (ht : ∀ id, b.isTaken existing id = true ↔ id ∈ taken) (s : σ) :
    (w.settle existing artifacts b s).1 = .ok (some (planBy d taken artifacts)) := by
  induction artifacts generalizing b s taken with
  | nil => rfl
  | cons a rest ih =>
    obtain ⟨b', s', hr, hholds⟩ := h.resolve w.alternative existing a.identity s
    have hnext : ∀ id, b'.isTaken existing id = true ↔ id ∈ a.identity :: taken := by
      intro id
      rw [Batch.isTaken_iff, Batch.claimed_of_resolve hr, List.mem_append, ← or_assoc,
        ← Batch.isTaken_iff, ht, List.mem_cons, Option.mem_toList, or_comm]
      simp only [ht]
      by_cases hm : a.identity ∈ taken
      · rw [if_pos hm]
        refine ⟨Or.imp_left fun hd => (h.target? hd).symm, ?_⟩
        rintro (rfl | hid)
        · exact Or.inr hm
        · exact Or.inr hid
      · simp [hm, Decision.target?, eq_comm]
    rw [w.settle_cons_of_settled hr hholds.cancelled, planBy, ih hholds hnext]
    simp only [ht, Except.map, Option.map]

/-- A plan for artifacts is that of the one decision, whatever is there. -/
theorem plan_eq_planBy {p : Settings} {d : Decision}
    (h : (if p.overwrite then Batch.pinned .write else {} : Batch).Holds w.advisor d)
    (existing : List Identity) (artifacts : List Artifact) (s : σ) :
    (w.plan p existing artifacts s).1 = .ok (some (planBy d existing artifacts)) := by
  refine settle_eq_planBy h (fun id => ?_) s
  have hclaimed : (if p.overwrite then Batch.pinned .write else {} : Batch).claimed = [] := by
    split <;> rfl
  rw [Batch.isTaken_iff, hclaimed]
  simp

end Partner

/-! ### Steady partners -/

/-- Whoever takes part in a run answers the questions of its checks from what is asked alone. -/
structure Partner.IsSteady (w : Partner σ) : Prop where
  hasFeature : ∀ f s t, (w.hasFeature f s).1 = (w.hasFeature f t).1
  confirmConcerns : ∀ cs s t, (w.confirmConcerns cs s).1 = (w.confirmConcerns cs t).1
  confirmMissing : ∀ found s t, (w.confirmMissing found s).1 = (w.confirmMissing found t).1

namespace Partner.IsSteady

variable {w : Partner σ}

theorem missingOf_eq (h : w.IsSteady) (fs : List Feature) (s t : σ) :
    (w.missingOf fs s).1 = (w.missingOf fs t).1 := by
  induction fs generalizing s t with
  | nil => rfl
  | cons f fs ih =>
    simp only [missingOf_cons, h.hasFeature f s t, ih (w.hasFeature f s).2 (w.hasFeature f t).2]

theorem passFindings_eq (h : w.IsSteady) (found : Findings) (earlier : List Concern) (s t : σ) :
    (w.passFindings found earlier s).1 = (w.passFindings found earlier t).1 := by
  unfold passFindings
  cases found.isValid with
  | false => rfl
  | true =>
    cases found.hasConcerns with
    | false => rfl
    | true =>
      simp only [if_true, h.confirmConcerns found.concerns
        (w.sayAll .warning found.warnings s) (w.sayAll .warning found.warnings t)]
      split <;> rfl

theorem passFeatures_eq (h : w.IsSteady) (p : Settings) (s t : σ) :
    (w.passFeatures p s).1 = (w.passFeatures p t).1 ∧
      (w.passFeatures p s).2.1 = (w.passFeatures p t).2.1 := by
  have hmissing := h.missingOf_eq (Feature.required p) s t
  unfold passFeatures
  generalize w.missingOf (Feature.required p) s = x, w.missingOf (Feature.required p) t = y
    at hmissing ⊢
  obtain ⟨⟨missing, s₁⟩, ⟨missing', t₁⟩⟩ := x, y
  obtain rfl : missing = missing' := hmissing
  dsimp only
  cases missing.isEmpty with
  | true => exact ⟨rfl, rfl⟩
  | false =>
    have haccepted := h.confirmMissing ⟨Feature.required p, missing⟩
      (w.sayAll .warning (missing.map fun f => "Missing dependency: " ++ f.name) s₁)
      (w.sayAll .warning (missing.map fun f => "Missing dependency: " ++ f.name) t₁)
    simp only [Bool.false_eq_true, if_false, haccepted]
    split <;> exact ⟨rfl, rfl⟩

theorem admitFeatures_eq (h : w.IsSteady) (p : Settings) (m : Entity) (concerns : List Concern)
    (s t : σ) : (w.admitFeatures p m concerns s).1 = (w.admitFeatures p m concerns t).1 := by
  obtain ⟨hmissing, hgo⟩ := h.passFeatures_eq p s t
  unfold admitFeatures
  generalize w.passFeatures p s = x, w.passFeatures p t = y at hmissing hgo ⊢
  obtain ⟨⟨missing, go, s₁⟩, ⟨missing', go', t₁⟩⟩ := x, y
  obtain rfl : missing = missing' := hmissing
  obtain rfl : go = go' := hgo
  cases go <;> rfl

theorem admitEntity_eq (h : w.IsSteady) (p : Settings) (m : Entity) (earlier : List Concern)
    (s t : σ) : (w.admitEntity p m earlier s).1 = (w.admitEntity p m earlier t).1 := by
  have hentity := h.passFindings_eq m.check earlier s t
  unfold admitEntity
  generalize w.passFindings m.check earlier s = x, w.passFindings m.check earlier t = y
    at hentity ⊢
  obtain ⟨⟨o, s₁⟩, ⟨o', t₁⟩⟩ := x, y
  obtain rfl : o = o' := hentity
  cases o with
  | some report => rfl
  | none => exact h.admitFeatures_eq p m _ s₁ t₁

/-- **What the checks of a run come to does not depend on when they are made.** -/
theorem admission_eq (h : w.IsSteady) (table : TypeTable) (c : SourceClass) (p : Settings)
    (s t : σ) : (w.admission table c p s).1 = (w.admission table c p t).1 := by
  have hclass := h.passFindings_eq c.check [] (w.say .info ("Entity: " ++ c.qualifiedName) s)
    (w.say .info ("Entity: " ++ c.qualifiedName) t)
  unfold admission
  generalize w.passFindings c.check [] (w.say .info ("Entity: " ++ c.qualifiedName) s) = x,
    w.passFindings c.check [] (w.say .info ("Entity: " ++ c.qualifiedName) t) = y at hclass ⊢
  obtain ⟨⟨o, s₁⟩, ⟨o', t₁⟩⟩ := x, y
  obtain rfl : o = o' := hclass
  cases o with
  | some report => rfl
  | none =>
    dsimp only
    cases Entity.ofClass? table c with
    | none => rfl
    | some m => exact h.admitEntity_eq p m _ s₁ t₁

end Partner.IsSteady

/-- A partner who is passive but for the conflicts is steady. -/
theorem Partner.isSteady_passive (advisor : Advisor σ) :
    { Partner.passive σ with advisor }.IsSteady :=
  ⟨fun _ _ _ => rfl, fun _ _ _ => rfl, fun _ _ _ => rfl⟩

namespace RunRequest

variable {r : RunRequest σ} {d : Decision}

/-- Everything that a run asks is answered from what is asked alone, and all conflicts are settled
in one way: by the settings, or by one answer that asks for no new name. -/
structure IsSteady (r : RunRequest σ) : Prop where
  partner : r.partner.IsSteady
  conflicts : r.settings.overwrite = true ∨
    ∃ c : Answer, c.action ≠ .rename ∧ ∀ id s, (r.partner.advisor id s).1 = some c

/-- The batch from which the plan of a run starts. -/
def firstBatch (r : RunRequest σ) : Batch :=
  if r.settings.overwrite then .pinned .write else {}

/-- The artifacts of a request's class, if it is an entity and they can be made. -/
def artifacts (r : RunRequest σ) : List Artifact :=
  ((Entity.ofClass? r.table r.cls).bind fun m => (Artifact.all m r.settings).toOption).getD []

/-- The identities under which they are filed if none of them is renamed. -/
def identities (r : RunRequest σ) : List Identity := r.artifacts.map (·.identity)

theorem artifacts_eq {m : Entity} {artifacts : List Artifact}
    (hm : Entity.ofClass? r.table r.cls = some m)
    (hall : Artifact.all m r.settings = .ok artifacts) : r.artifacts = artifacts := by
  rw [RunRequest.artifacts, hm, Option.bind_some, hall]
  rfl

theorem identities_eq {m : Entity} {artifacts : List Artifact}
    (hm : Entity.ofClass? r.table r.cls = some m)
    (hall : Artifact.all m r.settings = .ok artifacts) :
    r.identities = artifacts.map (·.identity) := by
  rw [identities, artifacts_eq hm hall]

/-- All conflicts of a steady run are settled by one decision, which takes no new name. -/
theorem IsSteady.exists_holds (h : r.IsSteady) :
    ∃ d, (d = .write ∨ d = .skip) ∧ r.firstBatch.Holds r.partner.advisor d := by
  unfold firstBatch
  by_cases hover : r.settings.overwrite = true
  · rw [if_pos hover]
    exact ⟨.write, Or.inl rfl, rfl, .write, rfl, Or.inl rfl⟩
  · obtain ⟨c, hc, hall⟩ := h.conflicts.resolve_left hover
    rw [if_neg hover]
    cases ha : c.action with
    | write => exact ⟨.write, Or.inl rfl, rfl, .write, rfl, Or.inr ⟨rfl, c, ha, hall⟩⟩
    | skip => exact ⟨.skip, Or.inr rfl, rfl, .skip, rfl, Or.inr ⟨rfl, c, ha, hall⟩⟩
    | rename => exact absurd ha hc

/-- **A steady run carries out the plan of its decision, or it always ends the same before.** Which
of the two depends neither on the store nor on when it is run. -/
theorem IsSteady.run_cases (h : r.IsSteady) (hd : r.firstBatch.Holds r.partner.advisor d) :
    (∃ o, ∀ x, ∃ s, r.run x = (o, x.1, s)) ∨
      ∃ concerns missing, ∀ x, ∃ s,
        r.run x = r.partner.emit (planBy d (Store.existing x.1) r.artifacts)
          { status := .ok, concerns, missing } x.1 s := by
  rcases isEmpty_or_nonempty σ with hσ | ⟨⟨s₀⟩⟩
  · exact Or.inl ⟨.error (.notAnEntity ""), fun x => hσ.elim x.2⟩
  -- the checks come to the same from every state, so one state stands for all
  have hsame := fun s => h.partner.admission_eq r.table r.cls r.settings s s₀
  generalize (r.partner.admission r.table r.cls r.settings s₀).1 = o at hsame
  have hrun : ∀ x : MemoryStore × σ,
      ∃ s, r.partner.admission r.table r.cls r.settings x.2 = (o, s) := fun x =>
    ⟨_, Prod.ext (hsame x.2) rfl⟩
  cases o with
  | stopped report =>
    refine Or.inl ⟨.ok report, fun x => ?_⟩
    obtain ⟨s, hs⟩ := hrun x
    exact ⟨s, by rw [run, Partner.run_eq, hs]⟩
  | refused fault =>
    refine Or.inl ⟨.error fault, fun x => ?_⟩
    obtain ⟨s, hs⟩ := hrun x
    exact ⟨s, by rw [run, Partner.run_eq, hs]⟩
  | admitted m concerns missing =>
    have hm := r.partner.ofClass?_of_admitted (hsame s₀)
    cases hall : Artifact.all m r.settings with
    | error fault =>
      refine Or.inl ⟨.error (.braces fault), fun x => ?_⟩
      obtain ⟨s, hs⟩ := hrun x
      refine ⟨s, ?_⟩
      rw [run, Partner.run_eq, hs]
      dsimp only
      rw [Partner.produce, hall]
    | ok artifacts =>
      refine Or.inr ⟨concerns, missing, fun x => ?_⟩
      obtain ⟨s, hs⟩ := hrun x
      have hplan := Partner.plan_eq_planBy hd (Store.existing x.1) artifacts s
      rw [artifacts_eq hm hall]
      exact ⟨_, run_of_admitted hs hall (Prod.ext hplan rfl)⟩

/-- **What a steady run comes to depends on which writes fail, and on which of its own identities
are taken.** -/
theorem IsSteady.run_eq_of_agree (h : r.IsSteady) {x y : MemoryStore × σ}
    (hfailing : x.1.failing = y.1.failing)
    (hown : ∀ id ∈ r.identities, id ∈ Store.existing x.1 ↔ id ∈ Store.existing y.1) :
    (r.run x).1 = (r.run y).1 := by
  obtain ⟨d, -, hd⟩ := h.exists_holds
  rcases h.run_cases hd with ⟨o, hrun⟩ | ⟨concerns, missing, hrun⟩
  · obtain ⟨s, hs⟩ := hrun x
    obtain ⟨t, ht⟩ := hrun y
    rw [hs, ht]
  · obtain ⟨s, hs⟩ := hrun x
    obtain ⟨t, ht⟩ := hrun y
    have hplan : planBy d (Store.existing x.1) r.artifacts =
        planBy d (Store.existing y.1) r.artifacts :=
      planBy_congr fun a ha => hown _ (List.mem_map_of_mem ha)
    rw [hs, ht, hplan]
    exact r.partner.emit_eq_of_failing hfailing _ _ _ _

/-- A run does not change which writes fail. -/
theorem failing_run (r : RunRequest σ) (x : MemoryStore × σ) :
    (r.run x).2.1.failing = x.1.failing := by
  rcases RunRequest.run_cases r x with
    ⟨report, s, -, hr⟩ | ⟨fault, s, -, hr⟩ | ⟨plan, concerns, missing, s, -, hr⟩
  · rw [hr]
  · rw [hr]
  · obtain ⟨es, rest, -, -, hk, -⟩ :=
      r.partner.emit_cases plan { status := .ok, concerns, missing } x.1 s
    rw [hr, hk]
    rfl

end RunRequest

end EntityScaffold
