import EntityScaffold.Proofs.Generation.Outcome
import EntityScaffold.Proofs.Generation.Steady

/-!
# Runs with one answer to every conflict

Somebody who always gives the same answer for all conflicts leaves a plan to what is there. The more
there is, the more conflicts; so of two stores, one of which has all that the other one has, both
get the same plan only as long as the plan for the smaller one files nothing that the larger one has
already (`Partner.Settles.settle_mono`), unless everything is written over. That says when a run
comes to the same on both stores (`RunRequest.AnswersAlways.result_eq_iff`).
-/

namespace EntityScaffold

variable {σ : Type}

/-- The fault is about a new name: none is left, or the one there is cannot be put into a text. -/
def RunFault.IsOfName (fault : RunFault) : Prop :=
  (∃ e, fault = .noNameLeft e) ∨ ∃ e, fault = .template e

/-! ### One artifact -/

namespace Batch

variable {advisor : Advisor σ} {alternative : Option (String → String)} {a : ConflictAction}
  {existing existing' : List Identity} {id : Identity} {b b' : Batch} {d : Decision}

/-- A batch settles every conflict by one action: it is pinned, or the advisor gives it as the
answer for all conflicts. -/
structure Fixes (b : Batch) (advisor : Advisor σ) (a : ConflictAction) : Prop where
  cancelled : b.cancelled = false
  action : b.pin = some a ∨ b.pin = none ∧ ∀ id s, (advisor id s).1 = some (.always a)

namespace Fixes

theorem holds (h : b.Fixes advisor a) (hd : a.decision? = some d) : b.Holds advisor d :=
  ⟨h.cancelled, a, hd, h.action.imp_right fun ⟨hp, hall⟩ => ⟨hp, .always a, rfl, hall⟩⟩

theorem consult (h : b.Fixes advisor a) (id : Identity) (s : σ) :
    (b.consult advisor id s).1.2 = a ∧ (b.consult advisor id s).1.1.Fixes advisor a := by
  obtain ⟨hc, hp | ⟨hp, hall⟩⟩ := h
  · rw [consult_of_pin hp]
    exact ⟨rfl, hc, Or.inl hp⟩
  · rw [consult_of_no_pin hp, hall]
    exact ⟨rfl, hc, Or.inl rfl⟩

/-- A decision depends on what is taken, and then on the action alone. -/
theorem resolve_fst (h : b.Fixes advisor a) (s : σ) :
    (b.resolve advisor alternative existing id s).1 =
      if b.isTaken existing id then b.decide alternative existing id a else .ok .write := by
  cases ht : b.isTaken existing id with
  | false => rw [resolve_of_free ht]; rfl
  | true =>
    have hdecide : (b.consult advisor id s).1.1.decide alternative existing id a =
        b.decide alternative existing id a := by
      cases a with
      | write | skip => rfl
      | rename => simp only [decide, unusedName?, isTaken, claimed_consult]
    rw [resolve_of_taken ht, (h.consult id s).1, hdecide]
    cases b.decide alternative existing id a <;> rfl

/-- The batch goes on to settle by its action. -/
theorem of_resolve (h : b.Fixes advisor a) {s s' : σ} {o : Except NoNameLeft Decision}
    (hr : b.resolve advisor alternative existing id s = (o, b', s')) : b'.Fixes advisor a := by
  cases ht : b.isTaken existing id with
  | false =>
    rw [resolve_of_free ht] at hr
    cases hr
    exact ⟨h.cancelled, h.action⟩
  | true =>
    obtain ⟨-, hc, hp⟩ := h.consult id s
    rw [← pin_resolve_of_taken ht, hr] at hp
    rw [← cancelled_resolve_of_taken ht, hr] at hc
    exact ⟨hc, hp⟩

/-- An action that does not write over anything files under new identities only. -/
theorem notMem_of_resolve (h : b.Fixes advisor a) (ha : a ≠ .write) {s : σ}
    (hr : (b.resolve advisor alternative existing id s).1 = .ok d) {other : Identity}
    (hd : d.identity? id = some other) : other ∉ existing := by
  cases d with
  | skip => cases hd
  | rename name =>
    cases hd
    exact (isTaken_eq_false_iff.1 (free_of_resolve_rename hr).2).1
  | write =>
    cases hd
    cases ht : b.isTaken existing id with
    | false => exact (isTaken_eq_false_iff.1 ht).1
    | true =>
      rw [h.resolve_fst, if_pos ht] at hr
      exact absurd (action_of_decide hr).symm ha

end Fixes

/-- The first name that is not taken stays the first one if more is taken, but not this name. -/
theorem unusedName?_mono (hclaimed : b'.claimed = b.claimed) (hsub : existing ⊆ existing')
    {name : String} (h : b.unusedName? alternative existing id = some name)
    (hfree : { id with className := name } ∉ existing') :
    b'.unusedName? alternative existing' id = some name := by
  obtain ⟨hname, before, after, hsplit, hbefore⟩ := List.find?_eq_some_iff_append.1 h
  refine List.find?_eq_some_iff_append.2 ⟨?_, before, after, hsplit, fun n hn => ?_⟩
  · simp only [isTaken, hclaimed, Bool.not_eq_true', Bool.or_eq_false_iff, decide_eq_false_iff_not]
      at hname ⊢
    exact ⟨hfree, hname.2⟩
  · have htaken := hbefore n hn
    simp only [isTaken, hclaimed, Bool.not_not, Bool.or_eq_true, decide_eq_true_eq] at htaken ⊢
    exact htaken.imp_left (hsub ·)

/-- **A decision stays the same if more is there**, but not what it files. -/
theorem Fixes.resolve_mono (h : b.Fixes advisor a) (h' : b'.Fixes advisor a)
    (hclaimed : b'.claimed = b.claimed) (hsub : existing ⊆ existing') {s : σ}
    (hr : (b.resolve advisor alternative existing id s).1 = .ok d)
    (hfree : ∀ other, d.identity? id = some other → other ∉ existing') (s' : σ) :
    (b'.resolve advisor alternative existing' id s').1 = .ok d := by
  rw [h.resolve_fst] at hr
  rw [h'.resolve_fst]
  cases ht : b.isTaken existing id with
  | false =>
    rw [ht] at hr
    cases hr
    have ht' : b'.isTaken existing' id = false :=
      isTaken_eq_false_iff.2 ⟨hfree id rfl, hclaimed ▸ (isTaken_eq_false_iff.1 ht).2⟩
    rw [ht']
    rfl
  | true =>
    have ht' : b'.isTaken existing' id = true :=
      isTaken_iff.2 ((isTaken_iff.1 ht).imp (hsub ·) (hclaimed ▸ ·))
    rw [ht, if_pos rfl] at hr
    rw [ht', if_pos rfl]
    cases a with
    | write | skip => exact hr
    | rename =>
      -- the names that were passed over are still taken, and the one that was found is free
      simp only [decide] at hr ⊢
      cases hname : b.unusedName? alternative existing id with
      | none => rw [hname] at hr; cases hr
      | some name =>
        rw [hname] at hr
        cases hr
        rw [unusedName?_mono hclaimed hsub hname (hfree _ rfl)]

end Batch

/-! ### Plans -/

namespace Partner

variable {w : Partner σ} {a : ConflictAction} {existing existing' : List Identity} {b b' : Batch}
  {artifacts : List Artifact} {plan : List (Artifact × Decision)} {s s' : σ}

/-- One who always gives the same answer never cancels. -/
theorem settle_ne_none (h : b.Fixes w.advisor a) :
    (w.settle existing artifacts b s).1 ≠ .ok none := by
  induction artifacts generalizing b s with
  | nil => simp [settle]
  | cons first rest ih =>
    rcases hr : b.resolve w.advisor w.alternative existing first.identity s with ⟨e | d, b₁, s₁⟩
    · rw [w.settle_cons_of_error hr]
      simp
    · have hnext := h.of_resolve hr
      have hrest := ih (s := s₁) hnext
      rw [w.settle_cons_of_settled hr hnext.cancelled]
      rcases hp : (w.settle existing rest b₁ s₁).1 with e | _ | plan
      · simp [Except.map]
      · exact absurd hp hrest
      · simp [Except.map]

namespace Settles

/-- Only what is taken is not written, and then the action decides. -/
theorem action_eq (h : w.Settles existing b s plan b' s') (hb : b.Fixes w.advisor a) :
    ∀ step ∈ plan, step.2 = .write ∨ step.2.action = a := by
  induction h with
  | nil => simp
  | @cons first d _ b _ _ s _ _ hr _ _ ih =>
    refine List.forall_mem_cons.2 ⟨?_, ih (hb.of_resolve hr)⟩
    have hd := (congrArg Prod.fst hr).symm.trans (hb.resolve_fst s)
    cases ht : b.isTaken existing first.identity with
    | false =>
      rw [ht] at hd
      exact Or.inl (Except.ok.inj hd)
    | true =>
      rw [ht, if_pos rfl] at hd
      exact Or.inr (Batch.action_of_decide hd.symm)

/-- An action that does not write over anything files under new identities only. -/
theorem notMem (h : w.Settles existing b s plan b' s') (hb : b.Fixes w.advisor a)
    (ha : a ≠ .write) :
    ∀ step ∈ plan, ∀ id, step.2.identity? step.1.identity = some id → id ∉ existing := by
  induction h with
  | nil => simp
  | cons hr _ _ ih =>
    exact List.forall_mem_cons.2
      ⟨fun _ => hb.notMem_of_resolve ha (congrArg Prod.fst hr), ih (hb.of_resolve hr)⟩

/-- **A plan stays the same if more is there**, but nothing that it files. -/
theorem settle_mono {b₁ b₂ : Batch} {s₁ : σ} (h : w.Settles existing b s plan b₁ s₁)
    (hb : b.Fixes w.advisor a) (hb₂ : b₂.Fixes w.advisor a) (hclaimed : b₂.claimed = b.claimed)
    (hsub : existing ⊆ existing')
    (hfree : ∀ step ∈ plan, ∀ id, step.2.identity? step.1.identity = some id → id ∉ existing')
    (s₂ : σ) :
    (w.settle existing' (plan.map Prod.fst) b₂ s₂).1 = .ok (some plan) := by
  induction h generalizing b₂ s₂ with
  | nil => rfl
  | @cons first d rest b _ _ s _ _ hr _ _ ih =>
    obtain ⟨hfirst, hrest⟩ := List.forall_mem_cons.1 hfree
    have hd := hb.resolve_mono hb₂ hclaimed hsub (congrArg Prod.fst hr) hfirst s₂
    rcases hr₂ : b₂.resolve w.advisor w.alternative existing' first.identity s₂ with ⟨d₂, b₃, s₃⟩
    obtain rfl : d₂ = .ok d := (congrArg Prod.fst hr₂).symm.trans hd
    have hnext₂ := hb₂.of_resolve hr₂
    have hclaimed' : b₃.claimed = _ := (Batch.claimed_of_resolve hr₂).trans
      ((congrArg (· ++ _) hclaimed).trans (Batch.claimed_of_resolve hr).symm)
    rw [List.map_cons, w.settle_cons_of_settled hr₂ hnext₂.cancelled,
      ih (hb.of_resolve hr) hnext₂ hclaimed' hrest s₃]
    rfl

end Settles

/-! ### Productions -/

section Produce

variable {τ τ' : Type} [Store τ] [Store τ'] {p : Settings} {m : Entity} {concerns : List Concern}
  {missing : List Feature} {k : τ} {k' : τ'}

/-- What is produced by a plan no write of which fails. -/
theorem produce_of_plan (hall : Artifact.all m p = .ok artifacts)
    (hplan : (w.plan p (Store.existing k) artifacts s).1 = .ok (some plan))
    (hok : ∀ report, (w.produce m p concerns missing k s).1 = .ok report →
      report.status ≠ .failed) :
    (w.produce m p concerns missing k s).1 =
      ({ status := .ok, concerns, missing } : RunReport).withPlan plan := by
  obtain ⟨s₁, hs⟩ : ∃ s₁, w.plan p (Store.existing k) artifacts s = (.ok (some plan), s₁) :=
    ⟨_, Prod.ext hplan rfl⟩
  unfold produce at hok ⊢
  rw [hall] at hok ⊢
  dsimp only at hok ⊢
  rw [hs] at hok ⊢
  exact w.emit_eq_withPlan hok

/-- One answer other than to rename leads to a plan, and one to rename does so if names are
left. -/
theorem exists_plan_of_fixes (hb : (if p.overwrite then Batch.pinned .write else {} : Batch).Fixes
      w.advisor a) (hall : Artifact.all m p = .ok artifacts) (concerns : List Concern)
    (missing : List Feature) (k : τ) (s : σ)
    (hnames : a = .rename → ∀ e,
      (w.produce m p concerns missing k s).1 ≠ .error (.noNameLeft e)) :
    ∃ plan, (w.plan p (Store.existing k) artifacts s).1 = .ok (some plan) := by
  rcases hplan : w.plan p (Store.existing k) artifacts s with ⟨e | _ | plan, s₁⟩
  · cases ha : a.decision? with
    | some d =>
      have hd := w.plan_eq_planBy (hb.holds ha) (Store.existing k) artifacts s
      rw [hplan] at hd
      cases hd
    | none =>
      obtain rfl : a = .rename := by cases a <;> first | rfl | cases ha
      refine absurd ?_ (hnames rfl e)
      unfold produce
      rw [hall]
      dsimp only
      rw [hplan]
  · exact absurd (congrArg Prod.fst hplan) (settle_ne_none hb)
  · exact ⟨plan, rfl⟩

/-- **The same is produced with more files there** as long as none of what is filed is there. -/
theorem produce_eq_iff (hb : (if p.overwrite then Batch.pinned .write else {} : Batch).Fixes
      w.advisor a) (ha : a ≠ .write) (hsub : Store.existing k ⊆ Store.existing k')
    (hok : ∀ report, (w.produce m p concerns missing k s).1 = .ok report →
      report.status ≠ .failed)
    (hok' : ∀ report, (w.produce m p concerns missing k' s').1 = .ok report →
      report.status ≠ .failed)
    (hnames : a = .rename → ∀ fault, (w.produce m p concerns missing k s).1 = .error fault →
      ¬ fault.IsOfName) :
    (w.produce m p concerns missing k s).1 = (w.produce m p concerns missing k' s').1 ↔
      ∀ report, (w.produce m p concerns missing k s).1 = .ok report →
        ∀ f ∈ report.written, f.id ∉ Store.existing k' := by
  cases hall : Artifact.all m p with
  | error fault => simp [produce, hall]
  | ok artifacts =>
    obtain ⟨plan, hplan⟩ := exists_plan_of_fixes hb hall concerns missing k s
      fun hr e he => hnames hr _ he (Or.inl ⟨e, rfl⟩)
    obtain ⟨hartifacts, b₁, hsettles⟩ := settles_of_settle hplan
    have hresult := produce_of_plan hall hplan hok
    constructor
    · -- what the second plan files was new to its own store
      intro heq report hreport
      rw [heq] at hreport
      obtain ⟨plan', hplan'⟩ := exists_plan_of_fixes hb hall concerns missing k' s' fun _ e he => by
        rw [hreport] at he
        cases he
      obtain ⟨-, b₂, hsettles'⟩ := settles_of_settle hplan'
      have hresult' := (produce_of_plan hall hplan' hok').symm.trans hreport
      exact (RunReport.forall_written_withPlan hresult' (·.id ∉ Store.existing k')).2
        ⟨by simp, hsettles'.notMem hb ha⟩
    · -- a plan that files nothing that is there is the one for the larger store as well
      intro hfree
      cases hreport : ({ status := .ok, concerns, missing } : RunReport).withPlan plan with
      | error fault =>
        obtain ⟨⟨e, rfl⟩, b, name, hmem⟩ := RunReport.exists_rename_of_withPlan hreport
        obtain hd | hd := hsettles.action_eq hb _ hmem
        · cases hd
        · exact absurd (Or.inr ⟨e, rfl⟩) (hnames hd.symm _ (hresult.trans hreport))
      | ok report =>
        have hnew := (RunReport.forall_written_withPlan hreport (·.id ∉ Store.existing k')).1
          (hfree report (hresult.trans hreport))
        have hplan' := hsettles.settle_mono hb hb rfl hsub hnew.2 s'
        rw [hartifacts] at hplan'
        rw [hresult, produce_of_plan hall hplan' hok']

/-- Who writes over everything produces the same whatever is there. -/
theorem produce_eq_of_write (hb : (if p.overwrite then Batch.pinned .write else {} : Batch).Fixes
      w.advisor .write)
    (hok : ∀ report, (w.produce m p concerns missing k s).1 = .ok report →
      report.status ≠ .failed)
    (hok' : ∀ report, (w.produce m p concerns missing k' s').1 = .ok report →
      report.status ≠ .failed) :
    (w.produce m p concerns missing k s).1 = (w.produce m p concerns missing k' s').1 := by
  cases hall : Artifact.all m p with
  | error fault => simp [produce, hall]
  | ok artifacts =>
    have hplan (existing : List Identity) (s : σ) :=
      w.plan_eq_planBy (hb.holds rfl) existing artifacts s
    rw [produce_of_plan hall (hplan _ s) hok, produce_of_plan hall (hplan _ s') hok',
      planBy_write, planBy_write]

end Produce

end Partner

/-! ### Runs -/

namespace RunRequest

variable {r : RunRequest σ} {a : ConflictAction}

/-- Everything that a run asks in its checks is answered from what is asked alone, and every
conflict with the same answer for all conflicts. -/
structure AnswersAlways (r : RunRequest σ) (a : ConflictAction) : Prop where
  partner : r.partner.IsSteady
  conflicts : ∀ id s, (r.partner.advisor id s).1 = some (.always a)

theorem AnswersAlways.firstBatch_fixes (h : r.AnswersAlways a) :
    r.firstBatch.Fixes r.partner.advisor (if r.settings.overwrite then .write else a) := by
  unfold firstBatch
  split
  · exact ⟨rfl, Or.inl rfl⟩
  · exact ⟨rfl, Or.inr ⟨rfl, h.conflicts⟩⟩

/-- **When a run comes to the same with more files there**: always if everything is written over,
and else as long as nothing is there that it reports as written with less. -/
theorem AnswersAlways.result_eq_iff (h : r.AnswersAlways a) {τ τ' : Type} [Store τ] [Store τ']
    {k : τ} {k' : τ'} (hsub : Store.existing k ⊆ Store.existing k') (s s' : σ)
    (hok : ∀ report, (r.runOn k s).1 = .ok report → report.status ≠ .failed)
    (hok' : ∀ report, (r.runOn k' s').1 = .ok report → report.status ≠ .failed)
    (hnames : a = .rename → ∀ fault, (r.runOn k s).1 = .error fault → ¬ fault.IsOfName) :
    (r.runOn k s).1 = (r.runOn k' s').1 ↔ a = .write ∨ r.settings.overwrite = true ∨
      ∀ report, (r.runOn k s).1 = .ok report → ∀ f ∈ report.written, f.id ∉ Store.existing k' := by
  have hsame := h.partner.admission_eq r.table r.cls r.settings s s'
  have hbatch := h.firstBatch_fixes
  unfold runOn at hok hok' hnames ⊢
  rw [Partner.run_eq] at hok hok' hnames ⊢
  rw [Partner.run_eq]
  rcases ha : r.partner.admission r.table r.cls r.settings s with ⟨o, s₁⟩
  rcases ha' : r.partner.admission r.table r.cls r.settings s' with ⟨o', s₁'⟩
  rw [ha, ha'] at hsame
  obtain rfl : o = o' := hsame
  rw [ha] at hok hnames
  rw [ha'] at hok'
  -- only what passes the checks looks at the store
  rcases o with report | fault | ⟨m, concerns, missing⟩
  · refine iff_of_true rfl (Or.inr (Or.inr fun stop hstop f hf => ?_))
    cases hstop
    rw [(r.partner.isStop_of_stopped (congrArg Prod.fst ha)).written] at hf
    cases hf
  · refine iff_of_true rfl (Or.inr (Or.inr fun report hreport => ?_))
    cases hreport
  · dsimp only at hok hok' hnames ⊢
    by_cases hover : r.settings.overwrite = true
    · rw [if_pos hover] at hbatch
      exact iff_of_true (Partner.produce_eq_of_write hbatch hok hok') (Or.inr (Or.inl hover))
    · rw [if_neg hover] at hbatch
      by_cases hwrite : a = .write
      · subst hwrite
        exact iff_of_true (Partner.produce_eq_of_write hbatch hok hok') (Or.inl rfl)
      · rw [or_iff_right hwrite, or_iff_right hover]
        exact Partner.produce_eq_iff hbatch hwrite hsub hok hok' hnames

/-- **A run comes to the same whenever the same files are there.** -/
theorem AnswersAlways.result_eq (h : r.AnswersAlways a) {τ τ' : Type} [Store τ] [Store τ']
    {k : τ} {k' : τ'} (hsame : Store.existing k' = Store.existing k) (s s' : σ)
    (hok : ∀ report, (r.runOn k s).1 = .ok report → report.status ≠ .failed)
    (hok' : ∀ report, (r.runOn k' s').1 = .ok report → report.status ≠ .failed)
    (hnames : a = .rename → ∀ fault, (r.runOn k s).1 = .error fault → ¬ fault.IsOfName) :
    (r.runOn k s).1 = (r.runOn k' s').1 := by
  have hnew := (h.result_eq_iff (List.Subset.refl (Store.existing k)) s s hok hok hnames).1 rfl
  rw [← hsame] at hnew
  exact (h.result_eq_iff (fun _ => (hsame ▸ ·)) s s' hok hok' hnames).2 hnew

end RunRequest

end EntityScaffold
