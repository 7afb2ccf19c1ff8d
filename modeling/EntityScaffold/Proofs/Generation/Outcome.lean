import EntityScaffold.Proofs.Generation.Fault

/-!
# What a plan reports

As long as no write fails, what a plan comes to depends on the plan alone
(`Partner.emit_eq_withPlan`): it reports the emissions of its steps
(`RunReport.exists_emissions_of_withPlan`), as written what is filed and as skipped everything else.
A run that ends well has carried out a plan (`RunRequest.exists_plan_of_ok`).
-/

namespace EntityScaffold

variable {σ : Type}

theorem Artifact.identity?_of_filed {a : Artifact} {d : Decision}
    {file? : Option (Identity × String)} (h : a.filed d = .ok file?) :
    d.identity? a.identity = file?.map (·.1) := by
  cases d with
  | write | skip => cases h; rfl
  | rename name =>
    unfold filed at h
    dsimp only at h
    cases ht : Text.rename a.text a.className name with
    | error e => rw [ht] at h; cases h
    | ok text => rw [ht] at h; cases h; rfl

/-- An emission files under the identity that its decision gives. -/
theorem Emission.identity?_eq (e : Emission) :
    e.decision.identity? e.artifact.identity = e.file?.map (·.1) :=
  Artifact.identity?_of_filed e.filed

/-! ### What a plan reports -/

/-- A report after a plan no write of which fails. -/
def RunReport.withPlan : RunReport → List (Artifact × Decision) → Except RunFault RunReport
  | report, [] => .ok report
  | report, (a, d) :: rest =>
    match a.filed d with
    | .error fault => .error (.template fault)
    | .ok none => withPlan { report with skipped := report.skipped ++ [a.ref] } rest
    | .ok (some (id, _)) =>
      withPlan { report with written := report.written ++ [⟨a.layer, id⟩] } rest

/-- **If no write fails, a plan comes to the same on every store.** -/
theorem Partner.emit_eq_withPlan {τ : Type} [Store τ] (w : Partner σ)
    {plan : List (Artifact × Decision)} {report : RunReport} {k : τ} {s : σ}
    (hok : ∀ result, (w.emit plan report k s).1 = .ok result → result.status ≠ .failed) :
    (w.emit plan report k s).1 = report.withPlan plan := by
  induction plan generalizing report k s with
  | nil => rfl
  | cons step plan ih =>
    obtain ⟨a, d⟩ := step
    unfold emit at hok ⊢
    unfold RunReport.withPlan
    rcases hfiled : a.filed d with fault | _ | ⟨id, text⟩
    · rfl
    · rw [hfiled] at hok
      exact ih hok
    · rw [hfiled] at hok
      dsimp only at hok ⊢
      rcases hw : Store.write k id (markedText text) with ⟨fault | _, k'⟩
      · rw [hw] at hok
        exact absurd rfl (hok _ rfl)
      · rw [hw] at hok
        exact ih hok

/-- What all found items have. -/
theorem forall_mem_filterMap {α β : Type} {f : α → Option β} {l : List α} {P : β → Prop} :
    (∀ b ∈ l.filterMap f, P b) ↔ ∀ a ∈ l, ∀ b, f a = some b → P b := by
  constructor
  · intro h a ha b hb
    exact h b (List.mem_filterMap.2 ⟨a, ha, hb⟩)
  · intro h b hb
    obtain ⟨a, ha, hab⟩ := List.mem_filterMap.1 hb
    exact h a ha b hab

namespace RunReport

variable {report result : RunReport} {plan : List (Artifact × Decision)}

/-- **A plan that does not break reports the emissions of its steps.** -/
theorem exists_emissions_of_withPlan (h : report.withPlan plan = .ok result) :
    ∃ es : List Emission, plan = es.map Emission.step ∧ result = report.withEmissions es := by
  induction plan generalizing report with
  | nil =>
    cases h
    exact ⟨[], rfl, (withEmissions_nil _).symm⟩
  | cons step plan ih =>
    obtain ⟨a, d⟩ := step
    unfold withPlan at h
    rcases hfiled : a.filed d with fault | _ | f <;> rw [hfiled] at h
    · cases h
    · let e : Emission := ⟨a, d, none, hfiled⟩
      obtain ⟨es, rfl, rfl⟩ := ih h
      exact ⟨e :: es, rfl, (withEmissions_cons_of_none _ (e := e) rfl es).symm⟩
    · let e : Emission := ⟨a, d, some f, hfiled⟩
      obtain ⟨es, rfl, rfl⟩ := ih h
      exact ⟨e :: es, rfl, (withEmissions_cons_of_some _ (e := e) rfl es).symm⟩

/-- What a plan files is reported as written, and nothing else is added. -/
theorem forall_written_withPlan (h : report.withPlan plan = .ok result)
    (P : FiledArtifact → Prop) :
    (∀ f ∈ result.written, P f) ↔ (∀ f ∈ report.written, P f) ∧
      ∀ step ∈ plan, ∀ id, step.2.identity? step.1.identity = some id → P ⟨step.1.layer, id⟩ := by
  obtain ⟨es, rfl, rfl⟩ := exists_emissions_of_withPlan h
  rw [withEmissions, List.forall_mem_append, List.forall_mem_map]
  refine and_congr_right fun _ => forall_mem_filterMap.trans (forall₂_congr fun e _ => ?_)
  simp only [Emission.step, e.identity?_eq, Emission.written?]
  cases e.file? <;> simp

/-- What a plan does not file is reported as skipped, and nothing else is added. -/
theorem forall_skipped_withPlan (h : report.withPlan plan = .ok result)
    (P : FiledArtifact → Prop) :
    (∀ f ∈ result.skipped, P f) ↔ (∀ f ∈ report.skipped, P f) ∧
      ∀ step ∈ plan, step.2.identity? step.1.identity = none → P step.1.ref := by
  obtain ⟨es, rfl, rfl⟩ := exists_emissions_of_withPlan h
  rw [withEmissions, List.forall_mem_append, List.forall_mem_map]
  refine and_congr_right fun _ => forall_mem_filterMap.trans (forall₂_congr fun e _ => ?_)
  simp only [Emission.step, e.identity?_eq, Emission.skipped?]
  cases e.file? <;> simp

/-- Only a new name breaks a plan. -/
theorem exists_rename_of_withPlan {fault : RunFault} (h : report.withPlan plan = .error fault) :
    (∃ e, fault = .template e) ∧ ∃ a name, (a, .rename name) ∈ plan := by
  induction plan generalizing report with
  | nil => cases h
  | cons step plan ih =>
    obtain ⟨a, d⟩ := step
    unfold withPlan at h
    rcases hfiled : a.filed d with e | _ | ⟨id, text⟩ <;> rw [hfiled] at h
    · cases h
      obtain ⟨name, rfl, -⟩ := Artifact.filed_eq_error hfiled
      exact ⟨⟨e, rfl⟩, a, name, List.mem_cons_self⟩
    all_goals
      obtain ⟨hfault, b, name, hmem⟩ := ih h
      exact ⟨hfault, b, name, List.mem_cons_of_mem _ hmem⟩

end RunReport

/-- **A run that ends well has carried out a plan.** -/
theorem RunRequest.exists_plan_of_ok {τ : Type} [Store τ] {r : RunRequest σ} {k : τ} {s : σ}
    {report : RunReport} (h : (r.runOn k s).1 = .ok report) (hok : report.status = .ok) :
    ∃ m artifacts plan concerns missing s₁ s₂, Entity.ofClass? r.table r.cls = some m ∧
      Artifact.all m r.settings = .ok artifacts ∧
      (r.partner.plan r.settings (Store.existing k) artifacts s₁).1 = .ok (some plan) ∧
      r.runOn k s = r.partner.emit plan { status := .ok, concerns, missing } k s₂ := by
  rcases r.runOn_cases k s with ⟨stop, s', hstop, hr⟩ | ⟨fault, s', -, hr⟩ |
    ⟨m, concerns, missing, artifacts, plan, s₁, s₂, ha, hm, hp, hr⟩
  · rw [hr] at h
    cases h
    have hstatus := hstop.status
    simp [hok] at hstatus
  · rw [hr] at h
    cases h
  · exact ⟨m, artifacts, plan, concerns, missing, s₁, s₂,
      r.partner.ofClass?_of_admitted (congrArg Prod.fst ha), hm, congrArg Prod.fst hp, hr⟩

end EntityScaffold
