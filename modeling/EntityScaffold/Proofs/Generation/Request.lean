import Mathlib.Tactic.Common
import EntityScaffold.Proofs.Generation.Admission
import EntityScaffold.Proofs.Generation.Settlement
import EntityScaffold.Store.Memory

/-!
# Runs on a store in memory

A run that is asked for, the artifacts that it makes once it passes its checks, and the plan it
carries out for them. A run changes the store, or reports anything as written, only by its plan
(`RunRequest.run_cases`).
-/

namespace EntityScaffold

variable {σ : Type}

/-- One run that is asked for. -/
structure RunRequest (σ : Type) where
  partner : Partner σ
  table : TypeTable
  cls : SourceClass
  settings : Settings

namespace RunRequest

/-- A request for the transfer object, which has no members, of a class `shop.User`. -/
def ofUser (advisor : Advisor Unit) (suffix : String) : RunRequest Unit where
  partner := { Partner.passive Unit with advisor }
  table := ⟨[]⟩
  cls :=
    { name := "User", package := "shop", annotations := [⟨"javax.persistence.Entity", []⟩],
      fields :=
        [{ name := "id", typeText := "Long", modifiers := ["transient"],
           annotations := [⟨"javax.persistence.Id", []⟩] }],
      interfaces := [serializable] }
  settings :=
    { Settings.standard with layer := fun k => ⟨k = .dto, suffix, "dto"⟩, accessorStyle := false }

/-- A request for some layers of that class, all of them in one package. -/
def ofLayers (advisor : Advisor Unit) (layers : List Layer) : RunRequest Unit :=
  { ofUser advisor "" with
    settings := { Settings.standard with
      layer := fun k => ⟨k ∈ layers, k.label, "api"⟩
      accessorStyle := false } }

/-- What a run on any store comes to, the store after it, and the state of those who took part. -/
def runOn {τ : Type} [Store τ] (r : RunRequest σ) (k : τ) (s : σ) :
    Except RunFault RunReport × τ × σ :=
  r.partner.run r.table r.cls r.settings k s

/-- What a run on a store in memory comes to, the store after it, and the state of those who took
part. -/
def run (r : RunRequest σ) (x : MemoryStore × σ) : Except RunFault RunReport × MemoryStore × σ :=
  r.partner.run r.table r.cls r.settings x.1 x.2

/-- A run passes its checks and makes these artifacts, with this state of those who take part. -/
def Makes (r : RunRequest σ) (x : MemoryStore × σ) (artifacts : List Artifact) (s : σ) : Prop :=
  ∃ m concerns missing,
    r.partner.admission r.table r.cls r.settings x.2 = (.admitted m concerns missing, s) ∧
      Artifact.all m r.settings = .ok artifacts

/-- A run carries out this plan. -/
def Plans (r : RunRequest σ) (x : MemoryStore × σ) (plan : List (Artifact × Decision)) : Prop :=
  ∃ artifacts s, r.Makes x artifacts s ∧
    (r.partner.plan r.settings (Store.existing x.1) artifacts s).1 = .ok (some plan)

variable {r : RunRequest σ} {x : MemoryStore × σ}

/-- **A run on any store ends before anything is written, or it carries out a plan.** Before that it
is stopped, or there is a fault; neither changes the store. -/
theorem runOn_cases {τ : Type} [Store τ] (r : RunRequest σ) (k : τ) (s : σ) :
    (∃ report s', report.IsStop ∧ r.runOn k s = (.ok report, k, s')) ∨
      (∃ fault s', (∀ e, fault ≠ .template e) ∧ r.runOn k s = (.error fault, k, s')) ∨
      ∃ m concerns missing artifacts plan s₁ s₂,
        r.partner.admission r.table r.cls r.settings s = (.admitted m concerns missing, s₁) ∧
          Artifact.all m r.settings = .ok artifacts ∧
          r.partner.plan r.settings (Store.existing k) artifacts s₁ = (.ok (some plan), s₂) ∧
          r.runOn k s = r.partner.emit plan { status := .ok, concerns, missing } k s₂ := by
  unfold runOn
  rw [Partner.run_eq]
  rcases ha : r.partner.admission r.table r.cls r.settings s with
    ⟨report | fault | ⟨m, concerns, missing⟩, s₁⟩
  · exact Or.inl ⟨report, s₁, r.partner.isStop_of_stopped (congrArg Prod.fst ha), rfl⟩
  · obtain ⟨rfl, -, -⟩ := r.partner.of_refused (congrArg Prod.fst ha)
    exact Or.inr (Or.inl ⟨_, s₁, fun _ => by simp, rfl⟩)
  · dsimp only
    unfold Partner.produce
    cases hm : Artifact.all m r.settings with
    | error fault => exact Or.inr (Or.inl ⟨_, s₁, fun _ => by simp, rfl⟩)
    | ok artifacts =>
      dsimp only
      rcases hp : r.partner.plan r.settings (Store.existing k) artifacts s₁ with
        ⟨fault | _ | plan, s₂⟩
      · exact Or.inr (Or.inl ⟨_, s₂, fun _ => by simp, rfl⟩)
      · exact Or.inl ⟨_, _, ⟨Or.inr rfl, rfl⟩, rfl⟩
      · exact Or.inr (Or.inr ⟨m, concerns, missing, artifacts, plan, s₁, s₂, rfl, hm, hp, rfl⟩)

/-- A run on a store in memory ends before anything is written, or it carries out a plan. -/
theorem run_cases (r : RunRequest σ) (x : MemoryStore × σ) :
    (∃ report s, report.IsStop ∧ r.run x = (.ok report, x.1, s)) ∨
      (∃ fault s, (∀ e, fault ≠ .template e) ∧ r.run x = (.error fault, x.1, s)) ∨
      ∃ plan concerns missing s, r.Plans x plan ∧
        r.run x = r.partner.emit plan { status := .ok, concerns, missing } x.1 s := by
  rcases r.runOn_cases x.1 x.2 with hstop | hfault |
    ⟨m, concerns, missing, artifacts, plan, s₁, s₂, ha, hm, hp, hr⟩
  · exact Or.inl hstop
  · exact Or.inr (Or.inl hfault)
  · exact Or.inr (Or.inr ⟨plan, concerns, missing, s₂,
      ⟨artifacts, s₁, ⟨m, concerns, missing, ha, hm⟩, by rw [hp]⟩, hr⟩)

/-- The plan that a run carries out once it passes its checks. -/
theorem run_of_admitted {m : Entity} {concerns : List Concern} {missing : List Feature}
    {artifacts : List Artifact} {plan : List (Artifact × Decision)} {s s' : σ}
    (ha : r.partner.admission r.table r.cls r.settings x.2 = (.admitted m concerns missing, s))
    (hm : Artifact.all m r.settings = .ok artifacts)
    (hp : r.partner.plan r.settings (Store.existing x.1) artifacts s = (.ok (some plan), s')) :
    r.run x = r.partner.emit plan { status := .ok, concerns, missing } x.1 s' := by
  rw [run, Partner.run_eq, ha]
  dsimp only
  rw [Partner.produce, hm]
  dsimp only
  rw [hp]

/-- A run that is not stopped carries out a plan. -/
theorem exists_plan_of_not_isStop {report : RunReport} (h : (r.run x).1 = .ok report)
    (hstop : ¬ report.IsStop) :
    ∃ plan concerns missing s, r.Plans x plan ∧
      r.run x = r.partner.emit plan { status := .ok, concerns, missing } x.1 s := by
  rcases r.run_cases x with ⟨stop, s, hs, hr⟩ | ⟨fault, s, -, hr⟩ | hplan
  · rw [hr] at h
    cases h
    exact absurd hs hstop
  · rw [hr] at h
    cases h
  · exact hplan

/-- The artifacts of a plan are those that the run makes. -/
theorem exists_makes_of_plans {plan : List (Artifact × Decision)} (h : r.Plans x plan) :
    ∃ s, r.Makes x (plan.map Prod.fst) s := by
  obtain ⟨artifacts, s, hmake, hplan⟩ := h
  exact ⟨s, by rwa [r.partner.map_fst_of_settle hplan]⟩

/-- A planned rename takes one of the names to try, and no identity that was there before the
run. -/
theorem free_of_plans_rename {plan : List (Artifact × Decision)} {a : Artifact} {name : String}
    (h : r.Plans x plan) (ha : (a, .rename name) ∈ plan) :
    name ∈ Batch.candidates r.partner.alternative a.className ∧
      { a.identity with className := name } ∉ Store.existing x.1 := by
  obtain ⟨before, after, rfl⟩ := List.append_of_mem ha
  obtain ⟨artifacts, s, -, hplan⟩ := h
  exact (r.partner.free_of_settle_rename hplan).imp_right And.left

end RunRequest

end EntityScaffold
