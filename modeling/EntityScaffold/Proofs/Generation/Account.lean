import EntityScaffold.Proofs.Generation.Emission
import EntityScaffold.Proofs.Generation.Request

/-!
# Reports give an account

What a run reports is what it did to the store (`RunRequest.account_of_run`): each artifact that it
carried out has one entry, written or skipped; the store was written to once for each written
entry, in the same order; and its files are those of before with the texts put in, in that order. A
run that fails gives the account of the artifacts before the one whose write failed.
-/

namespace EntityScaffold

variable {σ : Type}

/-- A report gives the account of artifacts that were carried out one after the other, between a
store and the store after them. -/
structure RunReport.Accounts (report : RunReport) (k : MemoryStore) (es : List Emission)
    (k' : MemoryStore) : Prop where
  written : report.written = es.filterMap Emission.written?
  skipped : report.skipped = es.filterMap Emission.skipped?
  /-- Each of them has one entry. -/
  once : ∀ e ∈ es, e.skipped?.isSome = !e.written?.isSome
  writes : k'.writes = k.writes ++ report.written.map (·.id)
  files : k'.files = MemoryStore.putFiles k.files (Emission.files es)
  failing : k'.failing = k.failing
  /-- No write of them failed. -/
  succeeded : ∀ f ∈ Emission.files es, k.fails f.1 = false

theorem RunReport.accounts_withEmissions {report : RunReport} {k : MemoryStore}
    {es : List Emission} (hw : report.written = es.filterMap Emission.written?)
    (hs : report.skipped = es.filterMap Emission.skipped?)
    (h : ∀ f ∈ Emission.files es, k.fails f.1 = false) :
    report.Accounts k es (k.withEmissions es) where
  written := hw
  skipped := hs
  once e _ := e.skipped?_isSome
  writes := by rw [hw, Emission.map_id_written?]; rfl
  files := rfl
  failing := rfl
  succeeded := h

namespace RunReport.Accounts

variable {report : RunReport} {k k' : MemoryStore} {es : List Emission}

/-- The text under an identity is the last one that was filed there, or the one of before. -/
theorem text?_eq (h : report.Accounts k es k') (id : Identity) :
    k'.text? id = (((Emission.files es).reverse.lookup id).map markedText).or (k.text? id) := by
  rw [MemoryStore.text?, h.files, MemoryStore.lookup_putFiles]
  rfl

/-- What is filed last under an identity is there. -/
theorem text?_of_last {before after : List Emission} {e : Emission} {f : Identity × String}
    (h : report.Accounts k (before ++ e :: after) k') (hf : e.file? = some f)
    (hlast : ∀ g ∈ Emission.files after, g.1 ≠ f.1) : k'.text? f.1 = some (markedText f.2) := by
  rw [h.text?_eq, Emission.lookup_files_of_last hf hlast]
  rfl

/-- The files after a run are those of before and those that are filed. -/
theorem mem_existing_iff_or_filed (h : report.Accounts k es k') {id : Identity} :
    id ∈ Store.existing k' ↔ id ∈ Store.existing k ∨ ∃ f ∈ Emission.files es, f.1 = id := by
  have hmem : ((Emission.files es).reverse.lookup id).isSome = true ↔
      ∃ f ∈ Emission.files es, f.1 = id := by
    rw [List.lookup_isSome_iff]
    constructor
    · rintro ⟨f, hf, hid⟩
      exact ⟨f, List.mem_reverse.1 hf, (beq_iff_eq.1 hid).symm⟩
    · rintro ⟨f, hf, rfl⟩
      exact ⟨f, List.mem_reverse.2 hf, beq_self_eq_true _⟩
  rw [← MemoryStore.isSome_text?_iff, ← MemoryStore.isSome_text?_iff, h.text?_eq, ← hmem]
  cases (Emission.files es).reverse.lookup id <;> simp

end RunReport.Accounts

namespace RunRequest

variable {r : RunRequest σ} {x : MemoryStore × σ} {report : RunReport}

/-- A run that ends well carries out its whole plan. -/
theorem account_of_ok (h : (r.run x).1 = .ok report) (hok : report.status = .ok) :
    ∃ es : List Emission, r.Plans x (es.map Emission.step) ∧ report.failure = none ∧
      report.Accounts x.1 es (r.run x).2.1 := by
  obtain ⟨plan, concerns, missing, s, hplan, hr⟩ := exists_plan_of_not_isStop h fun hstop => by
    rcases hstop.status with hs | hs <;> cases hs.symm.trans hok
  rw [hr] at h ⊢
  obtain ⟨es, rest, rfl, hw, hk, hend⟩ := r.partner.emit_cases plan _ x.1 s
  rw [hk]
  rcases hend with ⟨rfl, hend⟩ | ⟨_, _, _, _, -, -, hend⟩ | ⟨_, _, _, -, -, -, hend⟩ <;>
    cases hend.symm.trans h
  · rw [List.append_nil] at hplan
    exact ⟨es, hplan, rfl, RunReport.accounts_withEmissions rfl rfl hw⟩
  · cases hok

/-- A run that fails carries out its plan up to a write that fails. -/
theorem account_of_failed (h : (r.run x).1 = .ok report) (hfailed : report.status = .failed) :
    ∃ (es : List Emission) (e : Emission) (later : List (Artifact × Decision))
      (f : Identity × String), r.Plans x (es.map Emission.step ++ e.step :: later) ∧
        e.file? = some f ∧ x.1.fails f.1 = true ∧
        report.failure = some ⟨e.artifact.layer, ⟨f.1, "simulated write failure"⟩⟩ ∧
        report.Accounts x.1 es (r.run x).2.1 := by
  obtain ⟨plan, concerns, missing, s, hplan, hr⟩ := exists_plan_of_not_isStop h fun hstop => by
    rcases hstop.status with hs | hs <;> cases hs.symm.trans hfailed
  rw [hr] at h ⊢
  obtain ⟨es, rest, rfl, hw, hk, hend⟩ := r.partner.emit_cases plan _ x.1 s
  rw [hk]
  rcases hend with ⟨rfl, hend⟩ | ⟨_, _, _, _, -, -, hend⟩ | ⟨e, later, f, rfl, hf, hfails, hend⟩ <;>
    cases hend.symm.trans h
  · cases hfailed
  · exact ⟨es, e, later, f, hplan, hf, hfails, rfl, RunReport.accounts_withEmissions rfl rfl hw⟩

/-- **A report is the account of what happened to the store.** A run that ends well carries out its
whole plan, and its report gives the account of all artifacts that were made. A run that fails gives
the account of the artifacts before the first one whose write failed, and names that one with its
layer and the identity under which it was to be filed. -/
theorem account_of_run (h : (r.run x).1 = .ok report) :
    (report.status = .ok → ∃ (es : List Emission) (s : σ),
        r.Makes x (es.map (·.artifact)) s ∧ r.Plans x (es.map Emission.step) ∧
        report.failure = none ∧ report.Accounts x.1 es (r.run x).2.1) ∧
      (report.status = .failed → ∃ (es : List Emission) (e : Emission)
          (later : List (Artifact × Decision)) (f : Identity × String) (s : σ),
        r.Makes x (es.map (·.artifact) ++ e.artifact :: later.map Prod.fst) s ∧
        r.Plans x (es.map Emission.step ++ e.step :: later) ∧
        e.file? = some f ∧ x.1.fails f.1 = true ∧
        report.failure = some ⟨e.artifact.layer, ⟨f.1, "simulated write failure"⟩⟩ ∧
        report.Accounts x.1 es (r.run x).2.1) := by
  constructor
  · intro hok
    obtain ⟨es, hplan, hnone, haccount⟩ := account_of_ok h hok
    obtain ⟨s, hmake⟩ := exists_makes_of_plans hplan
    rw [Emission.map_fst_step] at hmake
    exact ⟨es, s, hmake, hplan, hnone, haccount⟩
  · intro hfailed
    obtain ⟨es, e, later, f, hplan, hf, hfails, hfailure, haccount⟩ := account_of_failed h hfailed
    obtain ⟨s, hmake⟩ := exists_makes_of_plans hplan
    rw [List.map_append, Emission.map_fst_step] at hmake
    exact ⟨es, e, later, f, s, hmake, hplan, hf, hfails, hfailure, haccount⟩

/-- Somebody who renames the transfer object and skips everything else. -/
def renameDto : Advisor Unit := fun id s =>
  (some (.once (if id.className = "UserDTO" then .rename else .skip)), s)

/-- Three layers of a user, for a store that has two of them and cannot write the third. -/
def threeLayers : RunRequest Unit := ofLayers renameDto [.dto, .repository, .service]

def threeLayersStore : MemoryStore where
  files := [(⟨"shop.api", "UserDTO"⟩, "a"), (⟨"shop.api", "UserRepository"⟩, "b")]
  failing := ["UserService"]

theorem run_threeLayers :
    (threeLayers.run (threeLayersStore, ())).1 =
      .ok { status := .failed
            written := [⟨.dto, ⟨"shop.api", "UserDTO2"⟩⟩]
            skipped := [⟨.repository, ⟨"shop.api", "UserRepository"⟩⟩]
            failure :=
              some ⟨.service, ⟨⟨"shop.api", "UserService"⟩, "simulated write failure"⟩⟩ } := by
  decide +kernel

/-- The report of a run that renames one artifact, skips the next and fails at the third gives the
account of the first two. -/
theorem accounts_threeLayers :
    ∃ report, (threeLayers.run (threeLayersStore, ())).1 = .ok report ∧ report.status = .failed ∧
      ∃ (es : List Emission) (e : Emission), e.artifact.layer = .service ∧
        report.Accounts threeLayersStore es (threeLayers.run (threeLayersStore, ())).2.1 := by
  obtain ⟨es, e, later, f, s, -, -, -, -, hfailure, haccount⟩ :=
    (account_of_run run_threeLayers).2 rfl
  simp only [Option.some.injEq, RunFailure.mk.injEq] at hfailure
  exact ⟨_, run_threeLayers, rfl, es, e, hfailure.1.symm, haccount⟩

end RunRequest

end EntityScaffold
