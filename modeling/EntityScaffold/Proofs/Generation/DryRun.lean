import EntityScaffold.Command.Program
import EntityScaffold.Proofs.Generation.Mirror
import EntityScaffold.Proofs.Generation.OneAnswer

/-!
# Dry runs

On a dry run a store in a directory takes every write and keeps none, so later runs do not see what
earlier ones have written. With one answer to every conflict, dry runs on a store come to the same
as the runs themselves exactly if nothing that a run reports as written on its dry run has come to
be there by the runs before it, unless it may be written over (`RunRequest.dryRun_foresees_iff`).
-/

namespace EntityScaffold

variable {σ : Type}

namespace DirectoryStore

variable {k k' : DirectoryStore}

/-- The store on a dry run. -/
def dry (k : DirectoryStore) : DirectoryStore := { k with dryRun := true }

theorem Grows.of_reaches (h : Store.Reaches k k') : k.Grows k' := by
  induction h with
  | refl => exact .refl k
  | tail _ hwrite ih =>
    obtain ⟨id, text, rfl⟩ := hwrite
    exact ih.trans (grows_of_write _ id text)

/-- **Dry runs leave the directory as it is.** -/
theorem same_of_dryRun (hdry : k.dryRun = true) (h : Store.Reaches k k') :
    k'.dryRun = true ∧ k'.tree = k.tree ∧ k'.root = k.root := by
  induction h with
  | refl => exact ⟨hdry, rfl, rfl⟩
  | tail _ hwrite ih =>
    obtain ⟨id, text, rfl⟩ := hwrite
    rw [write_of_dryRun ih.1]
    exact ih

theorem existing_of_dryRun (hdry : k.dryRun = true) (h : Store.Reaches k k') :
    Store.existing k' = Store.existing k := by
  obtain ⟨-, htree, hroot⟩ := same_of_dryRun hdry h
  exact congrArg₂ (fun (tree : FileTree) root => (tree.javaFiles root).map (identityOf root))
    htree hroot

/-- A dry run has no write that fails. -/
theorem status_of_dryRun (hdry : k.dryRun = true) (r : RunRequest σ) (s : σ) {report : RunReport}
    (h : (r.runOn k s).1 = .ok report) : report.status ≠ .failed := by
  intro hfailed
  obtain ⟨k', id, text, fault, hreach, hfault⟩ := RunRequest.exists_fault_of_runOn h hfailed
  rw [write_of_dryRun (same_of_dryRun hdry hreach).1] at hfault
  cases hfault

end DirectoryStore

namespace RunRequest

variable {r : RunRequest σ} {rs : List (RunRequest σ)} {a : ConflictAction}

/-- Something holds at every place of a list if it does at the first one and at all later ones. -/
theorem forall_place_cons {α : Type} {x : α} {l : List α} {P : List α → α → Prop} :
    (∀ earlier y later, x :: l = earlier ++ y :: later → P earlier y) ↔
      P [] x ∧ ∀ earlier y later, l = earlier ++ y :: later → P (x :: earlier) y := by
  constructor
  · intro h
    exact ⟨h [] x l rfl, fun earlier y later hl => h (x :: earlier) y later (by rw [hl]; rfl)⟩
  · rintro ⟨hx, hl⟩ (_ | ⟨z, earlier⟩) y later h
    · cases h
      exact hx
    · cases h
      exact hl earlier y later rfl

/-- Runs after some dry runs, compared with dry runs alone. -/
theorem runAll_eq_iff {k kd k₀ : DirectoryStore} (hrs : ∀ r ∈ rs, r.AnswersAlways a)
    (hdistinct : k.tree.root.IsDistinct) (hkd : kd.dryRun = true) (hk₀ : k₀.dryRun = true)
    (hsame : Store.existing kd = Store.existing k₀) (hsub : Store.existing kd ⊆ Store.existing k)
    (s sd s₀ : σ) (hok : ∀ t ∈ (runAll rs k s).1, ¬ t.Fails)
    (hnames : a = .rename → ∀ r ∈ rs, ∀ fault, (r.runOn k₀ s₀).1 = .error fault →
      ¬ fault.IsOfName) :
    (runAll rs kd sd).1.map (·.result) = (runAll rs k s).1.map (·.result) ↔
      ∀ earlier r later, rs = earlier ++ r :: later →
        a = .write ∨ r.settings.overwrite = true ∨
          ∀ report, (r.runOn k₀ s₀).1 = .ok report →
            ∀ f ∈ report.written, f.id ∉ Store.existing (runAll earlier k s).2.1 := by
  induction rs generalizing k kd s sd with
  | nil => simp [runAll]
  | cons r rs ih =>
    obtain ⟨hr, hrs⟩ := List.forall_mem_cons.1 hrs
    rw [runAll_cons] at hok
    obtain ⟨hfirst, hrest⟩ := List.forall_mem_cons.1 hok
    -- the first dry run is that of the request alone
    have halone := hr.result_eq hsame s₀ sd (fun _ => DirectoryStore.status_of_dryRun hk₀ r s₀)
      (fun _ => DirectoryStore.status_of_dryRun hkd r sd)
      fun hrename => hnames hrename r List.mem_cons_self
    have hhead := hr.result_eq_iff (hsame ▸ hsub) s₀ s
      (fun _ => DirectoryStore.status_of_dryRun hk₀ r s₀)
      (fun report hreport hfailed => hfirst ⟨report, hreport, hfailed⟩)
      fun hrename => hnames hrename r List.mem_cons_self
    -- the stores after it are related as those before
    have hdry := DirectoryStore.same_of_dryRun hkd (r.reaches_runOn kd sd)
    have hstill := DirectoryStore.existing_of_dryRun hkd (r.reaches_runOn kd sd)
    have hgrows := DirectoryStore.Grows.of_reaches (r.reaches_runOn k s)
    have htail := ih hrs (hgrows.tree.distinct hdistinct) hdry.1 (hstill.trans hsame)
      (hstill ▸ List.Subset.trans hsub (hgrows.existing_subset hdistinct)) (r.runOn k s).2.2
      (r.runOn kd sd).2.2 hrest fun hrename r hr => hnames hrename r (List.mem_cons_of_mem _ hr)
    rw [forall_place_cons, runAll_cons, runAll_cons, List.map_cons, List.map_cons, List.cons.injEq]
    exact and_congr (halone ▸ hhead) htail

/-- **Dry runs foresee the runs themselves if none of them counts on a place that an earlier one
takes.** Every conflict gets the same answer, and no write fails; on a dry run no new name is
missing. Then the dry runs come to the same as the runs exactly if each run may write over
everything, or nothing that it reports as written on its dry run is there after the runs before
it. -/
theorem dryRun_foresees_iff {k : DirectoryStore} (hrs : ∀ r ∈ rs, r.AnswersAlways a)
    (hdistinct : k.tree.root.IsDistinct) (s : σ)
    (hok : ∀ t ∈ (runAll rs k s).1, ¬ t.Fails)
    (hnames : a = .rename → ∀ r ∈ rs, ∀ fault, (r.runOn k.dry s).1 = .error fault →
      ¬ fault.IsOfName) :
    (runAll rs k.dry s).1.map (·.result) = (runAll rs k s).1.map (·.result) ↔
      ∀ earlier r later, rs = earlier ++ r :: later →
        a = .write ∨ r.settings.overwrite = true ∨
          ∀ report, (r.runOn k.dry s).1 = .ok report →
            ∀ f ∈ report.written, f.id ∉ Store.existing (runAll earlier k s).2.1 := by
  have hdry : k.dry.dryRun = true := rfl
  have hsub : Store.existing k.dry ⊆ Store.existing k := List.Subset.refl _
  exact runAll_eq_iff hrs hdistinct hdry hdry rfl hsub s s s hok hnames

/-- What a program asks for when it generates for a class. -/
def ofProgram (o : GenerateOptions) (build : BuildFile) (k : DirectoryStore) (p : Settings)
    (c : SourceClass) : RunRequest Session where
  partner := Program.partner o build k
  table := .standard
  cls := c
  settings := p

/-- A program that is told what to do in a conflict, and that all else is accepted, asks nobody. -/
theorem answersAlways_ofProgram {o : GenerateOptions} (ho : o.onConflict = some a)
    (hyes : o.yes = true) (build : BuildFile) (k : DirectoryStore) (p : Settings)
    (c : SourceClass) : (ofProgram o build k p c).AnswersAlways a where
  partner :=
    { hasFeature _ _ _ := rfl
      confirmConcerns _ _ _ := by simp [ofProgram, Program.partner, hyes]
      confirmMissing _ _ _ := by simp [ofProgram, Program.partner, hyes] }
  conflicts _ _ := by simp [ofProgram, Program.partner, ho, Advisor.constant]

theorem answersAlways_ofUser (a : ConflictAction) (suffix : String) :
    (ofUser (.constant (.always a)) suffix).AnswersAlways a :=
  ⟨Partner.isSteady_passive _, fun _ _ => rfl⟩

/-- Requests for two transfer objects of a user, one after the other. -/
def ofUserTwice (a : ConflictAction) (suffix other : String) : List (RunRequest Unit) :=
  [ofUser (.constant (.always a)) suffix, ofUser (.constant (.always a)) other]

theorem answersAlways_ofUserTwice (a : ConflictAction) (suffix other : String) :
    ∀ r ∈ ofUserTwice a suffix other, r.AnswersAlways a := by
  simp [ofUserTwice, answersAlways_ofUser]

/-- The dry runs for two transfer objects with different names come to the same as the runs, and
what the second dry run reports as written is not there after the first run. -/
theorem dryRun_foresees_dtoAndView :
    (runAll (ofUserTwice .rename "Dto" "View") freshStore.dry ()).1.map (·.result) =
        (runAll (ofUserTwice .rename "Dto" "View") freshStore ()).1.map (·.result) ∧
      ∀ report,
        ((ofUser (.constant (.always .rename)) "View").runOn freshStore.dry ()).1 = .ok report →
          ∀ f ∈ report.written, f.id ∉ Store.existing
            (runAll [ofUser (.constant (.always .rename)) "Dto"] freshStore ()).2.1 := by
  have hsame : (runAll (ofUserTwice .rename "Dto" "View") freshStore.dry ()).1.map (·.result) =
      (runAll (ofUserTwice .rename "Dto" "View") freshStore ()).1.map (·.result) := by
    decide +kernel
  have hstatus : ∀ t ∈ (runAll (ofUserTwice .rename "Dto" "View") freshStore ()).1,
      t.result.map (·.status) = .ok .ok := by
    decide +kernel
  have hdry : ∀ r ∈ ofUserTwice .rename "Dto" "View",
      (r.runOn freshStore.dry ()).1.map (·.status) = .ok .ok := by
    decide +kernel
  have hforesees := dryRun_foresees_iff (answersAlways_ofUserTwice .rename "Dto" "View")
    FileNode.isDistinct_empty () (fun t ht => Transcript.not_fails_of_ok (hstatus t ht))
    fun _ r hr fault hfault => by
      have hok := hdry r hr
      rw [hfault] at hok
      cases hok
  refine ⟨hsame, fun report hreport => ?_⟩
  rcases hforesees.1 hsame [_] _ [] rfl with hwrite | hover | hnew
  · cases hwrite
  · exact absurd hover (by decide)
  · exact hnew report hreport

/-- **Not every dry run foresees the run itself.** For one transfer object twice, both dry runs
report it as written, but the second run skips it. -/
theorem exists_unforeseen_skip :
    ¬ ∀ (rs : List (RunRequest Unit)) (a : ConflictAction) (k : DirectoryStore),
      (∀ r ∈ rs, r.AnswersAlways a) → k.tree.root.IsDistinct → k.dryRun = false →
        (∀ t ∈ (runAll rs k ()).1, ¬ t.Fails) →
        (runAll rs k.dry ()).1.map (·.result) = (runAll rs k ()).1.map (·.result) := by
  intro h
  have hstatus : ∀ t ∈ (runAll (ofUserTwice .skip "Dto" "Dto") freshStore ()).1,
      t.result.map (·.status) = .ok .ok := by
    decide +kernel
  have hsame := h (ofUserTwice .skip "Dto" "Dto") .skip freshStore
    (answersAlways_ofUserTwice .skip "Dto" "Dto") FileNode.isDistinct_empty rfl
    fun t ht => Transcript.not_fails_of_ok (hstatus t ht)
  revert hsame
  decide +kernel

end RunRequest

end EntityScaffold
