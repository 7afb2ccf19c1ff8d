import EntityScaffold.Proofs.Command.Refusal
import EntityScaffold.Proofs.Generation.DryRun
import EntityScaffold.Proofs.Source.Load

/-!
# Exit codes

Commands that only read keep the file tree. A generation ends with the exit code for unusable
requests exactly if it cannot be met, and then before anything is written; it ends with exit code 0
exactly if classes are selected and each of them has a run that ends well
(`Program.tree_and_exitCode_ofWords`).
-/

namespace EntityScaffold

/-- The request is for no command that writes. -/
def Request.onlyReads : Request → Bool
  | .generate _ _ o => o.dryRun
  | _ => true

namespace Program

variable {root : String} {po : SettingsOptions} {o : GenerateOptions}
  {build : BuildFile} {p : Settings} {k : DirectoryStore} {c : SourceClass} {code : Nat}
  {d d' : Desk}

/-! ### Runs for one class -/

/-- A report is shown to the end, and adds an exit code unless the run ended well. -/
theorem run_showReport (r : RunReport) (d : Desk) :
    r.status = .ok ∧ (showReport r).run.run d = (.ok 0, d) ∨
      r.status ≠ .ok ∧
        ∃ s, (showReport r).run.run d = (.ok failure, { d with session := s }) := by
  rcases r with ⟨_ | _ | _ | _, written, skipped, defects, concerns, missing, _ | f⟩
  case ok.none | ok.some => exact .inl ⟨rfl, rfl⟩
  all_goals exact .inr ⟨nofun, _, rfl⟩

theorem not_complains_showReport {r : RunReport} : ¬ (showReport r).Complains code d := by
  obtain ⟨-, hrun⟩ | ⟨-, s, hrun⟩ := run_showReport r d <;> exact not_complains_of_run_eq_ok hrun

theorem keepsTree_showReport (r : RunReport) : KeepsTree (showReport r) := by
  intro d
  obtain ⟨-, hrun⟩ | ⟨-, s, hrun⟩ := run_showReport r d <;> rw [hrun]

/-- What a program makes of the end of a run. -/
def ofRunEnd (x : Except RunFault RunReport × DirectoryStore × Session) :
    Program (RunReport × DirectoryStore) := do
  if x.2.2.ended then throw (.fault .endOfInput)
  match x.1 with
  | .ok report => return (report, x.2.1)
  | .error (.braces e) => throw (.fault (.braces e))
  | .error (.template e) => throw (.fault (.template e))
  | .error e => complain failure e.message

/-- A run for one class leaves the store and the session as the run itself does. -/
theorem run_generateOne (c : SourceClass) (d : Desk) :
    (generateOne o build p k c).run.run d =
      (ofRunEnd ((RunRequest.ofProgram o build k p c).runOn k d.session)).run.run
        { d with
          tree := ((RunRequest.ofProgram o build k p c).runOn k d.session).2.1.tree
          session := ((RunRequest.ofProgram o build k p c).runOn k d.session).2.2 } := rfl

/-- A run for one class ends with its report, unless somebody was asked in vain, or it ends early,
with no complaint but one of failure. -/
theorem ofRunEnd_cases (x : Except RunFault RunReport × DirectoryStore × Session) :
    (∃ report k' s, x = (.ok report, k', s) ∧ s.ended = false ∧
        ofRunEnd x = pure (report, k')) ∨
      (∀ report k' s, x = (.ok report, k', s) → s.ended = true) ∧
        ∃ halt, (∀ code text, halt = .complaint code text → code = failure) ∧
          ofRunEnd x = throw halt := by
  obtain ⟨result, k', s⟩ := x
  rcases hended : s.ended with _ | _
  · rcases result with (_ | _ | _ | _) | report
    case ok => exact .inl ⟨report, k', s, rfl, hended, by simp only [ofRunEnd, hended]; rfl⟩
    all_goals
      refine .inr ⟨nofun, ?_⟩
      simp only [ofRunEnd, hended]
      exact ⟨_, fun code text h => by cases h <;> rfl, rfl⟩
  · refine .inr ⟨?_, .fault .endOfInput, nofun, ?_⟩
    · rintro _ _ _ ⟨⟩
      exact hended
    · simp only [ofRunEnd, hended]
      rfl

theorem run_generateOne_eq_ok_iff {report : RunReport} {k' : DirectoryStore} :
    (generateOne o build p k c).run.run d = (.ok (report, k'), d') ↔
      ∃ s, (RunRequest.ofProgram o build k p c).runOn k d.session = (.ok report, k', s) ∧
        s.ended = false ∧ d' = { d with tree := k'.tree, session := s } := by
  rw [run_generateOne]
  generalize (RunRequest.ofProgram o build k p c).runOn k d.session = x
  obtain ⟨report', k₁, s, rfl, hended, hrun⟩ | ⟨hended, halt, -, hrun⟩ := ofRunEnd_cases x <;>
    rw [hrun]
  · constructor
    · rintro ⟨⟩
      exact ⟨s, rfl, hended, rfl⟩
    · rintro ⟨_, ⟨⟩, -, rfl⟩
      rfl
  · constructor
    · rintro ⟨⟩
    · rintro ⟨s, hx, hs, -⟩
      rw [hended report k' s hx] at hs
      cases hs

theorem eq_failure_of_complains_generateOne (h : (generateOne o build p k c).Complains code d) :
    code = failure := by
  obtain ⟨text, d', h⟩ := h
  rw [run_generateOne] at h
  obtain ⟨_, _, _, -, -, hrun⟩ | ⟨-, halt, hhalt, hrun⟩ := ofRunEnd_cases
    ((RunRequest.ofProgram o build k p c).runOn k d.session) <;> rw [hrun] at h <;> cases h
  exact hhalt code text rfl

theorem tree_generateOne (c : SourceClass) (d : Desk) :
    ((generateOne o build p k c).run.run d).2.tree =
      ((RunRequest.ofProgram o build k p c).runOn k d.session).2.1.tree := by
  rw [run_generateOne]
  obtain ⟨_, _, _, -, -, hrun⟩ | ⟨-, halt, -, hrun⟩ := ofRunEnd_cases
    ((RunRequest.ofProgram o build k p c).runOn k d.session) <;> rw [hrun] <;> rfl

/-! ### Runs for classes, one after the other -/

/-- Each class has a run that ends well, on the store that the runs before it leave. -/
inductive RunsWell (o : GenerateOptions) (build : BuildFile) (p : Settings) :
    DirectoryStore → Session → List SourceClass → Prop
  | nil (k : DirectoryStore) (s : Session) : RunsWell o build p k s []
  | cons {k k' : DirectoryStore} {s s' : Session} {c : SourceClass} {rest : List SourceClass}
      {report : RunReport} :
      (RunRequest.ofProgram o build k p c).runOn k (s.shown (.say "")) = (.ok report, k', s') →
        s'.ended = false → report.status = .ok → RunsWell o build p k' s' rest →
        RunsWell o build p k s (c :: rest)

theorem generateEach_cons (k : DirectoryStore) (c : SourceClass) (rest : List SourceClass) :
    generateEach o build p k (c :: rest) = (do
      say ""
      let first ← generateOne o build p k c
      let code ← showReport first.1
      let later ← generateEach o build p first.2 rest
      return (first.1.written.length + later.1, max code later.2)) := rfl

theorem eq_failure_of_complains_generateEach {classes : List SourceClass}
    (h : (generateEach o build p k classes).Complains code d) : code = failure := by
  induction classes generalizing k d with
  | nil => exact (not_complains_pure _ h).elim
  | cons c rest ih =>
    rw [generateEach_cons] at h
    refine of_complains_bind (fun _ h => (not_complains_display _ h).elim) (fun _ _ => ?_) h
    refine of_complains_bind (fun _ => eq_failure_of_complains_generateOne) fun _ _ => ?_
    refine of_complains_bind (fun _ h => (not_complains_showReport h).elim) fun _ _ => ?_
    exact of_complains_bind (fun _ => ih) fun _ _ h => (not_complains_pure _ h).elim

theorem exitCode_generateEach_le {classes : List SourceClass} {total code : Nat}
    (h : (generateEach o build p k classes).run.run d = (.ok (total, code), d')) :
    code ≤ failure := by
  induction classes generalizing k d total code with
  | nil =>
    cases h
    exact Nat.zero_le _
  | cons c rest ih =>
    simp only [generateEach_cons, run_bind_eq_ok_iff] at h
    obtain ⟨_, _, -, ⟨report, k'⟩, d₂, -, code', d₃, hcode, ⟨total', code''⟩, d₄, hrest, ⟨⟩⟩ := h
    refine Nat.max_le.2 ⟨?_, ih hrest⟩
    obtain ⟨-, hrun⟩ | ⟨-, s, hrun⟩ := run_showReport report d₂ <;> rw [hrun] at hcode <;>
      cases hcode <;> decide

theorem runsWell_iff (classes : List SourceClass) :
    (∃ total d', (generateEach o build p k classes).run.run d = (.ok (total, 0), d')) ↔
      RunsWell o build p k d.session classes := by
  induction classes generalizing k d with
  | nil => exact iff_of_true ⟨0, d, rfl⟩ (.nil k d.session)
  | cons c rest ih =>
    simp only [generateEach_cons, run_bind_eq_ok_iff]
    constructor
    · rintro ⟨total, d', _, _, ⟨⟩, ⟨report, k'⟩, d₂, hone, code, d₃, hcode, ⟨later, code'⟩, d₄,
        hrest, hend⟩
      have hmax : max code code' = 0 :=
        congrArg Prod.snd (Except.ok.inj (congrArg Prod.fst hend))
      obtain ⟨rfl, rfl⟩ : code = 0 ∧ code' = 0 := by omega
      obtain ⟨s, hrun, hended, rfl⟩ := run_generateOne_eq_ok_iff.1 hone
      obtain ⟨hok, hshown⟩ | ⟨-, s', hshown⟩ := run_showReport report _ <;>
        cases hshown.symm.trans hcode
      exact .cons hrun hended hok (ih.1 ⟨later, d₄, hrest⟩)
    · rintro (_ | @⟨_, k', _, s', _, _, report, hrun, hended, hok, hrest⟩)
      obtain ⟨later, d₄, hlater⟩ := ih (d := { d with tree := k'.tree, session := s' }) |>.2 hrest
      obtain ⟨-, hshown⟩ | ⟨hfailed, -⟩ :=
        run_showReport report { d with tree := k'.tree, session := s' }
      · exact ⟨_, d₄, _, _, rfl, (report, k'), _, run_generateOne_eq_ok_iff.2
          ⟨s', hrun, hended, rfl⟩, 0, _, hshown, (later, 0), d₄, hlater, rfl⟩
      · exact absurd hok hfailed

/-- **Dry runs keep the tree**, whatever they come to. -/
theorem tree_generateEach_of_dryRun {t : FileTree} (hdry : k.dryRun = true) (hk : k.tree = t)
    (hd : d.tree = t) (classes : List SourceClass) :
    ((generateEach o build p k classes).run.run d).2.tree = t := by
  induction classes generalizing k d with
  | nil => exact hd
  | cons c rest ih =>
    rw [generateEach_cons]
    refine tree_bind ((keepsTree_display _ d).trans hd) fun _ d₁ _ _ => ?_
    -- the run writes nothing, so the store after it is the store before
    obtain ⟨hdry', htree, -⟩ := DirectoryStore.same_of_dryRun hdry
      ((RunRequest.ofProgram o build k p c).reaches_runOn k d₁.session)
    refine tree_bind ((tree_generateOne c d₁).trans (htree.trans hk)) fun first d₂ h₂ hd₂ => ?_
    obtain ⟨s, hrun, -, -⟩ := run_generateOne_eq_ok_iff.1 h₂
    rw [hrun] at hdry' htree
    refine tree_bind ((keepsTree_showReport first.1 d₂).trans hd₂) fun code d₃ _ hd₃ => ?_
    exact tree_bind (ih hdry' (htree.trans hk) hd₃) fun later d₄ _ hd₄ => hd₄

/-! ### Generations -/

/-- The build file and the store for runs in a project. -/
def prepared (o : GenerateOptions) (root : Path) (classes : List SourceClass) :
    Program (BuildFile × DirectoryStore) := do
  let build ← orFault .unreadable (BuildFile.ofProject (← files) root)
  let target ← sourceRoot root o.sourceRoot
  say ("\nSource root: " ++ target.toString)
  say ("Selected entities: " ++ Text.join ", " (classes.map (·.name)))
  return (build, { tree := ← files, root := target, dryRun := o.dryRun })

/-- Shows the end of all runs. Gives the exit code. -/
def showEnd (o : GenerateOptions) (total code : Nat) : Program Nat := do
  if code = 0 then tell (.finished total)
  if o.dryRun then say "[dim]Dry run: nothing was written.[/]"
  return code

/-- Generates and writes the artifacts of classes. -/
def generated (o : GenerateOptions) (root : Path) (p : Settings) (classes : List SourceClass) :
    Program Nat :=
  if classes.isEmpty then do
    log .warning "Nothing selected."
    return failure
  else do
    let x ← prepared o root classes
    let counts ← generateEach o x.1 p x.2 classes
    showEnd o counts.1 counts.2

theorem generate_eq (root : String) (po : SettingsOptions) (o : GenerateOptions) :
    generate root po o = selected root po o >>= fun x => generated o x.1 x.2.1 x.2.2 := by
  simp [generate, selected, generated, prepared, showEnd]

theorem run_showEnd (o : GenerateOptions) (total code : Nat) (d : Desk) :
    ∃ s, (showEnd o total code).run.run d = (.ok code, { d with session := s }) := by
  unfold showEnd
  by_cases hcode : code = 0 <;> rcases hdry : o.dryRun with _ | _ <;> simp only [hcode] <;>
    exact ⟨_, rfl⟩

theorem not_complains_prepared {root : Path} {classes : List SourceClass} :
    ¬ (prepared o root classes).Complains code d :=
  of_complains_bind (fun _ => not_complains_files) fun _ _ =>
    of_complains_bind (fun _ => not_complains_orFault _ _) fun _ _ =>
      of_complains_bind (fun _ => not_complains_sourceRoot) fun _ _ =>
        of_complains_bind (fun _ => not_complains_display _) fun _ _ =>
          of_complains_bind (fun _ => not_complains_display _) fun _ _ =>
            of_complains_bind (fun _ => not_complains_files) fun _ _ => not_complains_pure _

theorem keepsTree_prepared (o : GenerateOptions) (root : Path) (classes : List SourceClass) :
    KeepsTree (prepared o root classes) :=
  keepsTree_files.bind fun _ => (keepsTree_orFault _ _).bind fun _ =>
    (keepsTree_sourceRoot root o.sourceRoot).bind fun _ => (keepsTree_display _).bind fun _ =>
      (keepsTree_display _).bind fun _ => keepsTree_files.bind fun _ => keepsTree_pure _

/-- The runs work on the tree that is there, and are dry if that is asked for. -/
theorem store_of_run_prepared {root : Path} {classes : List SourceClass}
    (h : (prepared o root classes).run.run d = (.ok (build, k), d')) :
    k.tree = d'.tree ∧ k.dryRun = o.dryRun := by
  simp only [prepared, run_bind_eq_ok_iff, run_files_eq_ok_iff] at h
  obtain ⟨_, _, -, _, _, -, _, _, -, _, _, -, _, d₅, -, _, _, ⟨rfl, rfl⟩, ⟨⟩⟩ := h
  exact ⟨rfl, rfl⟩

theorem not_complains_showEnd {total code' : Nat} :
    ¬ (showEnd o total code').Complains code d :=
  (run_showEnd o total code' d).elim fun _ hrun => not_complains_of_run_eq_ok hrun

theorem eq_failure_of_complains_generated {root : Path} {classes : List SourceClass}
    (h : (generated o root p classes).Complains code d) : code = failure := by
  revert h
  unfold generated
  split
  · exact of_complains_bind (fun _ h => (not_complains_display _ h).elim) fun _ _ h =>
      (not_complains_pure _ h).elim
  · refine of_complains_bind (fun _ h => (not_complains_prepared h).elim) fun _ _ => ?_
    exact of_complains_bind (fun _ => eq_failure_of_complains_generateEach) fun _ _ h =>
      (not_complains_showEnd h).elim

/-- A generation for classes has the exit code of their runs. -/
theorem run_generated_eq_ok_iff {root : Path} {classes : List SourceClass} :
    (∃ d', (generated o root p classes).run.run d = (.ok code, d')) ↔
      classes = [] ∧ code = failure ∨
        classes ≠ [] ∧ ∃ build k d₁ total d₂,
          (prepared o root classes).run.run d = (.ok (build, k), d₁) ∧
            (generateEach o build p k classes).run.run d₁ = (.ok (total, code), d₂) := by
  cases classes with
  | nil =>
    constructor
    · rintro ⟨d', ⟨⟩⟩
      exact .inl ⟨rfl, rfl⟩
    · rintro (⟨-, rfl⟩ | ⟨hne, -⟩)
      · exact ⟨_, rfl⟩
      · exact absurd rfl hne
  | cons c rest =>
    simp only [generated, List.isEmpty_cons, Bool.false_eq_true, if_false, run_bind_eq_ok_iff]
    constructor
    · rintro ⟨d', ⟨build, k⟩, d₁, hprepared, ⟨total, code'⟩, d₂, heach, hend⟩
      obtain ⟨s, hrun⟩ := run_showEnd o total code' d₂
      cases hrun.symm.trans hend
      exact .inr ⟨List.cons_ne_nil c rest, build, k, d₁, total, d₂, hprepared, heach⟩
    · rintro (⟨⟨⟩, -⟩ | ⟨-, build, k, d₁, total, d₂, hprepared, heach⟩)
      obtain ⟨s, hrun⟩ := run_showEnd o total code d₂
      exact ⟨_, (build, k), d₁, hprepared, (total, code), d₂, heach, hrun⟩

theorem keepsTree_showEnd (o : GenerateOptions) (total code : Nat) :
    KeepsTree (showEnd o total code) := by
  intro d
  obtain ⟨s, hrun⟩ := run_showEnd o total code d
  rw [hrun]

theorem keepsTree_generated (hdry : o.dryRun = true) (root : Path) (p : Settings)
    (classes : List SourceClass) : KeepsTree (generated o root p classes) := by
  unfold generated
  split
  · exact (keepsTree_display _).bind fun _ => keepsTree_pure _
  · intro d
    refine tree_bind (keepsTree_prepared o root classes d) fun ⟨build, k⟩ d₁ hprepared htree => ?_
    obtain ⟨hk, hkdry⟩ := store_of_run_prepared hprepared
    refine tree_bind (tree_generateEach_of_dryRun (hkdry.trans hdry) (hk.trans htree) htree
      classes) fun counts d₂ _ htree₂ => ?_
    exact (keepsTree_showEnd o counts.1 counts.2 d₂).trans htree₂

/-- All that a generation is asked for is done: classes are selected, and each of them has a run
that ends well. -/
inductive EndsWell (root : String) (po : SettingsOptions) (o : GenerateOptions) (d : Desk) : Prop
  | intro {r : Path} {p : Settings} {classes : List SourceClass} {build : BuildFile}
      {k : DirectoryStore} {d₁ d₂ : Desk} :
      (selected root po o).run.run d = (.ok (r, p, classes), d₁) → classes ≠ [] →
        (prepared o r classes).run.run d₁ = (.ok (build, k), d₂) →
        RunsWell o build p k d₂.session classes → EndsWell root po o d

theorem complains_generate (h : (generate root po o).Complains code d) :
    code = unusable ∧ CannotMeet root po o d ∨ code = failure := by
  rw [generate_eq, complains_bind_iff, complains_selected_iff] at h
  obtain hselected | ⟨x, d₁, -, hgenerated⟩ := h
  · exact .inl hselected
  · exact .inr (eq_failure_of_complains_generated hgenerated)

theorem exitCode_generate_le (h : (generate root po o).run.run d = (.ok code, d')) :
    code ≤ failure := by
  rw [generate_eq, run_bind_eq_ok_iff] at h
  obtain ⟨⟨r, p, classes⟩, d₁, -, hgenerated⟩ := h
  obtain ⟨-, rfl⟩ | ⟨-, build, k, d₂, total, d₃, -, heach⟩ :=
    run_generated_eq_ok_iff.1 ⟨d', hgenerated⟩
  · exact Nat.le_refl _
  · exact exitCode_generateEach_le heach

theorem run_generate_eq_ok_zero_iff :
    (∃ d', (generate root po o).run.run d = (.ok 0, d')) ↔ EndsWell root po o d := by
  rw [generate_eq]
  simp only [run_bind_eq_ok_iff]
  constructor
  · rintro ⟨d', ⟨r, p, classes⟩, d₁, hselected, hgenerated⟩
    obtain ⟨-, h⟩ | ⟨hne, build, k, d₂, total, d₃, hprepared, heach⟩ :=
      run_generated_eq_ok_iff.1 ⟨d', hgenerated⟩
    · cases h
    · exact .intro hselected hne hprepared ((runsWell_iff classes).1 ⟨total, d₃, heach⟩)
  · rintro ⟨hselected, hne, hprepared, hwell⟩
    obtain ⟨total, d₃, heach⟩ := (runsWell_iff _).2 hwell
    obtain ⟨d', hgenerated⟩ := run_generated_eq_ok_iff.2
      (.inr ⟨hne, _, _, _, total, d₃, hprepared, heach⟩)
    exact ⟨d', _, _, hselected, hgenerated⟩

theorem keepsTree_generate (hdry : o.dryRun = true) (root : String) (po : SettingsOptions) :
    KeepsTree (generate root po o) := by
  rw [generate_eq]
  exact (keepsTree_selected root po o).bind fun x => keepsTree_generated hdry x.1 x.2.1 x.2.2

/-! ### Command lines -/

theorem exitCode_finish_iff {x : Program Nat} :
    (x.finish d).1 = .finished code ↔
      (∃ d', x.run.run d = (.ok code, d')) ∨ x.Complains code d := by
  unfold finish Complains
  rcases x.run.run d with ⟨(⟨code', text⟩ | fault) | code', d'⟩
  · constructor
    · rintro ⟨⟩
      exact .inr ⟨text, d', rfl⟩
    · rintro (⟨_, ⟨⟩⟩ | ⟨_, _, ⟨⟩⟩)
      rfl
  · constructor
    · rintro ⟨⟩
    · rintro (⟨_, ⟨⟩⟩ | ⟨_, _, ⟨⟩⟩)
  · constructor
    · rintro ⟨⟩
      exact .inl ⟨d', rfl⟩
    · rintro (⟨_, ⟨⟩⟩ | ⟨_, _, ⟨⟩⟩)
      rfl

theorem tree_finish (x : Program Nat) (d : Desk) : (x.finish d).2.tree = (x.run.run d).2.tree := by
  unfold finish
  rcases x.run.run d with ⟨(⟨code, text⟩ | fault) | code, d'⟩ <;> rfl

theorem finish_generate_unusable_iff :
    ((generate root po o).finish d).1 = .finished unusable ↔ CannotMeet root po o d := by
  rw [exitCode_finish_iff]
  constructor
  · rintro (⟨d', h⟩ | h)
    · exact absurd (exitCode_generate_le h) (by decide)
    · obtain ⟨-, hcannot⟩ | hcode := complains_generate h
      · exact hcannot
      · cases hcode
  · intro hcannot
    rw [generate_eq]
    exact .inr (complains_bind_iff.2 (.inl (complains_selected_iff.2 ⟨rfl, hcannot⟩)))

theorem tree_generate_of_cannotMeet (h : CannotMeet root po o d) :
    ((generate root po o).run.run d).2.tree = d.tree := by
  obtain ⟨text, d', hselected⟩ := complains_selected_iff.2 ⟨rfl, h⟩
  have htree := keepsTree_selected root po o d
  rw [generate_eq, run_bind_of_error hselected]
  rwa [hselected] at htree

theorem finish_generate_zero_iff :
    ((generate root po o).finish d).1 = .finished 0 ↔ EndsWell root po o d := by
  rw [exitCode_finish_iff, run_generate_eq_ok_zero_iff]
  refine or_iff_left fun h => ?_
  obtain ⟨hcode, -⟩ | hcode := complains_generate h <;> cases hcode

theorem keepsTree_ofRequest {request : Request} (h : request.onlyReads = true) :
    KeepsTree (ofRequest request) := by
  cases request with
  | entities root => exact keepsTree_entities root
  | preview root entity o => exact keepsTree_preview root entity o
  | generate root po o => exact keepsTree_generate h root po
  | features root po format => exact keepsTree_features root po format

/-- **Exit codes can be relied on, and commands that read only read.** Take a command line that is
accepted. If it lists, previews, reports features or is a dry run, the file tree stays as it is,
however the command ends. If it generates:

* it ends with the exit code for unusable requests exactly if the request cannot be met, and then
  the file tree stays as it is;
* it ends with exit code 0 exactly if there are classes that are selected and each of them has a
  run that ends well. -/
theorem tree_and_exitCode_ofWords {words : List String} {request : Request}
    (h : Request.ofWords words = .ok request) (d : Desk) :
    (request.onlyReads = true → (ofWords words d).2.tree = d.tree) ∧
      ∀ root po o, request = .generate root po o →
        ((ofWords words d).1 = .finished unusable ↔ CannotMeet root po o d) ∧
        ((ofWords words d).1 = .finished unusable → (ofWords words d).2.tree = d.tree) ∧
        ((ofWords words d).1 = .finished 0 ↔ EndsWell root po o d) := by
  have hwords : ofWords words d = (ofRequest request).finish d := by rw [ofWords, h]
  rw [hwords]
  constructor
  · intro hreads
    exact (tree_finish _ d).trans (keepsTree_ofRequest hreads d)
  · rintro root po o rfl
    refine ⟨finish_generate_unusable_iff, fun hunusable => ?_, finish_generate_zero_iff⟩
    exact (tree_finish _ d).trans
      (tree_generate_of_cannotMeet (finish_generate_unusable_iff.1 hunusable))

/-- Settings with repositories only. -/
def repositoriesOnly : SettingsOptions where
  config := none
  basePackage := none
  apiPrefix := none
  noLombok := false
  noQueryMethods := false
  skip := "dto,mapper,service,controller"
  overwrite := false

/-- A generation for classes with certain names that asks nobody. -/
def generationFor (names : String) : GenerateOptions where
  entities := names
  all := false
  sourceRoot := none
  onConflict := none
  yes := true
  dryRun := false

/-- The command line for it. -/
def wordsFor (names : String) : List String :=
  ["generate", "--root", "/", "--entities", names, "--yes", "--skip",
    "dto,mapper,service,controller"]

/-- A project with a user in it. -/
def userDesk : Desk where
  tree := SourceCatalog.sourceTree
    [("User.java",
      "import jakarta.persistence.*; @Entity class User \x7b @Id Long id; \x7d")]
  session := { lines := [] }

/-- The generation for a user is done as a whole, and that for a user and an order cannot be met and
leaves no trace. -/
theorem tree_and_exitCode_userDesk :
    Request.ofWords (wordsFor "User") =
        .ok (.generate "/" repositoriesOnly (generationFor "User")) ∧
      EndsWell "/" repositoriesOnly (generationFor "User") userDesk ∧
      Request.ofWords (wordsFor "User,Order") =
        .ok (.generate "/" repositoriesOnly (generationFor "User,Order")) ∧
      CannotMeet "/" repositoriesOnly (generationFor "User,Order") userDesk ∧
      (ofWords (wordsFor "User,Order") userDesk).2.tree = userDesk.tree := by
  have huser : Request.ofWords (wordsFor "User") =
      .ok (.generate "/" repositoriesOnly (generationFor "User")) := by
    decide +kernel
  have horder : Request.ofWords (wordsFor "User,Order") =
      .ok (.generate "/" repositoriesOnly (generationFor "User,Order")) := by
    decide +kernel
  have hzero : (ofWords (wordsFor "User") userDesk).1 = .finished 0 := by decide +kernel
  have hunusable : (ofWords (wordsFor "User,Order") userDesk).1 = .finished unusable := by
    decide +kernel
  obtain ⟨-, -, hwell⟩ := (tree_and_exitCode_ofWords huser userDesk).2 _ _ _ rfl
  obtain ⟨hcannot, htree, -⟩ := (tree_and_exitCode_ofWords horder userDesk).2 _ _ _ rfl
  exact ⟨huser, hwell.1 hzero, horder, hcannot.1 hunusable, htree hunusable⟩

end Program

end EntityScaffold
