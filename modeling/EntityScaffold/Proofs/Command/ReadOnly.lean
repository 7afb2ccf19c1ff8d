import EntityScaffold.Proofs.Command.Preview

/-!
# Programs that only read

A program may change the file tree in its last step only, where a run writes artifacts. All steps
before, and all commands without such a step, keep the tree whether they end well or not
(`Program.KeepsTree`).
-/

namespace EntityScaffold.Program

variable {α β : Type}

/-- After a program that ends early, nothing goes on. -/
theorem run_bind_of_error {x : Program α} {f : α → Program β} {halt : Halt} {d d' : Desk}
    (h : x.run.run d = (.error halt, d')) : (x >>= f).run.run d = (.error halt, d') := by
  have hx : StateT.run (ExceptT.run x) d = (.error halt, d') := h
  rw [ExceptT.run_bind, StateT.run_bind, hx]
  rfl

/-- The program leaves the file tree as it is, however it ends. -/
def KeepsTree (x : Program α) : Prop := ∀ d, (x.run.run d).2.tree = d.tree

/-! ### Steps -/

theorem keepsTree_pure (a : α) : KeepsTree (pure a : Program α) := fun _ => rfl

theorem keepsTree_throw (halt : Halt) : KeepsTree (throw halt : Program α) := fun _ => rfl

theorem keepsTree_complain (exitCode : Nat) (text : String) :
    KeepsTree (complain exitCode text : Program α) := keepsTree_throw _

theorem keepsTree_get : KeepsTree (get : Program Desk) := fun _ => rfl

theorem keepsTree_display (e : ConsoleEvent) : KeepsTree (display e) := fun _ => rfl

theorem keepsTree_orFault {ε : Type} (fault : ε → ProgramFault) (x : Except ε α) :
    KeepsTree (orFault fault x) := by
  cases x with
  | ok a => exact keepsTree_pure a
  | error e => exact keepsTree_throw _

/-- A program leaves a certain tree if each of its two parts does. -/
theorem tree_bind {x : Program α} {f : α → Program β} {d : Desk} {t : FileTree}
    (hx : (x.run.run d).2.tree = t)
    (hf : ∀ a d', x.run.run d = (.ok a, d') → d'.tree = t → ((f a).run.run d').2.tree = t) :
    ((x >>= f).run.run d).2.tree = t := by
  rcases hrun : x.run.run d with ⟨halt | a, d'⟩ <;> rw [hrun] at hx
  · rwa [run_bind_of_error hrun]
  · rw [run_bind_of_ok hrun]
    exact hf a d' hrun hx

theorem KeepsTree.bind {x : Program α} {f : α → Program β} (hx : x.KeepsTree)
    (hf : ∀ a, (f a).KeepsTree) : (x >>= f).KeepsTree := fun d =>
  tree_bind (hx d) fun a d' _ htree => (hf a d').trans htree

theorem keepsTree_mapM {f : α → Program β} (hf : ∀ a, (f a).KeepsTree) (l : List α) :
    KeepsTree (l.mapM f) := by
  induction l with
  | nil => exact keepsTree_pure []
  | cons a l ih =>
    rw [List.mapM_cons]
    exact (hf a).bind fun b => ih.bind fun bs => keepsTree_pure (b :: bs)

theorem keepsTree_foldlM {f : β → α → Program β} (hf : ∀ b a, (f b a).KeepsTree) (l : List α)
    (b : β) : KeepsTree (l.foldlM f b) := by
  induction l generalizing b with
  | nil => exact keepsTree_pure b
  | cons a l ih =>
    rw [List.foldlM_cons]
    exact (hf b a).bind ih

theorem keepsTree_forIn {f : α → PUnit → Program (ForInStep PUnit)}
    (hf : ∀ a u, (f a u).KeepsTree) (l : List α) :
    KeepsTree (forIn l PUnit.unit f) := by
  induction l with
  | nil => exact keepsTree_pure _
  | cons a l ih =>
    rw [List.forIn_cons]
    refine (hf a _).bind fun step => ?_
    cases step with
    | done u => exact keepsTree_pure u
    | yield u => exact ih

/-! ### Paths and settings -/

theorem keepsTree_files : KeepsTree files := keepsTree_get.bind fun d => keepsTree_pure d.tree

theorem keepsTree_expand (p : Path) : KeepsTree (expand p) := by
  unfold expand
  split
  · refine keepsTree_get.bind fun d => ?_
    split
    · exact keepsTree_pure _
    · exact keepsTree_throw _
    · exact keepsTree_pure p
  · exact keepsTree_pure p

theorem keepsTree_absolute (text : String) : KeepsTree (absolute text) :=
  (keepsTree_expand _).bind fun _ => keepsTree_files.bind fun _ => keepsTree_pure _

theorem keepsTree_projectRoot (text : String) : KeepsTree (projectRoot text) := by
  refine (keepsTree_absolute text).bind fun root => keepsTree_files.bind fun t =>
    (keepsTree_orFault _ _).bind fun there => keepsTree_files.bind fun t => ?_
  split
  · exact keepsTree_pure root
  · exact keepsTree_complain _ _

theorem keepsTree_sourceRoot (root : Path) (given : Option String) :
    KeepsTree (sourceRoot root given) := by
  have hstandard : KeepsTree (sourceRoot.standard root) :=
    keepsTree_files.bind fun _ => keepsTree_pure _
  unfold sourceRoot
  split
  · split
    · exact hstandard
    · exact keepsTree_absolute _
  · exact hstandard

theorem keepsTree_skip (p : Settings) (name : String) : KeepsTree (skip p name) := by
  unfold skip
  split
  · exact keepsTree_pure _
  · exact keepsTree_complain _ _

theorem keepsTree_readSettings (p : Path) : KeepsTree (readSettings p) := by
  refine keepsTree_files.bind fun t => ?_
  split
  · exact keepsTree_pure _
  · exact keepsTree_throw _
  · exact keepsTree_complain _ _

theorem keepsTree_settingsPath (root : Path) (given : Option String) :
    KeepsTree (settingsPath root given) := by
  unfold settingsPath
  split
  · exact keepsTree_pure _
  · exact keepsTree_pure _
  · refine (keepsTree_expand _).bind fun p => keepsTree_files.bind fun t =>
      (keepsTree_orFault _ _).bind fun there => ?_
    split
    · exact keepsTree_pure p
    · exact keepsTree_complain _ _

theorem keepsTree_settings (root : Path) (o : SettingsOptions) : KeepsTree (settings root o) :=
  (keepsTree_settingsPath root o.config).bind fun _ => (keepsTree_readSettings _).bind fun _ =>
    keepsTree_foldlM keepsTree_skip _ _

/-! ### Sources -/

theorem keepsTree_sources (root : Path) : KeepsTree (sources root) := by
  refine keepsTree_files.bind fun t => ?_
  split
  · refine (keepsTree_forIn (fun path u => ?_) _).bind fun _ => keepsTree_pure _
    exact (keepsTree_display _).bind fun _ => keepsTree_pure _
  · exact keepsTree_throw _
  · exact keepsTree_throw _

theorem keepsTree_classNamed (catalog : SourceCatalog) (name : String) :
    KeepsTree (classNamed catalog name) := by
  unfold classNamed
  split
  · exact keepsTree_pure _
  · exact keepsTree_complain _ _

theorem keepsTree_selection (catalog : SourceCatalog) (o : GenerateOptions) :
    KeepsTree (selection catalog o) := by
  unfold selection
  split
  · exact keepsTree_pure _
  · split
    · exact keepsTree_pure _
    · exact keepsTree_mapM (keepsTree_classNamed catalog) _

/-! ### Commands -/

theorem keepsTree_entities (root : String) : KeepsTree (entities root) := by
  refine (keepsTree_projectRoot root).bind fun root => (keepsTree_sources root).bind fun c => ?_
  split
  · exact (keepsTree_display _).bind fun _ => keepsTree_pure _
  · exact (keepsTree_display _).bind fun _ => keepsTree_pure _

theorem keepsTree_showArtifacts (p : Settings) (c : SourceClass) :
    KeepsTree (showArtifacts p c) := by
  unfold showArtifacts
  split
  · exact keepsTree_complain _ _
  · refine (keepsTree_orFault _ _).bind fun artifacts =>
      (keepsTree_forIn (fun a u => ?_) _).bind fun _ => keepsTree_pure _
    exact (keepsTree_display _).bind fun _ => (keepsTree_display _).bind fun _ =>
      keepsTree_pure _

theorem keepsTree_preview (root entity : String) (o : SettingsOptions) :
    KeepsTree (preview root entity o) :=
  (keepsTree_projectRoot root).bind fun root => (keepsTree_settings root o).bind fun p =>
    (keepsTree_sources root).bind fun catalog => (keepsTree_classNamed catalog entity).bind fun c =>
      keepsTree_showArtifacts p c

theorem keepsTree_features (root : String) (po : SettingsOptions)
    (format : Option SnippetFormat) : KeepsTree (features root po format) := by
  refine (keepsTree_projectRoot root).bind fun root => (keepsTree_settings root po).bind fun p =>
    keepsTree_files.bind fun t => (keepsTree_orFault _ _).bind fun build =>
      (keepsTree_display _).bind fun _ => ?_
  split
  · exact keepsTree_pure 0
  · exact (keepsTree_display _).bind fun _ => keepsTree_pure failure

end EntityScaffold.Program
