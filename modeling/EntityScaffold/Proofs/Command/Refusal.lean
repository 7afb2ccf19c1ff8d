import EntityScaffold.Proofs.Command.ReadOnly

/-!
# Requests that cannot be met

A generation is refused before its first run or not at all. It is refused exactly if its root is no
directory, if its settings are missing or unusable, if a layer to skip is unknown, or if one of the
entities that it names is (`Program.complains_selected_iff`).
-/

namespace EntityScaffold.Program

variable {α β : Type} {code : Nat} {d d' : Desk}

/-- The program ends with a complaint that has the exit code. -/
def Complains (x : Program α) (code : Nat) (d : Desk) : Prop :=
  ∃ text d', x.run.run d = (.error (.complaint code text), d')

/-! ### Steps -/

theorem run_bind_eq_ok_iff {x : Program α} {f : α → Program β} {b : β} :
    (x >>= f).run.run d = (.ok b, d') ↔
      ∃ a d₁, x.run.run d = (.ok a, d₁) ∧ (f a).run.run d₁ = (.ok b, d') := by
  rcases hx : x.run.run d with ⟨halt | a, d₁⟩
  · rw [run_bind_of_error hx]
    constructor
    · intro h
      cases h
    · rintro ⟨_, _, ⟨⟩, -⟩
  · rw [run_bind_of_ok hx]
    constructor
    · exact fun h => ⟨a, d₁, rfl, h⟩
    · rintro ⟨_, _, ⟨⟩, h⟩
      exact h

theorem complains_bind_iff {x : Program α} {f : α → Program β} :
    (x >>= f).Complains code d ↔
      x.Complains code d ∨ ∃ a d₁, x.run.run d = (.ok a, d₁) ∧ (f a).Complains code d₁ := by
  unfold Complains
  rcases hx : x.run.run d with ⟨halt | a, d₁⟩
  · rw [run_bind_of_error hx]
    constructor
    · rintro ⟨text, _, ⟨⟩⟩
      exact .inl ⟨text, _, rfl⟩
    · rintro (⟨text, _, ⟨⟩⟩ | ⟨_, _, ⟨⟩, -⟩)
      exact ⟨text, _, rfl⟩
  · rw [run_bind_of_ok hx]
    constructor
    · exact fun h => .inr ⟨a, d₁, rfl, h⟩
    · rintro (⟨_, _, ⟨⟩⟩ | ⟨_, _, ⟨⟩, h⟩)
      exact h

/-- A program that comes to its end has no complaint. -/
theorem not_complains_of_run_eq_ok {x : Program α} {a : α} (h : x.run.run d = (.ok a, d')) :
    ¬ x.Complains code d := by
  rintro ⟨_, _, hcomplains⟩
  cases h.symm.trans hcomplains

theorem not_complains_pure (a : α) : ¬ (pure a : Program α).Complains code d :=
  not_complains_of_run_eq_ok (a := a) rfl

theorem not_complains_fault (fault : ProgramFault) :
    ¬ (throw (.fault fault) : Program α).Complains code d := by
  rintro ⟨_, _, h⟩
  cases h

theorem not_complains_get : ¬ (get : Program Desk).Complains code d := not_complains_pure d

theorem not_complains_display (e : ConsoleEvent) : ¬ (display e).Complains code d :=
  not_complains_of_run_eq_ok (a := ()) rfl

theorem not_complains_orFault {ε : Type} (fault : ε → ProgramFault) (x : Except ε α) :
    ¬ (orFault fault x).Complains code d := by
  cases x with
  | ok a => exact not_complains_pure a
  | error e => exact not_complains_fault _

theorem complains_complain_iff {exitCode : Nat} {text : String} :
    (complain exitCode text : Program α).Complains code d ↔ code = exitCode := by
  constructor
  · rintro ⟨_, _, h⟩
    cases h
    rfl
  · rintro rfl
    exact ⟨text, d, rfl⟩

theorem complains_check_iff {b : Bool} {a : α} {exitCode : Nat} {text : String} :
    (if b then pure a else complain exitCode text : Program α).Complains code d ↔
      code = exitCode ∧ b = false := by
  cases b <;> simp [complains_complain_iff, not_complains_pure]

/-- What holds if a part of a program complains holds if the program does. -/
theorem of_complains_bind {x : Program α} {f : α → Program β} {P : Prop}
    (hx : ∀ d, x.Complains code d → P) (hf : ∀ a d, (f a).Complains code d → P)
    (h : (x >>= f).Complains code d) : P := by
  obtain hfirst | ⟨a, d₁, -, hrest⟩ := complains_bind_iff.1 h
  · exact hx d hfirst
  · exact hf a d₁ hrest

theorem run_orFault_eq_ok_iff {ε : Type} {fault : ε → ProgramFault} {x : Except ε α} {a : α} :
    (orFault fault x).run.run d = (.ok a, d') ↔ x = .ok a ∧ d' = d := by
  cases x with
  | ok b =>
    constructor
    · rintro ⟨⟩
      exact ⟨rfl, rfl⟩
    · rintro ⟨⟨⟩, rfl⟩
      rfl
  | error e =>
    constructor
    · rintro ⟨⟩
    · rintro ⟨⟨⟩, -⟩

theorem not_complains_files : ¬ files.Complains code d :=
  not_complains_of_run_eq_ok (a := d.tree) rfl

theorem run_files_eq_ok_iff {t : FileTree} :
    files.run.run d = (.ok t, d') ↔ t = d.tree ∧ d' = d := by
  constructor
  · rintro ⟨⟩
    exact ⟨rfl, rfl⟩
  · rintro ⟨rfl, rfl⟩
    rfl

/-- After a step that keeps the desk, the rest of the program decides. -/
theorem complains_bind_of_ok {x : Program α} {f : α → Program β} {a : α}
    (h : x.run.run d = (.ok a, d)) : (x >>= f).Complains code d ↔ (f a).Complains code d := by
  unfold Complains
  rw [run_bind_of_ok h]

theorem complains_complain_bind_iff {exitCode : Nat} {text : String} {f : α → Program β} :
    (complain exitCode text >>= f).Complains code d ↔ code = exitCode :=
  complains_complain_iff

/-- A fold over elements, of which some are unknown, complains if there is one of them. -/
theorem complains_foldlM_iff {f : β → α → Program β} (exitCode : Nat) (Known : α → Prop)
    (hknown : ∀ a, Known a → ∀ b d, ∃ b', (f b a).run.run d = (.ok b', d))
    (hunknown : ∀ a, ¬ Known a → ∀ b, ∃ text, f b a = complain exitCode text) (l : List α) (b : β) :
    (l.foldlM f b).Complains code d ↔ code = exitCode ∧ ∃ a ∈ l, ¬ Known a := by
  induction l generalizing b with
  | nil => simp [not_complains_pure]
  | cons a l ih =>
    simp only [List.foldlM_cons, List.mem_cons, or_and_right, exists_or, exists_eq_left]
    by_cases ha : Known a
    · obtain ⟨b', hb'⟩ := hknown a ha b d
      rw [complains_bind_of_ok hb', ih, or_iff_right (not_not_intro ha)]
    · obtain ⟨text, htext⟩ := hunknown a ha b
      rw [htext, complains_complain_bind_iff]
      exact (and_iff_left (.inl ha)).symm

/-- A map over elements, of which some are unknown, complains if there is one of them. -/
theorem complains_mapM_iff {f : α → Program β} (exitCode : Nat) (Known : α → Prop)
    (hknown : ∀ a, Known a → ∀ d, ∃ b, (f a).run.run d = (.ok b, d))
    (hunknown : ∀ a, ¬ Known a → ∃ text, f a = complain exitCode text) (l : List α) :
    (l.mapM f).Complains code d ↔ code = exitCode ∧ ∃ a ∈ l, ¬ Known a := by
  induction l with
  | nil => simp [not_complains_pure]
  | cons a l ih =>
    simp only [List.mapM_cons, List.mem_cons, or_and_right, exists_or, exists_eq_left]
    by_cases ha : Known a
    · obtain ⟨b, hb⟩ := hknown a ha d
      rw [complains_bind_of_ok hb, complains_bind_iff, ih, or_iff_right (not_not_intro ha)]
      exact or_iff_left fun ⟨bs, d₁, _, h⟩ => not_complains_pure _ h
    · obtain ⟨text, htext⟩ := hunknown a ha
      rw [htext, complains_complain_bind_iff]
      exact (and_iff_left (.inl ha)).symm

/-! ### Paths and settings -/

theorem not_complains_expand (p : Path) : ¬ (expand p).Complains code d := by
  unfold expand
  split
  · refine of_complains_bind (fun _ => not_complains_get) fun d _ => ?_
    split
    · exact not_complains_pure _
    · exact not_complains_fault _
    · exact not_complains_pure p
  · exact not_complains_pure p

theorem not_complains_absolute (text : String) : ¬ (absolute text).Complains code d :=
  of_complains_bind (fun _ => not_complains_expand _) fun _ _ =>
    of_complains_bind (fun _ => not_complains_pure _) fun _ _ => not_complains_pure _

theorem not_complains_sourceRoot {root : Path} {given : Option String} :
    ¬ (sourceRoot root given).Complains code d := by
  have hstandard : ∀ d, ¬ (sourceRoot.standard root).Complains code d := fun _ =>
    of_complains_bind (fun _ => not_complains_files) fun _ _ => not_complains_pure _
  unfold sourceRoot
  split
  · split
    · exact hstandard d
    · exact not_complains_absolute _
  · exact hstandard d

theorem complains_projectRoot_iff {text : String} :
    (projectRoot text).Complains code d ↔
      code = unusable ∧ ∃ p d₁ there, (absolute text).run.run d = (.ok p, d₁) ∧
        d₁.tree.has p = .ok there ∧ (there && d₁.tree.isDirectory p) = false := by
  simp only [projectRoot, complains_bind_iff, complains_check_iff, not_complains_absolute,
    not_complains_files, not_complains_orFault, run_files_eq_ok_iff, run_orFault_eq_ok_iff,
    false_or]
  constructor
  · rintro ⟨p, d₁, hp, _, _, ⟨rfl, rfl⟩, there, _, ⟨hthere, rfl⟩, _, _, ⟨rfl, rfl⟩, hcode, h⟩
    exact ⟨hcode, p, _, there, hp, hthere, h⟩
  · rintro ⟨hcode, p, d₁, there, hp, hthere, h⟩
    exact ⟨p, d₁, hp, _, d₁, ⟨rfl, rfl⟩, there, d₁, ⟨hthere, rfl⟩, _, d₁, ⟨rfl, rfl⟩, hcode, h⟩

theorem complains_settingsPath_iff {root : Path} {given : Option String} :
    (settingsPath root given).Complains code d ↔
      code = unusable ∧ ∃ text p d₁, given = some text ∧ text ≠ "" ∧
        (expand (Path.ofString text)).run.run d = (.ok p, d₁) ∧ d₁.tree.has p = .ok false := by
  unfold settingsPath
  split
  · simp [not_complains_pure]
  · simp [not_complains_pure]
  · rename_i text hnonempty
    simp only [complains_bind_iff, complains_check_iff, not_complains_expand, not_complains_files,
      not_complains_orFault, run_files_eq_ok_iff, run_orFault_eq_ok_iff, false_or]
    constructor
    · rintro ⟨p, d₁, hp, _, _, ⟨rfl, rfl⟩, _, _, ⟨hthere, rfl⟩, hcode, rfl⟩
      exact ⟨hcode, text, p, _, rfl, hnonempty, hp, hthere⟩
    · rintro ⟨hcode, _, p, d₁, ⟨⟩, -, hp, hthere⟩
      exact ⟨p, d₁, hp, _, d₁, ⟨rfl, rfl⟩, false, d₁, ⟨hthere, rfl⟩, hcode, rfl⟩

theorem complains_readSettings_iff {p : Path} :
    (readSettings p).Complains code d ↔
      code = unusable ∧ ∃ q e, Settings.load d.tree .standard p = .error (.invalid q e) := by
  have hfiles : files.run.run d = (.ok d.tree, d) := rfl
  rw [readSettings, complains_bind_of_ok hfiles]
  split <;> rename_i h
  · simp [h, not_complains_pure]
  · simp [h, not_complains_fault]
  · simp [h, complains_complain_iff]

theorem complains_skips_iff {p : Settings} {names : List String} :
    (names.foldlM skip p).Complains code d ↔
      code = unusable ∧ ∃ name ∈ names, Layer.ofKey? (Text.toLower name) = none := by
  rw [complains_foldlM_iff unusable fun name => Layer.ofKey? (Text.toLower name) ≠ none]
  · simp only [not_not]
  · intro name hname p d
    obtain ⟨k, hk⟩ := Option.ne_none_iff_exists'.1 hname
    exact ⟨_, by rw [skip, hk]; rfl⟩
  · intro name hname p
    exact ⟨_, by rw [skip, not_not.1 hname]⟩

theorem complains_settings_iff {root : Path} {o : SettingsOptions} :
    (settings root o).Complains code d ↔
      (settingsPath root o.config).Complains code d ∨
        ∃ p d₁, (settingsPath root o.config).run.run d = (.ok p, d₁) ∧
          ((readSettings p).Complains code d₁ ∨
            ∃ settings d₂, (readSettings p).run.run d₁ = (.ok settings, d₂) ∧
              code = unusable ∧
                ∃ name ∈ nameList o.skip, Layer.ofKey? (Text.toLower name) = none) := by
  simp only [settings, complains_bind_iff, complains_skips_iff]

/-! ### Sources -/

theorem not_complains_forIn {f : α → PUnit → Program (ForInStep PUnit)}
    (hf : ∀ a u d, ¬ (f a u).Complains code d) (l : List α) :
    ¬ (forIn l PUnit.unit f : Program PUnit).Complains code d := by
  induction l generalizing d with
  | nil => exact not_complains_pure _
  | cons a l ih =>
    rw [List.forIn_cons]
    refine of_complains_bind (hf a _) fun step d => ?_
    cases step with
    | done u => exact not_complains_pure u
    | yield u => exact ih

theorem not_complains_sources (root : Path) : ¬ (sources root).Complains code d := by
  refine of_complains_bind (fun _ => not_complains_files) fun t d => ?_
  split
  · refine of_complains_bind (fun d => not_complains_forIn (fun path u d => ?_) _) fun _ _ =>
      not_complains_pure _
    exact of_complains_bind (fun _ => not_complains_display _) fun _ _ => not_complains_pure _
  · exact not_complains_fault _
  · exact not_complains_fault _

theorem complains_selection_iff {catalog : SourceCatalog} {o : GenerateOptions} :
    (selection catalog o).Complains code d ↔
      code = unusable ∧
        o.all = false ∧ ∃ name ∈ nameList o.entities, catalog.find? name = none := by
  unfold selection
  split
  · simp [*, not_complains_pure]
  · split
    · simp [*, not_complains_pure]
    · rename_i hall
      rw [complains_mapM_iff unusable fun name => catalog.find? name ≠ none]
      · simp [hall]
      · intro name hname d
        obtain ⟨c, hc⟩ := Option.ne_none_iff_exists'.1 hname
        exact ⟨c, by rw [classNamed, hc]; rfl⟩
      · intro name hname
        exact ⟨_, by rw [classNamed, not_not.1 hname]⟩

/-! ### Selected classes -/

/-- The root, the settings and the classes that a generation is for. -/
def selected (root : String) (po : SettingsOptions) (o : GenerateOptions) :
    Program (Path × Settings × List SourceClass) := do
  let root ← projectRoot root
  let p ← settings root po
  let classes ← selection (← sources root) o
  return (root, p, classes)

theorem keepsTree_selected (root : String) (po : SettingsOptions) (o : GenerateOptions) :
    KeepsTree (selected root po o) :=
  (keepsTree_projectRoot root).bind fun root => (keepsTree_settings root po).bind fun _ =>
    (keepsTree_sources root).bind fun catalog => (keepsTree_selection catalog o).bind fun _ =>
      keepsTree_pure _

/-- What a generation is asked for cannot be met. -/
inductive CannotMeet (root : String) (po : SettingsOptions) (o : GenerateOptions) (d : Desk) : Prop
  /-- There is no directory at the root. -/
  | root {p : Path} {there : Bool} {d₁ : Desk} :
      (absolute root).run.run d = (.ok p, d₁) → d₁.tree.has p = .ok there →
        (there && d₁.tree.isDirectory p) = false → CannotMeet root po o d
  /-- There is no file of settings at the path that is given for it. -/
  | config {r p : Path} {text : String} {d₁ d₂ : Desk} :
      (projectRoot root).run.run d = (.ok r, d₁) → po.config = some text → text ≠ "" →
        (expand (Path.ofString text)).run.run d₁ = (.ok p, d₂) → d₂.tree.has p = .ok false →
        CannotMeet root po o d
  /-- The file of settings holds no settings. -/
  | settings {r p q : Path} {e : SettingsFault} {d₁ d₂ : Desk} :
      (projectRoot root).run.run d = (.ok r, d₁) →
        (settingsPath r po.config).run.run d₁ = (.ok p, d₂) →
        Settings.load d₂.tree .standard p = .error (.invalid q e) → CannotMeet root po o d
  /-- A layer to skip is unknown. -/
  | skip {r p : Path} {settings : Settings} {name : String} {d₁ d₂ d₃ : Desk} :
      (projectRoot root).run.run d = (.ok r, d₁) →
        (settingsPath r po.config).run.run d₁ = (.ok p, d₂) →
        (readSettings p).run.run d₂ = (.ok settings, d₃) → name ∈ nameList po.skip →
        Layer.ofKey? (Text.toLower name) = none → CannotMeet root po o d
  /-- An entity that is named is unknown. -/
  | entity {r : Path} {p : Settings} {catalog : SourceCatalog} {name : String}
      {d₁ d₂ d₃ : Desk} :
      (projectRoot root).run.run d = (.ok r, d₁) →
        (Program.settings r po).run.run d₁ = (.ok p, d₂) →
        (sources r).run.run d₂ = (.ok catalog, d₃) → o.all = false →
        name ∈ nameList o.entities → catalog.find? name = none → CannotMeet root po o d

/-- **Classes are selected unless the request cannot be met.** There is no other complaint. -/
theorem complains_selected_iff {root : String} {po : SettingsOptions} {o : GenerateOptions} :
    (selected root po o).Complains code d ↔ code = unusable ∧ CannotMeet root po o d := by
  simp only [selected, complains_bind_iff, not_complains_pure, not_complains_sources, false_or,
    and_false, exists_false, or_false, complains_selection_iff, complains_projectRoot_iff,
    complains_settings_iff, complains_settingsPath_iff, complains_readSettings_iff]
  constructor
  · rintro (⟨rfl, p, d₁, there, hp, hthere, h⟩ | ⟨r, d₁, hr,
      (⟨rfl, text, p, d₂, hgiven, hne, hp, h⟩ |
      ⟨p, d₂, hp, ⟨rfl, q, e, h⟩ | ⟨settings, d₃, hread, rfl, name, hname, h⟩⟩) |
      ⟨p, d₂, hp, catalog, d₃, hcatalog, rfl, hall, name, hname, h⟩⟩) <;> refine ⟨rfl, ?_⟩
    · exact .root hp hthere h
    · exact .config hr hgiven hne hp h
    · exact .settings hr hp h
    · exact .skip hr hp hread hname h
    · exact .entity hr hp hcatalog hall hname h
  · rintro ⟨rfl, ⟨hp, hthere, h⟩ | ⟨hr, hgiven, hne, hp, h⟩ | ⟨hr, hp, h⟩ |
      ⟨hr, hp, hread, hname, h⟩ | ⟨hr, hp, hcatalog, hall, hname, h⟩⟩
    · exact .inl ⟨rfl, _, _, _, hp, hthere, h⟩
    · exact .inr ⟨_, _, hr, .inl (.inl ⟨rfl, _, _, _, hgiven, hne, hp, h⟩)⟩
    · exact .inr ⟨_, _, hr, .inl (.inr ⟨_, _, hp, .inl ⟨rfl, _, _, h⟩⟩)⟩
    · exact .inr ⟨_, _, hr, .inl (.inr ⟨_, _, hp, .inr ⟨_, _, hread, rfl, _, hname, h⟩⟩)⟩
    · exact .inr ⟨_, _, hr, .inr ⟨_, _, hp, _, _, hcatalog, rfl, hall, _, hname, h⟩⟩

end EntityScaffold.Program
