import EntityScaffold.Proofs.Command.Refusal
import EntityScaffold.Proofs.Settings.Document

/-!
# Settings from files and options

The settings of a project are those that its file gives, and the standard ones where the file gives
none; options change them once more. Whether options are accepted, and what they change, depends on
the names in the list of layers to skip only (`Names`), not on how the list is written
(`settings_follow_options`).
-/

namespace EntityScaffold

open Text

/-- The name stands for a layer, in capitals or not. -/
def Layer.IsNamed (k : Layer) (name : String) : Prop := toLower name = toLower k.label

theorem Layer.toLower_label (k : Layer) : toLower k.label = k.key := by cases k <;> rfl

theorem Layer.ofKey?_toLower_eq_some_iff {k : Layer} {name : String} :
    Layer.ofKey? (toLower name) = some k ↔ k.IsNamed name := by
  rw [Settings.ofKey?_eq_some_iff, Layer.IsNamed, Layer.toLower_label]

theorem Layer.IsNamed.unique {k j : Layer} {name : String} (hk : k.IsNamed name)
    (hj : j.IsNamed name) : k = j :=
  Option.some.inj
    ((ofKey?_toLower_eq_some_iff.2 hk).symm.trans (ofKey?_toLower_eq_some_iff.2 hj))

namespace Settings

/-- The settings come from the document at a path, over the standard ones, or are the standard ones
because nothing is there. -/
inductive IsLoaded (t : FileTree) (p : Path) : Settings → Prop
  | missing : t.has p = .ok false → IsLoaded t p .standard
  | document {content : String} {d : Json} {file : Settings} : t.has p = .ok true →
      t.read p = .ok content → Json.read content = .ok d → IsDocument d →
      Overrides .standard d file → IsLoaded t p file

theorem mapError_eq_ok_iff {ε ε' α : Type} {f : ε → ε'} {x : Except ε α} {a : α} :
    x.mapError f = .ok a ↔ x = .ok a := by
  cases x <;> simp [Except.mapError]

theorem isLoaded_of_load {t : FileTree} {p : Path} {file : Settings}
    (h : load t .standard p = .ok file) : IsLoaded t p file := by
  obtain ⟨there, hthere, h⟩ := bind_eq_ok_iff.1 h
  rw [mapError_eq_ok_iff] at hthere
  cases there with
  | false =>
    cases h
    exact .missing hthere
  | true =>
    obtain ⟨content, hcontent, h⟩ := bind_eq_ok_iff.1 h
    rw [mapError_eq_ok_iff] at hcontent h
    unfold ofText at h
    split at h
    · cases h
    · rename_i d hread
      obtain ⟨hdocument, hoverrides⟩ := ofDocument_eq_ok (Json.isProper_of_read hread) h
      exact .document hthere hcontent hread hdocument hoverrides

end Settings

namespace Program

variable {d d₁ : Desk} {o : SettingsOptions} {root : Path} {p file q : Settings}
  {names : List String} {text name : String}

/-! ### Names in lists -/

/-- The name is one of those that the commas in a text separate, without the blanks around it. -/
def Names (text name : String) : Prop :=
  name ≠ "" ∧ ∃ item ∈ text.toList.splitOn ',', name = strip (.ofList item)

theorem mem_nameList_iff : name ∈ nameList text ↔ Names text name := by
  simp only [nameList, Names, List.mem_filter, List.mem_map, bne_iff_ne, ne_eq,
    @eq_comm _ name (strip _)]
  exact and_comm

/-! ### Skipping -/

/-- The settings without layers. -/
structure Without (p : Settings) (skipped : Layer → Prop) (q : Settings) : Prop where
  scalars : q = { p with layer := q.layer }
  enabled (k : Layer) : (q.layer k).enabled = true ↔ (p.layer k).enabled = true ∧ ¬ skipped k
  suffix (k : Layer) : (q.layer k).suffix = (p.layer k).suffix
  subPackage (k : Layer) : (q.layer k).subPackage = (p.layer k).subPackage

theorem without_none (p : Settings) : Without p (fun _ => False) p :=
  ⟨rfl, fun k => by simp, fun _ => rfl, fun _ => rfl⟩

/-- A first name and then others. -/
theorem Without.cons {k : Layer} (hk : k.IsNamed name)
    (h : Without (p.withLayer k { p.layer k with enabled := false })
      (fun j => ∃ n ∈ names, j.IsNamed n) q) :
    Without p (fun j => ∃ n ∈ name :: names, j.IsNamed n) q where
  scalars := h.scalars
  enabled j := by
    rw [h.enabled, Settings.layer_withLayer]
    by_cases hjk : j = k
    · subst hjk
      simp [hk]
    · have hj : ¬ j.IsNamed name := fun hj => hjk (hj.unique hk)
      simp [hjk, hj]
  suffix j := by
    rw [h.suffix, Settings.layer_withLayer]
    split
    · rename_i hjk
      rw [hjk]
    · rfl
  subPackage j := by
    rw [h.subPackage, Settings.layer_withLayer]
    split
    · rename_i hjk
      rw [hjk]
    · rfl

/-- **Skipping names.** All of them must stand for layers. -/
theorem run_skips (p : Settings) (names : List String) (d : Desk) :
    (∃ q, (names.foldlM skip p).run.run d = (.ok q, d) ∧ (∀ n ∈ names, ∃ k, Layer.IsNamed k n) ∧
      Without p (fun k => ∃ n ∈ names, k.IsNamed n) q) ∨
    (∃ text, (names.foldlM skip p).run.run d = (.error (.complaint unusable text), d)) ∧
      ∃ n ∈ names, ∀ k, ¬ Layer.IsNamed k n := by
  induction names generalizing p with
  | nil => exact .inl ⟨p, rfl, List.forall_mem_nil _, by simpa using without_none p⟩
  | cons name names ih =>
    rw [List.foldlM_cons]
    cases hfound : Layer.ofKey? (toLower name) with
    | none =>
      have hskip : ∃ text, (skip p name).run.run d = (.error (.complaint unusable text), d) :=
        ⟨_, by rw [skip, hfound]; rfl⟩
      obtain ⟨text, htext⟩ := hskip
      refine .inr ⟨⟨text, run_bind_of_error htext⟩, name, List.mem_cons_self, fun k hk => ?_⟩
      cases hfound.symm.trans (Layer.ofKey?_toLower_eq_some_iff.2 hk)
    | some k =>
      have hk := Layer.ofKey?_toLower_eq_some_iff.1 hfound
      have hskip : (skip p name).run.run d =
          (.ok (p.withLayer k { p.layer k with enabled := false }), d) := by
        rw [skip, hfound]
        rfl
      rw [run_bind_of_ok hskip]
      rcases ih (p.withLayer k { p.layer k with enabled := false }) with
        ⟨q, hq, hall, hwithout⟩ | ⟨herror, n, hn, hunknown⟩
      · exact .inl ⟨q, hq, List.forall_mem_cons.2 ⟨⟨k, hk⟩, hall⟩, hwithout.cons hk⟩
      · exact .inr ⟨herror, n, List.mem_cons_of_mem _ hn, hunknown⟩

/-! ### Options -/

/-- The settings of a file with what options say. The options of style can only turn a setting off,
and that of overwriting only on. -/
structure Follows (file : Settings) (o : SettingsOptions) (q : Settings) : Prop where
  basePackage : q.basePackage = o.basePackage.getD file.basePackage
  apiPrefix : q.apiPrefix = o.apiPrefix.getD file.apiPrefix
  accessorStyle : q.accessorStyle = true ↔ file.accessorStyle = true ∧ o.noLombok = false
  queryMethods : q.queryMethods = true ↔ file.queryMethods = true ∧ o.noQueryMethods = false
  overwrite : q.overwrite = true ↔ file.overwrite = true ∨ o.overwrite = true
  enabled (k : Layer) : (q.layer k).enabled = true ↔
    (file.layer k).enabled = true ∧ ¬ ∃ name, Names o.skip name ∧ k.IsNamed name
  suffix (k : Layer) : (q.layer k).suffix = (file.layer k).suffix
  subPackage (k : Layer) : (q.layer k).subPackage = (file.layer k).subPackage

/-- The settings of a file with the options that are not about one layer. -/
def withScalars (file : Settings) (o : SettingsOptions) : Settings :=
  { file with
    basePackage := o.basePackage.getD file.basePackage
    apiPrefix := o.apiPrefix.getD file.apiPrefix
    accessorStyle := file.accessorStyle && !o.noLombok
    queryMethods := file.queryMethods && !o.noQueryMethods
    overwrite := file.overwrite || o.overwrite }

theorem layerSettings_ext {a a' : LayerSettings} (henabled : a.enabled = true ↔ a'.enabled = true)
    (hsuffix : a.suffix = a'.suffix) (hsubPackage : a.subPackage = a'.subPackage) : a = a' := by
  cases a
  cases a'
  cases Bool.eq_iff_iff.2 henabled
  cases hsuffix
  cases hsubPackage
  rfl

theorem follows_of_without
    (h : Without (withScalars file o) (fun k => ∃ n ∈ nameList o.skip, k.IsNamed n) q) :
    Follows file o q where
  basePackage := by rw [h.scalars, withScalars]
  apiPrefix := by rw [h.scalars, withScalars]
  accessorStyle := by rw [h.scalars]; simp [withScalars]
  queryMethods := by rw [h.scalars]; simp [withScalars]
  overwrite := by rw [h.scalars]; simp [withScalars]
  enabled k := by
    have hk := h.enabled k
    simp only [mem_nameList_iff] at hk
    exact hk
  suffix := h.suffix
  subPackage := h.subPackage

/-- The settings are told by those of the file, the options and the names of layers to skip. -/
theorem Follows.unique {skip : String} {q' : Settings}
    (hskip : ∀ name, Names skip name ↔ Names o.skip name) (h : Follows file o q)
    (h' : Follows file { o with skip } q') : q = q' := by
  have hlayer : q.layer = q'.layer := funext fun k => by
    have henabled' := h'.enabled k
    simp only [hskip] at henabled'
    exact layerSettings_ext ((h.enabled k).trans henabled'.symm)
      ((h.suffix k).trans (h'.suffix k).symm) ((h.subPackage k).trans (h'.subPackage k).symm)
  have hbasePackage := h.basePackage.trans h'.basePackage.symm
  have hprefix := h.apiPrefix.trans h'.apiPrefix.symm
  have hstyle := Bool.eq_iff_iff.2 (h.accessorStyle.trans h'.accessorStyle.symm)
  have hqueries := Bool.eq_iff_iff.2 (h.queryMethods.trans h'.queryMethods.symm)
  have hoverwrite := Bool.eq_iff_iff.2 (h.overwrite.trans h'.overwrite.symm)
  cases q
  cases q'
  cases hlayer
  cases hbasePackage
  cases hprefix
  cases hstyle
  cases hqueries
  cases hoverwrite
  rfl

/-! ### Files -/

/-- A file that is named is there. -/
theorem has_of_run_settingsPath {place : Path}
    (h : (settingsPath root (some text)).run.run d = (.ok place, d₁)) (hne : text ≠ "") :
    d₁.tree.has place = .ok true := by
  unfold settingsPath at h
  split at h
  · rename_i hnone
    cases hnone
  · rename_i hempty
    exact absurd (Option.some.inj hempty) hne
  · obtain ⟨p, d₂, -, h⟩ := run_bind_eq_ok_iff.1 h
    obtain ⟨t, d₃, hfiles, h⟩ := run_bind_eq_ok_iff.1 h
    obtain ⟨rfl, rfl⟩ := run_files_eq_ok_iff.1 hfiles
    obtain ⟨there, d₄, hthere, h⟩ := run_bind_eq_ok_iff.1 h
    obtain ⟨hthere, rfl⟩ := run_orFault_eq_ok_iff.1 hthere
    cases there with
    | false => cases h
    | true =>
      cases h
      exact hthere

/-- After the file is read, the options decide. -/
theorem run_settings {place : Path}
    (hplace : (settingsPath root o.config).run.run d = (.ok place, d₁))
    (hfile : Settings.load d₁.tree .standard place = .ok file) :
    (settings root o).run.run d =
      ((nameList o.skip).foldlM skip (withScalars file o)).run.run d₁ := by
  have hread : (readSettings place).run.run d₁ = (.ok file, d₁) := by
    have hfiles : files.run.run d₁ = (.ok d₁.tree, d₁) := rfl
    rw [readSettings, run_bind_of_ok hfiles, hfile]
    rfl
  rw [settings, run_bind_of_ok hplace, run_bind_of_ok hread]
  rfl

/-- **Options override the file, and the file the standard settings**, setting by setting. With the
settings of a file, or the standard ones if the file of a project is not there, options are accepted
exactly if each name to skip stands for a layer. Then every setting is told by the file and the
options, and by the layers to skip only as far as which names there are: their order, repetitions,
blanks and empty items do not matter. -/
theorem settings_follow_options {place : Path}
    (hplace : (settingsPath root o.config).run.run d = (.ok place, d₁))
    (hfile : Settings.load d₁.tree .standard place = .ok file) :
    Settings.IsLoaded d₁.tree place file ∧
      (∀ text, o.config = some text → text ≠ "" → d₁.tree.has place = .ok true) ∧
      ((∃ q, (settings root o).run.run d = (.ok q, d₁)) ↔
        ∀ name, Names o.skip name → ∃ k, Layer.IsNamed k name) ∧
      (∀ q, (settings root o).run.run d = (.ok q, d₁) → Follows file o q) ∧
      ((∀ q, (settings root o).run.run d ≠ (.ok q, d₁)) →
        ∃ text, (settings root o).run.run d = (.error (.complaint unusable text), d₁)) ∧
      ∀ skip, (∀ name, Names skip name ↔ Names o.skip name) → ∀ q,
        (settings root { o with skip }).run.run d = (.ok q, d₁) ↔
          (settings root o).run.run d = (.ok q, d₁) := by
  -- all that is said of the text of layers to skip depends on its names, whatever they are
  have hrun (skip : String) :
      (∃ q, (settings root { o with skip }).run.run d = (.ok q, d₁) ∧
        (∀ name, Names skip name → ∃ k, Layer.IsNamed k name) ∧ Follows file { o with skip } q) ∨
      (∃ text, (settings root { o with skip }).run.run d =
        (.error (.complaint unusable text), d₁)) ∧
        ∃ name, Names skip name ∧ ∀ k, ¬ Layer.IsNamed k name := by
    rw [run_settings (o := { o with skip }) hplace hfile]
    simp only [← mem_nameList_iff]
    refine (run_skips _ _ d₁).imp ?_ fun ⟨herror, name, hname, hunknown⟩ =>
      ⟨herror, name, hname, hunknown⟩
    rintro ⟨q, hq, hall, hwithout⟩
    exact ⟨q, hq, hall, follows_of_without (o := { o with skip }) hwithout⟩
  refine ⟨Settings.isLoaded_of_load hfile, fun text htext hne => ?_, ?_⟩
  · rw [htext] at hplace
    exact has_of_run_settingsPath hplace hne
  rcases hrun o.skip with ⟨q, hq, hall, hfollows⟩ | ⟨⟨text, herror⟩, name, hname, hunknown⟩
  · refine ⟨iff_of_true ⟨q, hq⟩ hall, fun q' hq' => ?_, fun hnone => absurd hq (hnone q),
      fun skip hskip q' => ?_⟩
    · cases hq.symm.trans hq'
      exact hfollows
    · rcases hrun skip with ⟨q₂, hq₂, -, hfollows₂⟩ | ⟨-, name, hname, hunknown⟩
      · rw [hq, hq₂, hfollows.unique hskip hfollows₂]
      · obtain ⟨k, hk⟩ := hall name ((hskip name).1 hname)
        exact absurd hk (hunknown k)
  · have hnone (q : Settings) : (settings root o).run.run d ≠ (.ok q, d₁) := fun hq => by
      cases herror.symm.trans hq
    refine ⟨iff_of_false (fun ⟨q, hq⟩ => hnone q hq) fun hall => ?_,
      fun q hq => absurd hq (hnone q), fun _ => ⟨text, herror⟩, fun skip hskip q => ?_⟩
    · obtain ⟨k, hk⟩ := hall name hname
      exact hunknown k hk
    · refine iff_of_false (fun hq => ?_) (hnone q)
      rcases hrun skip with ⟨q₂, -, hall, -⟩ | ⟨⟨text', herror'⟩, -⟩
      · obtain ⟨k, hk⟩ := hall name ((hskip name).2 hname)
        exact hunknown k hk
      · cases herror'.symm.trans hq

/-- A desk with a file of settings. -/
def configuredDesk : Desk :=
  let content := "\x7b\"base_package\": \"shop\", \"api_prefix\": \"v1\", " ++
    "\"overwrite_existing\": true\x7d"
  { (default : Desk) with
    tree.root :=
      .directory [(".apigen", .directory [("config.json", .file (encode content))])] }

/-- The base package of the file and the prefix of the options, without two of the layers. -/
theorem settings_follow_options_skipping :
    let o : SettingsOptions :=
      { (default : SettingsOptions) with apiPrefix := some "", skip := " DTO,,mapper , dto" }
    ∃ place file q, (settingsPath ⟨"/", []⟩ o.config).run.run configuredDesk =
        (.ok place, configuredDesk) ∧
      Settings.load configuredDesk.tree .standard place = .ok file ∧
      (settings ⟨"/", []⟩ o).run.run configuredDesk = (.ok q, configuredDesk) ∧
      q.basePackage = "shop" ∧ q.apiPrefix = "" ∧ q.overwrite = true ∧
      (q.layer .dto).enabled = false ∧ (q.layer .service).enabled = true := by
  intro o
  have hplace : (settingsPath ⟨"/", []⟩ o.config).run.run configuredDesk =
      (.ok ⟨"/", [".apigen", "config.json"]⟩, configuredDesk) := rfl
  have hread : ((Settings.load configuredDesk.tree .standard
      ⟨"/", [".apigen", "config.json"]⟩).toOption.map fun file =>
        (file.basePackage, file.overwrite, (file.layer .service).enabled)) =
      some ("shop", true, true) := by decide +kernel
  obtain ⟨file, hfile, hvalues⟩ := Option.map_eq_some_iff.1 hread
  obtain ⟨hbasePackage, hoverwrite, hservice⟩ : file.basePackage = "shop" ∧
      file.overwrite = true ∧ (file.layer .service).enabled = true := by simpa using hvalues
  have hfile : Settings.load configuredDesk.tree .standard
      ⟨"/", [".apigen", "config.json"]⟩ = .ok file := by
    cases hload : Settings.load configuredDesk.tree .standard ⟨"/", [".apigen", "config.json"]⟩ with
    | error e => simp [hload, Except.toOption] at hfile
    | ok loaded => simpa [hload, Except.toOption] using hfile
  have hnames : nameList o.skip = ["DTO", "mapper", "dto"] := by decide +kernel
  have hall : ∀ name, Names o.skip name → ∃ k, Layer.IsNamed k name := fun name hname => by
    rw [← mem_nameList_iff, hnames] at hname
    simp only [List.mem_cons, List.not_mem_nil, or_false] at hname
    rcases hname with rfl | rfl | rfl
    exacts [⟨.dto, rfl⟩, ⟨.mapper, by unfold Layer.IsNamed; decide +kernel⟩,
      ⟨.dto, by unfold Layer.IsNamed; decide +kernel⟩]
  obtain ⟨-, -, haccepted, hfollows, -, -⟩ := settings_follow_options hplace hfile
  obtain ⟨q, hq⟩ := haccepted.2 hall
  have hchanged := hfollows q hq
  refine ⟨_, file, q, hplace, hfile, hq, hchanged.basePackage.trans hbasePackage,
    hchanged.apiPrefix, hchanged.overwrite.2 (.inl hoverwrite), ?_,
    (hchanged.enabled .service).2 ⟨hservice, ?_⟩⟩
  · refine Bool.eq_false_iff.2 fun henabled => ((hchanged.enabled .dto).1 henabled).2 ?_
    exact ⟨"DTO", mem_nameList_iff.1 (by simp [hnames]), rfl⟩
  · rintro ⟨name, hname, hnamed⟩
    rw [← mem_nameList_iff, hnames] at hname
    simp only [List.mem_cons, List.not_mem_nil, or_false] at hname
    rcases hname with rfl | rfl | rfl <;> revert hnamed <;> unfold Layer.IsNamed <;>
      decide +kernel

end Program

end EntityScaffold
