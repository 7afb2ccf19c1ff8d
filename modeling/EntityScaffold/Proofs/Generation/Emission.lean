import EntityScaffold.Generation.Run
import EntityScaffold.Proofs.Store.Memory

/-!
# Carrying out a plan

What a plan does to a store in memory and to a report, one artifact at a time. `Emission` is what
becomes of an artifact that is carried out. A plan is carried out up to its end, to an artifact that
cannot be renamed, or to a write that fails; until then report and store get the emissions in order
and nothing else (`emit_cases`). Of the texts under one identity the last one stays
(`text?_withEmissions`).
-/

namespace EntityScaffold

/-- A decision files an artifact under its own identity, or under a new name with the new name in
its text. -/
theorem Artifact.filed_eq_some {a : Artifact} {d : Decision} {id : Identity} {text : String}
    (h : a.filed d = .ok (some (id, text))) :
    d = .write ∧ id = a.identity ∧ text = a.text ∨
      ∃ name, d = .rename name ∧ id = { a.identity with className := name } ∧
        Text.rename a.text a.className name = .ok text := by
  cases d with
  | write => cases h; exact Or.inl ⟨rfl, rfl, rfl⟩
  | skip => cases h
  | rename name =>
    unfold filed at h
    dsimp only at h
    cases ht : Text.rename a.text a.className name with
    | error e => rw [ht] at h; cases h
    | ok text' =>
      rw [ht] at h
      cases h
      exact Or.inr ⟨name, rfl, rfl, ht⟩

/-- What becomes of an artifact that a plan decides on. -/
structure Emission where
  artifact : Artifact
  decision : Decision
  /-- The identity and the text that are filed, if any are. -/
  file? : Option (Identity × String)
  filed : artifact.filed decision = .ok file?

namespace Emission

/-- The step of a plan that has this emission. -/
def step (e : Emission) : Artifact × Decision := (e.artifact, e.decision)

theorem map_fst_step (es : List Emission) :
    (es.map step).map Prod.fst = es.map (·.artifact) := by
  rw [List.map_map]
  rfl

/-- The entry of a filed artifact among those written. -/
def written? (e : Emission) : Option FiledArtifact := e.file?.map fun f => ⟨e.artifact.layer, f.1⟩

/-- The entry of any other artifact among those skipped. -/
def skipped? (e : Emission) : Option FiledArtifact :=
  if e.file?.isNone then some e.artifact.ref else none

/-- An artifact has one entry. -/
theorem skipped?_isSome (e : Emission) : e.skipped?.isSome = !e.written?.isSome := by
  unfold skipped? written?
  cases e.file? <;> rfl

/-- What is filed, in order. -/
def files (es : List Emission) : List (Identity × String) := es.filterMap (·.file?)

theorem files_cons_of_none {e : Emission} (h : e.file? = none) (es : List Emission) :
    files (e :: es) = files es := List.filterMap_cons_none h

theorem files_cons_of_some {e : Emission} {f : Identity × String} (h : e.file? = some f)
    (es : List Emission) : files (e :: es) = f :: files es := List.filterMap_cons_some h

theorem map_id_written? (es : List Emission) :
    (es.filterMap written?).map (·.id) = (files es).map (·.1) := by
  unfold files
  rw [List.map_filterMap, List.map_filterMap]
  refine congrArg (List.filterMap · es) (funext fun e => ?_)
  unfold written?
  rw [Option.map_map]
  rfl

theorem mem_files {es : List Emission} {f : Identity × String} :
    f ∈ files es ↔ ∃ e ∈ es, e.file? = some f := List.mem_filterMap

/-- What is found among the files last comes from some emission. -/
theorem exists_of_lookup_files {es : List Emission} {id : Identity} {text : String}
    (h : (files es).reverse.lookup id = some text) : ∃ e ∈ es, e.file? = some (id, text) := by
  obtain ⟨before, after, hsplit, -⟩ := List.lookup_eq_some_iff.1 h
  have hmem : (id, text) ∈ (files es).reverse := by simp [hsplit]
  exact mem_files.1 (List.mem_reverse.1 hmem)

/-- The last text under an identity is found among the files. -/
theorem lookup_files_of_last {before after : List Emission} {e : Emission}
    {f : Identity × String} (hf : e.file? = some f) (hlast : ∀ g ∈ files after, g.1 ≠ f.1) :
    (files (before ++ e :: after)).reverse.lookup f.1 = some f.2 := by
  have hfiles : files (before ++ e :: after) = files before ++ f :: files after := by
    rw [files, List.filterMap_append]
    exact congrArg (files before ++ ·) (files_cons_of_some hf after)
  have hnone : (files after).reverse.lookup f.1 = none := by
    rw [List.lookup_eq_none_iff]
    intro g hg
    simpa using (hlast g (List.mem_reverse.1 hg)).symm
  rw [hfiles, List.reverse_append, List.reverse_cons, List.append_assoc, List.lookup_append, hnone]
  exact List.lookup_cons_self

/-- Emissions file under pairwise distinct identities if no later one takes that of an earlier
one. -/
theorem nodup_map_files {es : List Emission}
    (h : ∀ before e after f, es = before ++ e :: after → e.file? = some f →
      ∀ g ∈ files after, g.1 ≠ f.1) : ((files es).map (·.1)).Nodup := by
  induction es with
  | nil => exact List.nodup_nil
  | cons e es ih =>
    have hrest : ((files es).map (·.1)).Nodup := ih fun before e' after f hes hf =>
      h (e :: before) e' after f (by rw [hes]; rfl) hf
    cases hf : e.file? with
    | none => rwa [files_cons_of_none hf]
    | some f =>
      rw [files_cons_of_some hf, List.map_cons, List.nodup_cons]
      refine ⟨fun hm => ?_, hrest⟩
      obtain ⟨g, hg, hgf⟩ := List.mem_map.1 hm
      exact h [] e es f rfl hf g hg hgf

/-- A filed artifact takes the identity that its decision takes, or its new name is empty. -/
theorem target?_eq_some {e : Emission} {f : Identity × String} (hf : e.file? = some f) :
    e.decision.target? e.artifact.identity = some f.1 ∨ e.decision = .rename "" := by
  rcases Artifact.filed_eq_some (e.filed.trans (congrArg _ hf)) with
    ⟨hd, hid, -⟩ | ⟨name, hd, hid, -⟩
  · left
    rw [hd, hid]
    rfl
  · by_cases hname : name = ""
    · right
      rw [hd, hname]
    · left
      rw [hd, hid]
      simp [Decision.target?, hname]

/-- What takes an identity is filed there. -/
theorem exists_file_of_target? {e : Emission} {id : Identity}
    (h : e.decision.target? e.artifact.identity = some id) : ∃ text, e.file? = some (id, text) := by
  have hfiled := e.filed
  cases hd : e.decision with
  | write =>
    rw [hd] at h hfiled
    cases h
    exact ⟨_, (Except.ok.inj hfiled).symm⟩
  | skip =>
    rw [hd] at h
    cases h
  | rename name =>
    rw [hd] at h hfiled
    rw [Decision.target?] at h
    split at h
    · cases h
    · cases h
      unfold Artifact.filed at hfiled
      dsimp only at hfiled
      cases hr : Text.rename e.artifact.text e.artifact.className name with
      | error fault => rw [hr] at hfiled; cases hfiled
      | ok text =>
        rw [hr] at hfiled
        exact ⟨text, (Except.ok.inj hfiled).symm⟩

end Emission

/-- A report with more emissions. -/
def RunReport.withEmissions (report : RunReport) (es : List Emission) : RunReport :=
  { report with
    written := report.written ++ es.filterMap Emission.written?
    skipped := report.skipped ++ es.filterMap Emission.skipped? }

theorem RunReport.withEmissions_nil (report : RunReport) : report.withEmissions [] = report := by
  simp [withEmissions]

theorem RunReport.withEmissions_cons_of_none (report : RunReport) {e : Emission}
    (h : e.file? = none) (es : List Emission) :
    report.withEmissions (e :: es) =
      { report with skipped := report.skipped ++ [e.artifact.ref] }.withEmissions es := by
  simp [withEmissions, Emission.written?, Emission.skipped?, h]

theorem RunReport.withEmissions_cons_of_some (report : RunReport) {e : Emission}
    {f : Identity × String} (h : e.file? = some f) (es : List Emission) :
    report.withEmissions (e :: es) =
      { report with
        written := report.written ++
          [(⟨e.artifact.layer, f.1⟩ : FiledArtifact)] }.withEmissions es := by
  simp [withEmissions, Emission.written?, Emission.skipped?, h]

namespace MemoryStore

/-- Files with marked texts put under identities, one after the other. -/
def putFiles (files new : List (Identity × String)) : List (Identity × String) :=
  new.foldl (fun files f => putFile files f.1 (markedText f.2)) files

/-- A store after one more write. -/
def withFile (k : MemoryStore) (f : Identity × String) : MemoryStore :=
  { k with files := putFile k.files f.1 (markedText f.2), writes := k.writes ++ [f.1] }

theorem text?_withFile (k : MemoryStore) (f : Identity × String) (id : Identity) :
    (k.withFile f).text? id = if id = f.1 then some (markedText f.2) else k.text? id :=
  lookup_putFile k.files f.1 id (markedText f.2)

/-- A store with more emissions. -/
def withEmissions (k : MemoryStore) (es : List Emission) : MemoryStore :=
  { k with
    files := putFiles k.files (Emission.files es)
    writes := k.writes ++ (Emission.files es).map (·.1) }

theorem withEmissions_nil (k : MemoryStore) : k.withEmissions [] = k := by
  simp [withEmissions, Emission.files, putFiles]

theorem withEmissions_cons_of_none (k : MemoryStore) {e : Emission} (h : e.file? = none)
    (es : List Emission) : k.withEmissions (e :: es) = k.withEmissions es := by
  rw [withEmissions, Emission.files_cons_of_none h]
  rfl

theorem withEmissions_cons_of_some (k : MemoryStore) {e : Emission} {f : Identity × String}
    (h : e.file? = some f) (es : List Emission) :
    k.withEmissions (e :: es) = (k.withFile f).withEmissions es := by
  simp [withEmissions, withFile, Emission.files_cons_of_some h, putFiles]

theorem lookup_putFiles (files new : List (Identity × String)) (id : Identity) :
    (putFiles files new).lookup id =
      ((new.reverse.lookup id).map markedText).or (files.lookup id) := by
  induction new generalizing files with
  | nil => rfl
  | cons f new ih =>
    rw [putFiles, List.foldl_cons, ← putFiles, ih, lookup_putFile, List.reverse_cons,
      List.lookup_append]
    cases new.reverse.lookup id with
    | some text => rfl
    | none =>
      obtain ⟨key, text⟩ := f
      by_cases he : id = key
      · simp [he]
      · have hb : (id == key) = false := by simpa using he
        simp [he, List.lookup_cons, hb]

/-- **The last text that is filed under an identity stays there.** -/
theorem text?_withEmissions (k : MemoryStore) (es : List Emission) (id : Identity) :
    (k.withEmissions es).text? id =
      (((Emission.files es).reverse.lookup id).map markedText).or (k.text? id) :=
  lookup_putFiles k.files (Emission.files es) id

end MemoryStore

namespace Partner

variable {σ : Type} (w : Partner σ)

section Steps

variable {e : Emission} {f : Identity × String} (rest : List (Artifact × Decision))
  (report : RunReport) (k : MemoryStore) (s : σ)

/-- An artifact that cannot be renamed ends a run without a report. -/
theorem emit_cons_of_fault {a : Artifact} {d : Decision} {fault : Text.Template.Fault}
    (h : a.filed d = .error fault) :
    w.emit ((a, d) :: rest) report k s = (.error (.template fault), k, s) := by
  rw [emit, h]

/-- An artifact that is not filed is skipped. -/
theorem emit_cons_of_skipped (h : e.file? = none) :
    w.emit (e.step :: rest) report k s =
      w.emit rest { report with skipped := report.skipped ++ [e.artifact.ref] } k
        (w.say .skip e.artifact.identity.qualifiedName s) := by
  rw [Emission.step, emit, e.filed, h]

/-- An artifact that can be filed is written. -/
theorem emit_cons_of_written (h : e.file? = some f) (hw : k.fails f.1 = false) :
    w.emit (e.step :: rest) report k s =
      w.emit rest { report with written := report.written ++ [⟨e.artifact.layer, f.1⟩] }
        (k.withFile f)
        (w.say .write f.1.qualifiedName (w.sayRenamed e.artifact e.decision s)) := by
  rw [Emission.step, emit, e.filed, h]
  dsimp only
  rw [MemoryStore.write_of_not_fails hw]
  rfl

/-- A write that fails ends a run, which reports it. -/
theorem emit_cons_of_failed (h : e.file? = some f) (hw : k.fails f.1 = true) :
    (w.emit (e.step :: rest) report k s).1 =
        .ok { report with
          status := .failed
          failure := some ⟨e.artifact.layer, ⟨f.1, "simulated write failure"⟩⟩ } ∧
      (w.emit (e.step :: rest) report k s).2.1 = k := by
  rw [Emission.step, emit, e.filed, h]
  dsimp only
  rw [MemoryStore.write_of_fails hw]
  exact ⟨rfl, rfl⟩

end Steps

/-- **How far a plan is carried out.** The artifacts before a certain point have their emissions, in
the report and in the store. There the plan ends; or the next artifact cannot be renamed, which is a
fault; or its write fails, which is reported. -/
theorem emit_cases (plan : List (Artifact × Decision)) (report : RunReport) (k : MemoryStore)
    (s : σ) :
    ∃ es rest, plan = es.map Emission.step ++ rest ∧
      (∀ f ∈ Emission.files es, k.fails f.1 = false) ∧
      (w.emit plan report k s).2.1 = k.withEmissions es ∧
      (rest = [] ∧ (w.emit plan report k s).1 = .ok (report.withEmissions es) ∨
        (∃ a d later fault, rest = (a, d) :: later ∧ a.filed d = .error fault ∧
          (w.emit plan report k s).1 = .error (.template fault)) ∨
        ∃ (e : Emission) (later : List (Artifact × Decision)) (f : Identity × String),
          rest = e.step :: later ∧ e.file? = some f ∧ k.fails f.1 = true ∧
            (w.emit plan report k s).1 = .ok { report.withEmissions es with
              status := .failed
              failure := some ⟨e.artifact.layer, ⟨f.1, "simulated write failure"⟩⟩ }) := by
  have hnone : ∀ f ∈ Emission.files [], k.fails f.1 = false := by
    intro f hf
    cases hf
  induction plan generalizing report k s with
  | nil =>
    refine ⟨[], [], rfl, hnone, k.withEmissions_nil.symm, Or.inl ⟨rfl, ?_⟩⟩
    rw [emit, RunReport.withEmissions_nil]
  | cons first rest ih =>
    obtain ⟨a, d⟩ := first
    cases hfiled : a.filed d with
    | error fault =>
      rw [w.emit_cons_of_fault rest report k s hfiled]
      exact ⟨[], _, rfl, hnone, k.withEmissions_nil.symm,
        Or.inr (Or.inl ⟨a, d, rest, fault, rfl, hfiled, rfl⟩)⟩
    | ok file? =>
      let e : Emission := ⟨a, d, file?, hfiled⟩
      cases hf : e.file? with
      | none =>
        obtain ⟨es, later, rfl, hw, hk, h⟩ :=
          ih { report with skipped := report.skipped ++ [e.artifact.ref] } k
            (w.say .skip e.artifact.identity.qualifiedName s) hnone
        refine ⟨e :: es, later, rfl, ?_, ?_, ?_⟩
        · rwa [Emission.files_cons_of_none hf]
        · rw [k.withEmissions_cons_of_none hf, ← hk]
          exact congrArg (·.2.1) (w.emit_cons_of_skipped _ report k s hf)
        · rw [report.withEmissions_cons_of_none hf]
          rwa [← w.emit_cons_of_skipped _ report k s hf] at h
      | some f =>
        cases hfails : k.fails f.1 with
        | true =>
          obtain ⟨hreport, hk⟩ := w.emit_cons_of_failed rest report k s hf hfails
          refine ⟨[], _, rfl, hnone, ?_, Or.inr (Or.inr ⟨e, rest, f, rfl, hf, hfails, ?_⟩)⟩
          · rw [k.withEmissions_nil]
            exact hk
          · rw [RunReport.withEmissions_nil]
            exact hreport
        | false =>
          -- the store that has the file fails for the same names
          obtain ⟨es, later, rfl, hw, hk, h⟩ :=
            ih { report with written := report.written ++ [⟨e.artifact.layer, f.1⟩] }
              (k.withFile f)
              (w.say .write f.1.qualifiedName (w.sayRenamed e.artifact e.decision s)) hnone
          refine ⟨e :: es, later, rfl, ?_, ?_, ?_⟩
          · rw [Emission.files_cons_of_some hf]
            intro g hg
            rcases List.mem_cons.1 hg with rfl | hg
            · exact hfails
            · exact hw g hg
          · rw [k.withEmissions_cons_of_some hf, ← hk]
            exact congrArg (·.2.1) (w.emit_cons_of_written _ report k s hf hfails)
          · rw [report.withEmissions_cons_of_some hf]
            rwa [← w.emit_cons_of_written _ report k s hf hfails] at h

/-- **What a plan comes to depends only on which writes fail**, not on the files that are there. -/
theorem emit_eq_of_failing {k k' : MemoryStore} (h : k.failing = k'.failing)
    (plan : List (Artifact × Decision)) (report : RunReport) (s t : σ) :
    (w.emit plan report k s).1 = (w.emit plan report k' t).1 := by
  induction plan generalizing k k' report s t with
  | nil => rfl
  | cons first rest ih =>
    obtain ⟨a, d⟩ := first
    cases hfiled : a.filed d with
    | error fault =>
      rw [w.emit_cons_of_fault rest report k s hfiled, w.emit_cons_of_fault rest report k' t hfiled]
    | ok file? =>
      let e : Emission := ⟨a, d, file?, hfiled⟩
      cases hf : e.file? with
      | none =>
        refine (congrArg Prod.fst (w.emit_cons_of_skipped rest report k s hf)).trans ?_
        exact (ih h _ _ _).trans
          (congrArg Prod.fst (w.emit_cons_of_skipped rest report k' t hf)).symm
      | some f =>
        have hsame : k.fails f.1 = k'.fails f.1 := by
          rw [MemoryStore.fails, h]
          rfl
        cases hfails : k.fails f.1 with
        | true =>
          exact (w.emit_cons_of_failed rest report k s hf hfails).1.trans
            (w.emit_cons_of_failed rest report k' t hf (hsame ▸ hfails)).1.symm
        | false =>
          refine (congrArg Prod.fst (w.emit_cons_of_written rest report k s hf hfails)).trans ?_
          refine Eq.trans ?_ (congrArg Prod.fst
            (w.emit_cons_of_written rest report k' t hf (hsame ▸ hfails))).symm
          have hnext : (k.withFile f).failing = (k'.withFile f).failing := h
          exact ih hnext _ _ _

/-- **A file keeps its text, or gets that of an artifact that the plan files there.** -/
theorem text?_emit (plan : List (Artifact × Decision)) (id : Identity) (report : RunReport)
    (k : MemoryStore) (s : σ) :
    (w.emit plan report k s).2.1.text? id = k.text? id ∨
      ∃ a d text, (a, d) ∈ plan ∧ a.filed d = .ok (some (id, text)) ∧
        (w.emit plan report k s).2.1.text? id = some (markedText text) := by
  obtain ⟨es, rest, rfl, -, hk, -⟩ := w.emit_cases plan report k s
  rw [hk, MemoryStore.text?_withEmissions]
  cases hl : (Emission.files es).reverse.lookup id with
  | none => exact Or.inl rfl
  | some text =>
    obtain ⟨e, hmem, hfile⟩ := Emission.exists_of_lookup_files hl
    exact Or.inr ⟨e.artifact, e.decision, text, List.mem_append_left _ (List.mem_map_of_mem hmem),
      hfile ▸ e.filed, rfl⟩

/-- **What is reported as written is there**: the file has the text of an artifact that the plan
files under it. -/
theorem text?_of_written {plan : List (Artifact × Decision)} {report result : RunReport}
    {k : MemoryStore} {s : σ} {e : FiledArtifact}
    (h : (w.emit plan report k s).1 = .ok result) (he : e ∈ result.written)
    (hnew : e ∉ report.written) :
    ∃ a d text, (a, d) ∈ plan ∧ a.filed d = .ok (some (e.id, text)) ∧
      (w.emit plan report k s).2.1.text? e.id = some (markedText text) := by
  obtain ⟨es, rest, rfl, -, hk, hend⟩ := w.emit_cases plan report k s
  have hwritten : result.written = report.written ++ es.filterMap Emission.written? := by
    rcases hend with ⟨-, hr⟩ | ⟨_, _, _, _, -, -, hr⟩ | ⟨_, _, _, -, -, -, hr⟩ <;>
      cases hr.symm.trans h <;> rfl
  rw [hwritten, List.mem_append, or_iff_right hnew] at he
  obtain ⟨e₀, ho, hentry⟩ := List.mem_filterMap.1 he
  obtain ⟨f, hfile, rfl⟩ := Option.map_eq_some_iff.1 hentry
  -- a later artifact may be filed under the same identity
  rw [hk, MemoryStore.text?_withEmissions]
  cases hl : (Emission.files es).reverse.lookup f.1 with
  | none =>
    have hmem : f ∈ (Emission.files es).reverse :=
      List.mem_reverse.2 (Emission.mem_files.2 ⟨e₀, ho, hfile⟩)
    simpa using List.lookup_eq_none_iff.1 hl f hmem
  | some text =>
    obtain ⟨e₁, ho', hfile'⟩ := Emission.exists_of_lookup_files hl
    exact ⟨e₁.artifact, e₁.decision, text, List.mem_append_left _ (List.mem_map_of_mem ho'),
      hfile' ▸ e₁.filed, rfl⟩

end Partner

end EntityScaffold
