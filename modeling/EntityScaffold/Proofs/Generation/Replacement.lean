import EntityScaffold.Proofs.Generation.Account
import EntityScaffold.Proofs.Generation.Approval
import EntityScaffold.Proofs.Generation.Declared

/-!
# Artifacts of one identity

Settings may give two layers artifacts of one identity. What the earlier one files stays, unless the
later one is written there and that was approved; a later artifact that is renamed never takes its
place (`RunRequest.kept_or_replaced`). So a run in which nothing is approved files everything under
identities of its own. The exception is a name that a function of the partner's makes empty, which
no batch claims.
-/

namespace EntityScaffold

variable {σ : Type}

namespace RunRequest

variable {r : RunRequest σ} {x : MemoryStore × σ} {s : σ} {report : RunReport}

/-- After other artifacts of a run, an artifact is written under an identity, and it was approved
that it takes the place of what is there. -/
structure Replaces (r : RunRequest σ) (x : MemoryStore × σ) (s : σ) (before : List Emission)
    (e : Emission) (id : Identity) : Prop where
  write : e.decision = .write
  identity : e.artifact.identity = id
  approved : r.partner.ApprovesNext r.settings (Store.existing x.1) (before.map (·.artifact))
    e.artifact s

/-- The plan for the artifacts of these emissions, settled from some state, has their decisions. -/
def Settled (r : RunRequest σ) (x : MemoryStore × σ) (es : List Emission) (s : σ) : Prop :=
  (r.partner.plan r.settings (Store.existing x.1) (es.map (·.artifact)) s).1 =
    .ok (some (es.map Emission.step))

namespace Settled

variable {before after : List Emission} {e : Emission}

/-- A plan as it stands around one of its emissions. -/
theorem plan_eq (h : r.Settled x (before ++ e :: after) s) :
    (r.partner.plan r.settings (Store.existing x.1) ((before ++ e :: after).map (·.artifact)) s).1 =
      .ok (some (before.map Emission.step ++ (e.artifact, e.decision) ::
        after.map Emission.step)) := by
  unfold Settled at h
  rwa [List.map_append (f := Emission.step), List.map_cons] at h

/-- Where renamed artifacts are numbered, no new name is empty, or that of the artifact itself. -/
theorem ne_of_rename (h : r.Settled x (before ++ e :: after) s)
    (hnone : r.partner.alternative = none) {name : String} (hd : e.decision = .rename name) :
    name ≠ "" ∧ name ≠ e.artifact.className := by
  have hplan := h.plan_eq
  rw [hd] at hplan
  obtain ⟨hname, -, -⟩ := r.partner.free_of_settle_rename hplan
  rw [hnone] at hname
  exact Batch.ne_of_mem_candidates hname

/-- So what has an artifact's own identity has its own text. -/
theorem text_eq_of_own {f : Identity × String} (h : r.Settled x (before ++ e :: after) s)
    (hnone : r.partner.alternative = none) (hf : e.file? = some f)
    (hid : f.1 = e.artifact.identity) : f.2 = e.artifact.text := by
  rcases Artifact.filed_eq_some (e.filed.trans (congrArg _ hf)) with
    ⟨-, -, htext⟩ | ⟨name, hd, hname, -⟩
  · exact htext
  · have hsame : name = e.artifact.className := congrArg Identity.className (hname.symm.trans hid)
    exact absurd hsame (h.ne_of_rename hnone hd).2

/-- A new name leads to an identity that no earlier decision takes. -/
theorem free_of_rename (h : r.Settled x (before ++ e :: after) s) {name : String}
    (hd : e.decision = .rename name) {first : Emission} (hfirst : first ∈ before) :
    first.decision.target? first.artifact.identity ≠
      some { e.artifact.identity with className := name } := by
  have hplan := h.plan_eq
  rw [hd] at hplan
  obtain ⟨-, -, hfree⟩ := r.partner.free_of_settle_rename hplan
  exact hfree _ (List.mem_map_of_mem (f := Emission.step) hfirst)

/-- An artifact that is filed under an identity that an earlier decision takes replaces what is
there. -/
theorem replaces {f : Identity × String} (h : r.Settled x (before ++ e :: after) s)
    (hf : e.file? = some f)
    (htaken : ∃ first ∈ before, first.decision.target? first.artifact.identity = some f.1) :
    r.Replaces x s before e f.1 := by
  obtain ⟨first, hfirst, ht⟩ := htaken
  rcases Artifact.filed_eq_some (e.filed.trans (congrArg _ hf)) with
    ⟨hd, hid, -⟩ | ⟨name, hd, hid, -⟩
  · have hplan := h.plan_eq
    have hstep := List.mem_map_of_mem (f := Emission.step) hfirst
    rw [hd] at hplan
    refine ⟨hd, hid.symm, ?_⟩
    rw [← Emission.map_fst_step]
    exact Partner.approvesNext_of_plan hplan (Or.inr ⟨_, hstep, hid ▸ ht⟩)
  · exact absurd (hid ▸ ht) (h.free_of_rename hd hfirst)

/-- What an emission files is the last under its identity, or a later one replaces it, or its own
new name is empty. -/
theorem last_or_replaced {f : Identity × String} (h : r.Settled x (before ++ e :: after) s)
    (hf : e.file? = some f) :
    (∀ g ∈ Emission.files after, g.1 ≠ f.1) ∨
      (∃ mid later rest, after = mid ++ later :: rest ∧
        r.Replaces x s (before ++ e :: mid) later f.1) ∨
      e.decision = .rename "" := by
  by_cases hlast : ∀ g ∈ Emission.files after, g.1 ≠ f.1
  · exact Or.inl hlast
  · right
    push Not at hlast
    obtain ⟨g, hg, hgf⟩ := hlast
    obtain ⟨later, hlater, hfile⟩ := Emission.mem_files.1 hg
    obtain ⟨mid, rest, rfl⟩ := List.append_of_mem hlater
    rcases Emission.target?_eq_some hf with ht | hempty
    · left
      rw [← List.cons_append, ← List.append_assoc] at h
      rw [← hgf] at ht ⊢
      exact ⟨mid, later, rest, rfl, h.replaces hfile ⟨e, by simp, ht⟩⟩
    · exact Or.inr hempty

/-- Where nothing is approved and no name is empty, everything is filed under an identity of its
own. -/
theorem nodup_map_files {es : List Emission} (h : r.Settled x es s)
    (hover : r.settings.overwrite = false)
    (hanswers : ∀ q ∈ r.partner.answers r.settings (Store.existing x.1) (es.map (·.artifact)) s,
      ∀ c, q.2 = some c → c.action ≠ .write)
    (hnames : ∀ e ∈ es, e.decision ≠ .rename "") :
    ((Emission.files es).map (·.1)).Nodup := by
  refine Emission.nodup_map_files fun before e after f hes hf => ?_
  subst hes
  rcases h.last_or_replaced hf with hlast | ⟨mid, later, rest, rfl, hreplaces⟩ | hempty
  · exact hlast
  · rw [← List.cons_append, ← List.append_assoc] at h hanswers
    have happroved := hreplaces.approved
    rw [← Emission.map_fst_step] at happroved
    exact absurd happroved (Partner.not_approvesNext_of_plan h.plan_eq hover hanswers)
  · exact absurd hempty (hnames e (by simp))

end Settled

/-- **What a run files stays, unless a later artifact of the run may replace it.** In a run that
ends well, each artifact that is filed still has its text, and no later artifact has its identity;
or a later one is written under that identity, approved by the settings or by an answer; or its own
new name was made empty. An artifact that is renamed takes an identity that no earlier one takes.
Where nothing is approved and no name is empty, all identities that are reported as written are
different. -/
theorem kept_or_replaced (h : (r.run x).1 = .ok report) (hok : report.status = .ok) :
    ∃ (es : List Emission) (s : σ), r.Makes x (es.map (·.artifact)) s ∧ r.Settled x es s ∧
      report.written = es.filterMap Emission.written? ∧
      (∀ before e after f, es = before ++ e :: after → e.file? = some f →
        ((r.run x).2.1.text? f.1 = some (markedText f.2) ∧ ∀ g ∈ Emission.files after, g.1 ≠ f.1) ∨
        (∃ mid later rest, after = mid ++ later :: rest ∧
          r.Replaces x s (before ++ e :: mid) later f.1) ∨
        (e.decision = .rename "" ∧ r.partner.alternative ≠ none)) ∧
      (∀ before e after name, es = before ++ e :: after → e.decision = .rename name →
        ∀ first ∈ before, first.decision.target? first.artifact.identity ≠
          some { e.artifact.identity with className := name }) ∧
      (r.settings.overwrite = false →
        (∀ q ∈ r.partner.answers r.settings (Store.existing x.1) (es.map (·.artifact)) s,
          ∀ c, q.2 = some c → c.action ≠ .write) →
        (∀ e ∈ es, e.decision ≠ .rename "") → (report.written.map (·.id)).Nodup) := by
  obtain ⟨es, ⟨artifacts, s, hmake, hplan⟩, -, haccount⟩ := account_of_ok h hok
  obtain rfl : artifacts = es.map (·.artifact) := by
    rw [← r.partner.map_fst_of_settle hplan, Emission.map_fst_step]
  have hsettled : r.Settled x es s := hplan
  refine ⟨es, s, hmake, hsettled, haccount.written, ?_, ?_, ?_⟩
  · intro before e after f hes hf
    subst hes
    rcases hsettled.last_or_replaced hf with hlast | hreplaced | hempty
    · refine Or.inl ⟨?_, hlast⟩
      rw [MemoryStore.text?, haccount.files, MemoryStore.lookup_putFiles,
        Emission.lookup_files_of_last hf hlast]
      rfl
    · exact Or.inr (Or.inl hreplaced)
    · exact Or.inr (Or.inr ⟨hempty, fun hnone => (hsettled.ne_of_rename hnone hempty).1 rfl⟩)
  · intro before e after name hes hd first hfirst
    subst hes
    exact hsettled.free_of_rename hd hfirst
  · intro hover hanswers hnames
    rw [haccount.written, Emission.map_id_written?]
    exact hsettled.nodup_map_files hover hanswers hnames

/-- Settings by which the transfer object and the repository of a user have one identity, and by
which nobody is asked. -/
def clash : RunRequest Unit :=
  { ofUser (.constant (.once .skip)) "Api" with
    settings := { Settings.standard with
      layer := fun k => ⟨k ∈ [.dto, .repository], "Api", "api"⟩
      accessorStyle := false
      overwrite := true } }

theorem run_clash :
    (clash.run ({}, ())).1 =
      .ok { status := .ok
            written :=
              [⟨.dto, ⟨"shop.api", "UserApi"⟩⟩, ⟨.repository, ⟨"shop.api", "UserApi"⟩⟩] } := by
  decide +kernel

/-- The two emissions of a clash. -/
theorem exists_emissions_clash {es : List Emission}
    (h : [⟨.dto, ⟨"shop.api", "UserApi"⟩⟩, ⟨.repository, ⟨"shop.api", "UserApi"⟩⟩] =
      es.filterMap Emission.written?) :
    ∃ before e mid e' rest text text', es = before ++ e :: (mid ++ e' :: rest) ∧
      e.artifact.layer = .dto ∧ e.file? = some (⟨"shop.api", "UserApi"⟩, text) ∧
      e'.artifact.layer = .repository ∧ e'.file? = some (⟨"shop.api", "UserApi"⟩, text') := by
  obtain ⟨before, e, after, rfl, -, he, hafter⟩ := List.filterMap_eq_cons_iff.1 h.symm
  obtain ⟨mid, e', rest, rfl, -, he', -⟩ := List.filterMap_eq_cons_iff.1 hafter
  obtain ⟨⟨id, text⟩, hf, hentry⟩ := Option.map_eq_some_iff.1 he
  obtain ⟨⟨id', text'⟩, hf', hentry'⟩ := Option.map_eq_some_iff.1 he'
  rw [FiledArtifact.mk.injEq] at hentry hentry'
  obtain ⟨hlayer, rfl⟩ := hentry
  obtain ⟨hlayer', rfl⟩ := hentry'
  exact ⟨before, e, mid, e', rest, text, text', rfl, hlayer, hf, hlayer', hf'⟩

/-- The transfer object of a clash is replaced. -/
theorem replaces_clash :
    ∃ (before : List Emission) (e : Emission), e.artifact.layer = .dto ∧
      ∃ mid later rest s, clash.Makes ({}, ())
          ((before ++ e :: (mid ++ later :: rest)).map (·.artifact)) s ∧
        clash.Replaces ({}, ()) s (before ++ e :: mid) later ⟨"shop.api", "UserApi"⟩ := by
  obtain ⟨es, s, hmake, -, hwritten, hkept, -⟩ := kept_or_replaced run_clash rfl
  obtain ⟨before, e, mid, e', rest, text, text', rfl, hlayer, hf, -, hf'⟩ :=
    exists_emissions_clash hwritten
  rcases hkept before e _ _ rfl hf with ⟨-, hlast⟩ | ⟨mid, later, rest, hafter, h⟩ | ⟨-, hnone⟩
  · exact absurd rfl (hlast (_, text') (Emission.mem_files.2 ⟨e', by simp, hf'⟩))
  · rw [hafter] at hmake
    exact ⟨before, e, hlayer, mid, later, rest, s, hmake, h⟩
  · exact absurd rfl hnone

/-- Everything that a run reports as written still has the text that was made for it. -/
def KeepsWritten (r : RunRequest σ) (x : MemoryStore × σ) (report : RunReport) : Prop :=
  ∃ (es : List Emission) (s : σ), r.Makes x (es.map (·.artifact)) s ∧ r.Settled x es s ∧
    report.written = es.filterMap Emission.written? ∧
    ∀ e ∈ es, ∀ f, e.file? = some f → (r.run x).2.1.text? f.1 = some (markedText f.2)

/-- The text that a clash makes for the transfer object. -/
def clashText : String := "package shop.api;\n\npublic class UserApi \x7b\n\x7d\n"

theorem text?_clash :
    Layer.dto.text? (Entity.describe clash.table clash.cls) clash.settings =
      .ok (some clashText) := by
  decide +kernel

theorem not_keepsWritten_clash {report : RunReport} (h : (clash.run ({}, ())).1 = .ok report) :
    ¬ clash.KeepsWritten ({}, ()) report := by
  rintro ⟨es, s, hmake, hsettled, hwritten, hkept⟩
  cases run_clash.symm.trans h
  obtain ⟨before, e, mid, e', rest, text, text', rfl, hlayer, hf, hlayer', hf'⟩ :=
    exists_emissions_clash hwritten
  have hof := isOf_of_makes hmake (a := e.artifact) (by simp)
  have hof' := isOf_of_makes hmake (a := e'.artifact) (by simp)
  have htext : text = clashText := by
    have hid : e.artifact.identity = ⟨"shop.api", "UserApi"⟩ := by
      rw [hof.identity, hlayer]
      decide
    have hown := hof.text
    rw [hlayer, text?_clash, Except.ok.injEq, Option.some.injEq] at hown
    exact (hsettled.text_eq_of_own rfl hf hid.symm).trans hown.symm
  have htext' : text' = e'.artifact.text := by
    have hid : e'.artifact.identity = ⟨"shop.api", "UserApi"⟩ := by
      rw [hof'.identity, hlayer']
      decide
    rw [← List.cons_append, ← List.append_assoc] at hsettled
    exact hsettled.text_eq_of_own rfl hf' hid.symm
  -- both texts are said to be under the one identity, but the second one declares an interface
  have hsame : markedText text = markedText text' :=
    Option.some.inj ((hkept e (by simp) _ hf).symm.trans (hkept e' (by simp) _ hf'))
  rw [markedText, markedText, String.append_right_inj, htext, htext'] at hsame
  obtain ⟨line, x, y, hline, -⟩ := Layer.isLineOf_of_text? hof'.text
  rw [← hsame, hlayer'] at hline
  have hinterface : "interface".toList <:+: clashText.toList :=
    (keyword_infix_declarationLine _ _ _).trans ⟨x, '\n' :: y, hline.symm⟩
  rw [← Text.occursIn_iff_infix] at hinterface
  revert hinterface
  decide

/-- **An artifact may be lost to another one of its run**: its text is gone, and its identity is
reported twice. -/
theorem exists_lost_artifact :
    (¬ ∀ (r : RunRequest Unit) (x : MemoryStore × Unit) (report : RunReport),
      (r.run x).1 = .ok report → report.status = .ok → r.KeepsWritten x report) ∧
    ¬ ∀ (r : RunRequest Unit) (x : MemoryStore × Unit) (report : RunReport),
      (r.run x).1 = .ok report → report.status = .ok → (report.written.map (·.id)).Nodup := by
  constructor
  · intro h
    exact not_keepsWritten_clash run_clash (h clash ({}, ()) _ run_clash rfl)
  · intro h
    have hnodup := h clash ({}, ()) _ run_clash rfl
    revert hnodup
    decide

end RunRequest

end EntityScaffold
