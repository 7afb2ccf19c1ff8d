import EntityScaffold.Command.Program
import EntityScaffold.Proofs.Generation.Mirror
import EntityScaffold.Proofs.Generation.Outcome

/-!
# Previews

A preview shows all artifacts of a class, each with its path and its content. A run that writes all
of them under their own identities writes exactly the files that the preview shows
(`RunRequest.preview_shows_written`).
-/

namespace EntityScaffold

open Text

variable {σ : Type}

namespace Artifact

/-- The path and the content of an artifact's file. -/
def file (a : Artifact) : String × String := (a.filePath, markedText a.text)

/-- What a preview shows of an artifact. -/
def events (a : Artifact) : List ConsoleEvent :=
  [.rule (a.layer.label ++ ": " ++ a.file.1), .code "java" a.file.2]

/-- The path of an artifact's file has the names of its identity's file. -/
theorem filePath_eq {a : Artifact} (h : a.identity.IsNamed) :
    a.filePath = join "/" a.identity.fileNames := by
  obtain ⟨hpackage, hparts⟩ := h.package_eq
  have hnames := fun n hn => Path.isName_of_isIdentifier (hparts n hn)
  have hpath : packagePath a.package = join "/" a.identity.directories := by
    rw [packagePath, package, hpackage, map_join "." "/" (by decide) (by decide) fun n hn =>
      (hnames n hn).2.2.1, String.ofList_toList]
  unfold filePath
  dsimp only
  rw [hpath, Identity.fileNames]
  split_ifs with hempty <;> rw [join_eq_empty_iff fun n hn => (hnames n hn).1] at hempty
  · rw [hempty]
    simp [className, join]
  · rw [join_concat "/" hempty, String.append_assoc]
    rfl

end Artifact

/-! ### Runs that write everything -/

theorem DirectoryStore.hasWritten_emit (w : Partner σ) {artifacts : List Artifact}
    (hnamed : ∀ a ∈ artifacts, a.identity.IsNamed) (hclosed : ∀ a ∈ artifacts, IsClosed a.text)
    (hdistinct : (artifacts.map (·.identity)).Nodup) {k : DirectoryStore} (hdry : k.dryRun = false)
    {report result : RunReport} {s : σ}
    (h : (w.emit (artifacts.map (·, .write)) report k s).1 = .ok result)
    (hok : result.status = .ok) :
    k.HasWritten (w.emit (artifacts.map (·, .write)) report k s).2.1
      (artifacts.map Artifact.file) := by
  induction artifacts generalizing k report s with
  | nil => exact hasWritten_nil k
  | cons a artifacts ih =>
    obtain ⟨hid, hnamed⟩ := List.forall_mem_cons.1 hnamed
    obtain ⟨hfirst, hclosed⟩ := List.forall_mem_cons.1 hclosed
    rw [List.map_cons, List.nodup_cons] at hdistinct
    rw [List.map_cons, Partner.emit] at h ⊢
    simp only [Artifact.filed] at h ⊢
    rcases hw : Store.write k a.identity (markedText a.text) with ⟨fault | _, k'⟩ <;> rw [hw] at h
    · cases h
      cases hok
    · have hfile := hasWritten_of_write hdry hid (content_eq_self hfirst) hw
      rw [← a.filePath_eq hid] at hfile
      refine hfile.cons (ih hnamed hclosed hdistinct.2 (hfile.grows.dryRun.trans hdry) h) ?_
      intro f hf
      obtain ⟨b, hb, rfl⟩ := List.mem_map.1 hf
      have hother := hnamed b hb
      rw [Artifact.file, a.filePath_eq hid, b.filePath_eq hother, hid.ofString_fileNames,
        hother.ofString_fileNames]
      intro heq
      rw [← hother.eq_of_fileNames_eq hid heq] at hdistinct
      exact hdistinct.1 (List.mem_map_of_mem hb)

/-- **A plan writes every artifact** if nothing is reported as skipped, and what is written is so
under the identities of artifacts. -/
theorem Partner.plan_eq_writes (w : Partner σ) {m : Entity} {p : Settings}
    {existing : List Identity} {artifacts : List Artifact} {plan : List (Artifact × Decision)}
    {report result : RunReport} {s : σ} (hall : Artifact.all m p = .ok artifacts)
    (hplan : (w.plan p existing artifacts s).1 = .ok (some plan))
    (hreport : report.withPlan plan = .ok result) (hskipped : result.skipped = [])
    (hown : ∀ f ∈ result.written, f ∈ artifacts.map (·.ref)) :
    plan = artifacts.map (·, .write) := by
  have hartifacts := w.map_fst_of_settle hplan
  have hwritten := (RunReport.forall_written_withPlan hreport _).1 hown
  have hfiled := (RunReport.forall_skipped_withPlan hreport fun _ => False).1 (by simp [hskipped])
  have hwrite : ∀ step ∈ plan, step.2 = .write := by
    rintro ⟨a, d⟩ hstep
    cases d with
    | write => rfl
    | skip => exact (hfiled.2 _ hstep rfl).elim
    | rename name =>
      -- the new identity belongs to an artifact of the same layer, which has the old one
      obtain ⟨b, hb, href⟩ := List.mem_map.1 (hwritten.2 _ hstep _ rfl)
      have hlayer : b.layer = a.layer := congrArg FiledArtifact.layer href
      have ha : a ∈ artifacts := hartifacts ▸ List.mem_map_of_mem hstep
      have hsame : b.identity = a.identity := by
        rw [(Artifact.isOf_of_mem_all hall hb).identity,
          (Artifact.isOf_of_mem_all hall ha).identity, hlayer]
      have hname : a.className = name :=
        congrArg Identity.className (hsame.symm.trans (congrArg FiledArtifact.id href))
      exact absurd hname.symm (w.ne_of_settle_rename hplan hstep)
  rw [← hartifacts, List.map_map]
  refine (List.map_id plan).symm.trans (List.map_congr_left fun step hstep => ?_)
  exact Prod.ext rfl (hwrite step hstep)

/-! ### Previews -/

/-- Shows events one after the other. -/
def Session.shownAll (s : Session) (es : List ConsoleEvent) : Session := es.foldl Session.shown s

/-- A session that has not ended shows all of them. -/
theorem Session.shownAll_eq {s : Session} (h : s.ended = false) (es : List ConsoleEvent) :
    s.shownAll es = { s with events := s.events ++ es } := by
  induction es generalizing s with
  | nil => simp [shownAll]
  | cons e es ih =>
    have hshown : s.shown e = { s with events := s.events ++ [e] } := by simp [shown, h]
    have hrest := ih (s := s.shown e) (by rw [hshown]; exact h)
    rw [shownAll, List.foldl_cons, ← shownAll, hrest, hshown]
    simp

namespace Program

/-- The settings and the class that a preview is for. -/
def previewed (root entity : String) (o : SettingsOptions) : Program (Settings × SourceClass) := do
  let root ← projectRoot root
  let p ← settings root o
  let c ← classNamed (← sources root) entity
  return (p, c)

theorem preview_eq (root entity : String) (o : SettingsOptions) :
    preview root entity o =
      previewed root entity o >>= fun found => showArtifacts found.1 found.2 := by
  simp [preview, previewed]

/-- After a program that comes to its end, another one goes on. -/
theorem run_bind_of_ok {α β : Type} {x : Program α} {f : α → Program β} {a : α} {d d' : Desk}
    (h : x.run.run d = (.ok a, d')) : (x >>= f).run.run d = (f a).run.run d' := by
  have hx : StateT.run (ExceptT.run x) d = (.ok a, d') := h
  rw [ExceptT.run_bind, StateT.run_bind, hx]
  rfl

/-- Artifacts are shown one after the other. -/
theorem run_display_events (artifacts : List Artifact) (d : Desk) :
    (forIn artifacts PUnit.unit fun a _ => do
      display (.rule (a.layer.label ++ ": " ++ a.filePath))
      display (.code "java" (markedText a.text))
      pure (ForInStep.yield PUnit.unit) : Program PUnit).run.run d =
    (.ok ⟨⟩,
      { d with session := d.session.shownAll (artifacts.flatMap Artifact.events) }) := by
  induction artifacts generalizing d with
  | nil => rfl
  | cons a artifacts ih =>
    rw [List.forIn_cons]
    exact (run_bind_of_ok rfl).trans (ih _)

theorem run_showArtifacts {p : Settings} {c : SourceClass} {m : Entity}
    {artifacts : List Artifact} (hm : Entity.ofClass? .standard c = some m)
    (hall : Artifact.all m p = .ok artifacts) (d : Desk) :
    (showArtifacts p c).run.run d =
      (.ok 0,
        { d with session := d.session.shownAll (artifacts.flatMap Artifact.events) }) := by
  unfold showArtifacts
  rw [hm]
  dsimp only
  rw [hall]
  exact (run_bind_of_ok rfl).trans (run_bind_of_ok (run_display_events artifacts d))

theorem run_preview {root entity : String} {o : SettingsOptions} {p : Settings}
    {c : SourceClass} {m : Entity} {artifacts : List Artifact} {d d' : Desk}
    (hfound : (previewed root entity o).run.run d = (.ok (p, c), d'))
    (hended : d'.session.ended = false) (hm : Entity.ofClass? .standard c = some m)
    (hall : Artifact.all m p = .ok artifacts) :
    (preview root entity o).run.run d =
      (.ok 0, { d' with
        session.events := d'.session.events ++ artifacts.flatMap Artifact.events }) := by
  rw [preview_eq, run_bind_of_ok hfound, run_showArtifacts hm hall, Session.shownAll_eq hended]

end Program

namespace RunRequest

variable {r : RunRequest σ} {k : DirectoryStore} {s : σ} {report : RunReport}

/-- **A run that skips and renames nothing writes all artifacts of its class.** -/
theorem hasWritten_of_run (hnamed : ∀ id ∈ r.identities, id.IsNamed)
    (hdistinct : r.identities.Nodup) (hdry : k.dryRun = false) (hrun : (r.runOn k s).1 = .ok report)
    (hok : report.status = .ok) (hskipped : report.skipped = [])
    (hown : ∀ f ∈ report.written, f ∈ r.artifacts.map (·.ref)) :
    ∃ m, Entity.ofClass? r.table r.cls = some m ∧
      Artifact.all m r.settings = .ok r.artifacts ∧
      k.HasWritten (r.runOn k s).2.1 (r.artifacts.map Artifact.file) := by
  obtain ⟨m, artifacts, plan, concerns, missing, s₁, s₂, hm, hall, hplan, hemit⟩ :=
    exists_plan_of_ok hrun hok
  rw [identities_eq hm hall] at hnamed hdistinct
  rw [artifacts_eq hm hall] at hown ⊢
  rw [hemit] at hrun ⊢
  have hreport := (r.partner.emit_eq_withPlan fun result hresult => by
    rw [hrun, Except.ok.injEq] at hresult
    simp [← hresult, hok]).symm.trans hrun
  obtain rfl := r.partner.plan_eq_writes hall hplan hreport hskipped hown
  exact ⟨m, hm, hall, DirectoryStore.hasWritten_emit r.partner
    (fun a ha => hnamed _ (List.mem_map_of_mem ha))
    (fun a ha => Artifact.isClosed_of_mem_all hall ha) hdistinct hdry hrun hok⟩

/-- **A preview shows what is written.** The identities of a class's artifacts are pairwise distinct
and consist of identifiers. A run on a store in a directory that ends well, and neither skips nor
renames anything, has written exactly the files that every preview for this class and these
settings shows: path by path, and with these contents. -/
theorem preview_shows_written (htable : r.table = .standard)
    (hnamed : ∀ id ∈ r.identities, id.IsNamed) (hdistinct : r.identities.Nodup)
    (hdry : k.dryRun = false) (hrun : (r.runOn k s).1 = .ok report) (hok : report.status = .ok)
    (hskipped : report.skipped = []) (hown : ∀ f ∈ report.written, f ∈ r.artifacts.map (·.ref)) :
    k.HasWritten (r.runOn k s).2.1 (r.artifacts.map Artifact.file) ∧
      ∀ root entity o d d',
        (Program.previewed root entity o).run.run d = (.ok (r.settings, r.cls), d') →
          d'.session.ended = false →
          (Program.preview root entity o).run.run d =
            (.ok 0, { d' with
              session.events := d'.session.events ++ r.artifacts.flatMap Artifact.events }) := by
  obtain ⟨m, hm, hall, hwritten⟩ :=
    hasWritten_of_run hnamed hdistinct hdry hrun hok hskipped hown
  rw [htable] at hm
  exact ⟨hwritten, fun root entity o d d' hfound hended =>
    Program.run_preview hfound hended hm hall⟩

/-- A request for a transfer object and a repository, as programs make it. -/
def dtoAndRepository : RunRequest Unit :=
  { ofLayers (.constant (.once .skip)) [.dto, .repository] with table := .standard }

/-- What a run for two layers writes in a directory that is not there yet. -/
theorem preview_shows_dtoAndRepository :
    freshStore.HasWritten (dtoAndRepository.runOn freshStore ()).2.1
        (dtoAndRepository.artifacts.map Artifact.file) ∧
      dtoAndRepository.artifacts.map (·.filePath) =
        ["shop/api/UserDTO.java", "shop/api/UserRepository.java"] := by
  have hidentities : dtoAndRepository.identities =
      [⟨"shop.api", "UserDTO"⟩, ⟨"shop.api", "UserRepository"⟩] := by
    decide +kernel
  have hrun : (dtoAndRepository.runOn freshStore ()).1 = .ok
      { status := .ok
        written := [⟨.dto, ⟨"shop.api", "UserDTO"⟩⟩,
          ⟨.repository, ⟨"shop.api", "UserRepository"⟩⟩] } := by
    decide +kernel
  have hparts : ∀ n ∈ ["shop", "api"], isIdentifier n.toList = true := by decide +kernel
  have hnamed : ∀ id ∈ dtoAndRepository.identities, id.IsNamed := by
    rw [hidentities]
    simp only [List.mem_cons, List.not_mem_nil, or_false, forall_eq_or_imp, forall_eq]
    exact ⟨⟨⟨_, rfl, hparts⟩, by decide +kernel⟩, ⟨_, rfl, hparts⟩, by decide +kernel⟩
  exact ⟨(preview_shows_written rfl hnamed (by rw [hidentities]; decide) rfl hrun rfl rfl
    (by decide +kernel)).1, by decide +kernel⟩

end RunRequest

end EntityScaffold
