import EntityScaffold.Proofs.Artifact.SiblingImport
import EntityScaffold.Proofs.Generation.Replacement

/-!
# References between the artifacts of a run

An artifact refers to its siblings by the names that they have before anything is settled, and each
of them may then be written, skipped or renamed, and the artifact itself renamed. The references
still lead somewhere: an artifact is skipped or renamed only where something has its name already
(`RunRequest.Settled.exists_own`), and renaming changes no line that imports a sibling
(`RunRequest.siblings_kept`). What may be lost is the artifact itself, if it is given the name of a
later one that is then written over it (`RunRequest.exists_dangling_reference`).
-/

namespace EntityScaffold

variable {σ : Type}

namespace RunRequest

/-- The entity that a request's class describes. -/
abbrev entity (r : RunRequest σ) : Entity := Entity.describe r.table r.cls

variable {r : RunRequest σ} {x : MemoryStore × σ} {s : σ} {report : RunReport}

namespace Settled

/-- **The own identity of every artifact is taken in the end**: it was there before the run, or some
artifact is filed under it. -/
theorem exists_own {es : List Emission} (h : r.Settled x es s) {e : Emission} (he : e ∈ es) :
    e.artifact.identity ∈ Store.existing x.1 ∨
      ∃ f ∈ Emission.files es, f.1 = e.artifact.identity := by
  obtain ⟨before, after, rfl⟩ := List.append_of_mem he
  obtain ⟨b, b', hs, hr⟩ := r.partner.exists_resolve_of_settle h.plan_eq
  cases ht : b.isTaken (Store.existing x.1) e.artifact.identity with
  | false =>
    -- nothing takes it, so that the artifact itself is written
    rw [Batch.resolve_of_free ht] at hr
    have hd : e.decision = .write := (Except.ok.inj (congrArg Prod.fst hr)).symm
    have htarget : e.decision.target? e.artifact.identity = some e.artifact.identity := by
      rw [hd]
      rfl
    obtain ⟨text, hf⟩ := Emission.exists_file_of_target? htarget
    exact Or.inr ⟨_, Emission.mem_files.2 ⟨e, he, hf⟩, rfl⟩
  | true =>
    rw [Batch.isTaken_iff, hs.mem_claimed] at ht
    rcases ht with hold | hclaimed | ⟨step, hstep, htarget⟩
    · exact Or.inl hold
    · split at hclaimed <;> cases hclaimed
    · obtain ⟨first, hfirst, rfl⟩ := List.mem_map.1 hstep
      obtain ⟨text, hf⟩ := Emission.exists_file_of_target? htarget
      exact Or.inr ⟨_, Emission.mem_files.2 ⟨first, List.mem_append_left _ hfirst, hf⟩, rfl⟩

end Settled

/-- A run that ends well gives the account of all artifacts that it makes, as they are settled. -/
theorem exists_settled_of_ok (h : (r.run x).1 = .ok report) (hok : report.status = .ok) :
    ∃ (es : List Emission) (s : σ), r.Makes x (es.map (·.artifact)) s ∧ r.Settled x es s ∧
      report.Accounts x.1 es (r.run x).2.1 := by
  obtain ⟨es, ⟨artifacts, s, hmake, hplan⟩, -, haccount⟩ := account_of_ok h hok
  obtain rfl : artifacts = es.map (·.artifact) := by
    rw [← r.partner.map_fst_of_settle hplan, Emission.map_fst_step]
  exact ⟨es, s, hmake, hplan, haccount⟩

/-- Where all layers are enabled, a run makes an artifact of each of them, under its own
identity. -/
theorem exists_artifact_of_makes {es : List Emission} (h : r.Makes x (es.map (·.artifact)) s)
    (henabled : ∀ k, r.settings.enabled k = true) (j : Layer) :
    ∃ e ∈ es, e.artifact.identity = j.identity r.entity r.settings := by
  have ⟨m, _, _, _, hall⟩ := h
  have hlayers := Artifact.map_layer_of_all hall
  have hj : j ∈ (es.map (·.artifact)).map (·.layer) := by
    rw [hlayers, List.mem_filter]
    refine ⟨?_, ?_⟩
    · cases j <;> simp [Layer.generated]
    · simp [Layer.isEnabled, henabled]
  obtain ⟨a, ha, rfl⟩ := List.mem_map.1 hj
  obtain ⟨e, he, rfl⟩ := List.mem_map.1 ha
  exact ⟨e, he, (isOf_of_makes h ha).identity⟩

/-- No two artifacts of a run are of one layer. -/
theorem ne_layer_of_makes {before mid rest : List Emission} {e later : Emission}
    (h : r.Makes x ((before ++ e :: (mid ++ later :: rest)).map (·.artifact)) s) :
    e.artifact.layer ≠ later.artifact.layer := by
  obtain ⟨m, -, -, -, hall⟩ := h
  have hnodup :
      (((before ++ e :: (mid ++ later :: rest)).map (·.artifact)).map (·.layer)).Nodup := by
    rw [Artifact.map_layer_of_all hall]
    exact List.Nodup.filter _ (by decide)
  simp only [List.map_append, List.map_cons, List.nodup_append, List.nodup_cons] at hnodup
  intro heq
  exact hnodup.2.1.1 (by simp [heq])

/-- What is filed for an artifact imports the artifact's siblings from other packages. -/
theorem isLineOf_import_of_file? {m : Entity} {p : Settings} {e : Emission} {f : Identity × String}
    {j : Layer} (ha : e.artifact.IsOf m p) (h : p.NamesApart m) (hf : e.file? = some f)
    (hj : j ∈ e.artifact.layer.siblings p) (hpackage : j.package m p ≠ "")
    (hne : j.package m p ≠ f.1.package) :
    IsLineOf (ImportBlock.line (j.qualifiedName m p)).toList (markedText f.2).toList := by
  have hown : f.1.package = e.artifact.package := by
    rcases Artifact.filed_eq_some (e.filed.trans (congrArg _ hf)) with
      ⟨-, hid, -⟩ | ⟨name, -, hid, -⟩
    · rw [hid, Artifact.package]
    · rw [hid, Artifact.package]
  rw [hown, ha.package_eq] at hne
  refine IsLineOf.markedText ?_
  rcases Artifact.filed_eq_some (e.filed.trans (congrArg _ hf)) with
    ⟨-, -, htext⟩ | ⟨name, -, -, hr⟩
  · rw [htext]
    exact ha.isLineOf_import h hj hpackage hne
  · exact ha.isLineOf_import_of_rename h hr hj hpackage hne

/-- **Renamed and skipped artifacts leave no dangling references.** In a run that ends well, the
siblings that a filed artifact refers to are there under their own identities: those were there
before, or something is filed under them. And the artifact still imports each sibling from another
package by that name; or it is itself renamed, and a later artifact of the run, whose own name is
the new name, is written over it, which was approved. -/
theorem siblings_kept (hnames : r.settings.NamesApart r.entity)
    (hnone : r.partner.alternative = none) (h : (r.run x).1 = .ok report)
    (hok : report.status = .ok) :
    ∃ (es : List Emission) (s : σ), r.Makes x (es.map (·.artifact)) s ∧ r.Settled x es s ∧
      report.written = es.filterMap Emission.written? ∧
      ∀ before e after f, es = before ++ e :: after → e.file? = some f →
        ∀ j ∈ e.artifact.layer.siblings r.settings,
          j.identity r.entity r.settings ∈ Store.existing (r.run x).2.1 ∧
          (j.package r.entity r.settings ≠ "" →
            j.package r.entity r.settings ≠ f.1.package →
            (∃ text, (r.run x).2.1.text? f.1 = some text ∧
              IsLineOf (ImportBlock.line
                (j.qualifiedName r.entity r.settings)).toList text.toList) ∨
            ∃ name, e.decision = .rename name ∧ ∃ mid later rest, after = mid ++ later :: rest ∧
              r.Replaces x s (before ++ e :: mid) later f.1) := by
  obtain ⟨es, s, hmake, hsettled, haccount⟩ := exists_settled_of_ok h hok
  refine ⟨es, s, hmake, hsettled, haccount.written, ?_⟩
  intro before e after f hes hf j hj
  have hof := isOf_of_makes hmake (a := e.artifact) (by simp [hes])
  constructor
  · obtain ⟨e', he', hid⟩ := exists_artifact_of_makes hmake hnames.enabled j
    rw [← hid, haccount.mem_existing_iff_or_filed]
    exact hsettled.exists_own he'
  · intro hpackage hne
    subst hes
    rcases hsettled.last_or_replaced hf with hlast | ⟨mid, later, rest, rfl, hreplaces⟩ | hempty
    · left
      exact ⟨markedText f.2, haccount.text?_of_last hf hlast,
        isLineOf_import_of_file? hof hnames hf hj hpackage hne⟩
    · right
      rcases Artifact.filed_eq_some (e.filed.trans (congrArg _ hf)) with
        ⟨-, hid, -⟩ | ⟨name, hd, -, -⟩
      · -- the later artifact has a name of its own
        have hlater := isOf_of_makes hmake (a := later.artifact) (by simp)
        have hsame := hreplaces.identity.trans hid
        rw [hlater.identity, hof.identity] at hsame
        have hlayer := hnames.injective _ _ (congrArg Identity.className hsame)
        exact absurd hlayer.symm (ne_layer_of_makes hmake)
      · exact ⟨name, hd, mid, later, rest, rfl, hreplaces⟩
    · exact absurd rfl (hsettled.ne_of_rename hnone hempty).1

/-- An entry of a report behind which nothing else is filed under its identity has the text of its
artifact. -/
theorem exists_emission_of_last {before after : List FiledArtifact} {k : Layer} {id : Identity}
    (h : (r.run x).1 = .ok report) (hok : report.status = .ok)
    (hwritten : report.written = before ++ ⟨k, id⟩ :: after) (hlast : ∀ e ∈ after, e.id ≠ id) :
    ∃ (s : σ) (first : List Emission) (e : Emission) (last : List Emission) (text : String),
      r.Settled x (first ++ e :: last) s ∧
      e.artifact.IsOf r.entity r.settings ∧ e.artifact.layer = k ∧
      e.file? = some (id, text) ∧ (r.run x).2.1.text? id = some (markedText text) := by
  obtain ⟨es, s, hmake, hsettled, haccount⟩ := exists_settled_of_ok h hok
  obtain ⟨first, rest, rfl, -, hrest⟩ :=
    List.filterMap_eq_append_iff.1 (haccount.written.symm.trans hwritten)
  obtain ⟨skipped, e, last, rfl, -, he, hafter⟩ := List.filterMap_eq_cons_iff.1 hrest
  obtain ⟨⟨id', text⟩, hf, hentry⟩ := Option.map_eq_some_iff.1 he
  rw [FiledArtifact.mk.injEq] at hentry
  obtain ⟨rfl, rfl⟩ := hentry
  rw [← List.append_assoc] at hmake hsettled haccount
  refine ⟨s, first ++ skipped, e, last, text, hsettled, isOf_of_makes hmake (by simp), rfl, hf,
    haccount.text?_of_last hf ?_⟩
  intro g hg
  have hid : g.1 ∈ after.map (·.id) := by
    rw [← hafter, Emission.map_id_written?]
    exact List.mem_map_of_mem hg
  obtain ⟨entry, hentry, heq⟩ := List.mem_map.1 hid
  rw [← heq]
  exact hlast entry hentry

/-- All layers of a user, the mapper and the repository in one package, with answers by class
names. -/
def ofAnswers (mapper repository : String) (answer : String → ConflictAction) : RunRequest Unit :=
  { ofUser (fun id s => (some (.once (answer id.className)), s)) "" with
    settings := { Settings.standard with
      layer := fun
        | .dto => ⟨true, "Dto", "dto"⟩
        | .mapper => ⟨true, mapper, "api"⟩
        | .repository => ⟨true, repository, "api"⟩
        | .service => ⟨true, "Service", "service"⟩
        | .controller => ⟨true, "Controller", "controller"⟩
      accessorStyle := false } }

/-- A user whose transfer object is skipped and whose mapper is renamed. -/
def renamedMapper : RunRequest Unit :=
  ofAnswers "Mapper" "Repository" fun name => if name = "UserMapper" then .rename else .skip

def renamedMapperStore : MemoryStore where
  files := [(⟨"shop.dto", "UserDto"⟩, "a"), (⟨"shop.api", "UserMapper"⟩, "b")]

theorem run_renamedMapper :
    (renamedMapper.run (renamedMapperStore, ())).1 =
      .ok { status := .ok
            written :=
              [⟨.mapper, ⟨"shop.api", "UserMapper2"⟩⟩,
               ⟨.repository, ⟨"shop.api", "UserRepository"⟩⟩,
               ⟨.service, ⟨"shop.service", "UserService"⟩⟩,
               ⟨.controller, ⟨"shop.controller", "UserController"⟩⟩]
            skipped := [⟨.dto, ⟨"shop.dto", "UserDto"⟩⟩] } := by
  decide +kernel

theorem namesApart_renamedMapper :
    renamedMapper.settings.NamesApart renamedMapper.entity where
  enabled k := by cases k <;> rfl
  part := by decide
  className k := by cases k <;> decide
  injective j k := by cases j <;> cases k <;> decide
  notMem_parts k := by cases k <;> decide
  ne_import k := by cases k <;> decide

/-- The renamed mapper imports the transfer object that was there before. -/
theorem siblings_kept_renamedMapper :
    renamedMapper.settings.NamesApart renamedMapper.entity ∧
      ∃ text, (renamedMapper.run (renamedMapperStore, ())).2.1.text? ⟨"shop.api", "UserMapper2"⟩ =
          some text ∧
        IsLineOf "import shop.dto.UserDto;".toList text.toList := by
  refine ⟨namesApart_renamedMapper, ?_⟩
  obtain ⟨es, s, hmake, -, hwritten, hkept⟩ :=
    siblings_kept namesApart_renamedMapper rfl run_renamedMapper rfl
  have hmapper : (⟨.mapper, ⟨"shop.api", "UserMapper2"⟩⟩ : FiledArtifact) ∈
      es.filterMap Emission.written? := by
    rw [← hwritten]
    exact List.mem_cons_self
  obtain ⟨e, he, hentry⟩ := List.mem_filterMap.1 hmapper
  obtain ⟨⟨id, text⟩, hf, hfiled⟩ := Option.map_eq_some_iff.1 hentry
  rw [FiledArtifact.mk.injEq] at hfiled
  obtain ⟨hlayer, rfl⟩ := hfiled
  obtain ⟨before, after, rfl⟩ := List.append_of_mem he
  have hdto : Layer.dto ∈ e.artifact.layer.siblings renamedMapper.settings := by
    rw [hlayer]
    exact List.mem_cons_self
  obtain ⟨-, himport⟩ := hkept before e after _ rfl hf .dto hdto
  have hpackage : Layer.dto.package renamedMapper.entity renamedMapper.settings ≠ "" ∧
      Layer.dto.package renamedMapper.entity renamedMapper.settings ≠ "shop.api" := by
    decide
  rcases himport hpackage.1 hpackage.2 with hline | ⟨name, -, mid, later, rest, rfl, hreplaces⟩
  · exact hline
  · -- no artifact has the new name as its own
    have hlater := isOf_of_makes hmake (a := later.artifact) (by simp)
    have hown : ∀ k : Layer, k.identity renamedMapper.entity renamedMapper.settings ≠
        ⟨"shop.api", "UserMapper2"⟩ := by
      intro k
      cases k <;> decide
    exact absurd (hlater.identity.symm.trans hreplaces.identity) (hown _)

/-- A user whose mapper is given the name of the repository, which is then written. -/
def replacedMapper : RunRequest Unit :=
  ofAnswers "Link" "Link2" fun name => if name = "UserLink" then .rename else .write

def replacedMapperStore : MemoryStore where
  files := [(⟨"shop.api", "UserLink"⟩, "// written by hand\n")]

theorem run_replacedMapper :
    (replacedMapper.run (replacedMapperStore, ())).1 =
      .ok { status := .ok
            written :=
              [⟨.dto, ⟨"shop.dto", "UserDto"⟩⟩, ⟨.mapper, ⟨"shop.api", "UserLink2"⟩⟩,
               ⟨.repository, ⟨"shop.api", "UserLink2"⟩⟩,
               ⟨.service, ⟨"shop.service", "UserService"⟩⟩,
               ⟨.controller, ⟨"shop.controller", "UserController"⟩⟩] } := by
  decide +kernel

theorem namesApart_replacedMapper :
    replacedMapper.settings.NamesApart replacedMapper.entity where
  enabled k := by cases k <;> rfl
  part := by decide
  className k := by cases k <;> decide
  injective j k := by cases j <;> cases k <;> decide
  notMem_parts k := by cases k <;> decide
  ne_import k := by cases k <;> decide

/-- The repository's text takes the place of the mapper's. -/
theorem text?_replacedMapper :
    (replacedMapper.run (replacedMapperStore, ())).2.1.text? ⟨"shop.api", "UserLink2"⟩ =
      some (markedText (Artifact.repository
        replacedMapper.entity replacedMapper.settings).render) := by
  let start : List FiledArtifact :=
    [⟨.dto, ⟨"shop.dto", "UserDto"⟩⟩, ⟨.mapper, ⟨"shop.api", "UserLink2"⟩⟩]
  let rest : List FiledArtifact :=
    [⟨.service, ⟨"shop.service", "UserService"⟩⟩,
     ⟨.controller, ⟨"shop.controller", "UserController"⟩⟩]
  obtain ⟨s, before, e, after, text, hsettled, hof, hlayer, hf, htext⟩ :=
    exists_emission_of_last run_replacedMapper rfl
      (show _ = start ++ ⟨.repository, ⟨"shop.api", "UserLink2"⟩⟩ :: rest from rfl) (by decide)
  have hown : (⟨"shop.api", "UserLink2"⟩ : Identity) = e.artifact.identity := by
    rw [hof.identity, hlayer]
    decide
  have hrender : e.artifact.text = (Artifact.repository
      replacedMapper.entity replacedMapper.settings).render :=
    hof.text_eq (by rw [hlayer]; rfl)
  have hsame : text = e.artifact.text := hsettled.text_eq_of_own rfl hf hown
  rw [htext, hsame, hrender]

theorem allLines_replacedMapper :
    (Artifact.repository replacedMapper.entity
      replacedMapper.settings).allLines =
      ["package shop.api;", "",
       "import org.springframework.data.jpa.repository.JpaRepository;",
       "import org.springframework.stereotype.Repository;", "import shop.User;", "",
       "@Repository", "public interface UserLink2 extends JpaRepository<User, Long> \x7b",
       "\x7d"] := by
  have himports : ImportBlock.lines (Artifact.repository
      replacedMapper.entity replacedMapper.settings).imports =
        ["import org.springframework.data.jpa.repository.JpaRepository;",
         "import org.springframework.stereotype.Repository;", "import shop.User;"] := by
    refine Text.sortedSet_eq ?_ ?_ ?_
    · decide +kernel
    · decide +kernel
    · decide +kernel
  rw [Listing.allLines, Listing.importLines, himports]
  decide +kernel

/-- **A file that is reported as written need not import the siblings of its artifact**: it may be
that of another one by now. -/
theorem exists_dangling_reference :
    ¬ ∀ (r : RunRequest Unit) (x : MemoryStore × Unit) (report : RunReport),
      r.settings.NamesApart r.entity →
      (∀ k : Layer, k.className r.entity r.settings ≠ r.entity.className) →
      r.partner.alternative = none → (r.run x).1 = .ok report → report.status = .ok →
      ∀ e ∈ report.written, ∀ j ∈ e.layer.siblings r.settings,
        j.identity r.entity r.settings ∈ Store.existing (r.run x).2.1 ∧
        (j.package r.entity r.settings ≠ "" →
          j.package r.entity r.settings ≠ e.id.package →
          ∃ text, (r.run x).2.1.text? e.id = some text ∧
            IsLineOf (ImportBlock.line
              (j.qualifiedName r.entity r.settings)).toList text.toList) := by
  intro hall
  have hnames : ∀ k : Layer,
      k.className replacedMapper.entity replacedMapper.settings ≠
        replacedMapper.entity.className := by
    intro k
    cases k <;> decide
  have hmapper := hall replacedMapper (replacedMapperStore, ()) _ namesApart_replacedMapper hnames
    rfl run_replacedMapper rfl ⟨.mapper, ⟨"shop.api", "UserLink2"⟩⟩ (by simp) .dto
    List.mem_cons_self
  obtain ⟨text, htext, x, y, hline, -⟩ := hmapper.2 (by decide) (by decide)
  rw [text?_replacedMapper, Option.some.injEq] at htext
  subst htext
  have hin : "import shop.dto.UserDto;".toList <:+: _ := ⟨x, '\n' :: y, hline.symm⟩
  rw [toList_markedText, Listing.toList_render, allLines_replacedMapper,
    ← Text.occursIn_iff_infix] at hin
  revert hin
  decide +kernel

end RunRequest

end EntityScaffold
