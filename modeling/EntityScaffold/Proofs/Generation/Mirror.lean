import EntityScaffold.Proofs.Generation.Sequence
import EntityScaffold.Proofs.Generation.Steady
import EntityScaffold.Proofs.Store.Content
import EntityScaffold.Proofs.Store.Mirror

/-!
# The same runs on both stores

A run asks its store which identities exist, and writes. A store in a directory that mirrors a store
in memory tells the same identities, and it keeps generated texts as they are, so a run goes the
same way on both of them and leaves a mirror (`RunRequest.IsPlain.runOn_mirrors`); and so do any
runs one after the other (`RunRequest.runAll_mirrors`). All names have to be identifiers, those of
renamed artifacts too, and no write may fail in the directory.
-/

namespace EntityScaffold

open Text

variable {σ : Type} {k : DirectoryStore} {m : MemoryStore}

/-! ### Names of renamed artifacts -/

theorem Batch.isIdentifier_of_mem_candidates {alternative : Option (String → String)}
    (halternative : ∀ f ∈ alternative, ∀ name : String, isIdentifier name.toList = true →
      isIdentifier (f name).toList = true)
    {className name : String} (hclass : isIdentifier className.toList = true)
    (h : name ∈ candidates alternative className) : isIdentifier name.toList = true := by
  cases alternative with
  | none =>
    obtain ⟨n, -, rfl⟩ := List.mem_map.1 h
    exact isIdentifier_numbered hclass (n + 2)
  | some f =>
    have hf := halternative f rfl
    rw [candidates] at h
    generalize attempts = n at h
    induction n generalizing className with
    | zero => cases h
    | succ n ih =>
      rcases List.mem_cons.1 h with rfl | h
      · exact hf _ hclass
      · exact ih (hf _ hclass) h

namespace RunRequest

/-- A run writes under plain identities alone: those of its artifacts are plain, and another name
that is made of an identifier is an identifier. -/
structure IsPlain (r : RunRequest σ) : Prop where
  identities : ∀ id ∈ r.identities, id.IsPlain
  alternative : ∀ f ∈ r.partner.alternative, ∀ name : String, isIdentifier name.toList = true →
    isIdentifier (f name).toList = true

variable {r : RunRequest σ}

/-- Whatever a plan files has a plain identity and a closed text. -/
theorem IsPlain.filed (hr : r.IsPlain) {e : Entity} {artifacts : List Artifact}
    (he : Entity.ofClass? r.table r.cls = some e)
    (hall : Artifact.all e r.settings = .ok artifacts) {existing : List Identity} {s : σ}
    {plan : List (Artifact × Decision)}
    (hplan : (r.partner.plan r.settings existing artifacts s).1 = .ok (some plan)) :
    ∀ step ∈ plan, ∀ id text, step.1.filed step.2 = .ok (some (id, text)) →
      id.IsPlain ∧ IsClosed text := by
  rintro ⟨a, d⟩ hstep id text hfiled
  have ha : a ∈ artifacts := by
    rw [← r.partner.map_fst_of_settle hplan]
    exact List.mem_map_of_mem hstep
  have hplain : a.identity.IsPlain := by
    refine hr.identities _ ?_
    rw [identities_eq he hall]
    exact List.mem_map_of_mem ha
  have hclosed := Artifact.isClosed_of_filed (Artifact.isClosed_of_mem_all hall ha)
    hplain.className hfiled
  refine ⟨?_, hclosed⟩
  rcases Artifact.filed_eq_some hfiled with ⟨-, rfl, -⟩ | ⟨name, rfl, rfl, -⟩
  · exact hplain
  · obtain ⟨before, after, rfl⟩ := List.append_of_mem hstep
    obtain ⟨hname, -, -⟩ := r.partner.free_of_settle_rename hplan
    exact ⟨⟨hplain.package,
      Batch.isIdentifier_of_mem_candidates hr.alternative hplain.className hname⟩, hplain.seen⟩

end RunRequest

/-! ### Runs -/

/-- Two ends of a run, one on each store: the same result, the same state of those who take part,
and a mirror. -/
def EndAlike {α : Type} (x : α × DirectoryStore × σ) (y : α × MemoryStore × σ) : Prop :=
  x.1 = y.1 ∧ x.2.2 = y.2.2 ∧ Mirrors x.2.1 y.2.1

/-- **A plan is carried out alike on both stores.** -/
theorem Partner.emit_mirrors (w : Partner σ) {plan : List (Artifact × Decision)}
    (hplan : ∀ step ∈ plan, ∀ id text, step.1.filed step.2 = .ok (some (id, text)) →
      id.IsPlain ∧ IsClosed text)
    (h : Mirrors k m) (report : RunReport) (s : σ)
    (hok : ∀ result, (w.emit plan report k s).1 = .ok result → result.status ≠ .failed) :
    EndAlike (w.emit plan report k s) (w.emit plan report m s) := by
  induction plan generalizing report k m s with
  | nil => exact ⟨rfl, rfl, h⟩
  | cons step plan ih =>
    obtain ⟨a, d⟩ := step
    obtain ⟨hfirst, hrest⟩ := List.forall_mem_cons.1 hplan
    unfold emit at hok ⊢
    rcases hfiled : a.filed d with fault | _ | ⟨id, text⟩
    · exact ⟨rfl, rfl, h⟩
    · rw [hfiled] at hok
      exact ih hrest h _ _ hok
    · rw [hfiled] at hok
      dsimp only at hok ⊢
      obtain ⟨hid, hclosed⟩ := hfirst id text hfiled
      rcases hw : Store.write k id (markedText text) with ⟨fault | _, k'⟩
      · rw [hw] at hok
        exact absurd rfl (hok _ rfl)
      · obtain ⟨m', hw', h'⟩ := h.write hid (DirectoryStore.content_eq_self hclosed) hw
        rw [hw] at hok
        rw [hw']
        exact ih hrest h' _ _ hok

namespace RunRequest

variable {r : RunRequest σ}

/-- **A run goes alike on both stores.** -/
theorem IsPlain.runOn_mirrors (hr : r.IsPlain) (h : Mirrors k m) (s : σ)
    (hok : ∀ report, (r.runOn k s).1 = .ok report → report.status ≠ .failed) :
    EndAlike (r.runOn k s) (r.runOn m s) := by
  unfold runOn at hok ⊢
  rw [Partner.run_eq] at hok ⊢
  rw [Partner.run_eq]
  rcases ha : r.partner.admission r.table r.cls r.settings s with
    ⟨report | fault | ⟨e, concerns, missing⟩, s₁⟩
  · exact ⟨rfl, rfl, h⟩
  · exact ⟨rfl, rfl, h⟩
  · rw [ha] at hok
    dsimp only at hok ⊢
    have he := r.partner.ofClass?_of_admitted (congrArg Prod.fst ha)
    unfold Partner.produce at hok ⊢
    cases hall : Artifact.all e r.settings with
    | error fault => exact ⟨rfl, rfl, h⟩
    | ok artifacts =>
      rw [hall] at hok
      dsimp only at hok ⊢
      rw [← r.partner.plan_congr (fun id => h.mem_existing_iff_mem) r.settings artifacts s₁]
      rcases hplan : r.partner.plan r.settings (Store.existing k) artifacts s₁ with
        ⟨fault | _ | plan, s₂⟩
      · exact ⟨rfl, rfl, h⟩
      · exact ⟨rfl, rfl, h⟩
      · rw [hplan] at hok
        exact r.partner.emit_mirrors (hr.filed he hall (congrArg Prod.fst hplan)) h _ _ hok

/-- What is asked, and what comes of it, is the same on both stores. -/
theorem IsPlain.transcript_mirrors (hr : r.IsPlain) (h : Mirrors k m) (s : σ)
    (hok : ¬ (r.transcript k s).Fails) : r.transcript k s = r.transcript m s := by
  have hresult : ∀ report, (r.runOn k s).1 = .ok report → report.status ≠ .failed :=
    fun report hr hs => hok ⟨report, hr, hs⟩
  have hplain : (r.observed fun q asked => asked ++ [q]).IsPlain := ⟨hr.identities, hr.alternative⟩
  have hobserved := hplain.runOn_mirrors h (s, []) (by rwa [r.result_observed])
  unfold transcript
  rw [(hr.runOn_mirrors h s hresult).1, hobserved.2.1]

/-- **A store in a directory refines a store in memory.** The directory mirrors the memory, and all
runs write under plain identities alone. If no write fails in the directory, the runs ask the same
questions on both stores, come to the same reports or faults and leave those who take part in the
same state, and afterwards the directory still mirrors the memory. -/
theorem runAll_mirrors {rs : List (RunRequest σ)} (hrs : ∀ r ∈ rs, r.IsPlain) (h : Mirrors k m)
    (s : σ) (hok : ∀ t ∈ (runAll rs k s).1, ¬ t.Fails) :
    EndAlike (runAll rs k s) (runAll rs m s) := by
  induction rs generalizing k m s with
  | nil => exact ⟨rfl, rfl, h⟩
  | cons r rs ih =>
    obtain ⟨hr, hrs⟩ := List.forall_mem_cons.1 hrs
    rw [runAll_cons] at hok ⊢
    obtain ⟨hfirst, hrest⟩ := List.forall_mem_cons.1 hok
    obtain ⟨-, hstate, hmirrors⟩ := hr.runOn_mirrors h s fun report hr hs => hfirst ⟨report, hr, hs⟩
    rw [runAll_cons, ← hstate, hr.transcript_mirrors h s hfirst]
    obtain ⟨htranscripts, hstates, hend⟩ := ih hrs hmirrors _ hrest
    exact ⟨congrArg _ htranscripts, hstates, hend⟩

/-- Requests for the transfer object of a user, twice. The second one finds the first one's file. -/
def userTwice : List (RunRequest Unit) :=
  List.replicate 2 (ofUser (.constant (.once .rename)) "Dto")

theorem isPlain_userTwice : ∀ r ∈ userTwice, r.IsPlain := by
  have hparts : ∀ n ∈ ["shop", "dto"], isIdentifier n.toList = true := by decide +kernel
  have hidentity : (⟨"shop.dto", "UserDto"⟩ : Identity).IsPlain :=
    ⟨⟨⟨["shop", "dto"], by decide, hparts⟩, by decide +kernel⟩, by decide +kernel⟩
  intro r hr
  obtain rfl := List.eq_of_mem_replicate hr
  refine ⟨fun id hid => ?_, fun f hf => (by cases hf)⟩
  have hall : ∀ id ∈ (ofUser (.constant (.once .rename)) "Dto").identities,
      id = ⟨"shop.dto", "UserDto"⟩ := by decide +kernel
  exact hall id hid ▸ hidentity

/-- A source root that is not there yet. -/
def freshStore : DirectoryStore where
  tree := {}
  root := ⟨"/", ["src"]⟩

theorem mirrors_freshStore : Mirrors freshStore {} where
  dryRun := rfl
  failing := rfl
  rooted := Or.inl (by decide)
  distinct := FileNode.isDistinct_empty
  plain id hid := nomatch hid
  files names content := by
    rw [FileTree.fileBelow?_of_not_isDirectory (by decide)]
    constructor
    · rintro ⟨⟩
    · rintro ⟨id, text, ⟨⟩, -⟩

/-- Both stores go through the two runs alike, and the second one writes under another name. -/
theorem runAll_mirrors_userTwice :
    EndAlike (runAll userTwice freshStore ()) (runAll userTwice ({} : MemoryStore) ()) ∧
      (runAll userTwice ({} : MemoryStore) ()).2.1.files.map (·.1) =
        [⟨"shop.dto", "UserDto"⟩, ⟨"shop.dto", "UserDto2"⟩] := by
  have hstatus : ∀ t ∈ (runAll userTwice freshStore ()).1, t.result.map (·.status) = .ok .ok := by
    decide +kernel
  exact ⟨runAll_mirrors isPlain_userTwice mirrors_freshStore () fun t ht =>
    Transcript.not_fails_of_ok (hstatus t ht), by decide +kernel⟩

end RunRequest

end EntityScaffold
