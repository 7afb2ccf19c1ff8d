import EntityScaffold.Generation.Run

/-!
# Runs in two parts

A run checks before it makes anything. `admission` is all of the checks, and a run is `admission`
followed by `produce` (`run_eq`): whatever stops a run before that leaves the store as it was, and
reports nothing as written. `ComesTo` says how the checks may end, and what makes them end so
(`comesTo_of_admission`).
-/

namespace EntityScaffold

/-- What the checks of a run come to. -/
inductive Admission
  /-- A check ends the run with a report. -/
  | stopped (report : RunReport)
  /-- The class is no entity. -/
  | refused (fault : RunFault)
  /-- The entity may be generated, with the concerns and missing features that were accepted. -/
  | admitted (m : Entity) (concerns : List Concern) (missing : List Feature)

namespace Partner

variable {σ τ : Type} (w : Partner σ)

/-- The checks from the features of the project on. -/
def admitFeatures (p : Settings) (m : Entity) (concerns : List Concern) (s : σ) : Admission × σ :=
  match w.passFeatures p s with
  | (missing, false, s) => (.stopped { status := .cancelled, concerns, missing }, s)
  | (missing, true, s) => (.admitted m concerns missing, s)

/-- The checks from an entity on, after earlier concerns. -/
def admitEntity (p : Settings) (m : Entity) (earlier : List Concern) (s : σ) : Admission × σ :=
  match w.passFindings m.check earlier s with
  | (some report, s) => (.stopped report, s)
  | (none, s) => w.admitFeatures p m (earlier ++ m.check.concerns) s

/-- The checks of a run, from the class as it is declared to the project around it. -/
def admission (table : TypeTable) (c : SourceClass) (p : Settings) (s : σ) : Admission × σ :=
  match w.passFindings c.check [] (w.say .info ("Entity: " ++ c.qualifiedName) s) with
  | (some report, s) => (.stopped report, s)
  | (none, s) =>
    match Entity.ofClass? table c with
    | none => (.refused (.notAnEntity c.qualifiedName), s)
    | some m => w.admitEntity p m c.check.concerns s

/-- **A run is its checks, and then the production of what they admit.** -/
theorem run_eq [Store τ] (table : TypeTable) (c : SourceClass) (p : Settings) (k : τ) (s : σ) :
    w.run table c p k s =
      match w.admission table c p s with
      | (.stopped report, s) => (.ok report, k, s)
      | (.refused fault, s) => (.error fault, k, s)
      | (.admitted m concerns missing, s) => w.produce m p concerns missing k s := by
  unfold run admission
  dsimp only
  rcases w.passFindings c.check [] (w.say .info ("Entity: " ++ c.qualifiedName) s) with
    ⟨_ | report, s₁⟩
  · cases Entity.ofClass? table c with
    | none => rfl
    | some m =>
      dsimp only [admitEntity, admitFeatures]
      rcases w.passFindings m.check c.check.concerns s₁ with ⟨_ | report, s₂⟩
      · dsimp only
        rcases w.passFeatures p s₂ with ⟨missing, _ | _, s₃⟩ <;> rfl
      · rfl
  · rfl

end Partner

/-- The report of a run that is stopped before anything is written. -/
structure RunReport.IsStop (report : RunReport) : Prop where
  status : report.status = .invalid ∨ report.status = .cancelled
  written : report.written = []

namespace Partner

variable {σ : Type} (w : Partner σ)

/-! ### What the checks let pass -/

/-- Findings stop a run if they have defects, or concerns that are not accepted. -/
theorem passFindings_eq_some {found : Findings} {earlier : List Concern} {s : σ}
    {report : RunReport} (h : (w.passFindings found earlier s).1 = some report) :
    found.isValid = false ∧ report.status = .invalid ∧ report.written = [] ∨
      found.isValid = true ∧ found.hasConcerns = true ∧
        report.status = .cancelled ∧ report.written = [] := by
  unfold passFindings at h
  split at h
  · rename_i hvalid
    split at h
    · rename_i hconcerns
      dsimp only at h
      split at h <;> cases h
      exact Or.inr ⟨hvalid, hconcerns, rfl, rfl⟩
    · cases h
  · rename_i hvalid
    cases h
    exact Or.inl ⟨by simpa using hvalid, rfl, rfl⟩

/-- Findings that pass have no defects. -/
theorem isValid_of_passFindings {found : Findings} {earlier : List Concern} {s : σ}
    (h : (w.passFindings found earlier s).1 = none) : found.isValid = true := by
  cases hvalid : found.isValid with
  | true => rfl
  | false =>
    rw [passFindings, hvalid] at h
    cases h

/-- How the checks of a class may end, with what makes them end so. -/
inductive ComesTo (w : Partner σ) (table : TypeTable) (c : SourceClass) : Admission → Prop
  /-- The class as it is declared, or the entity that it is, has findings that do not pass. -/
  | findings {found : Findings} {earlier : List Concern} {s : σ} {report : RunReport}
      (hfound : found = c.check ∨ ∃ m, Entity.ofClass? table c = some m ∧ found = m.check)
      (h : (w.passFindings found earlier s).1 = some report) : w.ComesTo table c (.stopped report)
  /-- The class passes, but it is no entity. -/
  | noEntity (hvalid : c.check.isValid = true) (hm : Entity.ofClass? table c = none) :
      w.ComesTo table c (.refused (.notAnEntity c.qualifiedName))
  /-- Features are missing, and to go on without them is not accepted. -/
  | features (concerns : List Concern) (missing : List Feature) :
      w.ComesTo table c (.stopped { status := .cancelled, concerns, missing })
  /-- Everything passes. -/
  | admitted {m : Entity} (hm : Entity.ofClass? table c = some m) (concerns : List Concern)
      (missing : List Feature) : w.ComesTo table c (.admitted m concerns missing)

section Outcomes

variable {table : TypeTable} {c : SourceClass} {p : Settings} {m : Entity} {s : σ}

theorem comesTo_admitFeatures (hm : Entity.ofClass? table c = some m) (concerns : List Concern) :
    w.ComesTo table c (w.admitFeatures p m concerns s).1 := by
  unfold admitFeatures
  rcases w.passFeatures p s with ⟨missing, _ | _, s'⟩
  · exact .features concerns missing
  · exact .admitted hm concerns missing

theorem comesTo_admitEntity (hm : Entity.ofClass? table c = some m) (earlier : List Concern) :
    w.ComesTo table c (w.admitEntity p m earlier s).1 := by
  unfold admitEntity
  rcases hf : w.passFindings m.check earlier s with ⟨_ | report, s'⟩
  · exact w.comesTo_admitFeatures hm _
  · exact .findings (Or.inr ⟨m, hm, rfl⟩) (congrArg Prod.fst hf)

/-- **How the checks of a run end.** -/
theorem comesTo_of_admission {o : Admission} (h : (w.admission table c p s).1 = o) :
    w.ComesTo table c o := by
  subst h
  unfold admission
  rcases hf : w.passFindings c.check [] (w.say .info ("Entity: " ++ c.qualifiedName) s) with
    ⟨_ | report, s'⟩
  · cases hm : Entity.ofClass? table c with
    | none => exact .noEntity (w.isValid_of_passFindings (congrArg Prod.fst hf)) hm
    | some m => exact w.comesTo_admitEntity hm _
  · exact .findings (Or.inl rfl) (congrArg Prod.fst hf)

/-- A run that its checks stop has written nothing. -/
theorem isStop_of_stopped {report : RunReport}
    (h : (w.admission table c p s).1 = .stopped report) : report.IsStop := by
  cases w.comesTo_of_admission h with
  | findings _ hf =>
    rcases w.passFindings_eq_some hf with ⟨-, hs, hw⟩ | ⟨-, -, hs, hw⟩
    · exact ⟨Or.inl hs, hw⟩
    · exact ⟨Or.inr hs, hw⟩
  | features => exact ⟨Or.inr rfl, rfl⟩

/-- The only class that is refused is one that passes its check and is no entity. -/
theorem of_refused {fault : RunFault} (h : (w.admission table c p s).1 = .refused fault) :
    fault = .notAnEntity c.qualifiedName ∧ c.check.isValid = true ∧
      Entity.ofClass? table c = none := by
  cases w.comesTo_of_admission h with
  | noEntity hvalid hm => exact ⟨rfl, hvalid, hm⟩

/-- The entity that is admitted is the one that the class describes. -/
theorem ofClass?_of_admitted {concerns : List Concern} {missing : List Feature}
    (h : (w.admission table c p s).1 = .admitted m concerns missing) :
    Entity.ofClass? table c = some m := by
  cases w.comesTo_of_admission h with
  | admitted hm => exact hm

/-- Only defects of the class or of the entity stop a run as invalid. -/
theorem status_of_stopped {report : RunReport}
    (h : (w.admission table c p s).1 = .stopped report) (hclass : c.check.isValid = true)
    (hentity : ∀ m, Entity.ofClass? table c = some m → m.check.isValid = true) :
    report.status = .cancelled := by
  cases w.comesTo_of_admission h with
  | @findings found _ _ _ hfound hf =>
    have hvalid : found.isValid = true := by
      rcases hfound with rfl | ⟨m, hm, rfl⟩
      · exact hclass
      · exact hentity m hm
    rcases w.passFindings_eq_some hf with ⟨hinvalid, -⟩ | ⟨-, -, hs, -⟩
    · rw [hvalid] at hinvalid
      cases hinvalid
    · exact hs
  | features => rfl

end Outcomes

/-! ### The status of a run -/

variable {τ : Type} [Store τ]

/-- A plan that is carried out is not stopped any more. -/
theorem status_emit {plan : List (Artifact × Decision)} {report result : RunReport} {k : τ} {s : σ}
    (h : (w.emit plan report k s).1 = .ok result) :
    result.status = report.status ∨ result.status = .failed := by
  induction plan generalizing report k s with
  | nil =>
    cases h
    exact Or.inl rfl
  | cons step plan ih =>
    unfold emit at h
    split at h
    · cases h
    · have hrest := ih h
      exact hrest
    · dsimp only at h
      split at h
      · cases h
        exact Or.inr rfl
      · have hrest := ih h
        exact hrest

/-- Artifacts that are made are written, or planning them is cancelled. -/
theorem status_produce {m : Entity} {p : Settings} {concerns : List Concern}
    {missing : List Feature} {k : τ} {s : σ} {report : RunReport}
    (h : (w.produce m p concerns missing k s).1 = .ok report) : report.status ≠ .invalid := by
  unfold produce at h
  split at h
  · cases h
  · split at h
    · cases h
    · cases h
      simp
    · rcases w.status_emit h with hs | hs <;> simp [hs]

end Partner

end EntityScaffold
