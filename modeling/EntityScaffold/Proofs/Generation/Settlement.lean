import EntityScaffold.Proofs.Generation.Observation

/-!
# Plans and the answers behind them

A plan settles artifacts one after the other, and `Settles` is the way that a batch takes through
its decisions. `recorded` is the same partner with a record of what the advisor is asked and
answers; the record changes nothing that the partner does (`settle_recorded`). Read off that record:

* a plan has the artifacts in their order (`map_fst_of_settle`);
* a planned write over an identity that is taken, by an existing file or by an earlier decision of
  the plan, has an approval that came no later than the artifact itself (`approved_of_settle`);
* a planned rename takes one of the names to try, and an identity that is not taken
  (`free_of_settle_rename`).
-/

namespace EntityScaffold.Partner

variable {σ : Type} (w : Partner σ) {existing : List Identity}

/-- A partner who also keeps what the advisor is asked and answers, in order. -/
def recorded : Partner (σ × Record) where
  log l x := (w.log l x.1, x.2)
  advisor id x := ((w.advisor id x.1).1, (w.advisor id x.1).2, x.2 ++ [(id, (w.advisor id x.1).1)])
  alternative := w.alternative
  hasFeature f x := ((w.hasFeature f x.1).1, (w.hasFeature f x.1).2, x.2)
  confirmConcerns cs x := ((w.confirmConcerns cs x.1).1, (w.confirmConcerns cs x.1).2, x.2)
  confirmMissing r x := ((w.confirmMissing r x.1).1, (w.confirmMissing r x.1).2, x.2)

/-- Notes of conflicts alone. -/
def noteConflict : Consultation → Record → Record
  | .conflict id c, t => t ++ [(id, c)]
  | _, t => t

theorem recorded_eq : w.recorded = w.observed noteConflict := rfl

theorem noteAll_noteConflict (answers t : Record) :
    noteAll noteConflict (conflictQuestions answers) t = t ++ answers := by
  induction answers generalizing t with
  | nil => simp [noteAll, conflictQuestions]
  | cons q answers ih =>
    have hq : noteAll noteConflict (conflictQuestions (q :: answers)) t =
        noteAll noteConflict (conflictQuestions answers) (t ++ [q]) := rfl
    rw [hq, ih, List.append_assoc, List.singleton_append]

/-- An artifact that is recorded is settled the same way, and the record gets its question. -/
theorem resolve_recorded (b : Batch) (id : Identity) (x : σ × Record) :
    b.resolve w.recorded.advisor w.alternative existing id x =
      ((b.resolve w.advisor w.alternative existing id x.1).1,
        (b.resolve w.advisor w.alternative existing id x.1).2.1,
        (b.resolve w.advisor w.alternative existing id x.1).2.2,
        x.2 ++ w.asked existing b id x.1) := by
  have h := w.resolve_observed noteConflict existing b id x
  rw [noteAll_noteConflict] at h
  exact h

/-- **Keeping a record changes no plan.** -/
theorem settle_recorded (artifacts : List Artifact) (b : Batch) (x : σ × Record) :
    (w.recorded.settle existing artifacts b x).1 = (w.settle existing artifacts b x.1).1 := by
  obtain ⟨qs, -, h⟩ := w.settle_observed noteConflict existing artifacts b x.1
  rw [recorded_eq]
  exact congrArg Prod.fst (h x.2)

/-- **A plan depends on which identities exist**, and on nothing else about them. -/
theorem plan_congr {existing' : List Identity} (h : ∀ id, id ∈ existing ↔ id ∈ existing')
    (p : Settings) (artifacts : List Artifact) (s : σ) :
    w.plan p existing artifacts s = w.plan p existing' artifacts s := by
  unfold plan
  generalize (if p.overwrite then Batch.pinned .write else {}) = b
  induction artifacts generalizing b s with
  | nil => rfl
  | cons a rest ih => simp only [settle, Batch.resolve_congr h, ih]

/-! ### The way of a batch -/

/-- A batch, and those who take part, go through the decisions of a plan without being cancelled. -/
inductive Settles (w : Partner σ) (existing : List Identity) :
    Batch → σ → List (Artifact × Decision) → Batch → σ → Prop
  | nil (b : Batch) (s : σ) : w.Settles existing b s [] b s
  | cons {a : Artifact} {d : Decision} {plan : List (Artifact × Decision)} {b b' b'' : Batch}
      {s s' s'' : σ} :
      b.resolve w.advisor w.alternative existing a.identity s = (.ok d, b', s') →
      b'.cancelled = false → w.Settles existing b' s' plan b'' s'' →
      w.Settles existing b s ((a, d) :: plan) b'' s''

variable {w}

/-- A plan is the way of its batch, and it has the artifacts in their order. -/
theorem settles_of_settle {artifacts : List Artifact} {b : Batch} {s : σ}
    {plan : List (Artifact × Decision)}
    (h : (w.settle existing artifacts b s).1 = .ok (some plan)) :
    plan.map Prod.fst = artifacts ∧
      ∃ b', w.Settles existing b s plan b' (w.settle existing artifacts b s).2 := by
  induction artifacts generalizing b s plan with
  | nil =>
    cases h
    exact ⟨rfl, b, .nil b s⟩
  | cons a rest ih =>
    rcases hr : b.resolve w.advisor w.alternative existing a.identity s with ⟨e | d, b', s'⟩
    · rw [w.settle_cons_of_error hr] at h
      cases h
    · cases hc : b'.cancelled with
      | true =>
        rw [w.settle_cons_of_cancelled hr hc] at h
        cases h
      | false =>
        rw [w.settle_cons_of_settled hr hc] at h ⊢
        cases hp : (w.settle existing rest b' s').1 with
        | error e => rw [hp] at h; cases h
        | ok plan? =>
          rw [hp] at h
          cases plan? with
          | none => cases h
          | some plan' =>
            cases h
            obtain ⟨hm, b'', hs⟩ := ih hp
            exact ⟨by rw [List.map_cons, hm], b'', .cons hr hc hs⟩

namespace Settles

variable {b b' b'' : Batch} {s s' s'' : σ} {before after plan : List (Artifact × Decision)}

/-- The artifacts after a plan are settled from where it ends. -/
theorem settle_append (h : w.Settles existing b s plan b' s') (rest : List Artifact) :
    (w.settle existing (plan.map Prod.fst ++ rest) b s).2 = (w.settle existing rest b' s').2 := by
  induction h with
  | nil => rfl
  | cons hr hc _ ih =>
    rw [List.map_cons, List.cons_append, w.settle_cons_of_settled hr hc]
    exact ih

theorem state_eq (h : w.Settles existing b s plan b' s') :
    (w.settle existing (plan.map Prod.fst) b s).2 = s' := by
  simpa [settle] using h.settle_append []

theorem split (h : w.Settles existing b s (before ++ after) b'' s'') :
    ∃ b' s', w.Settles existing b s before b' s' ∧ w.Settles existing b' s' after b'' s'' := by
  induction before generalizing b s with
  | nil => exact ⟨b, s, .nil b s, h⟩
  | cons first before ih =>
    cases h with
    | cons hr hc hs =>
      obtain ⟨b₁, s₁, hbefore, hafter⟩ := ih hs
      exact ⟨b₁, s₁, .cons hr hc hbefore, hafter⟩

/-- A batch has claimed what its decisions take. -/
theorem mem_claimed (h : w.Settles existing b s plan b' s') {id : Identity} :
    id ∈ b'.claimed ↔ id ∈ b.claimed ∨ ∃ step ∈ plan, step.2.target? step.1.identity = some id := by
  induction h with
  | nil => simp
  | cons hr _ _ ih =>
    rw [ih, Batch.claimed_of_resolve hr, List.mem_append, Option.mem_toList]
    simp only [List.mem_cons, exists_eq_or_imp, or_assoc]

/-- What is recorded stays. -/
theorem record_prefix {x x' : σ × Record} (h : w.recorded.Settles existing b x plan b' x') :
    x.2 <+: x'.2 := by
  induction h with
  | nil => exact List.prefix_refl _
  | @cons a d _ b _ _ x _ _ hr _ _ ih =>
    have hx := hr.symm.trans (w.resolve_recorded b a.identity x)
    simp only [Prod.mk.injEq] at hx
    obtain ⟨-, -, rfl⟩ := hx
    exact (List.prefix_append _ _).trans ih

/-- A batch comes to write over everything only by an answer that says so. -/
theorem pin_eq_write {x x' : σ × Record} (h : w.recorded.Settles existing b x plan b' x')
    (hp : b'.pin = some .write) :
    b.pin = some .write ∨ ∃ q ∈ x'.2, q.2 = some (.always .write) := by
  induction h with
  | nil => exact Or.inl hp
  | @cons a d _ b _ _ x _ _ hr _ hs ih =>
    rcases ih hp with hpin | hq
    · have hx := hr.symm.trans (w.resolve_recorded b a.identity x)
      simp only [Prod.mk.injEq] at hx
      obtain ⟨-, rfl, rfl⟩ := hx
      rcases Batch.pin_of_pin_resolve hpin with hpin | ⟨hpin, ht, hq⟩
      · exact Or.inl hpin
      · refine Or.inr ⟨(a.identity, (w.advisor a.identity x.1).1), hs.record_prefix.subset ?_, hq⟩
        simp [asked, ht, hpin]
    · exact Or.inr hq

/-- **A write over a taken identity is approved**: the batch was pinned from the start, or by an
answer to write everything, or the artifact itself is answered with a write. -/
theorem approved {x x' x'' : σ × Record} {a : Artifact}
    (h : w.recorded.Settles existing b x plan b' x')
    (hr : b'.resolve w.recorded.advisor w.recorded.alternative existing a.identity x' =
      (.ok .write, b'', x'')) (ht : b'.isTaken existing a.identity = true) :
    b.pin = some .write ∨ (∃ q ∈ x'.2, q.2 = some (.always .write)) ∨
      ∃ c : Answer, c.action = .write ∧ x''.2 = x'.2 ++ [(a.identity, some c)] := by
  have hx := hr.symm.trans (w.resolve_recorded b' a.identity x')
  simp only [Prod.mk.injEq] at hx
  obtain ⟨hd, -, rfl⟩ := hx
  rcases Batch.pin_or_answer_of_resolve_write ht hd.symm with hpin | ⟨hpin, hq⟩
  · exact (h.pin_eq_write hpin).imp_right Or.inl
  · refine Or.inr (Or.inr ?_)
    rcases hq with hq | hq
    · exact ⟨.once .write, rfl, by simp [asked, ht, hpin, hq]⟩
    · exact ⟨.always .write, rfl, by simp [asked, ht, hpin, hq]⟩

end Settles

/-! ### What a plan shows -/

variable (w)

/-- A plan has the artifacts in their order. -/
theorem map_fst_of_settle {artifacts : List Artifact} {b : Batch} {s : σ}
    {plan : List (Artifact × Decision)}
    (h : (w.settle existing artifacts b s).1 = .ok (some plan)) :
    plan.map Prod.fst = artifacts := (settles_of_settle h).1

variable {artifacts : List Artifact} {b : Batch} {s : σ} {a : Artifact}
  {before after : List (Artifact × Decision)}

/-- Every planned decision settles its artifact from where the decisions before it lead. -/
theorem exists_resolve_of_settle {d : Decision}
    (h : (w.settle existing artifacts b s).1 = .ok (some (before ++ (a, d) :: after))) :
    ∃ b₁ b₂, w.Settles existing b s before b₁ (w.settle existing (before.map Prod.fst) b s).2 ∧
      b₁.resolve w.advisor w.alternative existing a.identity
          (w.settle existing (before.map Prod.fst) b s).2 =
        (.ok d, b₂, (w.settle existing (before.map Prod.fst ++ [a]) b s).2) := by
  obtain ⟨-, b', hs⟩ := settles_of_settle h
  obtain ⟨b₁, s₁, hbefore, hrest⟩ := hs.split
  cases hrest with
  | @cons _ _ _ _ b₂ _ _ s₂ _ hr hc _ =>
    have hnext : (w.settle existing (before.map Prod.fst ++ [a]) b s).2 = s₂ := by
      rw [hbefore.settle_append, w.settle_cons_of_settled hr hc]
      rfl
    rw [hbefore.state_eq, hnext]
    exact ⟨b₁, b₂, hbefore, hr⟩

/-- **A planned rename takes one of the names to try, and an identity that is not taken**, neither
by an existing file nor by a decision before it. -/
theorem free_of_settle_rename {name : String}
    (h : (w.settle existing artifacts b s).1 = .ok (some (before ++ (a, .rename name) :: after))) :
    name ∈ Batch.candidates w.alternative a.className ∧
      { a.identity with className := name } ∉ existing ∧
      ∀ step ∈ before,
        step.2.target? step.1.identity ≠ some { a.identity with className := name } := by
  obtain ⟨b₁, b₂, hs, hr⟩ := w.exists_resolve_of_settle h
  obtain ⟨hname, hfree⟩ := Batch.free_of_resolve_rename (congrArg Prod.fst hr)
  rw [Batch.isTaken_eq_false_iff, hs.mem_claimed] at hfree
  exact ⟨hname, hfree.1, fun step hm ht => hfree.2 (Or.inr ⟨step, hm, ht⟩)⟩

/-- A rename gives another name. -/
theorem ne_of_settle_rename {plan : List (Artifact × Decision)} {name : String}
    (h : (w.settle existing artifacts b s).1 = .ok (some plan))
    (ha : (a, .rename name) ∈ plan) : name ≠ a.className := by
  rintro rfl
  obtain ⟨before, after, rfl⟩ := List.append_of_mem ha
  obtain ⟨b₁, b₂, -, hr⟩ := w.exists_resolve_of_settle h
  have hfree : b₁.isTaken existing a.identity = false :=
    (Batch.free_of_resolve_rename (congrArg Prod.fst hr)).2
  rw [Batch.resolve_of_free hfree] at hr
  cases hr

/-- The record of some artifacts goes on with those that follow. -/
theorem record_prefix_of_settle {x : σ × Record} {mid : List (Artifact × Decision)}
    (h : (w.recorded.settle existing artifacts b x).1 = .ok (some (before ++ mid ++ after))) :
    (w.recorded.settle existing (before.map Prod.fst) b x).2.2 <+:
      (w.recorded.settle existing ((before ++ mid).map Prod.fst) b x).2.2 := by
  obtain ⟨-, b', hs⟩ := settles_of_settle h
  obtain ⟨b₂, x₂, hboth, -⟩ := hs.split
  obtain ⟨b₁, x₁, hbefore, hmid⟩ := hboth.split
  rw [hbefore.state_eq, hboth.state_eq]
  exact hmid.record_prefix

/-- **A planned write over a taken identity has an approval**: the batch was pinned from the start,
or the record of the artifacts before it has an answer to write everything, or the artifact itself
is answered with a write. -/
theorem approved_of_settle {x : σ × Record}
    (h : (w.recorded.settle existing artifacts b x).1 =
      .ok (some (before ++ (a, .write) :: after)))
    (ha : a.identity ∈ existing ∨
      ∃ step ∈ before, step.2.target? step.1.identity = some a.identity) :
    b.pin = some .write ∨
      (∃ q ∈ (w.recorded.settle existing (before.map Prod.fst) b x).2.2,
        q.2 = some (.always .write)) ∨
      ∃ c : Answer, c.action = .write ∧
        (w.recorded.settle existing (before.map Prod.fst ++ [a]) b x).2.2 =
          (w.recorded.settle existing (before.map Prod.fst) b x).2.2 ++
            [(a.identity, some c)] := by
  obtain ⟨b₁, b₂, hs, hr⟩ := w.recorded.exists_resolve_of_settle h
  have ht : b₁.isTaken existing a.identity = true := by
    rw [Batch.isTaken_iff, hs.mem_claimed]
    exact ha.imp_right Or.inr
  exact hs.approved hr ht

end EntityScaffold.Partner
