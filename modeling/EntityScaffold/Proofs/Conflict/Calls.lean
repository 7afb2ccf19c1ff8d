import EntityScaffold.Proofs.Conflict.Resolve

/-!
# Calls on one batch

A batch settles identities call by call (`resolveAll`), and a call that finds no name left does not
end it. What the advisor is asked in a call is taken down there (`Advisor.observed`), which changes
nothing else (`resolve_observed`).

Whoever answers is asked about conflicts that nothing settles yet, and about each of them once. The
first answer for all conflicts, or the first that is missing, is the last one, and what it says is
done from then on (`follows_resolveAll`).
-/

namespace EntityScaffold

variable {σ ρ : Type}

/-- An advisor who also takes notes of what is asked and answered. -/
def Advisor.observed (advisor : Advisor σ) (note : Identity → Option Answer → ρ → ρ) :
    Advisor (σ × ρ) :=
  fun id x => ((advisor id x.1).1, (advisor id x.1).2, note id (advisor id x.1).1 x.2)

namespace Batch

/-- What is asked, with the answers, in order. -/
abbrev Questions := List (Identity × Option Answer)

/-- One identity that is settled. -/
structure Call where
  id : Identity
  /-- The batch as the call finds it. -/
  batch : Batch
  /-- What the advisor is asked in the call. -/
  asked : Questions
  result : Except NoNameLeft Decision

/-- The identity is taken when it is settled. -/
def Call.collides (c : Call) (existing : List Identity) : Bool := c.batch.isTaken existing c.id

/-- Settles identities one after the other, those behind one that no name is left for too. Gives the
calls, and the batch and the advisor's state after them. -/
def resolveAll (advisor : Advisor σ) (alternative : Option (String → String))
    (existing : List Identity) : List Identity → Batch → σ → List Call × Batch × σ
  | [], b, s => ([], b, s)
  | id :: ids, b, s =>
    let (result, b', s', asked) :=
      b.resolve (advisor.observed fun id c (qs : Questions) => qs ++ [(id, c)]) alternative existing
        id (s, [])
    let (calls, last) := resolveAll advisor alternative existing ids b' s'
    (⟨id, b, asked, result⟩ :: calls, last)

/-- A batch that nothing has been settled in, with a pin or without one. -/
def start (pin : Option ConflictAction) : Batch := { pin }

/-- The action that an answer pins: that of an answer for all conflicts, and to skip if there is
none. -/
def pinBy : Option Answer → Option ConflictAction
  | none => some .skip
  | some (.once _) => none
  | some (.always a) => some a

/-- What an action comes to for an identity that is taken. -/
inductive Applies (b : Batch) (alternative : Option (String → String)) (existing : List Identity)
    (id : Identity) : ConflictAction → Except NoNameLeft Decision → Prop
  | write : Applies b alternative existing id .write (.ok .write)
  | skip : Applies b alternative existing id .skip (.ok .skip)
  /-- The artifact gets a name that can be tried and is free. -/
  | rename {name : String} : name ∈ candidates alternative id.className →
      b.isTaken existing { id with className := name } = false →
      Applies b alternative existing id .rename (.ok (.rename name))
  /-- All names that can be tried are taken. -/
  | noNameLeft :
      (∀ name ∈ candidates alternative id.className,
        b.isTaken existing { id with className := name } = true) →
      Applies b alternative existing id .rename (.error ⟨id⟩)

variable {advisor : Advisor σ} {alternative : Option (String → String)}
  {existing : List Identity} {id : Identity} {ids : List Identity} {b : Batch} {s : σ}
  {a : ConflictAction}

/-! ### One call -/

theorem applies_decide (b : Batch) (a : ConflictAction) :
    b.Applies alternative existing id a (b.decide alternative existing id a) := by
  cases a with
  | write => exact .write
  | skip => exact .skip
  | rename =>
    simp only [decide]
    cases h : b.unusedName? alternative existing id with
    | none =>
      refine .noNameLeft fun name hname => ?_
      simpa using List.find?_eq_none.1 h name hname
    | some name =>
      exact .rename (List.mem_of_find?_eq_some h) (by simpa using List.find?_some h)

/-- Deciding depends on the identities that are claimed, and on nothing else in the batch. -/
theorem Applies.congr {b' : Batch} (hclaimed : b'.claimed = b.claimed)
    {result : Except NoNameLeft Decision} (h : b'.Applies alternative existing id a result) :
    b.Applies alternative existing id a result := by
  have htaken : b'.isTaken existing = b.isTaken existing := by
    funext other
    rw [isTaken, isTaken, hclaimed]
  cases h with
  | write => exact .write
  | skip => exact .skip
  | rename hname hfree => exact .rename hname (htaken ▸ hfree)
  | noNameLeft hall => exact .noNameLeft (htaken ▸ hall)

theorem Applies.eq_skip {result : Except NoNameLeft Decision}
    (h : b.Applies alternative existing id .skip result) : result = .ok .skip := by
  cases h
  rfl

/-- A taken identity gets the action of the consultation. -/
theorem applies_resolve (advisor : Advisor σ) (alternative : Option (String → String)) (s : σ)
    (ht : b.isTaken existing id = true) :
    b.Applies alternative existing id (b.consult advisor id s).1.2
      (b.resolve advisor alternative existing id s).1 := by
  have hdecided : (b.resolve advisor alternative existing id s).1 =
      (b.consult advisor id s).1.1.decide alternative existing id (b.consult advisor id s).1.2 := by
    rw [resolve_of_taken ht]
    split <;> rename_i hd <;> exact hd.symm
  rw [hdecided]
  exact .congr claimed_consult (applies_decide (b.consult advisor id s).1.1 _)

/-- What a call asks: about a conflict that nothing settles. -/
def questions (advisor : Advisor σ) (existing : List Identity) (b : Batch) (id : Identity) (s : σ) :
    Questions :=
  if b.isTaken existing id = true ∧ b.pin = none then [(id, (advisor id s).1)] else []

theorem questions_of_pin (hp : b.pin = some a) : b.questions advisor existing id s = [] := by
  simp [questions, hp]

theorem map_fst_questions :
    (b.questions advisor existing id s).map Prod.fst =
      if b.isTaken existing id = true ∧ b.pin = none then [id] else [] := by
  unfold questions
  split <;> rfl

/-- A question is about a conflict, and it is put where there is no pin. -/
theorem of_mem_questions {q : Identity × Option Answer}
    (hq : q ∈ b.questions advisor existing id s) :
    b.isTaken existing id = true ∧ b.pin = none ∧ q.2 = (advisor id s).1 := by
  unfold questions at hq
  split at hq
  · rename_i h
    exact ⟨h.1, h.2, List.mem_singleton.1 hq ▸ rfl⟩
  · cases hq

/-- **Notes change nothing**, and they get what the call asks. -/
theorem resolve_observed (note : Identity → Option Answer → ρ → ρ) (b : Batch) (id : Identity)
    (x : σ × ρ) :
    b.resolve (advisor.observed note) alternative existing id x =
      ((b.resolve advisor alternative existing id x.1).1,
        (b.resolve advisor alternative existing id x.1).2.1,
        (b.resolve advisor alternative existing id x.1).2.2,
        (b.questions advisor existing id x.1).foldl (fun t q => note q.1 q.2 t) x.2) := by
  unfold questions
  cases ht : b.isTaken existing id with
  | false => simp [resolve_of_free ht]
  | true =>
    rw [resolve_of_taken ht, resolve_of_taken ht]
    cases hp : b.pin with
    | some a =>
      rw [consult_of_pin hp, consult_of_pin hp]
      cases b.decide alternative existing id a <;> simp
    | none =>
      rw [consult_of_no_pin hp, consult_of_no_pin hp, Advisor.observed]
      cases (b.answered (advisor id x.1).1).1.decide alternative existing id
        (b.answered (advisor id x.1).1).2 <;> simp

/-- A pin stays, and so does whether the batch is cancelled. -/
theorem resolve_of_pin (hp : b.pin = some a) :
    (b.resolve advisor alternative existing id s).2.1.pin = some a ∧
      (b.resolve advisor alternative existing id s).2.1.cancelled = b.cancelled := by
  cases ht : b.isTaken existing id with
  | false =>
    rw [resolve_of_free ht]
    exact ⟨hp, rfl⟩
  | true =>
    rw [pin_resolve_of_taken ht, cancelled_resolve_of_taken ht, consult_of_pin hp]
    exact ⟨hp, rfl⟩

theorem pin_answered (hp : b.pin = none) (c : Option Answer) :
    (b.answered c).1.pin = pinBy c := by
  rcases c with _ | _ | _ <;> simp [answered, pinBy, hp]

/-- The batch has the pin that an answer sets. -/
theorem pin_resolve_of_mem_questions {q : Identity × Option Answer}
    (hq : q ∈ b.questions advisor existing id s) :
    (b.resolve advisor alternative existing id s).2.1.pin = pinBy q.2 := by
  obtain ⟨ht, hp, hanswer⟩ := of_mem_questions hq
  rw [pin_resolve_of_taken ht, consult_of_no_pin hp, pin_answered hp, hanswer]

/-- A pin is there before, or an answer sets it. -/
theorem pin_resolve_eq_some (h : (b.resolve advisor alternative existing id s).2.1.pin = some a) :
    b.pin = some a ∨ ∃ q ∈ b.questions advisor existing id s, pinBy q.2 = some a := by
  cases hp : b.pin with
  | some c => exact Or.inl (hp ▸ (resolve_of_pin hp).1.symm.trans h)
  | none =>
    cases ht : b.isTaken existing id with
    | false =>
      rw [resolve_of_free ht] at h
      exact Or.inl (hp ▸ h)
    | true =>
      have hq : (id, (advisor id s).1) ∈ b.questions advisor existing id s := by
        simp [questions, ht, hp]
      exact Or.inr ⟨_, hq, (pin_resolve_of_mem_questions hq).symm.trans h⟩

/-- Only a question without an answer cancels a batch. -/
theorem cancelled_resolve_iff :
    (b.resolve advisor alternative existing id s).2.1.cancelled = true ↔
      b.cancelled = true ∨ ∃ q ∈ b.questions advisor existing id s, q.2 = none := by
  unfold questions
  cases ht : b.isTaken existing id with
  | false => simp [resolve_of_free ht, record]
  | true =>
    rw [cancelled_resolve_of_taken ht]
    cases hp : b.pin with
    | some a => simp [consult_of_pin hp]
    | none => simp [consult_of_no_pin hp, cancelled_answered]

/-! ### All calls -/

theorem resolveAll_cons (id : Identity) (ids : List Identity) (b : Batch) (s : σ) :
    resolveAll advisor alternative existing (id :: ids) b s =
      (⟨id, b, b.questions advisor existing id s,
          (b.resolve advisor alternative existing id s).1⟩ ::
        (resolveAll advisor alternative existing ids
          (b.resolve advisor alternative existing id s).2.1
          (b.resolve advisor alternative existing id s).2.2).1,
        (resolveAll advisor alternative existing ids
          (b.resolve advisor alternative existing id s).2.1
          (b.resolve advisor alternative existing id s).2.2).2) := by
  have hnotes : (b.questions advisor existing id s).foldl
      (fun (qs : Questions) q => qs ++ [(q.1, q.2)]) [] = b.questions advisor existing id s := by
    unfold questions
    split <;> rfl
  rw [resolveAll, resolve_observed, hnotes]

/-- **A call goes on from where those before it lead**, and those after it from where it leads. -/
theorem exists_of_split {earlier later : List Call} {c : Call}
    (h : (resolveAll advisor alternative existing ids b s).1 = earlier ++ c :: later) :
    ∃ before after t,
      resolveAll advisor alternative existing before b s = (earlier, c.batch, t) ∧
      c.asked = c.batch.questions advisor existing c.id t ∧
      c.result = (c.batch.resolve advisor alternative existing c.id t).1 ∧
      resolveAll advisor alternative existing after
          (c.batch.resolve advisor alternative existing c.id t).2.1
          (c.batch.resolve advisor alternative existing c.id t).2.2 =
        (later, (resolveAll advisor alternative existing ids b s).2) := by
  induction ids generalizing b s earlier with
  | nil => simp [resolveAll] at h
  | cons id ids ih =>
    rw [resolveAll_cons] at h ⊢
    cases earlier with
    | nil =>
      rw [List.nil_append, List.cons.injEq] at h
      obtain ⟨rfl, rfl⟩ := h
      exact ⟨[], ids, s, rfl, rfl, rfl, rfl⟩
    | cons first earlier =>
      rw [List.cons_append, List.cons.injEq] at h
      obtain ⟨rfl, h⟩ := h
      obtain ⟨before, after, t, hbefore, hcall⟩ := ih h
      refine ⟨id :: before, after, t, ?_, hcall⟩
      rw [resolveAll_cons, hbefore]

/-- Every call settles its identity. -/
theorem exists_of_mem {c : Call} (h : c ∈ (resolveAll advisor alternative existing ids b s).1) :
    ∃ t, c.asked = c.batch.questions advisor existing c.id t ∧
      c.result = (c.batch.resolve advisor alternative existing c.id t).1 := by
  obtain ⟨earlier, later, hsplit⟩ := List.append_of_mem h
  obtain ⟨-, -, t, -, hasked, hresult, -⟩ := exists_of_split hsplit
  exact ⟨t, hasked, hresult⟩

/-- **Nobody is asked by a batch with a pin**, and the pin stays. -/
theorem resolveAll_of_pin (advisor : Advisor σ) (alternative : Option (String → String))
    (existing ids : List Identity) (s : σ) (hp : b.pin = some a) :
    (resolveAll advisor alternative existing ids b s).2.1.pin = some a ∧
      ∀ c ∈ (resolveAll advisor alternative existing ids b s).1,
        c.asked = [] ∧ c.batch.pin = some a := by
  induction ids generalizing b s with
  | nil => exact ⟨hp, List.forall_mem_nil _⟩
  | cons id ids ih =>
    obtain ⟨hlast, hcalls⟩ := ih _ (resolve_of_pin hp).1
    rw [resolveAll_cons]
    exact ⟨hlast, List.forall_mem_cons.2 ⟨⟨questions_of_pin hp, hp⟩, hcalls⟩⟩

/-- A pin is there at the start, or the answer of a call sets it. -/
theorem pin_resolveAll_eq_some
    (h : (resolveAll advisor alternative existing ids b s).2.1.pin = some a) :
    b.pin = some a ∨ ∃ c ∈ (resolveAll advisor alternative existing ids b s).1,
      ∃ q ∈ c.asked, pinBy q.2 = some a := by
  induction ids generalizing b s with
  | nil => exact Or.inl h
  | cons id ids ih =>
    rw [resolveAll_cons] at h ⊢
    rcases ih h with hp | ⟨c, hc, hq⟩
    · exact (pin_resolve_eq_some hp).imp_right fun hq => ⟨_, List.mem_cons_self, hq⟩
    · exact Or.inr ⟨c, List.mem_cons_of_mem _ hc, hq⟩

/-- A batch is cancelled at the start, or by a call that gets no answer. -/
theorem cancelled_resolveAll_iff :
    (resolveAll advisor alternative existing ids b s).2.1.cancelled = true ↔
      b.cancelled = true ∨ ∃ c ∈ (resolveAll advisor alternative existing ids b s).1,
        ∃ q ∈ c.asked, q.2 = none := by
  induction ids generalizing b s with
  | nil => simp [resolveAll]
  | cons id ids ih =>
    rw [resolveAll_cons, ih, cancelled_resolve_iff, or_assoc]
    simp only [List.mem_cons, exists_eq_or_imp]

/-- After an answer that sets the pin nobody is asked, and the pin stays. -/
theorem resolveAll_of_answer {earlier later : List Call} {c : Call}
    (h : (resolveAll advisor alternative existing ids b s).1 = earlier ++ c :: later)
    {q : Identity × Option Answer} (hq : q ∈ c.asked) (ha : pinBy q.2 = some a) :
    (resolveAll advisor alternative existing ids b s).2.1.pin = some a ∧
      ∀ d ∈ later, d.asked = [] ∧ d.batch.pin = some a := by
  obtain ⟨-, after, t, -, hasked, -, hlater⟩ := exists_of_split h
  rw [hasked] at hq
  have hp : (c.batch.resolve advisor alternative existing c.id t).2.1.pin = some a :=
    (pin_resolve_of_mem_questions hq).trans ha
  have hrest := resolveAll_of_pin advisor alternative existing after
    (c.batch.resolve advisor alternative existing c.id t).2.2 hp
  rwa [hlater] at hrest

/-- The pinned action is what a conflict comes to. -/
theorem applies_of_mem {c : Call} (h : c ∈ (resolveAll advisor alternative existing ids b s).1)
    (hc : c.collides existing = true) (hp : c.batch.pin = some a) :
    c.batch.Applies alternative existing c.id a c.result := by
  obtain ⟨t, -, hresult⟩ := exists_of_mem h
  have happly := applies_resolve advisor alternative t hc
  rwa [consult_of_pin hp, ← hresult] at happly

/-- A conflict that is asked about gets the action of the answer. -/
theorem applies_of_mem_asked {c : Call}
    (h : c ∈ (resolveAll advisor alternative existing ids b s).1)
    {q : Identity × Option Answer} (hq : q ∈ c.asked) :
    c.batch.Applies alternative existing c.id ((q.2.map Answer.action).getD .skip) c.result := by
  obtain ⟨t, hasked, hresult⟩ := exists_of_mem h
  rw [hasked] at hq
  obtain ⟨ht, hp, hanswer⟩ := of_mem_questions hq
  have happly := applies_resolve advisor alternative t ht
  rwa [consult_of_no_pin hp, action_answered, ← hanswer, ← hresult] at happly

/-! ### How conflicts are asked about -/

/-- How a batch deals with its advisor, from its first state to its last one. -/
structure Follows (alternative : Option (String → String)) (existing : List Identity)
    (first : Batch) (calls : List Call) (last : Batch) : Prop where
  /-- The advisor is asked about an identity that is taken while nothing is pinned, once and in its
  call, and about nothing else. -/
  asked : ∀ c ∈ calls, c.asked.map Prod.fst =
    if c.collides existing = true ∧ c.batch.pin = none then [c.id] else []
  /-- A batch that is pinned from the start asks nothing, and its pin stays. -/
  pinned : ∀ a, first.pin = some a →
    last.pin = some a ∧ ∀ c ∈ calls, c.asked = [] ∧ c.batch.pin = some a
  /-- After an answer that sets the pin nothing is asked, and the pin stays. -/
  settled : ∀ earlier c later, calls = earlier ++ c :: later → ∀ q ∈ c.asked, ∀ a,
    pinBy q.2 = some a →
      last.pin = some a ∧ ∀ d ∈ later, d.asked = [] ∧ d.batch.pin = some a
  /-- A pin is there from the start, or from such an answer on. -/
  origin : ∀ earlier c later, calls = earlier ++ c :: later → ∀ a, c.batch.pin = some a →
    first.pin = some a ∨ ∃ d ∈ earlier, ∃ q ∈ d.asked, pinBy q.2 = some a
  /-- A conflict that is asked about gets the action of the answer. -/
  answered : ∀ c ∈ calls, ∀ q ∈ c.asked,
    c.batch.Applies alternative existing c.id ((q.2.map Answer.action).getD .skip) c.result
  /-- A conflict under a pin gets the pinned action. -/
  applied : ∀ c ∈ calls, c.collides existing = true → ∀ a, c.batch.pin = some a →
    c.batch.Applies alternative existing c.id a c.result
  /-- The batch is cancelled exactly by a question without an answer. -/
  cancelled : last.cancelled = true ↔ ∃ c ∈ calls, ∃ q ∈ c.asked, q.2 = none
  /-- From such a question on every conflict is skipped. -/
  skipped : ∀ earlier c later, calls = earlier ++ c :: later → (∃ q ∈ c.asked, q.2 = none) →
    ∀ d ∈ c :: later, d.collides existing = true → d.result = .ok .skip

/-- **How conflicts are asked about.** For every start, advisor and sequence of identities, those
that no name is left for included: the advisor is asked about exactly the conflicts that nothing
settles, each once and in order; after the first answer for all conflicts, or the first that is
missing, there is no more question, the pin stays and every conflict gets its action; and the batch
is cancelled exactly if an answer is missing, from which on every conflict is skipped. -/
theorem follows_resolveAll (advisor : Advisor σ) (alternative : Option (String → String))
    (existing ids : List Identity) (pin : Option ConflictAction) (s : σ) :
    Follows alternative existing (start pin)
      (resolveAll advisor alternative existing ids (start pin) s).1
      (resolveAll advisor alternative existing ids (start pin) s).2.1 where
  asked c hc := by
    obtain ⟨t, hasked, -⟩ := exists_of_mem hc
    rw [hasked, map_fst_questions]
    rfl
  pinned _ hp := resolveAll_of_pin advisor alternative existing ids s hp
  settled _ _ _ hsplit _ hq _ ha := resolveAll_of_answer hsplit hq ha
  origin _ c _ hsplit a hp := by
    obtain ⟨before, -, t, hbefore, -⟩ := exists_of_split hsplit
    have hlast : (resolveAll advisor alternative existing before (start pin) s).2.1.pin = some a :=
      by rw [hbefore, hp]
    simpa only [hbefore] using pin_resolveAll_eq_some hlast
  answered _ hc _ hq := applies_of_mem_asked hc hq
  applied _ hc hcollides _ hp := applies_of_mem hc hcollides hp
  cancelled := by
    rw [cancelled_resolveAll_iff]
    simp [start]
  skipped _ c later hsplit hnone d hd hcollides := by
    obtain ⟨q, hq, hnone⟩ := hnone
    have hmem : ∀ e ∈ c :: later,
        e ∈ (resolveAll advisor alternative existing ids (start pin) s).1 := fun e he =>
      hsplit ▸ List.mem_append_right _ he
    rcases List.mem_cons.1 hd with rfl | hd
    · have happly := applies_of_mem_asked (hmem _ List.mem_cons_self) hq
      rw [hnone] at happly
      exact happly.eq_skip
    · have hpin : pinBy q.2 = some .skip := by rw [hnone, pinBy]
      have hp := ((resolveAll_of_answer hsplit hq hpin).2 d hd).2
      exact (applies_of_mem (hmem _ (List.mem_cons_of_mem _ hd)) hcollides hp).eq_skip

end Batch

end EntityScaffold
