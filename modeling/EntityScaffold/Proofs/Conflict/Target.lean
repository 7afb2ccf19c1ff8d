import EntityScaffold.Proofs.Conflict.Calls

/-!
# Targets of a batch

A decision takes an identity, its target: the artifact's own where it is written, one of the new
name where it is renamed. As long as no new name is empty, a batch has claimed exactly the targets
of its decisions. So a new name never leads to what exists or to an earlier target, and a batch that
writes over no conflict has targets that are all new and distinct (`claims_and_targets_resolveAll`).
-/

namespace EntityScaffold

theorem Decision.target?_eq_identity? {d : Decision} (h : d ≠ .rename "") (id : Identity) :
    d.target? id = d.identity? id := by
  cases d with
  | write | skip => rfl
  | rename name => exact if_neg fun hname : name = "" => h (congrArg rename hname)

namespace Batch

variable {σ : Type} {advisor : Advisor σ} {alternative : Option (String → String)}
  {existing : List Identity} {id : Identity} {ids : List Identity} {b : Batch} {s : σ}

/-- The identities that the decisions of a batch take, in order. -/
def targets (b : Batch) : List Identity := b.decisions.filterMap fun d => d.2.identity? d.1

/-- What a call decides, if there is a name left. -/
def Call.decision? (c : Call) : Option (Identity × Decision) := c.result.toOption.map (c.id, ·)

/-! ### New names -/

theorem mem_iterates {f : String → String} {n : Nat} {start name : String}
    (h : name ∈ iterates f n start) : ∃ given, name = f given := by
  induction n generalizing start with
  | zero => cases h
  | succ n ih =>
    rcases List.mem_cons.1 h with rfl | h
    · exact ⟨start, rfl⟩
    · exact ih h

/-- No name to try is empty, if no function makes one. -/
theorem ne_empty_of_mem_candidates (hf : ∀ f ∈ alternative, ∀ given, f given ≠ "")
    {className name : String} (h : name ∈ candidates alternative className) : name ≠ "" := by
  cases alternative with
  | none => exact (ne_of_mem_candidates h).1
  | some f =>
    obtain ⟨given, rfl⟩ := mem_iterates h
    exact hf f rfl given

theorem ne_rename_empty_of_resolve (hf : ∀ f ∈ alternative, ∀ given, f given ≠ "") {d : Decision}
    (h : (b.resolve advisor alternative existing id s).1 = .ok d) : d ≠ .rename "" := by
  rintro rfl
  exact ne_empty_of_mem_candidates hf (free_of_resolve_rename h).1 rfl

/-! ### One call -/

theorem decisions_consult : (b.consult advisor id s).1.1.decisions = b.decisions := by
  cases hp : b.pin with
  | some a => rw [consult_of_pin hp]
  | none =>
    rw [consult_of_no_pin hp]
    rcases (advisor id s).1 with _ | _ | _ <;> rfl

/-- **What a call records**: its decision, if it comes to one. -/
theorem resolve_records (advisor : Advisor σ) (alternative : Option (String → String))
    (existing : List Identity) (b : Batch) (id : Identity) (s : σ) :
    (∃ d, (b.resolve advisor alternative existing id s).1 = .ok d ∧
        (b.resolve advisor alternative existing id s).2.1.decisions = b.decisions ++ [(id, d)] ∧
        (b.resolve advisor alternative existing id s).2.1.claimed =
          b.claimed ++ (d.target? id).toList) ∨
      ∃ e, (b.resolve advisor alternative existing id s).1 = .error e ∧
        (b.resolve advisor alternative existing id s).2.1.decisions = b.decisions ∧
        (b.resolve advisor alternative existing id s).2.1.claimed = b.claimed := by
  cases ht : b.isTaken existing id with
  | false =>
    rw [resolve_of_free ht]
    exact Or.inl ⟨.write, rfl, rfl, rfl⟩
  | true =>
    rw [resolve_of_taken ht]
    split
    · rename_i d _
      refine Or.inl ⟨d, rfl, ?_, ?_⟩
      · rw [record, decisions_consult]
      · rw [record, claimed_consult]
    · exact Or.inr ⟨_, rfl, decisions_consult, claimed_consult⟩

/-- A decision that writes over no conflict takes an identity that is not taken. -/
theorem free_of_identity? {d : Decision}
    (h : (b.resolve advisor alternative existing id s).1 = .ok d)
    (hwrite : b.isTaken existing id = true → d ≠ .write) {target : Identity}
    (ht : d.identity? id = some target) : b.isTaken existing target = false := by
  cases d with
  | skip => cases ht
  | rename name =>
    cases ht
    exact (free_of_resolve_rename h).2
  | write =>
    cases ht
    simpa using fun htaken => hwrite htaken rfl

/-! ### All calls -/

/-- The decisions of a batch are those of its calls, in order. -/
theorem decisions_resolveAll :
    (resolveAll advisor alternative existing ids b s).2.1.decisions =
      b.decisions ++ (resolveAll advisor alternative existing ids b s).1.filterMap Call.decision? := by
  induction ids generalizing b s with
  | nil => simp [resolveAll]
  | cons id ids ih =>
    rw [resolveAll_cons, ih, List.filterMap_cons]
    rcases resolve_records advisor alternative existing b id s with
      ⟨d, hd, hdecisions, -⟩ | ⟨e, he, hdecisions, -⟩
    · rw [hdecisions, Call.decision?, hd]
      simp [Except.toOption]
    · rw [hdecisions, Call.decision?, he]
      rfl

/-- What is claimed are the targets, if no new name is empty. -/
theorem claimed_resolve (hf : ∀ f ∈ alternative, ∀ given, f given ≠ "")
    (h : b.claimed = b.targets) :
    (b.resolve advisor alternative existing id s).2.1.claimed =
      (b.resolve advisor alternative existing id s).2.1.targets := by
  rcases resolve_records advisor alternative existing b id s with
    ⟨d, hd, hdecisions, hclaimed⟩ | ⟨e, -, hdecisions, hclaimed⟩
  · have htarget := Decision.target?_eq_identity? (ne_rename_empty_of_resolve hf hd) id
    rw [hclaimed, targets, hdecisions, h, targets, htarget]
    cases hid : d.identity? id <;> simp [hid]
  · rw [hclaimed, targets, hdecisions, h, targets]

theorem claimed_resolveAll (hf : ∀ f ∈ alternative, ∀ given, f given ≠ "")
    (h : b.claimed = b.targets) :
    (resolveAll advisor alternative existing ids b s).2.1.claimed =
      (resolveAll advisor alternative existing ids b s).2.1.targets := by
  induction ids generalizing b s with
  | nil => exact h
  | cons id ids ih =>
    rw [resolveAll_cons]
    exact ih (claimed_resolve hf h)

/-- A decision of a batch is that of a call, which finds the decisions before it. -/
theorem exists_of_decisions_split {calls : List Call} {earlier later : List (Identity × Decision)}
    {d : Decision} (h : calls.filterMap Call.decision? = earlier ++ (id, d) :: later) :
    ∃ before c after, calls = before ++ c :: after ∧ before.filterMap Call.decision? = earlier ∧
      c.id = id ∧ c.result = .ok d := by
  obtain ⟨front, back, rfl, rfl, hback⟩ := List.filterMap_eq_append_iff.1 h
  obtain ⟨idle, c, after, rfl, hidle, hc, -⟩ := List.filterMap_eq_cons_iff.1 hback
  obtain ⟨d', hresult, hpair⟩ := Option.map_eq_some_iff.1 hc
  obtain ⟨hid, rfl⟩ := Prod.mk.inj hpair
  refine ⟨front ++ idle, c, after, by simp, ?_, hid, ?_⟩
  · rw [List.filterMap_append, List.filterMap_eq_nil_iff.2 hidle, List.append_nil]
  · cases hr : c.result with
    | error e => rw [hr] at hresult; cases hresult
    | ok d => rw [hr] at hresult; cases hresult; rfl

/-- The targets of a batch are new and distinct. -/
structure IsClear (existing : List Identity) (b : Batch) : Prop where
  claimed : b.claimed = b.targets
  nodup : b.targets.Nodup
  notMem : ∀ id ∈ b.targets, id ∉ existing

/-- **A call that writes over no conflict keeps targets new and distinct.** -/
theorem IsClear.resolve (hf : ∀ f ∈ alternative, ∀ given, f given ≠ "") (h : b.IsClear existing)
    (hwrite : b.isTaken existing id = true →
      (b.resolve advisor alternative existing id s).1 ≠ .ok .write) :
    (b.resolve advisor alternative existing id s).2.1.IsClear existing := by
  have hclaimed : (b.resolve advisor alternative existing id s).2.1.claimed =
      (b.resolve advisor alternative existing id s).2.1.targets := claimed_resolve hf h.claimed
  rcases resolve_records advisor alternative existing b id s with
    ⟨d, hd, hdecisions, -⟩ | ⟨e, -, hdecisions, -⟩
  · have htargets : (b.resolve advisor alternative existing id s).2.1.targets =
        b.targets ++ (d.identity? id).toList := by
      rw [targets, hdecisions, targets]
      cases hid : d.identity? id <;> simp [hid]
    cases hid : d.identity? id with
    | none =>
      rw [hid, Option.toList_none, List.append_nil] at htargets
      exact ⟨hclaimed, htargets ▸ h.nodup, htargets ▸ h.notMem⟩
    | some target =>
      -- no conflict is written over, so the target is free, as it is or under a new name
      have hfree := free_of_identity? hd (fun ht hw => hwrite ht (hw ▸ hd)) hid
      rw [isTaken_eq_false_iff, h.claimed] at hfree
      rw [hid, Option.toList_some] at htargets
      refine ⟨hclaimed, ?_, ?_⟩
      · rw [htargets, List.nodup_append]
        refine ⟨h.nodup, List.pairwise_singleton _ _, fun other hother new hnew => ?_⟩
        rintro rfl
        exact hfree.2 (List.mem_singleton.1 hnew ▸ hother)
      · rw [htargets]
        intro other hother
        rcases List.mem_append.1 hother with hother | hother
        · exact h.notMem other hother
        · exact List.mem_singleton.1 hother ▸ hfree.1
  · have htargets : (b.resolve advisor alternative existing id s).2.1.targets = b.targets := by
      rw [targets, hdecisions, targets]
    exact ⟨hclaimed, htargets ▸ h.nodup, htargets ▸ h.notMem⟩

theorem IsClear.resolveAll (hf : ∀ f ∈ alternative, ∀ given, f given ≠ "")
    (h : b.IsClear existing)
    (hwrite : ∀ c ∈ (resolveAll advisor alternative existing ids b s).1,
      c.collides existing = true → c.result ≠ .ok .write) :
    (resolveAll advisor alternative existing ids b s).2.1.IsClear existing := by
  induction ids generalizing b s with
  | nil => exact h
  | cons id ids ih =>
    rw [resolveAll_cons] at hwrite ⊢
    obtain ⟨hfirst, hrest⟩ := List.forall_mem_cons.1 hwrite
    exact ih (h.resolve hf hfirst) hrest

/-- **What a batch takes.** For every start, advisor and sequence of identities, and every function
for new names that makes none that is empty: the decisions are those of the calls; before and after
each call the batch has claimed exactly the targets of its decisions; a renamed artifact takes an
identity that does not exist and is no earlier target; and if no conflict is written over, all
targets are distinct and none exists. -/
theorem claims_and_targets_resolveAll (advisor : Advisor σ)
    (alternative : Option (String → String)) (hf : ∀ f ∈ alternative, ∀ given, f given ≠ "")
    (existing ids : List Identity) (pin : Option ConflictAction) (s : σ) :
    let calls := (resolveAll advisor alternative existing ids (start pin) s).1
    let last := (resolveAll advisor alternative existing ids (start pin) s).2.1
    last.decisions = calls.filterMap Call.decision? ∧
    ((∀ c ∈ calls, c.batch.claimed = c.batch.targets) ∧ last.claimed = last.targets) ∧
    (∀ earlier id name later, last.decisions = earlier ++ (id, .rename name) :: later →
      { id with className := name } ∉ existing ∧
        ∀ d ∈ earlier, d.2.identity? d.1 ≠ some { id with className := name }) ∧
    ((∀ c ∈ calls, c.collides existing = true → c.result ≠ .ok .write) →
      last.targets.Nodup ∧ ∀ id ∈ last.targets, id ∉ existing) := by
  intro calls last
  have hstart : (start pin).claimed = (start pin).targets := rfl
  have hdecisions (ids : List Identity) :
      (resolveAll advisor alternative existing ids (start pin) s).2.1.decisions =
        (resolveAll advisor alternative existing ids (start pin) s).1.filterMap Call.decision? := by
    rw [decisions_resolveAll]
    rfl
  -- a call finds the batch as the calls before it have left it
  have hclaimed {earlier later : List Call} {c : Call} (hsplit : calls = earlier ++ c :: later) :
      c.batch.decisions = earlier.filterMap Call.decision? ∧ c.batch.claimed = c.batch.targets := by
    obtain ⟨before, -, t, hbefore, -⟩ := exists_of_split hsplit
    have hd := hdecisions before
    have hc : (resolveAll advisor alternative existing before (start pin) s).2.1.claimed =
        (resolveAll advisor alternative existing before (start pin) s).2.1.targets :=
      claimed_resolveAll hf hstart
    rw [hbefore] at hd hc
    exact ⟨hd, hc⟩
  refine ⟨hdecisions ids, ⟨fun c hc => ?_, claimed_resolveAll hf hstart⟩, ?_, fun hwrite => ?_⟩
  · obtain ⟨earlier, later, hsplit⟩ := List.append_of_mem hc
    exact (hclaimed hsplit).2
  · intro earlier id name later hsplit
    obtain ⟨before, c, after, hcalls, rfl, rfl, hresult⟩ :=
      exists_of_decisions_split ((hdecisions ids).symm.trans hsplit)
    obtain ⟨hfound, htargets⟩ := hclaimed hcalls
    have hmem : c ∈ before ++ c :: after := List.mem_append_right _ List.mem_cons_self
    rw [← hcalls] at hmem
    obtain ⟨t, -, hresolve⟩ := exists_of_mem hmem
    obtain ⟨-, hfree⟩ := free_of_resolve_rename (hresolve.symm.trans hresult)
    rw [isTaken_eq_false_iff, htargets, targets, hfound] at hfree
    refine ⟨hfree.1, fun d hd htarget => hfree.2 ?_⟩
    exact List.mem_filterMap.2 ⟨d, hd, htarget⟩
  · have hclear : (start pin).IsClear existing :=
      ⟨hstart, List.nodup_nil, List.forall_mem_nil _⟩
    obtain ⟨-, hnodup, hnew⟩ := hclear.resolveAll hf hwrite
    exact ⟨hnodup, hnew⟩

/-- Users of which one exists already, and an order, with conflicts renamed by a letter more. -/
def renamedUsers : List Call × Batch × Unit :=
  resolveAll (.constant (.always .rename)) (some (· ++ "X")) [⟨"shop", "User"⟩]
    [⟨"shop", "User"⟩, ⟨"shop", "User"⟩, ⟨"shop", "UserX"⟩, ⟨"shop", "Order"⟩] (start none) ()

/-- Renamed artifacts take names that are taken by nobody, themselves included. -/
theorem claims_and_targets_renamedUsers :
    renamedUsers.2.1.claimed =
        [⟨"shop", "UserX"⟩, ⟨"shop", "UserXX"⟩, ⟨"shop", "UserXXX"⟩, ⟨"shop", "Order"⟩] ∧
      renamedUsers.2.1.targets.Nodup ∧
      ∀ id ∈ renamedUsers.2.1.targets, id ∉ ([⟨"shop", "User"⟩] : List Identity) := by
  obtain ⟨-, -, -, hclear⟩ := claims_and_targets_resolveAll (.constant (.always .rename))
    (some (· ++ "X")) (by simp) [⟨"shop", "User"⟩]
    [⟨"shop", "User"⟩, ⟨"shop", "User"⟩, ⟨"shop", "UserX"⟩, ⟨"shop", "Order"⟩] none ()
  refine ⟨by decide +kernel, hclear ?_⟩
  decide +kernel

end Batch

end EntityScaffold
