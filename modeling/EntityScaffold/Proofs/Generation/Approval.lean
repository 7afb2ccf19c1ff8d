import EntityScaffold.Proofs.Generation.Emission
import EntityScaffold.Proofs.Generation.Request

/-!
# Nothing is overwritten without approval

Runs follow each other on one store, each with whoever takes part in it. A file that is there
before a run keeps its text, unless an artifact of that very run has its identity and was approved:
by the settings, by an answer about that identity, or by an answer for everything that came no
later than the artifact. Approval is read off the record of the run's own questions
(`Partner.recorded`), so that what was pinned in one run counts for nothing in the next.
-/

namespace EntityScaffold

variable {σ : Type}

namespace Partner

/-- The questions and answers that settling artifacts leads to. -/
def answers (w : Partner σ) (p : Settings) (existing : List Identity) (artifacts : List Artifact)
    (s : σ) : Record :=
  (w.recorded.plan p existing artifacts (s, [])).2.2

/-- After some artifacts the next one may be written over what is there: the settings approve all,
or somebody has answered to write everything, or now answers to write this one. -/
def ApprovesNext (w : Partner σ) (p : Settings) (existing : List Identity)
    (before : List Artifact) (a : Artifact) (s : σ) : Prop :=
  p.overwrite = true ∨ (∃ q ∈ w.answers p existing before s, q.2 = some (.always .write)) ∨
    ∃ c : Answer, c.action = .write ∧
      w.answers p existing (before ++ [a]) s =
        w.answers p existing before s ++ [(a.identity, some c)]

section Plan

variable {w : Partner σ} {p : Settings} {existing : List Identity} {artifacts : List Artifact}
  {s : σ} {before after : List (Artifact × Decision)} {a : Artifact} {d : Decision}

/-- The answers about some artifacts go on with those about the next ones. -/
theorem answers_prefix_of_plan {mid : List (Artifact × Decision)}
    (h : (w.plan p existing artifacts s).1 = .ok (some (before ++ mid ++ after))) :
    w.answers p existing (before.map Prod.fst) s <+:
      w.answers p existing ((before ++ mid).map Prod.fst) s :=
  w.record_prefix_of_settle ((w.settle_recorded artifacts _ (s, [])).trans h)

/-- A planned write over an identity that is there, or that an earlier decision takes, is
approved. -/
theorem approvesNext_of_plan
    (h : (w.plan p existing artifacts s).1 = .ok (some (before ++ (a, .write) :: after)))
    (ha : a.identity ∈ existing ∨
      ∃ step ∈ before, step.2.target? step.1.identity = some a.identity) :
    w.ApprovesNext p existing (before.map Prod.fst) a s := by
  have hrec := (w.settle_recorded artifacts _ (s, [])).trans h
  refine (w.approved_of_settle hrec ha).imp_left fun hpin => ?_
  by_contra ho
  simp [ho] at hpin

/-- Where nothing is approved, the next artifact is not. -/
theorem not_approvesNext_of_plan
    (h : (w.plan p existing artifacts s).1 = .ok (some (before ++ (a, d) :: after)))
    (ho : p.overwrite = false)
    (hanswers : ∀ q ∈ w.answers p existing artifacts s, ∀ c, q.2 = some c → c.action ≠ .write) :
    ¬ w.ApprovesNext p existing (before.map Prod.fst) a s := by
  -- the answers up to any point of the plan are among all answers
  have hsub : ∀ before after : List (Artifact × Decision),
      (w.plan p existing artifacts s).1 = .ok (some (before ++ after)) →
      w.answers p existing (before.map Prod.fst) s <+: w.answers p existing artifacts s := by
    intro before after h
    rw [← w.map_fst_of_settle h]
    rw [← List.append_nil (before ++ after)] at h
    exact answers_prefix_of_plan h
  rintro (hover | ⟨q, hq, hall⟩ | ⟨c, hc, hnext⟩)
  · rw [ho] at hover
    cases hover
  · exact hanswers q ((hsub before _ h).subset hq) _ hall rfl
  · rw [List.append_cons] at h
    have hbefore := hsub (before ++ [(a, d)]) after h
    rw [List.map_append, List.map_cons, List.map_nil, hnext] at hbefore
    exact hanswers (a.identity, some c) (hbefore.subset (by simp)) c rfl hc

end Plan

end Partner

namespace RunRequest

/-- The store after a run, and the state of those who took part. -/
def carryOut (r : RunRequest σ) (x : MemoryStore × σ) : MemoryStore × σ := (r.run x).2

/-- The store after runs one after the other. -/
def carryOutAll (rs : List (RunRequest σ)) (x : MemoryStore × σ) : MemoryStore × σ :=
  rs.foldl (fun x r => r.carryOut x) x

/-- An artifact of a run has an identity, and it was approved that it takes the place of a file:
the settings approve all, or by the time it is settled somebody has answered to write this identity
or to write everything. -/
def Approves (r : RunRequest σ) (x : MemoryStore × σ) (id : Identity) : Prop :=
  ∃ before a after s, r.Makes x (before ++ a :: after) s ∧ a.identity = id ∧
    (r.settings.overwrite = true ∨
      ∃ q ∈ r.partner.answers r.settings (Store.existing x.1) (before ++ [a]) s,
        q = (id, some (.once .write)) ∨ q.2 = some (.always .write))

/-- A planned write over an existing identity is approved. -/
theorem approves_of_mem_plan {r : RunRequest σ} {x : MemoryStore × σ}
    {plan : List (Artifact × Decision)} {a : Artifact} (h : r.Plans x plan)
    (ha : (a, .write) ∈ plan) (he : a.identity ∈ Store.existing x.1) :
    r.Approves x a.identity := by
  obtain ⟨artifacts, s, hmake, hplan⟩ := h
  obtain ⟨before, after, rfl⟩ := List.append_of_mem ha
  have hm := r.partner.map_fst_of_settle hplan
  rw [List.map_append, List.map_cons] at hm
  refine ⟨_, a, _, s, hm ▸ hmake, rfl, ?_⟩
  rcases Partner.approvesNext_of_plan hplan (Or.inl he) with ho | ⟨q, hq, hall⟩ | ⟨c, hc, hnext⟩
  · exact Or.inl ho
  · rw [List.append_cons] at hplan
    have hsub := (Partner.answers_prefix_of_plan hplan).subset hq
    rw [List.map_append] at hsub
    exact Or.inr ⟨q, hsub, Or.inr hall⟩
  · refine Or.inr ⟨(a.identity, some c), by rw [hnext]; simp, ?_⟩
    cases c <;> cases hc
    · exact Or.inl rfl
    · exact Or.inr rfl

/-- A planned rename takes no file that was there before the run. -/
theorem text?_of_plans_rename {r : RunRequest σ} {x : MemoryStore × σ}
    {plan : List (Artifact × Decision)} {a : Artifact} {name : String} (h : r.Plans x plan)
    (ha : (a, .rename name) ∈ plan) : x.1.text? { a.identity with className := name } = none :=
  MemoryStore.text?_eq_none_iff.2 (free_of_plans_rename h ha).2

/-- A file that is there before a run keeps its text, unless it was approved. -/
theorem text?_carryOut (r : RunRequest σ) (x : MemoryStore × σ) {id : Identity} {text : String}
    (h : x.1.text? id = some text) :
    (r.carryOut x).1.text? id = some text ∨ r.Approves x id := by
  unfold carryOut
  rcases r.run_cases x with ⟨report, s, -, hrun⟩ | ⟨fault, s, -, hrun⟩ |
    ⟨plan, concerns, missing, s, hplan, hrun⟩
  · exact Or.inl (by rw [hrun, h])
  · exact Or.inl (by rw [hrun, h])
  · rw [hrun]
    rcases r.partner.text?_emit plan id _ x.1 s with hkept | ⟨a, d, t, hm, hf, -⟩
    · exact Or.inl (hkept.trans h)
    · right
      rcases Artifact.filed_eq_some hf with ⟨rfl, rfl, -⟩ | ⟨name, rfl, rfl, -⟩
      · exact approves_of_mem_plan hplan hm (MemoryStore.mem_existing_of_text? h)
      · rw [text?_of_plans_rename hplan hm] at h
        cases h

/-- **No run overwrites a file that was there before it, unless its own advisor or its settings
approved it.** After any runs, each file that is there keeps its text through the next run, or an
artifact of that run has its identity and an approval; and no artifact that the run renames takes
the identity of such a file. -/
theorem kept_or_approved (earlier : List (RunRequest σ)) (r : RunRequest σ)
    (start : MemoryStore × σ) :
    let before := carryOutAll earlier start
    let after := carryOutAll (earlier ++ [r]) start
    (∀ id text, before.1.text? id = some text →
        after.1.text? id = some text ∨ r.Approves before id) ∧
      ∀ plan a name, r.Plans before plan → (a, .rename name) ∈ plan →
        before.1.text? { a.identity with className := name } = none := by
  intro before after
  have hafter : after = r.carryOut before := by
    simp only [after, before, carryOutAll, List.foldl_append, List.foldl_cons, List.foldl_nil]
  refine ⟨fun id text h => ?_, fun plan a name hplan ha => text?_of_plans_rename hplan ha⟩
  rw [hafter]
  exact r.text?_carryOut before h

/-- Somebody who answers to write a file approves it. -/
theorem approves_of_answer :
    (ofUser (.constant (.once .write)) "Dto").Approves
      ({ files := [(⟨"shop.dto", "UserDto"⟩, "")] }, ()) ⟨"shop.dto", "UserDto"⟩ := by
  have h := (kept_or_approved [] (ofUser (.constant (.once .write)) "Dto")
    ({ files := [(⟨"shop.dto", "UserDto"⟩, "")] }, ())).1 ⟨"shop.dto", "UserDto"⟩ "" rfl
  refine h.resolve_left ?_
  decide +kernel

end RunRequest

end EntityScaffold
