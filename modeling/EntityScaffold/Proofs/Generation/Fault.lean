import EntityScaffold.Proofs.Generation.Emission
import EntityScaffold.Proofs.Generation.Request

/-!
# Runs that end with a fault

A run may end with a fault and give no report. Everything is checked, made and planned before the
first write, except that an artifact is renamed in its text only when its turn to be written comes.
So a fault leaves the store as it was, unless it comes from a new name that is no replacement
template; then the artifacts before that one are there already (`RunRequest.store_of_fault`). Such a
name has a backslash.
-/

namespace EntityScaffold

variable {σ : Type}

/-- Only a name with a backslash is no replacement. -/
theorem Text.mem_of_rename_eq_error {s old new : String} {e : Text.Template.Fault}
    (h : Text.rename s old new = .error e) : '\\' ∈ new.toList := by
  by_contra hback
  rw [rename, Template.expand_eq_self hback] at h
  cases h

/-- An artifact cannot be filed only if it cannot be renamed. -/
theorem Artifact.filed_eq_error {a : Artifact} {d : Decision} {e : Text.Template.Fault}
    (h : a.filed d = .error e) :
    ∃ name, d = .rename name ∧ Text.rename a.text a.className name = .error e := by
  cases d with
  | write => cases h
  | skip => cases h
  | rename name =>
    refine ⟨name, rfl, ?_⟩
    unfold filed at h
    dsimp only at h
    cases ht : Text.rename a.text a.className name with
    | error e' =>
      rw [ht] at h
      cases h
      rfl
    | ok text =>
      rw [ht] at h
      cases h

/-- Emissions leave a store as it was only if none of them files anything. -/
theorem MemoryStore.withEmissions_eq_self_iff {k : MemoryStore} {es : List Emission} :
    k.withEmissions es = k ↔ Emission.files es = [] := by
  constructor
  · intro h
    have hwrites : k.writes ++ (Emission.files es).map (·.1) = k.writes :=
      congrArg MemoryStore.writes h
    rw [List.append_right_eq_self, List.map_eq_nil_iff] at hwrites
    exact hwrites
  · intro h
    unfold withEmissions
    rw [h, List.map_nil, List.append_nil]
    rfl

namespace RunRequest

variable {r : RunRequest σ} {x : MemoryStore × σ}

/-- A run carries out its plan up to an artifact with a new name that is no replacement. -/
structure BreaksAt (r : RunRequest σ) (x : MemoryStore × σ) (es : List Emission) (a : Artifact)
    (name : String) (e : Text.Template.Fault) : Prop where
  plans : ∃ later, r.Plans x (es.map Emission.step ++ (a, .rename name) :: later)
  fault : Text.rename a.text a.className name = .error e
  /-- No other names break a run. -/
  backslash : '\\' ∈ name.toList

/-- **A fault leaves the store as it was, unless a name breaks the run after something was filed.**
Only a new name that is no replacement can do so. It is one that the plan has; the store then has
what the artifacts before it file, and it is as it was only if they file nothing. -/
theorem store_of_fault {fault : RunFault} (h : (r.run x).1 = .error fault) :
    ((∀ e, fault ≠ .template e) ∧ (r.run x).2.1 = x.1) ∨
      ∃ e es a name, fault = .template e ∧ r.BreaksAt x es a name e ∧
        (r.run x).2.1 = x.1.withEmissions es ∧
        ((r.run x).2.1 = x.1 ↔ Emission.files es = []) := by
  rcases r.run_cases x with ⟨report, s, -, hr⟩ | ⟨fault', s, hother, hr⟩ |
    ⟨plan, concerns, missing, s, hplan, hr⟩
  · rw [hr] at h
    cases h
  · rw [hr] at h ⊢
    cases h
    exact Or.inl ⟨hother, rfl⟩
  · right
    rw [hr] at h ⊢
    obtain ⟨es, rest, rfl, -, hk, hend⟩ := r.partner.emit_cases plan _ x.1 s
    rw [hk]
    rcases hend with ⟨-, hend⟩ | ⟨a, d, later, e, rfl, hf, hend⟩ | ⟨_, _, _, -, -, -, hend⟩ <;>
      cases hend.symm.trans h
    obtain ⟨name, rfl, hren⟩ := Artifact.filed_eq_error hf
    exact ⟨e, es, a, name, rfl, ⟨⟨later, hplan⟩, hren, Text.mem_of_rename_eq_error hren⟩, rfl,
      MemoryStore.withEmissions_eq_self_iff⟩

/-- Somebody who renames what is taken, with a backslash at the end. -/
def backslashes : RunRequest Unit :=
  { ofLayers (.constant (.once .rename)) [.dto, .repository] with
    partner :=
      { Partner.passive Unit with
        advisor := .constant (.once .rename)
        alternative := some (· ++ "\\") } }

/-- A store that has the repository. -/
def repositoryStore : MemoryStore where
  files := [(⟨"shop.api", "UserRepository"⟩, "// written by hand\n")]

theorem run_backslashes :
    (backslashes.run (repositoryStore, ())).1 = .error (.template .malformed) ∧
      (backslashes.run (repositoryStore, ())).2.1.writes = [⟨"shop.api", "UserDTO"⟩] := by
  decide +kernel

/-- A run that cannot rename its second artifact has filed the first one. -/
theorem breaksAt_backslashes :
    ∃ e es a name, backslashes.BreaksAt (repositoryStore, ()) es a name e ∧
      Emission.files es ≠ [] := by
  rcases store_of_fault run_backslashes.1 with ⟨hother, -⟩ | ⟨e, es, a, name, -, hbreaks, -, hsame⟩
  · exact absurd rfl (hother .malformed)
  · refine ⟨e, es, a, name, hbreaks, fun hnone => ?_⟩
    have hwrites := run_backslashes.2
    rw [hsame.2 hnone] at hwrites
    cases hwrites

/-- **Not every fault leaves the store as it was.** -/
theorem exists_fault_with_write :
    ¬ ∀ (r : RunRequest Unit) (x : MemoryStore × Unit) (fault : RunFault),
      (r.run x).1 = .error fault →
        (r.run x).2.1.files = x.1.files ∧ (r.run x).2.1.writes = x.1.writes := by
  intro h
  obtain ⟨-, hwrites⟩ := h backslashes (repositoryStore, ()) _ run_backslashes.1
  rw [run_backslashes.2] at hwrites
  cases hwrites

end RunRequest

end EntityScaffold
