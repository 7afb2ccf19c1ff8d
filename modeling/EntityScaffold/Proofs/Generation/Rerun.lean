import Mathlib.Data.List.TakeWhile
import EntityScaffold.Proofs.Generation.StoreAfter

/-!
# Running again

A steady run that ends at a write that fails leaves some of its files behind, and the next run finds
them as conflicts. It still comes to the same files as a run on the store as it was
(`RunRequest.rerun_recovers`).
-/

namespace EntityScaffold

variable {σ : Type}

namespace MemoryStore

variable {k : MemoryStore} {d : Decision}

/-- The same files in a store that fails for other names. -/
def failingOn (k : MemoryStore) (names : List String) : MemoryStore := { k with failing := names }

/-- The same texts under the same identities. -/
def SameFiles (k k' : MemoryStore) : Prop := ∀ id, k.text? id = k'.text? id

@[simp] theorem text?_failingOn (k : MemoryStore) (names : List String) (id : Identity) :
    (k.failingOn names).text? id = k.text? id := rfl

/-- The fewer names a store fails for, the fewer identities fail. -/
theorem fails_failingOn_of_subset {F G : List String} (h : G ⊆ F) {id : Identity}
    (hfails : (k.failingOn G).fails id = true) : (k.failingOn F).fails id = true := by
  simp only [fails, failingOn, Bool.or_eq_true] at hfails ⊢
  refine hfails.imp (fun hmem => ?_) (fun hmem => ?_)
  · exact decide_eq_true (h (of_decide_eq_true hmem))
  · exact decide_eq_true (h (of_decide_eq_true hmem))

/-- So a plan gets at least as far. -/
theorem reached_prefix_of_subset {F G : List String} (h : G ⊆ F) (d : Decision)
    (artifacts : List Artifact) :
    (k.failingOn F).reached d artifacts <+: (k.failingOn G).reached d artifacts := by
  have hstops : ∀ a, (k.failingOn G).stops d a = true → (k.failingOn F).stops d a = true := by
    intro a ha
    rw [stops, Bool.and_eq_true] at ha ⊢
    exact ⟨fails_failingOn_of_subset h ha.1, ha.2⟩
  induction artifacts with
  | nil => exact List.prefix_refl _
  | cons a rest ih =>
    cases hF : (k.failingOn F).stops d a with
    | true =>
      rw [reached_cons_of_stops hF]
      exact List.nil_prefix
    | false =>
      have hG : (k.failingOn G).stops d a = false := by
        cases hG : (k.failingOn G).stops d a with
        | false => rfl
        | true => exact absurd (hstops a hG) (by simp [hF])
      rw [reached_cons hF, reached_cons hG]
      exact List.cons_prefix_cons.2 ⟨rfl, ih⟩

/-- **What a plan leaves behind does not end it where it would have gone on before, or let it go on
where it would have ended.** An artifact whose write fails now failed before too, so that its file
is there only if it was there all along. -/
theorem reached_of_settled {F G : List String} (h : G ⊆ F) {k' : MemoryStore}
    {artifacts : List Artifact}
    (hk' : ∀ id, k'.text? id =
      settledText d id ((k.failingOn F).reached d artifacts) (k.text? id)) :
    (k'.failingOn G).reached d artifacts = (k.failingOn G).reached d artifacts := by
  have hsame : ∀ a, (k'.failingOn G).stops d a = (k.failingOn G).stops d a := by
    intro a
    rw [stops, stops, text?_failingOn, text?_failingOn]
    cases hG : (k.failingOn G).fails a.identity with
    | false =>
      have hG' : (k'.failingOn G).fails a.identity = false := hG
      rw [hG']
      rfl
    | true =>
      have hG' : (k'.failingOn G).fails a.identity = true := hG
      have hnone : (k'.text? a.identity).isSome = (k.text? a.identity).isSome := by
        rw [Bool.eq_iff_iff, hk', isSome_settledText, or_iff_left_of_imp]
        rintro ⟨b, hb, hid⟩
        -- an artifact that was reached though its write failed was there before
        have hreached := List.mem_takeWhile_imp hb
        simp only [stops, hid, fails_failingOn_of_subset h hG, text?_failingOn] at hreached
        cases ht : k.text? a.identity with
        | none => simp [ht] at hreached
        | some text => rfl
      rw [hG', ← Option.not_isSome, ← Option.not_isSome, hnone]
  simp only [reached, hsame]

end MemoryStore

namespace RunRequest

open MemoryStore

variable {r : RunRequest σ}

/-- After a steady run on a store that fails for some names, a run that fails for no others comes to
the files of a run on the store as it was. -/
theorem IsSteady.sameFiles_rerun (h : r.IsSteady) {F G : List String} (hFG : G ⊆ F)
    (k : MemoryStore) (s t u : σ) :
    SameFiles (r.run ((r.run (k.failingOn F, s)).2.1.failingOn G, t)).2.1
      (r.run (k.failingOn G, u)).2.1 := by
  obtain ⟨d, hword, hd⟩ := h.exists_holds
  obtain ⟨artifacts, -, hrun⟩ := h.text?_run hd hword
  intro id
  have hfirst := hrun (k.failingOn F, s)
  rw [hrun, hrun, text?_failingOn, hfirst]
  dsimp only
  rw [reached_of_settled hFG hfirst, text?_failingOn]
  exact settledText_settledText hword (reached_prefix_of_subset hFG d artifacts) _

/-- **Reruns recover.** A steady run on a store that fails for some names, and then a run on what it
leaves that fails for some of these only, come to the same files as one run that fails for the
latter. So a run that is repeated changes nothing, and after any run one that does not fail comes to
the files of a clean one. -/
theorem rerun_recovers (h : r.IsSteady) (k : MemoryStore) (s t u : σ) :
    (∀ F G : List String, G ⊆ F →
      SameFiles (r.run ((r.run (k.failingOn F, s)).2.1.failingOn G, t)).2.1
        (r.run (k.failingOn G, u)).2.1) ∧
    SameFiles (r.run ((r.run (k, s)).2.1, t)).2.1 (r.run (k, s)).2.1 ∧
    SameFiles (r.run ((r.run (k, s)).2.1.failingOn [], t)).2.1 (r.run (k.failingOn [], u)).2.1 := by
  refine ⟨fun F G hFG => h.sameFiles_rerun hFG k s t u, ?_, ?_⟩
  · have hrepeat := h.sameFiles_rerun (List.Subset.refl k.failing) k s t s
    have hfailing : (r.run (k, s)).2.1.failingOn k.failing = (r.run (k, s)).2.1 := by
      rw [failingOn, ← r.failing_run (k, s)]
    rwa [show k.failingOn k.failing = k from rfl, hfailing] at hrepeat
  · exact h.sameFiles_rerun (List.nil_subset k.failing) k s t u

/-- A user whose transfer object and repository have one identity, and for whom everything is
written over. -/
def sharedLayers : RunRequest Unit :=
  let r := ofLayers (.constant (.once .write)) []
  { r with settings := { r.settings with
      layer := fun k =>
        ⟨k ∈ [.dto, .repository, .service], if k = .service then "Service" else "Api", "api"⟩ } }

/-- The run on a store that cannot write the service fails, and is made good later. -/
theorem recovered_sharedLayers :
    let k : MemoryStore := { files := [(⟨"shop.api", "UserApi"⟩, "a")] }
    (sharedLayers.run (k.failingOn ["UserService"], ())).1 =
        .ok { status := .failed
              written :=
                [⟨.dto, ⟨"shop.api", "UserApi"⟩⟩, ⟨.repository, ⟨"shop.api", "UserApi"⟩⟩]
              failure :=
                some ⟨.service, ⟨⟨"shop.api", "UserService"⟩, "simulated write failure"⟩⟩ } ∧
      SameFiles
        (sharedLayers.run
          ((sharedLayers.run (k.failingOn ["UserService"], ())).2.1.failingOn [], ())).2.1
        (sharedLayers.run (k.failingOn [], ())).2.1 := by
  refine ⟨by decide +kernel, ?_⟩
  have hsteady : sharedLayers.IsSteady :=
    ⟨Partner.isSteady_passive _, Or.inr ⟨.once .write, by decide, fun _ _ => rfl⟩⟩
  exact (rerun_recovers hsteady _ () () ()).1 ["UserService"] [] (List.nil_subset _)

end RunRequest

end EntityScaffold
