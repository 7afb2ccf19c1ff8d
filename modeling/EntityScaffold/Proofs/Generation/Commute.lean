import Mathlib.Data.List.Lattice
import EntityScaffold.Proofs.Generation.Rerun

/-!
# Runs for different classes

A steady run reads and writes only the files of its own artifacts. So two runs whose artifacts share
no identity come to the same files in either order, and neither notices whether the other has gone
before it (`RunRequest.run_comm`).
-/

namespace EntityScaffold

variable {σ : Type}

namespace MemoryStore

/-- How far a plan gets depends on which writes fail, and on the files of its own artifacts. -/
theorem reached_congr {k k' : MemoryStore} {d : Decision} {artifacts : List Artifact}
    (hfailing : k.failing = k'.failing)
    (h : ∀ a ∈ artifacts, k.text? a.identity = k'.text? a.identity) :
    k.reached d artifacts = k'.reached d artifacts := by
  induction artifacts with
  | nil => rfl
  | cons a rest ih =>
    obtain ⟨ha, hrest⟩ := List.forall_mem_cons.1 h
    have hstops : k.stops d a = k'.stops d a := by
      rw [stops, stops, fails, fails, hfailing, ha]
    cases hs : k.stops d a with
    | true => rw [reached_cons_of_stops hs, reached_cons_of_stops (hstops ▸ hs)]
    | false => rw [reached_cons hs, reached_cons (hstops ▸ hs), ih hrest]

end MemoryStore

namespace RunRequest

open MemoryStore

variable {r r₁ r₂ : RunRequest σ} {x y : MemoryStore × σ}

/-- A steady run leaves the files under all other identities as they are. -/
theorem IsSteady.text?_run_of_notMem (h : r.IsSteady) {id : Identity} (hid : id ∉ r.identities)
    (x : MemoryStore × σ) : (r.run x).2.1.text? id = x.1.text? id := by
  obtain ⟨d, hword, hd⟩ := h.exists_holds
  obtain ⟨artifacts, hsub, hrun⟩ := h.text?_run hd hword
  rw [hrun]
  refine settledText_of_forall_ne (fun a ha he => hid ?_) _
  have hmem := hsub (List.takeWhile_subset _ ha)
  exact he ▸ List.mem_map_of_mem hmem

/-- What a steady run makes of a file depends on which writes fail, on that file, and on the files
of its own artifacts. -/
theorem IsSteady.text?_run_of_agree (h : r.IsSteady) (hfailing : x.1.failing = y.1.failing)
    (hown : ∀ id ∈ r.identities, x.1.text? id = y.1.text? id) {id : Identity}
    (hid : x.1.text? id = y.1.text? id) : (r.run x).2.1.text? id = (r.run y).2.1.text? id := by
  obtain ⟨d, hword, hd⟩ := h.exists_holds
  obtain ⟨artifacts, hsub, hrun⟩ := h.text?_run hd hword
  have hreached : x.1.reached d artifacts = y.1.reached d artifacts :=
    reached_congr hfailing fun a ha => hown _ (List.mem_map_of_mem (hsub ha))
  rw [hrun, hrun, hreached, hid]

/-- What a steady run comes to is the same after a run for other identities. -/
theorem IsSteady.run_eq_of_disjoint (h₁ : r₁.IsSteady) (h₂ : r₂.IsSteady)
    (hdisjoint : r₁.identities.Disjoint r₂.identities) (x : MemoryStore × σ) :
    (r₁.run (r₂.run x).2).1 = (r₁.run x).1 := by
  refine h₁.run_eq_of_agree (r₂.failing_run x) fun id hid => ?_
  rw [← isSome_text?_iff, ← isSome_text?_iff, h₂.text?_run_of_notMem (hdisjoint hid)]

/-- And so are its own files. -/
theorem IsSteady.text?_run_of_disjoint (h₁ : r₁.IsSteady) (h₂ : r₂.IsSteady)
    (hdisjoint : r₁.identities.Disjoint r₂.identities) (x : MemoryStore × σ) {id : Identity}
    (hid : id ∉ r₂.identities) :
    (r₁.run (r₂.run x).2).2.1.text? id = (r₁.run x).2.1.text? id := by
  refine h₁.text?_run_of_agree (r₂.failing_run x) (fun own hown => ?_) ?_
  · exact h₂.text?_run_of_notMem (hdisjoint hown) x
  · exact h₂.text?_run_of_notMem hid x

/-- **Runs whose artifacts share no identity commute.** Steady runs one after the other come to the
same files in either order, and each of them ends as it would have ended first. -/
theorem run_comm (h₁ : r₁.IsSteady) (h₂ : r₂.IsSteady)
    (hdisjoint : r₁.identities.Disjoint r₂.identities) (x : MemoryStore × σ) :
    SameFiles (r₂.run (r₁.run x).2).2.1 (r₁.run (r₂.run x).2).2.1 ∧
      (r₁.run x).1 = (r₁.run (r₂.run x).2).1 ∧ (r₂.run (r₁.run x).2).1 = (r₂.run x).1 := by
  refine ⟨fun id => ?_, (h₁.run_eq_of_disjoint h₂ hdisjoint x).symm,
    h₂.run_eq_of_disjoint h₁ hdisjoint.symm x⟩
  by_cases hid : id ∈ r₁.identities
  · rw [h₂.text?_run_of_notMem (hdisjoint hid),
      h₁.text?_run_of_disjoint h₂ hdisjoint x (hdisjoint hid)]
  · rw [h₁.text?_run_of_notMem hid, h₂.text?_run_of_disjoint h₁ hdisjoint.symm x hid]

/-- Two layers of a user, for whom conflicts are skipped. -/
def userLayers : RunRequest Unit := ofLayers (.constant (.once .skip)) [.dto, .repository]

/-- Two layers of an order, for which conflicts are written over. -/
def orderLayers : RunRequest Unit :=
  let r := ofLayers (.constant (.always .write)) [.dto, .repository]
  { r with cls := { r.cls with name := "Order" } }

/-- A store that has a file of each of them, and cannot write another one. -/
def userOrderStore : MemoryStore where
  files := [(⟨"shop.api", "UserDTO"⟩, "a"), (⟨"shop.api", "OrderDTO"⟩, "b")]
  failing := ["OrderRepository"]

theorem disjoint_userOrder : userLayers.identities.Disjoint orderLayers.identities := by
  have huser : userLayers.identities =
      [⟨"shop.api", "UserDTO"⟩, ⟨"shop.api", "UserRepository"⟩] := by
    decide +kernel
  have horder : orderLayers.identities =
      [⟨"shop.api", "OrderDTO"⟩, ⟨"shop.api", "OrderRepository"⟩] := by
    decide +kernel
  have hnone : ∀ id ∈ userLayers.identities, id ∉ orderLayers.identities := by
    rw [huser, horder]
    decide
  exact fun id hid => hnone id hid

theorem run_comm_userOrder :
    SameFiles (orderLayers.run (userLayers.run (userOrderStore, ())).2).2.1
        (userLayers.run (orderLayers.run (userOrderStore, ())).2).2.1 ∧
      (userLayers.run (userOrderStore, ())).1 =
        (userLayers.run (orderLayers.run (userOrderStore, ())).2).1 ∧
      (orderLayers.run (userLayers.run (userOrderStore, ())).2).1 =
        (orderLayers.run (userOrderStore, ())).1 := by
  have huser : userLayers.IsSteady :=
    ⟨Partner.isSteady_passive _, Or.inr ⟨.once .skip, by decide, fun _ _ => rfl⟩⟩
  have horder : orderLayers.IsSteady :=
    ⟨Partner.isSteady_passive _, Or.inr ⟨.always .write, by decide, fun _ _ => rfl⟩⟩
  exact run_comm huser horder disjoint_userOrder _

end RunRequest

end EntityScaffold
