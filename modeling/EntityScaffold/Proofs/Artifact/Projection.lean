import Mathlib.Data.List.Induction
import Mathlib.Data.List.Nodup
import Mathlib.Tactic.Common
import EntityScaffold.Artifact.Projection

/-!
# Members of the flat views

Each name comes once in a flat view (`nodup_names_projection`, `nodup_names_queried`), and none is
lost (`map_firstBy_subset`). The type of a member is that of the field it comes from or a long
integer (`Entity.projection_type`).
-/

namespace EntityScaffold

section FirstBy

variable {α : Type} {key : α → String} {a : α} {as : List α}

theorem sublist_firstBy (key : α → String) (as : List α) : (firstBy key as).Sublist as := by
  induction as with
  | nil => exact .slnil
  | cons a as ih => exact (List.filter_sublist.trans ih).cons_cons a

theorem mem_of_mem_firstBy (h : a ∈ firstBy key as) : a ∈ as := (sublist_firstBy key as).mem h

/-- **The keys of first items are distinct.** -/
theorem nodup_map_firstBy (key : α → String) (as : List α) :
    ((firstBy key as).map key).Nodup := by
  induction as with
  | nil => exact List.nodup_nil
  | cons a as ih =>
    rw [firstBy, List.map_cons, List.nodup_cons]
    constructor
    · rintro hmem
      obtain ⟨b, hb, hkey⟩ := List.mem_map.1 hmem
      exact bne_iff_ne.1 (List.mem_filter.1 hb).2 hkey
    · exact ih.sublist (List.filter_sublist.map key)

theorem firstBy_concat (key : α → String) (as : List α) (a : α) :
    firstBy key (as ++ [a]) = firstBy key as ++ if key a ∈ as.map key then [] else [a] := by
  induction as with
  | nil => simp [firstBy]
  | cons b as ih =>
    rw [List.cons_append, firstBy, ih, firstBy, List.filter_append, List.cons_append]
    by_cases hfirst : key a = key b
    · split <;> simp [hfirst]
    · by_cases hmem : key a ∈ as.map key <;> simp [hfirst, hmem]

/-- Every key is kept. -/
theorem map_firstBy_subset (key : α → String) (as : List α) :
    as.map key ⊆ (firstBy key as).map key := by
  induction as using List.reverseRecOn with
  | nil => exact List.Subset.refl _
  | append_singleton as a ih =>
    rw [firstBy_concat, List.map_append, List.map_append]
    refine List.append_subset.2 ⟨List.subset_append_of_subset_left _ ih, ?_⟩
    by_cases hkey : key a ∈ as.map key
    · exact List.subset_append_of_subset_left _ (by simpa using ih hkey)
    · rw [if_neg hkey]
      exact List.subset_append_right _ _

end FirstBy

namespace Entity

variable {m : Entity}

theorem nodup_names_projection (m : Entity) : (m.projection.map (·.name)).Nodup :=
  nodup_map_firstBy _ _

theorem nodup_names_queried (m : Entity) : (m.queried.map (·.name)).Nodup :=
  nodup_map_firstBy _ _

theorem mem_fields_of_mem_queried {f : Attribute} (h : f ∈ m.queried) : f ∈ m.fields :=
  (List.mem_filter.1 (mem_of_mem_firstBy h)).1

theorem mem_fields_of_mem_projection {f : FlatAttribute} (h : f ∈ m.projection) :
    ∃ g ∈ m.fields, g.projection? = some f :=
  List.mem_filterMap.1 (mem_of_mem_firstBy h)

/-- **The type of a member is the type of a field, or a long integer.** -/
theorem projection_type {f : FlatAttribute} (h : f ∈ m.projection) :
    f.type = .boxedLong ∨ ∃ g ∈ m.fields, f.type = g.type := by
  obtain ⟨g, hg, hf⟩ := mem_fields_of_mem_projection h
  unfold Attribute.projection? at hf
  split_ifs at hf with _ hreference
  · exact Or.inl (by rw [← Option.some.inj hf])
  · exact Or.inr ⟨g, hg, by rw [← Option.some.inj hf]⟩

/-- The identifier has the type of a field, as a class, or is a long integer. -/
theorem identifierType_cases (m : Entity) :
    m.identifierType = .boxedLong ∨ ∃ f ∈ m.fields, m.identifierType = f.type.boxed := by
  unfold identifierType
  cases h : m.identifier? with
  | none => exact Or.inl rfl
  | some f => exact Or.inr ⟨f, List.mem_of_find?_eq_some h, rfl⟩

end Entity

end EntityScaffold
