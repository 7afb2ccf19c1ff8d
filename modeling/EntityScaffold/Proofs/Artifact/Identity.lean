import EntityScaffold.Artifact.Identity
import EntityScaffold.Proofs.Text.Cut
import EntityScaffold.Proofs.Text.Trim

/-!
# Packages put together

A package is joined from segments: the parts without dots around them, as far as something is left
(`Package.segments`). What is joined from segments is a segment again, so parts may be joined in
groups (`Package.joinParts_append`). Behind one first part the second part can be read off the
package up to dots around it (`Package.joinParts_pair_inj`), so that only the suffix and the
sub-package tell artifacts of one entity apart (`Layer.identities_collide_iff`).
-/

namespace EntityScaffold

open Text

namespace Package

variable {b s s' : String} {parts xs ys : List String}

/-! ### Segments -/

/-- A part of a package that is not empty and has no dots around it. -/
structure IsSegment (s : String) : Prop where
  ne_empty : s ≠ ""
  trimmed : IsTrimmed (· == '.') s.toList

/-- What parts add to a package. -/
def segments (parts : List String) : List String := (parts.map trimDots).filter (· != "")

theorem joinParts_eq (parts : List String) : joinParts parts = join "." (segments parts) := rfl

theorem segments_append (xs ys : List String) :
    segments (xs ++ ys) = segments xs ++ segments ys := by
  simp [segments]

theorem isTrimmed_trimDots (s : String) : IsTrimmed (· == '.') (trimDots s).toList := by
  rw [trimDots, toList_stripOf]
  exact isTrimmed_trim _ _

theorem isSegment_of_mem_segments (h : s ∈ segments parts) : IsSegment s := by
  obtain ⟨hmem, hne⟩ := List.mem_filter.1 h
  obtain ⟨part, -, rfl⟩ := List.mem_map.1 hmem
  exact ⟨bne_iff_ne.1 hne, isTrimmed_trimDots part⟩

theorem IsSegment.trimDots_eq (h : IsSegment s) : trimDots s = s := h.trimmed.stripOf_eq_self

theorem IsSegment.segments_eq (h : IsSegment s) : segments [s] = [s] := by
  simp [segments, h.trimDots_eq, h.ne_empty]

theorem IsSegment.toList_ne_nil (h : IsSegment s) : s.toList ≠ [] := by
  simpa using h.ne_empty

/-- Segments with dots between them are a segment. -/
theorem IsSegment.append_dot (hs : IsSegment s) (hs' : IsSegment s') :
    IsSegment (s ++ "." ++ s') where
  ne_empty h := by simpa using congrArg String.toList h
  trimmed := by
    rw [String.toList_append, String.toList_append]
    exact hs.trimmed.append hs'.trimmed hs.toList_ne_nil hs'.toList_ne_nil _

theorem isSegment_join (h : ∀ s ∈ parts, IsSegment s) (hne : parts ≠ []) :
    IsSegment (join "." parts) := by
  induction parts with
  | nil => exact absurd rfl hne
  | cons s parts ih =>
    cases parts with
    | nil => exact h s List.mem_cons_self
    | cons s₂ parts =>
      have hrest := ih (fun s hs => h s (List.mem_cons_of_mem _ hs)) (List.cons_ne_nil s₂ parts)
      rw [join]
      · exact (h s List.mem_cons_self).append_dot hrest
      · exact List.cons_ne_nil s₂ parts

/-! ### Joining in groups -/

/-- A package from parts is a segment, or empty. -/
theorem joinParts_cases (parts : List String) :
    segments parts = [] ∧ joinParts parts = "" ∨ IsSegment (joinParts parts) := by
  rw [joinParts_eq]
  by_cases h : segments parts = []
  · rw [h]
    exact Or.inl ⟨rfl, rfl⟩
  · exact Or.inr (isSegment_join (fun s hs => isSegment_of_mem_segments hs) h)

theorem isTrimmed_joinParts (parts : List String) :
    IsTrimmed (· == '.') (joinParts parts).toList := by
  rcases joinParts_cases parts with ⟨-, h⟩ | h
  · rw [h]
    constructor <;> rintro c ⟨⟩
  · exact h.trimmed

theorem join_append (sep : String) (hxs : xs ≠ []) (hys : ys ≠ []) :
    join sep (xs ++ ys) = join sep xs ++ sep ++ join sep ys := by
  induction xs with
  | nil => exact absurd rfl hxs
  | cons x xs ih =>
    cases xs with
    | nil =>
      rw [List.cons_append, List.nil_append, join, join]
      exact hys
    | cons x₂ xs =>
      have hrest := ih (List.cons_ne_nil x₂ xs)
      simp only [List.cons_append, join] at hrest ⊢
      rw [hrest]
      simp only [String.append_assoc]

/-- **Parts may be joined in groups.** -/
theorem joinParts_append (xs ys : List String) :
    joinParts (xs ++ ys) = joinParts [joinParts xs, joinParts ys] := by
  have hpair : segments [joinParts xs, joinParts ys] =
      segments [joinParts xs] ++ segments [joinParts ys] :=
    segments_append [joinParts xs] [joinParts ys]
  have hempty : segments [""] = [] := rfl
  rw [joinParts_eq (xs ++ ys), joinParts_eq [joinParts xs, joinParts ys], hpair, segments_append]
  -- a group without segments adds nothing, and any other is one segment
  rcases joinParts_cases xs with ⟨hxs, hx⟩ | hx <;> rcases joinParts_cases ys with ⟨hys, hy⟩ | hy
  · rw [hxs, hys, hx, hy, hempty]
  · rw [hxs, hx, hempty, hy.segments_eq]
    rfl
  · rw [hys, hy, hempty, hx.segments_eq, List.append_nil]
    rfl
  · have hne {zs : List String} (hz : IsSegment (joinParts zs)) : segments zs ≠ [] := fun h =>
      hz.ne_empty (by rw [joinParts_eq, h]; rfl)
    rw [hx.segments_eq, hy.segments_eq, join_append "." (hne hx) (hne hy)]
    rfl

/-! ### Two parts -/

theorem joinParts_pair (b s : String) :
    joinParts [b, s] =
      if trimDots b = "" then trimDots s
      else if trimDots s = "" then trimDots b
      else trimDots b ++ "." ++ trimDots s := by
  split_ifs with hb hs
  · by_cases hs : trimDots s = "" <;> simp [joinParts, hb, hs, join]
  · simp [joinParts, hb, hs, join]
  · simp [joinParts, hb, hs, join]

/-- **A package tells its second part**, up to dots around it. -/
theorem joinParts_pair_inj : joinParts [b, s] = joinParts [b, s'] ↔ trimDots s = trimDots s' := by
  constructor
  · intro h
    rw [joinParts_pair, joinParts_pair] at h
    split_ifs at h with hb hs hs' hs'
    · exact h
    · rw [hs, hs']
    · -- behind the first part there is at least a dot
      have hlength := congrArg (List.length ∘ String.toList) h
      simp at hlength
    · have hlength := congrArg (List.length ∘ String.toList) h
      simp at hlength
    · have hchars := congrArg String.toList h
      simp only [String.toList_append] at hchars
      exact String.toList_inj.1 (List.append_cancel_left hchars)
  · intro h
    rw [joinParts_pair, joinParts_pair, h]

end Package

/-- The base package, or else that of the entity, is the first part. -/
theorem Settings.package_eq (p : Settings) (m : Entity) (subPackage : String) :
    p.package m subPackage = Package.joinParts
      [if strip p.basePackage = "" then m.package else strip p.basePackage, subPackage] := rfl

namespace Layer

/-- **When artifacts get one identity.** Two artifacts of an entity lie in one package under one
name exactly if their suffixes are the same and their sub-packages are, dots around them aside.
No package starts or ends with a dot, and parts of a package may be joined in groups. -/
theorem identities_collide_iff :
    (∀ (m : Entity) (p : Settings) (k l : Layer), k.identity m p = l.identity m p ↔
      (p.layer k).suffix = (p.layer l).suffix ∧
        Package.trimDots (p.layer k).subPackage = Package.trimDots (p.layer l).subPackage) ∧
    (∀ (m : Entity) (p : Settings) (subPackage : String),
      (p.package m subPackage).toList.head? ≠ some '.' ∧
        (p.package m subPackage).toList.getLast? ≠ some '.') ∧
    ∀ xs ys : List String, Package.joinParts (xs ++ ys) =
      Package.joinParts [Package.joinParts xs, Package.joinParts ys] := by
  refine ⟨fun m p k l => ?_, fun m p subPackage => ?_, Package.joinParts_append⟩
  · have hname : k.className m p = l.className m p ↔ (p.layer k).suffix = (p.layer l).suffix := by
      simp [className]
    have hpackage : k.package m p = l.package m p ↔
        Package.trimDots (p.layer k).subPackage = Package.trimDots (p.layer l).subPackage := by
      rw [package, package, p.package_eq, p.package_eq, Package.joinParts_pair_inj]
    rw [identity, identity, Identity.mk.injEq, hname, hpackage]
    exact and_comm
  · rw [p.package_eq]
    have htrimmed := Package.isTrimmed_joinParts
      [if strip p.basePackage = "" then m.package else strip p.basePackage, subPackage]
    exact ⟨fun h => absurd (htrimmed.head '.' h) (by decide),
      fun h => absurd (htrimmed.last '.' h) (by decide)⟩

end Layer

end EntityScaffold
