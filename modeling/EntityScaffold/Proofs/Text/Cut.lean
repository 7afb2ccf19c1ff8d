import Mathlib.Tactic.Common
import EntityScaffold.Text.Cut

/-!
# Cuts and what was put together

Parts that are put together with a separator none of them holds are got back by splitting
(`splitOn_join`), so they are determined by the text. A part of a text lies on one side of every
character that it lacks (`infix_append_cons_iff`).
-/

namespace EntityScaffold.Text

variable {parts : List String}

/-! ### Separators -/

theorem toList_join (sep : String) (parts : List String) :
    (join sep parts).toList = sep.toList.intercalate (parts.map String.toList) := by
  induction parts with
  | nil => simp [join]
  | cons s parts ih =>
    cases parts with
    | nil => simp [join]
    | cons s₂ parts =>
      rw [join, String.toList_append, String.toList_append, ih]
      · simp [List.intercalate_cons_cons]
      · exact fun h => by cases h

/-- A character of parts that are put together is one of a part, or of the separator. -/
theorem mem_join {sep : String} {c : Char} (h : c ∈ (join sep parts).toList) :
    c ∈ sep.toList ∨ ∃ s ∈ parts, c ∈ s.toList := by
  induction parts with
  | nil => exact absurd h (by simp [join])
  | cons s parts ih =>
    cases parts with
    | nil => exact Or.inr ⟨s, List.mem_cons_self, h⟩
    | cons s₂ parts =>
      rw [join, String.toList_append, String.toList_append, List.mem_append, List.mem_append] at h
      · rcases h with (h | h) | h
        · exact Or.inr ⟨s, List.mem_cons_self, h⟩
        · exact Or.inl h
        · exact (ih h).imp_right fun ⟨s', hs', hc⟩ => ⟨s', List.mem_cons_of_mem _ hs', hc⟩
      · exact List.cons_ne_nil _ _

/-- One more part comes after a separator. -/
theorem join_concat (sep : String) (hne : parts ≠ []) (s : String) :
    join sep (parts ++ [s]) = join sep parts ++ sep ++ s := by
  induction parts with
  | nil => exact absurd rfl hne
  | cons s₁ parts ih =>
    cases parts with
    | nil => rfl
    | cons s₂ parts =>
      have hrest := ih (List.cons_ne_nil s₂ parts)
      simp only [List.cons_append, join] at hrest ⊢
      rw [hrest]
      simp only [String.append_assoc]

/-- Parts are got back from a text at the separator that none of them holds. -/
theorem splitOn_join (sep : String) {c : Char} (hsep : sep.toList = [c]) (hne : parts ≠ [])
    (h : ∀ s ∈ parts, c ∉ s.toList) :
    (join sep parts).toList.splitOn c = parts.map String.toList := by
  rw [toList_join, hsep]
  refine List.splitOn_intercalate c ?_ (by simpa using hne)
  intro l hl
  obtain ⟨s, hs, rfl⟩ := List.mem_map.1 hl
  exact h s hs

/-- **Parts are determined by the text they make**, if none of them holds the separator. -/
theorem eq_of_join_eq {sep : String} {c : Char} (hsep : sep.toList = [c]) {parts' : List String}
    (hne : parts ≠ []) (hne' : parts' ≠ []) (h : ∀ s ∈ parts, c ∉ s.toList)
    (h' : ∀ s ∈ parts', c ∉ s.toList) (he : join sep parts = join sep parts') :
    parts = parts' := by
  have hmap : parts.map String.toList = parts'.map String.toList := by
    rw [← splitOn_join sep hsep hne h, ← splitOn_join sep hsep hne' h', he]
  exact (List.map_inj_right fun _ _ => String.toList_inj.1).1 hmap

/-- Another separator takes the place of the first one, if no part holds that one. -/
theorem map_join (sep sep' : String) {c c' : Char} (hsep : sep.toList = [c])
    (hsep' : sep'.toList = [c']) (h : ∀ s ∈ parts, c ∉ s.toList) :
    (join sep parts).toList.map (fun d => if d = c then c' else d) = (join sep' parts).toList := by
  have hpart : ∀ s : String, c ∉ s.toList →
      s.toList.map (fun d => if d = c then c' else d) = s.toList := by
    intro s hs
    refine (List.map_congr_left fun d hd => ?_).trans (List.map_id' s.toList)
    have hne : d ≠ c := fun he => hs (he ▸ hd)
    exact if_neg hne
  induction parts with
  | nil => simp [join]
  | cons s parts ih =>
    have hs := hpart s (h s List.mem_cons_self)
    have hrest := ih fun s hs => h s (List.mem_cons_of_mem _ hs)
    cases parts with
    | nil => exact hs
    | cons s₂ parts => simp [join, hs, hrest, hsep, hsep']

/-- The text of parts is empty only without parts. -/
theorem join_eq_empty_iff {sep : String} (h : ∀ s ∈ parts, s ≠ "") :
    join sep parts = "" ↔ parts = [] := by
  constructor
  · intro he
    cases parts with
    | nil => rfl
    | cons s parts =>
      have hs := h s List.mem_cons_self
      cases parts <;> simp_all [join]
  · rintro rfl
    rfl

/-- The first cut is at a separator that no earlier part holds. -/
theorem cutFirst_append_cons {sep : Char} {a : List Char} (h : sep ∉ a) (b : List Char) :
    cutFirst sep (a ++ sep :: b) = some (a, b) := by
  induction a with
  | nil => simp [cutFirst]
  | cons c a ih =>
    rw [List.mem_cons, not_or] at h
    simp [cutFirst, Ne.symm h.1, ih h.2]

/-- The last cut is at a separator that no later part holds. -/
theorem cutLast_append_cons {sep : Char} {b : List Char} (h : sep ∉ b) (a : List Char) :
    cutLast sep (a ++ sep :: b) = some (a, b) := by
  induction a with
  | nil => simp [cutLast, cutLast_eq_none_iff.2 h]
  | cons c a ih => simp [cutLast, ih]

/-- A text has one last part. -/
theorem eq_of_append_cons_eq {sep : Char} {a a' b b' : List Char} (hb : sep ∉ b) (hb' : sep ∉ b')
    (h : a ++ sep :: b = a' ++ sep :: b') : a = a' ∧ b = b' := by
  have hcut := congrArg (cutLast sep) h
  rw [cutLast_append_cons hb, cutLast_append_cons hb'] at hcut
  exact Prod.mk.inj (Option.some.inj hcut)

/-- The rest is what follows the first part. -/
theorem dropStart?_append (start rest : List Char) :
    dropStart? start (start ++ rest) = some rest := by
  have hprefix : start.isPrefixOf (start ++ rest) = true :=
    List.isPrefixOf_iff_prefix.2 (List.prefix_append start rest)
  rw [dropStart?, if_pos hprefix, List.drop_left]

theorem eq_append_of_dropStart? {start s rest : List Char} (h : dropStart? start s = some rest) :
    s = start ++ rest := by
  unfold dropStart? at h
  split at h
  · obtain ⟨rest', rfl⟩ := List.isPrefixOf_iff_prefix.1 ‹_›
    rw [List.drop_left] at h
    rw [Option.some.inj h]
  · cases h

/-! ### Parts of a text -/

/-- A part does not reach over a character that is not in it. -/
theorem prefix_append_cons_iff {w x y : List Char} {c : Char} (hn : c ∉ w) :
    w <+: x ++ c :: y ↔ w <+: x := by
  refine ⟨fun h => ?_, fun h => h.trans (List.prefix_append _ _)⟩
  rcases List.prefix_or_prefix_of_prefix h (List.prefix_append x (c :: y)) with hw | ⟨z, rfl⟩
  · exact hw
  · cases z with
    | nil => simp
    | cons d z =>
      rw [List.prefix_append_right_inj, List.cons_prefix_cons] at h
      exact absurd (by simp [h.1]) hn

theorem infix_append_cons_iff {w x y : List Char} {c : Char} (hn : c ∉ w) :
    w <:+: x ++ c :: y ↔ w <:+: x ∨ w <:+: y := by
  induction x with
  | nil =>
    rw [List.nil_append, List.infix_cons_iff, ← List.nil_append (c :: y),
      prefix_append_cons_iff hn, List.prefix_nil, List.infix_nil]
  | cons d x ih =>
    rw [List.cons_append, List.infix_cons_iff, List.infix_cons_iff, ih, ← List.cons_append,
      prefix_append_cons_iff hn, or_assoc]

/-- A text occurs in another one if it is one of its parts. -/
theorem occursIn_iff_infix {part s : List Char} : occursIn part s = true ↔ part <:+: s := by
  induction s with
  | nil => rw [occursIn, List.isEmpty_iff, List.infix_nil]
  | cons c rest ih =>
    rw [occursIn, Bool.or_eq_true, ih, List.isPrefixOf_iff_prefix, List.infix_cons_iff]

theorem contains_iff_infix {s part : String} :
    contains s part = true ↔ part.toList <:+: s.toList := occursIn_iff_infix

/-- Each part stands in the text that the parts make. -/
theorem infix_join_of_mem (sep : String) {s : String} (h : s ∈ parts) :
    s.toList <:+: (join sep parts).toList := by
  induction parts with
  | nil => cases h
  | cons s₁ parts ih =>
    cases parts with
    | nil => exact List.mem_singleton.1 h ▸ List.infix_rfl
    | cons s₂ parts =>
      rw [join, String.toList_append, String.toList_append]
      · rcases List.mem_cons.1 h with rfl | h
        · exact ((List.prefix_append _ _).trans (List.prefix_append _ _)).isInfix
        · exact (ih h).trans (List.suffix_append _ _).isInfix
      · exact List.cons_ne_nil _ _

end EntityScaffold.Text
