import EntityScaffold.Proofs.Text.Cut
import EntityScaffold.Text.Trim
import EntityScaffold.Text.WholeWord

/-!
# Texts with words replaced

A character that is no word character and not part of the word cuts a text into two that are
replaced each by itself (`replaceWord_append_cons`). A text in which the word stands nowhere as a
whole one stays as it is (`replaceWord_eq_self`), and the word alone is replaced exactly if it
starts and ends with word characters (`replaceWord_self`).
-/

namespace EntityScaffold.Text

variable {first : Char} {others new : List Char}

@[simp] theorem wordAt_none : wordAt none = false := rfl

@[simp] theorem wordAt_some (c : Char) : wordAt (some c) = isWord c := rfl

/-! ### Neighbours -/

/-- A neighbour counts only as a word character or none. -/
theorem startsWithWord_congr {b b' : Option Char} (h : wordAt b = wordAt b') (s : List Char) :
    startsWithWord (first :: others) b s = startsWithWord (first :: others) b' s := by
  simp [startsWithWord, isBoundary, h, List.getLast?_cons]

theorem replaceWordAfter_congr {b b' : Option Char} (h : wordAt b = wordAt b') (s : List Char) :
    replaceWordAfter first others new b s = replaceWordAfter first others new b' s := by
  cases s with
  | nil => rw [replaceWordAfter, replaceWordAfter]
  | cons c rest => rw [replaceWordAfter, replaceWordAfter, startsWithWord_congr h]

theorem prefix_of_startsWithWord {word s : List Char} {b : Option Char}
    (h : startsWithWord word b s = true) : word <+: s := by
  obtain ⟨h, -⟩ := Bool.and_eq_true_iff.1 h
  exact List.isPrefixOf_iff_prefix.1 (Bool.and_eq_true_iff.1 h).2

/-! ### Cuts -/

theorem startsWithWord_append_cons {c : Char} (hc : isWord c = false) (hn : c ∉ first :: others)
    (b : Option Char) (x y : List Char) :
    startsWithWord (first :: others) b (x ++ c :: y) = startsWithWord (first :: others) b x := by
  by_cases hp : first :: others <+: x
  · obtain ⟨r, rfl⟩ := hp
    have hend : wordAt (r ++ c :: y).head? = wordAt r.head? := by cases r <;> simp [hc]
    have hpre : ∀ z, (first :: others).isPrefixOf (first :: others ++ z) = true :=
      fun z => List.isPrefixOf_iff_prefix.2 (List.prefix_append _ z)
    simp only [startsWithWord, isBoundary, List.append_assoc, List.drop_left, hend, hpre]
    simp only [List.cons_append, List.head?_cons]
  · have hp' : ¬ first :: others <+: x ++ c :: y := fun h => hp ((prefix_append_cons_iff hn).1 h)
    simp only [← List.isPrefixOf_iff_prefix, Bool.not_eq_true] at hp hp'
    simp only [startsWithWord, hp, hp', Bool.and_false, Bool.false_and]

/-- Replacing goes on afresh after a character outside all words. -/
theorem replaceWordAfter_append_cons {c : Char} (hc : isWord c = false)
    (hn : c ∉ first :: others) (b : Option Char) (x y : List Char) :
    replaceWordAfter first others new b (x ++ c :: y) =
      replaceWordAfter first others new b x ++ c :: replaceWordAfter first others new none y := by
  fun_induction replaceWordAfter first others new b x with
  | case1 b =>
    have hs : startsWithWord (first :: others) b (c :: y) = false :=
      (startsWithWord_append_cons hc hn b [] y).trans (by simp [startsWithWord])
    rw [List.nil_append, List.nil_append, replaceWordAfter, if_neg (by simp [hs])]
    have hcut : wordAt (some c) = wordAt none := by simp [hc]
    rw [replaceWordAfter_congr hcut]
  | case2 b d rest hs ih =>
    have hle : others.length ≤ rest.length := by
      simpa using (prefix_of_startsWithWord hs).length_le
    rw [List.cons_append, replaceWordAfter, if_pos, List.drop_append_of_le_length hle, ih]
    · simp
    · rw [← List.cons_append, startsWithWord_append_cons hc hn, hs]
  | case3 b d rest hs ih =>
    rw [List.cons_append, replaceWordAfter, if_neg, ih]
    · simp
    · rw [← List.cons_append, startsWithWord_append_cons hc hn]
      exact hs

/-! ### Whole words of a text -/

/-- A word stands somewhere in a text, with a word boundary at both its ends. -/
def IsWordOf (word text : List Char) : Prop :=
  ∃ x y, text = x ++ word ++ y ∧ isBoundary x.getLast? (word ++ y).head? = true ∧
    isBoundary (x ++ word).getLast? y.head? = true

/-- Where a search finds a word it stands as a whole one. -/
theorem isWordOf_of_startsWithWord {word x s : List Char}
    (h : startsWithWord word x.getLast? s = true) : IsWordOf word (x ++ s) := by
  obtain ⟨y, rfl⟩ := prefix_of_startsWithWord h
  obtain ⟨h, hend⟩ := Bool.and_eq_true_iff.1 h
  refine ⟨x, y, (List.append_assoc _ _ _).symm, (Bool.and_eq_true_iff.1 h).1, ?_⟩
  rwa [List.drop_left, ← List.getLast?_append] at hend

/-- A word is looked for at every place of a text. -/
theorem isWordOf_iff {word text : List Char} :
    IsWordOf word text ↔ ∃ i < text.length + 1,
      startsWithWord word (text.take i).getLast? (text.drop i) = true := by
  constructor
  · rintro ⟨x, y, rfl, hstart, hend⟩
    refine ⟨x.length, by simp only [List.length_append]; omega, ?_⟩
    rw [List.append_assoc, List.take_left, List.drop_left, startsWithWord, List.drop_left,
      ← List.getLast?_append, hstart, hend]
    simp
  · rintro ⟨i, -, h⟩
    simpa using isWordOf_of_startsWithWord h

instance (word text : List Char) : Decidable (IsWordOf word text) :=
  decidable_of_iff _ isWordOf_iff.symm

theorem replaceWordAfter_eq_self {x s : List Char} (h : ¬ IsWordOf (first :: others) (x ++ s)) :
    replaceWordAfter first others new x.getLast? s = s := by
  induction s generalizing x with
  | nil => rw [replaceWordAfter]
  | cons c rest ih =>
    have hs : ¬ startsWithWord (first :: others) x.getLast? (c :: rest) = true :=
      fun hs => h (isWordOf_of_startsWithWord hs)
    have hrest := ih (x := x ++ [c]) (by simpa using h)
    rw [List.getLast?_concat] at hrest
    rw [replaceWordAfter, if_neg hs, hrest]

/-- The only whole word of a word is the word itself. -/
theorem IsWordOf.eq_of_all {word s : List Char} (h : IsWordOf word s) (hw : word ≠ [])
    (hs : s.all isWord = true) : word = s := by
  obtain ⟨x, y, rfl, hstart, hend⟩ := h
  rw [List.all_eq_true] at hs
  obtain ⟨c, others, rfl⟩ := List.exists_cons_of_ne_nil hw
  have hx : x = [] := by
    rcases List.eq_nil_or_concat x with rfl | ⟨x, d, rfl⟩
    · rfl
    · simp [isBoundary, hs c (by simp), hs d (by simp)] at hstart
  have hy : y = [] := by
    cases y with
    | nil => rfl
    | cons d y =>
      obtain ⟨init, e, he⟩ := List.eq_nil_or_concat (c :: others) |>.resolve_left hw
      simp [he, isBoundary, hs d (by simp), hs e (by rw [he]; simp)] at hend
  rw [hx, hy, List.nil_append, List.append_nil]

/-- A text keeps the whole words of its parts. -/
theorem IsWordOf.append_cons_left {word x : List Char} (h : IsWordOf word x) {c : Char}
    (hc : isWord c = false) (y : List Char) : IsWordOf word (x ++ c :: y) := by
  obtain ⟨u, v, rfl, hstart, hend⟩ := h
  have hhead : ∀ z, wordAt (z ++ c :: y).head? = wordAt z.head? := by
    intro z
    cases z <;> simp [hc]
  refine ⟨u, v ++ c :: y, by simp, ?_, ?_⟩
  · rwa [isBoundary, ← List.append_assoc, hhead]
  · rwa [isBoundary, hhead]

theorem IsWordOf.append_cons_right {word y : List Char} (h : IsWordOf word y) {c : Char}
    (hc : isWord c = false) (x : List Char) : IsWordOf word (x ++ c :: y) := by
  obtain ⟨u, v, rfl, hstart, hend⟩ := h
  have hlast : ∀ z, wordAt (x ++ c :: z).getLast? = wordAt z.getLast? := by
    intro z
    cases hz : z.getLast? <;> simp [List.getLast?_append, List.getLast?_cons, hz, hc]
  refine ⟨x ++ c :: u, v, by simp, ?_, ?_⟩
  · rwa [isBoundary, hlast]
  · rwa [isBoundary, List.append_assoc, List.cons_append, hlast]

/-- **A whole word lies on one side of every character outside all words.** -/
theorem IsWordOf.of_append_cons {word x y : List Char} {c : Char} (h : IsWordOf word (x ++ c :: y))
    (hw : word ≠ []) (hn : c ∉ word) (hc : isWord c = false) :
    IsWordOf word x ∨ IsWordOf word y := by
  obtain ⟨first, others, rfl⟩ := List.exists_cons_of_ne_nil hw
  obtain ⟨i, -, hi⟩ := isWordOf_iff.1 h
  by_cases hle : i ≤ x.length
  · left
    rw [List.drop_append_of_le_length hle, List.take_append_of_le_length hle,
      startsWithWord_append_cons hc hn] at hi
    rw [← List.take_append_drop i x]
    exact isWordOf_of_startsWithWord hi
  · right
    obtain ⟨j, rfl⟩ : ∃ j, i = x.length + (j + 1) := ⟨i - x.length - 1, by omega⟩
    have hlast : wordAt (x ++ c :: y.take j).getLast? = wordAt (y.take j).getLast? := by
      cases hy : (y.take j).getLast? <;> simp [List.getLast?_append, List.getLast?_cons, hy, hc]
    rw [List.drop_length_add_append, List.take_length_add_append, List.drop_succ_cons,
      List.take_succ_cons, startsWithWord_congr hlast] at hi
    rw [← List.take_append_drop j y]
    exact isWordOf_of_startsWithWord hi

/-- Characters outside all words that are taken off the ends of a text take no word away. -/
theorem IsWordOf.of_trim {word s : List Char} {p : Char → Bool} (h : IsWordOf word (trim p s))
    (hp : ∀ c, p c = true → isWord c = false) : IsWordOf word s := by
  have hstart {t : List Char} (ht : IsWordOf word (t.dropWhile p)) : IsWordOf word t := by
    induction t with
    | nil => exact ht
    | cons c t ih =>
      rw [List.dropWhile_cons] at ht
      split at ht
      · exact (ih ht).append_cons_right (hp c ‹_›) []
      · exact ht
  have hend {t : List Char} (ht : IsWordOf word (t.dropWhile p).reverse) :
      IsWordOf word t.reverse := by
    induction t with
    | nil => exact ht
    | cons c t ih =>
      rw [List.dropWhile_cons] at ht
      split at ht
      · rw [List.reverse_cons]
        exact (ih ht).append_cons_left (hp c ‹_›) []
      · exact ht
  have hstarted := hend h
  rw [List.reverse_reverse] at hstarted
  exact hstart hstarted

/-- The empty word is at the first character of a word, if there is any. -/
theorem isWordOf_nil {s : List Char} {c : Char} (h : c ∈ s) (hc : isWord c = true) :
    IsWordOf [] s := by
  induction s with
  | nil => cases h
  | cons d rest ih =>
    cases hd : isWord d with
    | true => exact ⟨[], d :: rest, rfl, by simp [isBoundary, hd], by simp [isBoundary, hd]⟩
    | false =>
      rcases List.mem_cons.1 h with rfl | h
      · rw [hc] at hd
        cases hd
      · exact (ih h).append_cons_right hd []

/-! ### The word by itself -/

/-- The word starts and ends with word characters. -/
def IsDelimited (word : List Char) : Prop :=
  wordAt word.head? = true ∧ wordAt word.getLast? = true

instance (word : List Char) : Decidable (IsDelimited word) :=
  inferInstanceAs (Decidable (_ ∧ _))

theorem isDelimited_of_all {word : List Char} (h : word ≠ []) (hw : word.all isWord = true) :
    IsDelimited word := by
  rw [List.all_eq_true] at hw
  rw [IsDelimited, List.head?_eq_some_head h, List.getLast?_eq_some_getLast h]
  exact ⟨hw _ (List.head_mem h), hw _ (List.getLast_mem h)⟩

theorem startsWithWord_self :
    startsWithWord (first :: others) none (first :: others) = true ↔
      IsDelimited (first :: others) := by
  cases h : (first :: others).getLast? <;>
    simp [startsWithWord, isBoundary, IsDelimited, h]

/-- No word is found in a text that is shorter than it. -/
theorem replaceWordAfter_eq_self_of_length {s : List Char} (h : s.length < others.length + 1)
    (b : Option Char) : replaceWordAfter first others new b s = s := by
  induction s generalizing b with
  | nil => rw [replaceWordAfter]
  | cons c rest ih =>
    have hp : ¬ first :: others <+: c :: rest := fun hp => by
      have := hp.length_le
      simp only [List.length_cons] at this h
      omega
    rw [replaceWordAfter, if_neg, ih (by simp only [List.length_cons] at h; omega)]
    rw [← List.isPrefixOf_iff_prefix] at hp
    simp [startsWithWord, hp]

theorem replaceWordAfter_self :
    replaceWordAfter first others new none (first :: others) =
      if IsDelimited (first :: others) then new else first :: others := by
  rw [replaceWordAfter]
  by_cases h : IsDelimited (first :: others)
  · rw [if_pos (startsWithWord_self.2 h), if_pos h]
    simp [replaceWordAfter]
  · rw [if_neg (mt startsWithWord_self.1 h), if_neg h,
      replaceWordAfter_eq_self_of_length (Nat.lt_succ_self _)]

/-! ### Any word -/

section

variable {word : List Char} (hw : word ≠ [])
include hw

/-- **A character outside all words cuts a text into two that are replaced each by itself.** -/
theorem replaceWord_append_cons {c : Char} (hc : isWord c = false) (hn : c ∉ word)
    (x y : List Char) :
    replaceWord word new (x ++ c :: y) = replaceWord word new x ++ c :: replaceWord word new y := by
  obtain ⟨first, others, rfl⟩ := List.exists_cons_of_ne_nil hw
  exact replaceWordAfter_append_cons hc hn none x y

theorem replaceWord_eq_self {s : List Char} (h : ¬ IsWordOf word s) :
    replaceWord word new s = s := by
  obtain ⟨first, others, rfl⟩ := List.exists_cons_of_ne_nil hw
  exact replaceWordAfter_eq_self (x := []) h

/-- Another word stays. -/
theorem replaceWord_of_ne {s : List Char} (hs : s.all isWord = true) (hne : word ≠ s) :
    replaceWord word new s = s :=
  replaceWord_eq_self hw fun h => hne (h.eq_of_all hw hs)

/-- **A word by itself is replaced exactly if it starts and ends with word characters.** -/
theorem replaceWord_self :
    replaceWord word new word = if IsDelimited word then new else word := by
  obtain ⟨first, others, rfl⟩ := List.exists_cons_of_ne_nil hw
  exact replaceWordAfter_self

end

/-! ### Names of word characters -/

/-- A name of word characters, as identifiers are. -/
def IsWordName (s : String) : Prop := s ≠ "" ∧ s.toList.all isWord = true

instance (s : String) : Decidable (IsWordName s) := inferInstanceAs (Decidable (_ ∧ _))

namespace IsWordName

variable {s : String}

theorem toList_ne_nil (h : IsWordName s) : s.toList ≠ [] := by simpa using h.1

/-- A character outside all words is in no such name. -/
theorem notMem (h : IsWordName s) {c : Char} (hc : isWord c = false) : c ∉ s.toList := by
  intro hmem
  rw [List.all_eq_true.1 h.2 c hmem] at hc
  cases hc

/-- A name that stands in none of several texts stands nowhere in them with a character between that
belongs to no word. -/
theorem not_isWordOf_join (h : IsWordName s) {sep : String} {c : Char} (hsep : sep.toList = [c])
    (hc : isWord c = false) {parts : List String}
    (hparts : ∀ t ∈ parts, ¬ IsWordOf s.toList t.toList) :
    ¬ IsWordOf s.toList (join sep parts).toList := by
  induction parts with
  | nil => exact fun hword => h.toList_ne_nil (hword.eq_of_all h.toList_ne_nil rfl)
  | cons t parts ih =>
    obtain ⟨hself, hrest⟩ := List.forall_mem_cons.1 hparts
    cases parts with
    | nil => exact hself
    | cons t₂ parts =>
      have hjoin : (join sep (t :: t₂ :: parts)).toList =
          t.toList ++ c :: (join sep (t₂ :: parts)).toList := by
        simp [join, hsep]
      rw [hjoin]
      intro hword
      exact (hword.of_append_cons h.toList_ne_nil (h.notMem hc) hc).elim hself (ih hrest)

/-- Such a name is no template but stands for itself. -/
theorem rename_eq (h : IsWordName s) (text old : String) :
    rename text old s = .ok (String.ofList (replaceWord old.toList s.toList text.toList)) := by
  rw [rename, Template.expand_eq_self (h.notMem (by decide))]
  rfl

end IsWordName

end EntityScaffold.Text
