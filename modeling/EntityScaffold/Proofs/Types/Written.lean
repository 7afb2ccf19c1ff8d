import Mathlib.Data.List.Basic
import Mathlib.Data.List.TakeWhile
import Mathlib.Tactic.Common
import EntityScaffold.Proofs.Text.Cut
import EntityScaffold.Proofs.Text.Identifier
import EntityScaffold.Proofs.Text.Trim
import EntityScaffold.Types.Written

/-!
# Putting a written type together

`WrittenType.text` puts the parts of a type together again. Cutting its text gives the parts back
(`ofText_text`), if the head is a dotted name and the arguments are texts of their own: brackets
match, no comma stands outside them, and no blank stands at either end. The text of such a type can
then be an argument itself.

The cut counts brackets, so the argument goes by an induction on matched brackets: at every depth a
text with matched brackets is passed over as a whole (`Balanced.pieces_append`), and only a comma at
depth zero ends a piece.
-/

namespace EntityScaffold

open Text

/-! ### Texts without blanks at their ends -/

/-- A text with something at both ends that is no blank. -/
structure Text.IsTight (s : List Char) : Prop where
  ne_nil : s ≠ []
  head : ∀ c ∈ s.head?, isBlank c = false
  last : ∀ c ∈ s.getLast?, isBlank c = false

namespace Text.IsTight

variable {s t : List Char}

theorem isTrimmed (h : IsTight s) : IsTrimmed isBlank s := ⟨h.head, h.last⟩

theorem of_isTrimmed (hne : s ≠ []) (h : IsTrimmed isBlank s) : IsTight s := ⟨hne, h.head, h.last⟩

theorem of_all (hne : s ≠ []) (h : s.all (fun c => !isBlank c) = true) : IsTight s :=
  .of_isTrimmed hne (.of_forall (by simpa using h))

theorem trim_eq_self (h : IsTight s) : trim isBlank s = s := h.isTrimmed.trim_eq_self

/-- Something in front that starts with no blank, and something behind that ends with none. -/
theorem append (hs : IsTight s) (ht : IsTight t) (middle : List Char) :
    IsTight (s ++ middle ++ t) :=
  .of_isTrimmed (by simp [hs.ne_nil])
    (hs.isTrimmed.append ht.isTrimmed hs.ne_nil ht.ne_nil middle)

/-- Blanks in front of a text are taken off. -/
theorem trim_cons_blank (h : IsTight s) {c : Char} (hc : isBlank c = true) :
    trim isBlank (c :: s) = s := by
  rw [trim, trimStart, List.dropWhile_cons, if_pos hc]
  exact h.trim_eq_self

end Text.IsTight

theorem Text.IsDottedName.isTight {s : List Char} (h : IsDottedName s) : IsTight s :=
  .of_isTrimmed h.ne_nil (.of_forall fun _ => h.isBlank_eq_false)

namespace WrittenType

/-! ### Matched brackets -/

/-- A text whose angle brackets match. The first argument says whether commas may stand outside
them. -/
inductive Balanced : Bool → List Char → Prop
  | nil {commas : Bool} : Balanced commas []
  | plain {commas : Bool} {c : Char} {s : List Char} :
      c ≠ '<' → c ≠ '>' → (c = ',' → commas = true) → Balanced commas s → Balanced commas (c :: s)
  | angled {commas : Bool} {inner s : List Char} :
      Balanced true inner → Balanced commas s → Balanced commas ('<' :: inner ++ '>' :: s)

namespace Balanced

variable {commas : Bool} {s t : List Char}

theorem append (hs : Balanced commas s) (ht : Balanced commas t) : Balanced commas (s ++ t) := by
  induction hs with
  | nil => exact ht
  | plain hopen hclose hcomma _ ih => exact .plain hopen hclose hcomma (ih ht)
  | angled hinner _ _ ih =>
    rw [List.append_assoc]
    exact .angled hinner (ih ht)

/-- Where commas may stand, they need not. -/
theorem allow (h : Balanced commas s) : Balanced true s := by
  induction h with
  | nil => exact .nil
  | plain hopen hclose _ _ ih => exact .plain hopen hclose (fun _ => rfl) ih
  | angled hinner _ _ ih => exact .angled hinner ih

theorem of_notMem (hopen : '<' ∉ s) (hclose : '>' ∉ s) (hcomma : ',' ∉ s) : Balanced commas s := by
  induction s with
  | nil => exact .nil
  | cons c s ih =>
    simp only [List.mem_cons, not_or] at hopen hclose hcomma
    exact .plain (Ne.symm hopen.1) (Ne.symm hclose.1) (fun h => absurd h.symm hcomma.1)
      (ih hopen.2 hclose.2 hcomma.2)

/-- **A text with matched brackets is passed over**: a comma in it ends a piece nowhere. -/
theorem pieces_append (h : Balanced commas s) {depth : Int} (hdepth : 0 ≤ depth)
    (hcommas : commas = true → 0 < depth) (current rest : List Char) :
    pieces depth current (s ++ rest) = pieces depth (s.reverse ++ current) rest := by
  -- above depth zero a comma ends no piece, and at depth zero there is none outside the brackets
  induction h generalizing depth current rest with
  | nil => rfl
  | @plain commas c s hopen hclose hcomma _ ih =>
    have hcut : ¬(c = ',' ∧ depth = 0) := fun ⟨hc, hzero⟩ => by
      have := hcommas (hcomma hc)
      omega
    rw [List.cons_append, pieces, if_neg hopen, if_neg hclose, if_neg hcut, ih hdepth hcommas]
    simp
  | @angled commas inner s _ _ ihinner ih =>
    rw [List.append_assoc, List.cons_append, List.cons_append, pieces, if_pos rfl,
      ihinner (by omega) (fun _ => by omega), pieces, if_neg (by decide), if_pos rfl,
      show depth + 1 - 1 = depth by omega, ih hdepth hcommas]
    simp

/-- Outside all brackets, a text without commas there belongs to one piece. -/
theorem pieces_append_outside (h : Balanced false s) (current rest : List Char) :
    pieces 0 current (s ++ rest) = pieces 0 (s.reverse ++ current) rest :=
  h.pieces_append (Int.le_refl 0) (fun hcommas => nomatch hcommas) current rest

end Balanced

/-- A type argument as a text: it is tight, and its brackets match, with the commas inside them. -/
structure IsArgument (a : List Char) : Prop where
  balanced : Balanced false a
  isTight : IsTight a

theorem balanced_of_isDottedName {name : List Char} (h : IsDottedName name) : Balanced false name :=
  .of_notMem (h.notMem (by decide) (by decide)) (h.notMem (by decide) (by decide))
    (h.notMem (by decide) (by decide))

/-! ### Arguments -/

/-- A wildcard with a word and a bound as it stands in code. -/
def wildcard (word bound : List Char) : List Char := '?' :: ' ' :: (word ++ ' ' :: bound)

theorem isTight_wildcard {word bound : List Char} (h : IsTight bound) :
    IsTight (wildcard word bound) := by
  have hmark : IsTight ['?'] := .of_all (by decide) (by decide)
  have := hmark.append h (' ' :: (word ++ [' ']))
  simpa [wildcard] using this

theorem isArgument_wildcard {word bound : List Char} (hword : IsDottedName word)
    (h : IsArgument bound) : IsArgument (wildcard word bound) where
  balanced :=
    .plain (by decide) (by decide) (by decide) (.plain (by decide) (by decide) (by decide)
      ((balanced_of_isDottedName hword).append
        (.plain (by decide) (by decide) (by decide) h.balanced)))
  isTight := isTight_wildcard h.isTight

/-- Texts with a comma and a blank between them, as the arguments of a type stand. -/
def separated (args : List (List Char)) : List Char := ", ".toList.intercalate args

theorem separated_cons_cons (a b : List Char) (args : List (List Char)) :
    separated (a :: b :: args) = a ++ ',' :: ' ' :: separated (b :: args) := by
  simp [separated, List.intercalate_cons_cons]

theorem balanced_separated {args : List (List Char)} (h : ∀ a ∈ args, Balanced false a) :
    Balanced true (separated args) := by
  induction args with
  | nil => exact .nil
  | cons a args ih =>
    have ha : Balanced true a := (h a List.mem_cons_self).allow
    cases args with
    | nil => simpa [separated] using ha
    | cons b args =>
      rw [separated_cons_cons]
      have hrest := ih fun b hb => h b (List.mem_cons_of_mem _ hb)
      exact ha.append (.plain (by decide) (by decide) (fun _ => rfl)
        (.plain (by decide) (by decide) (fun _ => rfl) hrest))

/-- The commas between arguments are where the pieces end. -/
theorem pieces_separated {a : List Char} {args : List (List Char)}
    (h : ∀ b ∈ a :: args, Balanced false b) (current : List Char) :
    pieces 0 current (separated (a :: args)) = (current.reverse ++ a) :: args.map (' ' :: ·) := by
  induction args generalizing a current with
  | nil =>
    have ha := (h a List.mem_cons_self).pieces_append_outside current []
    simpa [separated, pieces] using ha
  | cons b args ih =>
    have ha := (h a List.mem_cons_self).pieces_append_outside current
    have hargs : ∀ d ∈ b :: args, Balanced false d := fun d hd => h d (List.mem_cons_of_mem _ hd)
    have hblank (rest : List Char) : pieces 0 [] (' ' :: rest) = pieces 0 [' '] rest := rfl
    rw [separated_cons_cons, ha, pieces, if_neg (by decide), if_neg (by decide),
      if_pos ⟨rfl, rfl⟩, hblank, ih hargs [' ']]
    simp

theorem cutArguments_separated {args : List (List Char)} (hne : args ≠ [])
    (h : ∀ a ∈ args, IsArgument a) : cutArguments (separated args) = args := by
  have htrim : (pieces 0 [] (separated args)).map (trim isBlank) = args := by
    cases args with
    | nil => exact absurd rfl hne
    | cons a args =>
      rw [pieces_separated fun b hb => (h b hb).balanced, List.map_cons, List.map_map]
      congr 1
      · exact (h a List.mem_cons_self).isTight.trim_eq_self
      · refine (List.map_congr_left fun b hb => ?_).trans (List.map_id args)
        exact (h b (List.mem_cons_of_mem _ hb)).isTight.trim_cons_blank (by decide)
  have hlast : args.getLast? ≠ some [] := fun hnil =>
    (h [] (List.mem_of_getLast? hnil)).isTight.ne_nil rfl
  rw [cutArguments, htrim]
  exact if_neg hlast

/-! ### Dimensions -/

/-- A pair of brackets for each dimension. -/
def dimensions (rank : Nat) : List Char := (List.replicate rank ['[', ']']).flatten

theorem dimensions_succ (rank : Nat) : dimensions (rank + 1) = dimensions rank ++ ['[', ']'] := by
  simp [dimensions, List.replicate_succ']

theorem balanced_dimensions (rank : Nat) : Balanced false (dimensions rank) := by
  induction rank with
  | zero => exact .nil
  | succ rank ih =>
    rw [dimensions_succ]
    exact ih.append (.of_notMem (by decide) (by decide) (by decide))

/-- Dimensions put no blank at the end. -/
theorem isTight_append_dimensions {s : List Char} (h : IsTight s) (rank : Nat) :
    IsTight (s ++ dimensions rank) := by
  cases rank with
  | zero => simpa [dimensions] using h
  | succ rank =>
    rw [dimensions_succ, ← List.append_assoc]
    exact h.append (.of_all (by decide) (by decide)) (dimensions rank)

/-- All dimensions are taken off the end of a text that ends otherwise. -/
theorem peel_append_dimensions {s : List Char} (h : IsTight s) (hlast : s.getLast? ≠ some ']')
    (rank : Nat) : peel (s ++ dimensions rank).reverse = (s.reverse, rank) := by
  induction rank with
  | zero =>
    rw [dimensions, List.replicate_zero, List.flatten_nil, List.append_nil, peel]
    intro rest heq
    rw [← List.head?_reverse, heq] at hlast
    exact hlast rfl
  | succ rank ih =>
    have hblank : ∀ c ∈ (s ++ dimensions rank).reverse.head?, isBlank c = false := by
      rw [List.head?_reverse]
      exact (isTight_append_dimensions h rank).last
    rw [dimensions_succ, ← List.append_assoc, List.reverse_append]
    change peel (']' :: '[' :: (s ++ dimensions rank).reverse) = _
    rw [peel, dropWhile_eq_self hblank, ih]

theorem mem_dimensions {c : Char} {rank : Nat} (h : c ∈ dimensions rank) : c = '[' ∨ c = ']' := by
  obtain ⟨pair, hpair, hc⟩ := List.mem_flatten.1 h
  rw [List.eq_of_mem_replicate hpair] at hc
  exact List.mem_pair.1 hc

/-- Dimensions are trailing brackets. -/
theorem trimEnd_append_dimensions {s : List Char}
    (h : ∀ c ∈ s.getLast?, (c == '[' || c == ']') = false) (rank : Nat) :
    trimEnd (fun c => c == '[' || c == ']') (s ++ dimensions rank) = s := by
  have hall : ∀ c ∈ (dimensions rank).reverse, (c == '[' || c == ']') = true := by
    intro c hc
    rcases mem_dimensions (List.mem_reverse.1 hc) with rfl | rfl <;> decide
  rw [trimEnd, List.reverse_append, List.dropWhile_append_of_pos hall]
  exact trimEnd_eq_self h

/-! ### The whole type -/

/-- Head and arguments of a type as they stand in code. -/
def unranked (w : WrittenType) : List Char :=
  w.head ++ if w.arguments.isEmpty then [] else '<' :: separated w.arguments ++ ['>']

/-- A type as it stands in code. -/
def text (w : WrittenType) : List Char := w.unranked ++ dimensions w.rank

variable {w : WrittenType}

theorem unranked_of_nil (h : w.arguments = []) : w.unranked = w.head := by
  simp [unranked, h]

theorem unranked_of_ne_nil (h : w.arguments ≠ []) :
    w.unranked = w.head ++ '<' :: (separated w.arguments ++ ['>']) := by
  simp [unranked, h]

/-- The head is a name, and every argument can be told from what stands around it. -/
structure IsProper (w : WrittenType) : Prop where
  head : IsDottedName w.head
  arguments : ∀ a ∈ w.arguments, IsArgument a

namespace IsProper

theorem isTight_unranked (h : w.IsProper) : IsTight w.unranked := by
  by_cases hargs : w.arguments = []
  · rw [unranked_of_nil hargs]
    exact h.head.isTight
  · have hend : IsTight ['>'] := .of_all (by decide) (by decide)
    have := h.head.isTight.append hend ('<' :: separated w.arguments)
    rwa [List.append_assoc, List.cons_append, ← unranked_of_ne_nil hargs] at this

/-- Only dimensions put a bracket at the end. -/
theorem getLast?_unranked_ne (h : w.IsProper) : w.unranked.getLast? ≠ some ']' := by
  by_cases hargs : w.arguments = []
  · rw [unranked_of_nil hargs]
    exact fun hlast => h.head.notMem (by decide) (by decide) (List.mem_of_getLast? hlast)
  · rw [unranked_of_ne_nil hargs, ← List.cons_append, ← List.append_assoc, List.getLast?_concat]
    decide

theorem balanced_unranked (h : w.IsProper) : Balanced false w.unranked := by
  have hhead : Balanced false w.head := balanced_of_isDottedName h.head
  by_cases hargs : w.arguments = []
  · rwa [unranked_of_nil hargs]
  · rw [unranked_of_ne_nil hargs]
    have hinner := balanced_separated fun a ha => (h.arguments a ha).balanced
    exact hhead.append (.angled hinner .nil)

/-- A type that is put together from proper parts can be an argument of another one. -/
theorem isArgument_text (h : w.IsProper) : IsArgument w.text where
  balanced := h.balanced_unranked.append (balanced_dimensions w.rank)
  isTight := isTight_append_dimensions h.isTight_unranked w.rank

theorem ofUnranked_unranked (h : w.IsProper) : ofUnranked w.unranked w.rank = w := by
  have hopen : '<' ∉ w.head := h.head.notMem (by decide) (by decide)
  by_cases hargs : w.arguments = []
  · rw [unranked_of_nil hargs, ofUnranked, cutFirst_eq_none_iff.2 hopen, ← hargs]
  · have hcut := cutFirst_append_cons hopen (separated w.arguments ++ ['>'])
    rw [unranked_of_ne_nil hargs, ofUnranked, hcut]
    change (if (separated w.arguments ++ ['>']).getLast? = some '>' then _ else _) = w
    rw [if_pos List.getLast?_concat, List.dropLast_concat, h.head.isTight.trim_eq_self,
      cutArguments_separated hargs h.arguments]

/-- **The parts of a type are got back from its text.** -/
theorem ofText_text (h : w.IsProper) : ofText w.text = w := by
  have hpeel := peel_append_dimensions h.isTight_unranked h.getLast?_unranked_ne w.rank
  rw [ofText, h.isArgument_text.isTight.trim_eq_self, text, hpeel]
  change ofUnranked w.unranked.reverse.reverse w.rank = w
  rw [List.reverse_reverse, h.ofUnranked_unranked]

/-- Before the first angle bracket stands the head, with the dimensions if nothing is between. -/
theorem exists_takeWhile_text (h : w.IsProper) :
    ∃ rank, w.text.takeWhile (· != '<') = w.head ++ dimensions rank := by
  have hhead : ∀ c ∈ w.head, (c != '<') = true := fun c hc =>
    bne_iff_ne.2 fun he => h.head.notMem (by decide) (by decide) (he ▸ hc)
  by_cases hargs : w.arguments = []
  · have hdims : ∀ c ∈ dimensions w.rank, (c != '<') = true := by
      intro c hc
      rcases mem_dimensions hc with rfl | rfl <;> decide
    refine ⟨w.rank, ?_⟩
    rw [text, unranked_of_nil hargs, List.takeWhile_append_of_pos hhead,
      List.takeWhile_eq_self_iff.2 hdims]
  · refine ⟨0, ?_⟩
    rw [text, unranked_of_ne_nil hargs, List.append_assoc, List.takeWhile_append_of_pos hhead]
    rfl

end IsProper

end WrittenType

end EntityScaffold
