import Mathlib.Tactic.Common
import EntityScaffold.Java.Token
import EntityScaffold.Text.Category

/-!
# Identifiers

Names that Java code can declare. The characters of an identifier need be no word characters: the
currency signs, for one, are not. But no separator of lines, words, paths or packages is among
them.
-/

namespace EntityScaffold

namespace Text

/-- The text starts and goes on as an identifier does. -/
def isIdentifier : List Char → Bool
  | [] => false
  | c :: rest => isIdentifierStart c && rest.all isIdentifierPart

variable {s : List Char}

/-- The characters of a list are checked one by one. There are finitely many characters, and without
this a statement about some of them is decided by a check of them all. -/
theorem forall_mem_of_all {P : Char → Prop} [DecidablePred P]
    (h : (s.all fun c => decide (P c)) = true) : ∀ c ∈ s, P c := fun c hc =>
  of_decide_eq_true (List.all_eq_true.1 h c hc)

theorem ne_nil_of_isIdentifier (h : isIdentifier s = true) : s ≠ [] := by
  rintro rfl
  cases h

theorem isIdentifierPart_of_mem (h : isIdentifier s = true) {c : Char} (hc : c ∈ s) :
    isIdentifierPart c = true := by
  cases s with
  | nil => cases hc
  | cons d rest =>
    obtain ⟨hstart, hrest⟩ := Bool.and_eq_true_iff.1 h
    rcases List.mem_cons.1 hc with rfl | hc
    · exact isIdentifierPart_of_start hstart
    · exact List.all_eq_true.1 hrest c hc

/-- A character that is no part of identifiers is in none. -/
theorem notMem_of_isIdentifier (h : isIdentifier s = true) {c : Char}
    (hc : isIdentifierPart c = false) : c ∉ s := fun hm => by
  rw [isIdentifierPart_of_mem h hm] at hc
  cases hc

/-- An identifier goes on with parts of identifiers. -/
theorem isIdentifier_append {s t : List Char} (hs : isIdentifier s = true)
    (ht : ∀ c ∈ t, isIdentifierPart c = true) : isIdentifier (s ++ t) = true := by
  cases s with
  | nil => cases hs
  | cons c s =>
    obtain ⟨hstart, hrest⟩ := Bool.and_eq_true_iff.1 hs
    rw [List.cons_append, isIdentifier, hstart, Bool.true_and, List.all_append, hrest,
      Bool.true_and]
    exact List.all_eq_true.2 ht

/-! ### Numbered names -/

theorem isDigit_of_mem_toString {n : Nat} {c : Char} (h : c ∈ (toString n).toList) :
    c.isDigit = true := by
  have hdigits : c ∈ Nat.toDigits 10 n := by simpa using h
  exact Nat.isDigit_of_mem_toDigits (by decide) (by decide) hdigits

theorem category_of_isDigit {c : Char} (h : c.isDigit = true) : Category.of c = .digit := by
  have hmem : c.toNat ∈ List.range' 48 10 := by
    simp only [Char.isDigit, Bool.and_eq_true, decide_eq_true_eq, ge_iff_le] at h
    obtain ⟨hlow, hhigh⟩ := h
    have hlow : 48 ≤ c.toNat := hlow
    have hhigh : c.toNat ≤ 57 := hhigh
    exact List.mem_range'_1.2 (by omega)
  have hall : ∀ n ∈ List.range' 48 10, Category.of (Char.ofNat n) = .digit := by decide +kernel
  have hc := hall c.toNat hmem
  rwa [Char.ofNat_toNat] at hc

theorem isIdentifierPart_of_isDigit {c : Char} (h : c.isDigit = true) :
    isIdentifierPart c = true := by
  rw [isIdentifierPart, category_of_isDigit h]

/-- An identifier with a number behind it is an identifier. -/
theorem isIdentifier_numbered {name : String} (h : isIdentifier name.toList = true) (n : Nat) :
    isIdentifier (name ++ toString n).toList = true := by
  rw [String.toList_append]
  exact isIdentifier_append h fun c hc => isIdentifierPart_of_isDigit (isDigit_of_mem_toString hc)

/-! ### Dotted names -/

/-- A text of identifiers and dots. -/
structure IsDottedName (s : List Char) : Prop where
  ne_nil : s ≠ []
  part_or_dot : ∀ c ∈ s, isIdentifierPart c = true ∨ c = '.'

theorem isDottedName_of_isIdentifier (h : isIdentifier s = true) : IsDottedName s :=
  ⟨ne_nil_of_isIdentifier h, fun _ hc => Or.inl (isIdentifierPart_of_mem h hc)⟩

namespace IsDottedName

theorem append_dot {s t : List Char} (hs : IsDottedName s) (ht : IsDottedName t) :
    IsDottedName (s ++ '.' :: t) := by
  refine ⟨by simp, fun c hc => ?_⟩
  rcases List.mem_append.1 hc with hc | hc
  · exact hs.part_or_dot c hc
  · rcases List.mem_cons.1 hc with rfl | hc
    · exact Or.inr rfl
    · exact ht.part_or_dot c hc

/-- Any other character is in no dotted name. -/
theorem notMem (h : IsDottedName s) {c : Char} (hc : isIdentifierPart c = false)
    (hdot : c ≠ '.') : c ∉ s := by
  intro hmem
  rcases h.part_or_dot c hmem with hpart | heq
  · rw [hc] at hpart
    cases hpart
  · exact hdot heq

end IsDottedName

/-- A kind of names that has with two names the one that a dot makes of them. -/
def ClosedUnderDot (D : String → Prop) : Prop := ∀ ⦃a b⦄, D a → D b → D (a ++ "." ++ b)

theorem closedUnderDot_isDottedName : ClosedUnderDot fun name => IsDottedName name.toList :=
  fun a b ha hb => by simpa using ha.append_dot hb

/-- Names with dots between them. -/
theorem ClosedUnderDot.intercalate {D : String → Prop} (hD : ClosedUnderDot D) {path : List String}
    (hne : path ≠ []) (hpath : ∀ name ∈ path, D name) : D (".".intercalate path) := by
  induction path with
  | nil => exact absurd rfl hne
  | cons first rest ih =>
    obtain ⟨hfirst, hrest⟩ := List.forall_mem_cons.1 hpath
    cases rest with
    | nil => simpa using hfirst
    | cons second rest =>
      rw [String.intercalate_cons_cons]
      exact hD hfirst (ih (List.cons_ne_nil _ _) hrest)

/-- A blank is none of the characters that are told apart by their categories. -/
theorem category_of_isBlank {c : Char} (h : isBlank c = true) : Category.of c = .other := by
  have hmem : c.toNat ∈ List.range' 0x09 5 ++ List.range' 0x1c 5 ++ [0x85, 0xa0, 0x1680] ++
      List.range' 0x2000 11 ++ [0x2028, 0x2029, 0x202f, 0x205f, 0x3000] := by
    simp only [isBlank, Bool.or_eq_true, Bool.and_eq_true, decide_eq_true_eq, beq_iff_eq] at h
    simp only [List.mem_append, List.mem_range'_1, List.mem_cons, List.not_mem_nil, or_false]
    omega
  have hall : ∀ n ∈ List.range' 0x09 5 ++ List.range' 0x1c 5 ++ [0x85, 0xa0, 0x1680] ++
      List.range' 0x2000 11 ++ [0x2028, 0x2029, 0x202f, 0x205f, 0x3000],
      Category.of (Char.ofNat n) = .other := by
    decide +kernel
  have hc := hall c.toNat hmem
  rwa [Char.ofNat_toNat] at hc

/-- A blank is no part of a name. -/
theorem isIdentifierPart_of_isBlank {c : Char} (h : isBlank c = true) :
    isIdentifierPart c = false := by
  rw [isIdentifierPart, category_of_isBlank h]

/-- A blank is outside all words. -/
theorem isWord_of_isBlank {c : Char} (h : isBlank c = true) : isWord c = false := by
  have hline : c ≠ '_' := by
    rintro rfl
    revert h
    decide
  rw [isWord, category_of_isBlank h]
  simpa [Category.isAlphanumeric] using hline

theorem IsDottedName.isBlank_eq_false (h : IsDottedName s) {c : Char} (hc : c ∈ s) :
    isBlank c = false := by
  cases hblank : isBlank c with
  | false => rfl
  | true =>
    have hdot : c ≠ '.' := by
      rintro rfl
      revert hblank
      decide
    exact absurd hc (h.notMem (isIdentifierPart_of_isBlank hblank) hdot)

end Text

namespace Java

/-- An identifier that is no reserved word. -/
structure IsIdentifier (name : String) : Prop where
  isIdentifier : Text.isIdentifier name.toList = true
  notMem_keywords : name ∉ Token.keywords

instance (name : String) : Decidable (IsIdentifier name) :=
  decidable_of_iff (Text.isIdentifier name.toList = true ∧ name ∉ Token.keywords)
    ⟨fun h => ⟨h.1, h.2⟩, fun h => ⟨h.1, h.2⟩⟩

/-- An identifier that is neither a reserved word nor a value, as the names in a text are. -/
structure IsName (name : String) : Prop extends IsIdentifier name where
  notMem_wordLiterals : name ∉ Token.wordLiterals

instance (name : String) : Decidable (IsName name) :=
  decidable_of_iff (IsIdentifier name ∧ name ∉ Token.wordLiterals)
    ⟨fun h => ⟨h.1, h.2⟩, fun h => ⟨h.1, h.2⟩⟩

theorem IsName.ofWord {name : String} (h : IsName name) :
    Token.ofWord name = .identifier name := by
  rw [Token.ofWord, if_neg h.notMem_keywords, if_neg h.notMem_wordLiterals]

end Java

end EntityScaffold
