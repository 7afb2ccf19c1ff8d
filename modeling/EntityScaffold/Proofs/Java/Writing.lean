import EntityScaffold.Proofs.Java.Reading
import EntityScaffold.Proofs.Text.CaseName

/-!
# Writing tokens

Tokens are written one after the other, with a blank between two of them or none, as Java code is
usually laid out (`Token.tight`). Where none is written the reader still tells the two apart, so
what is written is read back as the same tokens (`Token.lexes_write`). Lines of a file are pieces of
that kind, with blanks in front and line ends between them.
-/

namespace EntityScaffold.Java

open Text

/-! ### Texts and their tokens -/

namespace Lexer

/-- **What a text is read as**, step by step. -/
inductive Lexes : List Char → List Token → Prop
  | nil : Lexes [] []
  | step {c : Char} {rest r : List Char} {found : Option Token} {ts : List Token} :
      step c rest = .ok (found, r) → r.length ≤ rest.length → Lexes r ts →
      Lexes (c :: rest) (found.toList ++ ts)

variable {s r : List Char} {ts us : List Token} {c : Char}

theorem Lexes.scan_eq (h : Lexes s ts) {n : Nat} (hn : s.length ≤ n) : scan n s = .ok ts := by
  induction h generalizing n with
  | nil => cases n <;> rfl
  | @step c rest r found ts hstep hle _ ih =>
    rw [List.length_cons] at hn
    obtain ⟨n, rfl⟩ := Nat.exists_eq_add_of_le' (Nat.le_of_add_left_le hn)
    have hmore : scan n r = .ok ts := ih (by omega)
    simp [scan, hstep, hmore, bind, Except.bind, pure, Except.pure]

theorem step_blank (hc : isBlank c = true) (rest : List Char) :
    step c rest = .ok (none, rest.dropWhile isBlank) := by
  rw [step, if_pos hc]

theorem Lexes.dropBlanks (h : Lexes s ts) : Lexes (s.dropWhile isBlank) ts := by
  cases h with
  | nil => exact .nil
  | @step c rest r found ts hstep hle hmore =>
    by_cases hc : isBlank c = true
    · rw [step_blank hc] at hstep
      obtain ⟨rfl, rfl⟩ := Prod.mk.inj (Except.ok.inj hstep)
      rwa [List.dropWhile_cons_of_pos hc]
    · rw [List.dropWhile_cons_of_neg hc]
      exact .step hstep hle hmore

/-- Blanks before a text do not matter. -/
theorem Lexes.blank (hc : isBlank c = true) (h : Lexes s ts) : Lexes (c :: s) ts :=
  .step (step_blank hc s) (length_dropWhile_le _ _) h.dropBlanks

theorem Lexes.blanks {before : List Char} (hblank : ∀ c ∈ before, isBlank c = true)
    (h : Lexes s ts) : Lexes (before ++ s) ts := by
  induction before with
  | nil => exact h
  | cons c before ih =>
    obtain ⟨hc, hblank⟩ := List.forall_mem_cons.1 hblank
    exact .blank hc (ih hblank)

end Lexer

/-! ### Escapes -/

namespace Escape

theorem characters_map_toNat (s : List Char) : characters (s.map Char.toNat) = s := by
  have halves (c : Char) : (isHigh c.toNat || isLow c.toNat) = false := by
    have hvalid := c.valid
    simp only [UInt32.isValidChar, Nat.isValidChar] at hvalid
    simp only [isHigh, isLow, Bool.or_eq_false_iff, Bool.and_eq_false_iff, decide_eq_false_iff_not]
    have hcode : c.toNat = c.val.toNat := rfl
    omega
  induction s with
  | nil => rfl
  | cons c s ih =>
    obtain ⟨hhigh, hlow⟩ := Bool.or_eq_false_iff.1 (halves c)
    cases s with
    | nil => simp [characters, hhigh, hlow]
    | cons d s =>
      simp only [List.map_cons] at ih
      simp [characters, hhigh, hlow, ih]

theorem units_plain {s : List Char} (h : '\\' ∉ s) (since : List Char) :
    units .plain since s = some ((since.reverse ++ s).map Char.toNat) := by
  induction s generalizing since with
  | nil => simp [units]
  | cons c s ih =>
    rw [List.mem_cons, not_or] at h
    simp [units, Ne.symm h.1, ih h.2]

/-- A text without backslashes has no escapes. -/
theorem unescape_eq_self {s : List Char} (h : '\\' ∉ s) : unescape s = some s := by
  rw [unescape, units_plain h]
  simp [characters_map_toNat]

end Escape

/-- A text without backslashes is read as what its characters are read as. -/
theorem Lexer.Lexes.tokens_eq {s : String} {ts : List Token} (h : Lexes s.toList ts)
    (hs : '\\' ∉ s.toList) : Lexer.tokens s = .ok ts := by
  rw [Lexer.tokens, Escape.unescape_eq_self hs]
  exact h.scan_eq (Nat.le_refl _)

/-! ### Single tokens -/

namespace Token

/-- The text of a token. -/
def text : Token → String
  | keyword s | identifier s | literal s | symbol s => s

@[simp] theorem text_keyword (s : String) : (keyword s).text = s := rfl
@[simp] theorem text_identifier (s : String) : (identifier s).text = s := rfl
@[simp] theorem text_literal (s : String) : (literal s).text = s := rfl
@[simp] theorem text_symbol (s : String) : (symbol s).text = s := rfl

/-- The token is a word. -/
def isWord : Token → Bool
  | keyword _ | identifier _ => true
  | _ => false

/-- Symbols that generated code uses. -/
def plainSymbols : List String :=
  ["(", ")", "\x7b", "\x7d", "[", "]", ";", ",", ".", "@", "<", ">", "=", "->", "::"]

/-- Symbols that stand directly behind what they end. -/
def closers : List String := [";", ",", ")", ".", "[", "]", "<", ">", "::"]

/-- Symbols that no character can make longer. -/
def fixedSymbols : List String :=
  ["(", ")", "\x7b", "\x7d", "[", "]", ";", ",", "@", "->", "::"]

/-- A quoted text as a literal. -/
def quoted (s : String) : Token := .literal ("\"" ++ s ++ "\"")

theorem mem_plainSymbols {s : String} (h : s ∈ plainSymbols) :
    s ∈ fixedSymbols ∨ s ∈ [".", "=", "<", ">"] := by
  have hall : ∀ s ∈ plainSymbols, s ∈ fixedSymbols ∨ s ∈ [".", "=", "<", ">"] := by decide
  exact hall s h

/-- A token that can be written. -/
inductive IsWritable : Token → Prop
  | keyword {s : String} : s ∈ keywords → IsWritable (.keyword s)
  | identifier {s : String} : IsName s → IsWritable (.identifier s)
  | value {s : String} : s ∈ wordLiterals → IsWritable (.literal s)
  | quoted {s : String} : (∀ c ∈ quoting, c ∉ s.toList) → IsWritable (quoted s)
  | symbol {s : String} : s ∈ plainSymbols → IsWritable (.symbol s)

/-- The token is read off the front of a text that goes on with the rest. -/
def Splits (t : Token) (rest : List Char) : Prop :=
  ∃ c tail, t.text.toList = c :: tail ∧ Lexer.step c (tail ++ rest) = .ok (some t, rest)

variable {t : Token} {s : String} {rest : List Char} {ts : List Token}

theorem Splits.lexes (h : t.Splits rest) (hrest : Lexer.Lexes rest ts) :
    Lexer.Lexes (t.text.toList ++ rest) (t :: ts) := by
  obtain ⟨c, tail, htext, hstep⟩ := h
  rw [htext]
  exact .step hstep (by simp) hrest

theorem ne_of_isIdentifierStart {c d : Char} (hc : isIdentifierStart c = true)
    (hd : isIdentifierStart d = false) : c ≠ d := by
  rintro rfl
  rw [hc] at hd
  cases hd

theorem isDigit_of_isIdentifierStart {c : Char} (hc : isIdentifierStart c = true) :
    c.isDigit = false := by
  cases hd : c.isDigit with
  | false => rfl
  | true =>
    rw [isIdentifierStart, category_of_isDigit hd] at hc
    cases hc

/-- No part of an identifier is a blank, a quote, or a symbol. -/
theorem step_of_isIdentifierStart {c : Char} (hc : isIdentifierStart c = true) (rest : List Char) :
    Lexer.step c rest =
      .ok (some (ofWord (.ofList (c :: rest.takeWhile isIdentifierPart))),
        rest.dropWhile isIdentifierPart) := by
  have hblank : isBlank c = false := by
    cases hb : isBlank c with
    | false => rfl
    | true =>
      rw [isIdentifierStart, category_of_isBlank hb] at hc
      cases hc
  have hother : ∀ d ∈ ['/', '.', '@', '\'', '"'] ++ separators, isIdentifierStart d = false :=
    forall_mem_of_all (by decide +kernel)
  have hne : ∀ d ∈ ['/', '.', '@', '\'', '"'] ++ separators, c ≠ d := fun d hd =>
    ne_of_isIdentifierStart hc (hother d hd)
  have hdigit := isDigit_of_isIdentifierStart hc
  have hslash : c ≠ '/' := hne _ (by decide)
  have hdot : c ≠ '.' := hne _ (by decide)
  have hat : c ≠ '@' := hne _ (by decide)
  have hsingle : c ≠ '\'' := hne _ (by decide)
  have hdouble : c ≠ '"' := hne _ (by decide)
  have hseparator : c ∉ separators := fun hmem => hne c (List.mem_append_right _ hmem) rfl
  simp [Lexer.step, hblank, Ne.symm hslash, Ne.symm hdot, hdot, hat, hseparator, hsingle, hdouble,
    hdigit, hc]

@[simp] theorem text_ofWord (s : String) : (ofWord s).text = s := by
  unfold ofWord
  split
  · rfl
  · split <;> rfl

/-- A word ends where no part of an identifier follows. -/
theorem splits_ofWord (hs : Text.isIdentifier s.toList = true)
    (hrest : ∀ c ∈ rest.head?, isIdentifierPart c = false) : (ofWord s).Splits rest := by
  cases hlist : s.toList with
  | nil =>
    rw [hlist] at hs
    cases hs
  | cons c tail =>
    rw [hlist] at hs
    obtain ⟨hstart, htail⟩ := Bool.and_eq_true_iff.1 hs
    have hpart : ∀ d ∈ tail, isIdentifierPart d = true := List.all_eq_true.1 htail
    have htake : (tail ++ rest).takeWhile isIdentifierPart = tail := by
      rw [List.takeWhile_append_of_pos hpart]
      cases rest with
      | nil => simp
      | cons d rest => simp [hrest d rfl]
    have hdrop : (tail ++ rest).dropWhile isIdentifierPart = rest := by
      rw [List.dropWhile_append_of_pos hpart]
      cases rest with
      | nil => rfl
      | cons d rest => simp [hrest d rfl]
    refine ⟨c, tail, by rw [text_ofWord, hlist], ?_⟩
    rw [step_of_isIdentifierStart hstart, htake, hdrop, ← hlist, String.ofList_toList]

theorem isIdentifier_of_mem_keywords (h : s ∈ keywords) : Text.isIdentifier s.toList = true := by
  have hall : ∀ s ∈ keywords, Text.isIdentifier s.toList = true := by decide +kernel
  exact hall s h

/-- A quoted text ends at its quote. -/
theorem quotedRest_append {cs : List Char} (h : ∀ c ∈ quoting, c ∉ cs) (rest : List Char) :
    Lexer.quotedRest '"' (cs ++ '"' :: rest) = .ok (cs ++ ['"'], rest) := by
  induction cs with
  | nil => simp [Lexer.quotedRest]
  | cons c cs ih =>
    have hquote : '"' ≠ c := fun heq => h '"' (by decide) (heq ▸ List.mem_cons_self)
    have hslash : '\\' ≠ c := fun heq => h '\\' (by decide) (heq ▸ List.mem_cons_self)
    have hcs : ∀ d ∈ quoting, d ∉ cs := fun d hd hmem => h d hd (List.mem_cons_of_mem _ hmem)
    simp [Lexer.quotedRest, Ne.symm hquote, Ne.symm hslash, ih hcs, Except.map]

theorem splits_quoted (h : ∀ c ∈ quoting, c ∉ s.toList) (rest : List Char) :
    (quoted s).Splits rest := by
  refine ⟨'"', s.toList ++ ['"'], by simp [quoted, text], ?_⟩
  have hquoted := quotedRest_append h rest
  have hblank : isBlank '"' = false := by decide
  have hsame : String.ofList ('"' :: (s.toList ++ ['"'])) = "\"" ++ s ++ "\"" :=
    String.toList_inj.1 (by simp)
  simp [Lexer.step, hblank, separators, hquoted, Except.map, Lexer.literal, quoted, hsame]

/-- Symbols that end at once, whatever follows. -/
theorem splits_symbol (hs : s ∈ fixedSymbols) (rest : List Char) :
    (symbol s).Splits rest := by
  simp only [fixedSymbols, List.mem_cons, List.not_mem_nil, or_false] at hs
  rcases hs with rfl | rfl | rfl | rfl | rfl | rfl | rfl | rfl | rfl | rfl | rfl <;>
    exact ⟨_, _, rfl, rfl⟩

/-- A dot before neither a dot nor a digit stands alone. -/
theorem splits_dot (hrest : ∀ c ∈ rest.head?, c ≠ '.' ∧ c.isDigit = false) : dot.Splits rest := by
  refine ⟨'.', [], rfl, ?_⟩
  cases rest with
  | nil => rfl
  | cons c rest =>
    obtain ⟨hdot, hdigit⟩ := hrest c rfl
    simp [Lexer.step, isBlank, hdot.symm, hdigit, separators]

/-- An operator that is no longer one symbol with what follows. -/
theorem splits_operator {c : Char} (hc : c ∈ ['=', '<', '>'])
    (hfind : operators.find? (fun op => op.toList.isPrefixOf (c :: rest)) = some (.singleton c)) :
    (symbol (.singleton c)).Splits rest := by
  refine ⟨c, [], by simp [text], ?_⟩
  have hplain : ∀ c ∈ ['=', '<', '>'], isBlank c = false ∧ c ∉ separators ∧ c.isDigit = false ∧
      isIdentifierStart c = false ∧ c ∉ ['/', '.', '@', '\'', '"'] :=
    forall_mem_of_all (by decide)
  obtain ⟨hblank, hseparator, hdigit, hstart, hother⟩ := hplain c hc
  simp only [List.mem_cons, List.not_mem_nil, or_false, not_or] at hother
  obtain ⟨hslash, hdot, hat, hsingle, hdouble⟩ := hother
  have hlength : (String.singleton c).length = 1 := by simp
  simp [Lexer.step, Lexer.operator?, hfind, hblank, hseparator, hdigit, hstart, Ne.symm hslash, hdot,
    Ne.symm hdot, hat, hsingle, hdouble, hlength]

theorem splits_equals (hrest : ∀ c ∈ rest.head?, c ≠ '=') : equals.Splits rest := by
  refine splits_operator (c := '=') (by decide) ?_
  cases rest with
  | nil => rfl
  | cons c rest =>
    have hc : '=' ≠ c := (hrest c rfl).symm
    simp [operators, List.isPrefixOf, hc]

theorem splits_openAngle (hrest : ∀ c ∈ rest.head?, c ≠ '<' ∧ c ≠ '=') :
    openAngle.Splits rest := by
  refine splits_operator (c := '<') (by decide) ?_
  cases rest with
  | nil => rfl
  | cons c rest =>
    obtain ⟨hangle, hequals⟩ := hrest c rfl
    simp [operators, List.isPrefixOf, hangle.symm, hequals.symm]

/-- The text does not make an assignment of a closing angle bracket before it. -/
def NoAssignment (s : List Char) : Prop := (s.dropWhile (· == '>')).head? ≠ some '='

theorem splits_closeAngle (hrest : NoAssignment rest) : closeAngle.Splits rest := by
  refine splits_operator (c := '>') (by decide) ?_
  unfold NoAssignment at hrest
  -- at most two more closing brackets could belong to an assignment
  rcases rest with _ | ⟨c, _ | ⟨d, _ | ⟨e, rest⟩⟩⟩ <;>
    simp_all [operators, List.isPrefixOf, List.dropWhile_cons] <;> grind

end Token

/-! ### Tokens in a row -/

namespace Token

/-- **No blank is written between two tokens.** What closes stands behind a token of any kind, what
opens before one, and the parentheses of a call behind its name. -/
def tight : Token → Token → Bool
  | .symbol s, u =>
    if s ∈ ["(", "["] then true
    else if s ∈ [".", "<", "::", "@"] then u.isWord
    else if s ∈ ["=", "->"] then false
    else u.isSymbolIn closers
  | .identifier _, u => u.isSymbolIn ("(" :: closers)
  | _, u => u.isSymbolIn closers

/-- What is written between two tokens. -/
def gap (t u : Token) : List Char := if t.tight u then [] else [' ']

/-- Tokens as they are written after another one. -/
def writeAfter : Token → List Token → List Char
  | _, [] => []
  | t, u :: us => gap t u ++ u.text.toList ++ writeAfter u us

/-- Tokens as they are written. -/
def write : List Token → List Char
  | [] => []
  | t :: ts => t.text.toList ++ writeAfter t ts

/-- The text ends, or goes on with a blank. -/
def BlankAhead (s : List Char) : Prop := ∀ c ∈ s.head?, isBlank c = true

variable {t u : Token} {ts : List Token} {rest : List Char}

/-- The text starts with a character of a kind, if with any. -/
theorem head_text {s : String} {P : Char → Prop} [DecidablePred P]
    (h : (s.toList.head?.any fun c => decide (P c)) = true) (tail : List Char) :
    ∀ c ∈ (s.toList ++ tail).head?, P c := by
  obtain ⟨c, hc, hP⟩ := (Option.any_eq_true _ _).1 h
  have hP := of_decide_eq_true hP
  cases hs : s.toList with
  | nil => simp [hs] at hc
  | cons d rest =>
    rw [hs] at hc
    cases hc
    simpa using hP

theorem isSymbolIn_of_mem (h : u.isSymbolIn closers = true) :
    u.isSymbolIn ("(" :: closers) = true := by
  cases u with
  | symbol s => simpa [isSymbolIn] using Or.inr h
  | keyword | identifier | literal => cases h

/-- A symbol that may stand behind a word ends it. -/
theorem head_text_closer (hu : u.isSymbolIn ("(" :: closers) = true) (tail : List Char) :
    ∀ c ∈ (u.text.toList ++ tail).head?, isIdentifierPart c = false := by
  have hall : ∀ s ∈ "(" :: closers,
      (s.toList.head?.any fun c => decide (isIdentifierPart c = false)) = true := by decide
  cases u with
  | symbol s => exact head_text (hall s (by simpa [isSymbolIn] using hu)) tail
  | keyword | identifier | literal => cases hu

/-- A word starts as identifiers do. -/
theorem head_text_word (hu : u.IsWritable) (hword : u.isWord = true) (tail : List Char) :
    ∀ c ∈ (u.text.toList ++ tail).head?, isIdentifierStart c = true := by
  have hstart {s : String} (hs : Text.isIdentifier s.toList = true) :
      (s.toList.head?.any fun c => decide (isIdentifierStart c = true)) = true := by
    cases hlist : s.toList with
    | nil =>
      rw [hlist] at hs
      cases hs
    | cons c rest =>
      rw [hlist] at hs
      exact decide_eq_true (Bool.and_eq_true_iff.1 hs).1
  cases hu with
  | keyword hs => exact head_text (hstart (isIdentifier_of_mem_keywords hs)) tail
  | identifier hs => exact head_text (hstart hs.isIdentifier) tail
  | value | quoted | symbol => cases hword

theorem noAssignment_of_head (h : ∀ c ∈ rest.head?, c ≠ '>' ∧ c ≠ '=') : NoAssignment rest := by
  cases rest with
  | nil => simp [NoAssignment]
  | cons c rest =>
    obtain ⟨hangle, hequals⟩ := h c rfl
    simp [NoAssignment, hangle, hequals]

/-- Behind a closing angle bracket no assignment is written. -/
theorem noAssignment_writeAfter (h : BlankAhead rest) :
    NoAssignment (writeAfter closeAngle ts ++ rest) := by
  induction ts with
  | nil =>
    refine noAssignment_of_head fun c hc => ?_
    constructor <;>
    · rintro rfl
      exact absurd (h _ hc) (by decide)
  | cons u us ih =>
    rw [writeAfter, gap]
    split
    · rename_i htight
      have hu : u.isSymbolIn closers = true := htight
      -- a run of closing brackets goes on; all else that may stand there starts otherwise
      by_cases hangle : u = closeAngle
      · subst hangle
        simpa [NoAssignment, text] using ih
      · have hall : ∀ s ∈ closers, s ≠ ">" →
            (s.toList.head?.any fun c => decide (c ≠ '>' ∧ c ≠ '=')) = true := by decide
        cases u with
        | symbol s =>
          have hhead := hall s (by simpa [isSymbolIn] using hu) (by simpa using hangle)
          refine noAssignment_of_head ?_
          simpa [text] using head_text hhead (writeAfter (.symbol s) us ++ rest)
        | keyword | identifier | literal => cases hu
    · exact noAssignment_of_head (by simp)

/-- A word that can be written ends where no part of an identifier follows. -/
theorem splits_keyword {s : String} (hs : s ∈ keywords)
    (hrest : ∀ c ∈ rest.head?, isIdentifierPart c = false) : (keyword s).Splits rest := by
  have h := splits_ofWord (isIdentifier_of_mem_keywords hs) hrest
  rwa [ofWord, if_pos hs] at h

theorem splits_identifier {s : String} (hs : IsName s)
    (hrest : ∀ c ∈ rest.head?, isIdentifierPart c = false) : (identifier s).Splits rest := by
  have h := splits_ofWord hs.isIdentifier hrest
  rwa [hs.ofWord] at h

theorem splits_value {s : String} (hs : s ∈ wordLiterals)
    (hrest : ∀ c ∈ rest.head?, isIdentifierPart c = false) : (literal s).Splits rest := by
  have hall : ∀ s ∈ wordLiterals, s ∉ keywords ∧ Text.isIdentifier s.toList = true := by decide
  obtain ⟨hkeyword, hidentifier⟩ := hall s hs
  have h := splits_ofWord hidentifier hrest
  rwa [ofWord, if_neg hkeyword, if_pos hs] at h

/-- Before a blank every token ends. -/
theorem splits_of_blankAhead (ht : t.IsWritable) (h : BlankAhead rest) : t.Splits rest := by
  have hpart : ∀ c ∈ rest.head?, isIdentifierPart c = false := fun c hc =>
    isIdentifierPart_of_isBlank (h c hc)
  have hne : ∀ d, isBlank d = false → ∀ c ∈ rest.head?, c ≠ d := by
    rintro d hd c hc rfl
    rw [h c hc] at hd
    cases hd
  cases ht with
  | keyword hs => exact splits_keyword hs hpart
  | identifier hs => exact splits_identifier hs hpart
  | value hs => exact splits_value hs hpart
  | quoted hs => exact splits_quoted hs rest
  | @symbol s hs =>
    rcases mem_plainSymbols hs with hplain | hs
    · exact splits_symbol hplain rest
    · simp only [List.mem_cons, List.not_mem_nil, or_false] at hs
      rcases hs with rfl | rfl | rfl | rfl
      · refine splits_dot fun c hc => ⟨hne '.' (by decide) c hc, ?_⟩
        cases hdigit : c.isDigit with
        | false => rfl
        | true =>
          have hpart := hpart c hc
          rw [isIdentifierPart_of_isDigit hdigit] at hpart
          cases hpart
      · exact splits_equals (hne '=' (by decide))
      · exact splits_openAngle fun c hc => ⟨hne '<' (by decide) c hc, hne '=' (by decide) c hc⟩
      · have hno : NoAssignment (writeAfter closeAngle [] ++ rest) := noAssignment_writeAfter h
        exact splits_closeAngle hno

/-- **A token that is written before others is read off.** -/
theorem splits_writeAfter (ht : t.IsWritable) (hts : ∀ u ∈ ts, u.IsWritable)
    (h : BlankAhead rest) : t.Splits (writeAfter t ts ++ rest) := by
  cases ts with
  | nil => exact splits_of_blankAhead ht h
  | cons u us =>
    cases htight : t.tight u with
    | false =>
      have hblank : BlankAhead (writeAfter t (u :: us) ++ rest) := by
        simp [writeAfter, gap, htight, BlankAhead]
        decide
      exact splits_of_blankAhead ht hblank
    | true =>
      have htext : writeAfter t (u :: us) ++ rest =
          u.text.toList ++ (writeAfter u us ++ rest) := by simp [writeAfter, gap, htight]
      -- no blank stands between, so it takes what may follow each kind of token that closely
      cases ht with
      | keyword hs =>
        have hu : u.isSymbolIn ("(" :: closers) = true := isSymbolIn_of_mem htight
        exact splits_keyword hs (htext ▸ head_text_closer hu _)
      | identifier hs => exact splits_identifier hs (htext ▸ head_text_closer htight _)
      | value hs =>
        have hu : u.isSymbolIn ("(" :: closers) = true := isSymbolIn_of_mem htight
        exact splits_value hs (htext ▸ head_text_closer hu _)
      | quoted hs => exact splits_quoted hs _
      | @symbol s hs =>
        rcases mem_plainSymbols hs with hplain | hs
        · exact splits_symbol hplain _
        simp only [List.mem_cons, List.not_mem_nil, or_false] at hs
        rcases hs with rfl | rfl | rfl | rfl
        · have hhead := head_text_word (hts u List.mem_cons_self) htight (writeAfter u us ++ rest)
          refine splits_dot (htext ▸ fun c hc => ⟨?_, ?_⟩)
          · exact ne_of_isIdentifierStart (hhead c hc) (by decide)
          · exact isDigit_of_isIdentifierStart (hhead c hc)
        · cases htight
        · have hhead := head_text_word (hts u List.mem_cons_self) htight (writeAfter u us ++ rest)
          refine splits_openAngle (htext ▸ fun c hc => ⟨?_, ?_⟩)
          · exact ne_of_isIdentifierStart (hhead c hc) (by decide)
          · exact ne_of_isIdentifierStart (hhead c hc) (by decide)
        · exact splits_closeAngle (noAssignment_writeAfter h)

/-- **What is written is read back**, up to the end or a blank. -/
theorem lexes_writeAfter (ht : t.IsWritable) (hts : ∀ u ∈ ts, u.IsWritable)
    (h : BlankAhead rest) {more : List Token} (hrest : Lexer.Lexes rest more) :
    Lexer.Lexes (writeAfter t ts ++ rest) (ts ++ more) := by
  induction ts generalizing t with
  | nil => exact hrest
  | cons u us ih =>
    obtain ⟨hu, hus⟩ := List.forall_mem_cons.1 hts
    have hlexes := (splits_writeAfter hu hus h).lexes (ih hu hus)
    rw [writeAfter, gap]
    split
    · simpa using hlexes
    · simpa using hlexes.blank (by decide)

theorem lexes_write (hts : ∀ u ∈ ts, u.IsWritable) (h : BlankAhead rest) {more : List Token}
    (hrest : Lexer.Lexes rest more) : Lexer.Lexes (write ts ++ rest) (ts ++ more) := by
  cases ts with
  | nil => exact hrest
  | cons t ts =>
    obtain ⟨ht, hts⟩ := List.forall_mem_cons.1 hts
    have hlexes := (splits_writeAfter ht hts h).lexes (lexes_writeAfter ht hts h hrest)
    simpa [write] using hlexes

theorem backslash_notMem_text (ht : t.IsWritable) : '\\' ∉ t.text.toList := by
  cases ht with
  | keyword hs =>
    exact notMem_of_isIdentifier (isIdentifier_of_mem_keywords hs) (by decide)
  | identifier hs => exact notMem_of_isIdentifier hs.isIdentifier (by decide)
  | @value s hs =>
    have hall : ∀ s ∈ wordLiterals, '\\' ∉ s.toList := by decide
    exact hall s hs
  | quoted hs =>
    have hslash := hs '\\' (by decide)
    simp [quoted, text, hslash]
  | @symbol s hs =>
    have hall : ∀ s ∈ plainSymbols, '\\' ∉ s.toList := by decide
    exact hall s hs

theorem backslash_notMem_writeAfter (hts : ∀ u ∈ ts, u.IsWritable) (t : Token) :
    '\\' ∉ writeAfter t ts := by
  induction ts generalizing t with
  | nil => exact List.not_mem_nil
  | cons u us ih =>
    obtain ⟨hu, hus⟩ := List.forall_mem_cons.1 hts
    have hgap : '\\' ∉ gap t u := by
      unfold gap
      split <;> decide
    simp [writeAfter, hgap, backslash_notMem_text hu, ih hus u]

theorem backslash_notMem_write (hts : ∀ u ∈ ts, u.IsWritable) : '\\' ∉ write ts := by
  cases ts with
  | nil => exact List.not_mem_nil
  | cons t ts =>
    obtain ⟨ht, hts⟩ := List.forall_mem_cons.1 hts
    simp [write, backslash_notMem_text ht, backslash_notMem_writeAfter hts t]

/-! ### Phrases that are written like words -/

/-- The tokens are written among others as one word is, except that no parenthesis follows. -/
def WritesAsWord (us : List Token) : Prop :=
  ∀ (t : Token) (vs : List Token), vs.head? ≠ some openParen →
    writeAfter t (us ++ vs) = gap t (.identifier "") ++ write us ++ writeAfter (.identifier "") vs

theorem writeAfter_append (t : Token) (us vs : List Token) :
    writeAfter t (us ++ vs) = writeAfter t us ++ writeAfter (us.getLast?.getD t) vs := by
  induction us generalizing t with
  | nil => rfl
  | cons u us ih => simp [writeAfter, ih u, List.getLast?_cons]

theorem gap_of_isWord (t : Token) (hu : u.isWord = true) : gap t u = gap t (.identifier "") := by
  cases u with
  | keyword | identifier => cases t <;> rfl
  | literal | symbol => cases hu

/-- Symbols that end a phrase as a word does. -/
def wordEnds : List String := [")", "]", ">"]

/-- It starts with a word and ends with a word or a closing bracket of any kind. -/
theorem writesAsWord_of_ends {us : List Token} (hfirst : ∃ u ∈ us.head?, u.isWord = true)
    (hlast : ∃ u ∈ us.getLast?, u.isWord = true ∨ u.isSymbolIn wordEnds = true) :
    WritesAsWord us := by
  obtain ⟨first, hfirst, hword⟩ := hfirst
  obtain ⟨last, hlast, hend⟩ := hlast
  intro t vs hvs
  obtain ⟨us, rfl⟩ := List.head?_eq_some_iff.1 hfirst
  rw [writeAfter_append, hlast]
  -- the last token leaves the same gap behind it as a name does
  have hafter : writeAfter last vs = writeAfter (.identifier "") vs := by
    cases vs with
    | nil => rfl
    | cons v vs =>
      have htight : last.tight v = (Token.identifier "").tight v := by
        have hparen : v ≠ openParen := fun h => hvs (congrArg some h)
        have hplain : (Token.identifier "").tight v = v.isSymbolIn closers := by
          cases v with
          | symbol s =>
            have hs : s ≠ "(" := fun h => hparen (congrArg Token.symbol h)
            simp [tight, isSymbolIn, hs]
          | keyword | identifier | literal => rfl
        have hends : ∀ s ∈ wordEnds, s ∉ ["(", "["] ∧ s ∉ [".", "<", "::", "@"] ∧
            s ∉ ["=", "->"] := by decide
        rw [hplain]
        cases last with
        | keyword => rfl
        | identifier => exact hplain
        | literal => exact absurd hend (by simp [isWord, isSymbolIn])
        | symbol s =>
          obtain ⟨hopen, hjoin, hapart⟩ := hends s (by simpa [isWord, isSymbolIn] using hend)
          simp only [tight, if_neg hopen, if_neg hjoin, if_neg hapart]
      simp only [writeAfter, gap, htight]
  simp only [Option.getD_some, hafter, writeAfter, write, gap_of_isWord t hword,
    List.append_assoc]

end Token

end EntityScaffold.Java
