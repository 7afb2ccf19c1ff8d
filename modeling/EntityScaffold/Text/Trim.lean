import EntityScaffold.Text.Category

/-!
# Trimming

Characters of a class are taken off the start, the end or both ends of a text. What is left starts
and ends with characters outside the class, and nothing inside is touched.
-/

namespace EntityScaffold.Text

/-- The text without the leading characters of the class. -/
def trimStart (p : Char → Bool) (s : List Char) : List Char := s.dropWhile p

/-- The text without the trailing characters of the class. -/
def trimEnd (p : Char → Bool) (s : List Char) : List Char := (s.reverse.dropWhile p).reverse

/-- The text without the leading and the trailing characters of the class. -/
def trim (p : Char → Bool) (s : List Char) : List Char := trimEnd p (trimStart p s)

@[simp] theorem trim_nil (p : Char → Bool) : trim p [] = [] := rfl

theorem length_dropWhile_le (p : Char → Bool) (s : List Char) :
    (s.dropWhile p).length ≤ s.length := by
  induction s with
  | nil => simp
  | cons c s ih =>
    rw [List.dropWhile_cons]
    split
    · simp only [List.length_cons]
      omega
    · exact Nat.le_refl _

theorem length_trimStart_le (p : Char → Bool) (s : List Char) :
    (trimStart p s).length ≤ s.length := length_dropWhile_le p s

theorem length_trimEnd_le (p : Char → Bool) (s : List Char) :
    (trimEnd p s).length ≤ s.length := by
  have h := length_dropWhile_le p s.reverse
  simpa [trimEnd] using h

theorem length_trim_le (p : Char → Bool) (s : List Char) : (trim p s).length ≤ s.length :=
  Nat.le_trans (length_trimEnd_le p _) (length_trimStart_le p s)

/-- Applies a function on characters to a string. -/
def onChars (f : List Char → List Char) (s : String) : String := String.ofList (f s.toList)

@[simp] theorem toList_onChars (f : List Char → List Char) (s : String) :
    (onChars f s).toList = f s.toList := by simp [onChars]

/-- The string without leading and trailing characters of the class. -/
def stripOf (p : Char → Bool) : String → String := onChars (trim p)

/-- The string without leading and trailing blanks. -/
def strip : String → String := stripOf isBlank

/-- The string without trailing characters of the class. -/
def stripEndOf (p : Char → Bool) : String → String := onChars (trimEnd p)

/-- The string without blanks around it, then without double quotes, then without single ones. -/
def unquote (s : String) : String :=
  stripOf (· == '\'') (stripOf (· == '"') (strip s))

end EntityScaffold.Text
