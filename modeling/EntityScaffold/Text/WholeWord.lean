import EntityScaffold.Text.Template

/-!
# Whole words

A text stands as a whole word where both its ends are word boundaries: places where a word
character has none on its other side. Every such place is replaced, from left to right.
-/

namespace EntityScaffold.Text

/-- A word character stands here. -/
def wordAt (c : Option Char) : Bool := c.any isWord

/-- Between these two neighbours is a word boundary. -/
def isBoundary (before after : Option Char) : Bool := wordAt before != wordAt after

/-- The text starts with the word, and as a whole one. -/
def startsWithWord (word : List Char) (before : Option Char) (s : List Char) : Bool :=
  isBoundary before s.head? && word.isPrefixOf s &&
    isBoundary (word.getLast?.or before) (s.drop word.length).head?

/-- Replaces a word of at least one character wherever it is whole. -/
def replaceWordAfter (first : Char) (others new : List Char) (before : Option Char) :
    List Char → List Char
  | [] => []
  | c :: rest =>
    if startsWithWord (first :: others) before (c :: rest) then
      new ++ replaceWordAfter first others new (others.getLast?.or (some first))
        (rest.drop others.length)
    else c :: replaceWordAfter first others new (some c) rest
termination_by s => s.length
decreasing_by
  · simp only [List.length_drop, List.length_cons]; omega
  · simp

/-- Puts a text at every word boundary. -/
def insertAtBoundaries (new : List Char) (before : Option Char) : List Char → List Char
  | [] => if isBoundary before none then new else []
  | c :: rest =>
    (if isBoundary before (some c) then new else []) ++
      c :: insertAtBoundaries new (some c) rest

/-- Replaces a word wherever it is whole. The empty word is at every boundary. -/
def replaceWord (old new s : List Char) : List Char :=
  match old with
  | [] => insertAtBoundaries new none s
  | first :: others => replaceWordAfter first others new none s

/-- The text with one name in place of another. The new name is a template. -/
def rename (text old new : String) : Except Template.Fault String :=
  (Template.expand old.toList new.toList).map fun replacement =>
    String.ofList (replaceWord old.toList replacement text.toList)

end EntityScaffold.Text
