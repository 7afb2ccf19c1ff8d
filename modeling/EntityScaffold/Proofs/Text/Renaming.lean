import EntityScaffold.Text.Cut
import EntityScaffold.Proofs.Text.WholeWord

/-!
# Texts that differ in a name

Two texts are the same but for a name if they are the same between characters that belong to no
word, except that some of these stretches are the old name in the one text and the new name in the
other. Where the old name is no whole word of the second text, to replace it in the first one gives
the second one (`Renaming.replaceWord_eq`): every other stretch is left as it is.
-/

namespace EntityScaffold.Text

/-- The second text has the new name in some places where the first one has the old name, and each
of these places lies between characters that belong to no word. -/
inductive Renaming (old new : List Char) : List Char → List Char → Prop
  | same (s : List Char) : Renaming old new s s
  | name : Renaming old new old new
  | cut {c : Char} {x x' y y' : List Char} (hc : isWord c = false) (hx : Renaming old new x x')
      (hy : Renaming old new y y') : Renaming old new (x ++ c :: y) (x' ++ c :: y')

namespace Renaming

variable {old new s s' : List Char}

/-- **Replacing a name of word characters gives the renamed text**, if that text has the old name
nowhere. -/
theorem replaceWord_eq (h : Renaming old new s s') (hold : old ≠ [])
    (hw : old.all isWord = true) (hn : ¬ IsWordOf old s') : replaceWord old new s = s' := by
  induction h with
  | same s => exact replaceWord_eq_self hold hn
  | name => rw [replaceWord_self hold, if_pos (isDelimited_of_all hold hw)]
  | @cut c x x' y y' hc _ _ ihx ihy =>
    have hnotMem : c ∉ old := fun hm => by
      rw [List.all_eq_true.1 hw c hm] at hc
      cases hc
    rw [replaceWord_append_cons hold hc hnotMem, ihx fun h => hn (h.append_cons_left hc y'),
      ihy fun h => hn (h.append_cons_right hc x')]

/-- Names that are not empty make no text empty. -/
theorem eq_nil_iff (h : Renaming old new s s') (hold : old ≠ []) (hnew : new ≠ []) :
    s = [] ↔ s' = [] := by
  cases h with
  | same => rfl
  | name => simp [hold, hnew]
  | cut => simp

/-- A name after a text that ends outside a word, and before one that starts outside a word. -/
theorem between {x y : List Char} (hx : wordAt x.getLast? = false) (hy : wordAt y.head? = false) :
    Renaming old new (x ++ old ++ y) (x ++ new ++ y) := by
  have hright : Renaming old new (old ++ y) (new ++ y) := by
    cases y with
    | nil => simpa using name
    | cons d y => exact cut hy name (same y)
  rcases List.eq_nil_or_concat x with rfl | ⟨x, c, rfl⟩
  · exact hright
  · have hc : isWord c = false := by simpa using hx
    simpa using cut hc (same x) hright

end Renaming

/-! ### Strings -/

/-- The strings are the same but for a name. -/
def Renames (old new s s' : String) : Prop :=
  Renaming old.toList new.toList s.toList s'.toList

namespace Renames

variable {old new s s' : String}

theorem refl (s : String) : Renames old new s s := Renaming.same _

theorem name : Renames old new old new := Renaming.name

/-- A name between a string that ends outside a word and one that starts outside a word. -/
theorem between {x y : String} (hx : wordAt x.toList.getLast? = false)
    (hy : y.toList.head?.all isWord = false) (z : String) :
    Renames old new (x ++ old ++ (y ++ z)) (x ++ new ++ (y ++ z)) := by
  have hhead : wordAt (y.toList ++ z.toList).head? = false := by
    cases hc : y.toList with
    | nil => simp [hc] at hy
    | cons c rest => simpa [hc] using hy
  unfold Renames
  simp only [String.toList_append]
  exact Renaming.between hx hhead

/-- A string that starts outside a word may follow. -/
theorem append {y : String} (h : Renames old new s s') (hy : wordAt y.toList.head? = false) :
    Renames old new (s ++ y) (s' ++ y) := by
  unfold Renames
  simp only [String.toList_append]
  cases hc : y.toList with
  | nil => rwa [List.append_nil, List.append_nil]
  | cons c rest =>
    rw [hc] at hy
    exact Renaming.cut hy h (Renaming.same rest)

/-- A string that ends outside a word may stand in front. -/
theorem prepend {x : String} (h : Renames old new s s') (hx : wordAt x.toList.getLast? = false) :
    Renames old new (x ++ s) (x ++ s') := by
  unfold Renames
  simp only [String.toList_append]
  rcases List.eq_nil_or_concat x.toList with hc | ⟨rest, c, hc⟩
  · rwa [hc, List.nil_append, List.nil_append]
  · have hword : isWord c = false := by simpa [hc] using hx
    simpa [hc] using Renaming.cut hword (Renaming.same rest) h

/-- Names that are not empty make no string empty. -/
theorem eq_empty_iff (h : Renames old new s s') (hold : old ≠ "") (hnew : new ≠ "") :
    s = "" ↔ s' = "" := by
  have hnil : ∀ t : String, t.toList = [] ↔ t = "" := fun t => by simp
  rw [← hnil, ← hnil]
  exact h.eq_nil_iff (mt (hnil _).1 hold) (mt (hnil _).1 hnew)

/-- Lines that are renamed one by one make a text that is renamed. -/
theorem join {ls ls' : List String} (h : List.Forall₂ (Renames old new) ls ls') :
    Renames old new (Text.join "\n" ls) (Text.join "\n" ls') := by
  have hbreak : isWord '\n' = false := by decide
  induction h with
  | nil => exact refl _
  | @cons l l' ls ls' hl hls ih =>
    cases hls with
    | nil => exact hl
    | cons hl₂ hls =>
      unfold Renames at ih ⊢
      simp only [Text.join, String.toList_append] at ih ⊢
      simpa using Renaming.cut hbreak hl ih

/-- **To rename a name of word characters in a string gives the renamed string**, if that one has
the old name nowhere. -/
theorem rename_eq (h : Renames old new s s') (hold : old ≠ "")
    (hw : old.toList.all isWord = true) (hnew : new.toList.all isWord = true)
    (hn : ¬ IsWordOf old.toList s'.toList) : rename s old new = .ok s' := by
  have hback : '\\' ∉ new.toList := fun hm => by
    have := List.all_eq_true.1 hnew _ hm
    revert this
    decide
  have hchars : old.toList ≠ [] := by simpa using hold
  rw [rename, Template.expand_eq_self hback]
  simp only [Except.map, Renaming.replaceWord_eq h hchars hw hn, String.ofList_toList]

end Renames

end EntityScaffold.Text
