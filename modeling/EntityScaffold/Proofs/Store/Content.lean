import EntityScaffold.Generation.Run
import EntityScaffold.Proofs.Artifact.Declaration
import EntityScaffold.Store.Directory

/-!
# Texts that are kept as they are

A store in a directory trims the end of a text and puts one newline there. Every generated text
ends with the brace that closes its type and a newline (`Listing.isClosed_render`), and a renamed
one still does (`Text.IsClosed.rename`), so of generated files nothing is trimmed
(`DirectoryStore.content_eq_self`).
-/

namespace EntityScaffold

open Text

/-- The text ends with a closing brace and a newline. -/
def Text.IsClosed (s : String) : Prop := ∃ x, s.toList = x ++ '}' :: ['\n']

/-- A listing is closed by the brace of its type. -/
theorem Listing.isClosed_render (l : Listing) : IsClosed l.render := by
  obtain ⟨before, hbefore⟩ : ∃ before, l.allLines = before ++ ["\x7d"] := by
    unfold allLines typeLines
    cases l.members with
    | nil => exact ⟨l.packageLines ++ l.importLines ++ l.markings ++ [l.declaration ++ " \x7b"],
        by simp⟩
    | cons m ms => exact ⟨l.packageLines ++ l.importLines ++ l.markings ++
        [l.declaration ++ " \x7b", ""] ++ spacedLines ((m :: ms).map indent), by simp⟩
  refine ⟨before.flatMap fun l => l.toList ++ ['\n'], ?_⟩
  rw [render, toList_join (by rw [hbefore]; simp), hbefore]
  simp

/-- **Every generated text is closed.** -/
theorem Artifact.isClosed_of_mem_all {m : Entity} {p : Settings} {artifacts : List Artifact}
    {a : Artifact} (h : Artifact.all m p = .ok artifacts) (ha : a ∈ artifacts) :
    IsClosed a.text := by
  obtain ⟨l, -, htext⟩ := Layer.text?_eq_some_iff.1 (isOf_of_mem_all h ha).text
  exact htext ▸ l.isClosed_render

/-- **A renamed text is closed as before**: the brace is no part of a name. -/
theorem Text.IsClosed.rename {text text' old new : String} (h : IsClosed text)
    (hold : isIdentifier old.toList = true) (hrename : Text.rename text old new = .ok text') :
    IsClosed text' := by
  obtain ⟨x, hx⟩ := h
  have hne := ne_nil_of_isIdentifier hold
  have hbrace : '}' ∉ old.toList := notMem_of_isIdentifier hold (by decide)
  have hbreak : '\n' ∉ old.toList := notMem_of_isIdentifier hold (by decide)
  unfold Text.rename at hrename
  cases hexpand : Template.expand old.toList new.toList with
  | error fault => rw [hexpand] at hrename; cases hrename
  | ok replacement =>
    rw [hexpand] at hrename
    cases hrename
    have hend : replaceWord old.toList replacement ['\n'] = ['\n'] :=
      replaceWord_eq_self hne fun hw => by
        obtain ⟨c, hc⟩ := List.exists_mem_of_ne_nil _ hne
        obtain ⟨y, z, hw, -⟩ := hw
        have hmem : c ∈ ['\n'] := by simp [hw, hc]
        rw [List.mem_singleton.1 hmem] at hc
        exact hbreak hc
    refine ⟨replaceWord old.toList replacement x, ?_⟩
    rw [String.toList_ofList, hx, replaceWord_append_cons hne (by decide) hbrace, hend]

/-- What an artifact is filed with is closed. -/
theorem Artifact.isClosed_of_filed {a : Artifact} {d : Decision} {id : Identity} {text : String}
    (hclosed : IsClosed a.text) (hname : isIdentifier a.className.toList = true)
    (h : a.filed d = .ok (some (id, text))) : IsClosed text := by
  cases d with
  | write =>
    cases h
    exact hclosed
  | skip => cases h
  | rename name =>
    unfold filed at h
    dsimp only at h
    cases hrename : Text.rename a.text a.className name with
    | error fault => rw [hrename] at h; cases h
    | ok text' =>
      rw [hrename] at h
      cases h
      exact hclosed.rename hname hrename

/-- **A closed text with the mark of generated files in front is kept as it is.** -/
theorem DirectoryStore.content_eq_self {text : String} (h : IsClosed text) :
    content (markedText text) = markedText text := by
  obtain ⟨x, hx⟩ := h
  have hblank : isBlank '\n' = true ∧ isBlank '}' = false := by decide
  have htrim : trimEnd isBlank (markedText text).toList =
      generatedMarker.toList ++ '\n' :: x ++ ['}'] := by
    rw [toList_markedText, hx, trimEnd]
    simp [hblank]
  refine String.toList_injective ?_
  rw [content, String.toList_append, toList_onChars, htrim, toList_markedText, hx]
  simp

end EntityScaffold
