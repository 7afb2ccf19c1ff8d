import EntityScaffold.Artifact.All
import EntityScaffold.Proofs.Text.Identifier
import EntityScaffold.Proofs.Text.Unreplaced

/-!
# Declarations

Every generated text has a line that declares its type: `public`, the keyword of the layer, and
the class name of the artifact between spaces (`Layer.isLineOf_of_text?`). Replacing that name
changes the line only if the name starts and ends with word characters
(`replaceWord_declarationLine`): an identifier that does not is declared as before.

Every artifact of a run is that of its layer (`IsOf`), with a text of its own.
-/

namespace EntityScaffold

/-- A text stands in another one as a line that is ended. -/
def IsLineOf (line text : List Char) : Prop :=
  ∃ x y, text = x ++ line ++ '\n' :: y ∧ (x = [] ∨ ∃ z, x = z ++ ['\n'])

theorem toList_markedText (text : String) :
    (markedText text).toList = generatedMarker.toList ++ '\n' :: text.toList := by
  simp [markedText]

/-- A line of a text is one of the text with a mark in front. -/
theorem IsLineOf.markedText {line : List Char} {text : String} (h : IsLineOf line text.toList) :
    IsLineOf line (markedText text).toList := by
  obtain ⟨x, y, htext, hx⟩ := h
  refine ⟨generatedMarker.toList ++ '\n' :: x, y, by simp [toList_markedText, htext], Or.inr ?_⟩
  rcases hx with rfl | ⟨z, rfl⟩
  · exact ⟨generatedMarker.toList, rfl⟩
  · exact ⟨generatedMarker.toList ++ '\n' :: z, by simp⟩

/-- A line that declares a type, with what follows the name. -/
def declarationLine (keyword : String) (name rest : List Char) : List Char :=
  "public".toList ++ ' ' :: (keyword.toList ++ ' ' :: (name ++ ' ' :: rest))

theorem declarationLine_eq (keyword : String) (name rest : List Char) :
    declarationLine keyword name rest =
      "public".toList ++ ' ' :: (keyword.toList ++ ' ' :: (name ++ ' ' :: rest)) := rfl

theorem keyword_infix_declarationLine (keyword : String) (name rest : List Char) :
    keyword.toList <:+: declarationLine keyword name rest :=
  ⟨"public".toList ++ [' '], ' ' :: (name ++ ' ' :: rest), by simp [declarationLine_eq]⟩

namespace Listing

variable {ls : List String}

/-- Lines with newlines between them, and one at the end. -/
theorem toList_join (h : ls ≠ []) :
    (Text.join "\n" ls ++ "\n").toList = ls.flatMap fun l => l.toList ++ ['\n'] := by
  induction ls with
  | nil => exact absurd rfl h
  | cons l ls ih =>
    cases ls with
    | nil => simp [Text.join]
    | cons l₂ ls =>
      rw [List.flatMap_cons, ← ih (List.cons_ne_nil _ _)]
      simp [Text.join]

/-- Each line of a listing is a line of its text. -/
theorem isLineOf_render {l : Listing} {line : String} (h : line ∈ l.allLines) :
    IsLineOf line.toList l.render.toList := by
  obtain ⟨before, after, hlines⟩ := List.append_of_mem h
  refine ⟨before.flatMap fun l => l.toList ++ ['\n'], after.flatMap fun l => l.toList ++ ['\n'],
    ?_, ?_⟩
  · rw [render, toList_join (List.ne_nil_of_mem h), hlines]
    simp
  · rcases List.eq_nil_or_concat before with rfl | ⟨before, last, rfl⟩
    · exact Or.inl rfl
    · exact Or.inr ⟨(before.flatMap fun l => l.toList ++ ['\n']) ++ last.toList, by simp⟩

/-- The declaration is a line of the listing. -/
theorem declaration_mem_allLines (l : Listing) : l.declaration ++ " \x7b" ∈ l.allLines := by
  unfold allLines typeLines
  cases l.members <;> simp

end Listing

namespace Layer

/-- The keyword of the types that a layer declares. -/
def keyword : Layer → String
  | mapper | repository => "interface"
  | dto | service | controller => "class"

variable {k : Layer} {m : Entity} {p : Settings}

/-- **Every layer declares a type of its own class name.** -/
theorem toList_declaration {l : Listing} (h : k.listing? m p = .ok (some l)) :
    ∃ rest, (l.declaration ++ " \x7b").toList =
      declarationLine k.keyword (k.className m p).toList rest := by
  simp only [declarationLine_eq]
  cases k with
  | dto =>
    simp only [listing?, Except.ok.injEq, Option.some.injEq] at h
    subst h
    exact ⟨['{'], by simp [Artifact.dto, keyword]⟩
  | mapper =>
    simp only [listing?, Except.ok.injEq] at h
    split at h
    · simp only [Option.some.injEq] at h
      subst h
      exact ⟨['{'], by simp [Artifact.mapper, keyword]⟩
    · cases h
  | repository =>
    simp only [listing?, Except.ok.injEq, Option.some.injEq] at h
    subst h
    refine ⟨("extends JpaRepository<" ++ m.className ++ ", " ++ m.identifierType.render ++
      "> \x7b").toList, ?_⟩
    simp [Artifact.repository, keyword]
  | service =>
    simp only [listing?, Except.ok.injEq, Option.some.injEq] at h
    subst h
    exact ⟨['{'], by simp [Artifact.service, keyword]⟩
  | controller =>
    simp only [listing?, Artifact.controller] at h
    cases hc : Artifact.Conversion.ofSettings m p with
    | error fault => rw [hc] at h; cases h
    | ok c =>
      simp only [hc, Except.map, Except.ok.injEq, Option.some.injEq] at h
      subst h
      exact ⟨['{'], by simp [Artifact.controllerWith, keyword]⟩

/-- The text of a layer is that of its listing. -/
theorem text?_eq_some_iff {text : String} :
    k.text? m p = .ok (some text) ↔ ∃ l, k.listing? m p = .ok (some l) ∧ l.render = text := by
  unfold text?
  rcases k.listing? m p with fault | _ | l <;> simp [Except.map]

/-- **Every generated text has a line that declares its type.** -/
theorem isLineOf_of_text? {text : String} (h : k.text? m p = .ok (some text)) :
    ∃ rest, IsLineOf (declarationLine k.keyword (k.className m p).toList rest) text.toList := by
  obtain ⟨l, hl, rfl⟩ := text?_eq_some_iff.1 h
  obtain ⟨rest, hrest⟩ := toList_declaration hl
  exact ⟨rest, hrest ▸ Listing.isLineOf_render l.declaration_mem_allLines⟩

/-- A layer that is enabled has a listing, if it can be made. -/
theorem isSome_of_listing? {l? : Option Listing} (h : k.listing? m p = .ok l?)
    (hen : k.isEnabled p = true) : l?.isSome = true := by
  cases k with
  | dto | repository | service =>
    cases h
    rfl
  | mapper =>
    -- which it has only beside transfer objects
    obtain ⟨-, hdto⟩ := Bool.and_eq_true_iff.1 hen
    rw [listing?, if_pos (by simpa using hdto)] at h
    cases h
    rfl
  | controller =>
    rw [listing?] at h
    cases hc : Artifact.controller m p with
    | error fault => rw [hc] at h; cases h
    | ok l => rw [hc] at h; cases h; rfl

/-- A layer has an artifact exactly if it is enabled. -/
theorem build?_cases {o : Option Artifact} (h : k.build? m p = .ok o) :
    k.isEnabled p = false ∧ o = none ∨
      k.isEnabled p = true ∧ ∃ a, o = some a ∧ a.layer = k := by
  unfold build? at h
  split at h
  · rename_i hen
    cases hl : k.listing? m p with
    | error fault =>
      rw [text?, hl] at h
      cases h
    | ok l? =>
      obtain ⟨l, rfl⟩ := Option.isSome_iff_exists.1 (isSome_of_listing? hl hen)
      rw [text?, hl] at h
      cases h
      exact Or.inr ⟨hen, _, rfl, rfl⟩
  · rename_i hen
    cases h
    exact Or.inl ⟨by simpa using hen, rfl⟩

end Layer

/-! ### Artifacts of an entity -/

/-- Results that are made one after the other are each made from some item. -/
theorem exists_of_mem_mapM {α β ε : Type} {f : α → Except ε β} {as : List α} {bs : List β}
    (h : as.mapM f = .ok bs) {b : β} (hb : b ∈ bs) : ∃ a ∈ as, f a = .ok b := by
  induction as generalizing bs with
  | nil =>
    cases h
    cases hb
  | cons a as ih =>
    rw [List.mapM_cons] at h
    cases ha : f a with
    | error e => rw [ha] at h; cases h
    | ok b' =>
      cases has : as.mapM f with
      | error e => rw [ha, has] at h; cases h
      | ok bs' =>
        rw [ha, has] at h
        cases h
        rcases List.mem_cons.1 hb with rfl | hb
        · exact ⟨a, List.mem_cons_self, ha⟩
        · obtain ⟨a', ha', hf⟩ := ih has hb
          exact ⟨a', List.mem_cons_of_mem _ ha', hf⟩

namespace Artifact

variable {a : Artifact} {m : Entity} {p : Settings}

/-- The artifact is the one that its layer, which is enabled, gives for an entity. -/
structure IsOf (a : Artifact) (m : Entity) (p : Settings) : Prop where
  isEnabled : a.layer.isEnabled p = true
  identity : a.identity = a.layer.identity m p
  text : a.layer.text? m p = .ok (some a.text)

theorem IsOf.text_eq {l : Listing} (h : a.IsOf m p)
    (hl : a.layer.listing? m p = .ok (some l)) : a.text = l.render := by
  obtain ⟨l', hl', htext⟩ := Layer.text?_eq_some_iff.1 h.text
  rw [hl, Except.ok.injEq, Option.some.injEq] at hl'
  rw [← htext, hl']

/-- All artifacts of an entity are those of enabled layers. -/
theorem isOf_of_mem_all {artifacts : List Artifact} (h : Artifact.all m p = .ok artifacts)
    (ha : a ∈ artifacts) : a.IsOf m p := by
  unfold Artifact.all at h
  cases hs : Layer.generated.mapM fun (k : Layer) => k.build? m p with
  | error e => rw [hs] at h; cases h
  | ok os =>
    rw [hs] at h
    cases h
    obtain ⟨o, ho, rfl⟩ := List.mem_filterMap.1 ha
    obtain ⟨k, -, hk⟩ := exists_of_mem_mapM hs ho
    unfold Layer.build? at hk
    split at hk
    · rename_i hen
      cases ht : k.text? m p with
      | error e => rw [ht] at hk; cases hk
      | ok t =>
        rw [ht] at hk
        cases t with
        | none => cases hk
        | some text =>
          cases hk
          exact ⟨hen, rfl, ht⟩
    · cases hk

/-- **The artifacts of an entity are those of the enabled layers, one for each and in their
order.** -/
theorem map_layer_of_all {artifacts : List Artifact}
    (h : Artifact.all m p = .ok artifacts) :
    artifacts.map (·.layer) = Layer.generated.filter (·.isEnabled p) := by
  unfold Artifact.all at h
  generalize Layer.generated = ks at h ⊢
  induction ks generalizing artifacts with
  | nil =>
    cases h
    rfl
  | cons k ks ih =>
    rw [List.mapM_cons] at h
    cases hb : k.build? m p with
    | error fault => rw [hb] at h; cases h
    | ok o =>
      cases hs : ks.mapM fun (k : Layer) => k.build? m p with
      | error fault => rw [hb, hs] at h; cases h
      | ok os =>
        rw [hb, hs] at h
        cases h
        have hrest := ih (by rw [hs]; rfl)
        rcases Layer.build?_cases hb with ⟨hen, rfl⟩ | ⟨hen, a, rfl, hlayer⟩
        · rw [List.filter_cons_of_neg (by simp [hen]), ← hrest]
          rfl
        · rw [List.filter_cons_of_pos (p := fun k : Layer => k.isEnabled p) hen, ← hrest, ← hlayer]
          rfl

/-- Where the artifacts can be computed, so can the one of a layer. -/
theorem exists_of_layer {k : Layer}
    (h : (Artifact.all m p).toOption.any (·.any (·.layer = k)) = true) :
    ∃ artifacts, Artifact.all m p = .ok artifacts ∧
      ∃ a ∈ artifacts, a.layer = k ∧ a.IsOf m p := by
  cases hall : Artifact.all m p with
  | error fault =>
    rw [hall] at h
    cases h
  | ok artifacts =>
    rw [hall] at h
    obtain ⟨a, ha, hlayer⟩ := List.any_eq_true.1 h
    exact ⟨artifacts, rfl, a, ha, of_decide_eq_true hlayer, isOf_of_mem_all hall ha⟩

end Artifact

/-! ### Declarations with another name -/

open Text

variable {word : List Char}

/-- Lines are replaced one by one. -/
theorem IsLineOf.replaceWord {line text : List Char} (h : IsLineOf line text) (hw : word ≠ [])
    (hn : '\n' ∉ word) (new : List Char) :
    IsLineOf (Text.replaceWord word new line) (Text.replaceWord word new text) := by
  have hbreak : isWord '\n' = false := by decide
  obtain ⟨x, y, rfl, rfl | ⟨z, rfl⟩⟩ := h
  · exact ⟨[], _, replaceWord_append_cons hw hbreak hn line y, Or.inl rfl⟩
  · refine ⟨Text.replaceWord word new z ++ ['\n'], Text.replaceWord word new y, ?_,
      Or.inr ⟨_, rfl⟩⟩
    rw [List.append_assoc, List.append_assoc, List.singleton_append,
      replaceWord_append_cons hw hbreak hn, replaceWord_append_cons hw hbreak hn]
    simp

/-- **A declaration gets the new name exactly if the old one starts and ends with word
characters.** -/
theorem replaceWord_declarationLine {keyword : String} (hk : keyword.toList.all isWord = true)
    (hword : isIdentifier word = true) (hpublic : word ≠ "public".toList)
    (hkeyword : word ≠ keyword.toList) (new rest : List Char) :
    ∃ rest', replaceWord word new (declarationLine keyword word rest) =
      declarationLine keyword (if IsDelimited word then new else word) rest' := by
  have hw := ne_nil_of_isIdentifier hword
  have hspace : ' ' ∉ word := notMem_of_isIdentifier hword (by decide)
  have hblank : isWord ' ' = false := by decide
  refine ⟨replaceWord word new rest, ?_⟩
  rw [declarationLine_eq, declarationLine_eq, replaceWord_append_cons hw hblank hspace,
    replaceWord_append_cons hw hblank hspace, replaceWord_append_cons hw hblank hspace,
    replaceWord_of_ne hw (by decide) hpublic,
    replaceWord_of_ne hw hk hkeyword, replaceWord_self hw]

/-- **Numbering a name brings about no declaration of the numbered one**, if the name does not start
and end with word characters: the declaration was there before. -/
theorem declarationLine_infix_of_replaceWord {keyword : String}
    (hk : keyword.toList.all isWord = true) (hword : isIdentifier word = true)
    (hd : ¬ IsDelimited word) {digits s : List Char} (hne : digits ≠ [])
    (hdigits : ∀ c ∈ digits, c.isDigit = true)
    (h : declarationLine keyword (word ++ digits) [] <:+: replaceWord word (word ++ digits) s) :
    declarationLine keyword (word ++ digits) [] <:+: s := by
  have hw := ne_nil_of_isIdentifier hword
  have hspace : ' ' ∉ word := notMem_of_isIdentifier hword (by decide)
  have hblank : isWord ' ' = false := by decide
  have hnew : ' ' ∉ word ++ digits := by
    rw [List.mem_append]
    rintro (hm | hm)
    · exact hspace hm
    · exact absurd (hdigits _ hm) (by decide)
  obtain ⟨u, v, h⟩ := h
  rw [declarationLine_eq] at h
  simp only [List.append_assoc, List.cons_append, List.nil_append] at h
  rw [← List.append_assoc u] at h
  obtain ⟨x₀, y₀, rfl, h₀, hy₀⟩ := eq_append_cons_of_replaceWord hw hblank hspace hnew h.symm
  obtain ⟨x₁, y₁, rfl, h₁, hy₁⟩ := eq_append_cons_of_replaceWord hw hblank hspace hnew hy₀
  rw [← List.append_assoc word] at hy₁
  obtain ⟨x₂, y₂, rfl, h₂, -⟩ := eq_append_cons_of_replaceWord hw hblank hspace hnew hy₁
  -- piece by piece: the name, the keyword, and what stands before it
  have hname : x₂ = word ++ digits := eq_append_of_replaceWord hw hd h₂
  have hkeyword : x₁ = keyword.toList := by
    obtain ⟨d, hm, hnot⟩ : ∃ d ∈ word, isWord d = false := by
      by_contra hall
      exact hd (isDelimited_of_all hw (by simpa using hall))
    have hself := replaceWord_eq_self_of_notMem hw (s := x₁) (List.mem_append_left digits hm)
    rw [h₁] at hself
    refine (hself fun hk' => ?_).symm
    rw [List.all_eq_true.1 hk d hk'] at hnot
    cases hnot
  have hpublic : "public".toList <:+ x₀ := by
    obtain ⟨init, last, rfl⟩ := (List.eq_nil_or_concat digits).resolve_left hne
    have hend : "public".toList <:+ replaceWord word (word ++ init ++ [last]) x₀ := by
      rw [List.append_assoc, ← List.concat_eq_append, h₀]
      exact List.suffix_append _ _
    refine suffix_of_suffix_replaceWord hw hend fun hm => ?_
    have hletters : "public".toList.all (fun c => !c.isDigit) = true := by decide
    have hletter := List.all_eq_true.1 hletters last hm
    rw [hdigits last (by simp)] at hletter
    cases hletter
  obtain ⟨w, rfl⟩ := hpublic
  refine ⟨w, y₂, ?_⟩
  simp [declarationLine_eq, hname, hkeyword]

end EntityScaffold
