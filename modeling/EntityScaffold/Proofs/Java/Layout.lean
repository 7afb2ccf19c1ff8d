import EntityScaffold.Proofs.Java.UnitTree
import EntityScaffold.Proofs.Text.Lines

/-!
# Layout of generated code

The tokens of a proper tree can be written (`UnitTree.IsProper.isWritable`). Code is laid out in
lines, each of which is some of the tokens with blanks in front; whatever the lines are, they are
read as the tokens of all of them in order (`Spells.tokens_eq`).
-/

namespace EntityScaffold.Java

open Text Java.Parser Java.Token

/-! ### Tokens of trees -/

theorem isWritable_separated {xs : List (List Token)} (h : ∀ x ∈ xs, ∀ u ∈ x, u.IsWritable) :
    ∀ u ∈ separated comma xs, u.IsWritable := by
  intro u hu
  rcases mem_separated hu with rfl | ⟨x, hx, hu⟩
  · exact .symbol (by decide)
  · exact h x hx u hu

theorem isWritable_inParens {xs : List (List Token)} (h : ∀ x ∈ xs, ∀ u ∈ x, u.IsWritable) :
    ∀ u ∈ Term.inParens xs, u.IsWritable := by
  rw [Term.inParens, List.forall_mem_cons, List.forall_mem_append, List.forall_mem_singleton]
  exact ⟨.symbol (by decide), isWritable_separated h, .symbol (by decide)⟩

theorem isWritable_pathTokens {path : List String} (h : IsNamePath path) :
    ∀ u ∈ pathTokens path, u.IsWritable := by
  obtain ⟨first, more, rfl⟩ := List.exists_cons_of_ne_nil h.ne_nil
  obtain ⟨hfirst, hmore⟩ := List.forall_mem_cons.1 h.isName
  rw [pathTokens_cons, List.forall_mem_cons]
  refine ⟨.identifier hfirst, fun u hu => ?_⟩
  obtain ⟨s, hs, hu⟩ := List.mem_flatMap.1 hu
  rcases List.mem_pair.1 hu with rfl | rfl
  · exact .symbol (by decide)
  · exact .identifier (hmore s hs)

theorem Term.IsProper.isWritable {t : Term} (h : t.IsProper) : ∀ u ∈ t.tokens, u.IsWritable := by
  have hargs {args : List Term} (ih : ∀ a ∈ args, ∀ u ∈ a.tokens, u.IsWritable) :
      ∀ u ∈ inParens (tokensOfAll args), u.IsWritable := by
    rw [tokensOfAll_eq_map]
    exact isWritable_inParens (List.forall_mem_map.2 ih)
  induction h with
  | quoted htext => exact List.forall_mem_singleton.2 (.quoted htext)
  | dotted hpath => exact isWritable_pathTokens hpath
  | call hpath _ ih => exact List.forall_mem_append.2 ⟨isWritable_pathTokens hpath, hargs ih⟩
  | select _ _ hmember _ ih ihs =>
    refine List.forall_mem_append.2 ⟨ih, List.forall_mem_cons.2 ⟨.symbol (by decide), ?_⟩⟩
    exact List.forall_mem_cons.2 ⟨.identifier hmember, hargs ihs⟩
  | create htype _ ih =>
    exact List.forall_mem_cons.2 ⟨.keyword (by decide),
      List.forall_mem_cons.2 ⟨.identifier htype, hargs ih⟩⟩
  | function hparameter _ ih =>
    exact List.forall_mem_cons.2 ⟨.identifier hparameter,
      List.forall_mem_cons.2 ⟨.symbol (by decide), ih⟩⟩
  | method hname =>
    simp only [tokens, List.forall_mem_cons]
    exact ⟨.keyword (by decide), .symbol (by decide), .identifier hname, List.forall_mem_nil _⟩

/-- A term and the token that ends it. -/
theorem isWritable_ended {t : Term} (h : t.IsProper) {s : String} (hs : s ∈ plainSymbols) :
    ∀ u ∈ t.tokens ++ [.symbol s], u.IsWritable :=
  List.forall_mem_append.2 ⟨h.isWritable, List.forall_mem_singleton.2 (.symbol hs)⟩

theorem Statement.IsProper.isWritable {s : Statement} (h : s.IsProper) :
    ∀ u ∈ s.tokens, u.IsWritable := by
  induction h with
  | result hvalue | raise hvalue =>
    exact List.forall_mem_cons.2 ⟨.keyword (by decide), isWritable_ended hvalue (by decide)⟩
  | perform hcall => exact isWritable_ended hcall (by decide)
  | assign hmember hvalue =>
    simp only [tokens, List.forall_mem_cons]
    exact ⟨.keyword (by decide), .symbol (by decide), .identifier hmember, .symbol (by decide),
      isWritable_ended hvalue (by decide)⟩
  | declare htype hname hvalue =>
    simp only [tokens, List.forall_mem_cons]
    exact ⟨.identifier htype, .identifier hname, .symbol (by decide),
      isWritable_ended hvalue (by decide)⟩
  | guard hcondition _ ih =>
    simp only [tokens, List.forall_mem_cons, List.forall_mem_append]
    exact ⟨.keyword (by decide), .symbol (by decide), hcondition.isWritable, .symbol (by decide),
      .symbol (by decide), ih, .symbol (by decide), List.forall_mem_nil _⟩

theorem Marking.IsProper.isWritable {a : Marking} (h : a.IsProper) :
    ∀ u ∈ a.tokens, u.IsWritable := by
  cases h with
  | plain hname =>
    simp only [tokens, List.forall_mem_cons]
    exact ⟨.symbol (by decide), .identifier hname, List.forall_mem_nil _⟩
  | value hname htext =>
    simp only [tokens, List.forall_mem_cons]
    exact ⟨.symbol (by decide), .identifier hname, .symbol (by decide), htext, .symbol (by decide),
      List.forall_mem_nil _⟩
  | pairs hname _ hvalues =>
    refine List.forall_mem_cons.2 ⟨.symbol (by decide),
      List.forall_mem_cons.2 ⟨.identifier hname, isWritable_inParens (List.forall_mem_map.2 ?_)⟩⟩
    intro v hv
    obtain ⟨hkey, htext⟩ := hvalues v hv
    simp only [pairTokens, List.forall_mem_cons]
    exact ⟨.identifier hkey, .symbol (by decide), htext, List.forall_mem_nil _⟩

theorem isWritable_modifierTokens {markings : List Marking} {words : List String}
    (hmarkings : ∀ a ∈ markings, a.IsProper) (hwords : ∀ s ∈ words, s ∈ MemberTree.accessWords) :
    ∀ u ∈ modifierTokens markings words, u.IsWritable := by
  refine List.forall_mem_append.2 ⟨fun u hu => ?_, List.forall_mem_map.2 fun s hs => ?_⟩
  · obtain ⟨a, ha, hu⟩ := List.mem_flatMap.1 hu
    exact (hmarkings a ha).isWritable u hu
  · have hall : ∀ s ∈ MemberTree.accessWords, s ∈ keywords := by decide
    exact .keyword (hall s (hwords s hs))

theorem Parameter.IsProper.isWritable {p : Parameter} (h : p.IsProper) :
    ∀ u ∈ p.tokens, u.IsWritable := by
  have hmarkings : ∀ a ∈ p.marking.toList.map Marking.plain, a.IsProper :=
    List.forall_mem_map.2 fun name hname => .plain (h.marking name (Option.mem_toList.1 hname))
  simp only [tokens, List.forall_mem_append, List.forall_mem_singleton]
  exact ⟨isWritable_modifierTokens hmarkings (List.forall_mem_nil _), h.type.isWritable,
    .identifier h.name⟩

namespace MemberTree

theorem isWritable_parameterTokens {ps : List Parameter} (h : ∀ p ∈ ps, p.IsProper) :
    ∀ u ∈ Parameter.parameterTokens ps, u.IsWritable :=
  isWritable_inParens (List.forall_mem_map.2 fun p hp => (h p hp).isWritable)

theorem isWritable_blockTokens {body : List Statement} (h : ∀ s ∈ body, s.IsProper) :
    ∀ u ∈ blockTokens body, u.IsWritable := by
  rw [blockTokens, List.forall_mem_cons, List.forall_mem_append, List.forall_mem_singleton]
  refine ⟨.symbol (by decide), fun u hu => ?_, .symbol (by decide)⟩
  obtain ⟨s, hs, hu⟩ := List.mem_flatMap.1 hu
  exact (h s hs).isWritable u hu

theorem IsProper.isWritable {m : MemberTree} (h : m.IsProper) : ∀ u ∈ m.tokens, u.IsWritable := by
  cases h with
  | field hwords htype hname =>
    simp only [tokens, List.forall_mem_append, List.forall_mem_cons]
    exact ⟨isWritable_modifierTokens (List.forall_mem_nil _) hwords, htype.isWritable,
      .identifier hname, .symbol (by decide), List.forall_mem_nil _⟩
  | constructor hname hps hbody =>
    refine List.forall_mem_append.2 ⟨isWritable_modifierTokens (List.forall_mem_nil _)
      (List.forall_mem_singleton.2 (by decide)), List.forall_mem_cons.2 ⟨.identifier hname, ?_⟩⟩
    exact List.forall_mem_append.2 ⟨isWritable_parameterTokens hps, isWritable_blockTokens hbody⟩
  | @method markings words result name ps body hmarkings hwords hresult hname hps hbody =>
    have hresult : ∀ u ∈ resultTokens result, u.IsWritable := by
      cases result with
      | none => exact List.forall_mem_singleton.2 (.keyword (by decide))
      | some t => exact (hresult t rfl).isWritable
    have hbody : ∀ u ∈ bodyTokens body, u.IsWritable := by
      cases body with
      | none => exact List.forall_mem_singleton.2 (.symbol (by decide))
      | some body => exact isWritable_blockTokens (hbody body rfl)
    refine List.forall_mem_append.2 ⟨isWritable_modifierTokens hmarkings hwords,
      List.forall_mem_append.2 ⟨hresult, List.forall_mem_cons.2 ⟨.identifier hname, ?_⟩⟩⟩
    exact List.forall_mem_append.2 ⟨isWritable_parameterTokens hps, hbody⟩

end MemberTree

theorem TypeTree.IsProper.isWritable {t : TypeTree} (h : t.IsProper) :
    ∀ u ∈ t.tokens, u.IsWritable := by
  have hmarkings : ∀ u ∈ modifierTokens t.markings ["public"], u.IsWritable :=
    isWritable_modifierTokens h.markings (List.forall_mem_singleton.2 (by decide))
  have hword : (Token.keyword t.heading.word).IsWritable := by
    cases t.heading with
    | ofClass | ofInterface => exact .keyword (by simp [Heading.word, keywords])
  have hparent : ∀ u ∈ t.heading.parentTokens, u.IsWritable := by
    have hproper := h.parent
    unfold Heading.parentTokens
    cases hparent : t.heading.parent? with
    | none => exact List.forall_mem_nil _
    | some u => exact List.forall_mem_cons.2 ⟨.keyword (by decide), (hproper u hparent).1.isWritable⟩
  simp only [tokens_eq, bodyTokens, List.forall_mem_append, List.forall_mem_cons]
  refine ⟨hmarkings, hword, .identifier h.name, hparent, .symbol (by decide), fun u hu => ?_,
    .symbol (by decide), List.forall_mem_nil _⟩
  obtain ⟨m, hm, hu⟩ := List.mem_flatMap.1 hu
  exact (h.members m hm).isWritable u hu

/-- **The tokens of a proper file can be written.** -/
theorem UnitTree.IsProper.isWritable {f : UnitTree} (h : f.IsProper) :
    ∀ u ∈ f.tokens, u.IsWritable := by
  have hnamed {path : List String} (hpath : IsNamePath path) {s : String} (hs : s ∈ keywords) :
      ∀ u ∈ .keyword s :: (pathTokens path ++ [semicolon]), u.IsWritable :=
    List.forall_mem_cons.2 ⟨.keyword hs, List.forall_mem_append.2
      ⟨isWritable_pathTokens hpath, List.forall_mem_singleton.2 (.symbol (by decide))⟩⟩
  refine List.forall_mem_append.2 ⟨?_, List.forall_mem_append.2 ⟨fun u hu => ?_, h.type.isWritable⟩⟩
  · unfold packageTokens
    split
    · exact List.forall_mem_nil _
    · exact hnamed (h.package.resolve_left ‹_›) (by decide)
  · obtain ⟨path, hpath, hu⟩ := List.mem_flatMap.1 hu
    exact hnamed (h.imports path hpath) (by decide) u hu

/-! ### Lines -/

/-- The line consists of blanks and of tokens as they are written. -/
def IsLine (line : String) (ts : List Token) : Prop :=
  ∃ before, (∀ c ∈ before, isBlank c = true) ∧ line.toList = before ++ write ts

/-- **Lines spell tokens** if each line consists of some of them. -/
inductive Spells : List String → List Token → Prop
  | nil : Spells [] []
  | cons {line : String} {ls : List String} {ts us : List Token} : IsLine line ts → Spells ls us →
      Spells (line :: ls) (ts ++ us)

theorem isLine_of_eq {line : String} {ts : List Token} (h : line.toList = write ts) :
    IsLine line ts :=
  ⟨[], List.forall_mem_nil _, h⟩

theorem isLine_empty : IsLine "" [] := isLine_of_eq rfl

namespace Spells

variable {ls ls' : List String} {ts us : List Token} {line : String}

theorem single (h : IsLine line ts) : Spells [line] ts := by
  simpa using Spells.cons h .nil

/-- Blank lines do not count. -/
theorem blank (h : Spells ls ts) : Spells ("" :: ls) ts := Spells.cons isLine_empty h

theorem append (h : Spells ls ts) (h' : Spells ls' us) : Spells (ls ++ ls') (ts ++ us) := by
  induction h with
  | nil => exact h'
  | cons hline _ ih =>
    rw [List.append_assoc, List.cons_append]
    exact .cons hline ih

/-- Lines that are made from items one by one. -/
theorem of_map {ι : Type} {xs : List ι} {line : ι → String} {tok : ι → List Token}
    (h : ∀ x ∈ xs, IsLine (line x) (tok x)) : Spells (xs.map line) (xs.flatMap tok) := by
  induction xs with
  | nil => exact .nil
  | cons x xs ih =>
    obtain ⟨hx, hxs⟩ := List.forall_mem_cons.1 h
    exact .cons hx (ih hxs)

theorem lexes (h : Spells ls ts) (hts : ∀ u ∈ ts, u.IsWritable) : Lexer.Lexes (unlines ls) ts := by
  induction h with
  | nil => exact .nil
  | @cons line ls ts us hline _ ih =>
    obtain ⟨before, hblank, hwrite⟩ := hline
    obtain ⟨hts, hus⟩ := List.forall_mem_append.1 hts
    have hnewline : isBlank '\n' = true := by decide
    have hrest : Lexer.Lexes ('\n' :: unlines ls) us := (ih hus).blank hnewline
    have hlexes := (lexes_write hts (by simpa [BlankAhead] using hnewline) hrest).blanks hblank
    simpa [unlines, hwrite] using hlexes

theorem backslash_notMem (h : Spells ls ts) (hts : ∀ u ∈ ts, u.IsWritable) :
    '\\' ∉ unlines ls := by
  induction h with
  | nil => exact List.not_mem_nil
  | @cons line ls ts us hline _ ih =>
    obtain ⟨before, hblank, hwrite⟩ := hline
    obtain ⟨hts, hus⟩ := List.forall_mem_append.1 hts
    have hbefore : '\\' ∉ before := fun hmem => absurd (hblank _ hmem) (by decide)
    have hrest := ih hus
    simp only [unlines] at hrest
    simp [unlines, hwrite, hbefore, backslash_notMem_write hts, hrest]

/-- **Lines are read as the tokens that they spell.** -/
theorem tokens_eq {text : String} (h : Spells ls ts) (hts : ∀ u ∈ ts, u.IsWritable)
    (htext : text.toList = unlines ls) : Lexer.tokens text = .ok ts :=
  Lexer.Lexes.tokens_eq (htext ▸ h.lexes hts) (htext ▸ h.backslash_notMem hts)

end Spells

end EntityScaffold.Java
