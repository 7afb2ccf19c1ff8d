import EntityScaffold.Proofs.Java.Code
import EntityScaffold.Proofs.Types.Tokens

/-!
# Members of generated types

Annotations, parameters, fields and methods as generated code has them. The tokens of a proper
member are read as a member of a class (`MemberTree.IsProper.classMember`), or as one of an
interface if it is a method without a body (`MemberTree.IsProper.interfaceMember`); a field is kept
with its name.
-/

namespace EntityScaffold.Java

open Java.Parser Java.Token Java.Grammar

/-! ### Annotations -/

/-- Annotations of generated code. -/
inductive Marking
  | plain (name : String)
  /-- An annotation with one value. -/
  | value (name text : String)
  /-- An annotation with named values. -/
  | pairs (name : String) (values : List (String × String))

namespace Marking

/-- The tokens of a named value. -/
def pairTokens (pair : String × String) : List Token :=
  [.identifier pair.1, equals, .literal pair.2]

/-- The tokens of an annotation. -/
def tokens : Marking → List Token
  | plain name => [atSign, .identifier name]
  | value name text => [atSign, .identifier name, openParen, .literal text, closeParen]
  | pairs name values =>
    atSign :: .identifier name :: openParen ::
      (separated comma (values.map pairTokens) ++ [closeParen])

/-- Names in the annotation are not reserved, and its values are literals that can be written. -/
inductive IsProper : Marking → Prop
  | plain {name : String} : IsName name → IsProper (.plain name)
  | value {name text : String} : IsName name → (Token.literal text).IsWritable →
      IsProper (.value name text)
  | pairs {name : String} {values : List (String × String)} : IsName name → values ≠ [] →
      (∀ v ∈ values, IsName v.1 ∧ (Token.literal v.2).IsWritable) → IsProper (.pairs name values)

variable {rest : List Token}

/-- A literal is read as a value of an annotation. -/
theorem takes_elementValue {n : Nat} (text : String) (hrest : Term.TermEnds rest) :
    Takes (ofDepth (n + 1)).elementValue (.literal text :: rest) rest := by
  have hstart : Term.StartsChain (ofDepth n) (.literal text :: rest) rest :=
    ⟨_, _, _, rfl, hrest.ne_nil, hrest.many⟩
  have hdeep : (ofDepth (n + 1)).elementValue = elementValuePhrase (ofDepth n) := rfl
  obtain ⟨t, us, rfl, ht⟩ := hrest
  simp only [List.mem_cons, List.not_mem_nil, or_false] at ht
  rcases ht with rfl | rfl | rfl <;>
    obtain ⟨e, he⟩ := Term.takes_operators (by simp) hstart rfl rfl <;>
    simp [Takes, hdeep, elementValuePhrase, conditionalPhrase, annotationStarts, he,
      List.isPrefixOf]

/-- **An annotation is read as one**, where neither a dot nor a parenthesis follows. -/
theorem IsProper.takes {a : Marking} (h : a.IsProper) {n : Nat}
    (hdot : rest.head? ≠ some dot) (hparen : rest.head? ≠ some openParen) :
    Takes (annotationPhrase (ofDepth (n + 1))) (a.tokens ++ rest) rest := by
  have hname {name : String} {us : List Token} (hus : us.head? ≠ some dot) :
      dottedName (.identifier name :: us) = .ok ([name], us) :=
    dottedName_pathTokens (List.cons_ne_nil name []) hus
  have hopen (name : String) (us : List Token) :
      dottedName (.identifier name :: openParen :: us) = .ok ([name], openParen :: us) :=
    hname (by simp)
  cases h with
  | @plain name hname' =>
    simp [Takes, tokens, annotationPhrase, hname hdot, isPrefixOf_singleton hparen]
  | @value name text hname' htext =>
    obtain ⟨v, hv⟩ := takes_elementValue (n := n) text
      (⟨_, rest, rfl, by decide⟩ : Term.TermEnds (closeParen :: rest))
    have hthen : nameThen equals (.literal text :: closeParen :: rest) =
        .ok (false, .literal text :: closeParen :: rest) := rfl
    simp [Takes, tokens, annotationPhrase, hopen, List.isPrefixOf, element, hthen, hv]
  | @pairs name values hname' hne hvalues =>
    have hpair : ∀ v ∈ values, ∀ us, Term.TermEnds us →
        Takes (elementPair (ofDepth (n + 1))) (pairTokens v ++ us) us := fun v hv us hus => by
      obtain ⟨e, he⟩ := takes_elementValue (n := n) v.2 hus
      simp [Takes, pairTokens, elementPair, he]
    obtain ⟨ps, hps⟩ : Takes (sepBy comma (elementPair (ofDepth (n + 1))))
        (separated comma (values.map pairTokens) ++ closeParen :: rest) (closeParen :: rest) :=
      takes_sepBy hne hpair (fun us => ⟨_, us, rfl, by decide⟩) ⟨_, rest, rfl, by decide⟩ (by simp)
    obtain ⟨v, vs, rfl⟩ := List.exists_cons_of_ne_nil hne
    simp only [List.map_cons, separated, pairTokens, List.cons_append, List.nil_append] at hps
    simp [Takes, tokens, annotationPhrase, hopen, List.isPrefixOf, element, separated, pairTokens,
      hps]

end Marking

/-- The tokens start with the sign of an annotation and its name. -/
theorem Marking.exists_cons (a : Marking) :
    ∃ name us, a.tokens = atSign :: .identifier name :: us := by
  cases a <;> exact ⟨_, _, rfl⟩

/-! ### Modifiers -/

/-- The tokens of annotations and modifiers. -/
def modifierTokens (markings : List Marking) (words : List String) : List Token :=
  markings.flatMap Marking.tokens ++ words.map .keyword

section Modifiers

variable {markings : List Marking} {words : List String} {rest : List Token} {n : Nat}
  {more : List Token → Bool}

/-- Words that modify are read one after the other. -/
theorem exists_many_words {g : Grammar} (hwords : ∀ s ∈ words, s ∈ Token.modifiers)
    (hstop : more rest = false) (hword : ∀ s ∈ words, ∀ us, more (.keyword s :: us) = true) :
    ∃ as, Many more (modifier g) (words.map .keyword ++ rest) as rest := by
  induction words with
  | nil => exact ⟨[], .done hstop⟩
  | cons s words ih =>
    obtain ⟨hs, hwords⟩ := List.forall_mem_cons.1 hwords
    obtain ⟨hmore, hword⟩ := List.forall_mem_cons.1 hword
    obtain ⟨as, has⟩ := ih hwords hword
    exact ⟨.inl s :: as, .next (hmore _) (by simp [modifier, annotationStarts, hs]) (by simp) has⟩

/-- Annotations and modifiers start neither with a dot nor with a parenthesis, so none of them goes
on with an annotation before it. -/
theorem head?_modifierTokens_append {t : Token} (markings : List Marking) (words : List String)
    (ht : t ∈ [dot, openParen]) (hrest : rest.head? ≠ some t) :
    (modifierTokens markings words ++ rest).head? ≠ some t := by
  simp only [List.mem_cons, List.not_mem_nil, or_false] at ht
  cases markings with
  | nil =>
    cases words with
    | nil => exact hrest
    | cons s words => rcases ht with rfl | rfl <;> simp [modifierTokens]
  | cons b markings =>
    obtain ⟨name, us, hus⟩ := b.exists_cons
    rcases ht with rfl | rfl <;> simp [modifierTokens, hus]

/-- **Annotations and modifiers are read one after the other**, where nothing that goes on with them
follows. -/
theorem exists_many_modifier (hmarkings : ∀ a ∈ markings, a.IsProper)
    (hwords : ∀ s ∈ words, s ∈ Token.modifiers) (hstop : more rest = false)
    (hmarking : ∀ ts, annotationStarts ts = true → more ts = true)
    (hword : ∀ s ∈ words, ∀ us, more (.keyword s :: us) = true)
    (hdot : rest.head? ≠ some dot) (hparen : rest.head? ≠ some openParen) :
    ∃ as, Many more (modifier (ofDepth (n + 1))) (modifierTokens markings words ++ rest) as
      rest := by
  induction markings with
  | nil => exact exists_many_words hwords hstop hword
  | cons a markings ih =>
    obtain ⟨ha, hmarkings⟩ := List.forall_mem_cons.1 hmarkings
    obtain ⟨as, has⟩ := ih hmarkings
    obtain ⟨x, hx⟩ := ha.takes (n := n)
      (head?_modifierTokens_append markings words (by simp) hdot)
      (head?_modifierTokens_append markings words (by simp) hparen)
    obtain ⟨name, us, hus⟩ := a.exists_cons
    have htokens : modifierTokens (a :: markings) words ++ rest =
        a.tokens ++ (modifierTokens markings words ++ rest) := by simp [modifierTokens]
    have hstarts : annotationStarts (a.tokens ++ (modifierTokens markings words ++ rest)) =
        true := by
      simp [hus, annotationStarts]
    rw [htokens]
    refine ⟨.inr x :: as, .next (hmarking _ hstarts) ?_ ?_ has⟩
    · simp [modifier, hstarts, hx]
    · rw [hus]
      simp
      omega

theorem takes_modifiers (hmarkings : ∀ a ∈ markings, a.IsProper)
    (hwords : ∀ s ∈ words, s ∈ Token.modifiers) (hstop : modifierStarts rest = false)
    (hdot : rest.head? ≠ some dot) (hparen : rest.head? ≠ some openParen) :
    Takes (Grammar.modifiers (ofDepth (n + 1))) (modifierTokens markings words ++ rest) rest := by
  obtain ⟨as, has⟩ := exists_many_modifier (n := n) hmarkings hwords hstop
    (fun _ h => by simp [modifierStarts, h])
    (fun s hs _ => by simp [modifierStarts, isModifier, hwords s hs]) hdot hparen
  simp [Takes, Grammar.modifiers, has.many_eq]

end Modifiers

/-! ### Parameters -/

/-- A parameter of a generated method. -/
structure Parameter where
  /-- The annotation of the parameter. -/
  marking : Option String
  type : ResolvedType
  name : String

namespace Parameter

/-- The tokens of a parameter. -/
def tokens (p : Parameter) : List Token :=
  modifierTokens (p.marking.toList.map .plain) [] ++ (p.type.tokens ++ [.identifier p.name])

/-- Names in the parameter are not reserved. -/
structure IsProper (p : Parameter) : Prop where
  marking : ∀ a ∈ p.marking, IsName a
  type : p.type.IsProper
  name : IsName p.name

variable {p : Parameter} {rest : List Token} {n : Nat}

/-- **A parameter is read as one**, where a parameter or the end of all follows. -/
theorem IsProper.takes (h : p.IsProper) (hn : p.type.tokens.length ≤ n + 1)
    (hrest : Term.TermEnds rest) :
    Takes (parameter (ofDepth (n + 1))) (p.tokens ++ rest) rest := by
  obtain ⟨w, us, hus, hw⟩ := h.type.exists_cons
  have hmarking : ∀ vs, annotationStarts (w :: vs) = false := fun vs => by
    unfold annotationStarts
    split
    · rename_i heq
      exact absurd (List.cons.inj heq).1 (hw.ne_symbol "@")
    · rfl
  obtain ⟨as, has⟩ : ∃ as, Many
      (fun ts => ts.head? == some (.keyword "final") || annotationStarts ts)
      (modifier (ofDepth (n + 1)))
      (modifierTokens (p.marking.toList.map .plain) [] ++
        (p.type.tokens ++ .identifier p.name :: rest)) as
      (p.type.tokens ++ .identifier p.name :: rest) := by
    have hfinal : w ≠ .keyword "final" := hw.ne_keyword "final" (by decide)
    refine exists_many_modifier (fun a ha => ?_) (List.forall_mem_nil _) ?_
      (fun ts hts => by simp [hts]) (List.forall_mem_nil _) ?_ ?_
    · obtain ⟨name, hname, rfl⟩ := List.mem_map.1 ha
      exact .plain (h.marking name (Option.mem_toList.1 hname))
    · simp [hus, hfinal, hmarking]
    · simp [hus, hw.ne_symbol]
    · simp [hus, hw.ne_symbol]
  obtain ⟨t, ht⟩ : Takes (Grammar.type (ofDepth (n + 1)))
      (p.type.tokens ++ .identifier p.name :: rest) (.identifier p.name :: rest) :=
    (h.type.takes hn (by simp [ResolvedType.TypeEnds])).1
  have hrank : rank rest = .ok (0, rest) := by
    obtain ⟨u, us, rfl, hu⟩ := hrest
    refine rank_brackets 0 ?_
    simp only [List.mem_cons, List.not_mem_nil, or_false] at hu
    rcases hu with rfl | rfl | rfl <;> simp
  simp [Takes, tokens, parameter, variableModifiers, has.many_eq, ht, List.isPrefixOf, hrank]

/-- A parameter starts with no symbol but the sign of an annotation. -/
theorem IsProper.exists_cons (h : p.IsProper) :
    ∃ w us, p.tokens = w :: us ∧ w ≠ closeParen := by
  obtain ⟨w, us, hus, hw⟩ := h.type.exists_cons
  cases hmarking : p.marking with
  | none =>
    exact ⟨w, us ++ [.identifier p.name], by simp [tokens, modifierTokens, hmarking, hus],
      hw.ne_symbol ")"⟩
  | some a =>
    refine ⟨atSign, .identifier a :: (p.type.tokens ++ [.identifier p.name]), ?_, by simp⟩
    simp [tokens, modifierTokens, hmarking, Marking.tokens]

/-- The tokens of parameters in parentheses. -/
def parameterTokens (ps : List Parameter) : List Token := Term.inParens (ps.map tokens)

/-- Parameters in parentheses are read as such. -/
theorem takes_parameters {ps : List Parameter} (h : ∀ p ∈ ps, p.IsProper)
    (hn : ∀ p ∈ ps, p.type.tokens.length ≤ n + 1) (rest : List Token) :
    Takes (parameters (ofDepth (n + 1))) (parameterTokens ps ++ rest) rest := by
  cases ps with
  | nil => simp [Takes, parameters, parameterTokens, Term.inParens, separated]
  | cons p ps =>
    obtain ⟨w, us, hus, hw⟩ := (h p List.mem_cons_self).exists_cons
    obtain ⟨es, hes⟩ : Takes (sepBy comma (parameter (ofDepth (n + 1))))
        (separated comma ((p :: ps).map tokens) ++ closeParen :: rest) (closeParen :: rest) :=
      takes_sepBy (List.cons_ne_nil p ps) (fun q hq us hus => (h q hq).takes (hn q hq) hus)
        (fun us => ⟨_, us, rfl, by decide⟩) ⟨_, rest, rfl, by decide⟩ (by simp)
    simp only [List.map_cons, separated, hus, List.cons_append, List.append_assoc] at hes
    simp [Takes, parameters, parameterTokens, Term.inParens, separated, hus, Ne.symm hw, hes]

end Parameter

/-! ### Blocks -/

/-- The tokens of a block. -/
def blockTokens (body : List Statement) : List Token :=
  openBrace :: (body.flatMap Statement.tokens ++ [closeBrace])

/-- **Proper statements in braces are read as a block.** -/
theorem takes_block {body : List Statement} (h : ∀ s ∈ body, s.IsProper) {n : Nat}
    (hn : ∀ s ∈ body, s.tokens.length ≤ n) (rest : List Token) :
    Takes (block (ofDepth n)) (blockTokens body ++ rest) rest := by
  have hstart : ∀ s ∈ body, s.tokens ≠ [] ∧ ∀ us, Statement.NoElse (s.tokens ++ us) ∧
      ((s.tokens ++ us).head? != some closeBrace) = true := fun s hs => by
    obtain ⟨w, ws, hws, hw⟩ := (h s hs).exists_cons
    simp only [List.mem_cons, List.not_mem_nil, or_false, not_or] at hw
    simp [Statement.NoElse, hws, hw]
  have hitem : ∀ s ∈ body, ∀ us, Statement.NoElse us →
      ((s.tokens ++ us).head? != some closeBrace) = true ∧
        ∃ u, True ∧ (ofDepth n).blockItem (s.tokens ++ us) = .ok (u, us) := fun s hs us hus => by
    obtain ⟨u, hu⟩ := (h s hs).takes (hn s hs) hus
    exact ⟨((hstart s hs).2 us).2, u, trivial, hu⟩
  obtain ⟨us, -, hus⟩ : ∃ us, List.Forall₂ (fun _ _ => True) body us ∧
      Many (fun ts => ts.head? != some closeBrace) (ofDepth n).blockItem
        (body.flatMap Statement.tokens ++ closeBrace :: rest) us (closeBrace :: rest) :=
    exists_many (fun s hs => (hstart s hs).1) hitem (fun s hs us => ((hstart s hs).2 us).1)
      (by simp [Statement.NoElse]) (by simp)
  simp [Takes, block, blockTokens, manyUntil, hus.many_eq]

/-! ### Members -/

/-- Members of generated types. -/
inductive MemberTree
  | field (words : List String) (type : ResolvedType) (name : String)
  /-- A constructor, which is public. -/
  | constructor (name : String) (parameters : List Parameter) (body : List Statement)
  /-- A method, which may give nothing and have no body. -/
  | method (markings : List Marking) (words : List String) (result : Option ResolvedType)
      (name : String) (parameters : List Parameter) (body : Option (List Statement))

namespace MemberTree

open Parameter (parameterTokens)

/-- The tokens of what a method gives. -/
def resultTokens : Option ResolvedType → List Token
  | none => [.keyword "void"]
  | some t => t.tokens

/-- The tokens of a body, or the semicolon in its place. -/
def bodyTokens : Option (List Statement) → List Token
  | none => [semicolon]
  | some body => blockTokens body

/-- The tokens of a member. -/
def tokens : MemberTree → List Token
  | field words type name =>
    modifierTokens [] words ++ (type.tokens ++ [.identifier name, semicolon])
  | constructor name ps body =>
    modifierTokens [] ["public"] ++ .identifier name :: (parameterTokens ps ++ blockTokens body)
  | method markings words result name ps body =>
    modifierTokens markings words ++ (resultTokens result ++
      .identifier name :: (parameterTokens ps ++ bodyTokens body))

/-- The modifiers of generated members. -/
def accessWords : List String := ["public", "private", "final"]

/-- Names in the member are not reserved, and its parts are proper. -/
inductive IsProper : MemberTree → Prop
  | field {words : List String} {type : ResolvedType} {name : String} :
      (∀ s ∈ words, s ∈ accessWords) → type.IsProper → IsName name →
      IsProper (.field words type name)
  | constructor {name : String} {ps : List Parameter} {body : List Statement} :
      IsName name → (∀ p ∈ ps, p.IsProper) → (∀ s ∈ body, s.IsProper) →
      IsProper (.constructor name ps body)
  | method {markings : List Marking} {words : List String} {result : Option ResolvedType}
      {name : String} {ps : List Parameter} {body : Option (List Statement)} :
      (∀ a ∈ markings, a.IsProper) → (∀ s ∈ words, s ∈ accessWords) →
      (∀ t ∈ result, t.IsProper) → IsName name → (∀ p ∈ ps, p.IsProper) →
      (∀ b ∈ body, ∀ s ∈ b, s.IsProper) → IsProper (.method markings words result name ps body)

variable {rest : List Token} {n : Nat}

theorem length_type_le {ps : List Parameter} {p : Parameter} (hp : p ∈ ps) :
    p.type.tokens.length + 2 ≤ (parameterTokens ps).length := by
  have hle := length_le_separated comma (List.mem_map_of_mem (f := Parameter.tokens) hp)
  simp [parameterTokens, Term.inParens, Parameter.tokens] at hle ⊢
  omega

theorem length_statement_le {body : List Statement} {s : Statement} (hs : s ∈ body) :
    s.tokens.length + 2 ≤ (blockTokens body).length := by
  obtain ⟨before, after, rfl⟩ := List.append_of_mem hs
  simp [blockTokens]
  omega

/-- Parameters and a body are read as what follows the name of a method. -/
theorem takes_methodTail {ps : List Parameter} {body : Option (List Statement)}
    (hps : ∀ p ∈ ps, p.IsProper) (hbody : ∀ b ∈ body, ∀ s ∈ b, s.IsProper)
    (hn : (parameterTokens ps ++ bodyTokens body).length ≤ n + 1) (rest : List Token) :
    Takes (methodTail (ofDepth (n + 1))) (parameterTokens ps ++ (bodyTokens body ++ rest)) rest ∧
      Takes (voidMethodTail (ofDepth (n + 1))) (parameterTokens ps ++ (bodyTokens body ++ rest))
        rest := by
  rw [List.length_append] at hn
  obtain ⟨k, hk⟩ := Parameter.takes_parameters (n := n) hps
    (fun p hp => by have := length_type_le hp; omega) (bodyTokens body ++ rest)
  cases body with
  | none =>
    have hrank : rank (semicolon :: rest) = .ok (0, semicolon :: rest) := rank_brackets 0 (by simp)
    simp only [bodyTokens, List.singleton_append] at hk ⊢
    simp [Takes, methodTail, voidMethodTail, hk, hrank, throws, List.isPrefixOf]
  | some body =>
    obtain ⟨u, hu⟩ := takes_block (hbody body rfl) (n := n + 1)
      (fun s hs => by have := length_statement_le hs; simp [bodyTokens] at hn; omega) rest
    have hrank : rank (blockTokens body ++ rest) = .ok (0, blockTokens body ++ rest) :=
      rank_brackets 0 (by simp)
    have hthrows : [Token.keyword "throws"].isPrefixOf (blockTokens body ++ rest) = false := rfl
    have hbrace : [openBrace].isPrefixOf (blockTokens body ++ rest) = true := rfl
    simp only [bodyTokens] at hk ⊢
    simp [Takes, methodTail, voidMethodTail, hk, hrank, throws, hthrows, hbrace, hu]

/-- A token after the modifiers of a member: a name, or a word that neither modifies nor declares a
type. -/
structure StartsMember (w : Token) : Prop where
  ne_symbol : ∀ s, w ≠ .symbol s
  ne_keyword : ∀ s ∈ Token.modifiers ++ ["class", "enum", "interface"], w ≠ .keyword s

theorem StartsMember.of_type {w : Token} (h : ResolvedType.StartsType w) : StartsMember w := by
  refine ⟨h.ne_symbol, fun s hs => h.ne_keyword s ?_⟩
  have hall : ∀ s ∈ Token.modifiers ++ ["class", "enum", "interface"], s ∉ basicTypes := by decide
  exact hall s hs

theorem StartsMember.identifier (name : String) : StartsMember (.identifier name) :=
  ⟨fun _ => nofun, fun _ _ => nofun⟩

theorem StartsMember.void : StartsMember (.keyword "void") := by
  refine ⟨fun _ => nofun, fun s hs heq => ?_⟩
  have hvoid : "void" ∉ Token.modifiers ++ ["class", "enum", "interface"] := by decide
  exact hvoid (Token.keyword.inj heq ▸ hs)

section Start

variable {w : Token} (hw : StartsMember w)
include hw

theorem StartsMember.takes_modifiers {markings : List Marking} {words : List String}
    (hmarkings : ∀ a ∈ markings, a.IsProper) (hwords : ∀ s ∈ words, s ∈ Token.modifiers)
    (us : List Token) :
    Takes (Grammar.modifiers (ofDepth (n + 1))) (modifierTokens markings words ++ w :: us)
      (w :: us) := by
  refine Java.takes_modifiers hmarkings hwords ?_ (by simp [hw.ne_symbol]) (by simp [hw.ne_symbol])
  cases w with
  | keyword s =>
    have hs : s ∉ Token.modifiers := fun hs =>
      hw.ne_keyword s (List.mem_append_left _ hs) rfl
    simp [modifierStarts, isModifier, annotationStarts, hs]
  | identifier | literal => rfl
  | symbol s => exact absurd rfl (hw.ne_symbol s)

/-- No type is declared. -/
theorem StartsMember.typeDecl?_eq {g : Grammar} (found : Modifiers) (us : List Token) :
    typeDecl? g found (w :: us) = .ok (none, w :: us) := by
  cases w with
  | keyword s =>
    have hne (s' : String) (hs' : s' ∈ ["class", "enum", "interface"]) : s ≠ s' := by
      rintro rfl
      exact hw.ne_keyword s (List.mem_append_right _ hs') rfl
    simp [typeDecl?, hne "class", hne "enum", hne "interface", annotationTypeStarts]
  | identifier | literal => rfl
  | symbol s => exact absurd rfl (hw.ne_symbol s)

end Start

/-- A type is no constructor: its name is not followed by a parenthesis. -/
theorem nameThen_type {t : ResolvedType} (h : t.IsProper) (name : String) (us : List Token) :
    nameThen openParen (t.tokens ++ .identifier name :: us) =
      .ok (false, t.tokens ++ .identifier name :: us) := by
  cases h with
  | @basic s rank hs =>
    have hkeyword : ∀ s ∈ basicTypes, s ∈ keywords := by decide
    rw [ResolvedType.tokens, Token.ofWord, if_pos (hkeyword s hs)]
    rfl
  | @named kind s ns args rank hs =>
    rw [ResolvedType.tokens, hs.ofWord]
    cases args with
    | cons a as => rfl
    | nil =>
      cases rank with
      | zero => rfl
      | succ rank => rfl

/-- A member that is read: of a field its name is kept, and no other member is a field or a type. -/
def IsReadAs : MemberTree → Member → Prop
  | field _ _ name, found => ∃ modifiers type, found = .fields ⟨modifiers, type, [(name, 0)]⟩
  | constructor _ _ _, found => ∃ arity, found = .constructor arity
  | method _ _ _ _ _ _, found => found = .other

/-- The name of a field. -/
def fieldName? : MemberTree → Option String
  | field _ _ name => some name
  | _ => none

/-- What stands behind the modifiers of a member. -/
def core : MemberTree → List Token
  | field _ type name => type.tokens ++ [.identifier name, semicolon]
  | constructor name ps body => .identifier name :: (parameterTokens ps ++ blockTokens body)
  | method _ _ result name ps body =>
    resultTokens result ++ .identifier name :: (parameterTokens ps ++ bodyTokens body)

def markings : MemberTree → List Marking
  | method markings _ _ _ _ _ => markings
  | _ => []

def words : MemberTree → List String
  | field words _ _ => words
  | constructor _ _ _ => ["public"]
  | method _ words _ _ _ _ => words

theorem tokens_eq (m : MemberTree) : m.tokens = modifierTokens m.markings m.words ++ m.core := by
  cases m <;> rfl

theorem IsProper.markings {m : MemberTree} (h : m.IsProper) : ∀ a ∈ m.markings, a.IsProper := by
  cases h with
  | field | constructor => exact List.forall_mem_nil _
  | method hmarkings => exact hmarkings

theorem IsProper.words {m : MemberTree} (h : m.IsProper) : ∀ s ∈ m.words, s ∈ accessWords := by
  cases h with
  | field hwords | method _ hwords => exact hwords
  | constructor => exact List.forall_mem_singleton.2 (by decide)

theorem IsProper.core_cons {m : MemberTree} (h : m.IsProper) :
    ∃ w us, m.core = w :: us ∧ StartsMember w := by
  cases h with
  | @field words type name hwords htype =>
    obtain ⟨w, us, hus, hw⟩ := htype.exists_cons
    exact ⟨w, us ++ [.identifier name, semicolon], by simp [core, hus], .of_type hw⟩
  | constructor => exact ⟨_, _, rfl, .identifier _⟩
  | @method markings words result name ps body _ _ hresult =>
    cases result with
    | none => exact ⟨_, _, rfl, .void⟩
    | some t =>
      obtain ⟨w, us, hus, hw⟩ := (hresult t rfl).exists_cons
      exact ⟨w, _, by rw [core, resultTokens, hus, List.cons_append], .of_type hw⟩

/-- What follows the type and the name of a member of a class. -/
def afterName (g : Grammar) (found : Modifiers) (type : TypeRef) (name : String) :
    Parser Member := do
  if ← ahead [openParen] then
    methodTail g
    return .other
  else
    let n ← declaratorTail g
    let more ← moreDeclarators g
    accept semicolon
    return .fields ⟨found, type, (name, n) :: more⟩

/-- A method and a field start alike, with a type and a name. -/
theorem classMemberAfter_type {t : ResolvedType} (h : t.IsProper)
    (hn : t.tokens.length ≤ n + 1) (found : Modifiers) (name : String) (us : List Token) :
    ∃ type, classMemberAfter (ofDepth (n + 1)) found (t.tokens ++ .identifier name :: us) =
      afterName (ofDepth (n + 1)) found type name us := by
  have hends : ResolvedType.TypeEnds (.identifier name :: us) := by simp [ResolvedType.TypeEnds]
  obtain ⟨type, htype⟩ := (h.takes hn hends).1
  have hthen := nameThen_type h name us
  obtain ⟨w, ws, hws, hw⟩ := h.exists_cons
  have hvoid : [Token.keyword "void"].isPrefixOf (t.tokens ++ .identifier name :: us) = false :=
    isPrefixOf_singleton (by simpa [hws] using hw.ne_keyword "void" (by decide))
  have hangle : [openAngle].isPrefixOf (t.tokens ++ .identifier name :: us) = false :=
    isPrefixOf_singleton (by simp [hws, hw.ne_symbol])
  have hdecl : typeDecl? (ofDepth (n + 1)) found (t.tokens ++ .identifier name :: us) =
      .ok (none, t.tokens ++ .identifier name :: us) := by
    rw [hws]
    exact (StartsMember.of_type hw).typeDecl?_eq found _
  refine ⟨type, ?_⟩
  simp [Grammar.classMemberAfter, afterName, hdecl, hvoid, hangle, hthen, htype]

/-- **Behind its modifiers a proper member is read as a member of a class.** -/
theorem IsProper.classMemberAfter {m : MemberTree} (h : m.IsProper)
    (hn : m.core.length ≤ n + 1) (found : Modifiers) (rest : List Token) :
    ∃ member, m.IsReadAs member ∧
      classMemberAfter (ofDepth (n + 1)) found (m.core ++ rest) = .ok (member, rest) := by
  cases h with
  | @field words type name hwords htype hname =>
    obtain ⟨t, ht⟩ := classMemberAfter_type (n := n) htype
      (by simp [core] at hn; omega) found name (semicolon :: rest)
    have hrank : rank (semicolon :: rest) = .ok (0, semicolon :: rest) := rank_brackets 0 (by simp)
    have hcomma : (semicolon :: rest).head? ≠ some comma := by simp
    refine ⟨_, ⟨found, t, rfl⟩, ?_⟩
    rw [core, List.append_assoc, List.cons_append, List.singleton_append, ht]
    simp [afterName, List.isPrefixOf, declaratorTail, hrank, moreDeclarators,
      many_head_eq_nil hcomma]
  | @constructor name ps body hname hps hbody =>
    rw [core, List.length_cons, List.length_append] at hn
    obtain ⟨k, hk⟩ := Parameter.takes_parameters (n := n) hps
      (fun p hp => by have := length_type_le hp; omega) (blockTokens body ++ rest)
    obtain ⟨u, hu⟩ := takes_block hbody (n := n + 1)
      (fun s hs => by have := length_statement_le hs; omega) rest
    have hthen (us : List Token) :
        nameThen openParen (.identifier name :: (parameterTokens ps ++ us)) =
          .ok (true, .identifier name :: (parameterTokens ps ++ us)) := rfl
    have hthrows : [Token.keyword "throws"].isPrefixOf (blockTokens body ++ rest) = false := rfl
    refine ⟨_, ⟨k, rfl⟩, ?_⟩
    simp [core, Grammar.classMemberAfter, (StartsMember.identifier name).typeDecl?_eq,
      List.isPrefixOf, hthen, constructorTail, hk, throws, hthrows, hu]
  | @method markings words result name ps body hmarkings hwords hresult hname hps hbody =>
    rw [core, List.length_append, List.length_cons] at hn
    obtain ⟨⟨u, hu⟩, ⟨v, hv⟩⟩ := takes_methodTail (n := n) hps hbody (by omega) rest
    refine ⟨.other, rfl, ?_⟩
    cases result with
    | none =>
      simp [core, resultTokens, Grammar.classMemberAfter, StartsMember.void.typeDecl?_eq, hv]
    | some t =>
      obtain ⟨type, htype⟩ := classMemberAfter_type (n := n) (hresult t rfl)
        (by simp [resultTokens] at hn; omega) found name
        (parameterTokens ps ++ (bodyTokens body ++ rest))
      have hparen : [openParen].isPrefixOf (parameterTokens ps ++ (bodyTokens body ++ rest)) =
        true := rfl
      rw [core, resultTokens, List.append_assoc, List.cons_append, List.append_assoc, htype]
      simp [afterName, hparen, hu]

/-- A member starts with no symbol but the sign of an annotation, and not with a block. -/
theorem IsProper.tokens_cons {m : MemberTree} (h : m.IsProper) :
    ∃ w us, m.tokens = w :: us ∧ w ∉ [semicolon, openBrace, closeBrace, .keyword "static"] := by
  obtain ⟨w, us, hus, hw⟩ := h.core_cons
  rw [tokens_eq, modifierTokens]
  cases m.markings with
  | cons a as =>
    obtain ⟨name, vs, hvs⟩ := a.exists_cons
    exact ⟨atSign, _, by rw [List.flatMap_cons, hvs]; rfl, by decide⟩
  | nil =>
    cases hwords : m.words with
    | cons s ss =>
      have hall : ∀ s ∈ accessWords,
          Token.keyword s ∉ [semicolon, openBrace, closeBrace, .keyword "static"] := by decide
      exact ⟨.keyword s, _, rfl, hall s (h.words s (hwords ▸ List.mem_cons_self))⟩
    | nil =>
      have hstatic : w ≠ .keyword "static" := hw.ne_keyword "static" (by decide)
      exact ⟨w, us, by simp [hus], by simp [hw.ne_symbol, hstatic]⟩

theorem IsProper.modifiers {m : MemberTree} (h : m.IsProper) (n : Nat) (rest : List Token) :
    Takes (Grammar.modifiers (ofDepth (n + 1))) (m.tokens ++ rest) (m.core ++ rest) := by
  obtain ⟨w, us, hus, hw⟩ := h.core_cons
  have hwords : ∀ s ∈ m.words, s ∈ Token.modifiers := fun s hs => by
    have hall : ∀ s ∈ accessWords, s ∈ Token.modifiers := by decide
    exact hall s (h.words s hs)
  rw [tokens_eq, List.append_assoc, hus]
  exact hw.takes_modifiers h.markings hwords (us ++ rest)

/-- **A proper member is read as a member of a class.** -/
theorem IsProper.classMember {m : MemberTree} (h : m.IsProper) (hn : m.tokens.length ≤ n + 1)
    (rest : List Token) :
    ∃ member, m.IsReadAs member ∧
      (ofDepth (n + 2)).classMember (m.tokens ++ rest) = .ok (some member, rest) := by
  obtain ⟨found, hfound⟩ := h.modifiers n rest
  obtain ⟨member, hmember, hcore⟩ := h.classMemberAfter (n := n)
    (by rw [tokens_eq, List.length_append] at hn; omega) found rest
  obtain ⟨w, us, hus, hw⟩ := h.tokens_cons
  simp only [List.mem_cons, List.not_mem_nil, or_false, not_or] at hw
  have hhead (t : Token) (ht : w ≠ t) : [t].isPrefixOf (m.tokens ++ rest) = false :=
    isPrefixOf_singleton (by simpa [hus] using ht)
  have hstatic : [.keyword "static", openBrace].isPrefixOf (m.tokens ++ rest) = false := by
    rw [hus]
    simp [List.isPrefixOf, Ne.symm hw.2.2.2]
  have hdeep : (ofDepth (n + 2)).classMember = classMemberPhrase (ofDepth (n + 1)) := rfl
  refine ⟨member, hmember, ?_⟩
  simp [hdeep, classMemberPhrase, hhead semicolon hw.1, hhead openBrace hw.2.1, hstatic, hfound,
    hcore]

/-- The member is a method without a body. -/
def IsAbstract : MemberTree → Prop
  | method _ _ _ _ _ none => True
  | _ => False

/-- What a method gives is read in an interface as it is in a class, with a phrase of its own for
methods that give nothing. -/
theorem takes_interfaceMethod {g : Grammar} {found : Modifiers} {ts : List Token}
    {result : Option ResolvedType} {name : String} {after rest : List Token}
    (hsemicolon : [semicolon].isPrefixOf ts = false)
    (hmodifiers : Grammar.modifiers g ts =
      .ok (found, resultTokens result ++ .identifier name :: after))
    (hdecl : typeDecl? g found (resultTokens result ++ .identifier name :: after) =
      .ok (none, resultTokens result ++ .identifier name :: after))
    (hproper : ∀ t ∈ result, t.IsProper)
    (htype : ∀ t ∈ result, Takes (Grammar.type g) (t.tokens ++ .identifier name :: after)
      (.identifier name :: after))
    (hparen : [openParen].isPrefixOf after = true)
    (htail : Takes (methodTail g) after rest) (hvoidTail : Takes (voidMethodTail g) after rest) :
    interfaceMemberPhrase g ts = .ok (some .other, rest) := by
  obtain ⟨u, hu⟩ := htail
  obtain ⟨v, hv⟩ := hvoidTail
  cases result with
  | none =>
    rw [resultTokens, List.singleton_append] at hmodifiers hdecl
    simp [interfaceMemberPhrase, hsemicolon, hmodifiers, hdecl, List.isPrefixOf, hv]
  | some t =>
    obtain ⟨type, htype⟩ := htype t rfl
    obtain ⟨w, ws, hws, hw⟩ := (hproper t rfl).exists_cons
    have hvoid : [Token.keyword "void"].isPrefixOf (t.tokens ++ .identifier name :: after) =
        false :=
      isPrefixOf_singleton (by simpa [hws] using hw.ne_keyword "void" (by decide))
    have hangle : [openAngle].isPrefixOf (t.tokens ++ .identifier name :: after) = false :=
      isPrefixOf_singleton (by simp [hws, hw.ne_symbol])
    rw [resultTokens] at hmodifiers hdecl
    simp [interfaceMemberPhrase, hsemicolon, hmodifiers, hdecl, hangle, hvoid, htype, hparen, hu]

/-- **A proper method without a body is read as a member of an interface.** -/
theorem IsProper.interfaceMember {m : MemberTree} (h : m.IsProper) (habstract : m.IsAbstract)
    (hn : m.tokens.length ≤ n + 1) (rest : List Token) :
    (ofDepth (n + 2)).interfaceMember (m.tokens ++ rest) = .ok (some .other, rest) := by
  obtain ⟨found, hfound⟩ := h.modifiers n rest
  obtain ⟨w, us, hus, hw⟩ := h.tokens_cons
  obtain ⟨v, vs, hvs, hv⟩ := h.core_cons
  have hdecl := hv.typeDecl?_eq (g := ofDepth (n + 1)) found (vs ++ rest)
  rw [← List.cons_append, ← hvs] at hdecl
  have hsemicolon : [semicolon].isPrefixOf (m.tokens ++ rest) = false :=
    isPrefixOf_singleton (by
      simp only [List.mem_cons, List.not_mem_nil, or_false, not_or] at hw
      simp [hus, hw.1])
  have hdeep : (ofDepth (n + 2)).interfaceMember = interfaceMemberPhrase (ofDepth (n + 1)) := rfl
  rw [tokens_eq, List.length_append] at hn
  cases h with
  | field | constructor => cases habstract
  | @method markings words result name ps body hmarkings hwords hresult hname hps hbody =>
    have hlength : (core (.method markings words result name ps body)).length ≤ n + 1 := by omega
    rw [core, List.length_append, List.length_cons] at hlength
    have hcore : core (.method markings words result name ps body) ++ rest = resultTokens result ++
        .identifier name :: (parameterTokens ps ++ (bodyTokens body ++ rest)) := by
      simp [core]
    rw [hcore] at hfound hdecl
    obtain ⟨htail, hvoidTail⟩ := takes_methodTail (n := n) hps hbody (by omega) rest
    rw [hdeep]
    refine takes_interfaceMethod hsemicolon hfound hdecl hresult (fun t ht => ?_) rfl htail hvoidTail
    obtain rfl : result = some t := ht
    exact ((hresult t rfl).takes (by simp [resultTokens] at hlength; omega)
      (by simp [ResolvedType.TypeEnds])).1

end MemberTree

end EntityScaffold.Java
