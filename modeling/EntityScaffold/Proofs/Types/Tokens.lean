import EntityScaffold.Java.CompilationUnit
import EntityScaffold.Proofs.Java.Running
import EntityScaffold.Proofs.Java.Writing
import EntityScaffold.Proofs.Source.ProperName

/-!
# Types as tokens

A resolved type is written by simple names. Its text is that of its tokens
(`ResolvedType.IsProper.writes`), and the tokens of a proper type are read as a type
(`ResolvedType.IsProper.takes`).
-/

namespace EntityScaffold

open Java Java.Token Java.Parser Java.Grammar

namespace ResolvedType

/-- Lists of tokens in angle brackets, if there are any. -/
def inAngles : List (List Token) → List Token
  | [] => []
  | x :: xs => openAngle :: (separated comma (x :: xs) ++ [closeAngle])

mutual

/-- The tokens of a type. -/
def tokens : ResolvedType → List Token
  | mk _ name _ args rank => .ofWord name :: (inAngles (tokensOfAll args) ++ brackets rank)

def tokensOfAll : List ResolvedType → List (List Token)
  | [] => []
  | t :: ts => t.tokens :: tokensOfAll ts

end

theorem tokensOfAll_eq_map (ts : List ResolvedType) : tokensOfAll ts = ts.map tokens := by
  induction ts with
  | nil => rfl
  | cons t ts ih => rw [tokensOfAll, ih, List.map_cons]

/-! ### Written types -/

theorem isWord_ofWord {name : String} (h : IsName name ∨ name ∈ basicTypes) :
    (Token.ofWord name).isWord = true := by
  rcases h with h | h
  · rw [h.ofWord]
    rfl
  · have hall : ∀ s ∈ basicTypes, (Token.ofWord s).isWord = true := by decide
    exact hall name h

theorem writeAfter_brackets {t : Token}
    (ht : t.isWord = true ∨ t = closeAngle ∨ t = closeBracket) (n : Nat) :
    writeAfter t (brackets n) = (Text.replicate n "[]").toList := by
  have hgap : gap t openBracket = [] := by
    rcases ht with ht | rfl | rfl
    · cases t <;> first | rfl | cases ht
    · rfl
    · rfl
  induction n generalizing t with
  | zero => rfl
  | succ n ih =>
    have hrest := ih (t := closeBracket) (.inr (.inr rfl)) rfl
    have hclose : gap openBracket closeBracket = [] := rfl
    simp [brackets_succ, writeAfter, hgap, hclose, hrest, Text.replicate,
      List.replicate_succ]

/-- Types in angle brackets are written with commas between them. -/
theorem writeAfter_separated {a : ResolvedType} {as : List ResolvedType}
    (h : ∀ t ∈ a :: as, WritesAsWord t.tokens ∧ write t.tokens = t.render.toList) (t : Token)
    (vs : List Token) :
    writeAfter t (separated comma ((a :: as).map tokens) ++ closeAngle :: vs) =
      gap t (.identifier "") ++ (renderAll (a :: as)).toList ++ '>' :: writeAfter closeAngle vs := by
  have hangle : gap (.identifier "") closeAngle = [] := rfl
  have hcomma : gap (.identifier "") comma = [] := rfl
  have hblank : gap comma (.identifier "") = [' '] := rfl
  induction as generalizing a t with
  | nil =>
    obtain ⟨hword, hwrite⟩ := h a List.mem_cons_self
    have hafter := hword t (closeAngle :: vs) (by simp)
    simp [separated, hafter, hwrite, renderAll, writeAfter, hangle]
  | cons b bs ih =>
    obtain ⟨⟨hword, hwrite⟩, hbs⟩ := List.forall_mem_cons.1 h
    have hrest := ih hbs comma
    simp only [List.map_cons, separated, List.flatMap_cons, List.append_assoc,
      List.cons_append] at hrest ⊢
    rw [hword t _ (by simp), hwrite, writeAfter, hcomma, hrest, hblank]
    simp [renderAll]

theorem getLast?_brackets (n : Nat) :
    (brackets (n + 1)).getLast? = some closeBracket := by
  rw [brackets, List.replicate_succ', List.flatten_append, List.flatten_singleton,
    List.getLast?_append]
  rfl

/-- A name, its type arguments and its brackets are written as a type is. -/
theorem writes_mk {kind : Kind} {name ns : String} {args : List ResolvedType} {rank : Nat}
    (hname : (Token.ofWord name).isWord = true)
    (hargs : ∀ a ∈ args, WritesAsWord a.tokens ∧ write a.tokens = a.render.toList) :
    WritesAsWord (mk kind name ns args rank).tokens ∧
      write (mk kind name ns args rank).tokens = (mk kind name ns args rank).render.toList := by
  cases args with
  | nil =>
    refine ⟨writesAsWord_of_ends ⟨.ofWord name, rfl, hname⟩ ?_, ?_⟩
    · cases rank with
      | zero => exact ⟨.ofWord name, rfl, .inl hname⟩
      | succ rank =>
        refine ⟨closeBracket, ?_, .inr (by decide)⟩
        simp [tokens, tokensOfAll, inAngles, List.getLast?_cons, getLast?_brackets]
    · simp [tokens, tokensOfAll, inAngles, write, render, writeAfter_brackets (.inl hname)]
  | cons a as =>
    have hangle : gap (.ofWord name) openAngle = [] := by
      cases hword : Token.ofWord name <;> first | rfl | (rw [hword] at hname; cases hname)
    have hopen : gap openAngle (.identifier "") = [] := rfl
    have hinside := writeAfter_separated hargs openAngle (brackets rank)
    rw [writeAfter_brackets (.inr (.inl rfl)), hopen] at hinside
    refine ⟨writesAsWord_of_ends ⟨.ofWord name, rfl, hname⟩ ?_, ?_⟩
    · cases rank with
      | zero =>
        refine ⟨closeAngle, ?_, .inr (by decide)⟩
        simp [tokens, tokensOfAll, inAngles, List.getLast?_cons]
      | succ rank =>
        refine ⟨closeBracket, ?_, .inr (by decide)⟩
        simp [tokens, tokensOfAll, inAngles, List.getLast?_cons, getLast?_brackets]
    · simp only [List.map_cons] at hinside
      simp [tokens, tokensOfAll, tokensOfAll_eq_map, inAngles, write, writeAfter, hangle, render,
        hinside]

/-- **A proper type is written by its tokens**, which stand among others as one word does. -/
theorem IsProper.writes {t : ResolvedType} (h : t.IsProper) :
    WritesAsWord t.tokens ∧ write t.tokens = t.render.toList := by
  induction h with
  | basic hname => exact writes_mk (isWord_ofWord (.inr hname)) (List.forall_mem_nil _)
  | named hname _ _ _ ih => exact writes_mk (isWord_ofWord (.inl hname)) ih

theorem isWritable_ofWord {name : String} (h : IsName name ∨ name ∈ basicTypes) :
    (Token.ofWord name).IsWritable := by
  rcases h with h | h
  · rw [h.ofWord]
    exact .identifier h
  · have hkeyword : ∀ s ∈ basicTypes, s ∈ keywords := by decide
    rw [Token.ofWord, if_pos (hkeyword name h)]
    exact .keyword (hkeyword name h)

theorem isWritable_of_mem_brackets {n : Nat} {u : Token} (h : u ∈ brackets n) : u.IsWritable := by
  obtain ⟨pair, hpair, hu⟩ := List.mem_flatten.1 h
  rw [List.eq_of_mem_replicate hpair] at hu
  have hsymbols : ∀ u ∈ [openBracket, closeBracket], ∃ s ∈ plainSymbols, u = .symbol s := by decide
  obtain ⟨s, hs, rfl⟩ := hsymbols u hu
  exact .symbol hs

theorem IsProper.isWritable {t : ResolvedType} (h : t.IsProper) :
    ∀ u ∈ t.tokens, u.IsWritable := by
  have hmk {kind : Kind} {name ns : String} {args : List ResolvedType} {rank : Nat}
      (hname : IsName name ∨ name ∈ basicTypes)
      (hargs : ∀ a ∈ args, ∀ u ∈ a.tokens, u.IsWritable) :
      ∀ u ∈ (mk kind name ns args rank).tokens, u.IsWritable := by
    intro u hu
    rw [tokens, tokensOfAll_eq_map, List.mem_cons, List.mem_append] at hu
    rcases hu with rfl | hu | hu
    · exact isWritable_ofWord hname
    · cases args with
      | nil => cases hu
      | cons a as =>
        rw [List.map_cons, inAngles, List.mem_cons, List.mem_append, List.mem_singleton] at hu
        rcases hu with rfl | hu | rfl
        · exact .symbol (by decide)
        · rcases mem_separated hu with rfl | ⟨x, hx, hu⟩
          · exact .symbol (by decide)
          · rw [← List.map_cons (f := tokens)] at hx
            obtain ⟨b, hb, rfl⟩ := List.mem_map.1 hx
            exact hargs b hb u hu
        · exact .symbol (by decide)
    · exact isWritable_of_mem_brackets hu
  induction h with
  | basic hname => exact hmk (.inr hname) (List.forall_mem_nil _)
  | named hname _ _ _ ih => exact hmk (.inl hname) ih

/-! ### Types that are read -/

/-- What follows a type does not go on with it. -/
def TypeEnds (rest : List Token) : Prop :=
  ∀ t ∈ rest.head?, t ∉ [dot, openAngle, openBracket]

/-- A token that types start with: a name, or the word of a basic type. -/
structure StartsType (w : Token) : Prop where
  ne_symbol : ∀ s, w ≠ .symbol s
  ne_keyword : ∀ s, s ∉ basicTypes → w ≠ .keyword s

theorem IsProper.exists_cons {t : ResolvedType} (h : t.IsProper) :
    ∃ w us, t.tokens = w :: us ∧ StartsType w := by
  have hword {name : String} (hname : IsName name ∨ name ∈ basicTypes) :
      StartsType (.ofWord name) := by
    rcases hname with hname | hname
    · rw [hname.ofWord]
      exact ⟨by rintro s ⟨⟩, by rintro s - ⟨⟩⟩
    · have hkeyword : ∀ s ∈ basicTypes, s ∈ keywords := by decide
      rw [Token.ofWord, if_pos (hkeyword name hname)]
      refine ⟨by rintro s ⟨⟩, fun s hs heq => hs ?_⟩
      exact Token.keyword.inj heq ▸ hname
  cases h with
  | basic hname => exact ⟨_, _, rfl, hword (.inr hname)⟩
  | named hname => exact ⟨_, _, rfl, hword (.inl hname)⟩

variable {g : Grammar} {rest : List Token}

/-- A class or an array is read as a type argument. -/
theorem takes_typeArgument {a : ResolvedType} (ha : a.IsProper)
    (h : Takes (elementType g) (a.tokens ++ rest) rest) :
    Takes (typeArgument g) (a.tokens ++ rest) rest := by
  obtain ⟨w, us, htokens, hword⟩ := ha.exists_cons
  obtain ⟨r, hr⟩ := h
  have hquestion : [question].isPrefixOf (a.tokens ++ rest) = false := by
    rw [htokens]
    exact isPrefixOf_singleton (by simp [hword.ne_symbol])
  simp [Takes, typeArgument, hquestion, hr]

/-- Types in angle brackets are read as type arguments. -/
theorem takes_typeArguments {a : ResolvedType} {as : List ResolvedType}
    (hproper : ∀ b ∈ a :: as, b.IsProper)
    (hargs : ∀ b ∈ a :: as, ∀ us, TypeEnds us → Takes (elementType g) (b.tokens ++ us) us) :
    Takes (typeArguments g) (inAngles ((a :: as).map tokens) ++ rest) rest := by
  have hsep : Takes (sepBy comma (typeArgument g))
      (separated comma ((a :: as).map tokens) ++ closeAngle :: rest) (closeAngle :: rest) :=
    takes_sepBy (List.cons_ne_nil a as)
      (fun b hb us hus => takes_typeArgument (hproper b hb) (hargs b hb us hus))
      (by simp [TypeEnds]) (by simp [TypeEnds]) (by simp)
  obtain ⟨rs, hrs⟩ := hsep
  rw [List.map_cons] at hrs
  simp [Takes, typeArguments, inAngles, hrs]

/-- A name with its type arguments is read as a class. -/
theorem takes_referenceType {name : String} {args : List ResolvedType}
    (hname : IsName name) (hproper : ∀ a ∈ args, a.IsProper)
    (hargs : ∀ a ∈ args, ∀ us, TypeEnds us → Takes (elementType g) (a.tokens ++ us) us)
    (hdot : rest.head? ≠ some dot) (hangle : rest.head? ≠ some openAngle) :
    Takes (referenceType g) (.ofWord name :: (inAngles (args.map tokens) ++ rest)) rest := by
  rw [hname.ofWord]
  cases args with
  | nil =>
    have hahead := isPrefixOf_singleton hangle
    simp [Takes, referenceType, dottedType, namePart, inAngles, hahead, many_head_eq_nil hdot]
  | cons a as =>
    obtain ⟨rs, hrs⟩ : Takes (typeArguments g) (inAngles ((a :: as).map tokens) ++ rest) rest :=
      takes_typeArguments hproper hargs
    have hahead : [openAngle].isPrefixOf (inAngles ((a :: as).map tokens) ++ rest) = true := by
      simp [inAngles]
    simp only [Takes, referenceType, dottedType, namePart, bind_apply, name_identifier,
      ahead_apply, hahead, if_true, hrs]
    simp [many_head_eq_nil hdot]

theorem head?_brackets_append {n : Nat} {t : Token} (ht : t ≠ openBracket)
    (hrest : rest.head? ≠ some t) : (brackets n ++ rest).head? ≠ some t := by
  cases n with
  | zero => exact hrest
  | succ n => simpa [brackets_succ] using ht.symm

/-- A type argument has fewer tokens than the type. -/
theorem length_tokens_lt {kind : Kind} {name ns : String} {args : List ResolvedType} {rank : Nat}
    {a : ResolvedType} (ha : a ∈ args) :
    a.tokens.length < (mk kind name ns args rank).tokens.length := by
  have hle := length_le_separated comma (List.mem_map_of_mem (f := tokens) ha)
  cases args with
  | nil => cases ha
  | cons b bs =>
    rw [List.map_cons] at hle
    simp [tokens, tokensOfAll, tokensOfAll_eq_map, inAngles]
    omega

/-- A basic type, or an array of one, is read as a type. An array of it is an element as well. -/
theorem takes_basic {name : String} (hname : name ∈ basicTypes) (rank : Nat)
    (hbracket : rest.head? ≠ some openBracket) :
    Takes (type g) ((mk .primitive name "" [] rank).tokens ++ rest) rest ∧
      (rank ≠ 0 → Takes (elementType g) ((mk .primitive name "" [] rank).tokens ++ rest) rest) := by
  have hword : Token.ofWord name = .keyword name := by
    have hkeyword : ∀ s ∈ basicTypes, s ∈ keywords := by decide
    rw [Token.ofWord, if_pos (hkeyword name hname)]
  have hbasic : (Token.keyword name).isBasicType = true := by simpa [isBasicType] using hname
  constructor
  · have hrank := rank_brackets rank hbracket
    simp [Takes, tokens, tokensOfAll, inAngles, hword, type, hbasic, basicType, hname, hrank]
  · intro hne
    obtain ⟨rank, rfl⟩ := Nat.exists_eq_succ_of_ne_zero hne
    have hrank := rank_brackets rank hbracket
    simp [Takes, tokens, tokensOfAll, inAngles, hword, elementType, hbasic, basicType, hname,
      hrank, brackets_succ]

/-- **A proper type is read as a type**, and as the element of a list of types if it is a class or
an array. The grammar needs no more depth than the type has tokens. -/
theorem IsProper.takes {t : ResolvedType} (h : t.IsProper) {n : Nat} (hn : t.tokens.length ≤ n)
    (hrest : TypeEnds rest) :
    Takes (type (ofDepth n)) (t.tokens ++ rest) rest ∧
      (t.IsElement → Takes (elementType (ofDepth n)) (t.tokens ++ rest) rest) := by
  have hdot : rest.head? ≠ some dot := fun h => hrest dot h (by decide)
  have hangle : rest.head? ≠ some openAngle := fun h => hrest openAngle h (by decide)
  have hbracket : rest.head? ≠ some openBracket := fun h => hrest openBracket h (by decide)
  induction h generalizing n rest with
  | @basic name rank hname =>
    obtain ⟨htype, helement⟩ := takes_basic (g := ofDepth n) hname rank hbracket
    refine ⟨htype, ?_⟩
    rintro (hne | hname')
    · exact helement hne
    · exact absurd hname (IsQualified.name hname').notMem_basicTypes
  | @named kind name ns args rank hname hns hargs helement ih =>
    have hword : (Token.ofWord name).isBasicType = false := by simp [hname.ofWord, isBasicType]
    have hname' : (Token.ofWord name).isIdentifier = true := by
      simp [hname.ofWord, Token.isIdentifier]
    have htokens : (mk kind name ns args rank).tokens ++ rest =
        .ofWord name :: (inAngles (args.map tokens) ++ (brackets rank ++ rest)) := by
      simp [tokens, tokensOfAll_eq_map]
    -- A type reads its arguments on its own level, an element one level below: both need them.
    have hreference : ∀ m, (∀ a ∈ args, a.tokens.length ≤ m) →
        Takes (referenceType (ofDepth m)) ((mk kind name ns args rank).tokens ++ rest)
          (brackets rank ++ rest) := by
      intro m hm
      rw [htokens]
      refine takes_referenceType hname hargs (fun a ha us hus => ?_)
        (head?_brackets_append (by decide) hdot) (head?_brackets_append (by decide) hangle)
      have hends : ∀ t ∈ [dot, openAngle, openBracket], us.head? ≠ some t :=
        fun t ht h => hus t h ht
      exact (ih a ha (hm a ha) hus (hends dot (by simp)) (hends openAngle (by simp))
        (hends openBracket (by simp))).2 (helement a ha)
    have hlt : ∀ a ∈ args, a.tokens.length < n := fun a ha =>
      Nat.lt_of_lt_of_le (length_tokens_lt ha) hn
    have hrank := rank_brackets rank hbracket
    constructor
    · obtain ⟨r, hr⟩ := hreference n fun a ha => Nat.le_of_lt (hlt a ha)
      rw [htokens] at hr ⊢
      simp [Takes, type, hword, hname', hr, hrank]
    · intro _
      have hpos : 0 < n := Nat.lt_of_lt_of_le (by simp [tokens]) hn
      obtain ⟨n, rfl⟩ := Nat.exists_eq_succ_of_ne_zero (Nat.ne_of_gt hpos)
      obtain ⟨r, hr⟩ := hreference n fun a ha => Nat.le_of_lt_succ (hlt a ha)
      have hdeep : (ofDepth (n + 1)).reference = referenceType (ofDepth n) := rfl
      rw [htokens] at hr ⊢
      simp [Takes, elementType, hword, hdeep, hr, hrank]

end ResolvedType

end EntityScaffold
