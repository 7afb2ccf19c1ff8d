import EntityScaffold.Proofs.Java.Term

/-!
# Statements of generated code

The statements that bodies of generated methods consist of. The tokens of a proper statement are
read as an item of a block (`Statement.IsProper.takes`). A call that is a statement starts with a
name, so it is first tried as a declaration of variables; that reading ends at its parenthesis
(`localVariables_pathTokens`).
-/

namespace EntityScaffold.Java

open Java.Parser Java.Token Java.Grammar

/-- Statements of generated code. -/
inductive Statement
  | result (value : Term)
  | raise (value : Term)
  /-- A call of a method by a dotted name. -/
  | perform (path : List String) (arguments : List Term)
  /-- An assignment to a member of the current object. -/
  | assign (member : String) (value : Term)
  /-- The declaration of a variable with a value. -/
  | declare (type name : String) (value : Term)
  /-- A statement under a condition. -/
  | guard (condition : Term) (body : Statement)

namespace Statement

/-- The tokens of a statement. -/
def tokens : Statement → List Token
  | result value => .keyword "return" :: (value.tokens ++ [semicolon])
  | raise value => .keyword "throw" :: (value.tokens ++ [semicolon])
  | perform path args => (Term.call path args).tokens ++ [semicolon]
  | assign member value =>
    .keyword "this" :: dot :: .identifier member :: equals :: (value.tokens ++ [semicolon])
  | declare type name value =>
    .identifier type :: .identifier name :: equals :: (value.tokens ++ [semicolon])
  | guard condition body =>
    .keyword "if" :: openParen :: (condition.tokens ++
      closeParen :: openBrace :: (body.tokens ++ [closeBrace]))

/-- Names in the statement are not reserved, and its terms are proper. -/
inductive IsProper : Statement → Prop
  | result {value : Term} : value.IsProper → IsProper (.result value)
  | raise {value : Term} : value.IsProper → IsProper (.raise value)
  | perform {path : List String} {args : List Term} : (Term.call path args).IsProper →
      IsProper (.perform path args)
  | assign {member : String} {value : Term} : IsName member → value.IsProper →
      IsProper (.assign member value)
  | declare {type name : String} {value : Term} : IsName type → IsName name → value.IsProper →
      IsProper (.declare type name value)
  | guard {condition : Term} {body : Statement} : condition.IsProper → IsProper body →
      IsProper (.guard condition body)

theorem termEnds_semicolon (rest : List Token) : Term.TermEnds (semicolon :: rest) :=
  ⟨_, rest, rfl, by decide⟩

/-- No statement is an alternative. -/
def NoElse (rest : List Token) : Prop := rest.head? ≠ some (.keyword "else")

variable {g : Grammar} {rest : List Token}

/-- A dotted name is read as a class. -/
theorem takes_dottedType {arguments : Parser (List TypeArgument)} {path : List String}
    (hpath : path ≠ []) (hdot : rest.head? ≠ some dot) (hangle : rest.head? ≠ some openAngle) :
    Takes (dottedType arguments) (pathTokens path ++ rest) rest := by
  obtain ⟨first, more, rfl⟩ := List.exists_cons_of_ne_nil hpath
  have hahead (more : List String) : [openAngle].isPrefixOf
      ((more.flatMap fun s => [dot, .identifier s]) ++ rest) = false := by
    cases more with
    | nil => exact isPrefixOf_singleton hangle
    | cons s more => rfl
  have hmany : ∃ parts, Many (fun ts => ts.head? == some dot) (do accept dot; namePart arguments)
      ((more.flatMap fun s => [dot, .identifier s]) ++ rest) parts rest := by
    induction more with
    | nil => exact ⟨[], .done (by simpa using hdot)⟩
    | cons s more ih =>
      obtain ⟨parts, hparts⟩ := ih (List.cons_ne_nil _ _)
      exact ⟨(s, []) :: parts, .next rfl (by simp [namePart, hahead more])
        (length_names_lt s more rest) hparts⟩
  obtain ⟨parts, hparts⟩ := hmany
  have hfirst : namePart arguments
      (.identifier first :: ((more.flatMap fun s => [dot, .identifier s]) ++ rest)) =
        .ok ((first, []), (more.flatMap fun s => [dot, .identifier s]) ++ rest) := by
    simp [namePart, hahead more]
  simp [Takes, dottedType, pathTokens_cons, hfirst, hparts.many_eq]

/-- A call is no declaration of variables: it has a parenthesis for a name. -/
theorem localVariables_pathTokens {path : List String} (hpath : path ≠ []) (rest : List Token) :
    localVariables g (pathTokens path ++ openParen :: rest) = .error .unexpected := by
  obtain ⟨t, ht⟩ : Takes (referenceType g) (pathTokens path ++ openParen :: rest)
      (openParen :: rest) := takes_dottedType hpath (by simp) (by simp)
  obtain ⟨first, more, rfl⟩ := List.exists_cons_of_ne_nil hpath
  rw [pathTokens_cons, List.cons_append] at ht ⊢
  have hmodifiers (us : List Token) : many (fun ts : List Token =>
      ts.head? == some (.keyword "final") || annotationStarts ts) (modifier g)
        (.identifier first :: us) = .ok ([], .identifier first :: us) :=
    many_eq_nil (by simp [annotationStarts])
  have hrank : rank (openParen :: rest) = .ok (0, openParen :: rest) := rank_brackets 0 (by simp)
  simp [localVariables, variableModifiers, hmodifiers, type, isBasicType, Token.isIdentifier, ht,
    hrank, sepBy, declarator]

/-- A term and a semicolon are read as an expression that is a statement. -/
theorem takes_expressionStatement {t : Term} (h : t.IsProper) {n : Nat}
    (hn : t.tokens.length ≤ n + 1) (rest : List Token) :
    Takes (expressionStatement (ofDepth n)) (t.tokens ++ semicolon :: rest) rest := by
  obtain ⟨e, he⟩ := h.reads.expression hn (termEnds_semicolon rest)
  have hdeep : (ofDepth (n + 1)).expression = expressionPhrase (ofDepth n) := rfl
  rw [hdeep] at he
  simp [Takes, expressionStatement, he]

/-- An assignment to a member is read as an expression that is a statement. -/
theorem takes_assignment {name : String} {value : Term} (h : value.IsProper) {n : Nat}
    (hn : value.tokens.length ≤ n) :
    Takes (expressionStatement (ofDepth n)) ((assign name value).tokens ++ rest) rest := by
  obtain ⟨e, he⟩ := h.reads.expression hn (termEnds_semicolon rest)
  have hmember : Many selectorStarts (Term.member (ofDepth n))
      (dot :: .identifier name :: equals :: (value.tokens ++ semicolon :: rest)) [.field name]
      (equals :: (value.tokens ++ semicolon :: rest)) :=
    .next rfl rfl (by simp) (Term.many_nil (by decide))
  have hstart : Term.StartsChain (ofDepth n)
      (.keyword "this" :: dot :: .identifier name :: equals :: (value.tokens ++ semicolon :: rest))
      (equals :: (value.tokens ++ semicolon :: rest)) :=
    ⟨.this none, _, _, rfl, List.cons_ne_nil _ _, hmember⟩
  obtain ⟨o, ho⟩ := Term.takes_operators (by simp) hstart rfl rfl
  simp [Takes, expressionStatement, expressionPhrase, conditionalPhrase, tokens, ho,
    List.isPrefixOf, isSymbolIn, assignmentOps, he]

/-- The declaration of a variable is read as one. -/
theorem takes_localVariables {type name : String} {value : Term} (h : value.IsProper) {n : Nat}
    (hn : value.tokens.length ≤ n) :
    Takes (localVariables (ofDepth n)) ((declare type name value).tokens ++ rest) rest := by
  obtain ⟨w, us, hus, hw⟩ := h.exists_cons
  obtain ⟨m, rfl⟩ := Nat.exists_eq_add_of_le' (Nat.le_trans (by simp [hus]) hn : 1 ≤ n)
  obtain ⟨e, he⟩ := h.reads.expression hn (termEnds_semicolon rest)
  obtain ⟨t, ht⟩ : Takes (referenceType (ofDepth (m + 1)))
      (.identifier type :: .identifier name :: equals :: (value.tokens ++ semicolon :: rest))
      (.identifier name :: equals :: (value.tokens ++ semicolon :: rest)) :=
    takes_dottedType (List.cons_ne_nil type []) (by simp) (by simp)
  have hmodifiers (us : List Token) : many (fun ts : List Token =>
      ts.head? == some (.keyword "final") || annotationStarts ts) (modifier (ofDepth (m + 1)))
        (.identifier type :: us) = .ok ([], .identifier type :: us) :=
    many_eq_nil (by simp [annotationStarts])
  have hrank {u : Token} (hu : u ≠ openBracket) (us : List Token) :
      rank (u :: us) = .ok (0, u :: us) := rank_brackets 0 (by simpa using hu)
  have hinitial : (ofDepth (m + 1)).initial (value.tokens ++ semicolon :: rest) =
      .ok ((), semicolon :: rest) := by
    have hbrace : [openBrace].isPrefixOf (value.tokens ++ semicolon :: rest) = false := by
      rw [hus]
      exact isPrefixOf_singleton (by simp [hw])
    have hdeep : (ofDepth (m + 1)).initial = initialPhrase (ofDepth m) := rfl
    have hdeep' : (ofDepth (m + 1)).expression = expressionPhrase (ofDepth m) := rfl
    rw [hdeep'] at he
    simp [hdeep, initialPhrase, hbrace, he]
  have hcomma : (semicolon :: rest).head? ≠ some comma := by simp
  simp [Takes, tokens, localVariables, variableModifiers, hmodifiers, Grammar.type, isBasicType,
    Token.isIdentifier, ht, hrank, sepBy, declarator, declaratorTail, List.isPrefixOf, hinitial,
    many_head_eq_nil hcomma]

/-- A statement starts with neither the end of a block nor an alternative. -/
theorem IsProper.exists_cons {s : Statement} (h : s.IsProper) :
    ∃ w us, s.tokens = w :: us ∧ w ∉ [closeBrace, .keyword "else"] := by
  cases h with
  | result | raise | assign | declare | guard => exact ⟨_, _, rfl, by simp⟩
  | @perform path args hcall =>
    cases hcall with
    | call hpath =>
      obtain ⟨first, more, rfl⟩ := List.exists_cons_of_ne_nil hpath.ne_nil
      exact ⟨_, _, by rw [tokens, Term.tokens, pathTokens_cons]; rfl, by simp⟩

theorem pathTokens_append_openParen {path : List String} (hpath : path ≠ []) (rest : List Token) :
    ∃ first t us, t ∈ [dot, openParen] ∧
      pathTokens path ++ openParen :: rest = .identifier first :: t :: us := by
  obtain ⟨first, more, rfl⟩ := List.exists_cons_of_ne_nil hpath
  rw [pathTokens_cons]
  cases more with
  | nil => exact ⟨first, openParen, rest, by simp, rfl⟩
  | cons s more => exact ⟨first, dot, _, by simp, rfl⟩

/-- What starts like a call is read as a statement if it declares nothing. -/
theorem blockItemPhrase_of_call {first : String} {t : Token} (ht : t ∈ [dot, openParen])
    {us : List Token} (h : localVariables g (.identifier first :: t :: us) = .error .unexpected) :
    blockItemPhrase g (.identifier first :: t :: us) =
      expressionStatement g (.identifier first :: t :: us) := by
  simp only [List.mem_cons, List.not_mem_nil, or_false] at ht
  have hattempt : attempt (localVariables g) (.identifier first :: t :: us) =
      .ok (none, .identifier first :: t :: us) := by simp [attempt, h]
  have hitem : itemAhead (.identifier first :: t :: us) = .variablesOrStatement := by
    rcases ht with rfl | rfl <;> rfl
  have hstatement : statementPhrase g (.identifier first :: t :: us) =
      expressionStatement g (.identifier first :: t :: us) := by
    rcases ht with rfl | rfl <;> rfl
  simp [blockItemPhrase, hitem, hattempt, hstatement]

/-! ### Statements, one form at a time -/

/-- A result that a method gives. -/
theorem takes_result {value : Term} (h : value.IsProper) {n : Nat}
    (hn : (result value).tokens.length ≤ n) (rest : List Token) :
    Takes (ofDepth n).blockItem ((result value).tokens ++ rest) rest := by
  rw [tokens, List.length_cons, List.length_append, List.length_singleton] at hn
  obtain ⟨m, rfl⟩ := Nat.exists_eq_add_of_le' (Nat.le_trans (by omega) hn : 1 ≤ n)
  obtain ⟨e, he⟩ := h.reads.expression (n := m) (by omega) (termEnds_semicolon rest)
  have hrun (us : List Token) : (ofDepth (m + 1)).blockItem (.keyword "return" :: us) =
    statementAfter (ofDepth m) "return" us := rfl
  -- A semicolon right after the word would be a result without a value.
  have hahead : [semicolon].isPrefixOf (value.tokens ++ semicolon :: rest) = false := by
    obtain ⟨w, us, hus, hw⟩ := h.exists_cons
    rw [hus]
    exact isPrefixOf_singleton (by simp [hw])
  simp [Takes, tokens, hrun, statementAfter, unlessAt, hahead, he]

/-- A failure that a method ends with. -/
theorem takes_raise {value : Term} (h : value.IsProper) {n : Nat}
    (hn : (raise value).tokens.length ≤ n) (rest : List Token) :
    Takes (ofDepth n).blockItem ((raise value).tokens ++ rest) rest := by
  rw [tokens, List.length_cons, List.length_append, List.length_singleton] at hn
  obtain ⟨m, rfl⟩ := Nat.exists_eq_add_of_le' (Nat.le_trans (by omega) hn : 1 ≤ n)
  obtain ⟨e, he⟩ := h.reads.expression (n := m) (by omega) (termEnds_semicolon rest)
  have hrun (us : List Token) : (ofDepth (m + 1)).blockItem (.keyword "throw" :: us) =
    statementAfter (ofDepth m) "throw" us := rfl
  simp [Takes, tokens, hrun, statementAfter, he]

/-- A call that is a statement. It is tried as a declaration first, to no avail. -/
theorem takes_perform {path : List String} {args : List Term} (h : (Term.call path args).IsProper)
    {n : Nat} (hn : (perform path args).tokens.length ≤ n) (rest : List Token) :
    Takes (ofDepth n).blockItem ((perform path args).tokens ++ rest) rest := by
  rw [tokens, List.length_append, List.length_singleton] at hn
  obtain ⟨m, rfl⟩ := Nat.exists_eq_add_of_le' (Nat.le_trans (by omega) hn : 1 ≤ n)
  have htakes := takes_expressionStatement h (n := m) (by omega) rest
  have hdeep : (ofDepth (m + 1)).blockItem = blockItemPhrase (ofDepth m) := rfl
  have htokens : (Term.call path args).tokens ++ semicolon :: rest = pathTokens path ++
      openParen :: (separated comma (args.map Term.tokens) ++ closeParen :: semicolon :: rest) := by
    simp [Term.tokens, Term.tokensOfAll_eq_map, Term.inParens]
  rw [tokens, List.append_assoc, List.singleton_append, hdeep]
  rw [htokens] at htakes ⊢
  cases h with
  | call hpath =>
    have hlocal := localVariables_pathTokens (g := ofDepth m) hpath.ne_nil
      (separated comma (args.map Term.tokens) ++ closeParen :: semicolon :: rest)
    obtain ⟨first, t, us, ht, hus⟩ := pathTokens_append_openParen hpath.ne_nil
      (separated comma (args.map Term.tokens) ++ closeParen :: semicolon :: rest)
    rw [hus] at hlocal htakes ⊢
    rwa [Takes, blockItemPhrase_of_call ht hlocal]

/-- A variable that is declared with a value. -/
theorem takes_declare {type name : String} {value : Term} (h : value.IsProper) {n : Nat}
    (hn : (declare type name value).tokens.length ≤ n) (rest : List Token) :
    Takes (ofDepth n).blockItem ((declare type name value).tokens ++ rest) rest := by
  obtain ⟨m, rfl⟩ := Nat.exists_eq_add_of_le' (Nat.le_trans (by simp [tokens]) hn : 1 ≤ n)
  obtain ⟨u, hu⟩ : Takes (localVariables (ofDepth m)) ((declare type name value).tokens ++ rest)
      rest :=
    takes_localVariables h (by simp [tokens] at hn; omega)
  have hdeep : (ofDepth (m + 1)).blockItem = blockItemPhrase (ofDepth m) := rfl
  have hitem : itemAhead ((declare type name value).tokens ++ rest) = .variablesOrStatement := rfl
  simp [Takes, hdeep, blockItemPhrase, hitem, attempt, hu]

/-- A statement under a condition. Its block is read two levels further down: one for the statement
after the condition and one for the items of the block. -/
theorem takes_guard {condition : Term} {body : Statement} (hcondition : condition.IsProper)
    (hbody : body.IsProper)
    (htakes : ∀ {n rest}, body.tokens.length ≤ n → NoElse rest →
      Takes (ofDepth n).blockItem (body.tokens ++ rest) rest)
    {n : Nat} (hn : (guard condition body).tokens.length ≤ n) (hrest : NoElse rest) :
    Takes (ofDepth n).blockItem ((guard condition body).tokens ++ rest) rest := by
  rw [tokens] at hn
  simp only [List.length_cons, List.length_append, List.length_nil] at hn
  obtain ⟨m, rfl⟩ := Nat.exists_eq_add_of_le' (Nat.le_trans (by omega) hn : 2 ≤ n)
  have hends : Term.TermEnds (closeParen :: openBrace :: (body.tokens ++ closeBrace :: rest)) :=
    ⟨_, _, rfl, by decide⟩
  obtain ⟨e, he⟩ := hcondition.reads.expression (n := m + 1) (by omega) hends
  obtain ⟨u, hu⟩ : Takes (ofDepth m).blockItem (body.tokens ++ closeBrace :: rest)
    (closeBrace :: rest) := htakes (by omega) (by simp [NoElse])
  have hrun (us : List Token) : (ofDepth (m + 2)).blockItem (.keyword "if" :: us) =
    statementAfter (ofDepth (m + 1)) "if" us := rfl
  have hblock (us : List Token) : (ofDepth (m + 1)).statement (openBrace :: us) =
    block (ofDepth m) (openBrace :: us) := rfl
  -- The body is the only item of the block.
  have hmany : Many (fun ts => ts.head? != some closeBrace) (ofDepth m).blockItem
      (body.tokens ++ closeBrace :: rest) [u] (closeBrace :: rest) := by
    obtain ⟨w, us, hus, hw⟩ := hbody.exists_cons
    simp only [List.mem_cons, List.not_mem_nil, or_false, not_or] at hw
    have hstarts : (fun ts : List Token => ts.head? != some closeBrace)
        (body.tokens ++ closeBrace :: rest) = true := by simp [hus, hw.1]
    have hshrinks : (closeBrace :: rest).length < (body.tokens ++ closeBrace :: rest).length := by
      simp only [hus, List.length_append, List.length_cons]
      omega
    exact .next hstarts hu hshrinks (.done (by simp))
  have helse : [Token.keyword "else"].isPrefixOf rest = false := isPrefixOf_singleton hrest
  simp [Takes, tokens, hrun, statementAfter, parenthesized, he, hblock, block, manyUntil,
    hmany.many_eq, helse]

/-- **A proper statement is read as an item of a block.** The grammar needs no more depth than the
statement has tokens. -/
theorem IsProper.takes {s : Statement} (h : s.IsProper) :
    ∀ {n rest}, s.tokens.length ≤ n → NoElse rest →
      Takes (ofDepth n).blockItem (s.tokens ++ rest) rest := by
  induction h with
  | result hvalue => exact fun hn _ => takes_result hvalue hn _
  | raise hvalue => exact fun hn _ => takes_raise hvalue hn _
  | perform hcall => exact fun hn _ => takes_perform hcall hn _
  | assign _ hvalue =>
    intro n rest hn _
    obtain ⟨m, rfl⟩ := Nat.exists_eq_add_of_le' (Nat.le_trans (by simp [tokens]) hn : 1 ≤ n)
    exact takes_assignment hvalue (by simp [tokens] at hn; omega)
  | declare _ _ hvalue => exact fun hn _ => takes_declare hvalue hn _
  | guard hcondition hbody ih => exact fun hn hrest => takes_guard hcondition hbody ih hn hrest

end Statement

end EntityScaffold.Java
