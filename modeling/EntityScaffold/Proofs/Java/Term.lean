import EntityScaffold.Java.CompilationUnit
import EntityScaffold.Proofs.Java.Running
import EntityScaffold.Proofs.Java.Writing

/-!
# Terms of generated code

The expressions that generated code consists of: names, texts, calls, creations and functions. The
tokens of a proper term are read as an expression (`Term.IsProper.reads`). A chain of calls is read
from the left, first its head and then one member after the other, so the induction carries what is
left to read of the chain.
-/

namespace EntityScaffold.Java

open Java.Parser Java.Token Java.Grammar

/-! ### Dotted names -/

/-- The tokens of a dotted name. -/
def pathTokens (path : List String) : List Token :=
  separated dot (path.map fun s => [.identifier s])

theorem pathTokens_cons (first : String) (more : List String) :
    pathTokens (first :: more) =
      .identifier first :: more.flatMap fun s => [dot, .identifier s] := by
  simp [pathTokens, separated, List.flatMap_map]

/-- With one more name a dotted name is longer. -/
theorem length_names_lt (s : String) (more : List String) (rest : List Token) :
    ((more.flatMap fun s => [dot, .identifier s]) ++ rest).length <
      (((s :: more).flatMap fun s => [dot, .identifier s]) ++ rest).length := by
  simp only [List.flatMap_cons, List.length_append, List.length_cons]
  omega

theorem many_dotName {more : List String} {rest : List Token} (hrest : dotName rest = false) :
    many dotName (do accept dot; name) ((more.flatMap fun s => [dot, .identifier s]) ++ rest) =
      .ok (more, rest) := by
  have hmany : Many dotName (do accept dot; name)
      ((more.flatMap fun s => [dot, .identifier s]) ++ rest) more rest := by
    induction more with
    | nil => exact .done hrest
    | cons s more ih => exact .next rfl (by simp) (length_names_lt s more rest) ih
  exact hmany.many_eq

theorem dottedName_pathTokens {path : List String} (hpath : path ≠ []) {rest : List Token}
    (hrest : rest.head? ≠ some dot) :
    dottedName (pathTokens path ++ rest) = .ok (path, rest) := by
  obtain ⟨first, more, rfl⟩ := List.exists_cons_of_ne_nil hpath
  have hmany : Many (fun ts => ts.head? == some dot) (do accept dot; name)
      ((more.flatMap fun s => [dot, .identifier s]) ++ rest) more rest := by
    induction more with
    | nil => exact .done (by simpa using hrest)
    | cons s more ih =>
      exact .next rfl (by simp) (length_names_lt s more rest) (ih (List.cons_ne_nil _ _))
  simp [dottedName, sepBy, pathTokens_cons, hmany.many_eq]

/-! ### Terms -/

/-- Expressions of generated code. -/
inductive Term
  /-- A quoted text. -/
  | quoted (text : String)
  /-- A dotted name. -/
  | dotted (path : List String)
  /-- A call of a method by a dotted name. -/
  | call (path : List String) (arguments : List Term)
  /-- A call of a method of what a call gives. -/
  | select (target : Term) (member : String) (arguments : List Term)
  /-- The creation of an object. -/
  | create (type : String) (arguments : List Term)
  /-- A function of one parameter. -/
  | function (parameter : String) (body : Term)
  /-- A method of the current object as a value. -/
  | method (name : String)

namespace Term

/-- Lists of tokens in parentheses. -/
def inParens (xs : List (List Token)) : List Token :=
  openParen :: (separated comma xs ++ [closeParen])

mutual

/-- The tokens of a term. -/
def tokens : Term → List Token
  | quoted text => [.quoted text]
  | dotted path => pathTokens path
  | call path args => pathTokens path ++ inParens (tokensOfAll args)
  | select target member args =>
    target.tokens ++ dot :: .identifier member :: inParens (tokensOfAll args)
  | create type args => .keyword "new" :: .identifier type :: inParens (tokensOfAll args)
  | function parameter body => .identifier parameter :: arrow :: body.tokens
  | method name => [.keyword "this", doubleColon, .identifier name]

def tokensOfAll : List Term → List (List Token)
  | [] => []
  | t :: ts => t.tokens :: tokensOfAll ts

end

theorem tokensOfAll_eq_map (ts : List Term) : tokensOfAll ts = ts.map tokens := by
  induction ts with
  | nil => rfl
  | cons t ts ih => rw [tokensOfAll, ih, List.map_cons]

/-- Members can be called on the term. -/
def IsCall : Term → Prop
  | call _ _ | select _ _ _ => True
  | _ => False

/-- Names in the term are not reserved, and quoted texts can be quoted. -/
inductive IsProper : Term → Prop
  | quoted {text : String} : (∀ c ∈ Text.quoting, c ∉ text.toList) → IsProper (.quoted text)
  | dotted {path : List String} : IsNamePath path → IsProper (.dotted path)
  | call {path : List String} {args : List Term} : IsNamePath path →
      (∀ a ∈ args, IsProper a) → IsProper (.call path args)
  | select {target : Term} {member : String} {args : List Term} : IsProper target →
      target.IsCall → IsName member → (∀ a ∈ args, IsProper a) →
      IsProper (.select target member args)
  | create {type : String} {args : List Term} : IsName type → (∀ a ∈ args, IsProper a) →
      IsProper (.create type args)
  | function {parameter : String} {body : Term} : IsName parameter → IsProper body →
      IsProper (.function parameter body)
  | method {name : String} : IsName name → IsProper (.method name)

/-- The term starts with a token that is no symbol. -/
theorem IsProper.exists_cons {t : Term} (h : t.IsProper) :
    ∃ w us, t.tokens = w :: us ∧ ∀ s, w ≠ .symbol s := by
  have hpath {path : List String} (hp : IsNamePath path) :
      ∃ w us, pathTokens path = w :: us ∧ ∀ s, w ≠ .symbol s := by
    obtain ⟨first, more, rfl⟩ := List.exists_cons_of_ne_nil hp.ne_nil
    exact ⟨_, _, pathTokens_cons first more, nofun⟩
  induction h with
  | quoted | create | function | method => exact ⟨_, _, rfl, nofun⟩
  | dotted hp => exact hpath hp
  | call hp =>
    obtain ⟨w, us, hus, hw⟩ := hpath hp
    exact ⟨w, _, by rw [tokens, hus, List.cons_append], hw⟩
  | select _ _ _ _ ih =>
    obtain ⟨w, us, hus, hw⟩ := ih
    exact ⟨w, _, by rw [tokens, hus, List.cons_append], hw⟩

/-! ### Parts of expressions -/

/-- What follows a term ends it. -/
def TermEnds (rest : List Token) : Prop :=
  ∃ t us, rest = t :: us ∧ t ∈ [semicolon, comma, closeParen]

section Parts

variable {g : Grammar} {rest : List Token}

/-- Terms in parentheses are read as arguments. -/
theorem takes_arguments {args : List Term} (hproper : ∀ a ∈ args, a.IsProper)
    (h : ∀ a ∈ args, ∀ us, TermEnds us → Takes g.expression (a.tokens ++ us) us) :
    Takes (arguments g) (inParens (args.map tokens) ++ rest) rest := by
  cases args with
  | nil => simp [Takes, arguments, inParens, separated]
  | cons a as =>
    obtain ⟨w, us, hus, hw⟩ := (hproper a List.mem_cons_self).exists_cons
    have hclose : closeParen ≠ w := (hw ")").symm
    obtain ⟨es, hes⟩ : Takes (sepBy comma g.expression)
        (separated comma ((a :: as).map tokens) ++ closeParen :: rest) (closeParen :: rest) :=
      takes_sepBy (List.cons_ne_nil a as) h (fun us => ⟨_, us, rfl, by decide⟩)
        ⟨_, rest, rfl, by decide⟩ (by simp)
    simp only [List.map_cons, separated, hus, List.cons_append, List.append_assoc] at hes
    simp [Takes, arguments, inParens, separated, hus, hclose, hes]

/-- A name at the start of an expression. -/
theorem head_pathTokens {path : List String} (hpath : path ≠ []) (hrest : dotName rest = false) :
    head g (pathTokens path ++ rest) = (nameTail g path >>= fun o => pure (.inl o)) rest := by
  obtain ⟨first, more, rfl⟩ := List.exists_cons_of_ne_nil hpath
  simp [head, pathTokens_cons, many_dotName hrest]

/-- A name that nothing belongs to is a name. -/
theorem nameTail_of_head {t : Token} (ht : t ∉ [openBracket, openParen, dot]) (path : List String)
    (rest : List Token) :
    Takes (nameTail g path) (t :: rest) (t :: rest) := by
  simp only [List.mem_cons, List.not_mem_nil, or_false, not_or] at ht
  obtain ⟨hbracket, hparen, hdot⟩ := ht
  simp [Takes, nameTail, List.isPrefixOf, Ne.symm hbracket, Ne.symm hparen, Ne.symm hdot]

/-- One more member of a chain. -/
def member (g : Grammar) : Parser Selector := do
  let s ← selector g
  afterOperand
  return s

/-- The tokens start with something that members are called on, and go on with the members. -/
def StartsChain (g : Grammar) (ts rest : List Token) : Prop :=
  ∃ h us members, head g ts = .ok (.inl h, us) ∧ us ≠ [] ∧
    Many selectorStarts (member g) us members rest

/-- A call that nothing else is called on. -/
theorem startsChain_call {path : List String} {args : List Term} (hpath : IsNamePath path)
    (hargs : Takes (arguments g) (inParens (args.map tokens) ++ rest) rest) {ms : List Selector}
    {us : List Token} (hrest : rest ≠ []) (hmembers : Many selectorStarts (member g) rest ms us) :
    StartsChain g ((call path args).tokens ++ rest) us := by
  obtain ⟨es, hes⟩ := hargs
  refine ⟨.call path.dropLast (path.getLast?.getD "") es, rest, ms, ?_, hrest, hmembers⟩
  rw [tokens, tokensOfAll_eq_map, List.append_assoc, head_pathTokens hpath.ne_nil rfl]
  have hparen : [openParen].isPrefixOf (inParens (args.map tokens) ++ rest) = true := rfl
  have hbracket : [openBracket, closeBracket].isPrefixOf (inParens (args.map tokens) ++ rest) =
    false := rfl
  simp [nameTail, hparen, hbracket, hes]

/-- A member is read, and what is called on it. -/
theorem many_member {name : String} {args : List Term}
    (hargs : Takes (arguments g) (inParens (args.map tokens) ++ rest) rest) {ms : List Selector}
    {us : List Token} (hrest : rest ≠ []) (hmembers : Many selectorStarts (member g) rest ms us) :
    ∃ ms, Many selectorStarts (member g)
      (dot :: .identifier name :: (inParens (args.map tokens) ++ rest)) ms us := by
  obtain ⟨es, hes⟩ := hargs
  obtain ⟨t, rest, rfl⟩ := List.exists_cons_of_ne_nil hrest
  have hparen : [openParen].isPrefixOf (inParens (args.map tokens) ++ t :: rest) = true := rfl
  refine ⟨.call name es :: ms, .next rfl ?_ ?_ hmembers⟩
  · simp [member, selector, hparen, hes]
  · simp [inParens]
    omega

/-- No operator is in front of a token that is no symbol. -/
theorem symbols_eq_nil {ops : List String} {w : Token} (hw : isSymbolIn ops w = false) :
    symbols ops (w :: rest) = .ok ([], w :: rest) := by
  have hmore : many (fun ts : List Token => ts.head?.any (isSymbolIn ops)) next (w :: rest) =
      .ok ([], w :: rest) := many_eq_nil (by simpa using hw)
  simp [symbols, hmore]

/-- A chain is read as an operand, up to a token that belongs to no operand. -/
theorem takes_plainOperand {ts : List Token} {t : Token} (h : StartsChain g ts (t :: rest))
    (ht : isSymbolIn postfixOps t = false) : Takes (plainOperand g []) ts (t :: rest) := by
  obtain ⟨h, us, ms, hhead, hus, hmany⟩ := h
  obtain ⟨u, us, rfl⟩ := List.exists_cons_of_ne_nil hus
  have hmembers : many selectorStarts
      (do let member ← selector g; afterOperand; return member) (u :: us) =
        .ok (ms, t :: rest) := hmany.many_eq
  simp only [plainOperand, Takes, bind_apply, hhead, afterOperand_cons, hmembers,
    symbols_eq_nil ht]
  simp

/-- What is read as an operand is all that is read up to an operator. -/
theorem takes_operators {w t : Token} {us : List Token} (hw : ∀ s, w ≠ .symbol s)
    (h : StartsChain g (w :: us) (t :: rest)) (hoperators : isSymbolIn postfixOps t = false)
    (ht : linkStarts (t :: rest) = false) :
    Takes (Grammar.operators g) (w :: us) (t :: rest) := by
  obtain ⟨e, he⟩ := takes_plainOperand h hoperators
  have hprefix : isSymbolIn prefixOps w = false := by
    cases w with
    | symbol s => exact absurd rfl (hw s)
    | keyword | identifier | literal => rfl
  have hparen : [openParen].isPrefixOf (w :: us) = false := isPrefixOf_singleton (by simp [hw])
  have hmore : many linkStarts (link g) (t :: rest) = .ok ([], t :: rest) := many_eq_nil ht
  simp [Takes, Grammar.operators, operandPhrase, symbols_eq_nil hprefix, hparen, he, hmore]

/-- An expression that ends with its operand. -/
theorem takes_expressionPhrase {w : Token} {us : List Token} (hw : ∀ s, w ≠ .symbol s)
    (h : StartsChain g (w :: us) rest) (hrest : TermEnds rest) :
    Takes (expressionPhrase g) (w :: us) rest := by
  obtain ⟨t, rest, rfl, ht⟩ := hrest
  simp only [List.mem_cons, List.not_mem_nil, or_false] at ht
  rcases ht with rfl | rfl | rfl <;> obtain ⟨e, he⟩ := takes_operators hw h rfl rfl <;>
    simp [Takes, expressionPhrase, conditionalPhrase, he, List.isPrefixOf, isSymbolIn,
      assignmentOps]

end Parts

theorem length_argument_le {args : List Term} {a : Term} (ha : a ∈ args) :
    a.tokens.length + 2 ≤ (inParens (args.map tokens)).length := by
  have hle := length_le_separated comma (List.mem_map_of_mem (f := tokens) ha)
  rw [inParens, List.length_cons, List.length_append, List.length_singleton]
  omega

/-- How a term is read: as an expression, and as the start of a chain if members can be called on
it. -/
structure Reads (t : Term) : Prop where
  expression : ∀ {n rest}, t.tokens.length ≤ n → TermEnds rest →
    Takes (ofDepth n).expression (t.tokens ++ rest) rest
  chain : t.IsCall → ∀ {n ms} {rest us : List Token}, t.tokens.length ≤ n → rest ≠ [] →
    Many selectorStarts (member (ofDepth n)) rest ms us →
    StartsChain (ofDepth n) (t.tokens ++ rest) us

/-- A token that ends a term goes on with no operand. -/
theorem TermEnds.cases {rest : List Token} (h : TermEnds rest) :
    ∃ t us, rest = t :: us ∧ t ∉ [openBracket, openParen, openBrace, openAngle, dot] ∧
      isSymbolIn assignmentOps t = false := by
  obtain ⟨t, us, rfl, ht⟩ := h
  simp only [List.mem_cons, List.not_mem_nil, or_false] at ht
  rcases ht with rfl | rfl | rfl <;> exact ⟨_, us, rfl, by decide, rfl⟩

theorem TermEnds.ne_nil {rest : List Token} (h : TermEnds rest) : rest ≠ [] := by
  obtain ⟨t, us, rfl, -⟩ := h
  exact List.cons_ne_nil t us

/-- No member is called on what ends a term. -/
theorem many_nil {g : Grammar} {t : Token} {rest : List Token} (ht : t ∉ [openBracket, dot]) :
    Many selectorStarts (member g) (t :: rest) [] (t :: rest) := by
  simp only [List.mem_cons, List.not_mem_nil, or_false, not_or] at ht
  exact .done (by simp [selectorStarts, ht])

theorem TermEnds.many {g : Grammar} {rest : List Token} (h : TermEnds rest) :
    Many selectorStarts (member g) rest [] rest := by
  obtain ⟨t, us, rfl, ht, -⟩ := h.cases
  refine many_nil fun hmem => ht ?_
  simp only [List.mem_cons, List.not_mem_nil, or_false] at hmem ⊢
  tauto

/-- A dotted name is read as an operand. -/
theorem startsChain_dotted {g : Grammar} {path : List String} (hpath : path ≠ []) {t : Token}
    (ht : t ∉ [openBracket, openParen, dot]) (rest : List Token) :
    StartsChain g (pathTokens path ++ t :: rest) (t :: rest) := by
  obtain ⟨o, ho⟩ := nameTail_of_head (g := g) ht path rest
  have hdot : dotName (t :: rest) = false := by
    unfold dotName
    split
    · rename_i heq
      exact absurd (by simp [(List.cons.inj heq).1]) ht
    · rfl
  have hmember : t ∉ [openBracket, dot] := fun hmem => ht (by
    simp only [List.mem_cons, List.not_mem_nil, or_false] at hmem ⊢
    tauto)
  refine ⟨o, t :: rest, [], ?_, List.cons_ne_nil _ _, many_nil hmember⟩
  rw [head_pathTokens hpath hdot]
  simp [ho]

/-- The creation of an object is read as an operand. -/
theorem startsChain_create {g : Grammar} {type : String} {args : List Term} {rest : List Token}
    (hargs : Takes (arguments g) (inParens (args.map tokens) ++ rest) rest)
    (hrest : TermEnds rest) : StartsChain g ((create type args).tokens ++ rest) rest := by
  obtain ⟨es, hes⟩ := hargs
  have hmany : Many selectorStarts (member g) rest [] rest := hrest.many
  obtain ⟨t, us, rfl, ht, -⟩ := hrest.cases
  simp only [List.mem_cons, List.not_mem_nil, or_false, not_or] at ht
  have hparen : (inParens (args.map tokens) ++ t :: us).head? = some openParen := rfl
  have hangle : [openAngle].isPrefixOf (inParens (args.map tokens) ++ t :: us) = false := rfl
  have hbracket : [openBracket].isPrefixOf (inParens (args.map tokens) ++ t :: us) = false := rfl
  have hbrace : [openBrace].isPrefixOf (t :: us) = false := isPrefixOf_singleton (by simp [ht])
  have hdot : (inParens (args.map tokens) ++ t :: us).head? ≠ some dot := by simp [hparen]
  refine ⟨.special "ClassCreator", t :: us, [], ?_, List.cons_ne_nil _ _, hmany⟩
  simp [tokens, tokensOfAll_eq_map, head, basicTypes, creator, isBasicType, dottedType, namePart,
    hangle, many_head_eq_nil hdot, hbracket, creation, hes, hbrace]

/-- An expression that is an operand is read one level above it. -/
theorem takes_of_startsChain {t : Term} (h : t.IsProper) {n : Nat} {rest : List Token}
    (hn : t.tokens.length ≤ n)
    (hchain : ∀ m, t.tokens.length ≤ m + 1 → StartsChain (ofDepth m) (t.tokens ++ rest) rest)
    (hrest : TermEnds rest) : Takes (ofDepth n).expression (t.tokens ++ rest) rest := by
  obtain ⟨w, us, hus, hw⟩ := h.exists_cons
  obtain ⟨m, rfl⟩ := Nat.exists_eq_add_of_le' (Nat.le_trans (by simp [hus]) hn : 1 ≤ n)
  have hm := hchain m hn
  rw [hus] at hm ⊢
  exact takes_expressionPhrase hw hm hrest

theorem takes_dotted {path : List String} (hpath : IsNamePath path) {n : Nat} {rest : List Token}
    (hn : (pathTokens path).length ≤ n) (hrest : TermEnds rest) :
    Takes (ofDepth n).expression (pathTokens path ++ rest) rest := by
  refine takes_of_startsChain (.dotted hpath) hn (fun m _ => ?_) hrest
  obtain ⟨t, us, rfl, ht, -⟩ := hrest.cases
  refine startsChain_dotted hpath.ne_nil (fun hmem => ht ?_) us
  simp only [List.mem_cons, List.not_mem_nil, or_false] at hmem ⊢
  tauto

/-- Terms that are read as expressions are read as arguments. The parentheses pay for the levels
between a call and its arguments. -/
theorem takes_arguments_of_reads {args : List Term} (hproper : ∀ a ∈ args, a.IsProper)
    (hreads : ∀ a ∈ args, a.Reads) {m : Nat} (hm : (inParens (args.map tokens)).length ≤ m + 2)
    (rest : List Token) :
    Takes (arguments (ofDepth m)) (inParens (args.map tokens) ++ rest) rest := by
  refine takes_arguments hproper fun a ha us hus => ?_
  have hle : a.tokens.length + 2 ≤ m + 2 := Nat.le_trans (length_argument_le ha) hm
  exact (hreads a ha).expression (Nat.le_of_add_le_add_right hle) hus

/-! ### Terms, one form at a time -/

/-- A call of a method by a dotted name. -/
theorem reads_call {path : List String} {args : List Term} (hpath : IsNamePath path)
    (hargs : ∀ a ∈ args, a.IsProper) (hreads : ∀ a ∈ args, a.Reads) :
    (Term.call path args).Reads := by
  have hlength : (Term.call path args).tokens.length =
      (pathTokens path).length + (inParens (args.map tokens)).length := by
    rw [tokens, tokensOfAll_eq_map, List.length_append]
  refine ⟨fun hn hrest => ?_, fun _ n ms rest us hn hne hmany => ?_⟩
  · refine takes_of_startsChain (.call hpath hargs) hn (fun m hm => ?_) hrest
    have harguments := takes_arguments_of_reads hargs hreads (m := m) (by omega)
    exact startsChain_call hpath (harguments _) hrest.ne_nil hrest.many
  · have harguments := takes_arguments_of_reads hargs hreads (m := n) (by omega)
    exact startsChain_call hpath (harguments _) hne hmany

/-- A call of a method of what another call gives. -/
theorem reads_select {target : Term} {name : String} {args : List Term} (htarget : target.IsProper)
    (hcall : target.IsCall) (hname : IsName name) (hargs : ∀ a ∈ args, a.IsProper)
    (htargetReads : target.Reads) (hreads : ∀ a ∈ args, a.Reads) :
    (Term.select target name args).Reads := by
  have hlength : (Term.select target name args).tokens.length =
      target.tokens.length + ((inParens (args.map tokens)).length + 2) := by
    simp [tokens, tokensOfAll_eq_map]
  -- The member goes in front of what is called on the whole, and so to the chain of the target.
  have hchain {m : Nat} (hm : (Term.select target name args).tokens.length ≤ m + 1)
      {ms : List Selector} {rest us : List Token} (hne : rest ≠ [])
      (hmany : Many selectorStarts (member (ofDepth m)) rest ms us) :
      StartsChain (ofDepth m) ((Term.select target name args).tokens ++ rest) us := by
    have harguments := takes_arguments_of_reads hargs hreads (m := m) (by omega)
    obtain ⟨ms, hms⟩ := many_member (harguments _) hne hmany
    have htarget := htargetReads.chain hcall (n := m) (by omega) (List.cons_ne_nil _ _) hms
    simpa [tokens, tokensOfAll_eq_map] using htarget
  refine ⟨fun hn hrest => ?_, fun _ n ms rest us hn hne hmany => ?_⟩
  · refine takes_of_startsChain (.select htarget hcall hname hargs) hn (fun m hm => ?_) hrest
    exact hchain hm hrest.ne_nil hrest.many
  · exact hchain (Nat.le_succ_of_le hn) hne hmany

/-- The creation of an object. -/
theorem reads_create {type : String} {args : List Term} (htype : IsName type)
    (hargs : ∀ a ∈ args, a.IsProper) (hreads : ∀ a ∈ args, a.Reads) :
    (Term.create type args).Reads := by
  have hlength : (Term.create type args).tokens.length =
      (inParens (args.map tokens)).length + 2 := by
    simp [tokens, tokensOfAll_eq_map]
  refine ⟨fun hn hrest => ?_, nofun⟩
  refine takes_of_startsChain (.create htype hargs) hn (fun m hm => ?_) hrest
  exact startsChain_create (takes_arguments_of_reads hargs hreads (by omega) _) hrest

/-- A function of one parameter. The arrow is no operator: the parameter is a whole operand, and
what follows the arrow is one level deeper. -/
theorem takes_function {parameter : String} {body : Term} (hbody : body.IsProper)
    (hreads : body.Reads) {n : Nat} {rest : List Token}
    (hn : (function parameter body).tokens.length ≤ n) (hrest : TermEnds rest) :
    Takes (ofDepth n).expression ((function parameter body).tokens ++ rest) rest := by
  rw [tokens, List.length_cons, List.length_cons] at hn
  obtain ⟨m, rfl⟩ := Nat.exists_eq_add_of_le' (Nat.le_trans (by omega) hn : 1 ≤ n)
  obtain ⟨e, he⟩ := hreads.expression (n := m) (by omega) hrest
  obtain ⟨w, us, hus, hw⟩ := hbody.exists_cons
  obtain ⟨t, vs, rfl, -, hassign⟩ := hrest.cases
  have hbrace : [openBrace].isPrefixOf (body.tokens ++ t :: vs) = false := by
    rw [hus]
    exact isPrefixOf_singleton (by simp [hw])
  have hstart : StartsChain (ofDepth m)
      (.identifier parameter :: arrow :: (body.tokens ++ t :: vs))
      (arrow :: (body.tokens ++ t :: vs)) :=
    startsChain_dotted (List.cons_ne_nil parameter []) (by decide) _
  obtain ⟨o, ho⟩ := takes_operators (by simp) hstart rfl rfl
  have hdeep : (ofDepth (m + 1)).expression = expressionPhrase (ofDepth m) := rfl
  simp [Takes, hdeep, tokens, expressionPhrase, conditionalPhrase, ho, functionBody, hbrace, he,
    hassign]

/-- A method of the current object as a value. -/
theorem takes_method {name : String} (hname : IsName name) {n : Nat} {rest : List Token}
    (hn : (method name).tokens.length ≤ n) (hrest : TermEnds rest) :
    Takes (ofDepth n).expression ((method name).tokens ++ rest) rest := by
  obtain ⟨m, rfl⟩ := Nat.exists_eq_add_of_le' (Nat.le_trans (by simp [tokens]) hn : 1 ≤ n)
  have hpath : IsNamePath [name] := ⟨List.cons_ne_nil _ _, List.forall_mem_singleton.2 hname⟩
  have hlength : (pathTokens [name]).length ≤ m :=
    Nat.le_of_succ_le_succ (Nat.le_trans (by simp [tokens, pathTokens_cons]) hn)
  -- The grammar takes a whole expression behind the two colons, not just a name.
  obtain ⟨e, he⟩ := takes_dotted hpath hlength hrest
  obtain ⟨t, vs, rfl, -, hassign⟩ := hrest.cases
  have hstart : StartsChain (ofDepth m)
      (.keyword "this" :: doubleColon :: .identifier name :: t :: vs)
      (doubleColon :: .identifier name :: t :: vs) :=
    ⟨.this none, _, [], rfl, List.cons_ne_nil _ _, many_nil (by decide)⟩
  obtain ⟨o, ho⟩ := takes_operators (by simp) hstart rfl rfl
  have hdeep : (ofDepth (m + 1)).expression = expressionPhrase (ofDepth m) := rfl
  simp only [pathTokens_cons, List.flatMap_nil, List.cons_append, List.nil_append] at he
  simp [Takes, hdeep, tokens, expressionPhrase, conditionalPhrase, ho, methodName,
    List.isPrefixOf, he, hassign]

/-- **A proper term is read as an expression.** The grammar needs no more depth than the term has
tokens. -/
theorem IsProper.reads {t : Term} (h : t.IsProper) : t.Reads := by
  induction h with
  | quoted htext =>
    refine ⟨fun hn hrest => takes_of_startsChain (.quoted htext) hn (fun m _ => ?_) hrest, nofun⟩
    exact ⟨_, _, _, rfl, hrest.ne_nil, hrest.many⟩
  | dotted hpath => exact ⟨fun hn hrest => takes_dotted hpath hn hrest, nofun⟩
  | call hpath hargs ih => exact reads_call hpath hargs ih
  | select htarget hcall hname hargs iht ih =>
    exact reads_select htarget hcall hname hargs iht ih
  | create htype hargs ih => exact reads_create htype hargs ih
  | function _ hbody ih => exact ⟨fun hn hrest => takes_function hbody ih hn hrest, nofun⟩
  | method hname => exact ⟨fun hn hrest => takes_method hname hn hrest, nofun⟩

end Term

end EntityScaffold.Java
