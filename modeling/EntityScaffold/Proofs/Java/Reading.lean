import Mathlib.Tactic.Common
import EntityScaffold.Java.Grammar
import EntityScaffold.Java.Lexer
import EntityScaffold.Proofs.Source.Names

/-!
# Names on the way from a text to a syntax tree

The lexer makes a name only of an identifier that is not reserved (`Lexer.allLexical_tokens`), and a
parser takes names only from tokens. `Yields` says this of one parser: off tokens of a text it reads
something of a kind, and it leaves tokens of a text. A parser that is put together of others yields
what they do (`Yields.bind`), and so does repetition (`Yields.many`).

Most phrases are checked and not kept. Of these it is enough that they leave tokens of a text, which
is the class `Reads`: instances go from the parts of a parser to the whole.
-/

namespace EntityScaffold.Java

open Text

/-! ### Tokens of a text -/

/-- The token of a name is an identifier that is not reserved. -/
def Token.IsLexical : Token → Prop
  | .identifier s => IsName s
  | _ => True

@[simp]
theorem Token.isLexical_literal (s : String) : (Token.literal s).IsLexical := trivial

@[simp]
theorem Token.isLexical_symbol (s : String) : (Token.symbol s).IsLexical := trivial

/-- Tokens that a text can have. -/
def AllLexical (ts : List Token) : Prop := ∀ t ∈ ts, t.IsLexical

theorem Token.isLexical_ofWord {s : String} (h : Text.isIdentifier s.toList = true) :
    (Token.ofWord s).IsLexical := by
  unfold Token.ofWord
  split
  · trivial
  · split
    · trivial
    · exact ⟨⟨h, ‹_›⟩, ‹_›⟩

namespace Lexer

theorem isIdentifier_takeWhile {c : Char} (hc : isIdentifierStart c = true) (rest : List Char) :
    isIdentifier (c :: rest.takeWhile isIdentifierPart) = true := by
  rw [isIdentifier, hc, Bool.true_and]
  exact List.all_takeWhile

/-- A step finds no token, or one that a text can have. -/
def Finds (x : Except Fault Found) : Prop :=
  ∀ ⦃found r⦄, x = .ok (found, r) → ∀ t ∈ found, t.IsLexical

theorem finds_ok {found : Option Token} {r : List Char} (h : ∀ t ∈ found, t.IsLexical) :
    Finds (.ok (found, r)) := by
  rintro _ _ ⟨⟩
  exact h

theorem finds_map {α : Type} {x : Except Fault α} {f : α → Found}
    (h : ∀ a, ∀ t ∈ (f a).1, t.IsLexical) : Finds (x.map f) := by
  intro found r hx
  cases x with
  | error fault => cases hx
  | ok a =>
    obtain rfl : (f a).1 = found := congrArg (·.1) (Except.ok.inj hx)
    exact h a

theorem finds_ite {c : Prop} [Decidable c] {x y : Except Fault Found} (hx : c → Finds x)
    (hy : ¬ c → Finds y) : Finds (if c then x else y) := by
  split
  · exact hx ‹_›
  · exact hy ‹_›

/-- **Only identifiers that are not reserved become names.** -/
theorem finds_step (c : Char) (rest : List Char) : Finds (step c rest) := by
  -- blanks and comments are skipped
  refine finds_ite (fun _ => finds_ok (by simp)) fun _ => ?_
  refine finds_ite (fun _ => finds_ok (by simp)) fun _ => ?_
  refine finds_ite (fun _ => finds_map (by simp)) fun _ => ?_
  -- symbols and literals, then the one case of a word
  refine finds_ite (fun _ => finds_ok (by simp)) fun _ => ?_
  refine finds_ite (fun _ => finds_ok (by simp)) fun _ => ?_
  refine finds_ite (fun _ => finds_ok (by simp)) fun _ => ?_
  refine finds_ite (fun _ => finds_ok (by simp)) fun _ => ?_
  refine finds_ite (fun _ => finds_map (by simp [literal])) fun _ => ?_
  refine finds_ite (fun _ => finds_map (by simp [literal])) fun _ => ?_
  refine finds_ite (fun hstart => finds_ok fun t ht => ?_) fun _ => ?_
  · obtain rfl := Option.mem_some.1 ht
    refine Token.isLexical_ofWord ?_
    rw [String.toList_ofList]
    exact isIdentifier_takeWhile hstart rest
  · split
    · exact finds_ok (by simp)
    · rintro _ _ ⟨⟩

theorem allLexical_scan {n : Nat} {s : List Char} {ts : List Token} (h : scan n s = .ok ts) :
    AllLexical ts := by
  induction n generalizing s ts with
  | zero =>
    cases s <;> cases h <;> exact fun _ ht => nomatch ht
  | succ n ih =>
    cases s with
    | nil =>
      cases h
      exact fun _ ht => nomatch ht
    | cons c rest =>
      rw [scan] at h
      cases hstep : step c rest with
      | error fault =>
        rw [hstep] at h
        cases h
      | ok x =>
        obtain ⟨found, r⟩ := x
        rw [hstep] at h
        cases hscan : scan n r with
        | error fault => simp [bind, Except.bind, hscan] at h
        | ok more =>
          obtain rfl : found.toList ++ more = ts := by
            simpa [bind, Except.bind, pure, Except.pure, hscan] using h
          intro t ht
          rcases List.mem_append.1 ht with ht | ht
          · exact finds_step c rest hstep t (Option.mem_toList.1 ht)
          · exact ih hscan t ht

/-- **The names of a text are identifiers that are not reserved.** -/
theorem allLexical_tokens {text : String} {ts : List Token} (h : tokens text = .ok ts) :
    AllLexical ts := by
  unfold tokens at h
  split at h
  · cases h
  · exact allLexical_scan h

end Lexer

/-! ### Parsers -/

namespace Parser

variable {α β : Type} {P : α → Prop} {Q : β → Prop} {p : Parser α}

/-- Whatever is read off tokens of a text is of a kind, and tokens of a text are left. -/
def Yields (P : α → Prop) (p : Parser α) : Prop :=
  ∀ ⦃ts⦄, AllLexical ts → ∀ ⦃a rest⦄, p ts = .ok (a, rest) → P a ∧ AllLexical rest

/-- Anything may be read, and tokens of a text are left. -/
class Reads (p : Parser α) : Prop where
  yields : Yields (fun _ => True) p

theorem Yields.mono {P' : α → Prop} (h : Yields P p) (hP : ∀ a, P a → P' a) : Yields P' p :=
  fun _ hts _ _ ha => (h hts ha).imp_left (hP _)

theorem Yields.reads (h : Yields P p) : Reads p := ⟨h.mono fun _ _ => trivial⟩

theorem yields_pure {a : α} (h : P a) : Yields P (pure a : Parser α) := by
  rintro ts hts _ _ ⟨⟩
  exact ⟨h, hts⟩

theorem yields_throw (P : α → Prop) (fault : Failure) : Yields P (throw fault : Parser α) := by
  rintro ts _ _ _ ⟨⟩

/-- **One parser after the other.** -/
theorem Yields.bind {f : α → Parser β} (hp : Yields P p) (hf : ∀ a, P a → Yields Q (f a)) :
    Yields Q (p >>= f) := by
  intro ts hts b rest hb
  cases hrun : p ts with
  | error fault => simp [Bind.bind, StateT.bind, hrun, Except.bind] at hb
  | ok r =>
    obtain ⟨ha, hrest⟩ := hp hts hrun
    refine hf r.1 ha hrest ?_
    simpa [Bind.bind, StateT.bind, hrun, Except.bind] using hb

theorem yields_ite {c : Prop} [Decidable c] {q : Parser α} (hp : Yields P p) (hq : Yields P q) :
    Yields P (if c then p else q) := by
  split
  · exact hp
  · exact hq

/-- What is read first does not matter. -/
theorem yields_then {p : Parser α} [h : Reads p] {f : α → Parser β} (hf : ∀ a, Yields Q (f a)) :
    Yields Q (p >>= f) := h.yields.bind fun a _ => hf a

theorem yields_get : Yields AllLexical (get : Parser (List Token)) := by
  rintro ts hts _ _ ⟨⟩
  exact ⟨hts, hts⟩

theorem reads_set {ts : List Token} (h : AllLexical ts) : Reads (set ts : Parser Unit) := by
  refine ⟨?_⟩
  rintro _ _ _ _ ⟨⟩
  exact ⟨trivial, h⟩

/-! ### Parts of parsers that are not kept -/

instance reads_pure (a : α) : Reads (pure a : Parser α) := ⟨yields_pure trivial⟩

instance reads_throw (fault : Failure) : Reads (throw fault : Parser α) := ⟨yields_throw _ fault⟩

instance reads_bind {f : α → Parser β} [Reads p] [∀ a, Reads (f a)] : Reads (p >>= f) :=
  ⟨yields_then fun _ => Reads.yields⟩

/-- As the instance, where what follows is no instance yet. -/
theorem reads_then {p : Parser α} [Reads p] {f : α → Parser β} (hf : ∀ a, Reads (f a)) :
    Reads (p >>= f) := ⟨yields_then fun a => (hf a).yields⟩

instance reads_ite {c : Prop} [Decidable c] {q : Parser α} [Reads p] [Reads q] :
    Reads (if c then p else q) := ⟨yields_ite Reads.yields Reads.yields⟩

/-- As the instance, where the branches are no instances yet. -/
theorem reads_if {c : Prop} [Decidable c] {q : Parser α} (hp : Reads p) (hq : Reads q) :
    Reads (if c then p else q) := inferInstance

instance reads_get : Reads (get : Parser (List Token)) := yields_get.reads

/-! ### Single tokens -/

theorem yields_unexpected : Yields P unexpected := yields_throw P .unexpected

instance reads_unexpected : Reads (unexpected : Parser α) := reads_throw .unexpected

theorem yields_next : Yields Token.IsLexical next := by
  refine yields_get.bind fun ts hts => ?_
  split
  · exact yields_throw _ _
  · rename_i t rest
    have hrest : AllLexical rest := fun t ht => hts t (List.mem_cons_of_mem _ ht)
    exact (reads_set hrest).yields.bind fun _ _ => yields_pure (hts t List.mem_cons_self)

instance reads_next : Reads next := yields_next.reads

instance reads_accept (t : Token) : Reads (accept t) := by
  unfold accept
  infer_instance

instance reads_acceptAll (ts : List Token) : Reads (acceptAll ts) := by
  induction ts with
  | nil => exact reads_pure _
  | cons t ts ih => exact @reads_bind _ _ _ _ (reads_accept t) fun _ => ih

instance reads_ahead (ts : List Token) : Reads (ahead ts) := by
  unfold ahead
  infer_instance

instance reads_drop (n : Nat) : Reads (modify (·.drop n) : Parser PUnit) := by
  refine ⟨?_⟩
  rintro ts hts _ _ ⟨⟩
  exact ⟨trivial, fun t ht => hts t (List.mem_of_mem_drop ht)⟩

instance reads_accept? (ts : List Token) : Reads (accept? ts) := by
  unfold accept?
  infer_instance

instance reads_afterOperand : Reads afterOperand := by
  unfold afterOperand
  infer_instance

instance reads_nextIs (q : Token → Bool) : Reads (nextIs q) := by
  unfold nextIs peek
  infer_instance

/-- **A name is an identifier that is not reserved.** -/
theorem yields_name : Yields IsName name := by
  refine yields_next.bind fun t ht => ?_
  split
  · exact yields_pure ht
  · exact yields_unexpected

instance reads_name : Reads name := yields_name.reads

instance reads_nameThen (t : Token) : Reads (nameThen t) := by
  refine reads_then fun ts => ?_
  split <;> infer_instance

instance reads_next? (q : Token → Bool) : Reads (next? q) := by
  refine ⟨yields_get.bind fun ts hts => ?_⟩
  split
  · exact Reads.yields
  · rename_i t rest
    have : Reads (set rest : Parser Unit) :=
      reads_set fun t ht => hts t (List.mem_cons_of_mem _ ht)
    exact Reads.yields

/-! ### Repetition and choice -/

theorem Yields.atMost {more : List Token → Bool} (h : Yields P p) (n : Nat) :
    Yields (fun as => ∀ a ∈ as, P a) (atMost more p n) := by
  induction n with
  | zero => exact yields_pure fun _ ha => nomatch ha
  | succ n ih =>
    refine yields_then fun ts => yields_ite ?_ (yields_pure fun _ ha => nomatch ha)
    refine h.bind fun a ha => ih.bind fun as has => yields_pure ?_
    exact List.forall_mem_cons.2 ⟨ha, has⟩

/-- **One phrase after the other.** -/
theorem Yields.many {more : List Token → Bool} (h : Yields P p) :
    Yields (fun as => ∀ a ∈ as, P a) (many more p) :=
  yields_then fun _ => h.atMost _

theorem Yields.sepBy {sep : Token} (h : Yields P p) :
    Yields (fun as => as ≠ [] ∧ ∀ a ∈ as, P a) (sepBy sep p) := by
  refine h.bind fun first hfirst => ?_
  refine Yields.bind (yields_then fun _ => h).many fun more hmore => yields_pure ?_
  exact ⟨List.cons_ne_nil _ _, List.forall_mem_cons.2 ⟨hfirst, hmore⟩⟩

instance reads_many {more : List Token → Bool} [h : Reads p] : Reads (many more p) :=
  h.yields.many.reads

instance reads_manyUntil {stop : Token} [Reads p] : Reads (manyUntil stop p) := reads_many

instance reads_sepBy {sep : Token} [h : Reads p] : Reads (sepBy sep p) := h.yields.sepBy.reads

/-- A reading that does not fit takes nothing. -/
instance reads_attempt [h : Reads p] : Reads (attempt p) := by
  refine ⟨fun ts hts a rest ha => ?_⟩
  unfold attempt at ha
  cases hrun : p ts with
  | ok r =>
    rw [hrun] at ha
    cases ha
    exact ⟨trivial, (h.yields hts hrun).2⟩
  | error fault =>
    rw [hrun] at ha
    cases fault with
    | unexpected =>
      cases ha
      exact ⟨trivial, hts⟩
    | endOfInput | endAfterOperand => cases ha

/-- A dotted name is a path of names. -/
theorem yields_dottedName : Yields IsNamePath dottedName :=
  yields_name.sepBy.mono fun _ h => ⟨h.1, h.2⟩

instance reads_dottedName : Reads dottedName := yields_dottedName.reads

instance reads_rank : Reads rank := by
  unfold rank
  infer_instance

end Parser

end EntityScaffold.Java
