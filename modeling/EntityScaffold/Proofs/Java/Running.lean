import Mathlib.Tactic.Common
import EntityScaffold.Java.Grammar

/-!
# Parsers on given tokens

What the basic parsers do with a list whose first tokens are known. `Takes p ts rest` says that a
parser reads the tokens off the front and leaves the rest; repetition takes phrases one after the
other (`Many`).
-/

namespace EntityScaffold.Java.Parser

open Java.Token

variable {α β : Type} {p : Parser α} {ts rest : List Token} {t : Token} {a : α}

/-! ### Single steps -/

@[simp] theorem bind_apply (p : Parser α) (f : α → Parser β) (ts : List Token) :
    (p >>= f) ts = match p ts with
      | .ok (a, rest) => f a rest
      | .error e => .error e := by
  show StateT.bind p f ts = _
  unfold StateT.bind
  cases p ts <;> rfl

@[simp] theorem map_apply (f : α → β) (p : Parser α) (ts : List Token) :
    (f <$> p) ts = match p ts with
      | .ok (a, rest) => .ok (f a, rest)
      | .error e => .error e := by
  show StateT.map f p ts = _
  unfold StateT.map
  cases p ts <;> rfl

@[simp] theorem pure_apply (a : α) (ts : List Token) : (pure a : Parser α) ts = .ok (a, ts) := rfl

@[simp] theorem get_apply (ts : List Token) : (get : Parser (List Token)) ts = .ok (ts, ts) := rfl

@[simp] theorem set_apply (us ts : List Token) :
    (set us : Parser PUnit) ts = .ok (⟨⟩, us) := rfl

@[simp] theorem modify_apply (f : List Token → List Token) (ts : List Token) :
    (modify f : Parser PUnit) ts = .ok (⟨⟩, f ts) := rfl

@[simp] theorem unexpected_apply (ts : List Token) :
    (unexpected : Parser α) ts = .error .unexpected := rfl

@[simp] theorem next_cons : next (t :: rest) = .ok (t, rest) := rfl

@[simp] theorem accept_cons (t u : Token) (rest : List Token) :
    accept t (u :: rest) = if u = t then .ok ((), rest) else .error .unexpected := by
  unfold accept
  by_cases h : u = t <;> simp [h]

@[simp] theorem ahead_apply (us ts : List Token) : ahead us ts = .ok (us.isPrefixOf ts, ts) := rfl

theorem isPrefixOf_singleton (h : ts.head? ≠ some t) : [t].isPrefixOf ts = false := by
  cases ts with
  | nil => rfl
  | cons u us =>
    have hu : t ≠ u := fun heq => h (congrArg some heq.symm)
    simpa [List.isPrefixOf] using hu

@[simp] theorem accept?_apply (us ts : List Token) :
    accept? us ts =
      .ok (us.isPrefixOf ts, if us.isPrefixOf ts then ts.drop us.length else ts) := by
  unfold accept?
  by_cases h : us.isPrefixOf ts <;> simp [h]

@[simp] theorem acceptAll_nil (ts : List Token) : acceptAll [] ts = .ok ((), ts) := rfl

@[simp] theorem acceptAll_cons (t u : Token) (us rest : List Token) :
    acceptAll (t :: us) (u :: rest) =
      if u = t then acceptAll us rest else .error .unexpected := by
  show (accept t >>= fun _ => acceptAll us) (u :: rest) = _
  by_cases h : u = t <;> simp [h]

@[simp] theorem afterOperand_cons : afterOperand (t :: rest) = .ok ((), t :: rest) := rfl

@[simp] theorem name_identifier (s : String) (rest : List Token) :
    name (.identifier s :: rest) = .ok (s, rest) := rfl

@[simp] theorem name_symbol (s : String) (rest : List Token) :
    name (.symbol s :: rest) = .error .unexpected := rfl

@[simp] theorem nextIs_apply (q : Token → Bool) (ts : List Token) :
    nextIs q ts = .ok (ts.head?.any q, ts) := rfl

@[simp] theorem nameThen_identifier (s : String) (t u : Token) (rest : List Token) :
    nameThen t (.identifier s :: u :: rest) = .ok (decide (u = t), .identifier s :: u :: rest) := rfl

@[simp] theorem next?_cons (q : Token → Bool) :
    next? q (t :: rest) = .ok (if q t then (some t, rest) else (none, t :: rest)) := by
  unfold next?
  by_cases h : q t <;> simp [h]

/-- The parser reads the first tokens of a list and leaves the rest. -/
abbrev Takes (p : Parser α) (ts rest : List Token) : Prop := ∃ a, p ts = .ok (a, rest)

/-! ### Repetition -/

variable {more : List Token → Bool} {as : List α}

/-- Phrases that are read one after the other, up to where the tokens ahead ask for no more. -/
inductive Many (more : List Token → Bool) (p : Parser α) :
    List Token → List α → List Token → Prop
  | done {ts : List Token} : more ts = false → Many more p ts [] ts
  | next {ts us rest : List Token} {a : α} {as : List α} : more ts = true →
      p ts = .ok (a, us) → us.length < ts.length → Many more p us as rest →
      Many more p ts (a :: as) rest

theorem Many.atMost_eq (h : Many more p ts as rest) {n : Nat} (hn : ts.length < n) :
    atMost more p n ts = .ok (as, rest) := by
  induction h generalizing n with
  | done hmore =>
    cases n with
    | zero => rfl
    | succ n => simp [atMost, hmore]
  | next hmore hp hlt _ ih =>
    cases n with
    | zero => omega
    | succ n => simp [atMost, hmore, hp, ih (Nat.lt_of_lt_of_le hlt (Nat.le_of_lt_succ hn))]

/-- **Repetition reads phrase after phrase.** -/
theorem Many.many_eq (h : Many more p ts as rest) : many more p ts = .ok (as, rest) := by
  simp [many, h.atMost_eq (Nat.lt_succ_self _)]

/-- Where the tokens ahead ask for none, no phrase is read. -/
theorem many_eq_nil (h : more ts = false) : many more p ts = .ok ([], ts) :=
  (Many.done h).many_eq

theorem many_head_eq_nil (h : ts.head? ≠ some t) :
    many (fun ts => ts.head? == some t) p ts = .ok ([], ts) :=
  many_eq_nil (by simpa using h)

section Items

variable {ι : Type} {xs : List ι} {tok : ι → List Token} {R : ι → α → Prop}
  {Follow : List Token → Prop}

/-- **Phrases in a row.** Each item is read where an item or the end of all follows. -/
theorem exists_many (hpos : ∀ x ∈ xs, tok x ≠ [])
    (h : ∀ x ∈ xs, ∀ us, Follow us →
      more (tok x ++ us) = true ∧ ∃ a, R x a ∧ p (tok x ++ us) = .ok (a, us))
    (hitem : ∀ x ∈ xs, ∀ us, Follow (tok x ++ us)) (hend : Follow rest)
    (hstop : more rest = false) :
    ∃ as, List.Forall₂ R xs as ∧ Many more p (xs.flatMap tok ++ rest) as rest := by
  induction xs with
  | nil => exact ⟨[], .nil, .done hstop⟩
  | cons x xs ih =>
    obtain ⟨hposx, hpos⟩ := List.forall_mem_cons.1 hpos
    obtain ⟨hx, hxs⟩ := List.forall_mem_cons.1 h
    obtain ⟨_, hitem⟩ := List.forall_mem_cons.1 hitem
    obtain ⟨as, hR, hmany⟩ := ih hpos hxs hitem
    have hfollow : Follow (xs.flatMap tok ++ rest) := by
      cases xs with
      | nil => exact hend
      | cons y ys => simpa using hitem y List.mem_cons_self (ys.flatMap tok ++ rest)
    obtain ⟨hmore, a, hRx, hp⟩ := hx _ hfollow
    have hlength := List.length_pos_iff.2 hposx
    refine ⟨a :: as, .cons hRx hR, ?_⟩
    rw [List.flatMap_cons, List.append_assoc]
    exact .next hmore hp (by simp only [List.length_append]; omega) hmany

/-- Lists of tokens with a token between each two. -/
def separated (sep : Token) : List (List Token) → List Token
  | [] => []
  | x :: xs => x ++ xs.flatMap (sep :: ·)

theorem length_le_separated (sep : Token) {xs : List (List Token)} {x : List Token} (hx : x ∈ xs) :
    x.length ≤ (separated sep xs).length := by
  cases xs with
  | nil => cases hx
  | cons y ys =>
    rw [separated, List.length_append]
    rcases List.mem_cons.1 hx with rfl | hx
    · omega
    · obtain ⟨before, after, rfl⟩ := List.append_of_mem hx
      simp only [List.flatMap_append, List.flatMap_cons, List.length_append, List.length_cons]
      omega

theorem mem_separated {sep u : Token} {xs : List (List Token)} (h : u ∈ separated sep xs) :
    u = sep ∨ ∃ x ∈ xs, u ∈ x := by
  cases xs with
  | nil => cases h
  | cons x xs =>
    rcases List.mem_append.1 h with h | h
    · exact .inr ⟨x, List.mem_cons_self, h⟩
    · obtain ⟨y, hy, hu⟩ := List.mem_flatMap.1 h
      rcases List.mem_cons.1 hu with rfl | hu
      · exact .inl rfl
      · exact .inr ⟨y, List.mem_cons_of_mem _ hy, hu⟩

/-- **Phrases with a token between each two.** -/
theorem exists_sepBy {sep : Token} (hne : xs ≠ [])
    (h : ∀ x ∈ xs, ∀ us, Follow us → ∃ a, R x a ∧ p (tok x ++ us) = .ok (a, us))
    (hsep : ∀ us, Follow (sep :: us)) (hend : Follow rest) (hstop : rest.head? ≠ some sep) :
    ∃ as, List.Forall₂ R xs as ∧
      sepBy sep p (separated sep (xs.map tok) ++ rest) = .ok (as, rest) := by
  obtain ⟨x, xs, rfl⟩ := List.exists_cons_of_ne_nil hne
  obtain ⟨hx, hxs⟩ := List.forall_mem_cons.1 h
  have hmore : ∀ y ∈ xs, ∀ us, Follow us →
      ((sep :: tok y ++ us).head? == some sep) = true ∧
        ∃ a, R y a ∧ (do accept sep; p : Parser α) (sep :: tok y ++ us) = .ok (a, us) := by
    intro y hy us hus
    obtain ⟨a, hR, hp⟩ := hxs y hy us hus
    exact ⟨by simp, a, hR, by simp [hp]⟩
  obtain ⟨as, hRs, hmany⟩ : ∃ as, List.Forall₂ R xs as ∧
      Many (fun ts => ts.head? == some sep) (do accept sep; p)
        (xs.flatMap (fun y => sep :: tok y) ++ rest) as rest :=
    exists_many (by simp) hmore (fun _ _ _ => hsep _) hend (by simpa using hstop)
  have hfollow : Follow (xs.flatMap (fun y => sep :: tok y) ++ rest) := by
    cases xs with
    | nil => exact hend
    | cons y ys => exact hsep _
  obtain ⟨a, hR, hp⟩ := hx _ hfollow
  refine ⟨a :: as, .cons hR hRs, ?_⟩
  simp [sepBy, separated, List.flatMap_map, hp, hmany.many_eq]

/-- Phrases with a token between each two, of which nothing is kept. -/
theorem takes_sepBy {sep : Token} (hne : xs ≠ [])
    (h : ∀ x ∈ xs, ∀ us, Follow us → Takes p (tok x ++ us) us)
    (hsep : ∀ us, Follow (sep :: us)) (hend : Follow rest) (hstop : rest.head? ≠ some sep) :
    Takes (sepBy sep p) (separated sep (xs.map tok) ++ rest) rest := by
  obtain ⟨as, -, has⟩ := exists_sepBy (R := fun _ _ => True) hne
    (fun x hx us hus => (h x hx us hus).imp fun _ ha => ⟨trivial, ha⟩) hsep hend hstop
  exact ⟨as, has⟩

end Items

/-! ### Brackets -/

/-- Pairs of brackets. -/
def brackets (n : Nat) : List Token := (List.replicate n [openBracket, closeBracket]).flatten

@[simp] theorem brackets_zero : brackets 0 = [] := rfl

theorem brackets_succ (n : Nat) : brackets (n + 1) = openBracket :: closeBracket :: brackets n := rfl

theorem rank_brackets (n : Nat) (hrest : rest.head? ≠ some openBracket) :
    rank (brackets n ++ rest) = .ok (n, rest) := by
  have hmany : Many (fun ts => [openBracket, closeBracket].isPrefixOf ts)
      (acceptAll [openBracket, closeBracket]) (brackets n ++ rest) (List.replicate n ()) rest := by
    induction n with
    | zero =>
      refine .done ?_
      cases rest with
      | nil => rfl
      | cons t rest =>
        have ht : openBracket ≠ t := fun h => hrest (congrArg some h.symm)
        simpa [List.isPrefixOf] using fun h => absurd h ht
    | succ n ih =>
      refine .next rfl (by simp [brackets_succ]) ?_ ih
      simp only [brackets_succ, List.length_append, List.length_cons]
      omega
  simp [rank, hmany.many_eq]

end EntityScaffold.Java.Parser
