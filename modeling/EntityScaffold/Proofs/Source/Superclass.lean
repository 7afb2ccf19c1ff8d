import EntityScaffold.Proofs.Source.Link

/-!
# Superclass chains

Any units can be scanned, whatever their extends clauses: nothing extends itself in the result. All
classes of a chain are kept in one memo, where a name has one description, so a chain that comes
back to a name would be longer than itself (`Memo.nodup_chain`). For the same reason a link is
missing on every inheritance cycle (`Memo.exists_cut`), and by `Memo.cut_unique` it is one link.
-/

namespace EntityScaffold

open Java Relation

namespace SourceClass

theorem chain_of_superclass_eq_none {c : SourceClass} (h : c.superclass = none) : c.chain = [] := by
  cases c with
  | mk name package kind modifiers annotations fields interfaces arities superclass file =>
    subst h
    rfl

theorem chain_of_superclass_eq_some {c p : SourceClass} (h : c.superclass = some p) :
    c.chain = p :: p.chain := by
  cases c with
  | mk name package kind modifiers annotations fields interfaces arities superclass file =>
    subst h
    rfl

/-- What goes down every link holds of every class. -/
@[elab_as_elim]
theorem superclass_induction {motive : SourceClass → Prop}
    (alone : ∀ c, c.superclass = none → motive c)
    (above : ∀ c p, c.superclass = some p → motive p → motive c) : ∀ c, motive c
  | ⟨_, _, _, _, _, _, _, _, none, _⟩ => alone _ rfl
  | ⟨_, _, _, _, _, _, _, _, some p, _⟩ => above _ p rfl (superclass_induction alone above p)

/-- A chain gets shorter on the way up. -/
theorem length_chain_lt_of_mem {c x : SourceClass} (h : x ∈ c.chain) :
    x.chain.length < c.chain.length := by
  induction c using superclass_induction with
  | alone c hp => simp [chain_of_superclass_eq_none hp] at h
  | above c p hp ih =>
    rw [chain_of_superclass_eq_some hp] at h ⊢
    rcases List.mem_cons.1 h with rfl | h
    · exact Nat.lt_succ_self _
    · exact Nat.lt_succ_of_lt (ih h)

/-- Without a repeated name nothing is cut off. -/
theorem untilRepeated_eq_self {seen : List String} {cs : List SourceClass}
    (hseen : ∀ c ∈ cs, c.qualifiedName ∉ seen) (h : (cs.map (·.qualifiedName)).Nodup) :
    untilRepeated seen cs = cs := by
  induction cs generalizing seen with
  | nil => rfl
  | cons c cs ih =>
    obtain ⟨hc, hcs⟩ := List.nodup_cons.1 h
    rw [untilRepeated, if_neg (hseen c List.mem_cons_self), ih _ hcs]
    intro x hx hmem
    rcases List.mem_cons.1 hmem with heq | hmem
    · exact hc (List.mem_map.2 ⟨x, hx, heq⟩)
    · exact hseen x (List.mem_cons_of_mem c hx) hmem

theorem ancestors_eq_chain {c : SourceClass}
    (h : ((c :: c.chain).map (·.qualifiedName)).Nodup) : c.ancestors = c.chain := by
  obtain ⟨hc, hchain⟩ := List.nodup_cons.1 h
  exact untilRepeated_eq_self
    (fun x hx hmem => hc (List.mem_map.2 ⟨x, hx, List.mem_singleton.1 hmem⟩)) hchain

end SourceClass

namespace Scan

variable {s : Scan} {made : Described}

/-! ### Inheritance cycles -/

namespace SameCycle

variable {a b c : String}

theorem symm (h : s.SameCycle a b) : s.SameCycle b a := ⟨h.2, h.1⟩

theorem trans (h : s.SameCycle a b) (h' : s.SameCycle b c) : s.SameCycle a c :=
  ⟨h.1.trans h'.1, h'.2.trans h.2⟩

/-- The types of a cycle are declared. -/
theorem mem_topLevels (h : s.SameCycle a b) : a ∈ s.topLevels.map (·.1) := by
  obtain ⟨-, ⟨u, d, hmem, -⟩, -⟩ := TransGen.head'_iff.1 h.1
  exact List.mem_map_of_mem hmem

/-- A link that leads back lies on a cycle. -/
theorem of_reaches (he : s.Extends a b) (h : ReflTransGen s.Extends b a) : s.SameCycle a b := by
  rcases reflTransGen_iff_eq_or_transGen.1 h with rfl | htrans
  · exact ⟨.single he, .single he⟩
  · exact ⟨.single he, htrans⟩

/-- A cycle goes on with what its types extend. -/
theorem of_extends (hs : s.IsDistinct) (h : s.SameCycle a a) (he : s.Extends a b) :
    s.SameCycle a b := by
  obtain ⟨b', hstep, hrest⟩ := TransGen.head'_iff.1 h.1
  obtain rfl := hs.rightUnique he hstep
  exact .of_reaches he hrest

end SameCycle

/-! ### Chains in a memo -/

namespace Memo

/-- The superclass of a description is itself kept, and an extends clause leads to it. -/
theorem of_superclass (hm : s.Memo made) {name : String} {c p : SourceClass}
    (h : made.lookup name = some c) (hp : c.superclass = some p) :
    s.Extends name p.qualifiedName ∧ made.lookup p.qualifiedName = some p := by
  cases hm.describes h with
  | alone => cases hp
  | above hmem hname htarget hlookup =>
    cases hp
    rw [(hm.describes hlookup).qualifiedName_eq]
    exact ⟨⟨_, _, hmem, hname, htarget⟩, hlookup⟩

/-- All classes of a chain are kept. -/
theorem lookup_of_mem_chain (hm : s.Memo made) {name : String} {c x : SourceClass}
    (h : made.lookup name = some c) (hx : x ∈ c.chain) :
    made.lookup x.qualifiedName = some x := by
  induction c using SourceClass.superclass_induction generalizing name with
  | alone c hp => simp [SourceClass.chain_of_superclass_eq_none hp] at hx
  | above c p hp ih =>
    rw [SourceClass.chain_of_superclass_eq_some hp] at hx
    have hlookup := (hm.of_superclass h hp).2
    rcases List.mem_cons.1 hx with rfl | hx
    · exact hlookup
    · exact ih hlookup hx

/-- No name comes twice in a chain: the class above and the class below would be the same. -/
theorem nodup_chain (hm : s.Memo made) {name : String} {c : SourceClass}
    (h : made.lookup name = some c) : ((c :: c.chain).map (·.qualifiedName)).Nodup := by
  induction c using SourceClass.superclass_induction generalizing name with
  | alone c hp => simp [SourceClass.chain_of_superclass_eq_none hp]
  | above c p hp ih =>
    rw [List.map_cons, List.nodup_cons]
    constructor
    · intro hmem
      obtain ⟨x, hx, heq⟩ := List.mem_map.1 hmem
      have hlookup := hm.lookup_of_mem_chain h hx
      rw [heq, (hm.describes h).qualifiedName_eq, h] at hlookup
      obtain rfl := Option.some.inj hlookup
      exact absurd (SourceClass.length_chain_lt_of_mem hx) (Nat.lt_irrefl _)
    · rw [SourceClass.chain_of_superclass_eq_some hp]
      exact ih (hm.of_superclass h hp).2

/-- An extends clause is linked to the description of what it extends, or it lies on a cycle and is
left out. -/
theorem linked_or_cut (hm : s.Memo made) (hs : s.IsDistinct) {a b : String} {c : SourceClass}
    (h : made.lookup a = some c) (he : s.Extends a b) :
    (∃ p, c.superclass = some p ∧ made.lookup b = some p) ∨
      c.superclass = none ∧ s.SameCycle a b := by
  cases hp : c.superclass with
  | some p =>
    obtain ⟨he', hlookup⟩ := hm.of_superclass h hp
    rw [hs.rightUnique he he']
    exact Or.inl ⟨p, rfl, hlookup⟩
  | none =>
    cases hm.describes h with
    | above => cases hp
    | alone hmem hback =>
      obtain ⟨u, d, hmem', hname, htop⟩ := he
      obtain ⟨rfl, rfl⟩ := Prod.mk.inj (hs.eq_of_mem hmem hmem')
      exact Or.inr ⟨rfl, .of_reaches ⟨_, _, hmem, hname, htop⟩ (hback b hname htop)⟩

/-- On an inheritance cycle a link is left out. -/
theorem exists_cut (hm : s.Memo made) (hs : s.IsDistinct) {a : String} {c : SourceClass}
    (h : made.lookup a = some c) (hcycle : s.SameCycle a a) :
    ∃ b cb, s.SameCycle a b ∧ made.lookup b = some cb ∧ cb.superclass = none := by
  induction c using SourceClass.superclass_induction generalizing a with
  | alone c hp => exact ⟨a, c, hcycle, h, hp⟩
  | above c p hp ih =>
    obtain ⟨he, hlookup⟩ := hm.of_superclass h hp
    have hp' := hcycle.of_extends hs he
    obtain ⟨b, cb, hb, hcb, hnone⟩ := ih hlookup (hp'.symm.trans hp')
    exact ⟨b, cb, hp'.trans hb, hcb, hnone⟩

end Memo

/-! ### The classes of a scan -/

/-- **Any inheritance graph is linked.** Every declaration gets a description, whose superclass
chain repeats no name. If no name is declared twice, an extends clause is linked to the description
of the type it means, or it lies on an inheritance cycle and is left out; of each cycle exactly one
is. -/
theorem classes_linked (s : Scan) :
    s.classes.map (·.qualifiedName) = s.topLevels.map (·.1) ∧
      (∀ c ∈ s.classes,
        ((c :: c.chain).map (·.qualifiedName)).Nodup ∧ c.ancestors = c.chain) ∧
      (s.IsDistinct →
        (∀ a b, s.Extends a b → ∃ c ∈ s.classes, c.qualifiedName = a ∧
          ((∃ p ∈ s.classes, p.qualifiedName = b ∧ c.superclass = some p) ∨
            c.superclass = none ∧ s.SameCycle a b)) ∧
        ∀ a, s.SameCycle a a → ∃! b, s.SameCycle a b ∧
          ∃ c ∈ s.classes, c.qualifiedName = b ∧ c.superclass = none) := by
  have hm := s.memo_described
  refine ⟨s.map_qualifiedName_classes, fun c hc => ?_, fun hs => ⟨fun a b he => ?_, ?_⟩⟩
  · have hnodup := hm.nodup_chain (lookup_of_mem_classes hc)
    exact ⟨hnodup, SourceClass.ancestors_eq_chain hnodup⟩
  · obtain ⟨u, d, hmem, -, hb⟩ := id he
    obtain ⟨c, hc, hname, hlookup⟩ := exists_mem_classes (List.mem_map_of_mem hmem)
    refine ⟨c, hc, hname, ?_⟩
    rcases hm.linked_or_cut hs hlookup he with ⟨p, hp, hpb⟩ | hcut
    · obtain ⟨p', hp', hname', hlookup'⟩ := exists_mem_classes hb
      obtain rfl := Option.some.inj (hpb.symm.trans hlookup')
      exact Or.inl ⟨p, hp', hname', hp⟩
    · exact Or.inr hcut
  · intro a hcycle
    obtain ⟨c, -, -, hlookup⟩ := exists_mem_classes hcycle.mem_topLevels
    obtain ⟨b, cb, hb, hcb, hnone⟩ := hm.exists_cut hs hlookup hcycle
    obtain ⟨cb', hmem, hname, hcb'⟩ := exists_mem_classes hb.symm.mem_topLevels
    obtain rfl := Option.some.inj (hcb.symm.trans hcb')
    refine ⟨b, ⟨hb, cb, hmem, hname, hnone⟩, ?_⟩
    rintro b' ⟨hb', cb', hmem', rfl, hnone'⟩
    exact hm.cut_unique hs (lookup_of_mem_classes hmem') hcb hnone' hnone (hb'.symm.trans hb)

/-- The declaration of a class without members, which may extend a class by a simple name. -/
def bareClass (name : String) (superclass : Option String) : TypeDecl where
  kind := .classType
  name := name
  modifiers := ⟨[], []⟩
  superclass := superclass.map fun n => .named n [] [] 0
  interfaces := []
  members := []

/-- Three units with a circle of three classes, a class that extends itself, and a class below the
circle. -/
def knot : Scan where
  units :=
    [{ file := none, package := "shop", imported := [], onDemand := []
       types := [bareClass "Order" (some "Invoice"), bareClass "Root" (some "Root")] },
     { file := none, package := "bill", imported := [], onDemand := ["shop"]
       types := [bareClass "Leaf" (some "Invoice"), bareClass "Receipt" (some "Order")] },
     { file := none, package := "shop", imported := [("Receipt", "bill.Receipt")], onDemand := []
       types := [bareClass "Invoice" (some "Receipt")] }]

example :
    knot.classes.map (fun c => (c.qualifiedName, c.chain.map (·.qualifiedName))) =
      [("shop.Order", ["shop.Invoice", "bill.Receipt"]), ("shop.Root", []),
       ("bill.Leaf", ["shop.Invoice", "bill.Receipt"]), ("bill.Receipt", []),
       ("shop.Invoice", ["bill.Receipt"])] := by
  cbv

/-- The circle is cut once, below the class at which it is entered, and the class below it is
linked to it. -/
theorem classes_linked_knot :
    (∃! b, knot.SameCycle "shop.Order" b ∧
      ∃ c ∈ knot.classes, c.qualifiedName = b ∧ c.superclass = none) ∧
      ∃ c ∈ knot.classes, c.qualifiedName = "bill.Leaf" ∧ c.ancestors = c.chain ∧
        ((∃ p ∈ knot.classes, p.qualifiedName = "shop.Invoice" ∧ c.superclass = some p) ∨
          c.superclass = none ∧ knot.SameCycle "bill.Leaf" "shop.Invoice") := by
  obtain ⟨-, hchain, hlinked⟩ := classes_linked knot
  obtain ⟨hlinked, hcut⟩ := hlinked (by unfold IsDistinct; decide +kernel)
  have horder : knot.Extends "shop.Order" "shop.Invoice" :=
    extends_of_find? (by decide +kernel) (by decide +kernel)
  have hinvoice : knot.Extends "shop.Invoice" "bill.Receipt" :=
    extends_of_find? (by decide +kernel) (by decide +kernel)
  have hreceipt : knot.Extends "bill.Receipt" "shop.Order" :=
    extends_of_find? (by decide +kernel) (by decide +kernel)
  have hleaf : knot.Extends "bill.Leaf" "shop.Invoice" :=
    extends_of_find? (by decide +kernel) (by decide +kernel)
  have hcircle : TransGen knot.Extends "shop.Order" "shop.Order" :=
    .tail (.tail (.single horder) hinvoice) hreceipt
  refine ⟨hcut "shop.Order" ⟨hcircle, hcircle⟩, ?_⟩
  obtain ⟨c, hc, hname, h⟩ := hlinked "bill.Leaf" "shop.Invoice" hleaf
  exact ⟨c, hc, hname, (hchain c hc).2, h⟩

end Scan

end EntityScaffold
