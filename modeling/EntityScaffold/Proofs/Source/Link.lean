import Mathlib.Data.List.Chain
import Mathlib.Data.List.Nodup
import Mathlib.Logic.Relation
import Mathlib.Tactic.Common
import EntityScaffold.Source.Scan

/-!
# Links between described classes

A declaration is described after the class it extends. `Links` tells in three cases how it comes to
its description: it was described before, it is described without a superclass, or the class above
it is described first. What is kept of all this (`Memo`) says of every description where its
superclass comes from, and it says the same however the scan got there. On it rest the shape of
superclass chains, the place where a cycle is cut, and the independence of the order of units.

The cut of a cycle is the delicate part. A link is left out where it leads back to a declaration
that is under way, and then the whole cycle is under way (`Entered.mem_of_reaches`), so no other
link of it has been left out, and none will be.
-/

namespace EntityScaffold

open Java Relation

namespace Scan

variable {s : Scan}

/-! ### Declarations and what they extend -/

theorem mem_topLevels {name : String} {u : SourceUnit} {d : TypeDecl} :
    (name, u, d) ∈ s.topLevels ↔ u ∈ s.units ∧ d ∈ u.types ∧ name = u.qualify d.name := by
  simp only [topLevels, List.mem_flatMap, List.mem_map, Prod.mk.injEq]
  constructor
  · rintro ⟨u, hu, d, hd, rfl, rfl, rfl⟩
    exact ⟨hu, hd, rfl⟩
  · rintro ⟨hu, hd, rfl⟩
    exact ⟨u, hu, d, hd, rfl, rfl, rfl⟩

theorem mem_topLevels_of_find? {name : String} {u : SourceUnit} {d : TypeDecl}
    (h : s.find? name = some (u, d)) : (name, u, d) ∈ s.topLevels := by
  obtain ⟨l₁, l₂, hl, -⟩ := List.lookup_eq_some_iff.1 h
  have hmem : (name, u, d) ∈ s.topLevels.reverse := by
    show (name, u, d) ∈ s.latest
    rw [hl]
    exact List.mem_append_right _ List.mem_cons_self
  exact List.mem_reverse.1 hmem

theorem find?_eq_none_iff {name : String} : s.find? name = none ↔ name ∉ s.topLevels.map (·.1) := by
  unfold find? latest
  rw [List.lookup_eq_none_iff, List.mem_map]
  constructor
  · rintro h ⟨p, hp, rfl⟩
    simpa using h p (List.mem_reverse.2 hp)
  · intro h p hp
    rw [bne_iff_ne]
    rintro rfl
    exact h ⟨p, List.mem_reverse.1 hp, rfl⟩

/-- The qualified name that the extends clause of a declaration means. -/
def superName? (s : Scan) (u : SourceUnit) (d : TypeDecl) : Option String :=
  d.superclass.map (Scope.mk u s.declared).qualifiedHead

/-- A declaration of one top-level type extends another top-level type. -/
def Extends (s : Scan) (a b : String) : Prop :=
  ∃ u d, (a, u, d) ∈ s.topLevels ∧ s.superName? u d = some b ∧ b ∈ s.topLevels.map (·.1)

/-- A type extends what the declaration that links go to extends. -/
theorem extends_of_find? {a b : String}
    (h : ((s.find? a).bind fun x => s.superName? x.1 x.2) = some b)
    (hb : (s.find? b).isSome = true) : s.Extends a b := by
  obtain ⟨⟨u, d⟩, hfind, hname⟩ := Option.bind_eq_some_iff.1 h
  obtain ⟨⟨u', d'⟩, hfind'⟩ := Option.isSome_iff_exists.1 hb
  exact ⟨u, d, mem_topLevels_of_find? hfind, hname,
    List.mem_map_of_mem (mem_topLevels_of_find? hfind')⟩

/-- Two types lie on one inheritance cycle. -/
def SameCycle (s : Scan) (a b : String) : Prop := TransGen s.Extends a b ∧ TransGen s.Extends b a

/-- No two top-level types share a qualified name. -/
def IsDistinct (s : Scan) : Prop := (s.topLevels.map (·.1)).Nodup

/-- A qualified name has one declaration. -/
theorem IsDistinct.eq_of_mem (hs : s.IsDistinct) {name : String} {x y : SourceUnit × TypeDecl}
    (hx : (name, x) ∈ s.topLevels) (hy : (name, y) ∈ s.topLevels) : x = y := by
  have h := List.inj_on_of_nodup_map hs hx hy rfl
  exact congrArg Prod.snd h

/-- A type extends one type at most. -/
theorem IsDistinct.rightUnique (hs : s.IsDistinct) : Relator.RightUnique s.Extends := by
  rintro a b b' ⟨u, d, hmem, hb, -⟩ ⟨u', d', hmem', hb', -⟩
  obtain ⟨rfl, rfl⟩ := Prod.mk.inj (hs.eq_of_mem hmem hmem')
  exact Option.some.inj (hb.symm.trans hb')

/-! ### The three cases of a link -/

/-- How a declaration comes to its description, and what is made then, from what is made before and
the names under way. -/
inductive Links (s : Scan) (made : Described) :
    List String → String → SourceUnit → TypeDecl → SourceClass → Described → Prop
  /-- The name is described already. -/
  | made {active : List String} {name : String} {u : SourceUnit} {d : TypeDecl} {c : SourceClass} :
      made.lookup name = some c → Links s made active name u d c made
  /-- What the declaration extends is nothing, under way, or no top-level type. -/
  | alone {active : List String} {name : String} {u : SourceUnit} {d : TypeDecl} :
      made.lookup name = none →
      (∀ target, s.superName? u d = some target →
        target ∈ name :: active ∨ target ∉ s.topLevels.map (·.1)) →
      Links s made active name u d (s.describe u d none) ((name, s.describe u d none) :: made)
  /-- The type that the declaration extends is described first. -/
  | above {active : List String} {name target : String} {u u' : SourceUnit} {d d' : TypeDecl}
      {p : SourceClass} {made' : Described} :
      made.lookup name = none → s.superName? u d = some target → target ∉ name :: active →
      s.find? target = some (u', d') → Links s made (name :: active) target u' d' p made' →
      Links s made active name u d (s.describe u d (some p))
        ((name, s.describe u d (some p)) :: made')

theorem links_link (s : Scan) (active : List String) (made : Described) (name : String)
    (u : SourceUnit) (d : TypeDecl) :
    s.Links made active name u d (s.link active made name u d).1
      (s.link active made name u d).2 := by
  induction active, name, u, d using link.induct s made with
  | case1 active name u d c h =>
    rw [link]
    simp only [h]
    exact .made h
  | case2 active name u d h ih =>
    rw [link]
    simp only [h]
    split
    · rename_i hsuper
      exact .alone h fun target ht => by simp [superName?, hsuper] at ht
    · rename_i target hsuper
      have hname : s.superName? u d = some target := hsuper
      split
      · rename_i hactive
        exact .alone h fun target' ht => Or.inl (Option.some.inj (hname.symm.trans ht) ▸ hactive)
      · rename_i hactive
        split
        · rename_i hfind
          exact .alone h fun target' ht =>
            Or.inr (find?_eq_none_iff.1 (Option.some.inj (hname.symm.trans ht) ▸ hfind))
        · rename_i u' d' hfind
          exact .above h hname hactive hfind (ih target hactive u' d' hfind)

/-! ### Declarations under way -/

/-- A declaration is entered while others are under way: each of these extends the one that was
entered after it, and none is described. -/
structure Entered (s : Scan) (made : Described) (active : List String) (name : String) : Prop where
  notMem : name ∉ active
  chain : (name :: active).IsChain fun a b => s.Extends b a
  new : ∀ a ∈ active, made.lookup a = none

theorem entered_nil (s : Scan) (made : Described) (name : String) : s.Entered made [] name :=
  ⟨List.not_mem_nil, .singleton name, fun _ h => absurd h List.not_mem_nil⟩

namespace Entered

variable {made : Described} {active : List String} {name : String}

/-- What the declaration extends is entered next. -/
theorem above (h : s.Entered made active name) (hnew : made.lookup name = none) {target : String}
    (he : s.Extends name target) (ht : target ∉ name :: active) :
    s.Entered made (name :: active) target := by
  refine ⟨ht, List.isChain_cons_cons.2 ⟨he, h.chain⟩, fun a ha => ?_⟩
  rcases List.mem_cons.1 ha with rfl | ha
  · exact hnew
  · exact h.new a ha

/-- Everything under way leads to the declaration that was entered last. -/
theorem reaches (h : s.Entered made active name) {a : String} (ha : a ∈ name :: active) :
    ReflTransGen s.Extends a name := by
  have hchain := h.chain
  clear h
  induction active generalizing name with
  | nil =>
    obtain rfl := List.mem_singleton.1 ha
    exact .refl
  | cons next active ih =>
    obtain ⟨hlast, hrest⟩ := List.isChain_cons_cons.1 hchain
    rcases List.mem_cons.1 ha with rfl | ha
    · exact .refl
    · exact (ih ha hrest).tail hlast

/-- What a declaration under way extends was entered after it. -/
theorem mem_of_extends (h : s.Entered made active name) (hs : s.IsDistinct) {a b : String}
    (ha : a ∈ active) (he : s.Extends a b) : b ∈ name :: active := by
  have hchain := h.chain
  clear h
  induction active generalizing name with
  | nil => cases ha
  | cons next active ih =>
    obtain ⟨hlast, hrest⟩ := List.isChain_cons_cons.1 hchain
    rcases List.mem_cons.1 ha with rfl | ha
    · exact hs.rightUnique hlast he ▸ List.mem_cons_self
    · exact List.mem_cons_of_mem name (ih ha hrest)

/-- If the declaration extends one that is under way, then whatever that one leads to is under way
too. -/
theorem mem_of_reaches (h : s.Entered made active name) (hs : s.IsDistinct) {target a : String}
    (he : s.Extends name target) (ht : target ∈ name :: active)
    (ha : ReflTransGen s.Extends target a) : a ∈ name :: active := by
  induction ha with
  | refl => exact ht
  | tail _ hstep ih =>
    rcases List.mem_cons.1 ih with rfl | hactive
    · exact hs.rightUnique he hstep ▸ ht
    · exact h.mem_of_extends hs hactive hstep

end Entered

/-! ### What is kept -/

@[simp] theorem superclass_describe (s : Scan) (u : SourceUnit) (d : TypeDecl)
    (p : Option SourceClass) : (s.describe u d p).superclass = p := rfl

/-- Where the description of a declaration comes from, among those that are made. -/
inductive Describes (s : Scan) (made : Described) (name : String) : SourceClass → Prop
  /-- What the declaration extends is no top-level type, or leads back to it. -/
  | alone {u : SourceUnit} {d : TypeDecl} :
      (name, u, d) ∈ s.topLevels →
      (∀ target, s.superName? u d = some target → target ∈ s.topLevels.map (·.1) →
        ReflTransGen s.Extends target name) →
      Describes s made name (s.describe u d none)
  /-- What the declaration extends is described. -/
  | above {u : SourceUnit} {d : TypeDecl} {target : String} {p : SourceClass} :
      (name, u, d) ∈ s.topLevels → s.superName? u d = some target →
      target ∈ s.topLevels.map (·.1) → made.lookup target = some p →
      Describes s made name (s.describe u d (some p))

/-- All earlier descriptions are kept. -/
def Described.Keeps (made made' : Described) : Prop :=
  ∀ ⦃name c⦄, made.lookup name = some c → made'.lookup name = some c

theorem Describes.mono {made made' : Described} {name : String} {c : SourceClass}
    (h : s.Describes made name c) (hkeeps : made.Keeps made') : s.Describes made' name c := by
  cases h with
  | alone hmem hback => exact .alone hmem hback
  | above hmem hname htarget hp => exact .above hmem hname htarget (hkeeps hp)

theorem Describes.qualifiedName_eq {made : Described} {name : String} {c : SourceClass}
    (h : s.Describes made name c) : c.qualifiedName = name := by
  cases h with
  | alone hmem => exact (mem_topLevels.1 hmem).2.2.symm
  | above hmem => exact (mem_topLevels.1 hmem).2.2.symm

/-- What holds of all descriptions that are made. -/
structure Memo (s : Scan) (made : Described) : Prop where
  describes {name : String} {c : SourceClass} :
    made.lookup name = some c → s.Describes made name c
  /-- Of an inheritance cycle one link at most is left out. -/
  cut_unique {a b : String} {ca cb : SourceClass} :
    s.IsDistinct → made.lookup a = some ca → made.lookup b = some cb →
    ca.superclass = none → cb.superclass = none → s.SameCycle a b → a = b

theorem memo_nil (s : Scan) : s.Memo [] where
  describes h := by cases h
  cut_unique _ h := by cases h

/-- Lookup after a description is added. -/
theorem lookup_cons_eq (made : Described) (name a : String) (c : SourceClass) :
    List.lookup a ((name, c) :: made) = if a = name then some c else made.lookup a := by
  rw [List.lookup_cons]
  by_cases h : a = name
  · simp [h]
  · simp [h, beq_false_of_ne h]

theorem keeps_cons {made : Described} {name : String} (hnew : made.lookup name = none)
    (c : SourceClass) : made.Keeps ((name, c) :: made) := by
  intro a ca ha
  have hne : a ≠ name := fun h => by simp [h, hnew] at ha
  rw [lookup_cons_eq, if_neg hne, ha]

/-- A new description may be added. If its link is left out, no other one of its cycle may be there
yet. -/
theorem Memo.cons {made : Described} {name : String} {c : SourceClass} (hm : s.Memo made)
    (hnew : made.lookup name = none) (hc : s.Describes made name c)
    (hcut : s.IsDistinct → c.superclass = none →
      ∀ a, s.SameCycle name a → a ≠ name → made.lookup a = none) :
    s.Memo ((name, c) :: made) where
  describes := by
    intro a ca ha
    rw [lookup_cons_eq] at ha
    split at ha
    · rename_i heq
      subst heq
      cases ha
      exact hc.mono (keeps_cons hnew c)
    · exact (hm.describes ha).mono (keeps_cons hnew c)
  cut_unique := by
    intro a b ca cb hs ha hb hca hcb hcycle
    rw [lookup_cons_eq] at ha hb
    split at ha <;> split at hb
    · rename_i ha' hb'
      exact ha'.trans hb'.symm
    · rename_i ha' hb'
      subst ha'
      cases ha
      simp [hcut hs hca b hcycle hb'] at hb
    · rename_i ha' hb'
      subst hb'
      cases hb
      simp [hcut hs hcb a ⟨hcycle.2, hcycle.1⟩ ha'] at ha
    · exact hm.cut_unique hs ha hb hca hcb hcycle

/-- What a link leaves behind. -/
structure Linked (s : Scan) (made : Described) (active : List String) (name : String)
    (c : SourceClass) (made' : Described) : Prop where
  memo : s.Memo made'
  lookup : made'.lookup name = some c
  keeps : made.Keeps made'
  new : ∀ a ∈ active, made'.lookup a = none

/-- **A link keeps what holds of all descriptions**, and describes nothing that is under way. -/
theorem Links.linked {made made' : Described} {active : List String} {name : String}
    {u : SourceUnit} {d : TypeDecl} {c : SourceClass} (h : s.Links made active name u d c made')
    (hmem : (name, u, d) ∈ s.topLevels) (he : s.Entered made active name) (hm : s.Memo made) :
    s.Linked made active name c made' := by
  induction h with
  | made hc => exact ⟨hm, hc, fun _ _ h => h, he.new⟩
  | @alone active name u d hnew htarget =>
    have hback (target : String) (ht : s.superName? u d = some target)
        (htop : target ∈ s.topLevels.map (·.1)) : target ∈ name :: active :=
      (htarget target ht).resolve_right fun h => h htop
    refine ⟨hm.cons hnew (.alone hmem fun target ht htop => he.reaches (hback target ht htop)) ?_,
      by rw [lookup_cons_eq, if_pos rfl], keeps_cons hnew _, fun a ha => ?_⟩
    · -- the cycle that is cut here is under way as a whole
      intro hs _ a hcycle hne
      obtain ⟨target, hstep, hrest⟩ := TransGen.head'_iff.1 hcycle.1
      obtain ⟨u', d', hmem', ht, htop⟩ := hstep
      obtain ⟨rfl, rfl⟩ := Prod.mk.inj (hs.eq_of_mem hmem hmem')
      have ha := he.mem_of_reaches hs ⟨_, _, hmem, ht, htop⟩ (hback target ht htop) hrest
      exact he.new a ((List.mem_cons.1 ha).resolve_left hne)
    · rw [lookup_cons_eq, if_neg (ne_of_mem_of_not_mem ha he.notMem)]
      exact he.new a ha
  | @above active name target u u' d d' p made' hnew hname hactive hfind hlinks ih =>
    have hmem' := mem_topLevels_of_find? hfind
    have htop : target ∈ s.topLevels.map (·.1) := List.mem_map_of_mem hmem'
    have hp := ih hmem' (he.above hnew ⟨u, d, hmem, hname, htop⟩ hactive)
    have hnew' : made'.lookup name = none := hp.new name List.mem_cons_self
    refine ⟨hp.memo.cons hnew' (.above hmem hname htop hp.lookup) (fun _ h => by cases h),
      by rw [lookup_cons_eq, if_pos rfl], fun a ca ha => keeps_cons hnew' _ (hp.keeps ha),
      fun a ha => ?_⟩
    rw [lookup_cons_eq, if_neg (ne_of_mem_of_not_mem ha he.notMem)]
    exact hp.new a (List.mem_cons_of_mem _ ha)

/-! ### The memo of a scan -/

/-- What is made after declarations are described in order. -/
def madeAfter (s : Scan) (made : Described) (decls : List (String × SourceUnit × TypeDecl)) :
    Described :=
  decls.foldl (fun made x => (s.link [] made x.1 x.2.1 x.2.2).2) made

/-- All descriptions of a scan, by qualified name. -/
def described (s : Scan) : Described := s.madeAfter [] s.topLevels

theorem memo_madeAfter {made : Described} {decls : List (String × SourceUnit × TypeDecl)}
    (hm : s.Memo made) (h : decls ⊆ s.topLevels) :
    s.Memo (s.madeAfter made decls) ∧ made.Keeps (s.madeAfter made decls) ∧
      (s.linkAll made decls).map some = decls.map fun x => (s.madeAfter made decls).lookup x.1 := by
  induction decls generalizing made with
  | nil => exact ⟨hm, fun _ _ h => h, rfl⟩
  | cons x decls ih =>
    obtain ⟨name, u, d⟩ := x
    obtain ⟨hmem, hrest⟩ := List.cons_subset.1 h
    have hlinked := (s.links_link [] made name u d).linked hmem (entered_nil s made name) hm
    obtain ⟨hm', hkeeps, heq⟩ := ih hlinked.memo hrest
    refine ⟨hm', fun a ca ha => hkeeps (hlinked.keeps ha), ?_⟩
    have hfirst : (s.madeAfter made ((name, u, d) :: decls)).lookup name = some _ :=
      hkeeps hlinked.lookup
    simp only [List.map_cons, hfirst]
    exact congrArg (some _ :: ·) heq

theorem memo_described (s : Scan) : s.Memo s.described :=
  (memo_madeAfter (memo_nil s) (List.Subset.refl s.topLevels)).1

/-- **The classes of a scan are its declarations looked up in one memo.** -/
theorem map_some_classes (s : Scan) :
    s.classes.map some = s.topLevels.map fun x => s.described.lookup x.1 :=
  (memo_madeAfter (memo_nil s) (List.Subset.refl s.topLevels)).2.2

/-- A class of a scan is kept under its qualified name. -/
theorem lookup_of_mem_classes {c : SourceClass} (hc : c ∈ s.classes) :
    s.described.lookup c.qualifiedName = some c := by
  have hmem : some c ∈ s.classes.map some := List.mem_map_of_mem hc
  rw [map_some_classes] at hmem
  obtain ⟨x, -, hx⟩ := List.mem_map.1 hmem
  rwa [(s.memo_described.describes hx).qualifiedName_eq]

/-- A top-level type has a class, and it is the one that is kept. -/
theorem exists_mem_classes {name : String} (hname : name ∈ s.topLevels.map (·.1)) :
    ∃ c ∈ s.classes, c.qualifiedName = name ∧ s.described.lookup name = some c := by
  obtain ⟨x, hx, rfl⟩ := List.mem_map.1 hname
  have hmem : s.described.lookup x.1 ∈ s.topLevels.map fun x => s.described.lookup x.1 :=
    List.mem_map_of_mem hx
  rw [← map_some_classes] at hmem
  obtain ⟨c, hc, hlookup⟩ := List.mem_map.1 hmem
  exact ⟨c, hc, (s.memo_described.describes hlookup.symm).qualifiedName_eq, hlookup.symm⟩

/-- Every declaration has its description, in order. -/
theorem map_qualifiedName_classes (s : Scan) :
    s.classes.map (·.qualifiedName) = s.topLevels.map (·.1) := by
  have heq := s.map_some_classes
  refine List.ext_getElem (by simpa using congrArg List.length heq) fun i h₁ h₂ => ?_
  have hi := congrArg (·[i]?) heq
  simp only [List.length_map] at h₁ h₂
  simp only [List.getElem?_map, List.getElem?_eq_getElem h₁, List.getElem?_eq_getElem h₂,
    Option.map_some, Option.some.injEq] at hi
  simpa using (s.memo_described.describes hi.symm).qualifiedName_eq

end Scan

end EntityScaffold
