import EntityScaffold.Proofs.Java.Declaration
import EntityScaffold.Proofs.Source.Superclass

/-!
# Member types in scope

The member types of all top-level types of a unit share one table of simple names, behind the
imports of the unit. A name belongs to the last type that has a member type of that name
(`lookup_nested`). So a class finds its own member type under the simple name unless an import or a
later type of the unit takes it, and an enum that is hidden in this way makes the type that hides it
count as one (`namesEnum_qualifyMember_iff`).

A member type of another class has a dotted name, which means what it says unless an import stands
for its first part: the package is not put before it.

All of this is about names that are identifiers, as those of every text are
(`SourceUnit.isLexical_of_read`, `DescribesField.isWellNamed`).
-/

namespace EntityScaffold

open Java Text

namespace SourceUnit

variable {u w : SourceUnit} {name other : String}

/-- The qualified name of a member type of a top-level type. -/
def qualifyMember (u : SourceUnit) (outer name : String) : String := u.qualify outer ++ "." ++ name

/-- The last declared type of the unit that has a member type of the name. -/
def owner? (u : SourceUnit) (name : String) : Option TypeDecl :=
  u.types.reverse.find? fun d => (memberTypes d).any (·.2 == name)

/-- Members of one type are found under their simple names. -/
theorem lookup_members (name : String) (qualified : String → String)
    (members : List (TypeKind × String)) :
    (members.map fun m => (m.2, qualified m.2)).reverse.lookup name =
      if members.any (·.2 == name) then some (qualified name) else none := by
  have hgraph : (members.map fun m => (m.2, qualified m.2)).reverse =
      (members.map (·.2)).reverse.map fun n => (n, qualified n) := by
    simp [Function.comp_def]
  rw [hgraph]
  split
  · rename_i hany
    obtain ⟨m, hm, hname⟩ := List.any_eq_true.1 hany
    refine List.lookup_graph qualified (List.mem_reverse.2 ?_)
    exact beq_iff_eq.1 hname ▸ List.mem_map_of_mem hm
  · rename_i hany
    rw [List.lookup_eq_none_iff]
    rintro p hp
    obtain ⟨n, hn, rfl⟩ := List.mem_map.1 hp
    obtain ⟨m, hm, rfl⟩ := List.mem_map.1 (List.mem_reverse.1 hn)
    rw [bne_iff_ne]
    rintro rfl
    exact hany (List.any_eq_true.2 ⟨m, hm, beq_self_eq_true _⟩)

/-- **A simple name means the member type of its last owner.** -/
theorem lookup_nested (u : SourceUnit) (name : String) :
    u.nested.lookup name = (u.owner? name).map fun d => u.qualifyMember d.name name := by
  rw [nested_eq_foldl, lookup_foldl_putPair, List.lookup_nil, Option.or_none, memberNames,
    List.reverse_flatMap, owner?]
  induction u.types.reverse with
  | nil => rfl
  | cons d types ih =>
    rw [List.flatMap_cons, List.lookup_append, ih, List.find?_cons]
    have hmembers := lookup_members name (u.qualifyMember d.name) (memberTypes d)
    refine (congrArg (Option.or · _) hmembers).trans ?_
    cases (memberTypes d).any (·.2 == name) <;> rfl

/-- A name that some type of the unit declares as a member type has an owner. -/
theorem exists_owner {d : TypeDecl} {kind : TypeKind} (hd : d ∈ u.types)
    (hmember : (kind, name) ∈ memberTypes d) : ∃ owner, u.owner? name = some owner := by
  refine Option.isSome_iff_exists.1 ?_
  rw [owner?, List.find?_isSome]
  exact ⟨d, List.mem_reverse.2 hd, List.any_eq_true.2 ⟨_, hmember, beq_self_eq_true _⟩⟩

/-! ### Parts of qualified names -/

/-- A simple name is the last part of a dotted name. -/
theorem eq_of_append_dot_eq {a b m n : String} (hm : '.' ∉ m.toList) (hn : '.' ∉ n.toList)
    (h : a ++ "." ++ m = b ++ "." ++ n) : a = b ∧ m = n := by
  have hlist : a.toList ++ '.' :: m.toList = b.toList ++ '.' :: n.toList := by
    simpa using congrArg String.toList h
  obtain ⟨hfirst, hlast⟩ := eq_of_append_cons_eq hm hn hlist
  exact ⟨String.toList_inj.1 hfirst, String.toList_inj.1 hlast⟩

theorem dot_mem_append_dot (a b : String) : '.' ∈ (a ++ "." ++ b).toList := by simp

theorem qualify_of_package_eq (h : u.package = "") (name : String) : u.qualify name = name :=
  if_pos h

theorem qualify_of_package_ne (h : u.package ≠ "") (name : String) :
    u.qualify name = u.package ++ "." ++ name :=
  if_neg h

theorem qualify_injective (u : SourceUnit) : Function.Injective u.qualify := by
  intro a b h
  by_cases hpackage : u.package = ""
  · rwa [qualify_of_package_eq hpackage, qualify_of_package_eq hpackage] at h
  · rw [qualify_of_package_ne hpackage, qualify_of_package_ne hpackage] at h
    simpa using h

theorem qualifyMember_left_inj {outer outer' : String} :
    u.qualifyMember outer name = u.qualifyMember outer' name ↔ outer = outer' := by
  refine ⟨fun h => u.qualify_injective ?_, fun h => h ▸ rfl⟩
  simpa [qualifyMember] using h

/-- The qualified name of a member type is not that of a top-level type of the package. -/
theorem qualifyMember_ne_qualify (u : SourceUnit) (outer name : String) {simple : String}
    (hsimple : '.' ∉ simple.toList) : u.qualifyMember outer name ≠ u.qualify simple := by
  intro h
  have hdotted : u.qualifyMember outer name = u.qualify (outer ++ "." ++ name) := by
    by_cases hpackage : u.package = ""
    · rw [qualifyMember, qualify_of_package_eq hpackage, qualify_of_package_eq hpackage]
    · rw [qualifyMember, qualify_of_package_ne hpackage, qualify_of_package_ne hpackage]
      simp [String.append_assoc]
  rw [hdotted] at h
  exact hsimple (u.qualify_injective h ▸ dot_mem_append_dot outer name)

/-! ### Names of enums -/

/-- A unit lets a name count as that of an enum: a top-level enum has it, or the simple name of a
member enum means it. -/
inductive NamesEnum (u : SourceUnit) : String → Prop
  | topLevel {d : TypeDecl} :
      d ∈ u.types → d.kind = .enumType → NamesEnum u (u.qualify d.name)
  | member {d owner : TypeDecl} {name : String} :
      d ∈ u.types → (.enumType, name) ∈ memberTypes d → u.owner? name = some owner →
      NamesEnum u (u.qualifyMember owner.name name)

/-- A member type counts as an enum: its simple name belongs to its type, and some type of the unit
has a member enum of that name. -/
def CountsAsEnum (u : SourceUnit) (outer name : String) : Prop :=
  (∃ owner, u.owner? name = some owner ∧ owner.name = outer) ∧
    ∃ d ∈ u.types, (.enumType, name) ∈ memberTypes d

theorem IsWellNamed.dot_notMem_topLevel (hu : u.IsWellNamed) {d : TypeDecl} (hd : d ∈ u.types) :
    '.' ∉ d.name.toList :=
  notMem_of_isIdentifier (hu.types d hd).name (by decide)

theorem IsWellNamed.dot_notMem_member (hu : u.IsWellNamed) {d : TypeDecl} (hd : d ∈ u.types)
    {kind : TypeKind} (hm : (kind, name) ∈ memberTypes d) : '.' ∉ name.toList :=
  notMem_of_isIdentifier ((hu.types d hd).members _ hm) (by decide)

/-- A member type is an enum to its own unit if it counts as one there. -/
theorem namesEnum_qualifyMember_iff (hu : u.IsWellNamed) {outer : String}
    (hname : '.' ∉ name.toList) :
    u.NamesEnum (u.qualifyMember outer name) ↔ u.CountsAsEnum outer name := by
  constructor
  · intro h
    generalize hq : u.qualifyMember outer name = q at h
    cases h with
    | topLevel hd hkind =>
      exact absurd hq (u.qualifyMember_ne_qualify outer name (hu.dot_notMem_topLevel hd))
    | @member d owner n hd hm howner =>
      obtain ⟨houter, rfl⟩ := eq_of_append_dot_eq hname (hu.dot_notMem_member hd hm) hq
      exact ⟨⟨owner, howner, (u.qualify_injective houter).symm⟩, d, hd, hm⟩
  · rintro ⟨⟨owner, howner, rfl⟩, d, hd, hm⟩
    exact .member hd hm howner

/-- A name of two parts is that of an enum to a unit of the package that the first part names, and
to a unit without a package where the first part is a type. -/
theorem namesEnum_dotted_iff (hu : u.IsWellNamed) {outer : String}
    (houter : isIdentifier outer.toList = true) (hname : '.' ∉ name.toList) :
    u.NamesEnum (outer ++ "." ++ name) ↔
      (u.package = outer ∧ ∃ d ∈ u.types, d.kind = .enumType ∧ d.name = name) ∨
        u.package = "" ∧ u.CountsAsEnum outer name := by
  have hdot : '.' ∉ outer.toList := notMem_of_isIdentifier houter (by decide)
  constructor
  · intro h
    generalize hq : outer ++ "." ++ name = q at h
    cases h with
    | @topLevel d hd hkind =>
      -- the first part is the package: without one, a type of the unit has no dot in its name
      by_cases hpackage : u.package = ""
      · rw [qualify_of_package_eq hpackage] at hq
        exact absurd (hq ▸ dot_mem_append_dot outer name) (hu.dot_notMem_topLevel hd)
      · rw [qualify_of_package_ne hpackage] at hq
        obtain ⟨rfl, rfl⟩ := eq_of_append_dot_eq hname (hu.dot_notMem_topLevel hd) hq
        exact Or.inl ⟨rfl, d, hd, hkind, rfl⟩
    | @member d owner n hd hm howner =>
      -- the first part is the owner: with a package, its qualified name has a dot
      obtain ⟨hqualified, rfl⟩ := eq_of_append_dot_eq hname (hu.dot_notMem_member hd hm) hq
      by_cases hpackage : u.package = ""
      · rw [qualify_of_package_eq hpackage] at hqualified
        exact Or.inr ⟨hpackage, ⟨owner, howner, hqualified.symm⟩, d, hd, hm⟩
      · rw [qualify_of_package_ne hpackage] at hqualified
        exact absurd (hqualified ▸ dot_mem_append_dot u.package owner.name) hdot
  · rintro (⟨rfl, d, hd, hkind, rfl⟩ | ⟨hpackage, ⟨owner, howner, rfl⟩, d, hd, hm⟩)
    · have hne : u.package ≠ "" := by
        rintro h
        rw [h] at houter
        cases houter
      rw [← qualify_of_package_ne hne]
      exact .topLevel hd hkind
    · have h := NamesEnum.member hd hm howner
      rwa [qualifyMember, qualify_of_package_eq hpackage] at h

end SourceUnit

namespace Scan

variable {s : Scan} {u : SourceUnit} {name : String}

theorem mem_enums_iff : name ∈ s.enums ↔ ∃ u ∈ s.units, u.NamesEnum name := by
  simp only [enums, List.mem_append, List.mem_filterMap, List.mem_flatMap]
  constructor
  · rintro (⟨⟨n, u, d⟩, hmem, h⟩ | ⟨u, hu, d, hd, ⟨kind, n⟩, hm, h⟩)
    · obtain ⟨hu, hd, rfl⟩ := mem_topLevels.1 hmem
      obtain ⟨hkind, rfl⟩ : d.kind = .enumType ∧ u.qualify d.name = name := by simpa using h
      exact ⟨u, hu, .topLevel hd hkind⟩
    · obtain ⟨rfl, hlookup⟩ : kind = .enumType ∧ u.nested.lookup n = some name := by simpa using h
      rw [SourceUnit.lookup_nested] at hlookup
      obtain ⟨owner, howner, rfl⟩ := Option.map_eq_some_iff.1 hlookup
      exact ⟨u, hu, .member hd hm howner⟩
  · rintro ⟨u, hu, h⟩
    cases h with
    | @topLevel d hd hkind =>
      exact Or.inl ⟨(u.qualify d.name, u, d), mem_topLevels.2 ⟨hu, hd, rfl⟩, if_pos hkind⟩
    | @member d owner n hd hm howner =>
      refine Or.inr ⟨u, hu, d, hd, (.enumType, n), hm, (if_pos rfl).trans ?_⟩
      rw [SourceUnit.lookup_nested, howner, Option.map_some]

/-! ### Fields and their types -/

/-- A field that the description of a declaration has, with the type that it is declared with. -/
def DescribesField (s : Scan) (u : SourceUnit) (d : TypeDecl) (t : TypeRef) (f : SourceField) :
    Prop :=
  d.kind = .classType ∧
    ∃ g, .fields g ∈ d.members ∧ g.type = t ∧ f ∈ s.describeFields ⟨u, s.declared⟩ g

theorem mem_fields_describe_iff {d : TypeDecl} {p : Option SourceClass} {f : SourceField} :
    f ∈ (s.describe u d p).fields ↔ ∃ t, s.DescribesField u d t f := by
  show f ∈ List.flatMap _ (if d.kind = .classType then d.members else []) ↔ _
  rw [List.mem_flatMap]
  constructor
  · rintro ⟨m, hm, hf⟩
    split at hm
    · rename_i hkind
      cases m with
      | fields g => exact ⟨g.type, hkind, g, hm, rfl, hf⟩
      | constructor | type | other => cases hf
    · cases hm
  · rintro ⟨t, hkind, g, hg, -, hf⟩
    rw [if_pos hkind]
    exact ⟨.fields g, hg, hf⟩

theorem headText_addRank (scope : Scope) (t : TypeRef) (n : Nat) :
    scope.headText (t.addRank n) = scope.headText t := by
  cases t <;> rfl

/-- The types of fields that a text declares are made of identifiers. -/
theorem DescribesField.isWellNamed {d : TypeDecl} {t : TypeRef} {f : SourceField}
    (hf : s.DescribesField u d t f) {file : Option String} {text : String}
    (hread : SourceUnit.read file text = .ok u) (hd : d ∈ u.types) : t.IsWellNamed := by
  obtain ⟨-, g, hg, rfl, -⟩ := hf
  exact (((SourceUnit.isLexical_of_read hread).2 d hd).members _ hg).type

/-- The text of a field's type starts with what the name of the type means, and the flag for enums
goes by that name. -/
theorem DescribesField.head {d : TypeDecl} {t : TypeRef} {f : SourceField}
    (hf : s.DescribesField u d t f) (hu : u.IsWellNamed) (ht : t.IsWellNamed) :
    enumHead f.typeText = (Scope.mk u s.declared).headText t ∧
      (f.isEnum = true ↔ (Scope.mk u s.declared).headText t ∈ s.enums) := by
  obtain ⟨-, g, -, rfl, hf⟩ := hf
  obtain ⟨⟨name, rank⟩, -, rfl⟩ := List.mem_map.1 hf
  have hhead : enumHead ((Scope.mk u s.declared).typeText (g.type.addRank rank)) =
      (Scope.mk u s.declared).headText g.type := by
    rw [Scope.enumHead_typeText hu (ht.addRank rank), headText_addRank]
  refine ⟨hhead, ?_⟩
  simp only [hhead, decide_eq_true_eq]

/-- The statement of a field without modifiers. -/
def bareField (name : String) (t : TypeRef) : Member := .fields ⟨⟨[], []⟩, t, [(name, 0)]⟩

/-- What the scan makes of it. -/
def describeBare (s : Scan) (u : SourceUnit) (name : String) (t : TypeRef) : SourceField where
  name := name
  typeText := (Scope.mk u s.declared).typeText (t.addRank 0)
  isEnum := enumHead ((Scope.mk u s.declared).typeText (t.addRank 0)) ∈ s.enums

theorem describesField_bare {d : TypeDecl} {t : TypeRef} (hkind : d.kind = .classType)
    (h : bareField name t ∈ d.members) : s.DescribesField u d t (s.describeBare u name t) :=
  ⟨hkind, _, h, rfl, List.mem_singleton_self _⟩

/-- A unit that imports nothing. -/
def plainUnit (package : String) (types : List TypeDecl) : SourceUnit where
  file := none
  package := package
  imported := []
  onDemand := []
  types := types

theorem isWellNamed_plainUnit {package : String} {types : List TypeDecl}
    (hpackage : package = "" ∨ IsDottedName package.toList) (htypes : ∀ d ∈ types, d.IsWellNamed) :
    (plainUnit package types).IsWellNamed where
  package := hpackage
  imported _ h := nomatch h
  onDemand _ h := nomatch h
  types := htypes

theorem isDottedName_shop : IsDottedName "shop".toList :=
  isDottedName_of_isIdentifier (by decide)

/-! ### A member type of the class -/

section OwnMember

variable {d : TypeDecl} {kind : TypeKind} {arguments : List TypeArgument} {rank : Nat}
  {f : SourceField}

/-- **How a class reads its own member type.** The class declares a member type, and one of its
fields has that type by its simple name. The type that the field gets is what an import of the name
means, or else the member type of its owner, the last type of the unit that has one of the name.
It is the member type of the class if such an import means just that, or if the class is the owner.
It counts as an enum if the class is the owner and any type of the unit has a member enum of the
name, or if another unit declares an enum that is called the same. -/
theorem ownMember_reads (hunit : u ∈ s.units) (hu : u.IsWellNamed) (hd : d ∈ u.types)
    (hmember : (kind, name) ∈ SourceUnit.memberTypes d)
    (ht : (TypeRef.named name [] arguments rank).IsWellNamed)
    (hf : s.DescribesField u d (.named name [] arguments rank) f) :
    ∃ owner, u.owner? name = some owner ∧
      let own := u.qualifyMember d.name name
      enumHead f.typeText =
          (u.imported.lookup name).getD (u.qualifyMember owner.name name) ∧
        (enumHead f.typeText = own ↔
          u.imported.lookup name = some own ∨
            u.imported.lookup name = none ∧ owner.name = d.name) ∧
        (enumHead f.typeText = own →
          (f.isEnum = true ↔
            (owner.name = d.name ∧ ∃ e ∈ u.types, (.enumType, name) ∈ SourceUnit.memberTypes e) ∨
              ∃ w ∈ s.units, w ≠ u ∧ w.NamesEnum own)) := by
  obtain ⟨owner, howner⟩ := SourceUnit.exists_owner hd hmember
  obtain ⟨htext, hflag⟩ := hf.head hu ht
  have hhead : enumHead f.typeText =
      (u.imported.lookup name).getD (u.qualifyMember owner.name name) := by
    rw [htext, Scope.headText, Scope.qualifyPath, Scope.qualifySimple, SourceUnit.lookup_nested,
      howner]
    cases u.imported.lookup name <;> rfl
  refine ⟨owner, howner, hhead, ?_, fun hown => ?_⟩
  · rw [hhead]
    cases u.imported.lookup name with
    | some meaning => simp
    | none => simp [SourceUnit.qualifyMember_left_inj]
  · rw [hflag, ← htext, hown, mem_enums_iff]
    -- the unit itself counts the name by its first owner, whatever type has the enum
    have hcounts : u.NamesEnum (u.qualifyMember d.name name) ↔
        owner.name = d.name ∧ ∃ e ∈ u.types, (.enumType, name) ∈ SourceUnit.memberTypes e := by
      rw [SourceUnit.namesEnum_qualifyMember_iff hu (hu.dot_notMem_member hd hmember),
        SourceUnit.CountsAsEnum, howner]
      simp
    rw [← hcounts]
    constructor
    · rintro ⟨w, hw, hnames⟩
      by_cases hwu : w = u
      · exact Or.inl (hwu ▸ hnames)
      · exact Or.inr ⟨w, hw, hwu, hnames⟩
    · rintro (hnames | ⟨w, hw, -, hnames⟩)
      · exact ⟨u, hunit, hnames⟩
      · exact ⟨w, hw, hnames⟩

/-- A class with a member type `State` and a field of that type. -/
def stateClass (name : String) (kind : TypeKind) : TypeDecl :=
  { bareClass name none with
    members := [.type kind "State", bareField "state" (.named "State" [] [] 0)] }

/-- An order with an enum, and an invoice with a class. -/
def order : TypeDecl := stateClass "Order" .enumType

def invoice : TypeDecl := stateClass "Invoice" .classType

theorem isWellNamed_stateClass {name : String} (hname : isIdentifier name.toList = true)
    (kind : TypeKind) : (stateClass name kind).IsWellNamed where
  name := hname
  members m hm := by
    obtain rfl : m = (kind, "State") := List.mem_singleton.1 hm
    show isIdentifier "State".toList = true
    decide

theorem isWellNamed_orderAndInvoice :
    (plainUnit "shop" [order, invoice]).IsWellNamed ∧
      (plainUnit "shop" [invoice, order]).IsWellNamed := by
  have horder : order.IsWellNamed := isWellNamed_stateClass (by decide) _
  have hinvoice : invoice.IsWellNamed := isWellNamed_stateClass (by decide) _
  constructor
  · exact isWellNamed_plainUnit (Or.inr isDottedName_shop) (by simp [horder, hinvoice])
  · exact isWellNamed_plainUnit (Or.inr isDottedName_shop) (by simp [horder, hinvoice])

theorem isWellNamed_state : (TypeRef.named "State" [] [] 0).IsWellNamed :=
  .named ⟨by decide, by decide⟩ fun _ h => nomatch h

/-- The last class with a member type of the name finds its own. -/
theorem ownMember_reads_order :
    let u := plainUnit "shop" [invoice, order]
    let f := (Scan.mk [u]).describeBare u "state" (.named "State" [] [] 0)
    enumHead f.typeText = "shop.Order.State" ∧ f.isEnum = true := by
  intro u f
  have horder : order ∈ u.types := List.mem_cons_of_mem _ List.mem_cons_self
  have hmember : (.enumType, "State") ∈ SourceUnit.memberTypes order := List.mem_cons_self
  have hf : (Scan.mk [u]).DescribesField u order (.named "State" [] [] 0) f :=
    describesField_bare rfl (List.mem_cons_of_mem _ List.mem_cons_self)
  obtain ⟨owner, howner, -, hhead, hflag⟩ := ownMember_reads (List.mem_singleton_self u)
    isWellNamed_orderAndInvoice.2 horder hmember isWellNamed_state hf
  obtain rfl : order = owner := Option.some.inj howner
  have hown := hhead.2 (Or.inr ⟨rfl, rfl⟩)
  exact ⟨hown, (hflag hown).2 (Or.inl ⟨rfl, order, horder, hmember⟩)⟩

example :
    (Scan.mk [plainUnit "shop" [order, invoice]]).classes.map
        (fun c => (c.name, c.fields.map fun f => (f.typeText, f.isEnum))) =
      [("Order", [("shop.Invoice.State", true)]), ("Invoice", [("shop.Invoice.State", true)])] := by
  cbv

/-- **Not every class finds its own member type.** -/
theorem exists_ownMember_misread :
    ¬ ∀ (u : SourceUnit) (d : TypeDecl) (kind : TypeKind) (name : String)
      (arguments : List TypeArgument) (rank : Nat) (f : SourceField),
      u.IsWellNamed → d ∈ u.types → (kind, name) ∈ SourceUnit.memberTypes d →
      (TypeRef.named name [] arguments rank).IsWellNamed →
      (Scan.mk [u]).DescribesField u d (.named name [] arguments rank) f →
        enumHead f.typeText = u.qualifyMember d.name name ∧
          (f.isEnum = true ↔ kind = .enumType) := by
  intro h
  have hread := h (plainUnit "shop" [order, invoice]) order .enumType "State" [] 0 _
    isWellNamed_orderAndInvoice.1 List.mem_cons_self List.mem_cons_self isWellNamed_state
    (describesField_bare rfl (List.mem_cons_of_mem _ List.mem_cons_self))
  exact absurd hread.1 (by decide)

end OwnMember

/-! ### A member type of another class -/

section DottedMember

variable {d : TypeDecl} {outer : String} {arguments : List TypeArgument} {rank : Nat}
  {f : SourceField}

/-- **How a class reads a member type of another class.** A field of the class has a type of two
names, and no import stands for the first one. The type that the field gets is called as it is
written, so it is the member type of a type of the package only if there is no package. It counts as
an enum if the first name is that of a package with such an enum, or if the scan has such a member
enum outside of all packages. -/
theorem dottedMember_reads (hunits : ∀ w ∈ s.units, w.IsWellNamed) (hunit : u ∈ s.units)
    (ht : (TypeRef.named outer [name] arguments rank).IsWellNamed)
    (himport : u.imported.lookup outer = none)
    (hf : s.DescribesField u d (.named outer [name] arguments rank) f) :
    enumHead f.typeText = outer ++ "." ++ name ∧
      (enumHead f.typeText = u.qualifyMember outer name ↔ u.package = "") ∧
      (f.isEnum = true ↔ ∃ w ∈ s.units,
        (w.package = outer ∧ ∃ e ∈ w.types, e.kind = .enumType ∧ e.name = name) ∨
          w.package = "" ∧ w.CountsAsEnum outer name) := by
  obtain ⟨htext, hflag⟩ := hf.head (hunits u hunit) ht
  have hwritten : (Scope.mk u s.declared).headText (.named outer [name] arguments rank) =
      outer ++ "." ++ name := by
    rw [Scope.headText, Scope.qualifyPath]
    · rw [himport]
      simp [String.intercalate_cons_cons, String.append_assoc]
    · exact fun h => by cases h
  obtain ⟨houter, hname⟩ : isIdentifier outer.toList = true ∧ isIdentifier name.toList = true := by
    cases ht with
    | named hpath _ => exact ⟨hpath.isIdentifier _ (by simp), hpath.isIdentifier _ (by simp)⟩
  have hdot : '.' ∉ outer.toList := notMem_of_isIdentifier houter (by decide)
  have hlast : '.' ∉ name.toList := notMem_of_isIdentifier hname (by decide)
  rw [htext, hflag, hwritten]
  refine ⟨rfl, ⟨fun h => ?_, fun h => ?_⟩, ?_⟩
  · by_contra hpackage
    obtain ⟨houter', -⟩ := SourceUnit.eq_of_append_dot_eq hlast hlast h
    rw [SourceUnit.qualify_of_package_ne hpackage] at houter'
    exact hdot (houter' ▸ SourceUnit.dot_mem_append_dot u.package outer)
  · rw [SourceUnit.qualifyMember, SourceUnit.qualify_of_package_eq h]
  · rw [mem_enums_iff]
    refine exists_congr fun w => and_congr_right fun hw => ?_
    exact SourceUnit.namesEnum_dotted_iff (hunits w hw) houter hlast

/-- A class whose status is a member type of another class. -/
def payment : TypeDecl :=
  { bareClass "Payment" none with
    members := [bareField "status" (.named "Customer" ["Status"] [] 0)] }

/-- The class with the status, which is an enum. -/
def customer : TypeDecl :=
  { bareClass "Customer" none with members := [.type .enumType "Status"] }

theorem isWellNamed_paymentAndCustomer : ∀ d ∈ [payment, customer], d.IsWellNamed := by
  have hpayment : payment.IsWellNamed := ⟨by decide, fun _ h => nomatch h⟩
  have hcustomer : customer.IsWellNamed := by
    refine ⟨by decide, fun m hm => ?_⟩
    obtain rfl : m = (.enumType, "Status") := List.mem_singleton.1 hm
    show isIdentifier "Status".toList = true
    decide
  simp [hpayment, hcustomer]

theorem isWellNamed_status : (TypeRef.named "Customer" ["Status"] [] 0).IsWellNamed :=
  .named ⟨by decide, by decide⟩ fun _ h => nomatch h

/-- Outside of all packages the status is found. -/
theorem dottedMember_reads_payment :
    let u := plainUnit "" [payment, customer]
    let f := (Scan.mk [u]).describeBare u "status" (.named "Customer" ["Status"] [] 0)
    enumHead f.typeText = u.qualifyMember "Customer" "Status" ∧ f.isEnum = true := by
  intro u f
  have hunits : ∀ w ∈ (Scan.mk [u]).units, w.IsWellNamed := fun w hw =>
    List.mem_singleton.1 hw ▸ isWellNamed_plainUnit (Or.inl rfl) isWellNamed_paymentAndCustomer
  have hf : (Scan.mk [u]).DescribesField u payment (.named "Customer" ["Status"] [] 0) f :=
    describesField_bare rfl List.mem_cons_self
  obtain ⟨-, hhead, hflag⟩ :=
    dottedMember_reads hunits (List.mem_singleton_self u) isWellNamed_status rfl hf
  refine ⟨hhead.2 rfl, hflag.2 ⟨u, List.mem_singleton_self u, Or.inr ⟨rfl, ?_⟩⟩⟩
  exact ⟨⟨customer, rfl, rfl⟩, customer, List.mem_cons_of_mem _ List.mem_cons_self,
    List.mem_cons_self⟩

/-- **A member type of another class of the package is not always found.** -/
theorem exists_dottedMember_misread :
    ¬ ∀ (s : Scan) (u : SourceUnit) (d : TypeDecl) (kind : TypeKind) (outer name : String)
      (arguments : List TypeArgument) (rank : Nat) (f : SourceField),
      (∀ w ∈ s.units, w.IsWellNamed) → u ∈ s.units → d ∈ u.types →
      (∃ w ∈ s.units, w.package = u.package ∧
        ∃ e ∈ w.types, e.name = outer ∧ (kind, name) ∈ SourceUnit.memberTypes e) →
      u.imported.lookup outer = none →
      (∀ w ∈ s.units, ∀ e ∈ w.types, outer ∉ (SourceUnit.memberTypes e).map (·.2)) →
      (TypeRef.named outer [name] arguments rank).IsWellNamed →
      s.DescribesField u d (.named outer [name] arguments rank) f →
        enumHead f.typeText = u.qualifyMember outer name ∧
          (f.isEnum = true ↔ kind = .enumType) := by
  intro h
  let u := plainUnit "shop" [payment, customer]
  have hunits : ∀ w ∈ (Scan.mk [u]).units, w.IsWellNamed := fun w hw =>
    List.mem_singleton.1 hw ▸
      isWellNamed_plainUnit (Or.inr isDottedName_shop) isWellNamed_paymentAndCustomer
  have hcustomer : customer ∈ u.types := List.mem_cons_of_mem _ List.mem_cons_self
  have hread := h (Scan.mk [u]) u payment .enumType "Customer" "Status" [] 0 _ hunits
    (List.mem_singleton_self u) List.mem_cons_self
    ⟨u, List.mem_singleton_self u, rfl, customer, hcustomer, rfl, List.mem_cons_self⟩ rfl
    (by decide) isWellNamed_status (describesField_bare rfl List.mem_cons_self)
  exact absurd hread.1 (by decide)

end DottedMember

end Scan

end EntityScaffold
