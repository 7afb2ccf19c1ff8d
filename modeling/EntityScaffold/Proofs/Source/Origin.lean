import Mathlib.Data.Finset.Dedup
import EntityScaffold.Proofs.Source.Superclass

/-!
# Which declaration a description shows

A scan describes every qualified name once. Where two files declare the same name, all of its
declarations get one description: that of the first of them, as a rule, but that of the last one if
a class that comes before extends the name, because links go to the last declaration
(`lookup_described_eq`). So every declaration has its own description only where declarations of one
name look alike (`map_outline_classes_iff`).

What is made is followed by `Links.lookup_cases`: a link makes the description of the declaration
it was called for, and beyond it only descriptions of last declarations, all of them above.
-/

namespace EntityScaffold

open Java

/-- The names of the fields that a declaration has. Only classes have fields. -/
def Java.TypeDecl.fieldNames (d : TypeDecl) : List String :=
  (if d.kind = .classType then d.members else []).flatMap fun
    | .fields g => g.names.map (·.1)
    | _ => []

/-- What a description says of its declaration alone, whatever names mean. -/
structure Outline where
  name : String
  package : String
  file : Option String
  modifiers : Finset String
  kind : TypeKind
  fields : List String
  deriving DecidableEq

def SourceClass.outline (c : SourceClass) : Outline :=
  ⟨c.name, c.package, c.file, c.modifiers.toFinset, c.kind, c.fields.map (·.name)⟩

/-- The outline of a declaration in its unit. -/
def SourceUnit.outline (u : SourceUnit) (d : TypeDecl) : Outline :=
  ⟨d.name, u.package, u.file, d.modifiers.words.toFinset, d.kind, d.fieldNames⟩

/-- The qualified names of the classes above. -/
def SourceClass.chainNames (c : SourceClass) : List String := c.chain.map (·.qualifiedName)

namespace Scan

variable {s : Scan} {made made' : Described} {active : List String} {name : String}
  {u : SourceUnit} {d : TypeDecl} {c : SourceClass}

/-- A description has the outline of the declaration that it is made of. -/
theorem outline_describe (s : Scan) (u : SourceUnit) (d : TypeDecl) (p : Option SourceClass) :
    (s.describe u d p).outline = u.outline d := by
  have hfields : (s.describe u d p).fields.map (·.name) = d.fieldNames := by
    simp only [describe, TypeDecl.fieldNames, List.map_flatMap]
    refine List.flatMap_congr fun m _ => ?_
    cases m with
    | fields g => simp [describeFields, Function.comp_def]
    | constructor | type | other => rfl
  rw [SourceClass.outline, hfields]
  rfl

theorem chainNames_describe (s : Scan) (u : SourceUnit) (d : TypeDecl) (p : SourceClass) :
    (s.describe u d (some p)).chainNames = p.qualifiedName :: p.chainNames := by
  rw [SourceClass.chainNames,
    SourceClass.chain_of_superclass_eq_some (superclass_describe s u d (some p))]
  rfl

/-! ### What is made of which declaration -/

/-- The description of a name is that of its last declaration. -/
def IsLatest (s : Scan) (name : String) (c : SourceClass) : Prop :=
  ∃ u d p, s.find? name = some (u, d) ∧ c = s.describe u d p

/-- A name is described before, or it is described as it is declared where the link is called. -/
theorem Links.made_or_eq (h : s.Links made active name u d c made') :
    made.lookup name = some c ∨ ∃ p, c = s.describe u d p := by
  cases h with
  | made hc => exact Or.inl hc
  | alone => exact Or.inr ⟨none, rfl⟩
  | above => exact Or.inr ⟨some _, rfl⟩

/-- **What a link makes**: the description that it is called for, and descriptions of the last
declarations of names above it. -/
theorem Links.lookup_cases (h : s.Links made active name u d c made') {a : String}
    {ca : SourceClass} (ha : made'.lookup a = some ca) :
    made.lookup a = some ca ∨ a = name ∧ ca = c ∨ a ∈ c.chainNames ∧ s.IsLatest a ca := by
  induction h with
  | made => exact Or.inl ha
  | alone =>
    rw [lookup_cons_eq] at ha
    split at ha
    · rename_i heq
      exact Or.inr (Or.inl ⟨heq, (Option.some.inj ha).symm⟩)
    · exact Or.inl ha
  | @above active name target u u' d d' p made' hnew hname hactive hfind hlinks ih =>
    rw [lookup_cons_eq] at ha
    split at ha
    · rename_i heq
      exact Or.inr (Or.inl ⟨heq, (Option.some.inj ha).symm⟩)
    · rw [chainNames_describe]
      rcases ih ha with hmade | ⟨rfl, rfl⟩ | ⟨hmem, hlatest⟩
      · exact Or.inl hmade
      · rcases hlinks.made_or_eq with hmade | ⟨q, rfl⟩
        · exact Or.inl hmade
        · have hqualified : (s.describe u' d' q).qualifiedName = a :=
            (mem_topLevels.1 (mem_topLevels_of_find? hfind)).2.2.symm
          rw [hqualified]
          exact Or.inr (Or.inr ⟨List.mem_cons_self, u', d', q, hfind, rfl⟩)
      · exact Or.inr (Or.inr ⟨List.mem_cons_of_mem _ hmem, hlatest⟩)

/-- A name that comes after some declarations is described with them exactly if one of them is
below it, and then as it is declared last. -/
theorem lookup_madeAfter {decls : List (String × SourceUnit × TypeDecl)}
    (hname : name ∉ decls.map (·.1)) (hc : (s.madeAfter made decls).lookup name = some c) :
    made.lookup name = some c ∨
      (∃ x ∈ s.linkAll made decls, name ∈ x.chainNames) ∧ s.IsLatest name c := by
  induction decls generalizing made with
  | nil => exact Or.inl hc
  | cons x decls ih =>
    obtain ⟨first, u, d⟩ := x
    simp only [List.map_cons, List.mem_cons, not_or] at hname
    rcases ih hname.2 hc with hlinked | ⟨⟨x, hx, hbelow⟩, hlatest⟩
    · rcases (s.links_link [] made first u d).lookup_cases hlinked with
        hmade | ⟨heq, -⟩ | ⟨hmem, hlatest⟩
      · exact Or.inl hmade
      · exact absurd heq hname.1
      · exact Or.inr ⟨⟨_, List.mem_cons_self, hmem⟩, hlatest⟩
    · exact Or.inr ⟨⟨x, List.mem_cons_of_mem _ hx, hbelow⟩, hlatest⟩

/-- Every name above a description is described. -/
theorem exists_lookup_of_mem_chainNames {decls : List (String × SourceUnit × TypeDecl)}
    (h : decls ⊆ s.topLevels) (hc : c ∈ s.linkAll [] decls) (hname : name ∈ c.chainNames) :
    ∃ ca, (s.madeAfter [] decls).lookup name = some ca := by
  obtain ⟨hm, -, heq⟩ := memo_madeAfter (memo_nil s) h
  have hmem : some c ∈ (s.linkAll [] decls).map some := List.mem_map_of_mem hc
  rw [heq] at hmem
  obtain ⟨x, -, hx⟩ := List.mem_map.1 hmem
  obtain ⟨p, hp, rfl⟩ := List.mem_map.1 hname
  exact ⟨p, hm.lookup_of_mem_chain hx hp⟩

/-! ### The origin of a description -/

/-- The declarations before the first one of a name. -/
def before (s : Scan) (name : String) : List (String × SourceUnit × TypeDecl) :=
  s.topLevels.takeWhile (·.1 != name)

/-- A class that is declared before the name extends it, or extends a class that does. -/
def isExtendedBefore (s : Scan) (name : String) : Bool :=
  (s.linkAll [] (s.before name)).any fun c => decide (name ∈ c.chainNames)

/-- The declaration that the description of a name is made of. -/
def origin? (s : Scan) (name : String) : Option (SourceUnit × TypeDecl) :=
  if s.isExtendedBefore name then s.find? name else s.topLevels.lookup name

theorem isExtendedBefore_iff :
    s.isExtendedBefore name = true ↔
      ∃ c ∈ s.linkAll [] (s.before name), name ∈ c.chainNames := by
  simp [isExtendedBefore]

/-- The first declaration of a name comes after the declarations of other names. -/
theorem topLevels_eq_before (hname : name ∈ s.topLevels.map (·.1)) :
    ∃ u d after, s.topLevels.lookup name = some (u, d) ∧
      s.topLevels = s.before name ++ (name, u, d) :: after ∧
      name ∉ (s.before name).map (·.1) := by
  obtain ⟨⟨u, d⟩, hlookup⟩ : ∃ x, s.topLevels.lookup name = some x := by
    cases hlookup : s.topLevels.lookup name with
    | some x => exact ⟨x, rfl⟩
    | none =>
      obtain ⟨x, hx, rfl⟩ := List.mem_map.1 hname
      simpa using List.lookup_eq_none_iff.1 hlookup x hx
  obtain ⟨l₁, l₂, heq, hne⟩ := List.lookup_eq_some_iff.1 hlookup
  have hbefore : s.before name = l₁ := by
    have hother : ∀ x ∈ l₁, (x.1 != name) = true := fun x hx => by
      rw [bne_comm]
      exact hne x hx
    rw [before, heq, List.takeWhile_append_of_pos hother]
    simp
  refine ⟨u, d, l₂, hlookup, by rw [hbefore, heq], fun hmem => ?_⟩
  obtain ⟨x, hx, rfl⟩ := List.mem_map.1 (hbefore ▸ hmem)
  simpa using hne x hx

/-- **The description of a name is made of its origin.** -/
theorem lookup_described_eq (hname : name ∈ s.topLevels.map (·.1)) :
    ∃ u d p, s.origin? name = some (u, d) ∧
      s.described.lookup name = some (s.describe u d p) := by
  obtain ⟨u, d, after, hfirst, heq, hnew⟩ := topLevels_eq_before hname
  have hbefore : s.before name ⊆ s.topLevels :=
    heq ▸ List.subset_append_left _ _
  have hrest : (name, u, d) :: after ⊆ s.topLevels := heq ▸ List.subset_append_right _ _
  obtain ⟨hm, -, -⟩ := memo_madeAfter (memo_nil s) hbefore
  have hdescribed : s.described =
      s.madeAfter (s.madeAfter [] (s.before name)) ((name, u, d) :: after) := by
    rw [described, heq, madeAfter, List.foldl_append]
    rfl
  rw [hdescribed]
  cases hmade : (s.madeAfter [] (s.before name)).lookup name with
  | some c =>
    -- a class before it has linked it, as the declaration that its name finds
    rcases lookup_madeAfter hnew hmade with hnil | ⟨hbelow, u', d', p, hfind, rfl⟩
    · cases hnil
    · refine ⟨u', d', p, ?_, (memo_madeAfter hm hrest).2.1 hmade⟩
      rw [origin?, if_pos (isExtendedBefore_iff.2 hbelow), hfind]
  | none =>
    -- its own declaration is the first to be linked under the name
    have hbelow : ¬ s.isExtendedBefore name = true := fun h => by
      obtain ⟨c, hc, hmem⟩ := isExtendedBefore_iff.1 h
      obtain ⟨ca, hca⟩ := exists_lookup_of_mem_chainNames hbefore hc hmem
      rw [hmade] at hca
      cases hca
    obtain ⟨hfirstMem, hafter⟩ := List.cons_subset.1 hrest
    have hlinks := s.links_link [] (s.madeAfter [] (s.before name)) name u d
    have hlinked := hlinks.linked hfirstMem (entered_nil s _ name) hm
    obtain ⟨p, hp⟩ := hlinks.made_or_eq.resolve_left (by rw [hmade]; exact fun h => by cases h)
    refine ⟨u, d, p, by rw [origin?, if_neg hbelow, hfirst], ?_⟩
    rw [← hp]
    exact (memo_madeAfter hlinked.memo hafter).2.1 hlinked.lookup

/-- An origin of a name is one of its declarations. -/
theorem mem_topLevels_of_origin? (h : s.origin? name = some (u, d)) :
    (name, u, d) ∈ s.topLevels := by
  unfold origin? at h
  split at h
  · exact mem_topLevels_of_find? h
  · obtain ⟨l₁, l₂, heq, -⟩ := List.lookup_eq_some_iff.1 h
    rw [heq]
    exact List.mem_append_right _ List.mem_cons_self

/-! ### The classes of a scan -/

/-- Every class of a scan is the description of its origin. -/
theorem forall₂_origin (s : Scan) :
    List.Forall₂ (fun x c => ∃ u d p, s.origin? x.1 = some (u, d) ∧ c = s.describe u d p)
      s.topLevels s.classes := by
  have hlookup : List.Forall₂ (fun x c => s.described.lookup x.1 = some c)
      s.topLevels s.classes := by
    rw [← List.forall₂_map_right_iff, ← List.forall₂_map_left_iff, List.forall₂_eq_eq_eq]
    exact s.map_some_classes.symm
  have hboth := (List.forall₂_and_left _ _).2
    ⟨fun x (hx : x ∈ s.topLevels) => List.mem_map_of_mem (f := (·.1)) hx, hlookup⟩
  refine hboth.imp fun x c ⟨hname, hc⟩ => ?_
  obtain ⟨u, d, p, horigin, hdescribe⟩ := lookup_described_eq hname
  exact ⟨u, d, p, horigin, Option.some.inj (hc.symm.trans hdescribe)⟩

/-- Classes show their own declarations if the declarations of each name look alike. -/
theorem map_outline_classes_iff (s : Scan) :
    s.classes.map (·.outline) = s.topLevels.map (fun x => x.2.1.outline x.2.2) ↔
      ∀ x ∈ s.topLevels, ∀ y ∈ s.topLevels, x.1 = y.1 →
        x.2.1.outline x.2.2 = y.2.1.outline y.2.2 := by
  have hshown : (s.classes.map (·.outline)).map some =
      s.topLevels.map fun x => (s.described.lookup x.1).map (·.outline) := by
    have hmap := congrArg (List.map (Option.map (·.outline))) s.map_some_classes
    simpa [Function.comp_def] using hmap
  rw [← (Option.some_injective _).list_map.eq_iff, hshown, List.map_map, List.map_inj_left]
  constructor
  · intro h x hx y hy heq
    have hx' := h x hx
    rw [heq, h y hy] at hx'
    exact (Option.some.inj hx').symm
  · intro h x hx
    obtain ⟨u, d, p, horigin, hdescribe⟩ := lookup_described_eq (List.mem_map_of_mem hx)
    rw [hdescribe, Option.map_some, outline_describe]
    exact congrArg some (h (x.1, u, d) (mem_topLevels_of_origin? horigin) x hx rfl)

/-- **What the classes of a scan are made of.** There is one class for every declared type, in
order, and it is the description of the origin of its name. So classes show the name, package, file,
modifiers, kind and fields of their own declarations exactly if declarations of the same qualified
name have all of this in common. -/
theorem described_from_origin (s : Scan) :
    List.Forall₂ (fun x c => ∃ u d p, s.origin? x.1 = some (u, d) ∧ c = s.describe u d p)
        s.topLevels s.classes ∧
      (s.classes.map (·.outline) = s.topLevels.map (fun x => x.2.1.outline x.2.2) ↔
        ∀ x ∈ s.topLevels, ∀ y ∈ s.topLevels, x.1 = y.1 →
          x.2.1.outline x.2.2 = y.2.1.outline y.2.2) :=
  ⟨s.forall₂_origin, s.map_outline_classes_iff⟩

/-- A class with one field. -/
def userClass (field : String) : TypeDecl :=
  { bareClass "User" none with
    members := [.fields ⟨⟨[], []⟩, .named "Long" [] [] 0, [(field, 0)]⟩] }

/-- The unit of a class in the package `shop`. -/
def shopUnit (file : String) (d : TypeDecl) : SourceUnit where
  file := some file
  package := "shop"
  imported := []
  onDemand := []
  types := [d]

/-- Two modules that declare one class each, under the same name, after a class that extends it. -/
def modules : Scan where
  units :=
    [shopUnit "app/Admin.java" (bareClass "Admin" (some "User")),
     shopUnit "core/User.java" (userClass "id"), shopUnit "web/User.java" (userClass "session")]

example :
    modules.classes.map (fun c => (c.name, c.file)) =
      [("Admin", some "app/Admin.java"), ("User", some "web/User.java"),
       ("User", some "web/User.java")] := by
  cbv

example :
    (Scan.mk modules.units.tail).classes.map (fun c => (c.name, c.file)) =
      [("User", some "core/User.java"), ("User", some "core/User.java")] := by
  cbv

/-- **Not every declaration is described as it is declared.** -/
theorem exists_class_of_other_declaration :
    ¬ ∀ s : Scan, s.classes.map (·.outline) = s.topLevels.map fun x => x.2.1.outline x.2.2 := by
  intro h
  have halike := (map_outline_classes_iff modules).1 (h modules)
  have hcore : ("shop.User", shopUnit "core/User.java" (userClass "id"), userClass "id") ∈
      modules.topLevels :=
    mem_topLevels.2 ⟨by simp [modules], List.mem_singleton_self _, by decide⟩
  have hweb : ("shop.User", shopUnit "web/User.java" (userClass "session"), userClass "session") ∈
      modules.topLevels :=
    mem_topLevels.2 ⟨by simp [modules], List.mem_singleton_self _, by decide⟩
  exact absurd (halike _ hcore _ hweb rfl) (by decide)

end Scan

end EntityScaffold
