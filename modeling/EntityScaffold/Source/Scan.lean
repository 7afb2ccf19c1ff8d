import EntityScaffold.Source.Scope

/-!
# Scans of compilation units

All units of a scan are known before any type is described, so that names declared anywhere can be
qualified and classes can be linked to the classes they extend.

A class is described once its superclass is. A link back to a class whose description is under way
is left out, so that an inheritance cycle is cut where the scan first enters it. A qualified name is
described once: later declarations of it give the first description again, while a link goes to the
last declaration.
-/

namespace EntityScaffold

open Java

/-- The units of a scan. -/
structure Scan where
  units : List SourceUnit

namespace Scan

/-- A declaration with its unit, under its qualified name. -/
def topLevels (s : Scan) : List (String × SourceUnit × TypeDecl) :=
  s.units.flatMap fun u => u.types.map fun d => (u.qualify d.name, u, d)

/-- Top-level declarations by qualified name, the last one first. -/
def latest (s : Scan) : List (String × SourceUnit × TypeDecl) := s.topLevels.reverse

/-- Qualified names of all types that the scan declares. -/
def declared (s : Scan) : List String :=
  s.topLevels.map (·.1) ++ s.units.flatMap fun u => u.nested.map (·.2)

/-- The declaration that a link to a qualified name goes to. -/
def find? (s : Scan) (name : String) : Option (SourceUnit × TypeDecl) := s.latest.lookup name

/-- Qualified names of the enums, member types included. A member type goes by the meaning that its
simple name has in the unit. -/
def enums (s : Scan) : List String :=
  s.topLevels.filterMap (fun (name, _, d) => if d.kind = .enumType then some name else none) ++
    s.units.flatMap fun u => u.types.flatMap fun d =>
      (SourceUnit.memberTypes d).filterMap fun (kind, name) =>
        if kind = .enumType then u.nested.lookup name else none

theorem mem_of_find? {s : Scan} {name : String} {x : SourceUnit × TypeDecl}
    (h : s.find? name = some x) : name ∈ s.latest.map (·.1) := by
  unfold find? at h
  generalize s.latest = l at h ⊢
  induction l with
  | nil => simp at h
  | cons p l ih =>
    obtain ⟨k, v⟩ := p
    rw [List.lookup_cons] at h
    by_cases hk : name = k
    · simp [hk]
    · have : (name == k) = false := by simpa using hk
      rw [this] at h
      exact List.mem_cons_of_mem _ (ih h)

/-- The part of a type text that names the class, for the test whether it is an enum. -/
def enumHead (typeText : String) : String :=
  Text.stripEndOf (fun c => c == '[' || c == ']')
    (String.ofList (typeText.toList.takeWhile (· != '<')))

/-- The fields that a field statement declares. -/
def describeFields (s : Scan) (scope : Scope) (g : FieldGroup) : List SourceField :=
  g.names.map fun (name, rank) =>
    let text := scope.typeText (g.type.addRank rank)
    { name := name
      typeText := text
      modifiers := g.modifiers.words
      annotations := g.modifiers.annotations.map scope.annotationUse
      isEnum := enumHead text ∈ s.enums }

/-- The description of a declaration, with the class it extends. Only classes have fields and
constructors. -/
def describe (s : Scan) (u : SourceUnit) (d : TypeDecl) (superclass : Option SourceClass) :
    SourceClass :=
  let scope : Scope := ⟨u, s.declared⟩
  let members := if d.kind = .classType then d.members else []
  { name := d.name
    package := u.package
    kind := d.kind
    modifiers := d.modifiers.words
    annotations := d.modifiers.annotations.map scope.annotationUse
    fields := members.flatMap fun
      | .fields g => s.describeFields scope g
      | _ => []
    interfaces := d.interfaces.map scope.qualifiedHead
    arities := members.filterMap fun
      | .constructor arity => some arity
      | _ => none
    superclass := superclass
    file := u.file }

/-- Descriptions by qualified name, as far as they are made. -/
abbrev Described := List (String × SourceClass)

/-- The number of names outside a list falls when one of them is put into the list. -/
theorem countP_notMem_lt {names active : List String} {name : String} (hm : name ∈ names)
    (ha : name ∉ active) :
    names.countP (fun n => decide (n ∉ name :: active)) <
      names.countP (fun n => decide (n ∉ active)) := by
  induction names with
  | nil => simp at hm
  | cons x xs ih =>
    have mono : xs.countP (fun n => decide (n ∉ name :: active)) ≤
        xs.countP (fun n => decide (n ∉ active)) :=
      List.countP_mono_left fun n _ h => by simp at h ⊢; exact h.2
    by_cases hx : x = name
    · subst hx
      have h₁ : decide (x ∉ x :: active) = false := by simp
      have h₂ : decide (x ∉ active) = true := by simp [ha]
      rw [List.countP_cons, List.countP_cons, h₁, h₂]
      simp only [Bool.false_eq_true, if_false, if_true]
      omega
    · have := ih (by simpa [Ne.symm hx] using hm)
      have same : decide (x ∉ name :: active) = decide (x ∉ active) := by simp [hx]
      rw [List.countP_cons, List.countP_cons, same]
      omega

/-- Describes a declaration under its qualified name, and the classes it extends before it, while
the descriptions of some names are under way. -/
def link (s : Scan) (active : List String) (made : Described) (name : String)
    (u : SourceUnit) (d : TypeDecl) : SourceClass × Described :=
  match made.lookup name with
  | some c => (c, made)
  | none =>
    let scope : Scope := ⟨u, s.declared⟩
    let above : Option SourceClass × Described :=
      match d.superclass.map scope.qualifiedHead with
      | none => (none, made)
      | some target =>
        -- a link back into the chain would close a cycle
        if _ha : target ∈ name :: active then (none, made)
        else
          match _hf : s.find? target with
          | none => (none, made)
          | some (u', d') =>
            let (c, made) := s.link (name :: active) made target u' d'
            (some c, made)
    let c := s.describe u d above.1
    (c, (name, c) :: above.2)
termination_by (s.latest.map (·.1)).countP fun n => decide (n ∉ name :: active)
decreasing_by exact countP_notMem_lt (mem_of_find? _hf) _ha

/-- Descriptions of declarations in order. -/
def linkAll (s : Scan) (made : Described) :
    List (String × SourceUnit × TypeDecl) → List SourceClass
  | [] => []
  | (name, u, d) :: rest =>
    let (c, made) := s.link [] made name u d
    c :: s.linkAll made rest

/-- Descriptions of all top-level types, in the order of units and declarations. -/
def classes (s : Scan) : List SourceClass := s.linkAll [] s.topLevels

end Scan

/-- The unit that a text is. -/
def SourceUnit.read (file : Option String) (text : String) : Except Java.SyntaxFault SourceUnit :=
  (CompilationUnit.read text).map (SourceUnit.ofSyntax file)

/-- Descriptions of the top-level types of one text. -/
def SourceClass.readAll (file : Option String) (text : String) :
    Except Java.SyntaxFault (List SourceClass) :=
  (SourceUnit.read file text).map fun u => (Scan.mk [u]).classes

/-- What a scan of files found: the classes, and the files that could not be read. -/
structure SourceCatalog where
  classes : List SourceClass
  failures : List String

namespace SourceCatalog

/-- The first class of a qualified name, or else of a simple name. -/
def find? (catalog : SourceCatalog) (name : String) : Option SourceClass :=
  (catalog.classes.find? (·.qualifiedName == name)).or (catalog.classes.find? (·.name == name))

/-- A class comes before another by package, and by name within a package. -/
def before (a b : SourceClass) : Bool :=
  if a.package = b.package then decide (a.name ≤ b.name) else decide (a.package ≤ b.package)

/-- The classes that are marked as entities, by package and name. -/
def entities (catalog : SourceCatalog) : List SourceClass :=
  (catalog.classes.filter fun c => c.kind = .classType && Marker.entity.isIn c.annotations).mergeSort
    before

end SourceCatalog

end EntityScaffold
