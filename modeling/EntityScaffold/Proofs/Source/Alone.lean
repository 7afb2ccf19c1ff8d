import Mathlib.Tactic.Common
import EntityScaffold.Proofs.Source.MemberType

/-!
# Units scanned alone

In a scan of one unit all declared types are those of the unit. An import on demand then finds no
type that the package or the member types have not given a meaning before
(`append_dot_notMem_declared`); only annotations get a meaning from it, and only from a persistence
namespace (`qualifySimple_scope`). A single type has no superclass to be linked to, whatever its
extends clause says (`classes_of_types_eq`).
-/

namespace EntityScaffold

open Java Text

namespace SourceUnit

/-- The scope of a unit that is scanned alone. -/
def scope (u : SourceUnit) : Scope := ⟨u, (Scan.mk [u]).declared⟩

variable {u u' : SourceUnit} {name : String}

@[simp] theorem unit_scope (u : SourceUnit) : u.scope.unit = u := rfl

theorem mem_declared_scope :
    name ∈ u.scope.declared ↔
      (∃ d ∈ u.types, u.qualify d.name = name) ∨ ∃ p ∈ u.nested, p.2 = name := by
  simp [scope, Scan.declared, Scan.topLevels]

/-- A type of the unit has its simple name in the scope. -/
theorem qualify_mem_declared {d : TypeDecl} (hd : d ∈ u.types) :
    u.qualify d.name ∈ u.scope.declared :=
  mem_declared_scope.2 (Or.inl ⟨d, hd, rfl⟩)

/-- What member types mean by their simple names. -/
theorem exists_member_of_mem_nested {p : String × String} (h : p ∈ u.nested) :
    ∃ d ∈ u.types, ∃ kind, (kind, p.1) ∈ memberTypes d ∧ u.qualifyMember d.name p.1 = p.2 := by
  obtain ⟨d, hd, hpair⟩ := List.mem_flatMap.1 (mem_memberNames_of_mem_nested h)
  obtain ⟨⟨kind, name⟩, hm, rfl⟩ := List.mem_map.1 hpair
  exact ⟨d, hd, kind, hm, rfl⟩

/-- A member type has a meaning by its simple name. -/
theorem lookup_nested_ne_none {d : TypeDecl} (hd : d ∈ u.types)
    (hm : name ∈ (memberTypes d).map (·.2)) : u.nested.lookup name ≠ none := by
  obtain ⟨⟨kind, n⟩, hmem, rfl⟩ := List.mem_map.1 hm
  obtain ⟨owner, howner⟩ := exists_owner hd hmem
  rw [lookup_nested, howner]
  exact Option.some_ne_none _

/-- **An import on demand finds no type of the unit** that has no other meaning. -/
theorem append_dot_notMem_declared (hu : u.IsWellNamed) (hname : '.' ∉ name.toList)
    (hnested : u.nested.lookup name = none) (hlocal : u.qualify name ∉ u.scope.declared)
    (package : String) : package ++ "." ++ name ∉ u.scope.declared := by
  intro h
  rcases mem_declared_scope.1 h with ⟨d, hd, hq⟩ | ⟨p, hp, hq⟩
  · have hdot := hu.dot_notMem_topLevel hd
    by_cases hpackage : u.package = ""
    · rw [qualify_of_package_eq hpackage] at hq
      exact hdot (hq ▸ dot_mem_append_dot package name)
    · rw [qualify_of_package_ne hpackage] at hq
      obtain ⟨-, rfl⟩ := eq_of_append_dot_eq hdot hname hq
      exact hlocal (qualify_mem_declared hd)
  · obtain ⟨d, hd, kind, hm, hmember⟩ := exists_member_of_mem_nested hp
    rw [← hmember] at hq
    obtain ⟨-, rfl⟩ := eq_of_append_dot_eq (hu.dot_notMem_member hd hm) hname hq
    exact lookup_nested_ne_none hd (List.mem_map_of_mem hm) hnested

/-- What an import on demand makes of a simple name: an annotation of a persistence namespace, or
nothing. -/
def opened? (u : SourceUnit) (asMarker : Bool) (name : String) : Option String :=
  (u.onDemand.find? fun package => asMarker && package ∈ Marker.namespaces).map (· ++ "." ++ name)

/-- **What a simple name means in a unit that is scanned alone.** -/
theorem qualifySimple_scope (hu : u.IsWellNamed) (hname : '.' ∉ name.toList) (asMarker : Bool) :
    u.scope.qualifySimple asMarker name =
      (u.imported.lookup name).getD ((u.nested.lookup name).getD
        (if u.qualify name ∈ u.scope.declared then u.qualify name
          else (u.opened? asMarker name).getD name)) := by
  rw [Scope.qualifySimple, unit_scope]
  cases u.imported.lookup name with
  | some meaning => rfl
  | none =>
    cases hnested : u.nested.lookup name with
    | some meaning => rfl
    | none =>
      show ite _ _ _ = ite _ _ _
      split
      · rfl
      · rename_i hlocal
        have hfind : u.scope.onDemand? asMarker name = u.opened? asMarker name := by
          have hdeclared := append_dot_notMem_declared hu hname hnested hlocal
          simp only [Scope.onDemand?, opened?, hdeclared, decide_false, Bool.false_or, unit_scope]
        rw [hfind]

@[simp] theorem opened?_false (u : SourceUnit) (name : String) : u.opened? false name = none := by
  simp [opened?]

/-- What a declared type brings into scope. -/
def declares (d : TypeDecl) : TypeKind × String × List (TypeKind × String) :=
  (d.kind, d.name, memberTypes d)

/-- Two units declare types of the same names. -/
structure SameNames (u u' : SourceUnit) : Prop where
  package : u.package = u'.package
  types : u.types.map declares = u'.types.map declares

namespace SameNames

variable (h : u.SameNames u')

include h

theorem qualify_eq (name : String) : u.qualify name = u'.qualify name := by
  rw [qualify, qualify, h.package]

theorem nested_eq : u.nested = u'.nested := by
  have hfold (w : SourceUnit) : w.nested = (w.types.map declares).foldl
      (fun out d =>
        d.2.2.foldl (fun out m => putPair out m.2 (w.qualify d.2.1 ++ "." ++ m.2)) out) [] := by
    rw [nested, List.foldl_map]
    rfl
  rw [hfold u, hfold u', h.types]
  simp only [h.qualify_eq]

theorem declared_eq : u.scope.declared = u'.scope.declared := by
  have htops (w : SourceUnit) : (Scan.mk [w]).topLevels.map (·.1) =
      (w.types.map declares).map fun d => w.qualify d.2.1 := by
    simp [Scan.topLevels, declares, Function.comp_def]
  simp only [scope, Scan.declared, htops, h.types, h.nested_eq, h.qualify_eq,
    List.flatMap_cons, List.flatMap_nil]

theorem enums_eq : (Scan.mk [u]).enums = (Scan.mk [u']).enums := by
  have henums (w : SourceUnit) : (Scan.mk [w]).enums =
      ((w.types.map declares).filterMap fun d =>
        if d.1 = .enumType then some (w.qualify d.2.1) else none) ++
      (w.types.map declares).flatMap fun d => d.2.2.filterMap fun m =>
        if m.1 = .enumType then w.nested.lookup m.2 else none := by
    simp [Scan.enums, Scan.topLevels, declares, List.filterMap_map, List.flatMap_map]
    rfl
  simp only [henums, h.types, h.qualify_eq, h.nested_eq]

end SameNames

end SourceUnit

namespace Scope

/-- What a dotted name means. -/
theorem qualifyPath_of_ne_nil {s : Scope} {asMarker : Bool} {first : String} {rest : List String}
    (h : rest ≠ []) :
    s.qualifyPath asMarker (first :: rest) =
      match s.unit.imported.lookup first with
      | some meaning => meaning ++ "." ++ ".".intercalate rest
      | none => ".".intercalate (first :: rest) := by
  cases rest with
  | nil => exact absurd rfl h
  | cons second rest => rfl

end Scope

namespace Scan

/-- **A type that is scanned alone has no superclass.** It extends no other type of the scan, and a
link to itself is cut. -/
theorem classes_of_types_eq {u : SourceUnit} {d : TypeDecl} (h : u.types = [d]) :
    (Scan.mk [u]).classes = [(Scan.mk [u]).describe u d none] := by
  have htops : (Scan.mk [u]).topLevels = [(u.qualify d.name, u, d)] := by simp [topLevels, h]
  rw [classes, htops]
  show [((Scan.mk [u]).link [] [] (u.qualify d.name) u d).1] = _
  have hlinks := (Scan.mk [u]).links_link [] [] (u.qualify d.name) u d
  generalize (Scan.mk [u]).link [] [] (u.qualify d.name) u d = r at hlinks ⊢
  obtain ⟨c, made⟩ := r
  cases hlinks with
  | made hlookup => cases hlookup
  | alone => rfl
  | above _ _ hne hfind =>
    have hmem := mem_topLevels_of_find? hfind
    rw [htops, List.mem_singleton] at hmem
    cases hmem
    exact absurd List.mem_cons_self hne

end Scan

end EntityScaffold
