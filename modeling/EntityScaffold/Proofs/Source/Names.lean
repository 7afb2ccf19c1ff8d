import Mathlib.Tactic.Common
import EntityScaffold.Proofs.Lookup
import EntityScaffold.Proofs.Text.Identifier
import EntityScaffold.Source.Scope

/-!
# What names mean

Every meaning of a name is put together from the names of a compilation unit: its package, its
imports and the types it declares. If these are of a kind that is closed under dots, then what a
name of that kind means is of the kind too, wherever the scope finds it (`qualifyPath_of_madeOf`).
So what an identifier means is a dotted name (`isDottedName_qualifyPath`).
-/

namespace EntityScaffold

open Java Text

namespace Java

/-! ### Names in syntax -/

/-- At least one identifier, as the parts of a dotted name are. -/
structure IsPath (path : List String) : Prop where
  ne_nil : path ≠ []
  isIdentifier : ∀ name ∈ path, Text.isIdentifier name.toList = true

/-- At least one name, as the parts of a dotted name in a text are. -/
structure IsNamePath (path : List String) : Prop where
  ne_nil : path ≠ []
  isName : ∀ name ∈ path, IsName name

theorem IsNamePath.isPath {path : List String} (h : IsNamePath path) : IsPath path :=
  ⟨h.ne_nil, fun name hname => (h.isName name hname).isIdentifier⟩

theorem IsPath.isDottedName {path : List String} (h : IsPath path) :
    IsDottedName (".".intercalate path).toList :=
  closedUnderDot_isDottedName.intercalate h.ne_nil fun name hname =>
    isDottedName_of_isIdentifier (h.isIdentifier name hname)

/-- The names that an import is written with. -/
def Import.path : Import → List String
  | .single path => path
  | .onDemand package => package

/-- A declared type and its member types have identifiers as names. -/
structure TypeDecl.IsWellNamed (d : TypeDecl) : Prop where
  name : Text.isIdentifier d.name.toList = true
  members : ∀ m ∈ SourceUnit.memberTypes d, Text.isIdentifier m.2.toList = true

/-- The names in a compilation unit are identifiers. -/
structure CompilationUnit.IsWellNamed (tree : CompilationUnit) : Prop where
  package : ∀ path, tree.package = some path → IsPath path
  imports : ∀ i ∈ tree.imports, IsPath i.path
  types : ∀ d ∈ tree.types, d.IsWellNamed

/-! ### Member types -/

theorem mem_putPair {pairs : List (String × String)} {name value : String}
    {p : String × String} (h : p ∈ putPair pairs name value) : p ∈ pairs ∨ p = (name, value) := by
  unfold putPair at h
  split at h
  · obtain ⟨q, hq, rfl⟩ := List.mem_map.1 h
    split
    · exact Or.inr rfl
    · exact Or.inl hq
  · simpa using h

/-- Pairs that are put one after the other are all that is there in the end. -/
theorem mem_foldl_putPair {new pairs : List (String × String)} {p : String × String}
    (h : p ∈ new.foldl (fun out q => putPair out q.1 q.2) pairs) : p ∈ pairs ∨ p ∈ new := by
  induction new generalizing pairs with
  | nil => exact Or.inl h
  | cons q new ih =>
    rcases ih h with h | h
    · rcases mem_putPair h with h | rfl
      · exact Or.inl h
      · exact Or.inr List.mem_cons_self
    · exact Or.inr (List.mem_cons_of_mem _ h)

/-- What is found once the pairs of a name have another value. -/
theorem lookup_map_replace (pairs : List (String × String)) (name value other : String) :
    (pairs.map fun p => if p.1 == name then (name, value) else p).lookup other =
      if other = name then (pairs.lookup name).map fun _ => value else pairs.lookup other := by
  induction pairs with
  | nil => simp
  | cons p pairs ih =>
    obtain ⟨key, old⟩ := p
    rw [List.map_cons]
    by_cases hkey : key = name
    · rw [if_pos (by simpa using hkey), lookup_pair_cons, ih, hkey, lookup_pair_cons,
        lookup_pair_cons]
      by_cases hother : other = name <;> simp [hother]
    · rw [if_neg (by simpa using hkey), lookup_pair_cons, ih, lookup_pair_cons, lookup_pair_cons,
        if_neg (Ne.symm hkey)]
      by_cases hother : other = name
      · rw [if_neg (hother ▸ Ne.symm hkey), if_pos hother, if_pos hother]
      · rw [if_neg hother, if_neg hother]

/-- A pair that is put hides what was there under its name. -/
theorem lookup_putPair (pairs : List (String × String)) (name value other : String) :
    (putPair pairs name value).lookup other =
      if other = name then some value else pairs.lookup other := by
  have hany : pairs.any (·.1 == name) = (pairs.lookup name).isSome := by
    rw [Bool.eq_iff_iff, List.any_eq_true, List.lookup_isSome_iff]
    simp only [BEq.comm]
  unfold putPair
  rw [hany]
  cases hlookup : pairs.lookup name with
  | some old => rw [Option.isSome_some, if_pos rfl, lookup_map_replace, hlookup, Option.map_some]
  | none =>
    rw [Option.isSome_none, if_neg Bool.false_ne_true, List.lookup_append, lookup_pair_cons]
    by_cases hother : other = name
    · rw [hother, hlookup, if_pos rfl, Option.none_or, if_pos rfl]
    · rw [if_neg hother, if_neg hother, List.lookup_nil, Option.or_none]

/-- Of pairs that are put one after the other, the last one of a name is found. -/
theorem lookup_foldl_putPair (new pairs : List (String × String)) (name : String) :
    (new.foldl (fun out q => putPair out q.1 q.2) pairs).lookup name =
      (new.reverse.lookup name).or (pairs.lookup name) := by
  induction new generalizing pairs with
  | nil => rfl
  | cons q new ih =>
    rw [List.foldl_cons, ih, lookup_putPair, List.reverse_cons, List.lookup_append, Option.or_assoc,
      lookup_pair_cons]
    by_cases h : name = q.1 <;> simp [h]

end Java

namespace SourceUnit

/-- Member types of all top-level types in order, by their simple and their qualified names. -/
def memberNames (u : SourceUnit) : List (String × String) :=
  u.types.flatMap fun d => (memberTypes d).map fun m => (m.2, u.qualify d.name ++ "." ++ m.2)

theorem nested_eq_foldl (u : SourceUnit) :
    u.nested = u.memberNames.foldl (fun out p => putPair out p.1 p.2) [] := by
  rw [memberNames, List.foldl_flatMap]
  simp only [List.foldl_map]
  rfl

theorem mem_memberNames_of_mem_nested {u : SourceUnit} {p : String × String} (h : p ∈ u.nested) :
    p ∈ u.memberNames := by
  rw [nested_eq_foldl] at h
  exact (mem_foldl_putPair h).resolve_left List.not_mem_nil

/-! ### Units of identifiers -/

/-- The package is a dotted name if there is one, so is the meaning of every import, and types have
identifiers as names. -/
structure IsWellNamed (u : SourceUnit) : Prop where
  package : u.package = "" ∨ IsDottedName u.package.toList
  imported : ∀ p ∈ u.imported, IsDottedName p.2.toList
  onDemand : ∀ package ∈ u.onDemand, IsDottedName package.toList
  types : ∀ d ∈ u.types, d.IsWellNamed

/-- The package, the meanings of imports and the declared names of a unit are of a kind. -/
structure MadeOf (D : String → Prop) (u : SourceUnit) : Prop where
  package : u.package = "" ∨ D u.package
  imported : ∀ p ∈ u.imported, D p.2
  onDemand : ∀ package ∈ u.onDemand, D package
  types : ∀ d ∈ u.types, D d.name
  members : ∀ d ∈ u.types, ∀ m ∈ memberTypes d, D m.2

theorem IsWellNamed.madeOf {u : SourceUnit} (h : u.IsWellNamed) :
    u.MadeOf fun name => IsDottedName name.toList where
  package := h.package
  imported := h.imported
  onDemand := h.onDemand
  types d hd := isDottedName_of_isIdentifier (h.types d hd).name
  members d hd m hm := isDottedName_of_isIdentifier ((h.types d hd).members m hm)

/-- The unit of a syntax tree of identifiers. -/
theorem isWellNamed_ofSyntax {tree : CompilationUnit} (h : tree.IsWellNamed)
    (file : Option String) : (ofSyntax file tree).IsWellNamed where
  package := by
    cases hpackage : tree.package with
    | none => exact Or.inl (by simp [ofSyntax, hpackage])
    | some path =>
      have hpath := (h.package path hpackage).isDottedName
      exact Or.inr (by simpa [ofSyntax, hpackage] using hpath)
  imported := by
    intro p hp
    obtain ⟨i, hi, hsome⟩ := List.mem_filterMap.1 (List.mem_reverse.1 hp)
    cases i with
    | single path =>
      cases hsome
      exact (h.imports _ hi).isDottedName
    | onDemand package => cases hsome
  onDemand := by
    intro package hp
    obtain ⟨i, hi, hsome⟩ := List.mem_filterMap.1 hp
    cases i with
    | single path => cases hsome
    | onDemand path =>
      cases hsome
      exact (h.imports _ hi).isDottedName
  types := h.types

end SourceUnit

/-! ### Meanings -/

section Closed

variable {D : String → Prop}

namespace SourceUnit.MadeOf

variable {u : SourceUnit} {name : String}

theorem qualify (h : u.MadeOf D) (hD : ClosedUnderDot D) (hname : D name) :
    D (u.qualify name) := by
  rw [SourceUnit.qualify, ResolvedType.qualify]
  split
  · exact hname
  · next hne => exact hD (h.package.resolve_left hne) hname

theorem nested (h : u.MadeOf D) (hD : ClosedUnderDot D) {p : String × String}
    (hp : p ∈ u.nested) : D p.2 := by
  obtain ⟨d, hd, hp⟩ := List.mem_flatMap.1 (mem_memberNames_of_mem_nested hp)
  obtain ⟨m, hm, rfl⟩ := List.mem_map.1 hp
  exact hD (h.qualify hD (h.types d hd)) (h.members d hd m hm)

end SourceUnit.MadeOf

namespace Scope

variable {s : Scope} {name : String}

/-- A simple name means one of the kind, on every level of the scope. -/
theorem qualifySimple_of_madeOf (h : s.unit.MadeOf D) (hD : ClosedUnderDot D) (asMarker : Bool)
    (hname : D name) : D (s.qualifySimple asMarker name) := by
  unfold qualifySimple
  split
  · next meaning hm => exact h.imported _ (mem_of_lookup_eq_some hm)
  · split
    · next meaning hm => exact h.nested hD (mem_of_lookup_eq_some hm)
    · split
      · exact h.qualify hD hname
      · cases hm : s.onDemand? asMarker name with
        | none => exact hname
        | some meaning =>
          obtain ⟨package, hfind, rfl⟩ := Option.map_eq_some_iff.1 hm
          exact hD (h.onDemand package (List.mem_of_find?_eq_some hfind)) hname

/-- **What names of a kind mean is of that kind**, if it is closed under dots. -/
theorem qualifyPath_of_madeOf (h : s.unit.MadeOf D) (hD : ClosedUnderDot D) (asMarker : Bool)
    {path : List String} (hne : path ≠ []) (hpath : ∀ name ∈ path, D name) :
    D (s.qualifyPath asMarker path) := by
  match path with
  | [] => exact absurd rfl hne
  | [name] => exact qualifySimple_of_madeOf h hD asMarker (hpath name List.mem_cons_self)
  | first :: second :: rest =>
    rw [qualifyPath]
    · cases hm : s.unit.imported.lookup first with
      | none => exact hD.intercalate hne hpath
      | some meaning =>
        exact hD (h.imported _ (mem_of_lookup_eq_some hm))
          (hD.intercalate (List.cons_ne_nil _ _) fun n hn => hpath n (List.mem_cons_of_mem _ hn))
    · exact fun h => by cases h

/-- What identifiers mean is a dotted name. -/
theorem isDottedName_qualifyPath (h : s.unit.IsWellNamed) (asMarker : Bool) {path : List String}
    (hpath : IsPath path) : IsDottedName (s.qualifyPath asMarker path).toList :=
  qualifyPath_of_madeOf h.madeOf closedUnderDot_isDottedName asMarker hpath.ne_nil
    fun name hname => isDottedName_of_isIdentifier (hpath.isIdentifier name hname)

end Scope

end Closed

end EntityScaffold
