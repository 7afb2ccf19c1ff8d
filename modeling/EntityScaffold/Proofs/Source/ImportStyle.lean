import Mathlib.Data.List.Forall2
import Mathlib.Tactic.Common
import EntityScaffold.Proofs.Entity.Marker
import EntityScaffold.Proofs.Source.Alone

/-!
# Import styles

A persistence annotation may be imported by name, its package may be imported on demand, or its name
may be written in full. The qualified name that is read may differ then, if both persistence
packages are imported on demand, but the marker does not (`SameScope.mem_names_iff`).

An import on demand helps annotations only. The name of a type, such as that of an interface, is
read alike if it is imported by name or written in full (`SameScope.qualifyPath_false_eq`), while
`import java.io.*` does not make `Serializable` known.

The relations below say of two compilation units that they differ in import styles and in nothing
else. They ask that names which are respelled have no other meaning, neither before nor after.
-/

namespace EntityScaffold

open Java Text
open List (Forall₂)

namespace Java

/-- How a compilation unit brings a type into scope. -/
inductive ImportStyle
  | single
  | onDemand
  | qualified
  deriving DecidableEq, Repr

/-- The types that may be imported in several styles: those of the persistence packages, and the
interface of objects that can be written out. -/
def IsStyled (package : List String) (name : String) : Prop :=
  ".".intercalate package ∈ Marker.namespaces ∨
    ".".intercalate package = "java.io" ∧ name = "Serializable"

/-- An import of such types. -/
def Import.isStyled : Import → Bool
  | .single path =>
    ".".intercalate path.dropLast ∈ Marker.namespaces || ".".intercalate path == serializable
  | .onDemand package =>
    ".".intercalate package ∈ Marker.namespaces || ".".intercalate package == "java.io"

namespace CompilationUnit

/-- An import names a type by its simple name. -/
def Imports (tree : CompilationUnit) (path : List String) (name : String) : Prop :=
  .single path ∈ tree.imports ∧ path.getLast? = some name

/-- A type of a simple name is imported, declared, or a member of a declared type. -/
def Names (tree : CompilationUnit) (name : String) : Prop :=
  (∃ path, tree.Imports path name) ∨
    ∃ d ∈ tree.types, d.name = name ∨ name ∈ (SourceUnit.memberTypes d).map (·.2)

/-- A type that may be imported in several styles is imported by name. -/
def ImportsStyled (tree : CompilationUnit) (name : String) : Prop :=
  ∃ path, tree.Imports path name ∧ (Import.single path).isStyled = true

/-- A persistence package is imported on demand. -/
def OpensPersistence (tree : CompilationUnit) : Prop :=
  ∃ package, .onDemand package ∈ tree.imports ∧ ".".intercalate package ∈ Marker.namespaces

/-- How a type of a package is written in a style, where it means that type and no other. -/
inductive Spells (tree : CompilationUnit) (package : List String) (name : String) :
    ImportStyle → List String → Prop
  | single :
      .single (package ++ [name]) ∈ tree.imports →
      (∀ path, tree.Imports path name → path = package ++ [name]) →
      Spells tree package name .single [name]
  | onDemand :
      .onDemand package ∈ tree.imports → ¬ tree.Names name →
      Spells tree package name .onDemand [name]
  | qualified :
      (∀ path first, package.head? = some first → ¬ tree.Imports path first) →
      Spells tree package name .qualified (package ++ [name])

end CompilationUnit

/-- The dotted name that a type starts with. -/
def TypeRef.path : TypeRef → List String
  | .basic name _ => [name]
  | .named first more _ _ => first :: more

theorem TypeRef.IsWellNamed.isPath {t : TypeRef} (h : t.IsWellNamed) : IsPath t.path := by
  cases h with
  | basic hname =>
    exact ⟨List.cons_ne_nil _ _, fun s hs => List.mem_singleton.1 hs ▸ hname⟩
  | named hpath => exact hpath

section Relations

variable (tree tree' : CompilationUnit)

/-- A name in two units is the same but for the import styles of type names: it does not start with
a type that may be imported in several styles, or such a type is imported by name or written in
full. -/
inductive SameName : List String → List String → Prop
  | other {first : String} {rest : List String} :
      ¬ tree.ImportsStyled first → ¬ tree'.ImportsStyled first →
      SameName (first :: rest) (first :: rest)
  | respelled {package : List String} {name : String} {style style' : ImportStyle}
      {path path' rest : List String} :
      IsStyled package name → style ≠ .onDemand → style' ≠ .onDemand →
      tree.Spells package name style path → tree'.Spells package name style' path' →
      SameName (path ++ rest) (path' ++ rest)

/-- The name of an annotation in two units is the same but for import styles. A name that could be
taken for that of a marker has another meaning, or no persistence package is imported on demand. -/
inductive SameMarker : List String → List String → Prop
  | other {path path' : List String} :
      SameName tree tree' path path' →
      (∀ m : Marker, path = [m.simpleName] → tree.Names m.simpleName ∨
        ¬ tree.OpensPersistence ∧ ¬ tree'.OpensPersistence) →
      SameMarker path path'
  | marker {package : List String} {name : String} {style style' : ImportStyle}
      {path path' : List String} :
      ".".intercalate package ∈ Marker.namespaces →
      tree.Spells package name style path → tree'.Spells package name style' path' →
      SameMarker path path'

/-- Annotations that are the same but for import styles. Of their values only a name counts. -/
structure SameUse (a a' : Annotation) : Prop where
  path : SameMarker tree tree' a.path a'.path
  given : a.element.texts.lookup "name" = a'.element.texts.lookup "name"

mutual

/-- Types that are the same but for the import styles of type names. -/
inductive SameType : TypeRef → TypeRef → Prop
  | basic (name : String) (rank : Nat) : SameType (.basic name rank) (.basic name rank)
  | named {first first' : String} {more more' : List String} {as as' : List TypeArgument}
      {rank : Nat} :
      SameName tree tree' (first :: more) (first' :: more') → SameArguments as as' →
      SameType (.named first more as rank) (.named first' more' as' rank)

/-- Type arguments that are the same but for the import styles of type names. -/
inductive SameArgument : TypeArgument → TypeArgument → Prop
  | any : SameArgument .any .any
  | exact {t t' : TypeRef} : SameType t t' → SameArgument (.exact t) (.exact t')
  | upTo {t t' : TypeRef} : SameType t t' → SameArgument (.upTo t) (.upTo t')
  | downTo {t t' : TypeRef} : SameType t t' → SameArgument (.downTo t) (.downTo t')

/-- Lists of such type arguments. -/
inductive SameArguments : List TypeArgument → List TypeArgument → Prop
  | nil : SameArguments [] []
  | cons {a a' : TypeArgument} {as as' : List TypeArgument} :
      SameArgument a a' → SameArguments as as' → SameArguments (a :: as) (a' :: as')

end

/-- Members that are the same but for import styles. -/
inductive SameMember : Member → Member → Prop
  | fields {g g' : FieldGroup} :
      g.modifiers.words = g'.modifiers.words →
      Forall₂ (SameUse tree tree') g.modifiers.annotations g'.modifiers.annotations →
      SameType tree tree' g.type g'.type → g.names = g'.names →
      SameMember (.fields g) (.fields g')
  | constructor (arity : Nat) : SameMember (.constructor arity) (.constructor arity)
  | type (kind : TypeKind) (name : String) : SameMember (.type kind name) (.type kind name)
  | other : SameMember .other .other

/-- Units of one type each that are the same but for import styles. Of interfaces and of the class
above nothing is said. -/
structure SameUnit (d d' : TypeDecl) : Prop where
  package : tree.package = tree'.package
  imports : tree.imports.filter (!·.isStyled) = tree'.imports.filter (!·.isStyled)
  types : tree.types = [d]
  types' : tree'.types = [d']
  kind : d.kind = d'.kind
  name : d.name = d'.name
  words : d.modifiers.words = d'.modifiers.words
  annotations :
    Forall₂ (SameUse tree tree') d.modifiers.annotations d'.modifiers.annotations
  members : Forall₂ (SameMember tree tree') d.members d'.members

end Relations

end Java

/-! ### Markers -/

theorem Marker.dot_notMem_simpleName (m : Marker) : '.' ∉ m.simpleName.toList := by
  cases m <;> decide

/-- A name in a persistence namespace is that of a marker if its last part is. -/
theorem Marker.mem_names_iff (m : Marker) {package name : String} (h : package ∈ namespaces)
    (hname : '.' ∉ name.toList) : package ++ "." ++ name ∈ m.names ↔ m.simpleName = name := by
  rw [names, List.mem_map]
  constructor
  · rintro ⟨ns, -, heq⟩
    exact (SourceUnit.eq_of_append_dot_eq m.dot_notMem_simpleName hname heq).2
  · rintro rfl
    exact ⟨package, h, rfl⟩

/-- The name of a marker is dotted. -/
theorem Marker.notMem_names (m : Marker) {name : String} (hname : '.' ∉ name.toList) :
    name ∉ m.names := by
  intro h
  obtain ⟨ns, -, rfl⟩ := List.mem_map.1 h
  exact hname (SourceUnit.dot_mem_append_dot ns m.simpleName)

/-! ### Imports by name -/

namespace SourceUnit

variable {tree tree' : CompilationUnit} {file : Option String} {name : String}

/-- The name that an import brings into scope, and what it means. -/
def importedPair : Import → Option (String × String)
  | .single path => some (path.getLast?.getD "", ".".intercalate path)
  | .onDemand _ => none

theorem imported_ofSyntax :
    (ofSyntax file tree).imported = (tree.imports.filterMap importedPair).reverse := rfl

theorem mem_imported_ofSyntax {p : String × String} :
    p ∈ (ofSyntax file tree).imported ↔
      ∃ path, .single path ∈ tree.imports ∧ (path.getLast?.getD "", ".".intercalate path) = p := by
  rw [imported_ofSyntax, List.mem_reverse, List.mem_filterMap]
  constructor
  · rintro ⟨i, hi, hsome⟩
    cases i with
    | single path => exact ⟨path, hi, Option.some.inj hsome⟩
    | onDemand => cases hsome
  · rintro ⟨path, hi, hp⟩
    exact ⟨.single path, hi, congrArg some hp⟩

theorem mem_onDemand_ofSyntax {package : String} :
    package ∈ (ofSyntax file tree).onDemand ↔
      ∃ path, .onDemand path ∈ tree.imports ∧ ".".intercalate path = package := by
  show package ∈ List.filterMap _ tree.imports ↔ _
  rw [List.mem_filterMap]
  constructor
  · rintro ⟨i, hi, hsome⟩
    cases i with
    | single => cases hsome
    | onDemand path => exact ⟨path, hi, Option.some.inj hsome⟩
  · rintro ⟨path, hi, hp⟩
    exact ⟨.onDemand path, hi, congrArg some hp⟩

/-- Every import by name names a type. -/
theorem imports_getLast (h : tree.IsWellNamed) {path : List String}
    (hmem : .single path ∈ tree.imports) : tree.Imports path (path.getLast?.getD "") := by
  have hpath : path ≠ [] := (h.imports _ hmem).ne_nil
  exact ⟨hmem, by simp [List.getLast?_eq_some_getLast hpath]⟩

theorem lookup_imported_eq_none_iff (file : Option String) (h : tree.IsWellNamed) :
    (ofSyntax file tree).imported.lookup name = none ↔ ∀ path, ¬ tree.Imports path name := by
  rw [List.lookup_eq_none_iff]
  constructor
  · rintro hnone path ⟨hmem, hlast⟩
    have hne := hnone _ (mem_imported_ofSyntax.2 ⟨path, hmem, rfl⟩)
    simp [hlast] at hne
  · intro hnone p hp
    obtain ⟨path, hmem, rfl⟩ := mem_imported_ofSyntax.1 hp
    rw [bne_iff_ne]
    rintro rfl
    exact hnone path (imports_getLast h hmem)

/-- A name that one type only is imported by means that type. -/
theorem lookup_imported_eq_some (file : Option String) (h : tree.IsWellNamed) {path : List String}
    (himports : tree.Imports path name)
    (hunique : ∀ path', tree.Imports path' name → path' = path) :
    (ofSyntax file tree).imported.lookup name = some (".".intercalate path) := by
  cases hlookup : (ofSyntax file tree).imported.lookup name with
  | none => exact absurd himports ((lookup_imported_eq_none_iff file h).1 hlookup path)
  | some meaning =>
    obtain ⟨path', hmem', heq⟩ := mem_imported_ofSyntax.1 (mem_of_lookup_eq_some hlookup)
    obtain ⟨rfl, rfl⟩ := Prod.mk.inj heq
    rw [hunique path' (imports_getLast h hmem')]

/-- Elements that give no pair of a name do not matter to a search for it. -/
theorem lookup_filterMap_filter {α : Type} {f : α → Option (String × String)} {keep : α → Bool}
    (l : List α) (h : ∀ a ∈ l, keep a = false → ∀ p, f a = some p → p.1 ≠ name) :
    ((l.filter keep).filterMap f).reverse.lookup name = (l.filterMap f).reverse.lookup name := by
  induction l with
  | nil => rfl
  | cons a l ih =>
    have ih := ih fun b hb => h b (List.mem_cons_of_mem a hb)
    have hcons (l' : List α) : ((a :: l').filterMap f).reverse.lookup name =
        ((l'.filterMap f).reverse.lookup name).or ((f a).toList.lookup name) := by
      rw [List.filterMap_cons]
      cases f a with
      | none => simp
      | some p => simp [List.lookup_append]
    cases hkeep : keep a with
    | true => rw [List.filter_cons_of_pos hkeep, hcons, hcons, ih]
    | false =>
      rw [List.filter_cons_of_neg (by simp [hkeep]), ih, hcons]
      cases hf : f a with
      | none => simp
      | some p =>
        have hne := h a List.mem_cons_self hkeep p hf
        rw [Option.toList_some, lookup_pair_cons, if_neg (Ne.symm hne), List.lookup_nil,
          Option.or_none]

/-- Imports of styled types do not matter to other names. -/
theorem lookup_imported_congr (h : tree.IsWellNamed) (h' : tree'.IsWellNamed)
    (himports : tree.imports.filter (!·.isStyled) = tree'.imports.filter (!·.isStyled))
    (hname : ¬ tree.ImportsStyled name) (hname' : ¬ tree'.ImportsStyled name) :
    (ofSyntax file tree).imported.lookup name = (ofSyntax file tree').imported.lookup name := by
  have hfilter {w : CompilationUnit} (hw : w.IsWellNamed) (hnot : ¬ w.ImportsStyled name) :
      ∀ i ∈ w.imports, (!i.isStyled) = false → ∀ p, importedPair i = some p → p.1 ≠ name := by
    intro i hi hstyled p hp hpname
    cases i with
    | onDemand => cases hp
    | single path =>
      cases hp
      exact hnot ⟨path, hpname ▸ imports_getLast hw hi, by simpa using hstyled⟩
  rw [imported_ofSyntax, imported_ofSyntax, ← lookup_filterMap_filter _ (hfilter h hname), himports,
    lookup_filterMap_filter _ (hfilter h' hname')]

end SourceUnit

/-! ### Meanings of names -/

namespace Java

open SourceUnit

/-- Two units read alone agree in all names but those of styled types. -/
structure SameScope (file : Option String) (tree tree' : CompilationUnit) : Prop where
  wellNamed : tree.IsWellNamed
  wellNamed' : tree'.IsWellNamed
  imports : tree.imports.filter (!·.isStyled) = tree'.imports.filter (!·.isStyled)
  names : SameNames (ofSyntax file tree) (ofSyntax file tree')

variable {tree tree' : CompilationUnit} {file : Option String} {package path path' : List String}
  {name : String} {style : ImportStyle}

theorem ne_nil_of_mem_namespaces (h : ".".intercalate package ∈ Marker.namespaces) :
    package ≠ [] := by
  rintro rfl
  exact absurd h (by decide)

theorem IsStyled.ne_nil (h : IsStyled package name) : package ≠ [] := by
  rcases h with h | ⟨h, -⟩
  · exact ne_nil_of_mem_namespaces h
  · rintro rfl
    exact absurd h (by decide)

theorem IsPath.dot_notMem (h : IsPath path) (hname : name ∈ path) : '.' ∉ name.toList :=
  notMem_of_isIdentifier (h.isIdentifier name hname) (by decide)

namespace CompilationUnit

/-- A simple name has a meaning of its own if the unit is read alone. -/
theorem names_iff (file : Option String) (h : tree.IsWellNamed) (hname : '.' ∉ name.toList) :
    tree.Names name ↔
      (ofSyntax file tree).imported.lookup name ≠ none ∨
      (ofSyntax file tree).nested.lookup name ≠ none ∨
      (ofSyntax file tree).qualify name ∈ (ofSyntax file tree).scope.declared := by
  constructor
  · rintro (⟨path, himports⟩ | ⟨d, hd, rfl | hmember⟩)
    · exact Or.inl fun hnone => (lookup_imported_eq_none_iff file h).1 hnone path himports
    · exact Or.inr (Or.inr (qualify_mem_declared hd))
    · exact Or.inr (Or.inl (lookup_nested_ne_none hd hmember))
  · rintro (himported | hnested | hdeclared)
    · by_contra hnot
      exact himported ((lookup_imported_eq_none_iff file h).2 fun path hpath =>
        hnot (Or.inl ⟨path, hpath⟩))
    · obtain ⟨meaning, hlookup⟩ := Option.ne_none_iff_exists'.1 hnested
      obtain ⟨d, hd, kind, hm, -⟩ :=
        exists_member_of_mem_nested (mem_of_lookup_eq_some hlookup)
      exact Or.inr ⟨d, hd, Or.inr (List.mem_map_of_mem hm)⟩
    · rcases mem_declared_scope.1 hdeclared with ⟨d, hd, hq⟩ | ⟨p, hp, hq⟩
      · exact Or.inr ⟨d, hd, Or.inl (qualify_injective _ hq)⟩
      · obtain ⟨d, hd, kind, hm, hmember⟩ := exists_member_of_mem_nested hp
        exact absurd (hmember.trans hq) (qualifyMember_ne_qualify _ d.name p.1 hname)

/-- A name without a meaning of its own is that of an annotation of an opened package, if it is
anything. -/
theorem qualifySimple_of_not_names (h : tree.IsWellNamed) (hname : '.' ∉ name.toList)
    (hnot : ¬ tree.Names name) (asMarker : Bool) :
    (ofSyntax file tree).scope.qualifySimple asMarker name =
      ((ofSyntax file tree).opened? asMarker name).getD name := by
  rw [names_iff file h hname] at hnot
  obtain ⟨himported, hnested, hdeclared⟩ := not_or.1 hnot |>.imp_right not_or.1
  rw [qualifySimple_scope (isWellNamed_ofSyntax h file) hname, not_not.1 himported,
    not_not.1 hnested, if_neg hdeclared, Option.getD_none, Option.getD_none]

/-- The name that is spelled is a part of what is written. -/
theorem Spells.name_mem (h : tree.Spells package name style path) : name ∈ path := by
  cases h with
  | single | onDemand => exact List.mem_singleton_self name
  | qualified => exact List.mem_append_right package (List.mem_singleton_self name)

/-- **A type that is imported by name or written in full is found under its qualified name.** -/
theorem Spells.qualifyPath_eq (file : Option String) (hwell : tree.IsWellNamed)
    (h : tree.Spells package name style path) (hpackage : package ≠ [])
    (hstyle : style ≠ .onDemand) (asMarker : Bool) (rest : List String) :
    (ofSyntax file tree).scope.qualifyPath asMarker (path ++ rest) =
      ".".intercalate (package ++ name :: rest) := by
  cases h with
  | onDemand => exact absurd rfl hstyle
  | single hmem hunique =>
    have hlookup := lookup_imported_eq_some file hwell ⟨hmem, by simp⟩ hunique
    cases rest with
    | nil =>
      show (ofSyntax file tree).scope.qualifySimple asMarker name = _
      rw [Scope.qualifySimple, unit_scope, hlookup]
    | cons r rest =>
      rw [List.singleton_append, Scope.qualifyPath_of_ne_nil (List.cons_ne_nil r rest),
        unit_scope, hlookup]
      show ".".intercalate (package ++ [name]) ++ "." ++ ".".intercalate (r :: rest) = _
      have hne : package ++ [name] ≠ [] := by simp
      rw [← String.intercalate_append_of_ne_nil hne (List.cons_ne_nil r rest), List.append_assoc,
        List.singleton_append]
  | qualified hnone =>
    obtain ⟨first, more, rfl⟩ := List.exists_cons_of_ne_nil hpackage
    have hlookup := (lookup_imported_eq_none_iff file hwell).2 fun path =>
      hnone path first rfl
    rw [List.append_assoc, List.cons_append, Scope.qualifyPath_of_ne_nil (by simp), unit_scope,
      hlookup]
    rfl

/-- An unnamed annotation of an opened persistence package is found in a persistence namespace. -/
theorem exists_opened (file : Option String) (hmem : .onDemand package ∈ tree.imports)
    (hpackage : ".".intercalate package ∈ Marker.namespaces) (name : String) :
    ∃ ns ∈ Marker.namespaces,
      (ofSyntax file tree).opened? true name = some (ns ++ "." ++ name) := by
  have hfind : ((ofSyntax file tree).onDemand.find? fun ns =>
      true && ns ∈ Marker.namespaces).isSome = true := by
    rw [List.find?_isSome]
    exact ⟨_, mem_onDemand_ofSyntax.2 ⟨package, hmem, rfl⟩, by simpa using hpackage⟩
  obtain ⟨ns, hns⟩ := Option.isSome_iff_exists.1 hfind
  have hnamespace := List.find?_some hns
  exact ⟨ns, by simpa using hnamespace, by rw [opened?, hns, Option.map_some]⟩

/-- **A persistence annotation is found in every style**, in one persistence namespace or the
other. -/
theorem Spells.mem_names_iff (hwell : tree.IsWellNamed)
    (h : tree.Spells package name style path)
    (hpackage : ".".intercalate package ∈ Marker.namespaces) (hname : '.' ∉ name.toList)
    (m : Marker) :
    (ofSyntax file tree).scope.qualifyPath true path ∈ m.names ↔ m.simpleName = name := by
  have hne := ne_nil_of_mem_namespaces hpackage
  have hfull (hstyle : style ≠ .onDemand) :
      (ofSyntax file tree).scope.qualifyPath true path =
        ".".intercalate package ++ "." ++ name := by
    have heq := h.qualifyPath_eq file hwell hne hstyle true []
    rwa [List.append_nil, String.intercalate_append_of_ne_nil hne (List.cons_ne_nil name []),
      String.intercalate_singleton] at heq
  cases h with
  | single | qualified =>
    rw [hfull (by decide)]
    exact m.mem_names_iff hpackage hname
  | onDemand hmem hnot =>
    obtain ⟨ns, hns, hopened⟩ := exists_opened file hmem hpackage name
    show (ofSyntax file tree).scope.qualifySimple true name ∈ m.names ↔ _
    rw [qualifySimple_of_not_names hwell hname hnot, hopened, Option.getD_some]
    exact m.mem_names_iff hns hname

/-- Without an opened persistence package annotations get no meaning of this kind. -/
theorem opened?_eq_none (h : ¬ tree.OpensPersistence) (asMarker : Bool) (name : String) :
    (ofSyntax file tree).opened? asMarker name = none := by
  rw [opened?, Option.map_eq_none_iff, List.find?_eq_none]
  intro ns hns hmarker
  obtain ⟨package, hmem, rfl⟩ := mem_onDemand_ofSyntax.1 hns
  exact h ⟨package, hmem, by simpa using (Bool.and_eq_true_iff.1 hmarker).2⟩

/-- What an opened package makes of a name is no marker if no marker is called so. -/
theorem notMem_names_opened? (hname : '.' ∉ name.toList) {m : Marker} (hm : m.simpleName ≠ name) :
    ((ofSyntax file tree).opened? true name).getD name ∉ m.names := by
  cases hopened : (ofSyntax file tree).opened? true name with
  | none => exact m.notMem_names hname
  | some meaning =>
    obtain ⟨ns, hfind, rfl⟩ := Option.map_eq_some_iff.1 hopened
    have hns : ns ∈ Marker.namespaces := by simpa using List.find?_some hfind
    exact fun h => hm ((m.mem_names_iff hns hname).1 h)

end CompilationUnit

namespace SameScope

variable (h : SameScope file tree tree')

include h

/-- Two scopes take the same name from imports. -/
theorem lookup_imported_eq (hname : ¬ tree.ImportsStyled name)
    (hname' : ¬ tree'.ImportsStyled name) :
    (ofSyntax file tree).imported.lookup name = (ofSyntax file tree').imported.lookup name :=
  lookup_imported_congr h.wellNamed h.wellNamed' h.imports hname hname'

theorem names_iff (hdot : '.' ∉ name.toList) (hname : ¬ tree.ImportsStyled name)
    (hname' : ¬ tree'.ImportsStyled name) : tree.Names name ↔ tree'.Names name := by
  rw [CompilationUnit.names_iff file h.wellNamed hdot,
    CompilationUnit.names_iff file h.wellNamed' hdot, h.lookup_imported_eq hname hname',
    h.names.nested_eq, h.names.declared_eq, h.names.qualify_eq]

/-- A simple name means the same but for what opened packages make of it. -/
theorem qualifySimple_eq (hdot : '.' ∉ name.toList) (hname : ¬ tree.ImportsStyled name)
    (hname' : ¬ tree'.ImportsStyled name) {asMarker : Bool}
    (hopened : ¬ tree.Names name →
      (ofSyntax file tree).opened? asMarker name = (ofSyntax file tree').opened? asMarker name) :
    (ofSyntax file tree).scope.qualifySimple asMarker name =
      (ofSyntax file tree').scope.qualifySimple asMarker name := by
  rw [qualifySimple_scope (isWellNamed_ofSyntax h.wellNamed file) hdot,
    qualifySimple_scope (isWellNamed_ofSyntax h.wellNamed' file) hdot,
    ← h.lookup_imported_eq hname hname', ← h.names.nested_eq, ← h.names.declared_eq,
    ← h.names.qualify_eq]
  by_cases hnames : tree.Names name
  · rcases (CompilationUnit.names_iff file h.wellNamed hdot).1 hnames with
      himported | hnested | hdeclared
    · obtain ⟨meaning, hlookup⟩ := Option.ne_none_iff_exists'.1 himported
      rw [hlookup, Option.getD_some, Option.getD_some]
    · obtain ⟨meaning, hlookup⟩ := Option.ne_none_iff_exists'.1 hnested
      rw [hlookup, Option.getD_some, Option.getD_some]
    · rw [if_pos hdeclared, if_pos hdeclared]
  · rw [hopened hnames]

/-- A dotted name means the same but for what opened packages make of a simple one. -/
theorem qualifyPath_eq (hpath : IsPath path) (hsame : SameName tree tree' path path')
    {asMarker : Bool}
    (hopened : ∀ name, path = [name] → ¬ tree.Names name →
      (ofSyntax file tree).opened? asMarker name = (ofSyntax file tree').opened? asMarker name) :
    (ofSyntax file tree).scope.qualifyPath asMarker path =
      (ofSyntax file tree').scope.qualifyPath asMarker path' := by
  cases hsame with
  | respelled hstyled hstyle hstyle' hspells hspells' =>
    rw [hspells.qualifyPath_eq file h.wellNamed hstyled.ne_nil hstyle,
      hspells'.qualifyPath_eq file h.wellNamed' hstyled.ne_nil hstyle']
  | @other first rest hname hname' =>
    cases rest with
    | nil =>
      exact h.qualifySimple_eq (hpath.dot_notMem List.mem_cons_self) hname hname'
        (hopened first rfl)
    | cons second rest =>
      rw [Scope.qualifyPath_of_ne_nil (List.cons_ne_nil _ _),
        Scope.qualifyPath_of_ne_nil (List.cons_ne_nil _ _), unit_scope, unit_scope,
        h.lookup_imported_eq hname hname']

/-- **The name of a type means the same** in both units. -/
theorem qualifyPath_false_eq (hpath : IsPath path) (hsame : SameName tree tree' path path') :
    (ofSyntax file tree).scope.qualifyPath false path =
      (ofSyntax file tree').scope.qualifyPath false path' :=
  h.qualifyPath_eq hpath hsame fun name _ _ => by rw [opened?_false, opened?_false]

/-- **The name of an annotation is that of the same markers** in both units. -/
theorem mem_names_iff (hpath : IsPath path) (hsame : SameMarker tree tree' path path')
    (m : Marker) :
    (ofSyntax file tree).scope.qualifyPath true path ∈ m.names ↔
      (ofSyntax file tree').scope.qualifyPath true path' ∈ m.names := by
  cases hsame with
  | @marker package name style style' path path' hpackage hspells hspells' =>
    have hname : '.' ∉ name.toList := hpath.dot_notMem hspells.name_mem
    rw [hspells.mem_names_iff h.wellNamed hpackage hname,
      hspells'.mem_names_iff h.wellNamed' hpackage hname]
  | other hsame hmarker =>
    cases hsame with
    | respelled hstyled hstyle hstyle' hspells hspells' =>
      rw [hspells.qualifyPath_eq file h.wellNamed hstyled.ne_nil hstyle,
        hspells'.qualifyPath_eq file h.wellNamed' hstyled.ne_nil hstyle']
    | @other first rest hname hname' =>
      have hdot : '.' ∉ first.toList := hpath.dot_notMem List.mem_cons_self
      -- opened packages may make different things of a simple name, but none of them is the marker
      by_cases hfree : rest = [] ∧ ¬ tree.Names first ∧ m.simpleName ≠ first
      · obtain ⟨rfl, hnot, hm⟩ := hfree
        have hnot' : ¬ tree'.Names first := fun hnames =>
          hnot ((h.names_iff hdot hname hname').2 hnames)
        show (ofSyntax file tree).scope.qualifySimple true first ∈ m.names ↔
          (ofSyntax file tree').scope.qualifySimple true first ∈ m.names
        rw [CompilationUnit.qualifySimple_of_not_names h.wellNamed hdot hnot,
          CompilationUnit.qualifySimple_of_not_names h.wellNamed' hdot hnot']
        exact iff_of_false (CompilationUnit.notMem_names_opened? hdot hm)
          (CompilationUnit.notMem_names_opened? hdot hm)
      · rw [h.qualifyPath_eq hpath (.other hname hname') fun name heq hnot => ?_]
        obtain ⟨rfl, rfl⟩ := List.cons.inj heq
        obtain rfl : m.simpleName = first := not_not.1 fun hm => hfree ⟨rfl, hnot, hm⟩
        obtain ⟨hclosed, hclosed'⟩ := (hmarker m rfl).resolve_left hnot
        rw [CompilationUnit.opened?_eq_none hclosed, CompilationUnit.opened?_eq_none hclosed']

end SameScope

end Java

end EntityScaffold
