import Mathlib.Data.List.Forall2
import Mathlib.Tactic.Common
import EntityScaffold.Proofs.Source.ImportStyle

/-!
# Units in several import styles

Two units of one type each that are the same but for import styles (`SameUnit`) declare classes that
agree: types have the same texts (`SameType.typeText_eq`), annotations use the same markers
(`SameUse.agrees`), and so fields and classes agree one by one (`SameUnit.agrees`). What is
read off markers is then the same (`SourceClass.eq_of_sameUnit`).
-/

namespace EntityScaffold

open Java Text
open List (Forall₂)

namespace Java

open SourceUnit

variable {tree tree' : CompilationUnit} {file : Option String} {d d' : TypeDecl}

/-! ### Types -/

/-- The text of a type is that of its name and its arguments. -/
theorem typeText_named_congr {s s' : Scope} {first first' : String} {more more' : List String}
    {as as' : List TypeArgument} (rank : Nat)
    (hname : s.qualifyPath false (first :: more) = s'.qualifyPath false (first' :: more'))
    (hargs : as.map s.argumentText = as'.map s'.argumentText) :
    s.typeText (.named first more as rank) = s'.typeText (.named first' more' as' rank) := by
  have hempty : as.isEmpty = as'.isEmpty := by
    simpa only [List.isEmpty_map] using congrArg List.isEmpty hargs
  rw [Scope.typeText, Scope.typeText, Scope.argumentTexts_eq_join, Scope.argumentTexts_eq_join,
    hargs, hempty, hname]

mutual

/-- **A type has the same text** in both units. -/
theorem SameType.typeText_eq (h : SameScope file tree tree') :
    ∀ {t t' : TypeRef}, SameType tree tree' t t' → t.IsWellNamed →
      (ofSyntax file tree).scope.typeText t = (ofSyntax file tree').scope.typeText t'
  | _, _, .basic name rank, _ => by rw [Scope.typeText, Scope.typeText]
  | _, _, .named hname hargs, .named hpath hwell =>
    typeText_named_congr _ (h.qualifyPath_false_eq hpath hname)
      (SameArguments.map_argumentText_eq h hargs hwell)

theorem SameArgument.argumentText_eq (h : SameScope file tree tree') :
    ∀ {a a' : TypeArgument}, SameArgument tree tree' a a' → a.IsWellNamed →
      (ofSyntax file tree).scope.argumentText a = (ofSyntax file tree').scope.argumentText a'
  | _, _, .any, _ => by rw [Scope.argumentText, Scope.argumentText]
  | _, _, .exact ht, .exact hwell => by
    rw [Scope.argumentText, Scope.argumentText, SameType.typeText_eq h ht hwell]
  | _, _, .upTo ht, .upTo hwell => by
    rw [Scope.argumentText, Scope.argumentText, SameType.typeText_eq h ht hwell]
  | _, _, .downTo ht, .downTo hwell => by
    rw [Scope.argumentText, Scope.argumentText, SameType.typeText_eq h ht hwell]

theorem SameArguments.map_argumentText_eq (h : SameScope file tree tree') :
    ∀ {as as' : List TypeArgument}, SameArguments tree tree' as as' →
      (∀ a ∈ as, a.IsWellNamed) →
      as.map (ofSyntax file tree).scope.argumentText =
        as'.map (ofSyntax file tree').scope.argumentText
  | _, _, .nil, _ => by rw [List.map_nil, List.map_nil]
  | _, _, .cons ha has, hwell => by
    obtain ⟨hfirst, hrest⟩ := List.forall_mem_cons.1 hwell
    rw [List.map_cons, List.map_cons, SameArgument.argumentText_eq h ha hfirst,
      SameArguments.map_argumentText_eq h has hrest]

end

/-! ### Fields -/

/-- Related elements of two lists may be known to be in them. -/
theorem forall₂_imp_of_mem {α β : Type} {R S : α → β → Prop} {as : List α} {bs : List β}
    (h : Forall₂ R as bs) (himp : ∀ a ∈ as, ∀ b ∈ bs, R a b → S a b) : Forall₂ S as bs := by
  induction h with
  | nil => exact .nil
  | @cons a b as bs hab _ ih =>
    refine .cons (himp a List.mem_cons_self b List.mem_cons_self hab) (ih fun a' ha b' hb => ?_)
    exact himp a' (List.mem_cons_of_mem a ha) b' (List.mem_cons_of_mem b hb)

/-- Related elements give the same values or none. -/
theorem filterMap_eq_filterMap_of_forall₂ {α β γ : Type} {R : α → β → Prop} {f : α → Option γ}
    {g : β → Option γ} (hfg : ∀ a b, R a b → f a = g b) {as : List α} {bs : List β}
    (h : Forall₂ R as bs) : as.filterMap f = bs.filterMap g := by
  induction h with
  | nil => rfl
  | cons hab _ ih => rw [List.filterMap_cons, List.filterMap_cons, hfg _ _ hab, ih]

theorem SameType.addRank {t t' : TypeRef} (h : SameType tree tree' t t') (n : Nat) :
    SameType tree tree' (t.addRank n) (t'.addRank n) := by
  cases h with
  | basic name rank => exact .basic name (rank + n)
  | named hname hargs => exact .named hname hargs

/-- Annotations that are the same but for import styles use the same markers. -/
theorem SameUse.agrees (h : SameScope file tree tree') {a a' : Annotation}
    (ha : SameUse tree tree' a a') (hpath : IsPath a.path) :
    ((ofSyntax file tree).scope.annotationUse a).Agrees
      ((ofSyntax file tree').scope.annotationUse a') where
  names m := h.mem_names_iff hpath ha.path m
  given := ha.given

theorem rel_annotationUse (h : SameScope file tree tree') {as as' : List Annotation}
    (hsame : Forall₂ (SameUse tree tree') as as') (hpaths : ∀ a ∈ as, IsPath a.path) :
    Forall₂ AnnotationUse.Agrees (as.map (ofSyntax file tree).scope.annotationUse)
      (as'.map (ofSyntax file tree').scope.annotationUse) := by
  rw [List.forall₂_map_left_iff, List.forall₂_map_right_iff]
  exact forall₂_imp_of_mem hsame fun a ha _ _ haa => haa.agrees h (hpaths a ha)

/-- The fields of a statement agree. -/
theorem rel_describeFields (h : SameScope file tree tree') {g g' : FieldGroup}
    (hwell : g.IsWellNamed) (hwords : g.modifiers.words = g'.modifiers.words)
    (hannotations :
      Forall₂ (SameUse tree tree') g.modifiers.annotations g'.modifiers.annotations)
    (htype : SameType tree tree' g.type g'.type) (hnames : g.names = g'.names) :
    Forall₂ SourceField.Agrees
      ((Scan.mk [ofSyntax file tree]).describeFields (ofSyntax file tree).scope g)
      ((Scan.mk [ofSyntax file tree']).describeFields (ofSyntax file tree').scope g') := by
  rw [Scan.describeFields, Scan.describeFields, hnames, List.forall₂_map_left_iff,
    List.forall₂_map_right_iff, List.forall₂_same]
  rintro ⟨name, rank⟩ -
  have htext := SameType.typeText_eq h (htype.addRank rank) (hwell.type.addRank rank)
  refine ⟨rfl, htext, hwords, rel_annotationUse h hannotations hwell.modifiers, ?_⟩
  show decide _ = decide _
  rw [htext, h.names.enums_eq]

/-- The fields that a member declares. -/
def fieldsOf (u : SourceUnit) : Member → List SourceField
  | .fields g => (Scan.mk [u]).describeFields u.scope g
  | _ => []

/-- The arity of a constructor. -/
def Member.arity? : Member → Option Nat
  | .constructor arity => some arity
  | _ => none

/-- The fields of a member agree. -/
theorem SameMember.rel_fields (h : SameScope file tree tree') {m m' : Member}
    (hsame : SameMember tree tree' m m') (hwell : m.IsWellNamed) :
    Forall₂ SourceField.Agrees (fieldsOf (ofSyntax file tree) m)
      (fieldsOf (ofSyntax file tree') m') := by
  cases hsame with
  | fields hwords hannotations htype hnames =>
    exact rel_describeFields h hwell hwords hannotations htype hnames
  | constructor | type | other => exact .nil

/-! ### Classes -/

theorem SameMember.arity?_eq {m m' : Member} (h : SameMember tree tree' m m') :
    m.arity? = m'.arity? := by
  cases h <;> rfl

namespace SameUnit

theorem memberTypes_eq (h : SameUnit tree tree' d d') :
    SourceUnit.memberTypes d = SourceUnit.memberTypes d' := by
  refine filterMap_eq_filterMap_of_forall₂ (fun m m' hm => ?_) h.members
  cases hm <;> rfl

theorem sameScope (h : SameUnit tree tree' d d') (hwell : tree.IsWellNamed)
    (hwell' : tree'.IsWellNamed) (file : Option String) : SameScope file tree tree' where
  wellNamed := hwell
  wellNamed' := hwell'
  imports := h.imports
  names := by
    refine ⟨?_, ?_⟩
    · show ".".intercalate (tree.package.getD []) = ".".intercalate (tree'.package.getD [])
      rw [h.package]
    · show tree.types.map declares = tree'.types.map declares
      rw [h.types, h.types', List.map_singleton, List.map_singleton, declares, declares, h.kind,
        h.name, h.memberTypes_eq]

/-- The class that a unit of one type declares. -/
abbrev description (file : Option String) (tree : CompilationUnit) (d : TypeDecl) : SourceClass :=
  (Scan.mk [ofSyntax file tree]).describe (ofSyntax file tree) d none

/-- The descriptions agree, their interfaces aside. -/
theorem agrees (h : SameUnit tree tree' d d') (hscope : SameScope file tree tree')
    (hd : d.IsLexical) : (description file tree d).Agrees (description file tree' d') where
  name := h.name
  package := hscope.names.package
  kind := h.kind
  modifiers := h.words
  annotations := rel_annotationUse hscope h.annotations hd.modifiers
  fields := by
    show Forall₂ _
      ((if d.kind = .classType then d.members else []).flatMap (fieldsOf (ofSyntax file tree)))
      ((if d'.kind = .classType then d'.members else []).flatMap (fieldsOf (ofSyntax file tree')))
    rw [← h.kind]
    split
    · have hmembers := forall₂_imp_of_mem h.members fun m hm m' _ hmm =>
        hmm.rel_fields hscope (hd.members m hm)
      exact List.rel_flatMap hmembers fun _ _ hfields => hfields
    · exact .nil
  arities := by
    show (if d.kind = .classType then d.members else []).filterMap Member.arity? =
      (if d'.kind = .classType then d'.members else []).filterMap Member.arity?
    rw [← h.kind]
    split
    · exact filterMap_eq_filterMap_of_forall₂ (fun _ _ hm => hm.arity?_eq) h.members
    · rfl

/-- Interfaces whose names are the same but for the import styles of type names are the same. -/
theorem interfaces_eq (hscope : SameScope file tree tree') (hd : d.IsLexical)
    (hinterfaces : Forall₂ (fun t t' => SameName tree tree' t.path t'.path) d.interfaces
      d'.interfaces) :
    (description file tree d).interfaces = (description file tree' d').interfaces := by
  have hhead (u : SourceUnit) (t : TypeRef) :
      u.scope.qualifiedHead t = u.scope.qualifyPath false t.path := by
    cases t <;> rfl
  have heq := forall₂_imp_of_mem hinterfaces fun t ht t' _ hsame =>
    hscope.qualifyPath_false_eq (hd.interfaces t ht).isPath hsame
  refine map_eq_map_of_forall₂ (fun t t' htt => ?_) heq
  show (ofSyntax file tree).scope.qualifiedHead t = (ofSyntax file tree').scope.qualifiedHead t'
  rw [hhead, hhead, htt]

end SameUnit

end Java

namespace SourceClass

/-- A class without a superclass is its own hierarchy. -/
theorem hierarchy_of_superclass_eq_none {c : SourceClass} (h : c.superclass = none) :
    c.hierarchy = [c] := by
  rw [hierarchy, ancestors, chain_of_superclass_eq_none h, untilRepeated]

/-- **Import styles do not matter to markers.** Two units of one type each are the same but for the
styles of imports: persistence annotations are imported by name or on demand or written in full, and
other names of styled types are imported by name or written in full. Then the types are entities
alike, are taken for the same entity and have the same defects. They also give the same concern if
the interfaces are the same in this way, and so if `Serializable` is not left to an import on
demand. The names are identifiers, as in every text that is read
(`CompilationUnit.isLexical_of_read`). -/
theorem eq_of_sameUnit {tree tree' : CompilationUnit} {d d' : TypeDecl}
    (h : SameUnit tree tree' d d') (hwell : tree.IsWellNamed) (hwell' : tree'.IsWellNamed)
    (hd : d.IsLexical) (file : Option String) :
    ∃ c c', (Scan.mk [.ofSyntax file tree]).classes = [c] ∧
      (Scan.mk [.ofSyntax file tree']).classes = [c'] ∧
      c.isEntity = c'.isEntity ∧
      (∀ table, Entity.ofClass? table c = Entity.ofClass? table c') ∧
      c.check.defects = c'.check.defects ∧
      (Forall₂ (fun t t' => SameName tree tree' t.path t'.path) d.interfaces d'.interfaces →
        c.check = c'.check) := by
  have hscope := h.sameScope hwell hwell' file
  have hagrees := h.agrees hscope hd
  have hhierarchy : Forall₂ Agrees (SameUnit.description file tree d).hierarchy
      (SameUnit.description file tree' d').hierarchy := by
    rw [hierarchy_of_superclass_eq_none rfl, hierarchy_of_superclass_eq_none rfl]
    exact .cons hagrees .nil
  have hdefects := defects_check_eq hhierarchy
  refine ⟨_, _, Scan.classes_of_types_eq h.types, Scan.classes_of_types_eq h.types',
    hagrees.isEntity, ofClass?_eq hhierarchy, hdefects, fun hinterfaces => ?_⟩
  have hconcerns : (SameUnit.description file tree d).check.concerns =
      (SameUnit.description file tree' d').check.concerns := by
    refine concerns_check_eq ?_ hagrees.name
    rw [hierarchy_of_superclass_eq_none rfl, hierarchy_of_superclass_eq_none rfl]
    refine .cons ?_ .nil
    rw [SameUnit.interfaces_eq hscope hd hinterfaces]
  exact Findings.mk.injEq .. ▸ ⟨hdefects, hconcerns⟩

/-! ### One class in several styles -/

/-- A class with an identifier, with the names of its annotations and types as they are written. -/
def styledItem (entity id : List String) (interface type : TypeRef) : TypeDecl where
  kind := .classType
  name := "Item"
  modifiers := ⟨["public"], [.mk entity .none]⟩
  superclass := none
  interfaces := [interface]
  members := [.fields ⟨⟨["private"], [.mk id .none]⟩, type, [("id", 0)]⟩]

/-- A unit of one type. -/
def unitOf (imports : List Import) (d : TypeDecl) : CompilationUnit where
  package := some ["shop"]
  imports := imports
  types := [d]

def simpleType (name : String) : TypeRef := .named name [] [] 0

/-- All types are imported by name. -/
def importedItem : CompilationUnit :=
  unitOf
    [.single ["java", "io", "Serializable"], .single ["jakarta", "persistence", "Entity"],
      .single ["jakarta", "persistence", "Id"]]
    (styledItem ["Entity"] ["Id"] (simpleType "Serializable") (simpleType "Long"))

/-- One annotation is imported on demand, where both persistence packages are opened, and the other
types are written in full. -/
def mixedItem : CompilationUnit :=
  unitOf [.onDemand ["javax", "persistence"], .onDemand ["jakarta", "persistence"]]
    (styledItem ["Entity"] ["jakarta", "persistence", "Id"]
      (.named "java" ["io", "Serializable"] [] 0) (simpleType "Long"))

theorem imports_importedItem {path : List String} {name : String}
    (h : importedItem.Imports path name) :
    path = ["java", "io", "Serializable"] ∧ name = "Serializable" ∨
      path = ["jakarta", "persistence", "Entity"] ∧ name = "Entity" ∨
      path = ["jakarta", "persistence", "Id"] ∧ name = "Id" := by
  obtain ⟨hmem, hlast⟩ := h
  simp only [importedItem, unitOf, List.mem_cons, Import.single.injEq, List.not_mem_nil,
    or_false] at hmem
  rcases hmem with rfl | rfl | rfl <;> simp_all

theorem spells_importedItem {package : List String} {name : String}
    (h : importedItem.Imports (package ++ [name]) name) :
    importedItem.Spells package name .single [name] := by
  refine .single h.1 fun path hpath => ?_
  rcases imports_importedItem h with ⟨heq, rfl⟩ | ⟨heq, rfl⟩ | ⟨heq, rfl⟩ <;>
    rcases imports_importedItem hpath with ⟨rfl, hname⟩ | ⟨rfl, hname⟩ | ⟨rfl, hname⟩ <;>
    first | exact heq.symm | exact absurd hname (by decide)

theorem not_imports_mixedItem (path : List String) (name : String) :
    ¬ mixedItem.Imports path name := by
  rintro ⟨hmem, -⟩
  simp [mixedItem, unitOf] at hmem

theorem spells_mixedItem {package : List String} {name : String} :
    mixedItem.Spells package name .qualified (package ++ [name]) :=
  .qualified fun path first _ => not_imports_mixedItem path first

theorem sameUnit_item :
    SameUnit importedItem mixedItem
      (styledItem ["Entity"] ["Id"] (simpleType "Serializable") (simpleType "Long"))
      (styledItem ["Entity"] ["jakarta", "persistence", "Id"]
        (.named "java" ["io", "Serializable"] [] 0) (simpleType "Long")) where
  package := rfl
  imports := by
    rw [List.filter_eq_nil_iff.2 (by decide), List.filter_eq_nil_iff.2 (by decide)]
  types := rfl
  types' := rfl
  kind := rfl
  name := rfl
  words := rfl
  annotations := by
    -- on the class: imported by its name, and by that of its package alone
    have hnot : ¬ mixedItem.Names "Entity" := by
      rintro (⟨path, himports⟩ | ⟨d, hd, hname⟩)
      · exact not_imports_mixedItem path "Entity" himports
      · obtain rfl := List.mem_singleton.1 hd
        revert hname
        decide
    have hspells : importedItem.Spells ["jakarta", "persistence"] "Entity" .single ["Entity"] :=
      spells_importedItem ⟨by simp [importedItem, unitOf], rfl⟩
    have hspells' : mixedItem.Spells ["jakarta", "persistence"] "Entity" .onDemand ["Entity"] :=
      .onDemand (by simp [mixedItem, unitOf]) hnot
    exact .cons ⟨.marker (by decide) hspells hspells', rfl⟩ .nil
  members := by
    -- on the field: imported by its name, and written in full
    have hid : SameMarker importedItem mixedItem ["Id"] (["jakarta", "persistence"] ++ ["Id"]) :=
      .marker (by decide) (spells_importedItem ⟨by simp [importedItem, unitOf], rfl⟩)
        spells_mixedItem
    have hother : SameName importedItem mixedItem ["Long"] ["Long"] := by
      refine .other ?_ ?_
      · rintro ⟨path, himports, -⟩
        rcases imports_importedItem himports with ⟨-, hname⟩ | ⟨-, hname⟩ | ⟨-, hname⟩ <;>
          exact absurd hname (by decide)
      · rintro ⟨path, himports, -⟩
        exact not_imports_mixedItem path "Long" himports
    exact .cons (.fields rfl (.cons ⟨hid, rfl⟩ .nil) (.named hother .nil) rfl) .nil

theorem sameInterfaces_item :
    SameName importedItem mixedItem ["Serializable"] ["java", "io", "Serializable"] := by
  have hspells : importedItem.Spells ["java", "io"] "Serializable" .single ["Serializable"] :=
    spells_importedItem ⟨by simp [importedItem, unitOf], rfl⟩
  have hsame : SameName importedItem mixedItem (["Serializable"] ++ [])
      (["java", "io", "Serializable"] ++ []) :=
    .respelled (Or.inr ⟨by decide, rfl⟩) (by decide) (by decide) hspells spells_mixedItem
  exact hsame

theorem isLexical_styledItem :
    (styledItem ["Entity"] ["Id"] (simpleType "Serializable") (simpleType "Long")).IsLexical where
  name := by decide
  modifiers a ha := List.mem_singleton.1 ha ▸ ⟨by decide, by decide⟩
  superclass _ h := nomatch h
  interfaces t ht := List.mem_singleton.1 ht ▸ .named ⟨by decide, by decide⟩ fun _ h => nomatch h
  members m hm := by
    rw [List.mem_singleton.1 hm]
    refine ⟨fun a ha => List.mem_singleton.1 ha ▸ ⟨by decide, by decide⟩, ?_, by decide⟩
    exact .named ⟨by decide, by decide⟩ fun _ h => nomatch h

theorem isWellNamed_unitOf {imports : List Import} (himports : ∀ i ∈ imports, IsPath i.path)
    (entity id : List String) (interface type : TypeRef) :
    (unitOf imports (styledItem entity id interface type)).IsWellNamed where
  package := by
    rintro path ⟨⟩
    exact ⟨by decide, by decide⟩
  imports := himports
  types d hd := by
    rw [List.mem_singleton.1 hd]
    refine ⟨?_, fun _ hm => nomatch hm⟩
    show isIdentifier "Item".toList = true
    decide

/-- The item is the same entity in both styles, and nothing is wrong with it. -/
theorem eq_of_sameUnit_item :
    ∃ c c', (Scan.mk [.ofSyntax none importedItem]).classes = [c] ∧
      (Scan.mk [.ofSyntax none mixedItem]).classes = [c'] ∧
      c.isEntity = true ∧ c'.isEntity = true ∧ c.check = ⟨[], []⟩ ∧ c'.check = ⟨[], []⟩ := by
  have himported : importedItem.IsWellNamed := by
    refine isWellNamed_unitOf (fun i hi => ?_) _ _ _ _
    simp only [List.mem_cons, List.not_mem_nil, or_false] at hi
    rcases hi with rfl | rfl | rfl <;> exact ⟨by decide, by decide⟩
  have hmixed : mixedItem.IsWellNamed := by
    refine isWellNamed_unitOf (fun i hi => ?_) _ _ _ _
    rcases List.mem_pair.1 hi with rfl | rfl <;> exact ⟨by decide, by decide⟩
  obtain ⟨c, c', hc, hc', hentity, -, -, hcheck⟩ :=
    eq_of_sameUnit sameUnit_item himported hmixed isLexical_styledItem none
  have hcheck := hcheck (.cons sameInterfaces_item .nil)
  have hitem : c.isEntity = true ∧ c.check = ⟨[], []⟩ := by
    have hall : (Scan.mk [.ofSyntax none importedItem]).classes.all fun c =>
        c.isEntity && c.check == ⟨[], []⟩ := by
      decide +kernel
    rw [hc] at hall
    simpa using hall
  exact ⟨c, c', hc, hc', hitem.1, hentity ▸ hitem.1, hitem.2, hcheck ▸ hitem.2⟩

/-- What the checks find in the types of a unit that is read alone. -/
def findings (tree : CompilationUnit) : List Findings :=
  (Scan.mk [.ofSyntax none tree]).classes.map (·.check)

/-- The declared types of the fields of the entities of such a unit. -/
def entityTypes (tree : CompilationUnit) : List (List String) :=
  (Scan.mk [.ofSyntax none tree]).classes.filterMap fun c =>
    (Entity.ofClass? .standard c).map fun m => m.fields.map (·.typeText)

/-- **Some styles do matter.** `Serializable` imported on demand is not found, neither as an
interface nor as the type of a field. A name written in full is not found if a class is imported
that is called like its first part. A marker that is not imported is found as soon as a persistence
package is opened for another one. -/
theorem exists_style_matters :
    let importEntity := Import.single ["jakarta", "persistence", "Entity"]
    let importId := Import.single ["jakarta", "persistence", "Id"]
    let marked := styledItem ["Entity"] ["Id"] (simpleType "Serializable")
    let long := marked (simpleType "Long")
    let key := marked (simpleType "Serializable")
    findings (unitOf [importEntity, importId, .single ["java", "io", "Serializable"]] long) =
      [⟨[], []⟩] ∧
    findings (unitOf [importEntity, importId, .onDemand ["java", "io"]] long) =
      [⟨[], [.notSerializable "Item"]⟩] ∧
    entityTypes (unitOf [importEntity, importId, .single ["java", "io", "Serializable"]] key) =
      [["java.io.Serializable"]] ∧
    entityTypes (unitOf [importEntity, importId, .onDemand ["java", "io"]] key) =
      [["Serializable"]] ∧
    findings (unitOf [.single ["shop", "jakarta"], importEntity, importId] long) =
      [⟨[], [.notSerializable "Item"]⟩] ∧
    findings (unitOf [.single ["shop", "jakarta"], importId]
      (styledItem ["jakarta", "persistence", "Entity"] ["Id"] (simpleType "Serializable")
        (simpleType "Long"))) = [⟨[.notMarked "Item"], [.notSerializable "Item"]⟩] ∧
    findings (unitOf [importEntity] long) =
      [⟨[.noMarkedId "Item"], [.notSerializable "Item"]⟩] ∧
    findings (unitOf [.onDemand ["jakarta", "persistence"]] long) =
      [⟨[], [.notSerializable "Item"]⟩] := by
  decide +kernel

end SourceClass

end EntityScaffold
