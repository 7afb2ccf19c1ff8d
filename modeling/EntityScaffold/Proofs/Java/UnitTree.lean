import EntityScaffold.Proofs.Java.MemberTree

/-!
# Generated files

The tokens of a file with one type: its package, its imports and the type with its members. They are
read as a compilation unit with that package, these imports and that type alone, whose members are
those of the file (`UnitTree.IsProper.ofTokens_eq`).
-/

namespace EntityScaffold.Java

open Java.Parser Java.Token Java.Grammar

/-! ### Types -/

/-- What a file declares. -/
inductive Heading
  | ofClass
  /-- An interface, which may extend another one. -/
  | ofInterface (parent : Option ResolvedType)

namespace Heading

def kind : Heading → TypeKind
  | ofClass => .classType
  | ofInterface _ => .interfaceType

/-- The word in front of the name. -/
def word : Heading → String
  | ofClass => "class"
  | ofInterface _ => "interface"

/-- The type that is extended. -/
def parent? : Heading → Option ResolvedType
  | ofClass => none
  | ofInterface parent => parent

/-- The tokens behind the name. -/
def parentTokens (h : Heading) : List Token :=
  match h.parent? with
  | none => []
  | some t => .keyword "extends" :: t.tokens

end Heading

/-- The type of a file. -/
structure TypeTree where
  markings : List Marking
  heading : Heading
  name : String
  members : List MemberTree

namespace TypeTree

/-- The tokens of a declaration. -/
def declarationTokens (heading : Heading) (name : String) : List Token :=
  .keyword "public" :: .keyword heading.word :: .identifier name :: heading.parentTokens

/-- The tokens of the members in braces. -/
def bodyTokens (members : List MemberTree) : List Token :=
  openBrace :: (members.flatMap MemberTree.tokens ++ [closeBrace])

/-- The tokens of the type. -/
def tokens (t : TypeTree) : List Token :=
  t.markings.flatMap Marking.tokens ++ (declarationTokens t.heading t.name ++ bodyTokens t.members)

/-- Names in the type are not reserved, and its parts are proper. An interface has methods without
bodies only. -/
structure IsProper (t : TypeTree) : Prop where
  markings : ∀ a ∈ t.markings, a.IsProper
  parent : ∀ u ∈ t.heading.parent?, u.IsProper ∧ u.IsElement
  name : IsName t.name
  members : ∀ m ∈ t.members, m.IsProper
  isAbstract : t.heading.kind = .interfaceType → ∀ m ∈ t.members, m.IsAbstract

variable {f : TypeTree} {rest : List Token} {n : Nat}

/-- The type starts with an annotation or the first of its modifiers. -/
theorem exists_cons (f : TypeTree) :
    ∃ t us, f.tokens = t :: us ∧ t ∈ [atSign, .keyword "public"] ∧
      (f.markings = [] → t = .keyword "public") := by
  rw [tokens]
  cases f.markings with
  | nil => exact ⟨_, _, rfl, by decide, fun _ => rfl⟩
  | cons a as =>
    obtain ⟨name, us, hus⟩ := a.exists_cons
    exact ⟨atSign, _, by rw [List.flatMap_cons, hus]; rfl, by decide, nofun⟩

section Body

variable {members : List MemberTree}

theorem head?_member {m : MemberTree} (h : m.IsProper) (us : List Token) :
    ((m.tokens ++ us).head? != some closeBrace) = true := by
  obtain ⟨w, ws, hws, hw⟩ := h.tokens_cons
  simp only [List.mem_cons, List.not_mem_nil, or_false, not_or] at hw
  simp [hws, hw.2.2.1]

theorem tokens_ne_nil {m : MemberTree} (h : m.IsProper) : m.tokens ≠ [] := by
  obtain ⟨w, ws, hws, -⟩ := h.tokens_cons
  simp [hws]

/-- **Members in braces are read one after the other**, by a reader that reads each of them. -/
theorem exists_manyUntil {p : Parser (Option Member)} {R : MemberTree → Member → Prop}
    (hmembers : ∀ m ∈ members, m.IsProper)
    (h : ∀ m ∈ members, ∀ us, ∃ found, R m found ∧ p (m.tokens ++ us) = .ok (some found, us))
    (rest : List Token) :
    ∃ found, List.Forall₂ R members found ∧
      manyUntil closeBrace p (members.flatMap MemberTree.tokens ++ closeBrace :: rest) =
        .ok (found.map some, closeBrace :: rest) := by
  have hitem : ∀ m ∈ members, ∀ us, True → ((m.tokens ++ us).head? != some closeBrace) = true ∧
      ∃ a, (∃ found, R m found ∧ a = some found) ∧ p (m.tokens ++ us) = .ok (a, us) := by
    intro m hm us _
    obtain ⟨found, hfound, hp⟩ := h m hm us
    exact ⟨head?_member (hmembers m hm) us, some found, ⟨found, hfound, rfl⟩, hp⟩
  obtain ⟨as, has, hmany⟩ : ∃ as : List (Option Member),
      List.Forall₂ (fun m a => ∃ found, R m found ∧ a = some found) members as ∧
      Many (fun ts => ts.head? != some closeBrace) p
        (members.flatMap MemberTree.tokens ++ closeBrace :: rest) as (closeBrace :: rest) :=
    exists_many (fun m hm => tokens_ne_nil (hmembers m hm)) hitem (fun _ _ _ => trivial) trivial
      (by simp)
  obtain ⟨found, hfound, rfl⟩ : ∃ found, List.Forall₂ R members found ∧ as = found.map some := by
    clear hmany hitem hmembers h
    induction has with
    | nil => exact ⟨[], .nil, rfl⟩
    | cons hm _ ih =>
      obtain ⟨a, ha, rfl⟩ := hm
      obtain ⟨found, hfound, rfl⟩ := ih
      exact ⟨a :: found, .cons ha hfound, rfl⟩
  exact ⟨found, hfound, by rw [manyUntil, hmany.many_eq]⟩

theorem length_member_le {m : MemberTree} (hm : m ∈ members) :
    m.tokens.length ≤ (bodyTokens members).length := by
  obtain ⟨before, after, rfl⟩ := List.append_of_mem hm
  simp [bodyTokens]
  omega

/-- Members are read as the body of a class. -/
theorem exists_classBody (hmembers : ∀ m ∈ members, m.IsProper)
    (hn : (bodyTokens members).length ≤ n + 1) (rest : List Token) :
    ∃ found, List.Forall₂ MemberTree.IsReadAs members found ∧
      classBody (ofDepth (n + 2)) (bodyTokens members ++ rest) = .ok (found, rest) := by
  obtain ⟨found, hfound, hmany⟩ := exists_manyUntil (R := MemberTree.IsReadAs) hmembers
    (fun m hm us => (hmembers m hm).classMember (Nat.le_trans (length_member_le hm) hn) us) rest
  refine ⟨found, hfound, ?_⟩
  simp [classBody, bodyTokens, hmany]

end Body

theorem tokens_eq (f : TypeTree) :
    f.tokens = modifierTokens f.markings ["public"] ++
      .keyword f.heading.word :: .identifier f.name ::
        (f.heading.parentTokens ++ bodyTokens f.members) := by
  simp [tokens, modifierTokens, declarationTokens]

/-- A method without a body is no member that is kept. -/
theorem isReadAs_other {m : MemberTree} (h : m.IsAbstract) : m.IsReadAs .other := by
  cases m with
  | field | constructor => cases h
  | method => rfl

/-- The type that an interface extends is read. -/
theorem typesAfter_parentTokens {parent : Option ResolvedType}
    (hparent : ∀ t ∈ parent, t.IsProper ∧ t.IsElement)
    (hn : (Heading.ofInterface parent).parentTokens.length ≤ n + 1) (us : List Token) :
    Takes (typesAfter "extends" (ofDepth n))
      ((Heading.ofInterface parent).parentTokens ++ openBrace :: us) (openBrace :: us) := by
  cases parent with
  | none => simp [Takes, typesAfter, Heading.parentTokens, Heading.parent?, List.isPrefixOf]
  | some t =>
    obtain ⟨hproper, helement⟩ := hparent t rfl
    obtain ⟨r, hr⟩ : Takes (elementType (ofDepth n)) (t.tokens ++ openBrace :: us)
        (openBrace :: us) :=
      (hproper.takes (by simpa [Heading.parentTokens, Heading.parent?] using hn)
        (by simp [ResolvedType.TypeEnds])).2 helement
    have hmore : (openBrace :: us).head? ≠ some comma := by simp
    simp [Takes, typesAfter, Heading.parentTokens, Heading.parent?, List.isPrefixOf, typeList,
      sepBy, hr, many_head_eq_nil hmore]

/-- The modifiers of a type end at the word of its declaration. -/
theorem IsProper.modifiers (h : f.IsProper) :
    Takes (Grammar.modifiers (ofDepth (n + 2))) f.tokens
      (.keyword f.heading.word :: .identifier f.name ::
        (f.heading.parentTokens ++ bodyTokens f.members)) := by
  rw [tokens_eq]
  exact takes_modifiers h.markings (List.forall_mem_singleton.2 (by decide))
    (by cases f.heading <;> rfl) (by simp) (by simp)

/-- A class is read: after its name comes its body. -/
theorem IsProper.exists_classDecl (h : f.IsProper) (hheading : f.heading = .ofClass)
    (hn : (bodyTokens f.members).length ≤ n + 1) :
    ∃ d, d.kind = .classType ∧ d.name = f.name ∧
      List.Forall₂ MemberTree.IsReadAs f.members d.members ∧
      typeDecl (ofDepth (n + 2)) f.tokens = .ok (d, []) := by
  obtain ⟨found, hfound⟩ := h.modifiers (n := n)
  obtain ⟨ms, hms, hbody⟩ := exists_classBody (n := n) h.members hn []
  rw [List.append_nil] at hbody
  have hparams : [openAngle].isPrefixOf (bodyTokens f.members) = false := rfl
  have hextends : [Token.keyword "extends"].isPrefixOf (bodyTokens f.members) = false := rfl
  have himplements : [Token.keyword "implements"].isPrefixOf (bodyTokens f.members) = false := rfl
  refine ⟨⟨.classType, f.name, found, none, [], ms⟩, rfl, rfl, hms, ?_⟩
  simp only [hheading, Heading.word, Heading.parentTokens, Heading.parent?, List.nil_append]
    at hfound
  simp [typeDecl, hfound, typeDecl?, classDecl, typeParameters?, superclass?, typesAfter, hparams,
    hextends, himplements, hbody]

/-- An interface is read: after its name comes the type that it extends, if there is one. -/
theorem IsProper.exists_interfaceDecl (h : f.IsProper) {parent : Option ResolvedType}
    (hheading : f.heading = .ofInterface parent)
    (hn : (Heading.ofInterface parent).parentTokens.length + (bodyTokens f.members).length ≤
      n + 1) :
    ∃ d, d.kind = .interfaceType ∧ d.name = f.name ∧
      List.Forall₂ MemberTree.IsReadAs f.members d.members ∧
      typeDecl (ofDepth (n + 2)) f.tokens = .ok (d, []) := by
  obtain ⟨found, hfound⟩ := h.modifiers (n := n)
  have habstract := h.isAbstract (by rw [hheading]; rfl)
  have hmember : ∀ m ∈ f.members, ∀ us, ∃ found, MemberTree.IsReadAs m found ∧
      (ofDepth (n + 2)).interfaceMember (m.tokens ++ us) = .ok (some found, us) := by
    intro m hm us
    have hle : m.tokens.length ≤ n + 1 := by
      have := length_member_le hm
      omega
    exact ⟨.other, isReadAs_other (habstract m hm),
      (h.members m hm).interfaceMember (habstract m hm) hle us⟩
  obtain ⟨ms, hms, hbody⟩ := exists_manyUntil h.members hmember []
  have hparent : ∀ t ∈ parent, t.IsProper ∧ t.IsElement := fun t ht =>
    h.parent t (by rw [hheading]; exact ht)
  obtain ⟨parents, hparents⟩ := typesAfter_parentTokens (n := n + 2) hparent (by omega)
    (f.members.flatMap MemberTree.tokens ++ [closeBrace])
  have hparams : [openAngle].isPrefixOf ((Heading.ofInterface parent).parentTokens ++
      openBrace :: (f.members.flatMap MemberTree.tokens ++ [closeBrace])) = false := by
    cases parent <;> rfl
  refine ⟨⟨.interfaceType, f.name, found, none, parents, ms⟩, rfl, rfl, hms, ?_⟩
  simp only [hheading, Heading.word, bodyTokens] at hfound
  simp [typeDecl, hfound, typeDecl?, interfaceDecl, typeParameters?, hparams, hparents, hbody]

/-- **A proper type is read** with its name and its members. -/
theorem IsProper.exists_typeDecl (h : f.IsProper) (hn : f.tokens.length ≤ n + 1) :
    ∃ d, d.kind = f.heading.kind ∧ d.name = f.name ∧
      List.Forall₂ MemberTree.IsReadAs f.members d.members ∧
      typeDecl (ofDepth (n + 2)) f.tokens = .ok (d, []) := by
  rw [tokens_eq] at hn
  simp only [List.length_append, List.length_cons] at hn
  cases hheading : f.heading with
  | ofClass => exact h.exists_classDecl hheading (by omega)
  | ofInterface parent =>
    rw [hheading] at hn
    exact h.exists_interfaceDecl hheading (by omega)

end TypeTree

/-! ### Files -/

/-- A file with one type. -/
structure UnitTree where
  /-- The parts of the package. -/
  package : List String
  imports : List (List String)
  type : TypeTree

namespace UnitTree

/-- The tokens of the package declaration, which is left out for no package. -/
def packageTokens (path : List String) : List Token :=
  if path = [] then [] else .keyword "package" :: (pathTokens path ++ [semicolon])

/-- The tokens of an import. -/
def importTokens (path : List String) : List Token :=
  .keyword "import" :: (pathTokens path ++ [semicolon])

/-- The tokens of a file. -/
def tokens (f : UnitTree) : List Token :=
  packageTokens f.package ++ (f.imports.flatMap importTokens ++ f.type.tokens)

/-- Names in the file are not reserved, and its type is proper. Annotations are imported, so none is
taken for one of the package. -/
structure IsProper (f : UnitTree) : Prop where
  package : f.package = [] ∨ IsNamePath f.package
  imports : ∀ path ∈ f.imports, IsNamePath path
  type : f.type.IsProper
  marked : f.type.markings ≠ [] → f.imports ≠ []

variable {f : UnitTree} {rest : List Token} {n : Nat}

theorem importPath_pathTokens {path : List String} (hpath : path ≠ []) (hn : path.length ≤ n) :
    importPath n (pathTokens path ++ semicolon :: rest) = .ok ((path, false), rest) := by
  obtain ⟨first, more, rfl⟩ := List.exists_cons_of_ne_nil hpath
  rw [pathTokens_cons]
  induction more generalizing first n with
  | nil =>
    obtain ⟨n, rfl⟩ := Nat.exists_eq_add_of_le' hn
    simp [importPath, List.isPrefixOf]
  | cons second more ih =>
    obtain ⟨n, rfl⟩ := Nat.exists_eq_add_of_le' (Nat.le_trans (by simp) hn : 1 ≤ n)
    have hmore := ih second (n := n) (List.cons_ne_nil _ _) (by simpa using hn)
    simp only [List.cons_append] at hmore
    simp [importPath, List.isPrefixOf, hmore]

theorem length_le_pathTokens (path : List String) : path.length ≤ (pathTokens path).length := by
  cases path with
  | nil => exact Nat.zero_le _
  | cons first more =>
    rw [pathTokens_cons]
    induction more with
    | nil => simp
    | cons s more ih =>
      simp only [List.length_cons, List.flatMap_cons, List.length_append, List.length_nil] at ih ⊢
      omega

/-- An import is read as one. -/
theorem importDecl_importTokens {path : List String} (hpath : path ≠ []) :
    importDecl (importTokens path ++ rest) = .ok (some (.single path), rest) := by
  have hlength := length_le_pathTokens path
  have himport : importPath ((pathTokens path).length + (rest.length + 1) + 1)
      (pathTokens path ++ semicolon :: rest) = .ok ((path, false), rest) :=
    importPath_pathTokens hpath (by omega)
  have hstatic : [Token.keyword "static"].isPrefixOf (pathTokens path ++ semicolon :: rest) =
      false := by
    obtain ⟨first, more, rfl⟩ := List.exists_cons_of_ne_nil hpath
    rw [pathTokens_cons]
    rfl
  simp [importDecl, importTokens, hstatic, himport]

/-- **Imports are read one after the other.** -/
theorem many_importDecl {paths : List (List String)} (hpaths : ∀ path ∈ paths, path ≠ [])
    (hrest : rest.head? ≠ some (.keyword "import")) :
    many (fun ts => ts.head? == some (.keyword "import")) importDecl
      (paths.flatMap importTokens ++ rest) = .ok (paths.map fun path => some (.single path), rest) := by
  have hmany : Many (fun ts => ts.head? == some (.keyword "import")) importDecl
      (paths.flatMap importTokens ++ rest) (paths.map fun path => some (.single path)) rest := by
    induction paths with
    | nil => exact .done (by simpa using hrest)
    | cons path paths ih =>
      obtain ⟨hpath, hpaths⟩ := List.forall_mem_cons.1 hpaths
      rw [List.flatMap_cons, List.append_assoc]
      refine .next rfl (importDecl_importTokens hpath) ?_ (ih hpaths)
      simp only [importTokens, List.length_append, List.length_cons]
      omega
  exact hmany.many_eq

theorem annotations_eq_nil {g : Grammar} (h : annotationStarts rest = false) :
    annotations g rest = .ok ([], rest) :=
  many_eq_nil h

/-- A package is read, and where there is none, imports or an unmarked type are left. -/
theorem packageName?_eq {g : Grammar} {path : List String} (hpath : path = [] ∨ IsNamePath path)
    (hrest : annotationStarts rest = false) (hpackage : rest.head? ≠ some (.keyword "package")) :
    packageName? g (packageTokens path ++ rest) =
      .ok (if path = [] then none else some path, rest) := by
  rcases hpath with rfl | hpath
  · simp [packageName?, packageTokens, annotations_eq_nil hrest, isPrefixOf_singleton hpackage]
  · have hname : dottedName (pathTokens path ++ semicolon :: rest) =
        .ok (path, semicolon :: rest) := dottedName_pathTokens hpath.ne_nil (by simp)
    have hstart : annotations g (.keyword "package" :: (pathTokens path ++ semicolon :: rest)) =
        .ok ([], .keyword "package" :: (pathTokens path ++ semicolon :: rest)) :=
      annotations_eq_nil rfl
    simp [packageName?, packageTokens, hpath.ne_nil, hstart, List.isPrefixOf, hname]

/-- **The package and the imports of a file are read.** -/
theorem IsProper.header_eq (h : f.IsProper) (g : Grammar) :
    g.header f.tokens =
      .ok ((if f.package = [] then none else some f.package, f.imports.map .single),
        f.type.tokens) := by
  obtain ⟨t, us, hus, ht, hunmarked⟩ := f.type.exists_cons
  simp only [List.mem_cons, List.not_mem_nil, or_false] at ht
  have himport : f.type.tokens.head? ≠ some (.keyword "import") := by
    rcases ht with rfl | rfl <;> simp [hus]
  have hhead : annotationStarts (f.imports.flatMap importTokens ++ f.type.tokens) = false ∧
      (f.imports.flatMap importTokens ++ f.type.tokens).head? ≠ some (.keyword "package") := by
    cases himports : f.imports with
    | nil =>
      have hnone : f.type.markings = [] := by
        by_contra hne
        exact h.marked hne himports
      simp [hus, hunmarked hnone, annotationStarts]
    | cons path paths => simp [importTokens, annotationStarts]
  have hpackage := packageName?_eq (g := g) h.package hhead.1 hhead.2
  have himports := many_importDecl (fun path hp => (h.imports path hp).ne_nil) himport
  simp [header, tokens, hpackage, himports, List.filterMap_map]

/-- **A proper file is read** as its package, its imports and its type. -/
theorem IsProper.ofTokens_eq (h : f.IsProper) :
    ∃ d, d.kind = f.type.heading.kind ∧ d.name = f.type.name ∧
      List.Forall₂ MemberTree.IsReadAs f.type.members d.members ∧
      CompilationUnit.ofTokens f.tokens =
        .ok ⟨if f.package = [] then none else some f.package, f.imports.map .single, [d]⟩ := by
  obtain ⟨t, us, hus, ht, -⟩ := f.type.exists_cons
  have hle : f.type.tokens.length ≤ f.tokens.length := by
    simp only [tokens, List.length_append]
    omega
  obtain ⟨n, hn⟩ : ∃ n, f.tokens.length = n + 1 :=
    Nat.exists_eq_add_of_le' (Nat.le_trans (by simp [hus]) hle)
  obtain ⟨d, hkind, hname, hmembers, hd⟩ := h.type.exists_typeDecl (n := n) (hn ▸ hle)
  refine ⟨d, hkind, hname, hmembers, ?_⟩
  have htop : topLevel (ofDepth (n + 2)) f.type.tokens = .ok (some d, []) := by
    have hsemicolon : [semicolon].isPrefixOf f.type.tokens = false := by
      simp only [List.mem_cons, List.not_mem_nil, or_false] at ht
      rcases ht with rfl | rfl <;> simp [hus, List.isPrefixOf]
    simp [topLevel, hsemicolon, hd]
  have htops : topLevels (ofDepth (n + 2)) f.type.tokens = .ok ([d], []) := by
    have hmany : Many (fun ts => !ts.isEmpty) (topLevel (ofDepth (n + 2))) f.type.tokens [some d] [] :=
      .next (by simp [hus]) htop (by simp [hus]) (.done rfl)
    simp [topLevels, hmany.many_eq]
  rw [CompilationUnit.ofTokens]
  simp only [hn, h.header_eq, htops]

end UnitTree

end EntityScaffold.Java
