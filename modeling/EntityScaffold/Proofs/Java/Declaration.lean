import EntityScaffold.Proofs.Java.Phrase
import EntityScaffold.Source.Scan

/-!
# Names in declarations

Members, declared types and statements contain each other, so what a grammar says of them is shown
for one more level at a time (`isLexical_deepen`) and holds at every depth (`isLexical_ofDepth`).
A text that is read is as deep as it has tokens, and all names of its unit are identifiers
(`SourceUnit.isLexical_of_read`).
-/

namespace EntityScaffold

namespace Java

open Java.Parser Java.Token

/-- Names that a declared type is kept with are not reserved. -/
structure TypeDecl.IsNamed (d : TypeDecl) : Prop where
  name : IsName d.name
  modifiers : d.modifiers.IsWellNamed
  superclass : ∀ t ∈ d.superclass, t.IsNamed
  interfaces : ∀ t ∈ d.interfaces, t.IsNamed
  members : ∀ m ∈ d.members, m.IsNamed

/-- All names that a declared type is kept with are identifiers. -/
structure TypeDecl.IsLexical (d : TypeDecl) : Prop where
  name : Text.isIdentifier d.name.toList = true
  modifiers : d.modifiers.IsWellNamed
  superclass : ∀ t ∈ d.superclass, t.IsWellNamed
  interfaces : ∀ t ∈ d.interfaces, t.IsWellNamed
  members : ∀ m ∈ d.members, m.IsWellNamed

theorem TypeDecl.IsLexical.isWellNamed {d : TypeDecl} (h : d.IsLexical) : d.IsWellNamed where
  name := h.name
  members m hm := by
    obtain ⟨member, hmember, hsome⟩ := List.mem_filterMap.1 hm
    cases member with
    | type kind name =>
      cases hsome
      exact h.members _ hmember
    | fields | constructor | other => cases hsome

theorem TypeDecl.IsNamed.isLexical {d : TypeDecl} (h : d.IsNamed) : d.IsLexical where
  name := h.name.isIdentifier
  modifiers := h.modifiers
  superclass t ht := (h.superclass t ht).isWellNamed
  interfaces t ht := (h.interfaces t ht).isWellNamed
  members m hm := (h.members m hm).isWellNamed

/-- Names in a compilation unit are not reserved. -/
structure CompilationUnit.IsNamed (tree : CompilationUnit) : Prop where
  package : ∀ path ∈ tree.package, IsNamePath path
  imports : ∀ i ∈ tree.imports, IsNamePath i.path
  types : ∀ d ∈ tree.types, d.IsNamed

theorem CompilationUnit.IsNamed.isWellNamed {tree : CompilationUnit} (h : tree.IsNamed) :
    tree.IsWellNamed where
  package path hpath := (h.package path hpath).isPath
  imports i hi := (h.imports i hi).isPath
  types d hd := (h.types d hd).isLexical.isWellNamed

namespace Grammar

-- A phrase has many parts, and so has the instance that is looked for.
set_option synthInstance.maxSize 4096

variable {g : Grammar} [hg : g.IsLexical]

/-! ### Parts of declarations -/

instance reads_declaratorTail : Reads (declaratorTail g) := by
  unfold declaratorTail
  infer_instance

theorem yields_declarator :
    Yields (fun n => IsName n.1) (declarator g) :=
  yields_name.bind fun _ hs => yields_then fun _ => yields_pure hs

instance reads_declarator : Reads (declarator g) := yields_declarator.reads

theorem yields_moreDeclarators :
    Yields (fun ns => ∀ n ∈ ns, IsName n.1) (moreDeclarators g) :=
  (yields_then fun _ => yields_declarator).many

instance reads_moreDeclarators : Reads (moreDeclarators g) := yields_moreDeclarators.reads

instance reads_constantTail : Reads (constantTail g) := by
  unfold constantTail
  infer_instance

instance reads_moreConstants : Reads (moreConstants g) := by
  unfold moreConstants
  infer_instance

instance reads_throws : Reads throws := by
  unfold throws
  infer_instance

instance reads_methodTail : Reads (methodTail g) := by
  unfold methodTail
  infer_instance

instance reads_voidMethodTail : Reads (voidMethodTail g) := by
  unfold voidMethodTail
  infer_instance

theorem yields_constructorTail : Yields Member.IsNamed (constructorTail g) :=
  yields_then fun _ => yields_then fun _ => yields_then fun _ => yields_pure trivial

theorem yields_superclass? :
    Yields (fun t => ∀ t' ∈ t, TypeRef.IsNamed t') (superclass? g) := by
  refine yields_then fun _ => yields_ite ?_ ?_
  · refine yields_type.bind fun t ht => yields_pure fun t' ht' => ?_
    exact Option.mem_some.1 ht' ▸ ht
  · exact yields_pure fun _ ht => nomatch ht

theorem yields_typesAfter (word : String) :
    Yields (fun ts => ∀ t ∈ ts, TypeRef.IsNamed t) (typesAfter word g) :=
  yields_then fun _ => yields_ite yields_typeList (yields_pure fun _ ht => nomatch ht)

instance reads_typesAfter (word : String) : Reads (typesAfter word g) :=
  (yields_typesAfter word).reads

/-- Members of a body, with stray semicolons among them. -/
theorem isNamed_of_mem_filterMap {found : List (Option Member)}
    (h : ∀ m ∈ found, ∀ m' ∈ m, m'.IsNamed) : ∀ m ∈ found.filterMap id, m.IsNamed := by
  intro m hm
  obtain ⟨m', hm', hsome⟩ := List.mem_filterMap.1 hm
  exact h m' hm' m hsome

theorem yields_classBody : Yields (fun ms => ∀ m ∈ ms, m.IsNamed) (classBody g) := by
  refine yields_then fun _ => hg.classMember.many.bind fun found hfound => ?_
  exact yields_then fun _ => yields_pure (isNamed_of_mem_filterMap hfound)

instance reads_enumConstant : Reads (enumConstant g) := by
  unfold enumConstant
  infer_instance

instance reads_enumConstants : Reads (enumConstants g) := by
  unfold enumConstants
  infer_instance

instance reads_enumBody : Reads (enumBody g) := by
  unfold enumBody
  infer_instance

/-! ### Declared types -/

section Declared

variable {found : Modifiers} (hfound : found.IsWellNamed)

include hfound

theorem yields_classDecl : Yields TypeDecl.IsNamed (classDecl g found) := by
  refine yields_then fun _ => yields_name.bind fun s hs => yields_then fun _ => ?_
  refine yields_superclass?.bind fun superclass hsuperclass => ?_
  refine (yields_typesAfter _).bind fun interfaces hinterfaces => ?_
  exact yields_classBody.bind fun members hmembers =>
    yields_pure ⟨hs, hfound, hsuperclass, hinterfaces, hmembers⟩

theorem yields_enumDecl : Yields TypeDecl.IsNamed (enumDecl g found) := by
  refine yields_then fun _ => yields_name.bind fun s hs => ?_
  refine (yields_typesAfter _).bind fun interfaces hinterfaces => yields_then fun _ => ?_
  exact yields_pure ⟨hs, hfound, by simp, hinterfaces, by simp⟩

theorem yields_interfaceDecl : Yields TypeDecl.IsNamed (interfaceDecl g found) := by
  refine yields_then fun _ => yields_name.bind fun s hs => yields_then fun _ => ?_
  refine (yields_typesAfter _).bind fun interfaces hinterfaces => yields_then fun _ => ?_
  refine hg.interfaceMember.many.bind fun members hmembers => yields_then fun _ => ?_
  exact yields_pure ⟨hs, hfound, by simp, hinterfaces, isNamed_of_mem_filterMap hmembers⟩

theorem yields_annotationDecl : Yields TypeDecl.IsNamed (annotationDecl g found) := by
  refine yields_then fun _ => yields_name.bind fun s hs => yields_then fun _ => ?_
  refine hg.annotationMember.many.bind fun members hmembers => yields_then fun _ => ?_
  exact yields_pure ⟨hs, hfound, by simp, by simp, isNamed_of_mem_filterMap hmembers⟩

/-- **A declared type is made of names.** -/
theorem yields_typeDecl? :
    Yields (fun d => ∀ d' ∈ d, TypeDecl.IsNamed d') (typeDecl? g found) := by
  have hsome {p : Parser TypeDecl} (hp : Yields TypeDecl.IsNamed p) :
      Yields (fun d => ∀ d' ∈ d, TypeDecl.IsNamed d') (do return some (← p)) :=
    hp.bind fun d hd => yields_pure fun d' hd' => Option.mem_some.1 hd' ▸ hd
  refine yields_then fun ts => ?_
  split
  · exact hsome (yields_classDecl hfound)
  · exact hsome (yields_enumDecl hfound)
  · exact hsome (yields_interfaceDecl hfound)
  · refine yields_then fun _ => yields_ite (hsome (yields_annotationDecl hfound)) ?_
    exact yields_pure fun _ h => nomatch h

end Declared

theorem yields_typeDecl : Yields TypeDecl.IsNamed (typeDecl g) := by
  refine yields_modifiers.bind fun found hfound => (yields_typeDecl? hfound).bind fun d hd => ?_
  split
  · exact yields_pure (hd _ rfl)
  · exact yields_unexpected

instance reads_typeDecl : Reads (typeDecl g) := yields_typeDecl.reads

/-! ### Members -/

theorem isNamed_memberType {d : TypeDecl} (h : d.IsNamed) : (memberType d).IsNamed :=
  h.name

theorem yields_genericMember : Yields Member.IsNamed (genericMember g) := by
  refine yields_then fun _ => yields_then fun _ => yields_ite ?_ ?_
  · exact yields_then fun _ => yields_constructorTail
  · refine yields_then fun _ => yields_ite ?_ ?_
    · exact yields_then fun _ => yields_then fun _ => yields_pure trivial
    · exact yields_then fun _ => yields_then fun _ => yields_then fun _ => yields_pure trivial

/-- **A member of a class is made of names.** -/
theorem yields_classMemberAfter {found : Modifiers} (hfound : found.IsWellNamed) :
    Yields Member.IsNamed (classMemberAfter g found) := by
  refine (yields_typeDecl? hfound).bind fun d hd => ?_
  split
  · exact yields_pure (isNamed_memberType (hd _ rfl))
  · refine yields_then fun _ => yields_ite ?_ ?_
    · exact yields_then fun _ => yields_then fun _ => yields_pure trivial
    refine yields_then fun _ => yields_ite yields_genericMember ?_
    refine yields_then fun _ => yields_ite (yields_then fun _ => yields_constructorTail) ?_
    refine yields_type.bind fun t ht => yields_name.bind fun s hs => ?_
    refine yields_then fun _ => yields_ite (yields_then fun _ => yields_pure trivial) ?_
    refine yields_then fun n => yields_moreDeclarators.bind fun more hmore => ?_
    exact yields_then fun _ => yields_pure ⟨hfound, ht, List.forall_mem_cons.2 ⟨hs, hmore⟩⟩

/-- A member that is not kept has no names. -/
theorem yields_other :
    Yields (fun m => ∀ m' ∈ m, Member.IsNamed m')
      (pure (some .other) : Parser (Option Member)) :=
  yields_pure fun _ hm => Option.mem_some.1 hm ▸ trivial

theorem yields_classMemberPhrase :
    Yields (fun m => ∀ m' ∈ m, Member.IsNamed m') (classMemberPhrase g) := by
  refine yields_then fun _ => yields_ite (yields_pure fun _ h => nomatch h) ?_
  refine yields_then fun _ => yields_ite ?_ ?_
  · exact yields_then fun _ => yields_then fun _ => yields_other
  refine yields_then fun _ => yields_ite (yields_then fun _ => yields_other) ?_
  refine yields_modifiers.bind fun found hfound => ?_
  refine (yields_classMemberAfter hfound).bind fun m hm => ?_
  exact yields_pure fun m' hm' => Option.mem_some.1 hm' ▸ hm

instance reads_genericInterfaceMember : Reads (genericInterfaceMember g) := by
  unfold genericInterfaceMember
  infer_instance

theorem yields_interfaceMemberPhrase :
    Yields (fun m => ∀ m' ∈ m, Member.IsNamed m') (interfaceMemberPhrase g) := by
  refine yields_then fun _ => yields_ite (yields_pure fun _ h => nomatch h) ?_
  refine yields_modifiers.bind fun found hfound => (yields_typeDecl? hfound).bind fun d hd => ?_
  split
  · refine yields_pure fun m hm => ?_
    exact Option.mem_some.1 hm ▸ isNamed_memberType (hd _ rfl)
  · refine yields_then fun _ => yields_ite (yields_then fun _ => yields_other) ?_
    refine yields_then fun _ => yields_ite ?_ ?_
    · exact yields_then fun _ => yields_then fun _ => yields_other
    refine yields_then fun _ => yields_then fun _ => yields_then fun _ => yields_ite ?_ ?_
    · exact yields_then fun _ => yields_other
    · exact yields_then fun _ => yields_then fun _ => yields_then fun _ => yields_other

theorem yields_annotationMemberPhrase :
    Yields (fun m => ∀ m' ∈ m, Member.IsNamed m') (annotationMemberPhrase g) := by
  refine yields_modifiers.bind fun found hfound => (yields_typeDecl? hfound).bind fun d hd => ?_
  split
  · refine yields_pure fun m hm => ?_
    exact Option.mem_some.1 hm ▸ isNamed_memberType (hd _ rfl)
  · have hend := yields_then (p := accept semicolon) fun _ => yields_other
    refine yields_then fun _ => yields_then fun _ => yields_then fun _ => yields_ite ?_ ?_
    · refine yields_then fun _ => yields_then fun _ => yields_then fun _ => yields_ite ?_ hend
      exact yields_then fun _ => hend
    · exact yields_then fun _ => yields_then fun _ => hend

/-! ### Statements -/

instance reads_localVariables : Reads (localVariables g) := by
  unfold localVariables
  infer_instance

instance reads_expressions : Reads (expressions g) := by
  unfold expressions
  infer_instance

instance reads_unlessAt (t : Token) {p : Parser Unit} [Reads p] : Reads (unlessAt t p) := by
  unfold unlessAt
  infer_instance

instance reads_loopTail : Reads (loopTail g) := by
  unfold loopTail
  infer_instance

instance reads_variableLoop : Reads (variableLoop g) := by
  unfold variableLoop
  infer_instance

instance reads_loop : Reads (loop g) := by
  refine reads_then fun found => ?_
  split <;> infer_instance

instance reads_caseLabel : Reads (caseLabel g) := by
  refine reads_then fun t => ?_
  split <;> infer_instance

instance reads_caseGroup : Reads (caseGroup g) := by
  unfold caseGroup
  infer_instance

instance reads_catchClause : Reads (catchClause g) := by
  unfold catchClause
  infer_instance

instance reads_catchClauses : Reads (catchClauses g) := by
  unfold catchClauses
  infer_instance

instance reads_finally? : Reads (finally? g) := by
  unfold finally?
  infer_instance

instance reads_resource : Reads (resource g) := by
  unfold resource
  infer_instance

instance reads_resources : Reads (resources g) := by
  unfold resources
  infer_instance

instance reads_jump : Reads jump := by
  unfold jump
  infer_instance

instance reads_expressionStatement : Reads (expressionStatement g) := by
  unfold expressionStatement
  infer_instance

instance reads_statementAfter (word : String) : Reads (statementAfter g word) := by
  unfold statementAfter
  split <;> infer_instance

instance reads_statementPhrase : Reads (statementPhrase g) := by
  refine reads_then fun ts => ?_
  split <;> infer_instance

instance reads_blockItemPhrase : Reads (blockItemPhrase g) := by
  refine reads_then fun ts => ?_
  split
  case h_4 =>
    refine reads_then fun found => ?_
    split <;> infer_instance
  all_goals infer_instance

/-! ### Compilation units -/

/-- One level deeper, names are still taken from tokens. -/
instance isLexical_deepen : g.deepen.IsLexical where
  reference := yields_referenceType
  elementValue := reads_elementValuePhrase
  expression := reads_expressionPhrase
  conditional := reads_conditionalPhrase
  operand := reads_operandPhrase
  initial := reads_initialPhrase
  statement := reads_statementPhrase
  blockItem := reads_blockItemPhrase
  classMember := yields_classMemberPhrase
  interfaceMember := yields_interfaceMemberPhrase
  annotationMember := yields_annotationMemberPhrase

instance isLexical_empty : Grammar.empty.IsLexical where
  reference := yields_unexpected
  elementValue := reads_unexpected
  expression := reads_unexpected
  conditional := reads_unexpected
  operand := reads_unexpected
  initial := reads_unexpected
  statement := reads_unexpected
  blockItem := reads_unexpected
  classMember := yields_unexpected
  interfaceMember := yields_unexpected
  annotationMember := yields_unexpected

/-- **A grammar of any depth takes names from tokens.** -/
instance isLexical_ofDepth (n : Nat) : (ofDepth n).IsLexical := by
  induction n with
  | zero => exact isLexical_empty
  | succ n ih => exact isLexical_deepen

theorem yields_packageName? :
    Yields (fun path => ∀ path' ∈ path, IsNamePath path') (packageName? g) := by
  refine yields_get.bind fun start hstart => yields_then fun _ => yields_then fun _ => ?_
  refine yields_ite ?_ ?_
  · refine yields_dottedName.bind fun path hpath => yields_then fun _ => yields_pure ?_
    exact fun path' hpath' => Option.mem_some.1 hpath' ▸ hpath
  · have := reads_set hstart
    exact yields_then fun _ => yields_pure (by simp)

theorem yields_importPath (n : Nat) : Yields (fun r => IsNamePath r.1) (importPath n) := by
  have hone {s : String} (hs : IsName s) : IsNamePath [s] :=
    ⟨List.cons_ne_nil _ _, List.forall_mem_singleton.2 hs⟩
  induction n with
  | zero => exact yields_unexpected
  | succ n ih =>
    refine yields_name.bind fun s hs => yields_then fun _ => yields_ite ?_ ?_
    · refine yields_then fun _ => yields_ite ?_ ?_
      · exact yields_then fun _ => yields_pure (hone hs)
      · refine ih.bind fun r hr => yields_pure ⟨List.cons_ne_nil _ _, ?_⟩
        exact List.forall_mem_cons.2 ⟨hs, hr.isName⟩
    · exact yields_then fun _ => yields_pure (hone hs)

theorem yields_importDecl :
    Yields (fun i => ∀ i' ∈ i, IsNamePath (Import.path i')) importDecl := by
  refine yields_then fun _ => yields_then fun static => yields_then fun _ => ?_
  refine (yields_importPath _).bind fun r hr => ?_
  refine yields_ite (yields_pure (by simp)) (yields_ite ?_ ?_)
  · exact yields_pure fun i hi => Option.mem_some.1 hi ▸ hr
  · exact yields_pure fun i hi => Option.mem_some.1 hi ▸ hr

theorem yields_header :
    Yields (fun r => (∀ path ∈ r.1, IsNamePath path) ∧ ∀ i ∈ r.2, IsNamePath i.path) (header g) := by
  refine yields_packageName?.bind fun package hpackage => ?_
  refine yields_importDecl.many.bind fun found hfound => yields_pure ⟨hpackage, fun i hi => ?_⟩
  obtain ⟨i', hi', hsome⟩ := List.mem_filterMap.1 hi
  exact hfound i' hi' i hsome

theorem yields_topLevel : Yields (fun d => ∀ d' ∈ d, TypeDecl.IsNamed d') (topLevel g) := by
  refine yields_then fun _ => yields_ite (yields_pure (by simp)) ?_
  exact yields_typeDecl.bind fun d hd => yields_pure fun d' hd' => Option.mem_some.1 hd' ▸ hd

theorem yields_topLevels : Yields (fun ds => ∀ d ∈ ds, TypeDecl.IsNamed d) (topLevels g) := by
  refine yields_topLevel.many.bind fun found hfound => yields_pure fun d hd => ?_
  obtain ⟨d', hd', hsome⟩ := List.mem_filterMap.1 hd
  exact hfound d' hd' d hsome

end Grammar

namespace CompilationUnit

/-- What a list of tokens of a text is read as. -/
theorem isNamed_of_ofTokens {ts : List Token} {tree : CompilationUnit} (hts : AllLexical ts)
    (h : ofTokens ts = .ok tree) : tree.IsNamed := by
  simp only [ofTokens] at h
  split at h
  · cases h
  · cases h
  · cases h
  · rename_i package imports rest hheader
    split at h
    · cases h
    · cases h
    · rename_i types rest' htypes
      cases h
      obtain ⟨⟨hpackage, himports⟩, hrest⟩ := Grammar.yields_header hts hheader
      obtain ⟨hall, -⟩ := Grammar.yields_topLevels hrest htypes
      exact ⟨hpackage, himports, hall⟩

/-- **The names in the syntax tree of a text are not reserved.** -/
theorem isNamed_of_read {text : String} {tree : CompilationUnit} (h : read text = .ok tree) :
    tree.IsNamed := by
  unfold read at h
  split at h
  · cases h
  · exact isNamed_of_ofTokens (Lexer.allLexical_tokens ‹_›) h

/-- The names in the syntax tree of a text are identifiers. -/
theorem isLexical_of_read {text : String} {tree : CompilationUnit} (h : read text = .ok tree) :
    tree.IsWellNamed ∧ ∀ d ∈ tree.types, d.IsLexical :=
  have hnamed := isNamed_of_read h
  ⟨hnamed.isWellNamed, fun d hd => (hnamed.types d hd).isLexical⟩

end CompilationUnit

end Java

/-- **The names in the unit of a text are identifiers.** -/
theorem SourceUnit.isLexical_of_read {file : Option String} {text : String} {u : SourceUnit}
    (h : read file text = .ok u) : u.IsWellNamed ∧ ∀ d ∈ u.types, d.IsLexical := by
  unfold read at h
  cases htree : Java.CompilationUnit.read text with
  | error fault =>
    rw [htree] at h
    cases h
  | ok tree =>
    rw [htree] at h
    cases h
    obtain ⟨hnames, hall⟩ := Java.CompilationUnit.isLexical_of_read htree
    exact ⟨isWellNamed_ofSyntax hnames file, hall⟩

end EntityScaffold
