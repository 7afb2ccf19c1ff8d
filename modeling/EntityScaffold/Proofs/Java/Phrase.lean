import EntityScaffold.Java.Grammar.Expression
import EntityScaffold.Proofs.Java.Reading
import EntityScaffold.Proofs.Source.TypeText

/-!
# Names in types and expressions

`Grammar.IsLexical` says that the phrases of a grammar take their names from tokens. Then so do the
phrases one level above: a type is made of names that are not reserved (`yields_type`), and its type
arguments are classes and arrays. Of an expression, which is kept for its texts only, it is enough
that tokens of a text are left.
-/

namespace EntityScaffold.Java

open Java.Parser Java.Token

/-- Annotations in front of a declaration have names made of identifiers. -/
def Modifiers.IsWellNamed (m : Modifiers) : Prop := ∀ a ∈ m.annotations, IsPath a.path

/-- All names that a field statement is kept with are identifiers. -/
structure FieldGroup.IsWellNamed (g : FieldGroup) : Prop where
  modifiers : g.modifiers.IsWellNamed
  type : g.type.IsWellNamed
  names : ∀ n ∈ g.names, Text.isIdentifier n.1.toList = true

/-- All names that a member of a type is kept with are identifiers. -/
def Member.IsWellNamed : Member → Prop
  | .fields g => g.IsWellNamed
  | .type _ name => Text.isIdentifier name.toList = true
  | _ => True

theorem TypeRef.IsWellNamed.addRank {t : TypeRef} (h : t.IsWellNamed) (n : Nat) :
    (t.addRank n).IsWellNamed := by
  cases h with
  | basic hname => exact .basic hname
  | named hpath hargs => exact .named hpath hargs

/-! ### Names that are not reserved -/

/-- The type is a class or an array. -/
def TypeRef.IsElement : TypeRef → Prop
  | .basic _ rank => rank ≠ 0
  | .named _ _ _ _ => True

mutual

/-- Names of classes in a type are not reserved, and type arguments are classes and arrays. -/
inductive TypeRef.IsNamed : TypeRef → Prop
  | basic {name : String} {rank : Nat} : name ∈ basicTypes → TypeRef.IsNamed (.basic name rank)
  | named {first : String} {more : List String} {arguments : List TypeArgument} {rank : Nat} :
      IsNamePath (first :: more) → (∀ a ∈ arguments, TypeArgument.IsNamed a) →
      TypeRef.IsNamed (.named first more arguments rank)

/-- As `TypeRef.IsNamed`, for a type argument. -/
inductive TypeArgument.IsNamed : TypeArgument → Prop
  | any : TypeArgument.IsNamed .any
  | exact {t : TypeRef} : TypeRef.IsNamed t → t.IsElement → TypeArgument.IsNamed (.exact t)
  | upTo {t : TypeRef} : TypeRef.IsNamed t → t.IsElement → TypeArgument.IsNamed (.upTo t)
  | downTo {t : TypeRef} : TypeRef.IsNamed t → t.IsElement → TypeArgument.IsNamed (.downTo t)

end

/-- The names of basic types are identifiers too. -/
theorem isIdentifier_of_mem_basicTypes {s : String} (h : s ∈ basicTypes) :
    Text.isIdentifier s.toList = true := by
  have hall : ∀ s ∈ basicTypes, Text.isIdentifier s.toList = true := by decide
  exact hall s h

mutual

theorem TypeRef.IsNamed.isWellNamed : ∀ {t : TypeRef}, t.IsNamed → t.IsWellNamed
  | _, .basic hname => .basic (isIdentifier_of_mem_basicTypes hname)
  | _, .named hpath hargs =>
    .named hpath.isPath fun a ha => TypeArgument.IsNamed.isWellNamed (hargs a ha)

theorem TypeArgument.IsNamed.isWellNamed : ∀ {a : TypeArgument}, a.IsNamed → a.IsWellNamed
  | _, .any => .any
  | _, .exact ht _ => .exact ht.isWellNamed
  | _, .upTo ht _ => .upTo ht.isWellNamed
  | _, .downTo ht _ => .downTo ht.isWellNamed

end

theorem TypeRef.IsNamed.addRank {t : TypeRef} (h : t.IsNamed) (n : Nat) :
    (t.addRank n).IsNamed := by
  cases h with
  | basic hname => exact .basic hname
  | named hpath hargs => exact .named hpath hargs

theorem TypeRef.IsElement.addRank {t : TypeRef} (h : t.IsElement) (n : Nat) :
    (t.addRank n).IsElement := by
  cases t with
  | basic => exact fun hrank => h (Nat.add_eq_zero_iff.1 hrank).1
  | named => trivial

/-- Names that a field statement is kept with are not reserved. -/
structure FieldGroup.IsNamed (g : FieldGroup) : Prop where
  modifiers : g.modifiers.IsWellNamed
  type : g.type.IsNamed
  names : ∀ n ∈ g.names, IsName n.1

/-- Names that a member of a type is kept with are not reserved. -/
def Member.IsNamed : Member → Prop
  | .fields g => g.IsNamed
  | .type _ name => IsName name
  | _ => True

theorem Member.IsNamed.isWellNamed {m : Member} (h : m.IsNamed) : m.IsWellNamed := by
  cases m with
  | fields g => exact ⟨h.modifiers, h.type.isWellNamed, fun n hn => (h.names n hn).isIdentifier⟩
  | type kind name =>
    have hname : IsName name := h
    exact hname.isIdentifier
  | constructor | other => trivial

namespace Grammar

/-- The phrases of a grammar take their names from tokens. -/
class IsLexical (g : Grammar) : Prop where
  reference : Yields (fun t => t.IsNamed ∧ t.IsElement) g.reference
  [elementValue : Reads g.elementValue]
  [expression : Reads g.expression]
  [conditional : Reads g.conditional]
  [operand : Reads g.operand]
  [initial : Reads g.initial]
  [statement : Reads g.statement]
  [blockItem : Reads g.blockItem]
  classMember : Yields (fun found => ∀ m ∈ found, m.IsNamed) g.classMember
  interfaceMember : Yields (fun found => ∀ m ∈ found, m.IsNamed) g.interfaceMember
  annotationMember : Yields (fun found => ∀ m ∈ found, m.IsNamed) g.annotationMember

attribute [instance] IsLexical.elementValue IsLexical.expression IsLexical.conditional
  IsLexical.operand IsLexical.initial IsLexical.statement IsLexical.blockItem

-- A phrase has many parts, and so has the instance that is looked for.
set_option synthInstance.maxSize 4096

variable {g : Grammar} [hg : g.IsLexical]

instance reads_classMember : Reads g.classMember := hg.classMember.reads

/-! ### Types -/

theorem yields_basicType : Yields (· ∈ basicTypes) basicType := by
  refine yields_then fun t => ?_
  split
  · split
    · exact yields_pure ‹_›
    · exact yields_unexpected
  · exact yields_unexpected

instance reads_basicType : Reads basicType := yields_basicType.reads

theorem yields_elementType : Yields (fun t => t.IsNamed ∧ t.IsElement) (elementType g) := by
  refine yields_then fun basic => yields_ite ?_ ?_
  · refine yields_basicType.bind fun s hs => yields_then fun _ => ?_
    exact yields_then fun n => yields_pure ⟨.basic hs, Nat.add_comm n 1 ▸ Nat.succ_ne_zero n⟩
  · refine hg.reference.bind fun t ht => yields_then fun n => ?_
    exact yields_pure ⟨ht.1.addRank n, ht.2.addRank n⟩

theorem yields_typeArgument :
    Yields TypeArgument.IsNamed (typeArgument g) := by
  have helement := yields_elementType (g := g)
  refine yields_then fun wildcard => yields_ite ?_ ?_
  · refine yields_then fun upper => yields_ite ?_ ?_
    · exact helement.bind fun t ht => yields_pure (.upTo ht.1 ht.2)
    · refine yields_then fun lower => yields_ite ?_ (yields_pure .any)
      exact helement.bind fun t ht => yields_pure (.downTo ht.1 ht.2)
  · exact helement.bind fun t ht => yields_pure (.exact ht.1 ht.2)

theorem yields_typeArguments :
    Yields (fun as => ∀ a ∈ as, TypeArgument.IsNamed a) (typeArguments g) := by
  refine yields_then fun _ => yields_typeArgument.sepBy.bind fun as has => ?_
  exact yields_then fun _ => yields_pure has.2

theorem yields_typeList :
    Yields (fun ts => ∀ t ∈ ts, TypeRef.IsNamed t) (typeList g) :=
  yields_elementType.sepBy.mono fun _ h t ht => (h.2 t ht).1

instance reads_typeList : Reads (typeList g) := yields_typeList.reads

instance reads_exactArguments : Reads (exactArguments g) := by
  unfold exactArguments
  infer_instance

/-- One name with its type arguments. -/
theorem yields_namePart {arguments : Parser (List TypeArgument)}
    (h : Yields (fun as => ∀ a ∈ as, TypeArgument.IsNamed a) arguments) :
    Yields (fun part => IsName part.1 ∧
      ∀ a ∈ part.2, TypeArgument.IsNamed a) (namePart arguments) := by
  refine yields_name.bind fun s hs => yields_then fun generic => yields_ite ?_ ?_
  · exact h.bind fun as has => yields_pure ⟨hs, has⟩
  · exact yields_pure ⟨hs, fun _ ha => nomatch ha⟩

/-- **A dotted class name is made of names.** -/
theorem yields_dottedType {arguments : Parser (List TypeArgument)}
    (h : Yields (fun as => ∀ a ∈ as, TypeArgument.IsNamed a) arguments) :
    Yields (fun t => t.IsNamed ∧ t.IsElement) (dottedType arguments) := by
  have hpart := yields_namePart h
  refine hpart.bind fun first hfirst => ?_
  refine (yields_then fun _ => hpart).many.bind fun more hmore => yields_pure ?_
  refine ⟨.named ⟨List.cons_ne_nil _ _, ?_⟩ ?_, trivial⟩
  · refine List.forall_mem_cons.2 ⟨hfirst.1, fun s hs => ?_⟩
    obtain ⟨part, hmem, rfl⟩ := List.mem_map.1 hs
    exact (hmore part hmem).1
  · have hparts : ∀ part ∈ first :: more, ∀ a ∈ part.2, TypeArgument.IsNamed a :=
      List.forall_mem_cons.2 ⟨hfirst.2, fun part hmem => (hmore part hmem).2⟩
    intro a ha
    cases hlast : (((first :: more).filterMap
        fun part => if part.2.isEmpty then none else some part.2).getLast?) with
    | none =>
      rw [hlast] at ha
      cases ha
    | some as =>
      rw [hlast] at ha
      obtain ⟨part, hmem, hpart⟩ := List.mem_filterMap.1 (List.mem_of_getLast? hlast)
      obtain rfl : part.2 = as := Option.some.inj (Option.ite_none_left_eq_some.1 hpart).2
      exact hparts part hmem a ha

theorem yields_referenceType :
    Yields (fun t => t.IsNamed ∧ t.IsElement) (referenceType g) :=
  yields_dottedType yields_typeArguments

/-- **A type is made of names.** -/
theorem yields_type : Yields TypeRef.IsNamed (type g) := by
  refine yields_then fun basic => yields_ite ?_ ?_
  · exact yields_basicType.bind fun s hs => yields_then fun n => yields_pure (.basic hs)
  · refine yields_then fun named => yields_ite ?_ yields_unexpected
    refine yields_referenceType.bind fun t ht => yields_then fun n => ?_
    exact yields_pure (ht.1.addRank n)

instance reads_referenceType : Reads (referenceType g) :=
  yields_referenceType.reads

instance reads_type : Reads (type g) := yields_type.reads

instance reads_typeArguments : Reads (typeArguments g) :=
  yields_typeArguments.reads

instance reads_typeParameter : Reads (typeParameter g) := by
  unfold typeParameter
  infer_instance

instance reads_typeParameters : Reads (typeParameters g) := by
  unfold typeParameters
  infer_instance

instance reads_typeParameters? : Reads (typeParameters? g) := by
  unfold typeParameters?
  infer_instance

/-! ### Annotations and parameters -/

instance reads_elementPair : Reads (elementPair g) := by
  unfold elementPair
  infer_instance

instance reads_element : Reads (element g) := by
  unfold element
  infer_instance

theorem yields_annotationPhrase : Yields (fun a => IsPath a.path) (annotationPhrase g) := by
  refine yields_then fun _ => yields_dottedName.bind fun path hnames => yields_then fun _ => ?_
  have hpath := hnames.isPath
  refine yields_ite (yields_then fun _ => yields_ite (yields_pure hpath) ?_) (yields_pure hpath)
  exact yields_then fun e => yields_then fun _ => yields_pure hpath

instance reads_annotationPhrase : Reads (annotationPhrase g) := yields_annotationPhrase.reads

instance reads_annotations : Reads (annotations g) := by
  unfold annotations
  infer_instance

theorem yields_modifier :
    Yields (fun m => ∀ a, m = .inr a → IsPath a.path) (modifier g) := by
  refine yields_then fun ts => yields_ite ?_ (yields_then fun t => ?_)
  · exact yields_annotationPhrase.bind fun a ha => yields_pure fun a' ha' => Sum.inr.inj ha' ▸ ha
  · split
    · exact yields_ite (yields_pure fun _ h => nomatch h) yields_unexpected
    · exact yields_unexpected

instance reads_modifier : Reads (modifier g) := yields_modifier.reads

/-- **An annotation has a name made of identifiers.** -/
theorem yields_modifiers : Yields Modifiers.IsWellNamed (modifiers g) := by
  refine yields_modifier.many.bind fun found hfound => yields_pure fun a ha => ?_
  obtain ⟨m, hm, hsome⟩ := List.mem_filterMap.1 ha
  cases m with
  | inl => cases hsome
  | inr =>
    cases hsome
    exact hfound _ hm a rfl

instance reads_modifiers : Reads (modifiers g) := yields_modifiers.reads

instance reads_variableModifiers : Reads (variableModifiers g) := by
  unfold variableModifiers
  infer_instance

instance reads_parameter : Reads (parameter g) := by
  unfold parameter
  infer_instance

instance reads_parameters : Reads (parameters g) := by
  unfold parameters
  infer_instance

/-! ### Expressions -/

instance reads_parenthesized : Reads (parenthesized g) := by
  unfold parenthesized
  infer_instance

instance reads_arguments : Reads (arguments g) := by
  unfold arguments
  infer_instance

instance reads_classBody : Reads (classBody g) := by
  unfold classBody
  infer_instance

instance reads_block : Reads (block g) := by
  unfold block
  infer_instance

instance reads_arrayValues : Reads (arrayValues g) := by
  unfold arrayValues
  infer_instance

instance reads_functionBody : Reads (functionBody g) := by
  unfold functionBody
  infer_instance

instance reads_function : Reads (function g) := by
  refine reads_then fun ts => ?_
  split <;> infer_instance

instance reads_cast : Reads (cast g) := by
  unfold cast
  infer_instance

instance reads_superMember : Reads (superMember g) := by
  unfold superMember
  infer_instance

instance reads_genericCall : Reads (genericCall g) := by
  unfold genericCall
  infer_instance

instance reads_creation : Reads (creation g) := by
  unfold creation
  infer_instance

instance reads_argumentsOrNone : Reads (argumentsOrNone g) := by
  unfold argumentsOrNone
  infer_instance

instance reads_arrayCreation : Reads (arrayCreation g) := by
  unfold arrayCreation
  infer_instance

instance reads_namePart {arguments : Parser (List TypeArgument)} [Reads arguments] :
    Reads (namePart arguments) := by
  unfold namePart
  infer_instance

instance reads_dottedType {arguments : Parser (List TypeArgument)} [Reads arguments] :
    Reads (dottedType arguments) := by
  unfold dottedType
  infer_instance

instance reads_creator : Reads (creator g) := by
  unfold creator
  infer_instance

instance reads_innerCreator : Reads (innerCreator g) := by
  unfold innerCreator
  infer_instance

instance reads_nameTail (path : List String) : Reads (nameTail g path) := by
  unfold nameTail
  infer_instance

instance reads_head : Reads (head g) := by
  refine reads_then fun ts => ?_
  split
  case h_5 s =>
    refine reads_if inferInstance (reads_then fun _ => ?_)
    split <;> infer_instance
  all_goals infer_instance

instance reads_selector : Reads (selector g) := by
  refine reads_then fun indexed => reads_if inferInstance (reads_then fun _ => ?_)
  refine reads_then fun ts => ?_
  split <;> infer_instance

instance reads_symbols (ops : List String) : Reads (symbols ops) := by
  unfold symbols
  infer_instance

instance reads_plainOperand (before : List String) : Reads (plainOperand g before) := by
  unfold plainOperand
  infer_instance

instance reads_operandPhrase : Reads (operandPhrase g) := by
  refine reads_then fun before => reads_then fun _ => reads_if (reads_then fun asFunction => ?_)
    inferInstance
  split
  · infer_instance
  · refine reads_then fun asCast => ?_
    split <;> infer_instance

instance reads_shift : Reads shift := by
  unfold shift
  infer_instance

instance reads_link : Reads (link g) := by
  refine reads_then fun t => ?_
  split <;> infer_instance

instance reads_operators : Reads (operators g) := by
  unfold operators
  infer_instance

instance reads_methodName : Reads (methodName g) := by
  unfold methodName
  infer_instance

instance reads_conditionalPhrase : Reads (conditionalPhrase g) := by
  unfold conditionalPhrase
  infer_instance

instance reads_expressionPhrase : Reads (expressionPhrase g) := by
  refine reads_then fun e => reads_then fun op => ?_
  split <;> infer_instance

instance reads_elementValuePhrase : Reads (elementValuePhrase g) := by
  unfold elementValuePhrase
  infer_instance

instance reads_initialPhrase : Reads (initialPhrase g) := by
  unfold initialPhrase
  infer_instance

end Grammar

end EntityScaffold.Java
