import EntityScaffold.Java.Token

/-!
# Syntax of Java declarations

What a compilation unit declares, as far as a reader of entities asks: imports, types, their
annotations, fields, constructors and member types. Bodies of methods are checked and not kept.
Expressions are kept because annotations hold them.
-/

namespace EntityScaffold.Java

mutual

/-- A type as it is written. -/
inductive TypeRef
  /-- A type that is no class, and its array rank. -/
  | basic (name : String) (rank : Nat)
  /-- A class by its dotted name, the last type arguments that are written, and its array rank. -/
  | named (first : String) (more : List String) (arguments : List TypeArgument) (rank : Nat)

/-- A type argument. -/
inductive TypeArgument
  | any
  | exact (type : TypeRef)
  | upTo (bound : TypeRef)
  | downTo (bound : TypeRef)

end

instance : Inhabited TypeRef := ⟨.basic "" 0⟩

/-- The type with more array dimensions. -/
def TypeRef.addRank (n : Nat) : TypeRef → TypeRef
  | .basic name rank => .basic name (rank + n)
  | .named first more arguments rank => .named first more arguments (rank + n)

mutual

/-- An expression. -/
inductive Expr
  /-- An operand with the operators before and after it and the members taken from it. -/
  | operand (head : Operand) (before after : List String) (members : List Selector)
  | binary (op : String) (left right : Expr)
  | instanceOf (left : Expr) (type : TypeRef)
  | conditional (test yes no : Expr)
  | cast (type : TypeRef) (value : Expr)
  | assignment (target : Expr) (op : String) (value : Expr)
  /-- A function, a method named as a value, or anything else with code inside. -/
  | code (kind : String)

/-- What an expression starts from. -/
inductive Operand
  | literal (text : String)
  /-- A name after a dotted qualifier. -/
  | name (qualifier : List String) (member : String)
  /-- A call of a method after a dotted qualifier. -/
  | call (qualifier : List String) (member : String) (arguments : List Expr)
  /-- The class object of a named type. -/
  | classOf (qualifier : List String) (name : String)
  /-- The class object of a type by its name and array rank. -/
  | classOfBasic (name : String) (rank : Nat)
  | classOfVoid
  /-- The current object, after a dotted qualifier if there is one. -/
  | this (qualifier : Option (List String))
  /-- A creation, a use of the superclass, or another constructor. -/
  | special (kind : String)

/-- A member taken from an operand. -/
inductive Selector
  | field (name : String)
  | call (name : String) (arguments : List Expr)
  | index (place : Expr)
  | special (kind : String)

end

instance : Inhabited Expr := ⟨.code ""⟩

mutual

/-- An annotation as it is written. -/
inductive Annotation
  | mk (path : List String) (element : Element)

/-- What stands in the parentheses of an annotation. -/
inductive Element
  | none
  | value (v : ElementValue)
  | pairs (ps : List (String × ElementValue))

/-- A value in an annotation. -/
inductive ElementValue
  | expression (e : Expr)
  | nested (a : Annotation)
  | array (values : List ElementValue)

end

/-- The parts of an annotation's dotted name. -/
def Annotation.path : Annotation → List String
  | .mk path _ => path

/-- The dotted name of an annotation. -/
def Annotation.name (a : Annotation) : String := ".".intercalate a.path

/-- What stands in the parentheses. -/
def Annotation.element : Annotation → Element
  | .mk _ element => element

/-- Modifiers and annotations in front of a declaration. -/
structure Modifiers where
  words : List String
  annotations : List Annotation

/-- The kinds of declared types. -/
inductive TypeKind
  | classType
  | interfaceType
  | enumType
  | annotationType
  deriving DecidableEq, Repr

/-- What a field statement declares: some names of one type, each with array dimensions of its
own. -/
structure FieldGroup where
  modifiers : Modifiers
  type : TypeRef
  names : List (String × Nat)

/-- A member of a class body. -/
inductive Member
  | fields (group : FieldGroup)
  | constructor (arity : Nat)
  | type (kind : TypeKind) (name : String)
  | other

/-- A declared type. -/
structure TypeDecl where
  kind : TypeKind
  name : String
  modifiers : Modifiers
  /-- The superclass of a class. -/
  superclass : Option TypeRef
  /-- The interfaces that a class or an enum implements, or that an interface extends. -/
  interfaces : List TypeRef
  members : List Member

/-- An import that is not static. -/
inductive Import
  | single (path : List String)
  | onDemand (package : List String)

/-- A compilation unit. -/
structure CompilationUnit where
  package : Option (List String)
  imports : List Import
  types : List TypeDecl

end EntityScaffold.Java
