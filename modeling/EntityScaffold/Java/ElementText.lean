import EntityScaffold.Java.Syntax
import EntityScaffold.Text.Trim

/-!
# Annotation values as text

Every value in an annotation becomes one text. A literal loses its quotes, a name and an array keep
their look, a nested annotation gives its name. Any other expression gives its outline: each node by
its kind, with its parts by name and in their order.
-/

namespace EntityScaffold.Java

/-- Part of an outline that names operators. -/
def quotedOps (ops : List String) : String :=
  "[" ++ ", ".intercalate (ops.map fun op => "'" ++ op ++ "'") ++ "]"

/-- An outline of a node. -/
def node (kind : String) (parts : List (String × String)) : String :=
  kind ++ "(" ++ ", ".intercalate (parts.map fun p => p.1 ++ "=" ++ p.2) ++ ")"

/-- The outline of array dimensions without sizes. -/
def rankOutline (n : Nat) : String :=
  "[" ++ ", ".intercalate (List.replicate n "None") ++ "]"

mutual

/-- The outline of a type; `rank` is that of its last name. -/
def TypeRef.outline : TypeRef → String
  | .basic name rank => node "BasicType" [("dimensions", rankOutline rank), ("name", name)]
  | .named first more arguments rank =>
    let written := if arguments.isEmpty then "None"
      else "[" ++ TypeArgument.outlines arguments ++ "]"
    let inner : List String → String := fun names =>
      names.foldr
        (fun name tail =>
          node "ReferenceType"
            [("arguments", if tail = "None" then written else "None"), ("dimensions", "None"),
             ("name", name), ("sub_type", tail)])
        "None"
    node "ReferenceType"
      [("arguments", if more.isEmpty then written else "None"), ("dimensions", rankOutline rank),
       ("name", first), ("sub_type", inner more)]

/-- The outline of a type argument. -/
def TypeArgument.outline : TypeArgument → String
  | .any => node "TypeArgument" [("pattern_type", "?"), ("type", "None")]
  | .exact t => node "TypeArgument" [("pattern_type", "None"), ("type", t.outline)]
  | .upTo t => node "TypeArgument" [("pattern_type", "extends"), ("type", t.outline)]
  | .downTo t => node "TypeArgument" [("pattern_type", "super"), ("type", t.outline)]

/-- Outlines of type arguments with commas between them. -/
def TypeArgument.outlines : List TypeArgument → String
  | [] => ""
  | [a] => a.outline
  | a :: as => a.outline ++ ", " ++ TypeArgument.outlines as

end

/-- The outline of the class object of a type. -/
def classOutline (kind before after qualifier members type : String) : String :=
  node kind
    [("postfix_operators", after), ("prefix_operators", before), ("qualifier", qualifier),
     ("selectors", members), ("type", type)]

mutual

/-- The outline of an expression. -/
def Expr.outline : Expr → String
  | .operand head before after members =>
    head.outline (quotedOps before) (quotedOps after) ("[" ++ Selector.outlines members ++ "]")
  | .binary op left right =>
    node "BinaryOperation"
      [("operandl", left.outline), ("operandr", right.outline), ("operator", op)]
  | .instanceOf left type =>
    node "BinaryOperation"
      [("operandl", left.outline), ("operandr", type.outline), ("operator", "instanceof")]
  | .conditional test yes no =>
    node "TernaryExpression"
      [("condition", test.outline), ("if_false", no.outline), ("if_true", yes.outline)]
  | .cast type value => node "Cast" [("expression", value.outline), ("type", type.outline)]
  | .assignment target op value =>
    node "Assignment" [("expressionl", target.outline), ("type", op), ("value", value.outline)]
  | .code kind => node kind []

/-- The outline of an operand with the outlines of what touches it. -/
def Operand.outline (before after members : String) : Operand → String
  | .literal text =>
    node "Literal"
      [("postfix_operators", after), ("prefix_operators", before), ("qualifier", "None"),
       ("selectors", members), ("value", text)]
  | .name qualifier member =>
    node "MemberReference"
      [("member", member), ("postfix_operators", after), ("prefix_operators", before),
       ("qualifier", ".".intercalate qualifier), ("selectors", members)]
  | .call qualifier member arguments =>
    node "MethodInvocation"
      [("arguments", "[" ++ Expr.outlines arguments ++ "]"), ("member", member),
       ("postfix_operators", after), ("prefix_operators", before),
       ("qualifier", ".".intercalate qualifier), ("selectors", members),
       ("type_arguments", "None")]
  | .classOf qualifier name =>
    classOutline "ClassReference" before after (".".intercalate qualifier) members
      (node "ReferenceType"
        [("arguments", "None"), ("dimensions", "None"), ("name", name), ("sub_type", "None")])
  | .classOfBasic name rank =>
    classOutline "ClassReference" before after "None" members (TypeRef.basic name rank).outline
  | .classOfVoid => classOutline "VoidClassReference" before after "None" members "None"
  | .this qualifier =>
    node "This"
      [("postfix_operators", after), ("prefix_operators", before),
       ("qualifier", (qualifier.map (".".intercalate ·)).getD "None"), ("selectors", members)]
  | .special kind => node kind []

/-- The outline of a member taken from an operand. -/
def Selector.outline : Selector → String
  | .field name =>
    node "MemberReference"
      [("member", name), ("postfix_operators", "None"), ("prefix_operators", "None"),
       ("qualifier", "None"), ("selectors", "None")]
  | .call name arguments =>
    node "MethodInvocation"
      [("arguments", "[" ++ Expr.outlines arguments ++ "]"), ("member", name),
       ("postfix_operators", "None"), ("prefix_operators", "None"), ("qualifier", "None"),
       ("selectors", "None"), ("type_arguments", "None")]
  | .index place => node "ArraySelector" [("index", place.outline)]
  | .special kind => node kind []

/-- Outlines of expressions with commas between them. -/
def Expr.outlines : List Expr → String
  | [] => ""
  | [e] => e.outline
  | e :: es => e.outline ++ ", " ++ Expr.outlines es

/-- Outlines of members with commas between them. -/
def Selector.outlines : List Selector → String
  | [] => ""
  | [s] => s.outline
  | s :: ss => s.outline ++ ", " ++ Selector.outlines ss

end

/-- The text of an expression in an annotation. What touches a literal or a name is lost. -/
def Expr.valueText : Expr → String
  | .operand (.literal text) _ _ _ => Text.unquote text
  | .operand (.name qualifier member) _ _ _ => ".".intercalate (qualifier ++ [member])
  | .assignment _ _ value => value.outline
  | e => e.outline

mutual

/-- The text of a value in an annotation. -/
def ElementValue.text : ElementValue → String
  | .expression e => e.valueText
  | .nested a => "@" ++ a.name
  | .array [] => "[]"
  | .array values => "\x7b" ++ ElementValue.texts values ++ "\x7d"

/-- Texts of values with commas between them. -/
def ElementValue.texts : List ElementValue → String
  | [] => ""
  | [v] => v.text
  | v :: vs => v.text ++ ", " ++ ElementValue.texts vs

end

/-- A value put under its name, in the place of an earlier one of that name. -/
def putPair (pairs : List (String × String)) (name value : String) : List (String × String) :=
  if pairs.any (·.1 == name) then pairs.map fun p => if p.1 == name then (name, value) else p
  else pairs ++ [(name, value)]

/-- The named texts in an annotation. A value without a name is called `value`, of equal names the
last counts, and an empty array alone is nothing. -/
def Element.texts : Element → List (String × String)
  | .none => []
  | .value (.array []) => []
  | .value v => [("value", v.text)]
  | .pairs ps => ps.foldl (fun out p => putPair out p.1 p.2.text) []

end EntityScaffold.Java
