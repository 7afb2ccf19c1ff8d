/-!
# JSON values

Objects keep their members in the order of the text, each name once. Whole numbers and other
numbers are different kinds of values.
-/

namespace EntityScaffold

/-- A JSON value. A number that is not whole keeps its text. -/
inductive Json
  | null
  | bool (b : Bool)
  | whole (n : Int)
  | decimal (text : String)
  | string (s : String)
  | array (items : List Json)
  | object (members : List (String × Json))
  deriving Inhabited

namespace Json

/-- A member put under its name, in the place of an earlier one of that name. -/
def put (members : List (String × Json)) (name : String) (value : Json) : List (String × Json) :=
  if members.any (·.1 == name) then
    members.map fun m => if m.1 == name then (name, value) else m
  else members ++ [(name, value)]

/-- The member of an object. -/
def get? (name : String) : Json → Option Json
  | .object members => members.lookup name
  | _ => none

/-- What kind of value this is, in the words of messages. -/
def kindName : Json → String
  | .null => "NoneType"
  | .bool _ => "bool"
  | .whole _ => "int"
  | .decimal _ => "float"
  | .string _ => "str"
  | .array _ => "list"
  | .object _ => "dict"

end Json

end EntityScaffold
