import EntityScaffold.Entity.Basic

/-!
# Flat views of an entity

The members of a transfer object, and the fields a repository is queried by. Both leave transient
fields and fields that refer to any number of entities aside, and take each name once, from the
first field that has it.
-/

namespace EntityScaffold

/-- A member of the flat view, with the field it comes from. -/
structure FlatAttribute where
  name : String
  type : ResolvedType
  origin : Attribute
  deriving Inhabited

/-- The items of a list whose key does not come up earlier in it. -/
def firstBy {α : Type} (key : α → String) : List α → List α
  | [] => []
  | a :: rest => a :: (firstBy key rest).filter fun b => key b != key a

/-- The member that a field gives. A reference to one entity gives that entity's identifier. -/
def Attribute.projection? (f : Attribute) : Option FlatAttribute :=
  if f.isTransient || f.isPlural then none
  else if f.isReference then some ⟨f.name ++ "Id", .boxedLong, f⟩
  else some ⟨f.name, f.type, f⟩

/-- The field can be queried by its value. -/
def Attribute.isQueried (f : Attribute) : Bool :=
  !f.isTransient && !f.isCollection && !f.isId && !f.isPlural

namespace Entity

/-- The members of the flat view, in the order of the fields. -/
def projection (m : Entity) : List FlatAttribute :=
  firstBy (·.name) (m.fields.filterMap (·.projection?))

/-- The fields to query by, in their order. -/
def queried (m : Entity) : List Attribute :=
  firstBy (·.name) (m.fields.filter (·.isQueried))

end Entity

end EntityScaffold
