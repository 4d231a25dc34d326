import OData.Options.Basic

namespace OData

inductive KeyValue
  | value (scalar : Primitive)
  | parameter (name : String)
deriving DecidableEq, Repr

inductive ResourceId
  | value (scalar : Primitive)
  | parameter (name : String)
  | composite (keys : List (String × KeyValue))
deriving DecidableEq, Repr

/-- The description of a query: a resource with an id, an action and options, or a url that is used
as it is. -/
structure Query where
  resource : Option String := none
  id : Option ResourceId := none
  action : Option String := none
  url : Option String := none
  options : Option Options := none

namespace Query

def ofResource (resource : String) : Query := { resource := some resource }

/-- Whether the query asks for a count alone. -/
def isCount (query : Query) : Bool :=
  match query.options with
  | some options => (Options.count? options).isSome
  | none => false

end Query

/-- Who may do what: a model, a resource of it, a kind of access, and which instances. -/
structure Permission where
  model : String
  resource : String
  access : String
  filter : Option Filter

end OData
