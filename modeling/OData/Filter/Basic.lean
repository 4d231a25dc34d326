import OData.Filter.Vocabulary
import OData.Literal
import OData.Uri.Path

namespace OData

/-- A duration by its parts; a part that is zero is not written. -/
structure DurationLiteral where
  negative : Bool
  days : Double
  hours : Double
  minutes : Double
  seconds : Double
deriving DecidableEq, Repr

mutual

/-- A filter. A list stands for alternatives and an object for conditions that hold together, unless
the operation around them joins them otherwise. -/
inductive Filter
  | value (scalar : Primitive)
  | list (items : List Filter)
  | object (entries : List FilterEntry)

/-- One key of an object filter: a step to a property, a reference to a parameter alias, or an
operation. -/
inductive FilterEntry
  | property (name : String) (filter : Filter)
  | parameter (name : String)
  | operation (operation : FilterOperation)

/-- What a filter can ask for beyond values and properties. -/
inductive FilterOperation
  | compare (op : BinaryOperator) (operand : Filter)
  | apply (function : FilterFunction) (operand : Filter)
  | duration (literal : DurationLiteral)
  | raw (text : String)
  | template (text : String) (parameters : List (String × Filter))
  | resource (path : ResourcePath)
  | count (filter : Option Filter)
  | and (operand : Filter)
  | or (operand : Filter)
  | within (operand : Filter)
  | not (operand : Filter)
  | lambda (quantifier : Quantifier) (binder : String) (body : Filter)
  | method (scope name : String) (arguments : List Filter)
  | canAccess

end

namespace Filter

def ofProperty (name : String) (filter : Filter) : Filter := .object [.property name filter]

def ofOperation (operation : FilterOperation) : Filter := .object [.operation operation]

def isValue : Filter → Bool
  | .value _ => true
  | _ => false

end Filter

/-- Parameters that are bound to `$1`, `$2`, … in order. -/
def FilterOperation.positional (text : String) (parameters : List Filter) : FilterOperation :=
  .template text (parameters.mapIdx fun i p => (String.ofList (Text.ofNat (i + 1)), p))

end OData
