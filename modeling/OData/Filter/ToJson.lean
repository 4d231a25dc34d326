import OData.Filter.Basic

namespace OData

-- Powers of numbers are those of the core library, whatever else is in scope.
attribute [local instance (high)] instPowNat

/-- A part of a duration: an integer where it is whole and exact, null where it is not finite. -/
def Double.partToJson : Double → Json
  | .finite x =>
    match x.toInt? with
    | some n => if n.natAbs < 2 ^ (53 : Nat) then Json.ofInt n else .number (.double x)
    | none => .number (.double x)
  | _ => .null

/-- A part of a duration under its name; zero is left out. -/
def durationField (name : String) (part : Double) : List (String × Json) :=
  match part with
  | .finite x => if x.isZero then [] else [(name, part.partToJson)]
  | _ => [(name, part.partToJson)]

def DurationLiteral.toJson (d : DurationLiteral) : Json :=
  .object ((if d.negative then [("negative", .bool true)] else []) ++
    durationField "days" d.days ++ durationField "hours" d.hours ++
    durationField "minutes" d.minutes ++ durationField "seconds" d.seconds)

def ResourcePath.toJson : ResourcePath → Json
  | .single name => .string name
  | .segments names => .array (names.map .string)

/-- Whether names are `1`, `2`, … in order. -/
def arePositional (names : List String) : Bool :=
  names == (List.range names.length).map fun i => String.ofList (Text.ofNat (i + 1))

mutual

/-- The JSON form of a filter. A key that would come twice keeps its first place and its last
value. -/
def Filter.toJson : Filter → Json
  | .value scalar => scalar.toJson
  | .list items => .array (Filter.listToJson items)
  | .object entries => .ofFields (FilterEntry.listToFields entries)

def Filter.listToJson : List Filter → List Json
  | [] => []
  | filter :: rest => filter.toJson :: Filter.listToJson rest

def FilterEntry.listToFields : List FilterEntry → List (String × Json)
  | [] => []
  | entry :: rest => entry.toField :: FilterEntry.listToFields rest

def FilterEntry.toField : FilterEntry → String × Json
  | .property name filter => (name, filter.toJson)
  | .parameter name => ("@", .string name)
  | .operation operation => operation.toField

/-- An operation as a field whose key starts with `$`. -/
def FilterOperation.toField : FilterOperation → String × Json
  | .compare op operand => (String.ofList ('$' :: op.name.toList), operand.toJson)
  | .apply function operand => (String.ofList ('$' :: function.name.toList), operand.toJson)
  | .duration literal => ("$duration", literal.toJson)
  | .raw text => ("$raw", .string text)
  | .template text parameters =>
    if arePositional (parameters.map (·.1)) then
      ("$raw", .array (.string text :: (Filter.parametersToFields parameters).map (·.2)))
    else ("$raw", .ofFields (("$string", .string text) :: Filter.parametersToFields parameters))
  | .resource path => ("$", path.toJson)
  | .count none => ("$count", .object [])
  | .count (some filter) => ("$count", .object [("$filter", filter.toJson)])
  | .and operand => ("$and", operand.toJson)
  | .or operand => ("$or", operand.toJson)
  | .within operand => ("$in", operand.toJson)
  | .not operand => ("$not", operand.toJson)
  | .lambda quantifier binder body =>
    (String.ofList ('$' :: quantifier.name.toList),
      .object [("$alias", .string binder), ("$expr", body.toJson)])
  | .method scope name arguments =>
    ("$fn", .object [("$scope", .string scope), ("$method", .string name),
      ("$args", .array (Filter.listToJson arguments))])
  | .canAccess => ("$canAccess", .bool true)

def Filter.parametersToFields : List (String × Filter) → List (String × Json)
  | [] => []
  | (name, filter) :: rest => (name, filter.toJson) :: Filter.parametersToFields rest

end

end OData
