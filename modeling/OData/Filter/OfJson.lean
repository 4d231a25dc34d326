import OData.Error
import OData.Filter.Basic

namespace OData

/-- The scalar that a JSON value is. -/
def Primitive.ofJson : Json → Except Error Primitive
  | .null => .ok .null
  | .bool b => .ok (.bool b)
  | .number n => .ok (.number n)
  | .string s => .ok (.string s)
  | .array items => .error (.invalidValue (Json.array items).typeName)
  | .object fields => .error (.invalidValue (Json.object fields).typeName)

inductive OperationKey
  | compare (op : BinaryOperator)
  | apply (function : FilterFunction)
  | duration
  | raw
  | resource
  | count
  | and
  | or
  | within
  | not
  | lambda (quantifier : Quantifier)
  | method
  | canAccess
deriving DecidableEq, Repr

def OperationKey.ofName? (name : String) : Option OperationKey :=
  match BinaryOperator.ofName? name, FilterFunction.ofName? name with
  | some op, _ => some (.compare op)
  | none, some function => some (.apply function)
  | none, none =>
    match name with
    | "duration" => some .duration
    | "raw" => some .raw
    | "" => some .resource
    | "count" => some .count
    | "and" => some .and
    | "or" => some .or
    | "in" => some .within
    | "not" => some .not
    | "any" => some (.lambda .any)
    | "all" => some (.lambda .all)
    | "fn" => some .method
    | "canAccess" => some .canAccess
    | _ => none

/-- What a key of an object filter is. Keys that start with `$` are operations, keys that start with
`@` are alias references and all other keys are properties. -/
inductive FilterKey
  | operation (key : OperationKey)
  | unknown
  | parameter
  | property
deriving DecidableEq, Repr

def FilterKey.ofString (key : String) : FilterKey :=
  match key.toList with
  | '$' :: name =>
    match OperationKey.ofName? (String.ofList name) with
    | some key => .operation key
    | none => .unknown
  | '@' :: _ => .parameter
  | _ => .property

namespace DurationLiteral

/-- A part of a duration; a missing part and null are zero. -/
def partOfFields (fields : List (String × Json)) (part : DurationPart) : Except Error Double :=
  match fields.lookup part.name with
  | none | some .null => .ok .zero
  | some (.number n) => .ok (.finite n.toDouble)
  | some other => .error (.shape (.durationPart part other.typeName))

def signOfFields (fields : List (String × Json)) : Except Error Bool :=
  match fields.lookup "negative" with
  | none | some .null => .ok false
  | some (.bool b) => .ok b
  | some other => .error (.shape (.durationSign other.typeName))

def ofJson : Json → Except Error DurationLiteral
  | .object fields => do
    let negative ← signOfFields fields
    let days ← partOfFields fields .days
    let hours ← partOfFields fields .hours
    let minutes ← partOfFields fields .minutes
    let seconds ← partOfFields fields .seconds
    return ⟨negative, days, hours, minutes, seconds⟩
  | .array _ => .error (.shape .durationParts)
  | other => .error (.shape (.durationKind other.typeName))

end DurationLiteral

namespace ResourcePath

/-- A segment of a path: text, or a number as it is written in JSON. -/
def segmentOfJson : Json → Except Error String
  | .string s => .ok s
  | .number n => .ok (String.ofList n.text)
  | other => .error (.invalidResource other.typeName)

def ofJson : Json → Except Error ResourcePath
  | .string name => .ok (.single name)
  | .array items => do return .segments (← items.mapM segmentOfJson)
  | other => .error (.invalidResource other.typeName)

end ResourcePath

def lambdaBinderOfJson (quantifier : Quantifier) (value : Json) : Except Error String :=
  match value.field? "$alias" with
  | none | some .null => .error (.lambdaMissing quantifier .binder)
  | some (.string binder) => .ok binder
  | some other => .error (.shape (.lambdaAlias quantifier other.typeName))

def methodField (fields : List (String × Json)) (name : String) : Except Error String :=
  match fields.lookup name with
  | some (.string s) => .ok s
  | other => .error (.shape (.callField name (typeNameOf other)))

def isParameterName (name : String) : Bool :=
  name.toList != [] && name.toList.all Char.isAlphanum

/-- Whether the only key that may stand in an object is `$filter`. -/
def hasOnlyFilter (fields : List (String × Json)) : Bool :=
  fields.all fun (key, _) => key = "$filter"

mutual

/-- The filter that a JSON value describes. The first fault in reading order is the error. -/
def Filter.ofJson : Json → Except Error Filter
  | .array items => do return .list (← Filter.listOfJson items)
  | .object fields => do return .object (← FilterEntry.listOfFields fields)
  | .null => .ok (.value .null)
  | .bool b => .ok (.value (.bool b))
  | .number n => .ok (.value (.number n))
  | .string s => .ok (.value (.string s))

def Filter.listOfJson : List Json → Except Error (List Filter)
  | [] => .ok []
  | item :: rest => do
    let filter ← Filter.ofJson item
    let filters ← Filter.listOfJson rest
    return filter :: filters

def FilterEntry.listOfFields : List (String × Json) → Except Error (List FilterEntry)
  | [] => .ok []
  | (key, value) :: rest => do
    let entry ← match FilterKey.ofString key with
      | .property => FilterEntry.property key <$> Filter.ofJson value
      | .parameter =>
        match value with
        | .string name => .ok (.parameter name)
        | other => .error (.invalidAlias other.typeName)
      | .unknown => .error (.unrecognisedOperator key)
      | .operation key =>
        FilterEntry.operation <$> match key with
          | .compare op => FilterOperation.compare op <$> Filter.ofJson value
          | .apply function => FilterOperation.apply function <$> Filter.ofJson value
          | .duration => FilterOperation.duration <$> DurationLiteral.ofJson value
          | .raw => FilterOperation.rawOfJson value
          | .resource => FilterOperation.resource <$> ResourcePath.ofJson value
          | .count => FilterOperation.count <$> Filter.countOfJson value
          | .and => FilterOperation.and <$> Filter.ofJson value
          | .or => FilterOperation.or <$> Filter.ofJson value
          | .within => FilterOperation.within <$> Filter.ofJson value
          | .not => FilterOperation.not <$> Filter.ofJson value
          | .lambda quantifier => FilterOperation.lambdaOfJson quantifier value
          | .method => FilterOperation.methodOfJson value
          | .canAccess =>
            match value with
            | .bool true => .ok .canAccess
            | other => .error (.shape (.canAccess other))
    let entries ← FilterEntry.listOfFields rest
    return entry :: entries

/-- A fragment: its text, a list of a template and its parameters in order, or an object with the
template under `$string` and named parameters. -/
def FilterOperation.rawOfJson : Json → Except Error FilterOperation
  | .string text => .ok (.raw text)
  | .array [] => .error (.shape (.rawFirstItem .undefined))
  | .array (.string template :: parameters) => do
    return .positional template (← Filter.listOfJson parameters)
  | .array (other :: _) => .error (.shape (.rawFirstItem other.typeName))
  | .object fields =>
    match fields.lookup "$string" with
    | some (.string template) => do return .template template (← Filter.parametersOfFields fields)
    | other => .error (.shape (.rawTemplate (typeNameOf other)))
  | other => .error (.shape (.rawKind other.typeName))

def Filter.parametersOfFields : List (String × Json) → Except Error (List (String × Filter))
  | [] => .ok []
  | (name, value) :: rest =>
    if name = "$string" then Filter.parametersOfFields rest
    else if isParameterName name then do
      let filter ← Filter.ofJson value
      let parameters ← Filter.parametersOfFields rest
      return (name, filter) :: parameters
    else .error (.shape (.rawParameterName name))

/-- The filter of a count, if it has one. A count with anything else is the removed comparison. -/
def Filter.countOfJson : Json → Except Error (Option Filter)
  | .object fields =>
    if hasOnlyFilter fields then Filter.at? "$filter" fields
    else .error (.removed .countComparison)
  | _ => .error (.removed .countComparison)

def Filter.at? (key : String) : List (String × Json) → Except Error (Option Filter)
  | [] => .ok none
  | (k, value) :: rest =>
    if k = key then do return some (← Filter.ofJson value) else Filter.at? key rest

/-- A lambda expression: bound name first, then body; null counts as missing for both. -/
def FilterOperation.lambdaOfJson (quantifier : Quantifier) : Json → Except Error FilterOperation
  | .object fields => do
    let binder ← lambdaBinderOfJson quantifier (.object fields)
    match fields.lookup "$expr" with
    | none | some .null => .error (.lambdaMissing quantifier .body)
    | some _ => do
      let body ← Filter.at? "$expr" fields
      return .lambda quantifier binder (body.getD (.value .null))
  | _ => .error (.lambdaMissing quantifier .binder)

/-- A method call: its arguments first, then scope and name. -/
def FilterOperation.methodOfJson : Json → Except Error FilterOperation
  | .object fields => do
    let arguments ← Filter.argumentsOfFields fields
    let scope ← methodField fields "$scope"
    let name ← methodField fields "$method"
    return .method scope name arguments
  | other => .error (.shape (.callKind other.typeName))

def Filter.argumentsOfFields : List (String × Json) → Except Error (List Filter)
  | [] => .ok []
  | (key, value) :: rest =>
    if key = "$args" then
      match value with
      | .null => .ok []
      | .array items => Filter.listOfJson items
      | other => .error (.shape (.callArguments other.typeName))
    else Filter.argumentsOfFields rest

end

end OData
