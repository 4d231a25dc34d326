import OData.Filter.Vocabulary
import OData.Json.Printer

namespace OData

inductive DurationPart
  | days
  | hours
  | minutes
  | seconds
deriving DecidableEq, Repr

def DurationPart.name : DurationPart → String
  | .days => "days"
  | .hours => "hours"
  | .minutes => "minutes"
  | .seconds => "seconds"

inductive LambdaPart
  | binder
  | body
deriving DecidableEq, Repr

def LambdaPart.name : LambdaPart → String
  | .binder => "alias"
  | .body => "expr"

/-- A value of the wrong kind for the place where it stands. -/
inductive ShapeFault
  | canAccess (got : Json)
  | durationParts
  | durationKind (got : TypeName)
  | durationPart (part : DurationPart) (got : TypeName)
  | durationSign (got : TypeName)
  | rawFirstItem (got : TypeName)
  | rawTemplate (got : TypeName)
  | rawParameterName (name : String)
  | rawKind (got : TypeName)
  | lambdaAlias (quantifier : Quantifier) (got : TypeName)
  | callKind (got : TypeName)
  | callField (field : String) (got : TypeName)
  | callArguments (got : TypeName)
  | expandKey
  | expandArray (path : String)
  | expandScalar (path : String) (got : Json)
  | expandPlainOption (path key : String)
  | expandCountAlone (keys : List String)
  | countKind (got : TypeName)
  | countAlone (keys : List String)
  | orderByDirection
  | orderByKind
  | orderByCountAlone (keys : List String)
  | orderByCountFilterAlone (keys : List String)
  | orderByNested
  | orderByUndirected
  | rowCount (key : String)
  | selectKind
  | formatKind
  | customKind (got : TypeName)
  | aliasValueKind (key : String) (got : TypeName)
  | optionsKind (got : TypeName)
  | descriptionKind (got : TypeName)
  | fieldKind (field : String) (got : TypeName)

inductive ArityFault
  | filterList (least : Nat) (items : List Json)
  | comparisonObject (op : BinaryOperator)
  | membershipObject
  | expandList
  | orderByList
  | orderByObject (count : Nat)
  | selectList
  | selectSet

/-- A form that is no longer accepted. -/
inductive RemovedForm
  | nestedNavigation
  | countComparison
  | countResource
  | countExpandPath
  | customOptions
deriving DecidableEq, Repr

/-- Why a query description is refused. -/
inductive Error
  | invalidValue (got : TypeName)
  | invalidResource (got : TypeName)
  | invalidAlias (got : TypeName)
  | shape (fault : ShapeFault)
  | arity (fault : ArityFault)
  | removed (form : RemovedForm)
  | unrecognisedOperator (key : String)
  | unknownOption (key : String)
  | unknownExpandOption (key : String)
  | lambdaMissing (quantifier : Quantifier) (part : LambdaPart)
  | missingResource
  | nullId

def ShapeFault.text : ShapeFault → Text
  | .canAccess got => "Expected true for $canAccess, got: ".toList ++ got.text
  | .durationParts => "Expected $duration to include duration properties, got: object".toList
  | .durationKind got => "Expected type for $duration, got: ".toList ++ got.text
  | .durationPart part got =>
    "Expected number for $duration ".toList ++ part.name.toList ++ ", got: ".toList ++ got.text
  | .durationSign got => "Expected boolean for $duration negative, got: ".toList ++ got.text
  | .rawFirstItem got =>
    "First element of array for $raw must be a string, got: ".toList ++ got.text
  | .rawTemplate got =>
    "$string element of object for $raw must be a string, got: ".toList ++ got.text
  | .rawParameterName name =>
    "$raw param names must contain only [a-zA-Z0-9], got: ".toList ++ name.toList
  | .rawKind got => "Expected string/array/object for $raw, got: ".toList ++ got.text
  | .lambdaAlias quantifier got =>
    "Lambda expression ($".toList ++ quantifier.name.toList ++
      ") alias must be a string, got: ".toList ++ got.text
  | .callKind got => "Expected object for $fn, got: ".toList ++ got.text
  | .callField field got => field.toList ++ " of $fn must be a string, got: ".toList ++ got.text
  | .callArguments got => "$args of $fn must be an array, got: ".toList ++ got.text
  | .expandKey => "Cannot have expand options without first expanding something!".toList
  | .expandArray path =>
    "'$expand: ".toList ++ path.toList ++ ": [...]' is invalid, use '$expand: ".toList ++
      path.toList ++ ": \x7b...\x7d' instead.".toList
  | .expandScalar path got =>
    "'$expand: ".toList ++ path.toList ++ ": ".toList ++ got.text ++
      "' is invalid, use '$expand: ".toList ++ path.toList ++ ": $expand: ".toList ++ got.text ++
      "' instead.".toList
  | .expandPlainOption path key =>
    "'$expand: ".toList ++ path.toList ++ ": ".toList ++ key.toList ++
      ": ...' is invalid, use '$expand: ".toList ++ path.toList ++ ": $expand: ".toList ++
      key.toList ++ ": ...' instead.".toList
  | .expandCountAlone keys =>
    "When using '$expand: a: $count: ...' you can only specify $count, got: '".toList ++
      Json.stringsText keys ++ ['\'']
  | .countKind got => "'$count' option has to be an object, got: ".toList ++ got.text
  | .countAlone keys =>
    "When using '$count' you can only specify $count, got: '".toList ++ Json.stringsText keys ++
      ['\'']
  | .orderByDirection => "'$orderby' direction must be 'asc' or 'desc'".toList
  | .orderByKind => "'$orderby' option has to be either a string, array, or object".toList
  | .orderByCountAlone keys =>
    ("When using '$orderby: \x7b a: \x7b $count: ... \x7d, $dir: 'asc' \x7d' " ++
      "you can only specify $count, got: '").toList ++ Json.stringsText keys ++ ['\'']
  | .orderByCountFilterAlone keys =>
    ("When using '$orderby: \x7b a: \x7b $count: ... \x7d, $dir: 'asc' \x7d' " ++
      "you can only specify $filter in the $count, got: '").toList ++ Json.stringsText keys ++
      ['\'']
  | .orderByNested => "'$orderby' cannot have nested arrays".toList
  | .orderByUndirected =>
    ("'$orderby' objects should either use the '\x7b a: 'asc' \x7d' or the " ++
      "$orderby: \x7b a: \x7b $count: ... \x7d, $dir: 'asc' \x7d notation").toList
  | .rowCount key => '\'' :: key.toList ++ "' option has to be a number".toList
  | .selectKind => "'$select' option has to be either a string or array".toList
  | .formatKind => "'$format' option has to be a string".toList
  | .customKind got => "Unknown type for option ".toList ++ got.text
  | .aliasValueKind key got =>
    "Unknown type for parameter alias option '".toList ++ key.toList ++ "': ".toList ++ got.text
  | .optionsKind got => "Options must be an object, got: ".toList ++ got.text
  | .descriptionKind got => "Params must be an object, got: ".toList ++ got.text
  | .fieldKind field got =>
    '\'' :: field.toList ++ "' must be a string, got: ".toList ++ got.text

def ArityFault.text : ArityFault → Text
  | .filterList least items =>
    "Filter arrays must have at least ".toList ++ Text.ofNat least ++ " elements, got: ".toList ++
      (Json.array items).text
  | .comparisonObject op =>
    '$' :: op.name.toList ++ " objects must have at least 1 property, got: \x7b\x7d".toList
  | .membershipObject => "$in objects must have at least 1 property, got: \x7b\x7d".toList
  | .expandList => "Expand arrays must have at least 1 elements, got: []".toList
  | .orderByList => "'$orderby' arrays have to have at least 1 element".toList
  | .orderByObject count =>
    "'$orderby' objects must have exactly one element, got ".toList ++ Text.ofNat count ++
      " elements".toList
  | .selectList => "'$select' arrays have to have at least 1 element".toList
  | .selectSet => "'$select' sets have to have at least 1 element".toList

def RemovedForm.text : RemovedForm → Text
  | .nestedNavigation =>
    ("`$filter: a: b: ...` has been removed, please use " ++
      "`$filter: a: $any: \x7b $alias: \"x\", $expr: x: b: ... \x7d` instead.").toList
  | .countComparison =>
    ("`$filter: \x7b a: \x7b $count: \x7b $op: number \x7d \x7d \x7d` has been removed, " ++
      "please use `$filter: \x7b $eq: [ \x7b a: \x7b $count: \x7b\x7d \x7d \x7d, number ] \x7d` " ++
      "instead.").toList
  | .countResource =>
    ("`resource: 'a/$count'` has been removed, please use " ++
      "`options: \x7b $count: \x7b ... \x7d \x7d` instead.").toList
  | .countExpandPath =>
    ("`$expand: \x7b 'a/$count': \x7b...\x7d \x7d` has been removed, please use " ++
      "`$expand: \x7b a: \x7b $count: \x7b...\x7d \x7d \x7d` instead.").toList
  | .customOptions => "`customOptions` has been removed, use `options` instead.".toList

def Error.text : Error → Text
  | .invalidValue got => "Not a valid value: ".toList ++ got.text
  | .invalidResource got => "Not a valid resource: ".toList ++ got.text
  | .invalidAlias got => "Parameter alias reference must be a string, got: ".toList ++ got.text
  | .shape fault => fault.text
  | .arity fault => fault.text
  | .removed form => form.text
  | .unrecognisedOperator key => "Unrecognised operator: '".toList ++ key.toList ++ ['\'']
  | .unknownOption key => "Unknown odata option '".toList ++ key.toList ++ ['\'']
  | .unknownExpandOption key => "Unknown key option '".toList ++ key.toList ++ ['\'']
  | .lambdaMissing quantifier part =>
    "Lambda expression ($".toList ++ quantifier.name.toList ++ ") has no ".toList ++
      part.name.toList ++ " defined.".toList
  | .missingResource => "Either the url or resource must be specified.".toList
  | .nullId => "If the id property is set it must be non-null".toList

end OData
