import OData.Options.OfJson
import OData.Query.Basic

namespace OData

def aliasNameOfJson : Json → Except Error String
  | .string name => .ok name
  | other => .error (.invalidAlias other.typeName)

def KeyValue.ofJson (value : Json) : Except Error KeyValue :=
  match value.field? "@" with
  | some name => KeyValue.parameter <$> aliasNameOfJson name
  | none => KeyValue.value <$> Primitive.ofJson value

namespace ResourceId

def keysOfFields : List (String × Json) → Except Error (List (String × KeyValue))
  | [] => .ok []
  | (name, field) :: rest => do
    let part ← KeyValue.ofJson field
    let parts ← keysOfFields rest
    return (name, part) :: parts

/-- An id: a scalar, an alias under the key `@`, or a composite key. -/
def ofJson : Json → Except Error ResourceId
  | .null => .error .nullId
  | .object fields =>
    match fields.lookup "@" with
    | some name => ResourceId.parameter <$> aliasNameOfJson name
    | none => ResourceId.composite <$> keysOfFields fields
  | other => ResourceId.value <$> Primitive.ofJson other

end ResourceId

def optionalText (fields : List (String × Json)) (field : String) :
    Except Error (Option String) :=
  match fields.lookup field with
  | none | some .null => .ok none
  | some (.string s) => .ok (some s)
  | some other => .error (.shape (.fieldKind field other.typeName))

def requiredText (fields : List (String × Json)) (field : String) : Except Error String := do
  match ← optionalText fields field with
  | some s => return s
  | none => .error (.shape (.fieldKind field .undefined))

namespace Query

def idOfFields (fields : List (String × Json)) : Except Error (Option ResourceId) :=
  match fields.lookup "id" with
  | none => .ok none
  | some value => some <$> ResourceId.ofJson value

def optionsOfFields (fields : List (String × Json)) : Except Error (Option Options) :=
  match fields.lookup "options" with
  | none | some .null => .ok none
  | some value => some <$> Options.ofJson value

/-- The query that a JSON value describes. Keys that it does not know are ignored. -/
def ofJson : Json → Except Error Query
  | .object fields => do
    match fields.lookup "customOptions" with
    | none | some .null => pure ()
    | some _ => .error (.removed .customOptions)
    let resource ← optionalText fields "resource"
    let id ← idOfFields fields
    let action ← optionalText fields "action"
    let url ← optionalText fields "url"
    let options ← optionsOfFields fields
    return { resource, id, action, url, options }
  | other => .error (.shape (.descriptionKind other.typeName))

end Query

namespace Permission

/-- The filter among the options. Options that are no object have none. -/
def filterOfFields (fields : List (String × Json)) : Except Error (Option Filter) :=
  match fields.lookup "options" with
  | none => .ok none
  | some options =>
    match options.field? "$filter" with
    | none => .ok none
    | some value => some <$> Filter.ofJson value

def ofJson : Json → Except Error Permission
  | .object fields => do
    let filter ← filterOfFields fields
    let model ← requiredText fields "modelName"
    let resource ← requiredText fields "resource"
    let access ← requiredText fields "access"
    return { model, resource, access, filter }
  | other => .error (.shape (.descriptionKind other.typeName))

end Permission

end OData
