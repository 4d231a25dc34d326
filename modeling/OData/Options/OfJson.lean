import OData.Options.Basic

namespace OData

/-- Refuses keys of an expansion that are options, and the removed count path. -/
def checkExpandKey (key : String) : Except Error Unit :=
  if key.toList.head? = some '$' then .error (.shape .expandKey)
  else if "/$count".toList.isSuffixOf key.toList then .error (.removed .countExpandPath)
  else .ok ()

namespace Select

def itemOfJson : Json → Except Error String
  | .string s => .ok s
  | _ => .error (.shape .selectKind)

def ofJson : Json → Except Error Select
  | .string names => .ok (.fields names)
  | .array items => do return .list (← items.mapM itemOfJson)
  | _ => .error (.shape .selectKind)

end Select

namespace CustomValue

def itemOfJson : Json → Except Error String
  | .string s => .ok s
  | .number n => .ok (String.ofList n.text)
  | .bool true => .ok "true"
  | .bool false => .ok "false"
  | other => .error (.shape (.customKind other.typeName))

def ofJson : Json → Except Error CustomValue
  | .string value => .ok (.text value)
  | .bool b => .ok (.bool b)
  | .number n => .ok (.number n)
  | .array items => do return .list (← items.mapM itemOfJson)
  | other => .error (.shape (.customKind other.typeName))

end CustomValue

namespace QueryOption

def rowsOfJson (key : String) (value : Json) : Except Error Nat :=
  match value.toNat? with
  | some n => .ok n
  | none => .error (.shape (.rowCount key))

def formatOfJson : Json → Except Error String
  | .string name => .ok name
  | _ => .error (.shape .formatKind)

/-- The value of a parameter alias, which is a scalar. -/
def aliasOfJson (key name : String) (value : Json) : Except Error QueryOption :=
  match Primitive.ofJson value with
  | .ok scalar => .ok (.parameter name scalar)
  | .error _ => .error (.shape (.aliasValueKind key value.typeName))

end QueryOption

/-- The keys of options that may stand on a query as well as on an expansion. -/
inductive OptionKey
  | filter
  | expand
  | orderBy
  | top
  | skip
  | select
  | format
  | count
deriving DecidableEq, Repr

def OptionKey.ofString? : String → Option OptionKey
  | "$filter" => some .filter
  | "$expand" => some .expand
  | "$orderby" => some .orderBy
  | "$top" => some .top
  | "$skip" => some .skip
  | "$select" => some .select
  | "$format" => some .format
  | "$count" => some .count
  | _ => none

mutual

def Expand.ofJson : Json → Except Error Expand
  | .string path => .ok (.property path)
  | .array items => Expand.list <$> Expand.listOfJson items
  | .object fields => Expand.object <$> Expand.entriesOfFields fields
  | other => .error (.invalidResource other.typeName)

def Expand.listOfJson : List Json → Except Error (List Expand)
  | [] => .ok []
  | item :: rest => do
    let expand ← Expand.ofJson item
    let expands ← Expand.listOfJson rest
    return expand :: expands

def Expand.entriesOfFields : List (String × Json) → Except Error (List (String × Options))
  | [] => .ok []
  | (path, value) :: rest => do
    checkExpandKey path
    let options ← match value with
      | .object fields => Expand.optionsOfFields path fields
      | .array _ => .error (.shape (.expandArray path))
      | scalar => .error (.shape (.expandScalar path scalar))
    let entries ← Expand.entriesOfFields rest
    return (path, options) :: entries

/-- The options of a navigation property, all of which have keys that start with `$`. -/
def Expand.optionsOfFields (path : String) : List (String × Json) → Except Error Options
  | [] => .ok []
  | (key, value) :: rest => do
    let option ←
      if key.toList.head? = some '$' then
        match OptionKey.ofString? key with
        | some .count =>
          match value with
          | .object fields => QueryOption.count <$> Expand.optionsOfFields path fields
          | other => .error (.shape (.countKind other.typeName))
        | some .filter => QueryOption.filter <$> Filter.ofJson value
        | some .expand => QueryOption.expand <$> Expand.ofJson value
        | some .orderBy => QueryOption.orderBy <$> OrderBy.ofJson value
        | some .top => QueryOption.top <$> QueryOption.rowsOfJson key value
        | some .skip => QueryOption.skip <$> QueryOption.rowsOfJson key value
        | some .select => QueryOption.select <$> Select.ofJson value
        | some .format => QueryOption.format <$> QueryOption.formatOfJson value
        | none => .error (.unknownExpandOption key)
      else .error (.shape (.expandPlainOption path key))
    let options ← Expand.optionsOfFields path rest
    return option :: options

end

mutual

/-- The options of a query. Keys that start with `@` define parameter aliases; any other key without
`$` is an option that the query language does not know. -/
def Options.ofFields : List (String × Json) → Except Error Options
  | [] => .ok []
  | (key, value) :: rest => do
    let option ← match key.toList with
      | '$' :: _ =>
        match OptionKey.ofString? key with
        | some .count => QueryOption.count <$> Options.countOfJson value
        | some .filter => QueryOption.filter <$> Filter.ofJson value
        | some .expand => QueryOption.expand <$> Expand.ofJson value
        | some .orderBy => QueryOption.orderBy <$> OrderBy.ofJson value
        | some .top => QueryOption.top <$> QueryOption.rowsOfJson key value
        | some .skip => QueryOption.skip <$> QueryOption.rowsOfJson key value
        | some .select => QueryOption.select <$> Select.ofJson value
        | some .format => QueryOption.format <$> QueryOption.formatOfJson value
        | none => .error (.unknownOption key)
      | '@' :: name => QueryOption.aliasOfJson key (String.ofList name) value
      | _ => QueryOption.custom key <$> CustomValue.ofJson value
    let options ← Options.ofFields rest
    return option :: options

def Options.countOfJson : Json → Except Error Options
  | .object fields => Options.ofFields fields
  | other => .error (.shape (.countKind other.typeName))

end

def Options.ofJson : Json → Except Error Options
  | .object fields => Options.ofFields fields
  | other => .error (.shape (.optionsKind other.typeName))

end OData
