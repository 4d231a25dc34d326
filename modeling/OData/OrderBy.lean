import OData.Deprecation
import OData.Filter.Compile
import OData.Filter.OfJson

namespace OData

inductive SortDirection
  | ascending
  | descending
deriving DecidableEq, Repr

namespace SortDirection

def name : SortDirection → String
  | .ascending => "asc"
  | .descending => "desc"

def ofName? : String → Option SortDirection
  | "asc" => some .ascending
  | "desc" => some .descending
  | _ => none

end SortDirection

/-- What a property is ordered by: itself, in a direction, or its count. -/
inductive OrderKey
  | direction (direction : SortDirection)
  | count (filter : Option Filter)

inductive OrderBy
  | raw (text : String)
  | list (items : List OrderBy)
  | object (entries : List (String × OrderKey)) (direction : Option SortDirection)

namespace OrderBy

/-- A property in a direction. -/
def ofProperty (property : String) (direction : SortDirection) : OrderBy :=
  .object [(property, .direction direction)] none

def directionOfJson : Json → Except Error SortDirection
  | .string s =>
    match SortDirection.ofName? s with
    | some direction => .ok direction
    | none => .error (.shape .orderByDirection)
  | _ => .error (.shape .orderByDirection)

def countFilterOfJson : Json → Except Error (Option Filter)
  | .object fields =>
    if hasOnlyFilter fields then Filter.at? "$filter" fields
    else .error (.shape (.orderByCountFilterAlone (Keyed.keys fields)))
  | other => .error (.shape (.countKind other.typeName))

def keyOfJson : Json → Except Error OrderKey
  | .object [("$count", count)] => OrderKey.count <$> countFilterOfJson count
  | .object fields => .error (.shape (.orderByCountAlone (Keyed.keys fields)))
  | other => OrderKey.direction <$> directionOfJson other

/-- The properties of an ordering object, which may also have the key `$dir`. -/
def entriesOfFields : List (String × Json) → Except Error (List (String × OrderKey))
  | [] => .ok []
  | (key, value) :: rest =>
    if key = "$dir" then entriesOfFields rest
    else do
      let entry ← keyOfJson value
      let entries ← entriesOfFields rest
      return (key, entry) :: entries

/-- The direction that an ordering object has for its count. -/
def sharedDirection (fields : List (String × Json)) : Except Error (Option SortDirection) :=
  match fields.lookup "$dir" with
  | none => .ok none
  | some value => some <$> directionOfJson value

mutual

def ofJson : Json → Except Error OrderBy
  | .string text => .ok (.raw text)
  | .array items => OrderBy.list <$> listOfJson items
  | .object fields => do
    let direction ← sharedDirection fields
    let entries ← entriesOfFields fields
    return .object entries direction
  | _ => .error (.shape .orderByKind)

def listOfJson : List Json → Except Error (List OrderBy)
  | [] => .ok []
  | item :: rest => do
    let ordering ← ofJson item
    let orderings ← listOfJson rest
    return ordering :: orderings

end

def countPath (property : String) : Option Filter → Except Error Text
  | none => .ok (property.toList ++ "/$count".toList)
  | some filter => do
    let text ← filter.compile
    return property.toList ++ "/$count($filter=".toList ++ text ++ [')']

/-- One property. A count takes the direction of the object around it. -/
def compileEntry (property : String) (shared : Option SortDirection) :
    OrderKey → Except Error Text
  | .direction direction => .ok (property.toList ++ ' ' :: direction.name.toList)
  | .count filter => do
    let path ← countPath property filter
    match shared with
    | some direction => return path ++ ' ' :: direction.name.toList
    | none => .error (.shape .orderByUndirected)

def compileItem : OrderBy → Compilation Text
  | .raw text =>
    if Text.contains "/$count".toList text.toList then
      ⟨[.orderByCountText], .ok text.toList⟩
    else pure text.toList
  | .list _ => .fail (.shape .orderByNested)
  | .object [(property, key)] direction => .lift (compileEntry property direction key)
  | .object entries _ => .fail (.arity (.orderByObject entries.length))

def compileItems : List OrderBy → Compilation (List Text)
  | [] => pure []
  | item :: rest => do
    let text ← compileItem item
    let texts ← compileItems rest
    return text :: texts

/-- The text of an ordering. Lists do not nest. -/
def compile : OrderBy → Compilation Text
  | .list [] => .fail (.arity .orderByList)
  | .list items => do return Text.join [','] (← compileItems items)
  | item => compileItem item

end OrderBy

end OData
