import OData.Yaml.Token

namespace OData.Yaml

/-- What may stand in front of a node: the number of its anchor, and its tag. -/
structure Properties where
  anchor : Option Nat := none
  tag : Option Text := none
deriving DecidableEq, Repr

inductive Node
  | reference (id : Nat)
  | scalar (properties : Properties) (text : Text) (isPlain : Bool)
  | sequence (properties : Properties) (items : List Node)
  | mapping (properties : Properties) (entries : List (Node × Node))

namespace Node

def empty (properties : Properties := {}) : Node := .scalar properties [] true

def properties : Node → Properties
  | .reference _ => {}
  | .scalar properties .. | .sequence properties _ | .mapping properties _ => properties

mutual

/-- A node and all nodes in it, in the order in which they start. -/
def parts : Node → List Node
  | .reference id => [.reference id]
  | .scalar properties text isPlain => [.scalar properties text isPlain]
  | .sequence properties items => .sequence properties items :: itemParts items
  | .mapping properties entries => .mapping properties entries :: entryParts entries

def itemParts : List Node → List Node
  | [] => []
  | item :: rest => parts item ++ itemParts rest

def entryParts : List (Node × Node) → List Node
  | [] => []
  | (key, value) :: rest => parts key ++ parts value ++ entryParts rest

end

end Node

abbrev TagHandles := List (Text × Text)

namespace TagHandles

def standard : TagHandles :=
  [("!".toList, "!".toList), ("!!".toList, "tag:yaml.org,2002:".toList)]

def expand? (handles : TagHandles) (handle suffix : Text) : Option Text :=
  if handle.isEmpty then some suffix
  else ((handles ++ standard).lookup handle).map (· ++ suffix)

end TagHandles

namespace Node

/-- The properties at the front of a node, an anchor and a tag in either order. -/
def properties? (handles : TagHandles) : List Token → Option (Properties × List Token)
  | .anchor id :: .tag handle suffix :: rest | .tag handle suffix :: .anchor id :: rest => do
    return ({ anchor := some id, tag := some (← handles.expand? handle suffix) }, rest)
  | .anchor id :: rest => some ({ anchor := some id }, rest)
  | .tag handle suffix :: rest => do
    return ({ tag := some (← handles.expand? handle suffix) }, rest)
  | rest => some ({}, rest)

/-- A scalar with its properties. An exclamation mark alone is no tag of a scalar. -/
def ofScalar (properties : Properties) (text : Text) (isPlain : Bool) : Node :=
  .scalar { properties with tag := properties.tag.filter (· ≠ ['!']) } text isPlain

def startsWith (expected : List Token) : List Token → Bool
  | [] => false
  | token :: _ => expected.contains token

mutual

/-- A node and the tokens behind it. A node that is left out is an empty scalar. A block collection
can stand in a block, and the items of a sequence that is not indented only in a mapping. -/
def read? (handles : TagHandles) (inBlock inMapping : Bool) :
    (fuel : Nat) → List Token → Option (Node × List Token)
  | 0, _ => none
  | fuel + 1, tokens => do
    let (properties, rest) ← properties? handles tokens
    match rest with
    | .reference id :: behind => if properties = {} then some (.reference id, behind) else none
    | .scalar text isPlain :: behind => some (ofScalar properties text isPlain, behind)
    | .flowSequence :: rest => do
      let (items, behind) ← flowItems? handles fuel true rest
      return (.sequence properties items, behind)
    | .flowMapping :: rest => do
      let (entries, behind) ← flowEntries? handles fuel true rest
      return (.mapping properties entries, behind)
    | rest =>
      if inMapping && startsWith [.item] rest then
        (looseItems? handles fuel rest).map fun (items, behind) =>
          (.sequence properties items, behind)
      else match inBlock, rest with
        | true, .blockSequence :: rest => do
          let (items, behind) ← blockItems? handles fuel rest
          return (.sequence properties items, behind)
        | true, .blockMapping :: rest => do
          let (entries, behind) ← blockEntries? handles fuel rest
          return (.mapping properties entries, behind)
        | _, rest => if properties = {} then none else some (empty properties, rest)

/-- A node that is left out in front of one of some tokens. -/
def readUnless? (handles : TagHandles) (inBlock inMapping : Bool) (ends : List Token) :
    (fuel : Nat) → List Token → Option (Node × List Token)
  | 0, _ => none
  | fuel + 1, tokens =>
    if startsWith ends tokens then some (empty, tokens)
    else read? handles inBlock inMapping fuel tokens

/-- The value of an entry, which needs its colon. -/
def value? (handles : TagHandles) (inBlock : Bool) (ends : List Token) :
    (fuel : Nat) → List Token → Option (Node × List Token)
  | 0, _ => none
  | fuel + 1, tokens =>
    match tokens with
    | .value :: rest => readUnless? handles inBlock inBlock ends fuel rest
    | tokens => some (empty, tokens)

def blockItems? (handles : TagHandles) : (fuel : Nat) → List Token →
    Option (List Node × List Token)
  | 0, _ => none
  | fuel + 1, tokens =>
    match tokens with
    | .item :: rest => do
      let (item, rest) ← readUnless? handles true false [.item, .blockEnd] fuel rest
      let (items, behind) ← blockItems? handles fuel rest
      return (item :: items, behind)
    | .blockEnd :: behind => some ([], behind)
    | _ => none

/-- The items of a sequence that is not indented, up to a token that is no item. -/
def looseItems? (handles : TagHandles) : (fuel : Nat) → List Token →
    Option (List Node × List Token)
  | 0, _ => none
  | fuel + 1, tokens =>
    match tokens with
    | .item :: rest => do
      let (item, rest) ← readUnless? handles true false [.item, .key, .value, .blockEnd] fuel rest
      let (items, behind) ← looseItems? handles fuel rest
      return (item :: items, behind)
    | behind => some ([], behind)

def blockEntries? (handles : TagHandles) : (fuel : Nat) → List Token →
    Option (List (Node × Node) × List Token)
  | 0, _ => none
  | fuel + 1, tokens =>
    match tokens with
    | .key :: rest => do
      let ends := [.key, .value, .blockEnd]
      let (key, rest) ← readUnless? handles true true ends fuel rest
      let (value, rest) ← value? handles true ends fuel rest
      let (entries, behind) ← blockEntries? handles fuel rest
      return ((key, value) :: entries, behind)
    | .blockEnd :: behind => some ([], behind)
    | _ => none

/-- The items between square brackets. A comma stands in front of all but the first one, and one
more may stand in front of the closing bracket. A key and its value are an item; a key that is left
out takes the token behind it along. -/
def flowItems? (handles : TagHandles) : (fuel : Nat) → (isFirst : Bool) → List Token →
    Option (List Node × List Token)
  | 0, _, _ => none
  | fuel + 1, isFirst, tokens =>
    match isFirst, tokens with
    | _, .flowSequenceEnd :: behind => some ([], behind)
    | false, .separator :: .flowSequenceEnd :: behind => some ([], behind)
    | false, .separator :: rest | true, rest => do
      let ends := [.separator, .flowSequenceEnd]
      let (item, rest) ← match rest with
        | .key :: rest => do
          let (key, rest) ←
            if startsWith (.value :: ends) rest then some (empty, rest.drop 1)
            else read? handles false false fuel rest
          let (value, rest) ← value? handles false ends fuel rest
          some (.mapping {} [(key, value)], rest)
        | rest => read? handles false false fuel rest
      let (items, behind) ← flowItems? handles fuel false rest
      return (item :: items, behind)
    | false, _ => none

/-- The entries between braces. A node that is not marked as a key is one without a value. -/
def flowEntries? (handles : TagHandles) : (fuel : Nat) → (isFirst : Bool) → List Token →
    Option (List (Node × Node) × List Token)
  | 0, _, _ => none
  | fuel + 1, isFirst, tokens =>
    match isFirst, tokens with
    | _, .flowMappingEnd :: behind => some ([], behind)
    | false, .separator :: .flowMappingEnd :: behind => some ([], behind)
    | false, .separator :: rest | true, rest => do
      let ends := [.separator, .flowMappingEnd]
      let (entry, rest) ← match rest with
        | .key :: rest => do
          let (key, rest) ← readUnless? handles false false (.value :: ends) fuel rest
          let (value, rest) ← value? handles false ends fuel rest
          some ((key, value), rest)
        | rest => do
          let (key, rest) ← read? handles false false fuel rest
          some ((key, empty), rest)
      let (entries, behind) ← flowEntries? handles fuel false rest
      return (entry :: entries, behind)
    | false, _ => none

end

end Node

/-- What directives say: whether there is a version, and the handles of tags. Neither the version
nor a handle is given twice. -/
def directives? : (hasVersion : Bool) → TagHandles → List Token →
    Option (TagHandles × List Token)
  | hasVersion, handles, .version :: rest =>
    if hasVersion then none else directives? true handles rest
  | hasVersion, handles, .tagHandle handle meaning :: rest =>
    if (handles.lookup handle).isSome then none
    else directives? hasVersion ((handle, meaning) :: handles) rest
  | _, handles, rest => some (handles, rest)

def startsOutside : List Token → Bool
  | .version :: _ | .tagHandle .. :: _ | .documentStart :: _ => true
  | _ => false

/-- The node of the only document that tokens hold. There may be none, and behind it only its end
may be marked. -/
def Node.ofTokens? (tokens : List Token) : Option (Option Node) :=
  let fuel := 4 * tokens.length + 4
  if tokens.isEmpty then some none
  else do
    let (node, behind) ←
      if startsOutside tokens then do
        match ← directives? false [] tokens with
        | (handles, .documentStart :: rest) =>
          if rest.isEmpty || startsOutside rest || startsWith [.documentEnd] rest then
            some (.empty, rest)
          else read? handles true false fuel rest
        | _ => none
      else read? [] true false fuel tokens
    if behind.all (· = .documentEnd) then some (some node) else none

def Node.ofText? (document : Text) : Option (Option Node) := do
  Node.ofTokens? (← Token.ofText? document)

end OData.Yaml
