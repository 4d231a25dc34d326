import OData.Command.SettingValue
import OData.Number.Double
import OData.Yaml.Node

namespace OData.Command.SettingFile

open Yaml

-- Powers and sums of numbers are those of the core library, whatever else is in scope.
attribute [local instance (high)] instPowNat Zero.ofOfNat0

def isNull (word : Text) : Bool := ["~", "null", "Null", "NULL"].contains (String.ofList word)

def isBool (word : Text) : Bool :=
  ["true", "True", "TRUE", "false", "False", "FALSE"].contains (String.ofList word)

/-- Zeros in front of further digits make text. -/
def hasLeadingZeros (word : Text) : Bool :=
  match Text.unsigned word with
  | '0' :: c :: rest => (c :: rest).all Char.isDigit
  | _ => false

def ofDigits? (base : Nat) (digits : Text) : Option Nat :=
  if digits.isEmpty then none
  else digits.foldlM (fun n c => do
    let digit ← Json.Reader.hexValue? c
    if digit < base then some (base * n + digit) else none) 0

/-- Whether a word is an integer of 128 bits, in one of the bases 2, 8, 10 and 16. -/
def isInteger (word : Text) : Bool :=
  let magnitude? := match Text.unsigned word with
    | '0' :: 'x' :: digits => ofDigits? 16 digits
    | '0' :: 'o' :: digits => ofDigits? 8 digits
    | '0' :: 'b' :: digits => ofDigits? 2 digits
    | digits => if hasLeadingZeros word then none else Text.toNat? digits
  let limit := if word.head? = some '-' then 2 ^ (127 : Nat) else 2 ^ (128 : Nat) - 1
  (magnitude?.map fun magnitude => decide (magnitude ≤ limit)).getD false

/-- Words for numbers that are not finite. -/
def unbounded : List String :=
  [".nan", ".NaN", ".NAN", ".inf", ".Inf", ".INF", "+.inf", "+.Inf", "+.INF",
    "-.inf", "-.Inf", "-.INF"]

/-- Whether a word is a decimal number within the range of doubles, or a number that is not
finite. -/
def isFloat (word : Text) : Bool :=
  unbounded.contains (String.ofList word) ||
    (((Text.decimal? (Text.unsigned word)).bind fun (digits, exponent) =>
      FiniteDouble.ofDecimal? false digits exponent).isSome)

def ofPlain (word : Text) : SettingValue :=
  if word.isEmpty || isNull word || isBool word || isInteger word ||
      (!hasLeadingZeros word && isFloat word) then .other
  else .text (String.ofList word)

/-- The tag of a type that every document knows. -/
def standardTag (type : String) : Text := "tag:yaml.org,2002:".toList ++ type.toList

/-- The value of a scalar. A tag of the document's own makes a variant of it, and the tag of a type
has to fit. Any other tag makes text. -/
def ofScalar? (tag : Option Text) (text : Text) (isPlain : Bool) : Option SettingValue :=
  let checked (fits : Bool) : Option SettingValue := if fits then some .other else none
  match tag with
  | none => some (if isPlain then ofPlain text else .text (String.ofList text))
  | some tag =>
    if tag.head? = some '!' then some .other
    else if tag = standardTag "bool" then checked (isBool text)
    else if tag = standardTag "int" then checked (isInteger text)
    else if tag = standardTag "float" then checked (isFloat text)
    else if tag = standardTag "null" then checked (isNull text)
    else some (.text (String.ofList text))

abbrev Anchored := List (Nat × Node)

/-- The nodes in a document that have anchors. Of those of one number the last one counts. -/
def anchored (root : Node) : Anchored :=
  (root.parts.filterMap fun node => node.properties.anchor.map (·, node)).reverse

/-- How many references may be followed: a hundred for each start and end of a node. -/
def patience (root : Node) : Nat :=
  100 * (root.parts.map fun
    | .sequence .. | .mapping .. => 2
    | _ => 1).sum

/-- The node that a node stands for, and how many references may be followed after that. -/
def follow? (anchored : Anchored) (left : Nat) : Node → Option (Node × Nat)
  | .reference id =>
    match left with
    | 0 => none
    | left + 1 => (anchored.lookup id).map (·, left)
  | node => some (node, left)

def key? (anchored : Anchored) (left : Nat) (node : Node) : Option (Text × Nat) := do
  match ← follow? anchored left node with
  | (.scalar _ text _, left) => return (text, left)
  | _ => none

/-- The value of a node, in which at most `depth` lists and mappings are inside one another, and how
many references may be followed after that. -/
def value? (anchored : Anchored) : (depth left : Nat) → Node → Option (SettingValue × Nat)
  | depth, left, node => do
    let (node, left) ← follow? anchored left node
    match depth, node with
    | _, .scalar properties text isPlain =>
      return (← ofScalar? properties.tag text isPlain, left)
    | depth + 1, .sequence _ items =>
      let left ← items.foldlM (fun left item => do
        return (← value? anchored depth left item).2) left
      return (.other, left)
    | depth + 1, .mapping _ entries =>
      let left ← entries.foldlM (fun left (key, value) => do
        return (← value? anchored depth (← key? anchored left key).2 value).2) left
      return (.other, left)
    | _, _ => none

def ofEntries? (anchored : Anchored) (depth : Nat) :
    (left : Nat) → List (Node × Node) → Option SettingLayer
  | _, [] => some []
  | left, (key, value) :: rest => do
    let (name, left) ← key? anchored left key
    let (value, left) ← value? anchored depth left value
    return (String.ofList name, value) :: (← ofEntries? anchored depth left rest)

def maxDepth : Nat := 128

/-- The settings in a document, which is a mapping with scalars as keys. One that is left out, or is
an empty scalar, holds none. -/
def layer? (document : Text) : Option SettingLayer := do
  match ← Node.ofText? document with
  | none | some (.scalar _ [] true) => some []
  | some (.mapping properties entries) =>
    let root := .mapping properties entries
    ofEntries? (anchored root) (maxDepth - 1) (patience root) entries
  | some _ => none

end OData.Command.SettingFile
