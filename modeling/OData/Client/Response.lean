import OData.Client.Error

namespace OData

inductive Expectation
  | count
  | one
  | many
deriving DecidableEq, Repr

inductive QueryResult
  | count (count : Nat)
  | one (row : Option Json)
  | many (rows : List Json)

namespace QueryResult

/-- The count, where it was asked for. -/
def count? : QueryResult → Option Nat
  | .count n => some n
  | _ => none

/-- The one row, where one was asked for and found. -/
def row? : QueryResult → Option Json
  | .one row => row
  | _ => none

/-- All rows; a single row counts as a list of one. -/
def rows : QueryResult → List Json
  | .many rows => rows
  | .one row => row.toList
  | .count _ => []

end QueryResult

/-- What stands under `d`; null does not count. -/
def payload : Json → Except ClientError Json
  | .object fields =>
    match fields.lookup "d" with
    | none | some .null => .error (.invalidResponse .payloadMissing)
    | some value => .ok value
  | .array _ => .error (.invalidResponse .payloadMissing)
  | other => .error (.invalidResponse (.notAnObject other.typeName))

def QueryResult.ofPayload (value : Json) : Expectation → Except ClientError QueryResult
  | .count =>
    match value.toNat? with
    | some n => .ok (.count n)
    | none => .error (.invalidResponse (.notACount value))
  | .one =>
    match value with
    | .array [] => .ok (.one none)
    | .array [row] => .ok (.one (some row))
    | .array (_ :: _ :: _) => .error .multipleResults
    | row => .ok (.one (some row))
  | .many =>
    match value with
    | .array rows => .ok (.many rows)
    | row => .ok (.many [row])

def QueryResult.ofResponse (expectation : Expectation) (response : Json) :
    Except ClientError QueryResult := do
  QueryResult.ofPayload (← payload response) expectation

end OData
