import OData.Keyed
import OData.Text
import OData.Number.Double

namespace OData

-- Powers of numbers are those of the core library, whatever else is in scope.
attribute [local instance (high)] instPowNat

/-- An integer that fits a signed or an unsigned word of 64 bits. -/
structure WordInteger where
  value : Int
  inRange : -2 ^ (63 : Nat) ≤ value ∧ value < 2 ^ (64 : Nat)
deriving DecidableEq, Repr

/-- A number of a JSON document: an integer of 64 bits or else a finite double, as it was
written. -/
inductive JsonNumber
  | integer (value : WordInteger)
  | double (value : FiniteDouble)
deriving DecidableEq, Repr

/-- A JSON value. Objects keep the order of their keys. -/
inductive Json
  | null
  | bool (value : Bool)
  | number (value : JsonNumber)
  | string (value : String)
  | array (items : List Json)
  | object (fields : List (String × Json))

namespace JsonNumber

def ofInt? (value : Int) : Option JsonNumber :=
  if h : -2 ^ (63 : Nat) ≤ value ∧ value < 2 ^ (64 : Nat) then some (.integer ⟨value, h⟩) else none

/-- The nearest double; every integer in range has a finite one. -/
def toDouble : JsonNumber → FiniteDouble
  | .integer n => (FiniteDouble.ofInt? n.value).getD (.zero false)
  | .double x => x

/-- The number as a natural number. A double is never one, whatever its value. -/
def toNat? : JsonNumber → Option Nat
  | .integer n => if 0 ≤ n.value then some n.value.toNat else none
  | .double _ => none

end JsonNumber

namespace Json

def typeName : Json → TypeName
  | .null | .array _ | .object _ => .object
  | .bool _ => .boolean
  | .number _ => .number
  | .string _ => .string

def toNat? : Json → Option Nat
  | .number n => n.toNat?
  | _ => none

def toString? : Json → Option String
  | .string s => some s
  | _ => none

def isNull : Json → Bool
  | .null => true
  | _ => false

def field? (key : String) : Json → Option Json
  | .object fields => fields.lookup key
  | _ => none

/-- An object whose fields may repeat keys. -/
def ofFields (fields : List (String × Json)) : Json := .object (Keyed.ofList fields)

/-- The integer as a JSON value, null where it is out of range. -/
def ofInt (value : Int) : Json := ((JsonNumber.ofInt? value).map Json.number).getD .null

end Json

/-- The kind of a value that may be missing. -/
def typeNameOf : Option Json → TypeName
  | none => .undefined
  | some value => value.typeName

end OData
