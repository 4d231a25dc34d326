import OData.Text

namespace OData.Text

/-- The value of a row of ASCII digits, of which there is at least one. -/
def toNat? (digits : Text) : Option Nat :=
  if digits ≠ [] ∧ digits.all Char.isDigit then
    some (digits.foldl (fun n c => 10 * n + (c.toNat - '0'.toNat)) 0)
  else none

def unsigned : Text → Text
  | '-' :: rest => rest
  | '+' :: rest => rest
  | rest => rest

def toInt? : Text → Option Int
  | '-' :: digits => (toNat? digits).map fun n => -(n : Int)
  | '+' :: digits => (toNat? digits).map Int.ofNat
  | digits => (toNat? digits).map Int.ofNat

end OData.Text
