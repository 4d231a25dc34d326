import OData.Json.Printer
import OData.Time.Instant
import OData.Uri.Percent

namespace OData

inductive Primitive
  | null
  | bool (value : Bool)
  | number (value : JsonNumber)
  | string (value : String)
  | instant (value : Time.Instant)
deriving DecidableEq, Repr

namespace Primitive

def isNull : Primitive → Bool
  | .null => true
  | _ => false

/-- A double as a scalar; only finite ones are values. -/
def ofDouble? : Double → Option Primitive
  | .finite x => some (.number (.double x))
  | _ => none

/-- The JSON form. An instant is given by its text. -/
def toJson : Primitive → Json
  | .null => .null
  | .bool b => .bool b
  | .number n => .number n
  | .string s => .string s
  | .instant t => .string (String.ofList t.text)

end Primitive

def doubleQuotes (text : Text) : Text :=
  text.flatMap fun c => if c = '\'' then ['\'', '\''] else [c]

/-- A number as a literal: a double that is whole has no fraction. -/
def JsonNumber.literal : JsonNumber → Text
  | .integer n => Text.ofInt n.value
  | .double x => NumberFormat.literal.finiteText x

/-- The literal of a scalar. Text is quoted, with quotes inside it doubled, and then encoded. -/
def Primitive.literal : Primitive → Text
  | .null => "null".toList
  | .bool true => "true".toList
  | .bool false => "false".toList
  | .number n => n.literal
  | .string s => '\'' :: Uri.encodeComponent (doubleQuotes s.toList) ++ ['\'']
  | .instant t => "datetime'".toList ++ t.text ++ ['\'']

end OData
