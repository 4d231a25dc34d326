import OData.Json.Basic
import OData.Number.Format

namespace OData

def lowerHexDigit (n : Nat) : Char := Nat.digitChar n

namespace Json

/-- A character inside a JSON string. -/
def escapeChar (c : Char) : Text :=
  if c = '"' then "\\\"".toList
  else if c = '\\' then "\\\\".toList
  else if c = '\n' then "\\n".toList
  else if c = '\r' then "\\r".toList
  else if c = '\t' then "\\t".toList
  else if c.toNat = 8 then "\\b".toList
  else if c.toNat = 12 then "\\f".toList
  else if c.toNat < 32 then
    "\\u00".toList ++ [lowerHexDigit (c.toNat / 16), lowerHexDigit (c.toNat % 16)]
  else [c]

def quoted (s : String) : Text := '"' :: s.toList.flatMap escapeChar ++ ['"']

end Json

def JsonNumber.text : JsonNumber → Text
  | .integer n => Text.ofInt n.value
  | .double x => NumberFormat.json.finiteText x

namespace Json

mutual
/-- A value as JSON text, without blanks, and with no escapes but those that JSON demands. -/
def text : Json → Text
  | .null => "null".toList
  | .bool true => "true".toList
  | .bool false => "false".toList
  | .number n => n.text
  | .string s => quoted s
  | .array items => '[' :: Text.join [','] (itemTexts items) ++ [']']
  | .object fields => '{' :: Text.join [','] (fieldTexts fields) ++ ['}']

def itemTexts : List Json → List Text
  | [] => []
  | item :: rest => item.text :: itemTexts rest

def fieldTexts : List (String × Json) → List Text
  | [] => []
  | (key, value) :: rest => (quoted key ++ ':' :: value.text) :: fieldTexts rest
end

def stringsText (strings : List String) : Text := (Json.array (strings.map .string)).text

end Json

end OData
