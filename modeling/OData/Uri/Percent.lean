import OData.Text

namespace OData.Uri

/-- Whether a character stands for itself in every part of a URI. -/
def isUnreserved (c : Char) : Bool := c.isAlphanum || ['-', '_', '.', '~'].contains c

def upperHexDigit (n : Nat) : Char := (Nat.digitChar n).toUpper

def escapeByte (byte : UInt8) : Text :=
  ['%', upperHexDigit (byte.toNat / 16), upperHexDigit (byte.toNat % 16)]

/-- The escapes of a character, unless it is unreserved. -/
def escapeChar (c : Char) : Text :=
  if isUnreserved c then [c] else (String.utf8EncodeChar c).flatMap escapeByte

def escape (text : Text) : Text := text.flatMap escapeChar

/-- Escapes of marks that a component has in plain characters. -/
def keptMarks : List (Text × Text) :=
  [("%21".toList, ['!']), ("%27".toList, ['\'']), ("%28".toList, ['(']), ("%29".toList, [')']),
    ("%2A".toList, ['*'])]

/-- Writes the marks that a component keeps in plain characters again, one mark after another. They
were encoded with everything else at first. -/
def restoreMarks (escaped : Text) : Text :=
  keptMarks.foldl (fun text (pattern, mark) => Text.replace pattern mark text) escaped

/-- A text as one component. Letters, digits and the marks `- _ . ~ ! ' ( ) *` stand for themselves;
of every other character each byte of its UTF-8 form becomes `%` and two upper-case hexadecimal
digits. -/
def encodeComponent (text : Text) : Text := restoreMarks (escape text)

end OData.Uri
