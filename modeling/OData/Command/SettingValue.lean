import OData.Text.Blank
import OData.Text.Decimal
import OData.Json.Reader

namespace OData.Command

-- Powers of numbers are those of the core library, whatever else is in scope.
attribute [local instance (high)] instPowNat

/-- The value of a setting, as far as it matters: text, or a value of another kind. -/
inductive SettingValue
  | text (value : String)
  | other
deriving DecidableEq, Repr

namespace SettingValue

def isAsciiBlank (c : Char) : Bool :=
  c = ' ' || c = '\t' || c = '\n' || c = '\r' || c.toNat = 12

def skipBlanks (chars : Text) : Text := chars.dropWhile isAsciiBlank

def isSeparator (c : Char) : Bool := c = ',' || c = '\x7b' || c = '}' || c = '[' || c = ']'

/-- The value of a bare word: a number with a point, an integer that fits a word of 64 bits, or
text. -/
def ofWord (word : Text) : SettingValue :=
  if '.' ∈ word ∧ (Text.decimal? (Text.unsigned word)).isSome then .other
  else match Text.toInt? word with
    | some n => if -2 ^ (63 : Nat) ≤ n ∧ n < 2 ^ (64 : Nat) then .other else .text (String.ofList word)
    | none => .text (String.ofList word)

def escaped? (c : Char) : Option Char := if c = '/' then none else Json.Reader.escaped? c

def escapeWidth? : Char → Option Nat
  | 'u' => some 4
  | 'U' => some 8
  | _ => none

def ofHex? (digits : Text) : Option Char := do
  let code ← digits.foldlM (fun n c => (Json.Reader.hexValue? c).map (16 * n + ·)) 0
  if code.isValidChar then some (Char.ofNat code) else none

/-- Characters that stand for themselves between quotes. -/
def isQuotable (c : Char) : Bool := c = '\t' || (0x20 ≤ c.toNat && c.toNat ≠ 0x7F)

def quoted? : (fuel : Nat) → Text → Option (Text × Text)
  | 0, _ => none
  | _, [] => none
  | _, '"' :: rest => some ([], rest)
  | fuel + 1, '\\' :: c :: rest => do
    let (char, rest) ← match escapeWidth? c with
      | some width => do
        if (rest.take width).length < width then none
        some (← ofHex? (rest.take width), rest.drop width)
      | none => do some (← escaped? c, rest)
    let (chars, tail) ← quoted? fuel rest
    return (char :: chars, tail)
  | fuel + 1, c :: rest => do
    if c = '\\' || !isQuotable c then none
    let (chars, tail) ← quoted? fuel rest
    return (c :: chars, tail)

def isKeyChar (c : Char) : Bool := c.isAlphanum || c = '_' || c = '-'

def key? : Text → Option Text
  | '"' :: rest => (quoted? (rest.length + 1) rest).map (·.2)
  | chars =>
    if (chars.takeWhile isKeyChar).isEmpty then none else some (chars.dropWhile isKeyChar)

mutual

/-- A value and what is behind it, blanks left out. `true` and `false` are read wherever a value
starts so. -/
def value? : (fuel : Nat) → Text → Option (SettingValue × Text)
  | 0, _ => none
  | fuel + 1, chars =>
    match skipBlanks chars with
    | 't' :: 'r' :: 'u' :: 'e' :: rest => some (.other, skipBlanks rest)
    | 'f' :: 'a' :: 'l' :: 's' :: 'e' :: rest => some (.other, skipBlanks rest)
    | '"' :: rest => do
      let (chars, rest) ← quoted? (rest.length + 1) rest
      return (.text (String.ofList chars), skipBlanks rest)
    | '\'' :: c :: '\'' :: rest => some (.text (String.ofList [c]), skipBlanks rest)
    | '\'' :: _ => none
    | '[' :: rest => (items? fuel rest).map fun rest => (.other, skipBlanks rest)
    | '\x7b' :: rest => (pairs? fuel rest).map fun rest => (.other, skipBlanks rest)
    | rest =>
      let word := rest.takeWhile fun c => !isSeparator c
      some (ofWord (Text.trimmed word), rest.dropWhile fun c => !isSeparator c)

/-- What is behind the items of a list and its closing bracket, which may follow a comma at
once. -/
def items? : (fuel : Nat) → Text → Option Text
  | 0, _ => none
  | _, ']' :: rest => some rest
  | fuel + 1, chars => do
    match (← value? fuel chars).2 with
    | ']' :: rest => some rest
    | ',' :: rest => items? fuel rest
    | _ => none

/-- What is behind the pairs of a table and its closing brace, which may follow a comma at once. -/
def pairs? : (fuel : Nat) → Text → Option Text
  | 0, _ => none
  | _, '\x7d' :: rest => some rest
  | fuel + 1, chars => do
    match skipBlanks (← key? (skipBlanks chars)) with
    | '=' :: rest =>
      match (← value? fuel rest).2 with
      | '\x7d' :: rest => some rest
      | ',' :: rest => pairs? fuel rest
      | _ => none
    | _ => none

end

/-- The value of an environment variable, typed by the way it is written: `true` is a truth value,
`5` and `0.5` are numbers, a quoted text is what is between the quotes, and there are lists and
tables. What cannot be read so as a whole is text as it stands. -/
def ofVariable (raw : String) : SettingValue :=
  match value? (2 * raw.length + 2) raw.toList with
  | some (value, []) => value
  | _ => .text raw

end SettingValue

/-- Values of settings by name; the last one of a name counts. -/
abbrev SettingLayer := List (String × SettingValue)

end OData.Command
