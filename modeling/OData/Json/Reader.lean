import OData.Json.Basic

namespace OData

namespace Json.Reader

def isBlank (c : Char) : Bool := c = ' ' || c = '\t' || c = '\n' || c = '\r'

def skipBlanks (text : Text) : Text := text.dropWhile isBlank

def digitValue (c : Char) : Nat := c.toNat - '0'.toNat

def digitsValue (digits : Text) : Nat := digits.foldl (fun n c => 10 * n + digitValue c) 0

def hexValue? (c : Char) : Option Nat :=
  if c.isDigit then some (digitValue c)
  else if 'a' ≤ c ∧ c ≤ 'f' then some (c.toNat - 'a'.toNat + 10)
  else if 'A' ≤ c ∧ c ≤ 'F' then some (c.toNat - 'A'.toNat + 10)
  else none

def codeUnit? (a b c d : Char) : Option Nat := do
  return (((← hexValue? a) * 16 + (← hexValue? b)) * 16 + (← hexValue? c)) * 16 + (← hexValue? d)

def escaped? (c : Char) : Option Char :=
  if c = '"' ∨ c = '\\' ∨ c = '/' then some c
  else if c = 'b' then some (Char.ofNat 8)
  else if c = 'f' then some (Char.ofNat 12)
  else if c = 'n' then some '\n'
  else if c = 'r' then some '\r'
  else if c = 't' then some '\t'
  else none

def isHighSurrogate (unit : Nat) : Bool := 0xD800 ≤ unit && unit < 0xDC00

def isLowSurrogate (unit : Nat) : Bool := 0xDC00 ≤ unit && unit < 0xE000

/-- The rest of a string behind its opening quote: its characters, and the text behind the closing
quote. -/
def string? : Text → Option (Text × Text)
  | [] => none
  | '"' :: rest => some ([], rest)
  | '\\' :: 'u' :: a :: b :: c :: d :: rest => do
    let unit ← codeUnit? a b c d
    if isHighSurrogate unit then
      match rest with
      | '\\' :: 'u' :: a' :: b' :: c' :: d' :: rest' => do
        let second ← codeUnit? a' b' c' d'
        if isLowSurrogate second then
          let (chars, tail) ← string? rest'
          return (Char.ofNat (0x10000 + (unit - 0xD800) * 0x400 + (second - 0xDC00)) :: chars, tail)
        else none
      | _ => none
    else if isLowSurrogate unit then none
    else do
      let (chars, tail) ← string? rest
      return (Char.ofNat unit :: chars, tail)
  | '\\' :: c :: rest => do
    let char ← escaped? c
    let (chars, tail) ← string? rest
    return (char :: chars, tail)
  | c :: rest =>
    if c.toNat < 32 ∨ c = '\\' then none
    else do
      let (chars, tail) ← string? rest
      return (c :: chars, tail)

/-- The fraction digits and the text behind them; a point needs digits. -/
def fraction? : Text → Option (Text × Text)
  | '.' :: rest =>
    let digits := rest.takeWhile Char.isDigit
    if digits.isEmpty then none else some (digits, rest.dropWhile Char.isDigit)
  | text => some ([], text)

def exponent? : Text → Option (Option Int × Text)
  | c :: rest =>
    if c = 'e' ∨ c = 'E' then
      let (negative, rest) := match rest with
        | '-' :: rest => (true, rest)
        | '+' :: rest => (false, rest)
        | rest => (false, rest)
      let digits := rest.takeWhile Char.isDigit
      if digits.isEmpty then none
      else
        let magnitude : Int := digitsValue digits
        some (some (if negative then -magnitude else magnitude), rest.dropWhile Char.isDigit)
    else some (none, c :: rest)
  | [] => some (none, [])

/-- A number that has neither fraction nor exponent. Minus zero and integers out of range are
doubles. -/
def wholeNumber? (negative : Bool) (magnitude : Nat) : Option JsonNumber :=
  let value : Int := if negative then -magnitude else magnitude
  match if negative ∧ magnitude = 0 then none else JsonNumber.ofInt? value with
  | some n => some n
  | none => (FiniteDouble.ofDecimal? negative magnitude 0).map .double

/-- A number and the text behind it. A leading zero stands alone. -/
def number? (text : Text) : Option (JsonNumber × Text) := do
  let (negative, text) := match text with
    | '-' :: rest => (true, rest)
    | rest => (false, rest)
  let whole := text.takeWhile Char.isDigit
  if whole.isEmpty || (whole.head? == some '0' && whole.length != 1) then none
  else
    let rest := text.dropWhile Char.isDigit
    let (fraction, rest) ← fraction? rest
    let hasFraction := !fraction.isEmpty
    let (exponent, rest) ← exponent? rest
    match hasFraction, exponent with
    | false, none => return (← wholeNumber? negative (digitsValue whole), rest)
    | _, exponent =>
      let x ← FiniteDouble.ofDecimal? negative (digitsValue (whole ++ fraction))
        (exponent.getD 0 - fraction.length)
      return (.double x, rest)

mutual
/-- A value and the text behind it. `depth` more lists and objects may open; each step of `fuel`
takes at least one character. -/
def value? : (fuel depth : Nat) → Text → Option (Json × Text)
  | 0, _, _ => none
  | fuel + 1, depth, text =>
    match skipBlanks text with
    | 'n' :: 'u' :: 'l' :: 'l' :: rest => some (.null, rest)
    | 't' :: 'r' :: 'u' :: 'e' :: rest => some (.bool true, rest)
    | 'f' :: 'a' :: 'l' :: 's' :: 'e' :: rest => some (.bool false, rest)
    | '"' :: rest => do
      let (chars, rest) ← string? rest
      return (.string (String.ofList chars), rest)
    | '[' :: rest =>
      if depth = 0 then none
      else match skipBlanks rest with
        | ']' :: rest => some (.array [], rest)
        | rest => do
          let (items, rest) ← items? fuel (depth - 1) rest
          return (.array items, rest)
    | '{' :: rest =>
      if depth = 0 then none
      else match skipBlanks rest with
        | '}' :: rest => some (.object [], rest)
        | rest => do
          let (fields, rest) ← fields? fuel (depth - 1) rest
          return (.ofFields fields, rest)
    | rest => do
      let (n, rest) ← number? rest
      return (.number n, rest)

def items? : (fuel depth : Nat) → Text → Option (List Json × Text)
  | 0, _, _ => none
  | fuel + 1, depth, text => do
    let (item, rest) ← value? fuel depth text
    match skipBlanks rest with
    | ']' :: rest => return ([item], rest)
    | ',' :: rest => do
      let (items, rest) ← items? fuel depth rest
      return (item :: items, rest)
    | _ => none

/-- One or more object fields up to the closing brace. -/
def fields? : (fuel depth : Nat) → Text → Option (List (String × Json) × Text)
  | 0, _, _ => none
  | fuel + 1, depth, text =>
    match skipBlanks text with
    | '"' :: rest => do
      let (key, rest) ← string? rest
      match skipBlanks rest with
      | ':' :: rest => do
        let (value, rest) ← value? fuel depth rest
        match skipBlanks rest with
        | '}' :: rest => return ([(String.ofList key, value)], rest)
        | ',' :: rest => do
          let (fields, rest) ← fields? fuel depth rest
          return ((String.ofList key, value) :: fields, rest)
        | _ => none
      | _ => none
    | _ => none
end

end Json.Reader

def Json.maxDepth : Nat := 127

/-- The JSON value that a text holds, blanks around it apart. A surrogate needs its partner, and a
number that overflows a double is no number. Where a key is repeated, the first place and the last
value count. -/
def Json.parse? (text : Text) : Option Json := do
  let (value, rest) ← Json.Reader.value? (2 * text.length + 2) Json.maxDepth text
  if (Json.Reader.skipBlanks rest).isEmpty then some value else none

end OData
