namespace OData

/-- Text under construction. Every text that the library emits is built piece by piece, so that a
statement about it can follow the pieces; it becomes a `String` only where it leaves the library. -/
abbrev Text := List Char

namespace Text

def join (separator : Text) : List Text → Text
  | [] => []
  | [piece] => piece
  | piece :: rest => piece ++ separator ++ join separator rest

def ofNat (n : Nat) : Text := Nat.toDigits 10 n

def ofInt : Int → Text
  | .ofNat n => ofNat n
  | .negSucc n => '-' :: ofNat (n + 1)

/-- The digits of `n`, filled with zeros on the left up to `width`. -/
def padded (width n : Nat) : Text :=
  let digits := ofNat n
  List.replicate (width - digits.length) '0' ++ digits

/-- What is left of `text` when `ending` is taken off its end. -/
def dropEnding? (ending text : Text) : Option Text :=
  if ending.isSuffixOf text then some (text.take (text.length - ending.length)) else none

/-- The first line of a text that is printed as lines. A carriage return belongs to the line end
behind it. -/
def firstLine (text : Text) : Text :=
  let line := text.takeWhile (· ≠ '\n')
  if line.getLast? = some '\r' then line.dropLast else line

/-- What is left of `text` when `beginning` is taken off its front. -/
def dropBeginning? : (beginning text : Text) → Option Text
  | [], text => some text
  | _ :: _, [] => none
  | b :: bs, c :: cs => if b = c then dropBeginning? bs cs else none

def contains (needle : Text) : Text → Bool
  | [] => needle.isEmpty
  | c :: cs => needle.isPrefixOf (c :: cs) || contains needle cs

/-- The text with `replacement` for every `pattern` in it that starts behind the `skip` characters
that are dropped first. -/
def replaceFrom (pattern replacement : Text) : (skip : Nat) → Text → Text
  | _, [] => []
  | skip + 1, _ :: cs => replaceFrom pattern replacement skip cs
  | 0, c :: cs =>
    if pattern.isPrefixOf (c :: cs) then
      replacement ++ replaceFrom pattern replacement (pattern.length - 1) cs
    else c :: replaceFrom pattern replacement 0 cs

/-- The text with `replacement` for every `pattern` in it, from the left and without overlaps. The
pattern is not empty. -/
def replace (pattern replacement text : Text) : Text := replaceFrom pattern replacement 0 text

end Text

/-- The kinds of value that messages tell apart; a list, an object and null are all `object`. -/
inductive TypeName
  | undefined
  | boolean
  | number
  | string
  | object
deriving DecidableEq, Repr

def TypeName.text : TypeName → Text
  | .undefined => "undefined".toList
  | .boolean => "boolean".toList
  | .number => "number".toList
  | .string => "string".toList
  | .object => "object".toList

end OData
