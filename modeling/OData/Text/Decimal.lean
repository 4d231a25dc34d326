import OData.Text.Integer

namespace OData.Text

/-- The digits and the power of ten of a decimal number without a sign. There is a digit in front of
the point or behind it, and one behind the letter of an exponent. -/
def decimal? (text : Text) : Option (Nat × Int) := do
  let whole := text.takeWhile Char.isDigit
  let (fraction, tail) := match text.dropWhile Char.isDigit with
    | '.' :: rest => (rest.takeWhile Char.isDigit, rest.dropWhile Char.isDigit)
    | rest => ([], rest)
  let digits ← toNat? (whole ++ fraction)
  let exponent ← match tail with
    | [] => some 0
    | e :: exponent => if e = 'e' ∨ e = 'E' then toInt? exponent else none
  return (digits, exponent - fraction.length)

end OData.Text
