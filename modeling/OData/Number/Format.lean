import OData.Text
import OData.Number.Shortest

namespace OData

/-- The decisions of one way of writing doubles. -/
structure NumberFormat where
  /-- the scientific exponents that are written positionally -/
  positional : Int × Int
  /-- whether a whole number ends in `.0` when it is written positionally -/
  keepsFraction : Bool
  /-- whether zero keeps its sign -/
  keepsZeroSign : Bool
  /-- whether a positive exponent has a plus sign -/
  marksPlus : Bool
  tie : Tie

namespace NumberFormat

/-- Literals of the query language: `0.000001` to below `1e+21` positionally, no `.0`. -/
def literal : NumberFormat := ⟨(-6, 20), false, false, true, .up⟩

/-- JSON text: `0.00001` to below `1e+16` positionally, always with a fraction. -/
def json : NumberFormat := ⟨(-5, 15), true, true, true, .even⟩

/-- Diagnostic text: `0.0001` to below `1e16` positionally, always with a fraction. -/
def debug : NumberFormat := ⟨(-4, 15), true, true, false, .up⟩

/-- The digits with the point where a value of the given scientific exponent has it. -/
def positionalText (keepsFraction : Bool) (digits : Text) (scientific : Int) : Text :=
  if scientific < 0 then
    "0.".toList ++ List.replicate (-scientific - 1).toNat '0' ++ digits
  else
    let whole := scientific.toNat + 1
    if digits.length ≤ whole then
      digits ++ List.replicate (whole - digits.length) '0' ++
        (if keepsFraction then ".0".toList else [])
    else digits.take whole ++ '.' :: digits.drop whole

def scientificText (marksPlus : Bool) (digits : Text) (scientific : Int) : Text :=
  let mantissa := match digits with
    | first :: second :: rest => first :: '.' :: second :: rest
    | short => short
  mantissa ++ 'e' :: (if marksPlus ∧ 0 ≤ scientific then ['+'] else []) ++ Text.ofInt scientific

def finiteText (format : NumberFormat) (x : FiniteDouble) : Text :=
  if x.isZero then
    (if format.keepsZeroSign ∧ x.negative then ['-'] else []) ++
      (if format.keepsFraction then "0.0".toList else ['0'])
  else
    let decimal := x.shortest format.tie
    let digits := Text.ofNat decimal.digits
    let scientific := decimal.scientificExponent
    (if x.negative then ['-'] else []) ++
      (if format.positional.1 ≤ scientific ∧ scientific ≤ format.positional.2 then
        positionalText format.keepsFraction digits scientific
      else scientificText format.marksPlus digits scientific)

def text (format : NumberFormat) : Double → Text
  | .finite x => format.finiteText x
  | .infinite false => "inf".toList
  | .infinite true => "-inf".toList
  | .undefined => "NaN".toList

end NumberFormat

end OData
