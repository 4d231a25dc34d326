namespace OData

-- Powers of numbers are those of the core library, whatever else is in scope.
attribute [local instance (high)] instPowNat

/-- A finite double, `± mantissa * 2 ^ exponent`, in the one form in which the mantissa fills its
53 bits unless the exponent is the least one. -/
structure FiniteDouble where
  negative : Bool
  mantissa : Nat
  exponent : Int
  canonical : mantissa < 2 ^ (53 : Nat) ∧ -1074 ≤ exponent ∧ exponent ≤ 971 ∧
    (2 ^ (52 : Nat) ≤ mantissa ∨ exponent = -1074)
deriving DecidableEq, Repr

/-- A double: finite, infinite, or the result of an operation that has none. -/
inductive Double
  | finite (value : FiniteDouble)
  | infinite (negative : Bool)
  | undefined
deriving DecidableEq, Repr

/-- `numerator / denominator` rounded to an integer, a tie to the even neighbour. -/
def roundHalfEven (numerator denominator : Nat) : Nat :=
  let quotient := numerator / denominator
  let twice := 2 * (numerator % denominator)
  if twice < denominator then quotient
  else if denominator < twice then quotient + 1
  else if quotient % 2 = 0 then quotient else quotient + 1

/-- The greatest `e` with `2 ^ e ≤ numerator / denominator`, both positive. -/
def floorLog2 (numerator denominator : Nat) : Int :=
  let estimate : Int := (numerator.log2 : Int) - denominator.log2
  let reached := if 0 ≤ estimate then denominator * 2 ^ estimate.toNat ≤ numerator
    else denominator ≤ numerator * 2 ^ (-estimate).toNat
  if reached then estimate else estimate - 1

namespace FiniteDouble

def zero (negative : Bool) : FiniteDouble := ⟨negative, 0, -1074, by decide⟩

def isZero (x : FiniteDouble) : Bool := x.mantissa == 0

def ratio (x : FiniteDouble) : Nat × Nat :=
  if 0 ≤ x.exponent then (x.mantissa * 2 ^ x.exponent.toNat, 1)
  else (x.mantissa, 2 ^ (-x.exponent).toNat)

/-- The double in canonical form, or nothing where its magnitude is too large. -/
def ofParts? (negative : Bool) (mantissa : Nat) (exponent : Int) : Option FiniteDouble :=
  if mantissa = 2 ^ (53 : Nat) then
    if h : exponent + 1 ≤ 971 ∧ -1074 ≤ exponent + 1 then
      some ⟨negative, 2 ^ (52 : Nat), exponent + 1, by omega⟩
    else none
  else if h : mantissa < 2 ^ (53 : Nat) ∧ -1074 ≤ exponent ∧ exponent ≤ 971 ∧
      (2 ^ (52 : Nat) ≤ mantissa ∨ exponent = -1074) then
    some ⟨negative, mantissa, exponent, h⟩
  else none

/-- The double nearest to `± numerator / denominator`, a tie to the even mantissa; nothing where
that is beyond the range. All arithmetic goes through it. -/
def ofRatio? (negative : Bool) (numerator denominator : Nat) : Option FiniteDouble :=
  if numerator = 0 then some (zero negative)
  else
    let exponent := max (floorLog2 numerator denominator - 52) (-1074)
    let mantissa :=
      if 0 ≤ exponent then roundHalfEven numerator (denominator * 2 ^ exponent.toNat)
      else roundHalfEven (numerator * 2 ^ (-exponent).toNat) denominator
    ofParts? negative mantissa exponent

def ofInt? (value : Int) : Option FiniteDouble := ofRatio? (decide (value < 0)) value.natAbs 1

/-- The double nearest to `± digits * 10 ^ exponent10`. Exponents far beyond the range of doubles
are settled without computing their power of ten. -/
def ofDecimal? (negative : Bool) (digits : Nat) (exponent10 : Int) : Option FiniteDouble :=
  if digits = 0 then some (zero negative)
  else
    let length : Int := (Nat.toDigits 10 digits).length
    if 400 < exponent10 + length then none
    else if exponent10 + length < -400 then some (zero negative)
    else if 0 ≤ exponent10 then ofRatio? negative (digits * 10 ^ exponent10.toNat) 1
    else ofRatio? negative digits (10 ^ (-exponent10).toNat)

/-- The integer that the double is, where it is one. -/
def toInt? (x : FiniteDouble) : Option Int :=
  let (numerator, denominator) := x.ratio
  if numerator % denominator = 0 then
    let magnitude : Int := (numerator / denominator : Nat)
    some (if x.negative then -magnitude else magnitude)
  else none

/-- Whether one magnitude is less than another. -/
def lessInMagnitude (x y : FiniteDouble) : Bool :=
  x.ratio.1 * y.ratio.2 < y.ratio.1 * x.ratio.2

end FiniteDouble

namespace Double

def zero : Double := .finite (.zero false)

def isFinite : Double → Bool
  | .finite _ => true
  | _ => false

/-- Whether the magnitude is positive: zeros of either sign and undefined values are not. -/
def isNonzero : Double → Bool
  | .finite x => !x.isZero
  | .infinite _ => true
  | .undefined => false

def ofRatio (negative : Bool) (numerator denominator : Nat) : Double :=
  match FiniteDouble.ofRatio? negative numerator denominator with
  | some x => .finite x
  | none => .infinite negative

def ofNat (n : Nat) : Double := ofRatio false n 1

/-- The rounded product. Zero times infinity is undefined. -/
def mul : Double → Double → Double
  | .finite x, .finite y =>
    ofRatio (x.negative != y.negative) (x.ratio.1 * y.ratio.1) (x.ratio.2 * y.ratio.2)
  | .infinite s, .finite y => if y.isZero then .undefined else .infinite (s != y.negative)
  | .finite x, .infinite s => if x.isZero then .undefined else .infinite (x.negative != s)
  | .infinite s, .infinite t => .infinite (s != t)
  | .undefined, _ => .undefined
  | _, .undefined => .undefined

/-- `base ^ exponent` by repeated squaring, from the lowest bit of the exponent up; each step
rounds. -/
def powFrom (accumulated base : Double) (exponent : Nat) : Double :=
  let accumulated := if exponent % 2 = 1 then accumulated.mul base else accumulated
  if h : exponent / 2 = 0 then accumulated
  else powFrom accumulated (base.mul base) (exponent / 2)
termination_by exponent
decreasing_by omega

def pow (base : Double) (exponent : Nat) : Double := powFrom (ofNat 1) base exponent

end Double

end OData
