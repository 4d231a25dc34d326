import OData.Text

namespace OData.Time

-- Powers of numbers are those of the core library, whatever else is in scope.
attribute [local instance (high)] instPowNat

structure Duration where
  nanos : Nat
deriving DecidableEq, Repr

namespace Duration

def ofSeconds (seconds : Nat) : Duration := ⟨seconds * 1000000000⟩

def ofMillis (millis : Nat) : Duration := ⟨millis * 1000000⟩

def millis (d : Duration) : Nat := d.nanos / 1000000

/-- The least number of whole milliseconds that covers it. -/
def coveringMillis (d : Duration) : Nat := (d.nanos + 999999) / 1000000

def secondsText (d : Duration) : Text :=
  Text.ofNat (d.nanos / 1000000000) ++ '.' :: Text.padded 9 (d.nanos % 1000000000)

/-- `count / 10 ^ places` with no trailing zeros. -/
def fractionText (count places : Nat) : Text :=
  let whole := Text.ofNat (count / 10 ^ places)
  let fraction := Text.padded places (count % 10 ^ places)
  let kept := (fraction.reverse.dropWhile (· = '0')).reverse
  if places = 0 ∨ kept.isEmpty then whole else whole ++ '.' :: kept

def debugText (d : Duration) : Text :=
  if 1000000000 ≤ d.nanos then fractionText d.nanos 9 ++ ['s']
  else if 1000000 ≤ d.nanos then fractionText d.nanos 6 ++ "ms".toList
  else if 1000 ≤ d.nanos then fractionText d.nanos 3 ++ "µs".toList
  else fractionText d.nanos 0 ++ "ns".toList

end Duration

/-- A moment by the clock of the system, in nanoseconds since the start of 1970. -/
structure SystemTime where
  nanos : Int
deriving DecidableEq, Repr

/-- A number by itself counts seconds. -/
instance : Coe Int SystemTime := ⟨fun seconds => ⟨seconds * 1000000000⟩⟩

/-- The span from one moment to a later one. -/
def SystemTime.until? (now later : SystemTime) : Option Duration :=
  if now.nanos ≤ later.nanos then some ⟨(later.nanos - now.nanos).toNat⟩ else none

end OData.Time
