import OData.Number.Format
import OData.Time.Duration

namespace OData

open OData.Time

-- Powers of numbers are those of the core library, whatever else is in scope.
attribute [local instance (high)] instPowNat

/-- How delays grow. Jitter adds up to a quarter to a delay, but never lifts it over the cap; the
least delay is taken here. -/
structure Backoff where
  initial : Duration := .ofMillis 100
  max : Duration := .ofSeconds 10
  multiplier : Double := .ofNat 2
  jitter : Bool := false
deriving DecidableEq, Repr

namespace Backoff

/-- Growth for impatient callers: from one millisecond to a tenth of a second. -/
def fast : Backoff := { initial := .ofMillis 1, max := .ofMillis 100 }

/-- The seconds of a span, the whole seconds and the fraction each rounded before they are added. -/
def seconds (d : Duration) : Double :=
  match Double.ofNat (d.nanos / 1000000000),
      Double.ofRatio false (d.nanos % 1000000000) 1000000000 with
  | .finite whole, .finite fraction =>
    .ofRatio false (whole.ratio.1 * fraction.ratio.2 + fraction.ratio.1 * whole.ratio.2)
      (whole.ratio.2 * fraction.ratio.2)
  | whole, _ => whole

/-- A span of so many seconds, to the nearest nanosecond. -/
def ofSeconds (x : FiniteDouble) : Duration :=
  ⟨roundHalfEven (x.ratio.1 * 1000000000) x.ratio.2⟩

def cap (b : Backoff) : FiniteDouble :=
  let day := (FiniteDouble.ofInt? 86400).getD (.zero false)
  match seconds b.max with
  | .finite x => if x.lessInMagnitude day then x else day
  | _ => day

/-- The factor between delays; one that is not finite or is negative counts as one. -/
def factor (b : Backoff) : Double :=
  match b.multiplier with
  | .finite x => if x.negative ∧ ¬ x.isZero then .ofNat 1 else .finite x
  | _ => .ofNat 1

/-- The delay after the failure number `retry`, from zero. Powers beyond `2 ^ 31 - 1` are not
taken. -/
def delay (b : Backoff) (retry : Nat) : Duration :=
  match (seconds b.initial).mul (b.factor.pow (min retry (2 ^ (31 : Nat) - 1))) with
  | .finite x => ofSeconds (if x.lessInMagnitude b.cap then x else b.cap)
  | _ => ofSeconds b.cap

def debugText (b : Backoff) : Text :=
  "ExponentialBackoff \x7b initial: ".toList ++ b.initial.debugText ++ ", max: ".toList ++
    b.max.debugText ++ ", multiplier: ".toList ++ NumberFormat.debug.text b.multiplier ++
    ", jitter: ".toList ++ (if b.jitter then "true" else "false").toList ++ " \x7d".toList

end Backoff

end OData
