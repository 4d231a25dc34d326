import OData.Text.Blank
import OData.Time.Duration
import OData.Time.HttpDate

namespace OData.Http

open OData.Time

-- Powers of numbers are those of the core library, whatever else is in scope.
attribute [local instance (high)] instPowNat

/-- The delay that a header value asks for. Seconds are a signed word of 64 bits; negative ones and
dates in the past ask for none. -/
def retryAfter? (now : SystemTime) (value : Text) : Option Duration :=
  let value := value.trimmed
  match Text.toInt? value with
  | some seconds =>
    if 0 ≤ seconds ∧ seconds < 2 ^ (63 : Nat) then some (.ofSeconds seconds.toNat) else none
  | none =>
    match HttpDate.parse? value with
    | some date => now.until? date
    | none => none

def isReadable (value : Text) : Bool :=
  value.all fun c => (32 ≤ c.toNat && c.toNat < 127) || c = '\t'

/-- Headers in order. Names are told apart without regard to case. -/
abbrev Headers := List (String × String)

def headerValue? (name : String) (headers : Headers) : Option String :=
  (headers.find? fun (key, _) => key.toList.map Char.toLower == name.toList).map (·.2)

def retryAfterOf? (now : SystemTime) (headers : Headers) : Option Duration := do
  let value ← headerValue? "retry-after" headers
  if isReadable value.toList then retryAfter? now value.toList else none

end OData.Http
