import OData.Client.Retry
import OData.Keyed

namespace OData

open OData.Time

-- Powers of numbers are those of the core library, whatever else is in scope.
attribute [local instance (high)] instPowNat

structure RetrySettings where
  minDelayMillis : Nat := 100
  maxDelayMillis : Nat := 10000
  maxAttempts : Nat := 3
deriving DecidableEq, Repr

namespace RetrySettings

def backoff (s : RetrySettings) : Backoff :=
  { initial := .ofMillis s.minDelayMillis, max := .ofMillis s.maxDelayMillis }

def policy (s : RetrySettings) : RetryPolicy where
  backoff := s.backoff
  maxAttempts := s.maxAttempts

def toJson (s : RetrySettings) : Json :=
  .object [("min_delay_ms", .ofInt s.minDelayMillis), ("max_delay_ms", .ofInt s.maxDelayMillis),
    ("max_attempts", .ofInt s.maxAttempts)]

/-- A natural number below a bound, or the default where there is no value. -/
def limit? (default bound : Nat) : Option Json → Option Nat
  | none => some default
  | some value =>
    match value.toNat? with
    | some n => if n < bound then some n else none
    | none => none

def ofFields? (fields : List (String × Json)) : Option RetrySettings := do
  let minDelayMillis ← limit? 100 (2 ^ (64 : Nat)) (fields.lookup "min_delay_ms")
  let maxDelayMillis ← limit? 10000 (2 ^ (64 : Nat)) (fields.lookup "max_delay_ms")
  let maxAttempts ← limit? 3 (2 ^ (32 : Nat)) (fields.lookup "max_attempts")
  return { minDelayMillis, maxDelayMillis, maxAttempts }

def ofJson? : Json → Option RetrySettings
  | .object fields => ofFields? fields
  | .array items =>
    let names := ["min_delay_ms", "max_delay_ms", "max_attempts"]
    if items.length ≤ names.length then ofFields? (names.zip items) else none
  | _ => none

end RetrySettings

/-- Settings that every request of a client shares. The maps by method are sorted by method. -/
structure ClientConfig where
  apiPrefix : String := "/"
  passthrough : Keyed Json := []
  passthroughByMethod : Keyed (Keyed Json) := []
  retry : Option RetrySettings := none

namespace ClientConfig

def toJson (c : ClientConfig) : Json :=
  .object [("api_prefix", .string c.apiPrefix), ("passthrough", .object c.passthrough),
    ("passthrough_by_method",
      .object (c.passthroughByMethod.map fun (method, fields) => (method, .object fields))),
    ("retry", match c.retry with
      | some settings => settings.toJson
      | none => .null)]

def fields? : Json → Option (Keyed Json)
  | .object fields => some fields
  | _ => none

def byMethod? : Json → Option (Keyed (Keyed Json))
  | .object methods => do
    let maps ← methods.mapM fun (method, value) => do return (method, ← fields? value)
    return Keyed.extendSorted [] maps
  | _ => none

/-- The settings that are given by fields. Absent fields take their defaults and unknown fields are
ignored; only `retry` may be null. -/
def ofFields? (fields : List (String × Json)) : Option ClientConfig := do
  let apiPrefix ← match fields.lookup "api_prefix" with
    | none => some "/"
    | some value => value.toString?
  let passthrough ← match fields.lookup "passthrough" with
    | none => some []
    | some value => fields? value
  let passthroughByMethod ← match fields.lookup "passthrough_by_method" with
    | none => some []
    | some value => byMethod? value
  let retry ← match fields.lookup "retry" with
    | none | some .null => some none
    | some value => some <$> RetrySettings.ofJson? value
  return { apiPrefix, passthrough, passthroughByMethod, retry }

def ofJson? : Json → Option ClientConfig
  | .object fields => ofFields? fields
  | .array items =>
    let names := ["api_prefix", "passthrough", "passthrough_by_method", "retry"]
    if items.length ≤ names.length then ofFields? (names.zip items) else none
  | _ => none

end ClientConfig

/-- Changes to the settings of a client. What is absent stays as it is; passthrough maps are merged
key by key. -/
structure ClientOverrides where
  apiPrefix : Option String := none
  passthrough : Option (Keyed Json) := none
  passthroughByMethod : Option (Keyed (Keyed Json)) := none
  retry : Option RetrySettings := none

/-- The settings with the changes made. A map by method is replaced as a whole. -/
def ClientConfig.override (config : ClientConfig) (changes : ClientOverrides) : ClientConfig where
  apiPrefix := changes.apiPrefix.getD config.apiPrefix
  passthrough := Keyed.extend config.passthrough (changes.passthrough.getD [])
  passthroughByMethod :=
    Keyed.extendSorted config.passthroughByMethod (changes.passthroughByMethod.getD [])
  retry := changes.retry.or config.retry

end OData
