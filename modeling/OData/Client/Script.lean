import OData.Client.Exchange

namespace OData

open OData.Time

-- Powers of numbers are those of the core library, whatever else is in scope.
attribute [local instance (high)] instPowNat

/-- How many milliseconds a wait takes. The clock counts seconds as a signed word of 64 bits; a wait
that goes beyond it takes thirty years. -/
def waitMillis (delay : Duration) : Nat :=
  if delay.nanos < (2 ^ (63 : Nat) - 1) * 1000000000 then delay.coveringMillis else 946080000000

/-- A reply of the transport and how many milliseconds it takes. -/
structure Reply where
  outcome : Except ClientError Json
  delay : Nat := 0

/-- A script of replies in the order of the requests. -/
abbrev Script := Nat → Reply

inductive Event (ρ : Type)
  | sent (request : ρ)
  | noted (note : Note)
  | waited (delay : Duration)

/-- The time in milliseconds, and how many replies were used up. -/
structure Moment where
  clock : Nat := 0
  used : Nat := 0
deriving DecidableEq, Repr

structure Played (ρ α : Type) where
  value : α
  events : List (Event ρ)
  after : Moment

namespace Exchange

variable {ρ α : Type}

/-- Plays a conversation from a moment on. A wait ends at the first whole millisecond at which its
time is over. -/
def play (script : Script) (moment : Moment) : Exchange ρ α → Played ρ α
  | .done value => ⟨value, [], moment⟩
  | .note n next =>
    let rest := next.play script moment
    { rest with events := .noted n :: rest.events }
  | .send request next =>
    let reply := script moment.used
    let rest := (next reply.outcome).play script ⟨moment.clock + reply.delay, moment.used + 1⟩
    { rest with events := .sent request :: rest.events }
  | .wait delay next =>
    let rest := next.play script { moment with clock := moment.clock + waitMillis delay }
    { rest with events := .waited delay :: rest.events }

end Exchange

def Event.requests {ρ : Type} (events : List (Event ρ)) : List ρ :=
  events.filterMap fun
    | .sent request => some request
    | _ => none

def Event.notes {ρ : Type} (events : List (Event ρ)) : List Note :=
  events.filterMap fun
    | .noted note => some note
    | _ => none

def Event.deprecations {ρ : Type} (events : List (Event ρ)) : List Deprecation :=
  (Event.notes events).filterMap fun
    | .deprecated deprecation => some deprecation
    | _ => none

end OData
