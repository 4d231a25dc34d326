import OData.Client.Error
import OData.Deprecation
import OData.Log

namespace OData

open OData.Time

-- Powers of numbers are those of the core library, whatever else is in scope.
attribute [local instance (high)] instPowNat

inductive Note
  | deprecated (deprecation : Deprecation)
  | retrying (attempt maxAttempts : Nat) (delay : Duration) (error : ClientError)
  | retryObserved (attempt : Nat) (delay : Duration) (error : ClientError)

/-- The log record of a retry. The milliseconds of the delay are a word of 64 bits. -/
def Note.retryLog? : Note → Option LogRecord
  | .retrying attempt maxAttempts delay error => some {
      level := .debug
      message := "Retrying request after error".toList
      fields := [("attempt", .number attempt), ("max_attempts", .number maxAttempts),
        ("delay_ms", .number (min delay.millis (2 ^ (64 : Nat) - 1))), ("error", .plain error.text)] }
  | _ => none

/-- A conversation over requests of one kind, as data: what is sent, what is done with the reply,
how long to wait in between, what is noted on the way, and the value at its end. It can be played on
a script of replies, or go on step by step on a clock, or be abandoned at any point. -/
inductive Exchange (ρ α : Type)
  | done (value : α)
  | note (note : Note) (next : Exchange ρ α)
  | send (request : ρ) (next : Except ClientError Json → Exchange ρ α)
  | wait (delay : Duration) (next : Exchange ρ α)

namespace Exchange

variable {ρ α β : Type}

/-- One conversation after another. -/
def bind : Exchange ρ α → (α → Exchange ρ β) → Exchange ρ β
  | .done value, f => f value
  | .note n next, f => .note n (next.bind f)
  | .send request next, f => .send request fun reply => (next reply).bind f
  | .wait delay next, f => .wait delay (next.bind f)

instance : Monad (Exchange ρ) where
  pure := .done
  bind := bind

def ask (request : ρ) : Exchange ρ (Except ClientError Json) := .send request .done

/-- Notes the reports of a compilation and ends with its outcome. -/
def ofCompilation (c : Compilation α) : Exchange ρ (Except ClientError α) :=
  c.reports.foldr (fun report next => .note (.deprecated report) next)
    (.done (c.outcome.mapError .compile))

end Exchange

/-- A conversation that may fail. -/
abbrev Session (ρ α : Type) := ExceptT ClientError (Exchange ρ) α

end OData
