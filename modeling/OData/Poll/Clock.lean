import OData.Client.Script
import OData.Poll.Basic

namespace OData

open OData.Time

/-- How far a conversation gets at one moment: to its end, or to a reply or a wait that takes
time. -/
inductive Progress (ρ α : Type)
  | finished (value : α)
  | suspended (due : Nat) (rest : Exchange ρ α)

/-- A conversation after it went on at one moment: what was sent and noted, how many replies were
used up, and how far it got. -/
structure Advanced (ρ α : Type) where
  events : List (Event ρ)
  used : Nat
  progress : Progress ρ α

/-- Lets a conversation go on without the clock moving. -/
def Exchange.advance {ρ α : Type} (script : Script) (clock used : Nat) :
    Exchange ρ α → Advanced ρ α
  | .done value => ⟨[], used, .finished value⟩
  | .note n next =>
    let rest := next.advance script clock used
    { rest with events := .noted n :: rest.events }
  | .send request next =>
    let reply := script used
    if reply.delay = 0 then
      let rest := (next reply.outcome).advance script clock (used + 1)
      { rest with events := .sent request :: rest.events }
    else ⟨[.sent request], used + 1, .suspended (clock + reply.delay) (next reply.outcome)⟩
  | .wait delay next =>
    if waitMillis delay = 0 then
      let rest := next.advance script clock used
      { rest with events := .waited delay :: rest.events }
    else ⟨[.waited delay], used, .suspended (clock + waitMillis delay) next⟩

structure PollAt (ρ α : Type) where
  poll : Poll ρ α
  moment : Moment

namespace PollAt

variable {ρ α : Type}

def ofEvent : Event ρ → Option (PollEvent ρ α)
  | .sent request => some (.sent request)
  | .noted note => some (.noted note)
  | .waited _ => none

/-- The phase of a loop whose wait may be over: it was woken, or its time is up and it was not told to
start again. -/
def awoken (state : PollAt ρ α) : LoopPhase ρ α → LoopPhase ρ α
  | .waiting deadline woken rescheduled =>
    if woken ∨ (deadline ≤ state.moment.clock ∧ ¬ rescheduled) then .ready
    else .waiting deadline woken rescheduled
  | phase => phase

def begun (state : PollAt ρ α) : LoopPhase ρ α → LoopPhase ρ α
  | .ready =>
    match state.poll.request with
    | some conversation => .requesting conversation
    | none => .ready
  | phase => phase

def resumed? (state : PollAt ρ α) :
    LoopPhase ρ α → Option (Exchange ρ (Except ClientError α))
  | .requesting rest => some rest
  | .suspended due rest => if due ≤ state.moment.clock then some rest else none
  | _ => none

def rest (state : PollAt ρ α) : LoopPhase ρ α :=
  .waiting (state.moment.clock + waitMillis state.poll.interval) false false

/-- What becomes of a loop that comes to a phase in which it has to wait. One that was stopped ends. -/
def holdUp (l : PollLoop ρ α) (phase : LoopPhase ρ α) : Option (PollLoop ρ α) :=
  if l.cancelled then none else some { l with phase }

/-- What becomes of a loop that cannot go on. One without a request ends, and a wait that was told to
starts again. -/
def heldUp (state : PollAt ρ α) (l : PollLoop ρ α) : LoopPhase ρ α → Option (PollLoop ρ α)
  | .ready => none
  | .waiting _ _ true => holdUp l state.rest
  | phase => holdUp l phase

/-- One loop, taken as far as it gets at this moment. A loop that was stopped does not go on behind a
wait, but it does go on with a request. -/
def settleLoop (script : Script) (state : PollAt ρ α) (l : PollLoop ρ α) :
    PollAt ρ α × List (PollEvent ρ α) × Option (PollLoop ρ α) :=
  let phase := if l.cancelled then l.phase else state.awoken l.phase
  let phase := state.begun phase
  match state.resumed? phase with
  | none => (state, [], state.heldUp l phase)
  | some conversation =>
    let advanced := conversation.advance script state.moment.clock state.moment.used
    let state := { state with moment := { state.moment with used := advanced.used } }
    let events := advanced.events.filterMap ofEvent
    match advanced.progress with
    | .suspended due rest => (state, events, holdUp l (.suspended due rest))
    | .finished outcome =>
      (state, events ++ state.poll.publish state.moment.clock outcome, holdUp l state.rest)

/-- Takes every loop as far as it gets at this moment. The clock only moves while everything
waits. -/
def settle (script : Script) (state : PollAt ρ α) : PollAt ρ α × List (PollEvent ρ α) :=
  let (state, events, loops) := state.poll.loops.foldl (fun (state, events, loops) l =>
    let (state, more, l) := state.settleLoop script l
    (state, events ++ more, loops ++ l.toList)) (state, [], [])
  ({ state with poll := { state.poll with loops := loops } }, events)

def nextDue? (state : PollAt ρ α) : Option Nat :=
  (state.poll.loops.filterMap fun l => match l.phase with
    | .suspended due _ => some due
    | .waiting deadline _ _ => some deadline
    | _ => none).min?

/-- Moves the clock on to `target`, from one due time to the next. Each step of `fuel` moves it by
at least a millisecond where intervals are positive. -/
def advanceTo (script : Script) (target : Nat) :
    (fuel : Nat) → PollAt ρ α → PollAt ρ α × List (PollEvent ρ α)
  | 0, state => ({ state with moment := { state.moment with clock := target } }, [])
  | fuel + 1, state =>
    match state.nextDue? with
    | some due =>
      if due ≤ target then
        let clock := max due state.moment.clock
        let moved := { state with moment := { state.moment with clock := clock } }
        let (settled, events) := moved.settle script
        let (last, more) := advanceTo script target fuel settled
        (last, events ++ more)
      else ({ state with moment := { state.moment with clock := target } }, [])
    | none => ({ state with moment := { state.moment with clock := target } }, [])

def pass (script : Script) (millis : Nat) (state : PollAt ρ α) :
    PollAt ρ α × List (PollEvent ρ α) :=
  state.advanceTo script (state.moment.clock + millis) (millis + 1)

def command (script : Script) (f : Poll ρ α → Poll ρ α) (state : PollAt ρ α) :
    PollAt ρ α × List (PollEvent ρ α) :=
  { state with poll := f state.poll }.settle script

end PollAt

end OData
