import OData.Client.Exchange

namespace OData

open OData.Time

-- Powers of numbers are those of the core library, whatever else is in scope.
attribute [local instance (high)] instPowNat

inductive Panic
  | message (text : String)
  | unexplained
deriving DecidableEq, Repr

def Panic.text : Panic → Text
  | .message text => text.toList
  | .unexplained => "unknown panic".toList

/-- A subscriber: it takes what is published and may panic over it. -/
structure Subscriber (α : Type) where
  id : Nat
  panics : α → Option Panic

/-- What a loop is doing: about to take the request, in the middle of it, held up in the middle of
it until a reply or a retry is due, or waiting for the next round. A waiting loop can be told to go
on at once or to start its wait again. -/
inductive LoopPhase (ρ α : Type)
  | ready
  | requesting (rest : Exchange ρ (Except ClientError α))
  | suspended (due : Nat) (rest : Exchange ρ (Except ClientError α))
  | waiting (deadline : Nat) (woken rescheduled : Bool)

structure PollLoop (ρ α : Type) where
  id : Nat
  cancelled : Bool
  phase : LoopPhase ρ α

/-- A poll: a request that is repeated, with subscribers to its data and to its errors. It has at
most one running loop; a loop that was stopped stays about, cancelled, until it gets to end. The
request is gone once the poll is destroyed. -/
structure Poll (ρ α : Type) where
  request : Option (Exchange ρ (Except ClientError α))
  interval : Duration
  data : List (Subscriber α) := []
  errors : List (Subscriber ClientError) := []
  lastSubscription : Nat := 0
  running : Option Nat := none
  loops : List (PollLoop ρ α) := []
  lastLoop : Nat := 0

inductive PollEvent (ρ α : Type)
  | sent (request : ρ)
  | noted (note : Note)
  | data (subscription : Nat) (clock : Nat) (payload : α)
  | error (subscription : Nat) (clock : Nat) (payload : ClientError)
  | panicked (ofData : Bool) (panic : Panic)

/-- The log record of a subscriber's panic. -/
def PollEvent.log? {ρ α : Type} : PollEvent ρ α → Option LogRecord
  | .panicked ofData panic => some {
      level := .error
      message := "Caught panic in poll subscriber".toList
      fields := [("event", .quoted (if ofData then "data" else "error").toList),
        ("panic", .quoted panic.text)] }
  | _ => none

def defaultPollInterval : Duration := .ofSeconds 10

namespace Poll

variable {ρ α : Type}

def isRunning (poll : Poll ρ α) : Bool := poll.running.isSome

/-- Starts a loop, unless one is running or the poll was destroyed. -/
def start (poll : Poll ρ α) : Poll ρ α :=
  if poll.running.isSome ∨ poll.request.isNone then poll
  else
    let id := poll.lastLoop + 1
    { poll with running := some id, lastLoop := id, loops := poll.loops ++ [⟨id, false, .ready⟩] }

/-- Cancels the running loop. -/
def stop (poll : Poll ρ α) : Poll ρ α :=
  match poll.running with
  | none => poll
  | some id =>
    { poll with
      running := none
      loops := poll.loops.map fun l => if l.id = id then { l with cancelled := true } else l }

/-- Stops for good: request and subscribers are given up. -/
def destroy (poll : Poll ρ α) : Poll ρ α :=
  { poll.stop with request := none, data := [], errors := [] }

/-- A poll that has started. It takes a runtime to run the loop. -/
def create (hasRuntime : Bool) (request : Exchange ρ (Except ClientError α))
    (interval : Duration) : Except ClientError (Poll ρ α) :=
  if hasRuntime then .ok (start { request := some request, interval := interval })
  else .error (.invalidParameters .noRuntime)

/-- The phase of a loop that is told something while it waits. -/
def signalled (signal : LoopPhase ρ α → LoopPhase ρ α) (poll : Poll ρ α) : Poll ρ α :=
  { poll with loops := poll.loops.map fun l => { l with phase := signal l.phase } }

/-- Changes the interval. A wait starts again with the new one. -/
def setInterval (interval : Duration) (poll : Poll ρ α) : Poll ρ α :=
  signalled (fun
    | .waiting deadline woken _ => .waiting deadline woken true
    | phase => phase) { poll with interval := interval }

/-- Ends a wait. Without one there is no effect. -/
def runNow (poll : Poll ρ α) : Poll ρ α :=
  poll.signalled fun
    | .waiting deadline _ rescheduled => .waiting deadline true rescheduled
    | phase => phase

/-- The number of the next subscription, a word of 64 bits. -/
def nextSubscription (poll : Poll ρ α) : Nat := (poll.lastSubscription + 1) % 2 ^ (64 : Nat)

/-- Adds a subscriber to data. The number of the subscription is `lastSubscription` after it. -/
def onData (panics : α → Option Panic) (poll : Poll ρ α) : Poll ρ α :=
  let id := poll.nextSubscription
  { poll with lastSubscription := id, data := poll.data ++ [⟨id, panics⟩] }

def onError (panics : ClientError → Option Panic) (poll : Poll ρ α) : Poll ρ α :=
  let id := poll.nextSubscription
  { poll with lastSubscription := id, errors := poll.errors ++ [⟨id, panics⟩] }

/-- Removes a subscriber, wherever it is. -/
def unsubscribe (id : Nat) (poll : Poll ρ α) : Poll ρ α :=
  { poll with
    data := poll.data.filter (·.id ≠ id)
    errors := poll.errors.filter (·.id ≠ id) }

/-- What the subscribers make of an outcome, in the order of their subscriptions. A panic holds up
nobody else. -/
def publish (poll : Poll ρ α) (clock : Nat) (outcome : Except ClientError α) :
    List (PollEvent ρ α) :=
  match outcome with
  | .ok value => poll.data.flatMap fun s =>
      .data s.id clock value :: ((s.panics value).map (.panicked true)).toList
  | .error error => poll.errors.flatMap fun s =>
      .error s.id clock error :: ((s.panics error).map (.panicked false)).toList

def debugText (poll : Poll ρ α) : Text :=
  "Poll \x7b interval: ".toList ++ poll.interval.debugText ++ ", running: ".toList ++
    (if poll.isRunning then "true" else "false").toList ++ ", .. \x7d".toList

def subscriptionText (id : Nat) : Text :=
  "Subscription \x7b id: ".toList ++ Text.ofNat id ++ ", .. \x7d".toList

end Poll

end OData
