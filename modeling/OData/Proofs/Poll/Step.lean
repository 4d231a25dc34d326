import Mathlib
import OData.Poll.Clock

namespace OData

open OData.Time

variable {ρ α : Type}

/-- A call of a poll. To drop a poll is to stop it. -/
inductive PollCall (α : Type)
  | start
  | stop
  | destroy
  | runNow
  | setInterval (interval : Duration)
  | onData (panics : α → Option Panic)
  | onError (panics : ClientError → Option Panic)
  | unsubscribe (subscription : Nat)

/-- Whether a call adds a subscriber, and then whether it is one to data. -/
def PollCall.registers? : PollCall α → Option Bool
  | .onData _ => some true
  | .onError _ => some false
  | _ => none

/-- What a loop does up to its next selection. -/
inductive LoopMove (ρ α : Type)
  | began
  | wentOn (events : List (PollEvent ρ α))
  | finished (events : List (PollEvent ρ α)) (outcome : Except ClientError α)
      (deliveries : List (PollEvent ρ α))
  | awoke
  | restarted
  | ended

/-- Something that happens to a poll. -/
inductive Happening (ρ α : Type)
  | called (call : PollCall α)
  | passed (millis : Nat)
  | moved (loop : Nat) (move : LoopMove ρ α)

/-- What can be observed while it happens. -/
def Happening.events : Happening ρ α → List (PollEvent ρ α)
  | .moved _ (.wentOn events) => events
  | .moved _ (.finished events _ deliveries) => events ++ deliveries
  | _ => []

def Happening.registers? : Happening ρ α → Option Bool
  | .called call => call.registers?
  | _ => none

/-- The outcome that reaches a subscriber, and through which subscription. -/
def PollEvent.delivery? : PollEvent ρ α → Option (Nat × Except ClientError α)
  | .data subscription _ value => some (subscription, .ok value)
  | .error subscription _ failure => some (subscription, .error failure)
  | _ => none

namespace Poll

/-- The numbers of the subscribers to data, or to errors. -/
def subscribers (poll : Poll ρ α) (toData : Bool) : List Nat :=
  if toData then poll.data.map Subscriber.id else poll.errors.map Subscriber.id

/-- A poll after a call. -/
def perform (poll : Poll ρ α) : PollCall α → Poll ρ α
  | .start => poll.start
  | .stop => poll.stop
  | .destroy => poll.destroy
  | .runNow => poll.runNow
  | .setInterval interval => poll.setInterval interval
  | .onData panics => poll.onData panics
  | .onError panics => poll.onError panics
  | .unsubscribe subscription => poll.unsubscribe subscription

/-- A publication notifies the subscribers of its kind, in their order. -/
theorem deliveries_publish (poll : Poll ρ α) (clock : Nat) (outcome : Except ClientError α) :
    (poll.publish clock outcome : List (PollEvent ρ α)).filterMap PollEvent.delivery? =
      (poll.subscribers outcome.isOk).map (·, outcome) := by
  have notified {β : Type} (subscribers : List (Subscriber β)) (event : Nat → PollEvent ρ α)
      (ofData : Bool) (payload : β) (own : ∀ id, (event id).delivery? = some (id, outcome)) :
      (subscribers.flatMap fun s => event s.id ::
        ((s.panics payload).map (PollEvent.panicked ofData)).toList).filterMap PollEvent.delivery? =
      (subscribers.map Subscriber.id).map (·, outcome) := by
    induction subscribers with
    | nil => rfl
    | cons s rest ih =>
      have panic : ((s.panics payload).map (PollEvent.panicked (ρ := ρ) (α := α) ofData)).toList.filterMap
          PollEvent.delivery? = [] := by
        cases s.panics payload <;> rfl
      rw [List.flatMap_cons, List.filterMap_append, ih, List.filterMap_cons_some (own s.id), panic]
      rfl
  cases outcome with
  | ok value => exact notified poll.data (.data · clock value) true value fun _ => rfl
  | error error => exact notified poll.errors (.error · clock error) false error fun _ => rfl

variable (poll : Poll ρ α)

theorem start_cases :
    poll.start = poll ∨ poll.running = none ∧ poll.request ≠ none ∧
      poll.start = { poll with
        running := some (poll.lastLoop + 1), lastLoop := poll.lastLoop + 1
        loops := poll.loops ++ [⟨poll.lastLoop + 1, false, .ready⟩] } := by
  rw [start]
  split
  · exact Or.inl rfl
  · next idle =>
    obtain ⟨stopped, requested⟩ := not_or.mp idle
    exact Or.inr ⟨Option.not_isSome_iff_eq_none.mp stopped,
      fun gone => requested (Option.isNone_iff_eq_none.mpr gone), rfl⟩

@[simp] theorem start_interval : poll.start.interval = poll.interval := by
  rcases poll.start_cases with same | ⟨-, -, started⟩
  · rw [same]
  · rw [started]

@[simp] theorem start_data : poll.start.data = poll.data := by
  rcases poll.start_cases with same | ⟨-, -, started⟩
  · rw [same]
  · rw [started]

@[simp] theorem start_errors : poll.start.errors = poll.errors := by
  rcases poll.start_cases with same | ⟨-, -, started⟩
  · rw [same]
  · rw [started]

@[simp] theorem start_lastSubscription : poll.start.lastSubscription = poll.lastSubscription := by
  rcases poll.start_cases with same | ⟨-, -, started⟩
  · rw [same]
  · rw [started]

theorem start_of_requestless (gone : poll.request = none) : poll.start = poll :=
  poll.start_cases.resolve_right fun started => started.2.1 gone

def afterStop (l : PollLoop ρ α) : PollLoop ρ α :=
  if poll.running = some l.id then { l with cancelled := true } else l

@[simp] theorem afterStop_id (l : PollLoop ρ α) : (poll.afterStop l).id = l.id := by
  unfold afterStop
  split <;> rfl

@[simp] theorem afterStop_phase (l : PollLoop ρ α) : (poll.afterStop l).phase = l.phase := by
  unfold afterStop
  split <;> rfl

/-- A stop touches the running loop and nothing else. -/
theorem stop_eq :
    poll.stop = { poll with running := none, loops := poll.loops.map poll.afterStop } := by
  obtain ⟨request, interval, data, errors, lastSubscription, running, loops, lastLoop⟩ := poll
  unfold stop afterStop
  cases running with
  | none => simp only [reduceCtorEq, if_false, List.map_id']
  | some id => simp only [Option.some.injEq, eq_comm]

@[simp] theorem stop_loops : poll.stop.loops = poll.loops.map poll.afterStop := by rw [stop_eq]

@[simp] theorem stop_running : poll.stop.running = none := by rw [stop_eq]

@[simp] theorem stop_request : poll.stop.request = poll.request := by rw [stop_eq]

@[simp] theorem stop_interval : poll.stop.interval = poll.interval := by rw [stop_eq]

@[simp] theorem stop_data : poll.stop.data = poll.data := by rw [stop_eq]

@[simp] theorem stop_errors : poll.stop.errors = poll.errors := by rw [stop_eq]

@[simp] theorem stop_lastSubscription : poll.stop.lastSubscription = poll.lastSubscription := by
  rw [stop_eq]

@[simp] theorem stop_lastLoop : poll.stop.lastLoop = poll.lastLoop := by rw [stop_eq]

end Poll

/-- In this phase there is something to go on with at a time, whether the loop was stopped or not. -/
def LoopPhase.CanGoOn (clock : Nat) : LoopPhase ρ α → Prop
  | .ready | .requesting _ => True
  | .suspended due _ => due ≤ clock
  | .waiting deadline woken _ => deadline ≤ clock ∨ woken = true

/-- The phase of a loop after a call of the poll. -/
def LoopPhase.told : PollCall α → LoopPhase ρ α → LoopPhase ρ α
  | .runNow, .waiting deadline _ rescheduled => .waiting deadline true rescheduled
  | .setInterval _, .waiting deadline woken _ => .waiting deadline woken true
  | _, phase => phase

theorem LoopPhase.told_of_busy {phase : LoopPhase ρ α}
    (busy : ∀ deadline woken rescheduled, phase ≠ .waiting deadline woken rescheduled)
    (call : PollCall α) : phase.told call = phase := by
  cases phase with
  | waiting deadline woken rescheduled => exact absurd rfl (busy deadline woken rescheduled)
  | ready | requesting _ | suspended _ _ => cases call <;> rfl

/-- What a call makes of the loops. A start may make the next one; otherwise a call leaves their
numbers alone and tells something to those that wait. -/
theorem Poll.perform_loops (poll : Poll ρ α) (call : PollCall α) :
    (call = .start ∧ (poll.perform call).lastLoop = poll.lastLoop + 1 ∧
      (poll.perform call).loops = poll.loops ++ [⟨poll.lastLoop + 1, false, .ready⟩]) ∨
    ((poll.perform call).lastLoop = poll.lastLoop ∧
      ∃ change, (poll.perform call).loops = poll.loops.map change ∧
        ∀ l, (change l).id = l.id ∧ (change l).phase = l.phase.told call) := by
  cases call with
  | start =>
    rcases poll.start_cases with same | ⟨-, -, started⟩
    · exact Or.inr ⟨congrArg lastLoop same, id, by rw [perform, same, List.map_id],
        fun l => ⟨rfl, rfl⟩⟩
    · exact Or.inl ⟨rfl, congrArg lastLoop started, congrArg loops started⟩
  | stop | destroy =>
    exact Or.inr ⟨poll.stop_lastLoop, poll.afterStop, poll.stop_loops,
      fun l => ⟨poll.afterStop_id l, poll.afterStop_phase l⟩⟩
  | runNow | setInterval interval =>
    refine Or.inr ⟨rfl, _, rfl, fun l => ⟨rfl, ?_⟩⟩
    dsimp only
    cases l.phase <;> rfl
  | onData panics | onError panics | unsubscribe subscription =>
    exact Or.inr ⟨rfl, id, (List.map_id _).symm, fun l => ⟨rfl, rfl⟩⟩

theorem Poll.perform_of_mem {poll : Poll ρ α} {l : PollLoop ρ α} (among : l ∈ poll.loops)
    (call : PollCall α) :
    ∃ left ∈ (poll.perform call).loops, left.id = l.id ∧ left.phase = l.phase.told call := by
  rcases poll.perform_loops call with ⟨rfl, -, added⟩ | ⟨-, change, changed, keeps⟩
  · exact ⟨l, added ▸ List.mem_append_left _ among, rfl, rfl⟩
  · exact ⟨change l, changed ▸ List.mem_map_of_mem among, keeps l⟩

/-- A number that is not given yet stays so, or it is the number of the loop that is made. -/
theorem Poll.perform_of_future {poll : Poll ρ α} {id : Nat} (above : poll.lastLoop < id)
    (call : PollCall α) :
    (poll.perform call).lastLoop < id ∨
      ∃ l ∈ (poll.perform call).loops, l.id = id ∧ l.phase = .ready := by
  rcases poll.perform_loops call with ⟨-, next, added⟩ | ⟨same, -⟩
  · rcases Nat.lt_or_ge (poll.lastLoop + 1) id with later | now
    · exact Or.inl (next ▸ later)
    · exact Or.inr ⟨⟨poll.lastLoop + 1, false, .ready⟩,
        added ▸ List.mem_append_right _ (List.mem_singleton_self _), Nat.le_antisymm above now, rfl⟩
  · exact Or.inl (same ▸ above)

/-- The number of a loop that has ended is not given again. -/
theorem Poll.perform_of_gone {poll : Poll ρ α} {id : Nat} (below : id ≤ poll.lastLoop)
    (absent : ∀ l ∈ poll.loops, l.id ≠ id) (call : PollCall α) :
    id ≤ (poll.perform call).lastLoop ∧ ∀ l ∈ (poll.perform call).loops, l.id ≠ id := by
  rcases poll.perform_loops call with ⟨-, next, added⟩ | ⟨same, change, changed, keeps⟩
  · refine ⟨next ▸ below.trans (Nat.le_succ _), fun l listed => ?_⟩
    rcases List.mem_append.mp (added ▸ listed) with old | new
    · exact absent l old
    · rw [List.mem_singleton.mp new]
      exact (Nat.lt_succ_of_le below).ne'
  · refine ⟨same ▸ below, fun l listed => ?_⟩
    obtain ⟨old, among, rfl⟩ := List.mem_map.mp (changed ▸ listed)
    exact (keeps old).1.trans_ne (absent old among)

/-- What becomes of a loop that comes to a selection. Where only its cancellation is there, it ends;
otherwise it may stay for another branch. -/
inductive Arrives (clock : Nat) (l : PollLoop ρ α) (phase : LoopPhase ρ α) :
    Option (PollLoop ρ α) → Prop
  | stays (another : l.cancelled = true → phase.CanGoOn clock) :
      Arrives clock l phase (some { l with phase })
  | ends (stopped : l.cancelled = true) : Arrives clock l phase none

namespace PollAt

/-- A move of a loop from one selection to the next, with the number of replies that were used up
after it and with what becomes of the loop. It selects among its cancellation and what it waits
for, and where several of these are there it may take any. -/
inductive LoopStep (script : Script) (state : PollAt ρ α) (l : PollLoop ρ α) :
    LoopMove ρ α → Nat → Option (PollLoop ρ α) → Prop
  | requestless (about : l.phase = .ready) (gone : state.poll.request = none) :
      LoopStep script state l .ended state.moment.used none
  | begins {conversation : Exchange ρ (Except ClientError α)} (about : l.phase = .ready)
      (taken : state.poll.request = some conversation) :
      LoopStep script state l .began state.moment.used
        (some { l with phase := .requesting conversation })
  | goesOn {conversation : Exchange ρ (Except ClientError α)} {events : List (Event ρ)}
      {used due : Nat} {rest : Exchange ρ (Except ClientError α)} {after : Option (PollLoop ρ α)}
      (resumed : state.resumed? l.phase = some conversation)
      (advanced : conversation.advance script state.moment.clock state.moment.used =
        ⟨events, used, .suspended due rest⟩)
      (arrives : Arrives state.moment.clock l (.suspended due rest) after) :
      LoopStep script state l (.wentOn (events.filterMap ofEvent)) used after
  /-- The publication is one step. On several threads the subscribers are copied first and notified one after
  the other, and a call can be made in between: a `destroy` may return before the last of them is notified. -/
  | finishes {conversation : Exchange ρ (Except ClientError α)} {events : List (Event ρ)}
      {used : Nat} {outcome : Except ClientError α} {after : Option (PollLoop ρ α)}
      (resumed : state.resumed? l.phase = some conversation)
      (advanced : conversation.advance script state.moment.clock state.moment.used =
        ⟨events, used, .finished outcome⟩)
      (arrives : Arrives state.moment.clock l state.rest after) :
      LoopStep script state l (.finished (events.filterMap ofEvent) outcome
        (state.poll.publish state.moment.clock outcome)) used after
  | awakes {deadline : Nat} {woken rescheduled : Bool}
      (waits : l.phase = .waiting deadline woken rescheduled)
      (ready : deadline ≤ state.moment.clock ∨ woken = true) :
      LoopStep script state l .awoke state.moment.used (some { l with phase := .ready })
  | restarts {deadline : Nat} {woken : Bool} {after : Option (PollLoop ρ α)}
      (told : l.phase = .waiting deadline woken true)
      (arrives : Arrives state.moment.clock l state.rest after) :
      LoopStep script state l .restarted state.moment.used after
  | cancels (selecting : l.phase ≠ .ready) (stopped : l.cancelled = true) :
      LoopStep script state l .ended state.moment.used none

/-- One step of a poll and the world around it. Calls come at any time, time passes as it likes,
and any loop may be the next one to move. -/
inductive Step (script : Script) (state : PollAt ρ α) : Happening ρ α → PollAt ρ α → Prop
  | call (call : PollCall α) :
      Step script state (.called call) { state with poll := state.poll.perform call }
  | pass (millis : Nat) :
      Step script state (.passed millis)
        { state with moment := { state.moment with clock := state.moment.clock + millis } }
  | move {before rest : List (PollLoop ρ α)} {l : PollLoop ρ α} {move : LoopMove ρ α} {used : Nat}
      {after : Option (PollLoop ρ α)} (among : state.poll.loops = before ++ l :: rest)
      (moves : LoopStep script state l move used after) :
      Step script state (.moved l.id move)
        ⟨{ state.poll with loops := before ++ after.toList ++ rest },
          { state.moment with used := used }⟩

/-- What happens from one state to another, step by step. -/
inductive Run (script : Script) : PollAt ρ α → List (Happening ρ α) → PollAt ρ α → Prop
  | refl (state : PollAt ρ α) : Run script state [] state
  | step {state next last : PollAt ρ α} {happening : Happening ρ α} {trace : List (Happening ρ α)}
      (first : Step script state happening next) (rest : Run script next trace last) :
      Run script state (happening :: trace) last

/-- What happens in a conversation reaches no subscriber. -/
theorem delivery?_of_ofEvent {event : Event ρ} {shown : PollEvent ρ α}
    (kept : ofEvent event = some shown) : shown.delivery? = none := by
  cases event <;> cases kept <;> rfl

variable {script : Script} {state middle last : PollAt ρ α} {trace more : List (Happening ρ α)}

theorem Run.append (first : Run script state trace middle) (second : Run script middle more last) :
    Run script state (trace ++ more) last := by
  induction first with
  | refl state => exact second
  | step happens _ ih => exact .step happens (ih second)

theorem Run.split (run : Run script state (trace ++ more) last) :
    ∃ middle, Run script state trace middle ∧ Run script middle more last := by
  induction trace generalizing state with
  | nil => exact ⟨state, .refl state, run⟩
  | cons happening trace ih =>
    cases run with
    | step happens rest =>
      obtain ⟨middle, first, second⟩ := ih rest
      exact ⟨middle, .step happens first, second⟩

/-- What every state reached has follows from what a step keeps. -/
theorem Run.induction {property : PollAt ρ α → Prop} (run : Run script state trace last)
    (holds : property state)
    (keeps : ∀ {state next happening}, Step script state happening next → property state →
      property next) : property last := by
  induction run with
  | refl state => exact holds
  | step happens _ ih => exact ih (keeps happens holds)

end PollAt

end OData
