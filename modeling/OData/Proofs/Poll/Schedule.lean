import Mathlib
import OData.Proofs.Poll.Loops
import OData.Proofs.Poll.Rounds
import OData.Proofs.Poll.Settling
import OData.Proofs.Poll.Silence

namespace OData

open OData.Time

-- Powers of numbers are those of the core library, whatever else is in scope.
attribute [local instance (high)] instPowNat

variable {ρ α : Type}

/-- The request that is sent in an event. -/
def PollEvent.request? : PollEvent ρ α → Option ρ
  | .sent request => some request
  | _ => none

namespace PollAt

/-- Carries out a call at its time. -/
def carryOut (script : Script) (planned : PlannedCall α) (state : PollAt ρ α) :
    PollAt ρ α × List (PollEvent ρ α) :=
  let (reached, events) := state.pass script (planned.time - state.moment.clock)
  let (told, more) := reached.command script (·.perform planned.call)
  (told, events ++ more)

/-- Follows a poll until a time of the clock. The calls up to then are carried out. -/
def follow (script : Script) (horizon : Nat) :
    List (PlannedCall α) → PollAt ρ α → PollAt ρ α × List (PollEvent ρ α)
  | [], state => state.pass script (horizon - state.moment.clock)
  | planned :: later, state =>
    if planned.time ≤ horizon then
      let (told, events) := state.carryOut script planned
      let (last, more) := told.follow script horizon later
      (last, events ++ more)
    else state.pass script (horizon - state.moment.clock)

/-- The requests that are sent from a moment on until a time of the clock. Some calls come before the loop
gets to run for the first time. -/
def requestsUntil (script : Script) (early : List (PollCall α)) (calls : List (PlannedCall α))
    (horizon : Nat) (state : PollAt ρ α) : List ρ :=
  let (settled, events) := settle script { state with poll := early.foldl Poll.perform state.poll }
  (events ++ (settled.follow script horizon calls).2).filterMap PollEvent.request?

end PollAt

/-- A loop in this phase goes on at a time to come and not before. -/
def LoopPhase.Ahead (clock : Nat) : LoopPhase ρ α → Prop
  | .suspended due _ => clock < due
  | .waiting deadline woken rescheduled => clock < deadline ∧ woken = false ∧ rescheduled = false
  | .ready | .requesting _ => False

/-- A poll that has its request, an interval that takes time, and one loop, which is in this phase. -/
structure Poll.Live (request : Exchange ρ (Except ClientError α)) (phase : LoopPhase ρ α)
    (poll : Poll ρ α) : Prop where
  requested : poll.request = some request
  running : poll.running.isSome = true
  takesTime : 0 < waitMillis poll.interval
  alone : ∃ id, poll.loops = [⟨id, false, phase⟩]

namespace Poll

variable {request : Exchange ρ (Except ClientError α)} {phase : LoopPhase ρ α} {poll : Poll ρ α}

theorem live_of_create {hasRuntime : Bool} {interval : Duration}
    (created : Poll.create hasRuntime request interval = .ok poll) (takesTime : 0 < waitMillis interval) :
    poll.Live request .ready ∧ poll.interval = interval := by
  obtain rfl := eq_of_create created
  exact ⟨⟨rfl, rfl, takesTime, ⟨1, rfl⟩⟩, rfl⟩

/-- A call that does not stop a poll tells its loop something, and that is all. -/
theorem Live.perform (live : poll.Live request phase) (call : PollCall α) (steady : call.Steady) :
    (poll.perform call).Live request (phase.told call) ∧
      (poll.perform call).interval = call.inForce poll.interval := by
  obtain ⟨requested, running, takesTime, id, alone⟩ := live
  have told : (poll.signalled (LoopPhase.told call)).loops = [⟨id, false, phase.told call⟩] := by
    rw [signalled, alone]
    rfl
  cases call with
  | start =>
    have same : poll.start = poll := poll.start_cases.resolve_right fun started => by
      rw [started.1] at running
      cases running
    rw [Poll.perform, same]
    exact ⟨⟨requested, running, takesTime, id, alone⟩, rfl⟩
  | stop | destroy => exact steady.elim
  | runNow | setInterval interval =>
    refine ⟨⟨requested, running, steady.takesTime takesTime, id, ?_⟩, rfl⟩
    rw [← told]
    refine congrArg (poll.loops.map ·) (funext fun l => ?_)
    cases l.phase <;> rfl
  | onData panics | onError panics | unsubscribe subscription =>
    exact ⟨⟨requested, running, takesTime, id, alone⟩, rfl⟩

end Poll

namespace PollAt

variable {request : Exchange ρ (Except ClientError α)} {script : Script} {state : PollAt ρ α}
  {phase : LoopPhase ρ α} {planned : PlannedCall α} {calls later middle : List (PlannedCall α)}

theorem requests_ofEvent (events : List (Event ρ)) :
    (events.filterMap (ofEvent (α := α))).filterMap PollEvent.request? = Event.requests events := by
  rw [List.filterMap_filterMap, Event.requests]
  refine List.filterMap_congr fun event _ => ?_
  cases event <;> rfl

theorem requests_publish (poll : Poll ρ α) (clock : Nat) (outcome : Except ClientError α) :
    (poll.publish clock outcome : List (PollEvent ρ α)).filterMap PollEvent.request? = [] := by
  have silent (ofData : Bool) (panic : Option Panic) :
      (panic.map (PollEvent.panicked (ρ := ρ) (α := α) ofData)).toList.filterMap PollEvent.request? =
        [] := by
    cases panic <;> rfl
  cases outcome with
  | ok value =>
    rw [Poll.publish, List.filterMap_flatMap]
    exact List.flatMap_eq_nil_iff.mpr fun s _ => silent true (s.panics value)
  | error error =>
    rw [Poll.publish, List.filterMap_flatMap]
    exact List.flatMap_eq_nil_iff.mpr fun s _ => silent false (s.panics error)

/-- A poll whose only loop waits in this phase for a time to come. -/
structure Awaits (request : Exchange ρ (Except ClientError α)) (phase : LoopPhase ρ α)
    (state : PollAt ρ α) : Prop where
  live : state.poll.Live request phase
  ahead : phase.Ahead state.moment.clock

section Upcoming

variable (request : Exchange ρ (Except ClientError α)) (script : Script)

/-- What is sent from the middle of a request on: the rest of it, and what is sent in the rounds behind. -/
def upcomingWithin (conversation : Exchange ρ (Except ClientError α)) (calls : List (PlannedCall α))
    (moment : Moment) (interval : Duration) (count : Nat) : List (Nat × ρ) :=
  conversation.sendings script moment ++
    (PollRound.behindRequest (conversation.play script moment).after interval calls).sendings request
      script count

/-- What is sent from now on if the loop waits in this phase, with the rest of a request and a number of
rounds. -/
def upcoming (state : PollAt ρ α) (calls : List (PlannedCall α)) (count : Nat) :
    LoopPhase ρ α → List (Nat × ρ)
  | .suspended due rest =>
    upcomingWithin request script rest calls ⟨due, state.moment.used⟩ state.poll.interval count
  | .waiting deadline _ _ =>
    (PollRound.behindWait state.moment.used deadline state.poll.interval calls).sendings request script
      count
  | .ready | .requesting _ => []

/-- What was announced is kept: the first part of it was sent by now, and the rest is what is
sent from now on with the calls that are left. At any time one loop waits, so this can be told
from its phase; moving the clock on and carrying out a call keep it. -/
def Keeps (announced : Nat → List (Nat × ρ)) (left : List (PlannedCall α))
    (outcome : PollAt ρ α × List (PollEvent ρ α)) : Prop :=
  ∃ phase, outcome.1.Awaits request phase ∧ ∃ sent rounds,
    outcome.2.filterMap PollEvent.request? = sent.map Prod.snd ∧
      (∀ sending ∈ sent, sending.1 ≤ outcome.1.moment.clock) ∧
      ∀ count, announced (count + rounds) = sent ++ outcome.1.upcoming request script left count phase

end Upcoming

theorem Keeps.trans {announced : Nat → List (Nat × ρ)} {reached last : PollAt ρ α × List (PollEvent ρ α)}
    (first : Keeps request script announced middle reached)
    (second : ∀ phase, reached.1.Awaits request phase →
      Keeps request script (reached.1.upcoming request script middle · phase) later last)
    (onward : reached.1.moment.clock ≤ last.1.moment.clock) :
    Keeps request script announced later (last.1, reached.2 ++ last.2) := by
  obtain ⟨phase, awaits, sent, rounds, requests, past, kept⟩ := first
  obtain ⟨phase, awaits, next, further, nextRequests, nextPast, nextKept⟩ := second phase awaits
  refine ⟨phase, awaits, sent ++ next, further + rounds, ?_, ?_, fun count => ?_⟩
  · rw [List.filterMap_append, List.map_append]
    exact congrArg₂ (· ++ ·) requests nextRequests
  · exact List.forall_mem_append.mpr ⟨fun sending among => (past sending among).trans onward, nextPast⟩
  · rw [← Nat.add_assoc, kept, List.append_assoc]
    exact congrArg (sent ++ ·) (nextKept count)

/-- What was announced is kept by what is sent at one moment and what is ahead then. -/
theorem Awaits.keeps_sent {announced : Nat → List (Nat × ρ)} {requests : List ρ}
    {outcome : PollAt ρ α × List (PollEvent ρ α)} (awaits : outcome.1.Awaits request phase)
    (sent : outcome.2.filterMap PollEvent.request? = requests)
    (kept : ∀ count, announced count = requests.map (outcome.1.moment.clock, ·) ++
      outcome.1.upcoming request script later count phase) :
    Keeps request script announced later outcome := by
  refine ⟨phase, awaits, requests.map (outcome.1.moment.clock, ·), 0, ?_, ?_, kept⟩
  · rw [sent, List.map_map]
    exact (List.map_id _).symm
  · exact List.forall_mem_map.mpr fun _ _ => le_rfl

theorem Awaits.keeps {announced : Nat → List (Nat × ρ)} (awaits : state.Awaits request phase)
    (same : ∀ count, announced count = state.upcoming request script later count phase) :
    Keeps request script announced later (state, []) :=
  Awaits.keeps_sent awaits rfl same

theorem settle_alone {l : PollLoop ρ α} (alone : state.poll.loops = [l]) :
    state.settle script = ((state.settleLoop script l).1.withLoops (state.settleLoop script l).2.2.toList,
      (state.settleLoop script l).2.1) := by
  rw [settle, alone]
  rfl

section Resumed

variable {id used due : Nat} {events : List (Event ρ)} {outcome : Except ClientError α}
  {conversation rest : Exchange ρ (Except ClientError α)}

theorem settle_suspended (alone : state.poll.loops = [⟨id, false, phase⟩])
    (resumed : state.resumed? (state.begun (state.awoken phase)) = some conversation)
    (advanced : conversation.advance script state.moment.clock state.moment.used =
      ⟨events, used, .suspended due rest⟩) :
    state.settle script = (withLoops { state with moment := { state.moment with used := used } }
      [⟨id, false, .suspended due rest⟩], events.filterMap ofEvent) := by
  rw [settle_alone alone, settleLoop]
  simp only [Bool.false_eq_true, if_false, resumed, advanced]
  rfl

theorem settle_finished (alone : state.poll.loops = [⟨id, false, phase⟩])
    (resumed : state.resumed? (state.begun (state.awoken phase)) = some conversation)
    (advanced : conversation.advance script state.moment.clock state.moment.used =
      ⟨events, used, .finished outcome⟩) :
    state.settle script = (withLoops { state with moment := { state.moment with used := used } }
      [⟨id, false, state.rest⟩],
        events.filterMap ofEvent ++ state.poll.publish state.moment.clock outcome) := by
  rw [settle_alone alone, settleLoop]
  simp only [Bool.false_eq_true, if_false, resumed, advanced]
  rfl

variable (script) in
/-- A request that goes on at a moment is sent as far as it gets, and the rest is ahead. -/
theorem settle_resumed (live : state.poll.Live request phase)
    (resumed : state.resumed? (state.begun (state.awoken phase)) = some conversation)
    (undisturbed : ∀ planned ∈ calls, state.moment.clock ≤ planned.time) :
    Keeps request script
      (upcomingWithin request script conversation calls state.moment state.poll.interval) calls
      (state.settle script) := by
  obtain ⟨requested, running, takesTime, id, alone⟩ := live
  obtain ⟨sendings, after⟩ := conversation.advance_spec script state.moment.clock state.moment.used
  rcases advanced : conversation.advance script state.moment.clock state.moment.used with
    ⟨events, used, outcome | ⟨due, rest⟩⟩
  · rw [advanced] at sendings after
    rw [settle_finished alone resumed advanced]
    have sent : (events.filterMap ofEvent ++
        state.poll.publish state.moment.clock outcome).filterMap PollEvent.request? =
          Event.requests events := by
      rw [List.filterMap_append, requests_ofEvent, requests_publish, List.append_nil]
    refine Awaits.keeps_sent ⟨⟨requested, running, takesTime, id, rfl⟩, ?_, rfl, rfl⟩ sent fun count => ?_
    · exact Nat.lt_add_of_pos_right takesTime
    · have waits : PollRound.behindRequest ⟨state.moment.clock, used⟩ state.poll.interval calls = _ :=
        PollRound.behindRequest_undisturbed undisturbed
      rw [upcomingWithin, sendings, after]
      exact congrArg₂ (· ++ ·) (List.append_nil _) (congrArg (·.sendings request script count) waits)
  · rw [advanced] at sendings after
    rw [settle_suspended alone resumed advanced]
    refine Awaits.keeps_sent ⟨⟨requested, running, takesTime, id, rfl⟩, ?_⟩ (requests_ofEvent events)
      fun count => ?_
    · exact Exchange.clock_lt_due (congrArg Advanced.progress advanced)
    · rw [upcomingWithin, sendings, after, List.append_assoc]
      rfl

end Resumed

variable (script) in
theorem settle_awoken (live : state.poll.Live request phase) (wakes : state.awoken phase = .ready)
    (undisturbed : ∀ planned ∈ calls, state.moment.clock ≤ planned.time) :
    Keeps request script (PollRound.sendings request script · ⟨state.moment, state.poll.interval, calls⟩)
      calls (state.settle script) := by
  have resumed : state.resumed? (state.begun (state.awoken phase)) = some request := by
    rw [wakes, begun, live.requested]
    rfl
  obtain ⟨phase, awaits, sent, rounds, requests, past, kept⟩ :=
    settle_resumed script live resumed undisturbed
  exact ⟨phase, awaits, sent, rounds + 1, requests, past, kept⟩

theorem Awaits.settle (awaits : state.Awaits request phase) : state.settle script = (state, []) := by
  obtain ⟨⟨-, -, -, id, alone⟩, ahead⟩ := awaits
  have same : state.withLoops [⟨id, false, phase⟩] = state := by rw [← alone]; rfl
  rw [settle_alone alone, settleLoop]
  cases phase with
  | ready | requesting rest => exact ahead.elim
  | suspended due rest =>
    have heldUp : state.resumed? (.suspended due rest) = none := if_neg ahead.not_ge
    simp only [Bool.false_eq_true, if_false, awoken, begun, heldUp]
    exact congrArg (·, []) same
  | waiting deadline woken rescheduled =>
    obtain ⟨toCome, rfl, rfl⟩ := ahead
    have waits : state.awoken (.waiting deadline false false) = .waiting deadline false false :=
      if_neg fun ready => ready.elim Bool.false_ne_true fun due => due.1.not_gt toCome
    simp only [Bool.false_eq_true, if_false, waits, begun, resumed?]
    exact congrArg (·, []) same

variable (script) in
theorem settle_rescheduled {deadline : Nat} (live : state.poll.Live request (.waiting deadline false true)) :
    ∃ id, state.settle script = (state.withLoops [⟨id, false, state.rest⟩], []) := by
  obtain ⟨-, -, -, id, alone⟩ := live
  have waits : state.awoken (.waiting deadline false true) = .waiting deadline false true :=
    if_neg fun ready => ready.elim Bool.false_ne_true fun due => due.2 rfl
  refine ⟨id, ?_⟩
  rw [settle_alone alone, settleLoop]
  simp only [Bool.false_eq_true, if_false, waits, begun, resumed?]
  rfl

def atClock (state : PollAt ρ α) (clock : Nat) : PollAt ρ α :=
  { state with moment := { state.moment with clock := clock } }

variable (script) in
/-- The loop of a poll waits for the next time at which something is due. Before it nothing changes, and then
what is ahead is kept. -/
theorem Awaits.due (awaits : state.Awaits request phase) :
    ∃ due, state.nextDue? = some due ∧ state.moment.clock < due ∧
      (∀ clock < due, (state.atClock clock).Awaits request phase) ∧
      ∀ calls : List (PlannedCall α), (∀ planned ∈ calls, due ≤ planned.time) →
        Keeps request script (state.upcoming request script calls · phase) calls
          ((state.atClock due).settle script) := by
  obtain ⟨⟨requested, running, takesTime, id, alone⟩, ahead⟩ := awaits
  have live (clock : Nat) : (state.atClock clock).poll.Live request phase :=
    ⟨requested, running, takesTime, id, alone⟩
  cases phase with
  | ready | requesting rest => exact ahead.elim
  | suspended due rest =>
    refine ⟨due, by rw [nextDue?, alone]; rfl, ahead, fun clock before => ⟨live clock, before⟩,
      fun calls undisturbed => ?_⟩
    exact settle_resumed script (live due) (if_pos le_rfl) undisturbed
  | waiting deadline woken rescheduled =>
    obtain ⟨toCome, rfl, rfl⟩ := ahead
    refine ⟨deadline, by rw [nextDue?, alone]; rfl, toCome,
      fun clock before => ⟨live clock, before, rfl, rfl⟩, fun calls undisturbed => ?_⟩
    have wakes : (state.atClock deadline).awoken (.waiting deadline false false) = .ready :=
      if_pos (Or.inr ⟨le_rfl, nofun⟩)
    have begins : (state.upcoming request script calls · (.waiting deadline false false)) = _ :=
      funext fun count => congrArg (·.sendings request script count)
        (PollRound.behindWait_undisturbed undisturbed)
    rw [begins]
    exact settle_awoken script (live deadline) wakes undisturbed

theorem advanceTo_clock (script : Script) (target fuel : Nat) (state : PollAt ρ α) :
    (state.advanceTo script target fuel).1.moment.clock = target := by
  induction fuel generalizing state with
  | zero => rfl
  | succ fuel ih =>
    rw [advanceTo]
    split
    · split
      · exact ih _
      · rfl
    · rfl

theorem Awaits.advanceTo (awaits : state.Awaits request phase) {target : Nat} (fuel : Nat)
    (later : state.moment.clock ≤ target) (enough : target < state.moment.clock + fuel)
    (undisturbed : ∀ planned ∈ calls, target ≤ planned.time) :
    Keeps request script (state.upcoming request script calls · phase) calls
      (state.advanceTo script target fuel) := by
  induction fuel generalizing state phase with
  | zero => exact absurd later enough.not_ge
  | succ fuel ih =>
    obtain ⟨due, waits, toCome, before, reached⟩ := awaits.due script
    have moves : state.advanceTo script target (fuel + 1) =
        if due ≤ target then
          let settled := (state.atClock due).settle script
          let last := settled.1.advanceTo script target fuel
          (last.1, settled.2 ++ last.2)
        else (state.atClock target, []) := by
      rw [PollAt.advanceTo, waits]
      dsimp only
      rw [Nat.max_eq_left toCome.le]
      rfl
    rw [moves]
    split
    · next soon =>
      have clock : ((state.atClock due).settle script).1.moment.clock = due :=
        (settle_leads script (state.atClock due)).1
      refine (reached calls fun planned among => soon.trans (undisturbed planned among)).trans
        (fun phase awaits => ih awaits ?_ ?_) ?_
      · exact clock.trans_le soon
      · rw [clock]
        omega
      · rw [clock, advanceTo_clock]
        exact soon
    · next far => exact (before target (Nat.lt_of_not_le far)).keeps fun count => by cases phase <;> rfl

theorem pass_clock (script : Script) {target : Nat} (later : state.moment.clock ≤ target) :
    (state.pass script (target - state.moment.clock)).1.moment.clock = target := by
  rw [pass, advanceTo_clock, Nat.add_sub_cancel' later]

theorem Awaits.pass (awaits : state.Awaits request phase) {target : Nat}
    (later : state.moment.clock ≤ target) (undisturbed : ∀ planned ∈ calls, target ≤ planned.time) :
    Keeps request script (state.upcoming request script calls · phase) calls
      (state.pass script (target - state.moment.clock)) := by
  rw [PollAt.pass, Nat.add_sub_cancel' later]
  exact awaits.advanceTo _ later (by omega) undisturbed

variable (script) in
theorem Awaits.command_untold {call : PollCall α} (awaits : state.Awaits request phase)
    (steady : call.Steady) (untold : phase.told call = phase) :
    state.command script (·.perform call) = ({ state with poll := state.poll.perform call }, []) ∧
      Awaits request phase { state with poll := state.poll.perform call } := by
  have told := (awaits.live.perform _ steady).1
  rw [untold] at told
  have still : Awaits request phase { state with poll := state.poll.perform call } :=
    ⟨told, awaits.ahead⟩
  exact ⟨still.settle, still⟩

theorem Awaits.command_inFlight {due : Nat} {rest : Exchange ρ (Except ClientError α)}
    (awaits : state.Awaits request (.suspended due rest)) (steady : planned.call.Steady)
    (now : planned.time = state.moment.clock) :
    Keeps request script (state.upcoming request script (planned :: later) · (.suspended due rest)) later
      (state.command script (·.perform planned.call)) := by
  have untold : LoopPhase.told planned.call (.suspended due rest) = .suspended due rest := by
    cases planned.call <;> rfl
  obtain ⟨settled, still⟩ := awaits.command_untold script steady untold
  rw [settled]
  refine still.keeps fun count => ?_
  have inFlight : planned.time < (rest.play script ⟨due, state.moment.used⟩).after.clock := by
    rw [now]
    exact awaits.ahead.trans_le (rest.clock_le_after script ⟨due, state.moment.used⟩)
  rw [upcoming, upcoming, upcomingWithin, upcomingWithin, PollRound.behindRequest_cons inFlight,
    (awaits.live.perform _ steady).2]

theorem Awaits.runNow {deadline : Nat} (awaits : state.Awaits request (.waiting deadline false false))
    (undisturbed : ∀ other ∈ later, state.moment.clock ≤ other.time) :
    Keeps request script
      (state.upcoming request script (⟨state.moment.clock, .runNow⟩ :: later) · (.waiting deadline false false))
      later (state.command script (·.perform .runNow)) := by
  have told := (awaits.live.perform .runNow trivial).1
  have wakes : awoken { state with poll := state.poll.perform .runNow } (.waiting deadline true false) =
      .ready := by
    rw [awoken, if_pos (Or.inl rfl)]
  have ends : PollRound.behindWait state.moment.used deadline state.poll.interval
      (⟨state.moment.clock, .runNow⟩ :: later) = ⟨state.moment, state.poll.interval, later⟩ :=
    if_neg awaits.ahead.1.not_ge
  have begins : (state.upcoming request script (⟨state.moment.clock, .runNow⟩ :: later) ·
      (.waiting deadline false false)) = _ :=
    funext fun count => congrArg (·.sendings request script count) ends
  rw [begins]
  show Keeps request script _ later (PollAt.settle script { state with poll := state.poll.perform .runNow })
  exact settle_awoken script told wakes undisturbed

theorem Awaits.setInterval {deadline : Nat} {interval : Duration}
    (awaits : state.Awaits request (.waiting deadline false false)) (takesTime : 0 < waitMillis interval) :
    Keeps request script (state.upcoming request script
        (⟨state.moment.clock, .setInterval interval⟩ :: later) · (.waiting deadline false false))
      later (state.command script (·.perform (.setInterval interval))) := by
  have told := (awaits.live.perform (.setInterval interval) takesTime).1
  obtain ⟨id, settled⟩ : ∃ id, state.command script (·.perform (.setInterval interval)) =
      (withLoops { state with poll := state.poll.perform (.setInterval interval) } [⟨id, false,
        rest { state with poll := state.poll.perform (.setInterval interval) }⟩], []) :=
    settle_rescheduled script told
  rw [settled]
  refine Awaits.keeps ⟨⟨told.requested, told.running, told.takesTime, id, rfl⟩, ?_, rfl, rfl⟩
    fun count => ?_
  · exact Nat.lt_add_of_pos_right takesTime
  · have again : PollRound.behindWait state.moment.used deadline state.poll.interval
        (⟨state.moment.clock, .setInterval interval⟩ :: later) = PollRound.behindWait state.moment.used
          (state.moment.clock + waitMillis interval) interval later :=
      if_neg awaits.ahead.1.not_ge
    exact congrArg (·.sendings request script count) again

/-- Carrying out a call keeps what is ahead. -/
theorem Awaits.command (awaits : state.Awaits request phase) (steady : planned.call.Steady)
    (now : planned.time = state.moment.clock)
    (undisturbed : ∀ other ∈ later, state.moment.clock ≤ other.time) :
    Keeps request script (state.upcoming request script (planned :: later) · phase) later
      (state.command script (·.perform planned.call)) := by
  cases phase with
  | ready | requesting rest => exact awaits.ahead.elim
  | suspended due rest => exact awaits.command_inFlight steady now
  | waiting deadline woken rescheduled =>
    obtain ⟨toCome, rfl, rfl⟩ := awaits.ahead
    obtain ⟨time, call⟩ := planned
    obtain rfl : time = state.moment.clock := now
    have untaken (untold : LoopPhase.told call (.waiting deadline false false) =
          (.waiting deadline false false : LoopPhase ρ α))
        (same : call.inForce state.poll.interval = state.poll.interval)
        (goesOn : PollRound.behindWait state.moment.used deadline state.poll.interval
            (⟨state.moment.clock, call⟩ :: later) =
          PollRound.behindWait state.moment.used deadline state.poll.interval later) :
        Keeps request script (state.upcoming request script (⟨state.moment.clock, call⟩ :: later) ·
          (.waiting deadline false false)) later (state.command script (·.perform call)) := by
      obtain ⟨settled, still⟩ := awaits.command_untold script steady untold
      rw [settled]
      refine still.keeps fun count => ?_
      rw [upcoming, upcoming, goesOn, (awaits.live.perform _ steady).2, same]
    cases call with
    | runNow => exact awaits.runNow undisturbed
    | setInterval interval => exact awaits.setInterval steady
    | stop | destroy => exact steady.elim
    | start | onData panics | onError panics | unsubscribe subscription =>
      exact untaken rfl rfl (if_neg toCome.not_ge)

theorem command_clock (script : Script) (f : Poll ρ α → Poll ρ α) (state : PollAt ρ α) :
    (state.command script f).1.moment.clock = state.moment.clock :=
  (settle_leads script { state with poll := f state.poll }).1

theorem carryOut_clock (script : Script) (planned : PlannedCall α) (state : PollAt ρ α) :
    (state.carryOut script planned).1.moment.clock = max state.moment.clock planned.time := by
  have told : (state.carryOut script planned).1.moment.clock =
      (state.pass script (planned.time - state.moment.clock)).1.moment.clock :=
    command_clock script (·.perform planned.call) _
  rw [told, pass, advanceTo_clock]
  omega

theorem Awaits.carryOut (awaits : state.Awaits request phase) (steady : planned.call.Steady)
    (toCome : state.moment.clock ≤ planned.time) (undisturbed : ∀ other ∈ later, planned.time ≤ other.time) :
    Keeps request script (state.upcoming request script (planned :: later) · phase) later
      (state.carryOut script planned) := by
  have reaches : Keeps request script (state.upcoming request script (planned :: later) · phase)
      (planned :: later) (state.pass script (planned.time - state.moment.clock)) :=
    awaits.pass toCome (List.forall_mem_cons.mpr ⟨le_rfl, undisturbed⟩)
  have clock := pass_clock script toCome
  refine reaches.trans (fun phase awaits => awaits.command steady clock.symm ?_) ?_
  · exact fun other among => clock.trans_le (undisturbed other among)
  · exact (command_clock script _ _).ge

theorem follow_clock (script : Script) {horizon : Nat} (calls : List (PlannedCall α)) {state : PollAt ρ α}
    (later : state.moment.clock ≤ horizon) :
    (state.follow script horizon calls).1.moment.clock = horizon := by
  induction calls generalizing state with
  | nil => exact pass_clock script later
  | cons planned rest ih =>
    rw [follow]
    split
    · next soon => exact ih ((carryOut_clock script planned state).trans_le (Nat.max_le.mpr ⟨later, soon⟩))
    · exact pass_clock script later

/-- Following a poll keeps what is ahead. Only calls beyond the horizon are left. -/
theorem Awaits.follow (awaits : state.Awaits request phase) {horizon : Nat}
    (later : state.moment.clock ≤ horizon) (steady : ∀ planned ∈ calls, planned.call.Steady)
    (ordered : calls.Pairwise (·.time ≤ ·.time))
    (undisturbed : ∀ planned ∈ calls, state.moment.clock ≤ planned.time) :
    Keeps request script (state.upcoming request script calls · phase)
      (calls.filter (horizon < ·.time)) (state.follow script horizon calls) := by
  induction calls generalizing state phase with
  | nil => exact awaits.pass later nofun
  | cons planned rest ih =>
    obtain ⟨first, orderedRest⟩ := List.pairwise_cons.mp ordered
    obtain ⟨steadyNow, steadyRest⟩ := List.forall_mem_cons.mp steady
    have toCome := undisturbed planned (List.mem_cons_self ..)
    rw [PollAt.follow]
    split
    · next soon =>
      have done : ¬ decide (horizon < planned.time) = true := by
        rw [decide_eq_true_iff]
        exact soon.not_gt
      have clock : (state.carryOut script planned).1.moment.clock = planned.time :=
        (carryOut_clock script planned state).trans (Nat.max_eq_right toCome)
      have reached := clock.trans_le soon
      rw [List.filter_cons, if_neg done]
      refine (awaits.carryOut steadyNow toCome first).trans (fun phase awaits => ?_) ?_
      · exact ih awaits reached steadyRest orderedRest fun other among =>
          clock.trans_le (first other among)
      · exact reached.trans (follow_clock script rest reached).ge
    · next far =>
      have beyond : ∀ other ∈ planned :: rest, horizon < other.time :=
        List.forall_mem_cons.mpr ⟨Nat.lt_of_not_le far, fun other among =>
          (Nat.lt_of_not_le far).trans_le (first other among)⟩
      rw [List.filter_eq_self.mpr fun other among => decide_eq_true (beyond other among)]
      exact awaits.pass later fun other among => (beyond other among).le

/-- What is ahead is sent later than now, where all calls that are left come later. -/
theorem Awaits.lt_of_mem_upcoming (awaits : state.Awaits request phase)
    (behind : ∀ planned ∈ calls, state.moment.clock < planned.time) (count : Nat) :
    ∀ sending ∈ state.upcoming request script calls count phase, state.moment.clock < sending.1 := by
  intro sending among
  cases phase with
  | ready | requesting rest => exact awaits.ahead.elim
  | suspended due rest =>
    rcases List.mem_append.mp among with within | next
    · exact awaits.ahead.trans_le (rest.clock_le_of_mem_sendings script _ sending within)
    · have completes := awaits.ahead.trans_le (rest.clock_le_after script ⟨due, state.moment.used⟩)
      exact (PollRound.behind_behindRequest completes behind).lt_of_mem_sendings count sending next
  | waiting deadline woken rescheduled =>
    exact (PollRound.behind_behindWait awaits.ahead.1 behind).lt_of_mem_sendings count sending among

/-- What was sent by the time is what was announced up to it. -/
theorem Keeps.requests_eq {announced : Nat → List (Nat × ρ)}
    {outcome : PollAt ρ α × List (PollEvent ρ α)} (keeps : Keeps request script announced later outcome)
    (behind : ∀ planned ∈ later, outcome.1.moment.clock < planned.time) :
    ∃ enough, ∀ count ≥ enough, outcome.2.filterMap PollEvent.request? =
      ((announced count).filter (·.1 ≤ outcome.1.moment.clock)).map Prod.snd := by
  obtain ⟨phase, awaits, sent, rounds, requests, past, kept⟩ := keeps
  refine ⟨rounds, fun count enough => ?_⟩
  obtain ⟨more, rfl⟩ := Nat.exists_eq_add_of_le' enough
  have passed : sent.filter (·.1 ≤ outcome.1.moment.clock) = sent :=
    List.filter_eq_self.mpr fun sending among => decide_eq_true (past sending among)
  have ahead : (outcome.1.upcoming request script later more phase).filter
      (·.1 ≤ outcome.1.moment.clock) = [] :=
    List.filter_eq_nil_iff.mpr fun sending among => by
      rw [decide_eq_true_iff]
      exact (awaits.lt_of_mem_upcoming behind more sending among).not_ge
  rw [kept, List.filter_append, passed, ahead, List.append_nil, requests]

/-- Calls that come before the loop gets to run. -/
theorem live_of_early {poll : Poll ρ α} (live : poll.Live request .ready) {early : List (PollCall α)}
    (steady : ∀ call ∈ early, call.Steady) :
    (early.foldl Poll.perform poll).Live request .ready ∧
      (early.foldl Poll.perform poll).interval = early.foldl PollCall.inForce poll.interval := by
  induction early generalizing poll with
  | nil => exact ⟨live, rfl⟩
  | cons call early ih =>
    obtain ⟨steadyNow, steadyRest⟩ := List.forall_mem_cons.mp steady
    obtain ⟨told, inForce⟩ := live.perform call steadyNow
    have ready : LoopPhase.told call (.ready : LoopPhase ρ α) = .ready := by cases call <;> rfl
    rw [ready] at told
    rw [List.foldl_cons, List.foldl_cons, ← inForce]
    exact ih told steadyRest

/-- When the requests of a poll are sent. Until any time of the clock they are those of its rounds up to that
time: the first round starts with the poll, and the next one starts behind the request of the one before and a
wait, whatever becomes of the request and whoever gets its outcome. A wait of whole milliseconds takes just as
long. -/
theorem requests_on_schedule {hasRuntime : Bool} {request : Exchange ρ (Except ClientError α)}
    {interval : Duration} {poll : Poll ρ α} (created : Poll.create hasRuntime request interval = .ok poll)
    (script : Script) (start : Moment) (early : List (PollCall α)) (calls : List (PlannedCall α))
    (horizon : Nat) (takesTime : 0 < waitMillis interval)
    (steady : ∀ call ∈ early ++ calls.map PlannedCall.call, call.Steady)
    (ordered : calls.Pairwise (·.time ≤ ·.time)) (behind : ∀ planned ∈ calls, start.clock ≤ planned.time)
    (later : start.clock ≤ horizon) :
    (∀ millis < 2 ^ (64 : Nat), waitMillis (.ofMillis millis) = millis) ∧
      ∃ enough, ∀ count ≥ enough, requestsUntil script early calls horizon ⟨poll, start⟩ =
        ((PollRound.sendings request script count
          ⟨start, early.foldl PollCall.inForce interval, calls⟩).filter (·.1 ≤ horizon)).map Prod.snd := by
  refine ⟨fun millis word => waitMillis_ofMillis word, ?_⟩
  obtain ⟨live, asked⟩ := Poll.live_of_create created takesTime
  obtain ⟨steadyEarly, steadyCalls⟩ := List.forall_mem_append.mp steady
  obtain ⟨ready, inForce⟩ := live_of_early live steadyEarly
  have begins : Keeps request script (PollRound.sendings request script · ⟨start,
      (early.foldl Poll.perform poll).interval, calls⟩) calls
      (settle script ⟨early.foldl Poll.perform poll, start⟩) := settle_awoken script ready rfl behind
  rw [inForce, asked] at begins
  generalize settled : settle script ⟨early.foldl Poll.perform poll, start⟩ = first at begins
  have clock : first.1.moment.clock = start.clock := settled ▸ (settle_leads script _).1
  have last := follow_clock script calls (clock.trans_le later)
  have keeps := begins.trans (fun phase awaits => awaits.follow (clock.trans_le later)
    (fun planned among => steadyCalls _ (List.mem_map_of_mem among)) ordered
    fun planned among => clock.trans_le (behind planned among)) (clock.trans_le (later.trans last.ge))
  obtain ⟨enough, requests⟩ := keeps.requests_eq fun planned left =>
    last.trans_lt (of_decide_eq_true (List.mem_filter.mp left).2)
  refine ⟨enough, fun count more => ?_⟩
  rw [requestsUntil, settled]
  exact (requests count more).trans (by rw [last])

/-- The interval is changed while the first request is in flight, and `runNow` has no effect then. The first
wait is cut short by a change of the interval, and the second one, behind a request that failed, by `runNow`.
A subscriber to errors panics. -/
theorem requests_on_schedule_replanned :
    let script : Script := fun used =>
      if used = 0 then ⟨.ok .null, 3⟩ else ⟨.error (.invalidParameters .noRuntime), 2⟩
    let early : List (PollCall Json) := [.onError fun _ => some .unexplained]
    let calls : List (PlannedCall Json) := [⟨1, .setInterval (.ofMillis 20)⟩, ⟨2, .runNow⟩,
      ⟨10, .setInterval (.ofMillis 5)⟩, ⟨18, .runNow⟩]
    let first : PollRound Json := ⟨{}, .ofMillis 10, calls⟩
    ∃ poll : Poll Unit Json, Poll.create true (Exchange.ask ()) (.ofMillis 10) = .ok poll ∧
      PollRound.sendings (Exchange.ask ()) script 3 first = [(0, ()), (15, ()), (18, ())] ∧
      requestsUntil script early calls 14 ⟨poll, {}⟩ = [()] ∧
      requestsUntil script early calls 18 ⟨poll, {}⟩ = [(), (), ()] ∧
      ∃ enough, ∀ count ≥ enough, requestsUntil script early calls 18 ⟨poll, {}⟩ =
        ((PollRound.sendings (Exchange.ask ()) script count first).filter (·.1 ≤ 18)).map Prod.snd := by
  intro script early calls first
  obtain ⟨poll, created⟩ : ∃ poll : Poll Unit Json,
      Poll.create true (Exchange.ask ()) (.ofMillis 10) = .ok poll := ⟨_, rfl⟩
  obtain rfl := Poll.eq_of_create created
  have onSchedule := (requests_on_schedule created script {} early calls 18 (by decide) (by decide)
    (by decide) (by decide) (by decide)).2
  exact ⟨_, created, by decide, by decide, by decide, onSchedule⟩

end PollAt

end OData
