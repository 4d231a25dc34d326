import Mathlib
import OData.Proofs.Poll.Step

namespace OData

open OData.Time

-- Powers of numbers are those of the core library, whatever else is in scope.
attribute [local instance (high)] instPowNat

variable {ρ α : Type}

/-- A call of a poll at a time of the clock. -/
structure PlannedCall (α : Type) where
  time : Nat
  call : PollCall α

/-- The interval that is in force after a call. -/
def PollCall.inForce (interval : Duration) : PollCall α → Duration
  | .setInterval changed => changed
  | _ => interval

/-- The call does not stop a poll, and if it changes the interval, to one that takes time. -/
def PollCall.Steady : PollCall α → Prop
  | .stop | .destroy => False
  | .setInterval interval => 0 < waitMillis interval
  | _ => True

instance PollCall.decidableSteady : (call : PollCall α) → Decidable call.Steady
  | .stop | .destroy => inferInstanceAs (Decidable False)
  | .setInterval interval => inferInstanceAs (Decidable (0 < waitMillis interval))
  | .start | .runNow | .onData _ | .onError _ | .unsubscribe _ => inferInstanceAs (Decidable True)

theorem PollCall.Steady.takesTime {call : PollCall α} (steady : call.Steady) {interval : Duration}
    (takesTime : 0 < waitMillis interval) : 0 < waitMillis (call.inForce interval) := by
  cases call with
  | setInterval changed => exact steady
  | _ => exact takesTime

/-- A wait of whole milliseconds takes just as long. -/
theorem waitMillis_ofMillis {millis : Nat} (word : millis < 2 ^ (64 : Nat)) :
    waitMillis (.ofMillis millis) = millis := by
  have bounded : (Duration.ofMillis millis).nanos < (2 ^ (63 : Nat) - 1) * 1000000000 := by
    show millis * 1000000 < _
    omega
  rw [waitMillis, if_pos bounded]
  show (millis * 1000000 + 999999) / 1000000 = millis
  omega

/-- The requests of a conversation that is played from a moment on, each with the time at which it is
sent. -/
def Exchange.sendings (script : Script) (moment : Moment) : Exchange ρ α → List (Nat × ρ)
  | .done _ => []
  | .note _ next => next.sendings script moment
  | .send request next =>
    let reply := script moment.used
    (moment.clock, request) ::
      (next reply.outcome).sendings script ⟨moment.clock + reply.delay, moment.used + 1⟩
  | .wait delay next =>
    next.sendings script { moment with clock := moment.clock + waitMillis delay }

namespace Exchange

variable (script : Script)

theorem requests_sendings (conversation : Exchange ρ α) (moment : Moment) :
    (conversation.sendings script moment).map Prod.snd =
      Event.requests (conversation.play script moment).events := by
  induction conversation generalizing moment with
  | done value => rfl
  | note n next ih => exact ih moment
  | send request next ih => exact congrArg (request :: ·) (ih _ _)
  | wait delay next ih => exact ih _

theorem clock_le_after (conversation : Exchange ρ α) (moment : Moment) :
    moment.clock ≤ (conversation.play script moment).after.clock := by
  induction conversation generalizing moment with
  | done value => exact le_rfl
  | note n next ih => exact ih moment
  | send request next ih =>
    exact (Nat.le_add_right _ (script moment.used).delay).trans
      (ih _ ⟨moment.clock + (script moment.used).delay, moment.used + 1⟩)
  | wait delay next ih =>
    exact (Nat.le_add_right _ (waitMillis delay)).trans
      (ih { moment with clock := moment.clock + waitMillis delay })

theorem clock_le_of_mem_sendings (conversation : Exchange ρ α) (moment : Moment) :
    ∀ sending ∈ conversation.sendings script moment, moment.clock ≤ sending.1 := by
  induction conversation generalizing moment with
  | done value => exact nofun
  | note n next ih => exact ih moment
  | send request next ih =>
    refine List.forall_mem_cons.mpr ⟨le_rfl, fun sending sent => ?_⟩
    exact (Nat.le_add_right _ _).trans (ih _ _ sending sent)
  | wait delay next ih => exact fun sending sent => (Nat.le_add_right _ _).trans (ih _ sending sent)

end Exchange

namespace Progress

/-- What a conversation that got this far still sends. -/
def sendings (script : Script) (used : Nat) : Progress ρ α → List (Nat × ρ)
  | .finished _ => []
  | .suspended due rest => rest.sendings script ⟨due, used⟩

/-- When a conversation that got this far is over. -/
def after (script : Script) (reached : Moment) : Progress ρ α → Moment
  | .finished _ => reached
  | .suspended due rest => (rest.play script ⟨due, reached.used⟩).after

end Progress

/-- A conversation that goes on at one moment sends there what it is to send there, and the rest is what is
left of it. -/
theorem Exchange.advance_spec (script : Script) (clock : Nat) (conversation : Exchange ρ α) (used : Nat) :
    conversation.sendings script ⟨clock, used⟩ =
        (Event.requests (conversation.advance script clock used).events).map (clock, ·) ++
          (conversation.advance script clock used).progress.sendings script
            (conversation.advance script clock used).used ∧
      (conversation.play script ⟨clock, used⟩).after =
        (conversation.advance script clock used).progress.after script
          ⟨clock, (conversation.advance script clock used).used⟩ := by
  induction conversation generalizing used with
  | done value => exact ⟨rfl, rfl⟩
  | note n next ih => exact ih used
  | send request next ih =>
    rw [sendings, play, advance]
    split
    · next atOnce =>
      dsimp only
      rw [atOnce]
      obtain ⟨sent, ended⟩ := ih (script used).outcome (used + 1)
      exact ⟨congrArg ((clock, request) :: ·) sent, ended⟩
    · exact ⟨rfl, rfl⟩
  | wait delay next ih =>
    rw [sendings, play, advance]
    split
    · next atOnce =>
      dsimp only
      rw [atOnce]
      exact ih used
    · exact ⟨rfl, rfl⟩

/-- A round of a poll: the moment at which its request starts, the interval in force then, and
the calls that are still to come. The request is completed when its conversation is over, and a
wait leads to the next round. -/
structure PollRound (α : Type) where
  start : Moment
  interval : Duration
  calls : List (PlannedCall α)

namespace PollRound

/-- The round behind a wait that ends at `deadline` unless something is called before. `runNow` ends the wait
at once, and a change of the interval starts it again with the new one. -/
def behindWait (used deadline : Nat) (interval : Duration) : List (PlannedCall α) → PollRound α
  | [] => ⟨⟨deadline, used⟩, interval, []⟩
  | planned :: later =>
    if deadline ≤ planned.time then ⟨⟨deadline, used⟩, interval, planned :: later⟩
    else
      match planned.call with
      | .runNow => ⟨⟨planned.time, used⟩, interval, later⟩
      | .setInterval changed => behindWait used (planned.time + waitMillis changed) changed later
      | _ => behindWait used deadline interval later

/-- The round behind a request that is completed at a moment. The calls before that moment have no effect but
on the interval. -/
def behindRequest (completed : Moment) (interval : Duration) (calls : List (PlannedCall α)) :
    PollRound α :=
  let inFlight := (calls.takeWhile (·.time < completed.clock)).map PlannedCall.call
  let inForce := inFlight.foldl PollCall.inForce interval
  behindWait completed.used (completed.clock + waitMillis inForce) inForce
    (calls.dropWhile (·.time < completed.clock))

section Sendings

variable (request : Exchange ρ (Except ClientError α)) (script : Script)

def next (round : PollRound α) : PollRound α :=
  behindRequest (request.play script round.start).after round.interval round.calls

/-- What is sent in a number of rounds, each request with its time. -/
def sendings : (count : Nat) → PollRound α → List (Nat × ρ)
  | 0, _ => []
  | count + 1, round =>
    request.sendings script round.start ++ sendings count (round.next request script)

end Sendings

variable {used deadline clock : Nat} {completed : Moment} {interval : Duration}
  {planned : PlannedCall α} {calls later : List (PlannedCall α)}

/-- A wait during which nothing is called ends at its deadline. -/
theorem behindWait_undisturbed (undisturbed : ∀ planned ∈ calls, deadline ≤ planned.time) :
    behindWait used deadline interval calls = ⟨⟨deadline, used⟩, interval, calls⟩ := by
  cases calls with
  | nil => rfl
  | cons planned later => rw [behindWait, if_pos (undisturbed planned (List.mem_cons_self ..))]

theorem behindRequest_undisturbed (undisturbed : ∀ planned ∈ calls, completed.clock ≤ planned.time) :
    behindRequest completed interval calls =
      behindWait completed.used (completed.clock + waitMillis interval) interval calls := by
  cases calls with
  | nil => rfl
  | cons planned later =>
    have behind : ¬ decide (planned.time < completed.clock) = true := by
      rw [decide_eq_true_iff]
      exact (undisturbed planned (List.mem_cons_self ..)).not_gt
    rw [behindRequest, List.takeWhile_cons, List.dropWhile_cons, if_neg behind, if_neg behind]
    rfl

/-- A call in the middle of a request changes the interval at most. -/
theorem behindRequest_cons (inFlight : planned.time < completed.clock) :
    behindRequest completed interval (planned :: later) =
      behindRequest completed (planned.call.inForce interval) later := by
  have before : decide (planned.time < completed.clock) = true := decide_eq_true inFlight
  rw [behindRequest, List.takeWhile_cons, List.dropWhile_cons, if_pos before, if_pos before]
  rfl

/-- All of a round is behind a time, and so are the calls that are still to come. -/
structure Behind (clock : Nat) (round : PollRound α) : Prop where
  start : clock < round.start.clock
  calls : ∀ planned ∈ round.calls, clock < planned.time

theorem behind_behindWait (ends : clock < deadline) (behind : ∀ planned ∈ calls, clock < planned.time) :
    (behindWait used deadline interval calls).Behind clock := by
  induction calls generalizing deadline interval with
  | nil => exact ⟨ends, nofun⟩
  | cons planned later ih =>
    obtain ⟨first, rest⟩ := List.forall_mem_cons.mp behind
    rw [behindWait]
    split
    · exact ⟨ends, behind⟩
    · split
      · exact ⟨first, rest⟩
      · exact ih (first.trans_le (Nat.le_add_right _ _)) rest
      · exact ih ends rest

theorem behind_behindRequest (completes : clock < completed.clock)
    (behind : ∀ planned ∈ calls, clock < planned.time) :
    (behindRequest completed interval calls).Behind clock :=
  behind_behindWait (completes.trans_le (Nat.le_add_right _ _)) fun planned left =>
    behind planned ((List.dropWhile_sublist _).subset left)

variable {request : Exchange ρ (Except ClientError α)} {script : Script}

theorem Behind.lt_of_mem_sendings {round : PollRound α} (behind : round.Behind clock) (count : Nat) :
    ∀ sending ∈ round.sendings request script count, clock < sending.1 := by
  induction count generalizing round with
  | zero => exact nofun
  | succ count ih =>
    intro sending sent
    rcases List.mem_append.mp sent with now | next
    · exact behind.start.trans_le (request.clock_le_of_mem_sendings script _ sending now)
    · have completes := behind.start.trans_le (request.clock_le_after script round.start)
      exact ih (behind_behindRequest completes behind.calls) sending next

end PollRound

end OData
