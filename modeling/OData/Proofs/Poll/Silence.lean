import Mathlib
import OData.Proofs.Poll.Delivery

namespace OData

open OData.Time

variable {ρ α : Type}

/-- The loop whose request goes on in this step: only then something is sent or delivered. -/
def Happening.shown? : Happening ρ α → Option Nat
  | .moved loop (.wentOn _) | .moved loop (.finished _ _ _) => some loop
  | _ => none

/-- Intervals of this length take time. -/
def Happening.Paced (happening : Happening ρ α) : Prop :=
  ∀ interval, happening = .called (.setInterval interval) → 0 < waitMillis interval

/-- This is not what makes a wait end. -/
def Happening.Untimed : Happening ρ α → Prop
  | .passed _ | .called .runNow => False
  | _ => True

theorem Happening.moved_of_shown {happening : Happening ρ α} {id : Nat}
    (shown : happening.shown? = some id) : ∃ move, happening = .moved id move := by
  cases happening with
  | called call => cases shown
  | passed millis => cases shown
  | moved loop move =>
    refine ⟨move, ?_⟩
    cases move <;> cases shown <;> rfl

theorem Happening.events_eq_nil {happening : Happening ρ α} (hidden : happening.shown? = none) :
    happening.events = [] := by
  cases happening with
  | called call => rfl
  | passed millis => rfl
  | moved loop move => cases move <;> first | rfl | cases hidden

/-- A conversation is only held up for a time to come. -/
theorem Exchange.clock_lt_due {script : Script} {clock used due : Nat} {rest : Exchange ρ α}
    {conversation : Exchange ρ α}
    (suspended : (conversation.advance script clock used).progress = .suspended due rest) :
    clock < due := by
  induction conversation generalizing used with
  | done value => cases suspended
  | note n next ih => exact ih suspended
  | send request next ih =>
    rw [advance] at suspended
    split at suspended
    · exact ih _ suspended
    · next takesTime =>
      have same : clock + (script used).delay = due := (Progress.suspended.inj suspended).1
      omega
  | wait delay next ih =>
    rw [advance] at suspended
    split at suspended
    · exact ih suspended
    · next takesTime =>
      have same : clock + waitMillis delay = due := (Progress.suspended.inj suspended).1
      omega

/-- A loop that was stopped does not come behind a selection at which nothing else is there. -/
theorem Arrives.eq_none {clock : Nat} {l : PollLoop ρ α} {phase : LoopPhase ρ α}
    {after : Option (PollLoop ρ α)} (arrives : Arrives clock l phase after)
    (stopped : l.cancelled = true) (heldUp : ¬ phase.CanGoOn clock) : after = none := by
  cases arrives with
  | stays another => exact absurd (another stopped) heldUp
  | ends _ => rfl

theorem LoopPhase.canGoOn_told {call : PollCall α} (quiet : call ≠ .runNow) {phase : LoopPhase ρ α}
    {clock : Nat} : (phase.told call).CanGoOn clock ↔ phase.CanGoOn clock := by
  cases call with
  | runNow => exact absurd rfl quiet
  | _ => cases phase <;> exact Iff.rfl

namespace PollAt

variable {script : Script} {state next last : PollAt ρ α} {l : PollLoop ρ α}
  {move : LoopMove ρ α} {used : Nat} {after : Option (PollLoop ρ α)}
  {happening : Happening ρ α} {trace : List (Happening ρ α)}

theorem not_canGoOn_rest (takesTime : 0 < waitMillis state.poll.interval) :
    ¬ state.rest.CanGoOn state.moment.clock := by
  intro ready
  rcases ready with due | woken
  · omega
  · cases woken

/-- A stopped loop whose request went on ends, as then only time would get it further. -/
theorem LoopStep.eq_none (moves : LoopStep script state l move used after)
    (stopped : l.cancelled = true) (takesTime : 0 < waitMillis state.poll.interval) {id : Nat}
    (shown : Happening.shown? (.moved l.id move) = some id) : after = none := by
  cases moves with
  | goesOn resumed advanced arrives =>
    have later := Exchange.clock_lt_due (congrArg Advanced.progress advanced)
    exact arrives.eq_none stopped later.not_ge
  | finishes resumed advanced arrives => exact arrives.eq_none stopped (not_canGoOn_rest takesTime)
  | requestless | begins | awakes | restarts | cancels => cases shown

/-- Without a start that has an effect a poll that does not run stays so. -/
theorem Step.idle (step : Step script state happening next) (idle : state.poll.running = none)
    (unstarted : next.poll.lastLoop = state.poll.lastLoop) : next.poll.running = none := by
  cases step with
  | call call =>
    cases call with
    | start =>
      rcases state.poll.start_cases with same | ⟨-, -, started⟩
      · exact (congrArg Poll.running same).trans idle
      · have next : state.poll.lastLoop + 1 = state.poll.lastLoop :=
          (congrArg Poll.lastLoop started).symm.trans unstarted
        omega
    | stop | destroy => exact state.poll.stop_running
    | runNow | setInterval interval | onData panics | onError panics | unsubscribe subscription =>
      exact idle
  | pass millis => exact idle
  | move among moves => exact idle

theorem Step.takesTime (step : Step script state happening next) (paced : happening.Paced)
    (takesTime : 0 < waitMillis state.poll.interval) : 0 < waitMillis next.poll.interval := by
  cases step with
  | call call =>
    cases call with
    | start => exact state.poll.start_interval.symm ▸ takesTime
    | stop | destroy => exact state.poll.stop_interval.symm ▸ takesTime
    | setInterval interval => exact paced interval rfl
    | runNow | onData panics | onError panics | unsubscribe subscription => exact takesTime
  | pass millis => exact takesTime
  | move among moves => exact takesTime

/-- A poll that does not run, with intervals that take time. -/
structure Stopped (state : PollAt ρ α) : Prop where
  consistent : state.poll.Consistent
  idle : state.poll.running = none
  takesTime : 0 < waitMillis state.poll.interval

theorem Stopped.cancelled (stopped : state.Stopped) (among : l ∈ state.poll.loops) :
    l.cancelled = true :=
  stopped.consistent.cancelled_of_idle stopped.idle among

theorem Step.stopped (step : Step script state happening next) (stopped : state.Stopped)
    (paced : happening.Paced) (unstarted : next.poll.lastLoop = state.poll.lastLoop) : next.Stopped :=
  ⟨step.consistent stopped.consistent, step.idle stopped.idle unstarted,
    step.takesTime paced stopped.takesTime⟩

/-- If no loop was made in a run, none was made in its first step and none in the rest. -/
theorem Step.unstarted_of_run (first : Step script state happening next) (rest : Run script next trace last)
    (unstarted : last.poll.lastLoop = state.poll.lastLoop) :
    next.poll.lastLoop = state.poll.lastLoop ∧ last.poll.lastLoop = next.poll.lastLoop := by
  have lower := first.origin.1
  have upper := rest.origin.1
  omega

/-- While a poll is stopped, the request of each loop goes on once at most. At the selection at
which a loop notices that it was stopped it may take another branch that is there as well, but
then it comes to one that takes time, and ends. -/
theorem Run.shown_nodup (run : Run script state trace last) (stopped : state.Stopped)
    (paced : ∀ happening ∈ trace, happening.Paced)
    (unstarted : last.poll.lastLoop = state.poll.lastLoop) :
    (trace.filterMap Happening.shown?).Nodup := by
  induction run with
  | refl state => exact List.nodup_nil
  | @step state next last happening trace first rest ih =>
    obtain ⟨now, later⟩ := first.unstarted_of_run rest unstarted
    obtain ⟨pacedNow, pacedLater⟩ := List.forall_mem_cons.mp paced
    have once := ih (first.stopped stopped pacedNow now) pacedLater later
    cases shown : happening.shown? with
    | none =>
      rw [List.filterMap_cons_none shown]
      exact once
    | some id =>
      rw [List.filterMap_cons_some shown]
      refine List.nodup_cons.mpr ⟨fun again => ?_, once⟩
      obtain ⟨move, rfl⟩ := Happening.moved_of_shown shown
      obtain ⟨second, member, shownAgain⟩ := List.mem_filterMap.mp again
      obtain ⟨move, rfl⟩ := Happening.moved_of_shown shownAgain
      cases first with
      | @move before behind l _ used after among moves =>
        have present : l ∈ state.poll.loops := among ▸ List.mem_append_right _ (List.mem_cons_self ..)
        -- The loop ends with this move, and no other loop ever has its number.
        obtain rfl := moves.eq_none (stopped.cancelled present) stopped.takesTime shown
        refine rest.not_moved_of_gone ?_ (stopped.consistent.numbered l present) move member
        exact stopped.consistent.not_mem_of_removed among

theorem canGoOn_of_resumed {phase : LoopPhase ρ α} {conversation : Exchange ρ (Except ClientError α)}
    (resumed : state.resumed? phase = some conversation) : phase.CanGoOn state.moment.clock := by
  cases phase with
  | ready | requesting rest => trivial
  | suspended due rest =>
    rw [resumed?] at resumed
    split at resumed
    · next passed => exact passed
    · cases resumed
  | waiting deadline woken rescheduled => cases resumed

/-- A stopped loop that cannot go on ends with its next move. -/
theorem LoopStep.hidden_of_heldUp (moves : LoopStep script state l move used after)
    (stopped : l.cancelled = true) (takesTime : 0 < waitMillis state.poll.interval)
    (heldUp : ¬ l.phase.CanGoOn state.moment.clock) :
    after = none ∧ Happening.shown? (.moved l.id move) = none := by
  cases moves with
  | requestless about gone => exact ⟨rfl, rfl⟩
  | begins about taken =>
    rw [about] at heldUp
    exact absurd trivial heldUp
  | goesOn resumed advanced arrives => exact absurd (canGoOn_of_resumed resumed) heldUp
  | finishes resumed advanced arrives => exact absurd (canGoOn_of_resumed resumed) heldUp
  | awakes waits ready =>
    rw [waits] at heldUp
    exact absurd ready heldUp
  | restarts told arrives => exact ⟨arrives.eq_none stopped (not_canGoOn_rest takesTime), rfl⟩
  | cancels selecting cancelled => exact ⟨rfl, rfl⟩

theorem Step.hidden_of_heldUp (step : Step script state happening next) (stopped : state.Stopped)
    (unstarted : next.poll.lastLoop = state.poll.lastLoop) (untimed : happening.Untimed)
    (heldUp : ∀ l ∈ state.poll.loops, ¬ l.phase.CanGoOn state.moment.clock) :
    happening.shown? = none ∧ ∀ l ∈ next.poll.loops, ¬ l.phase.CanGoOn next.moment.clock := by
  cases step with
  | call call =>
    refine ⟨rfl, fun l listed => ?_⟩
    rcases state.poll.perform_loops call with ⟨-, started, -⟩ | ⟨-, change, changed, keeps⟩
    · exact absurd (started.symm.trans unstarted) (Nat.succ_ne_self _)
    · obtain ⟨old, among, rfl⟩ := List.mem_map.mp (changed ▸ listed)
      rw [(keeps old).2, LoopPhase.canGoOn_told fun isRunNow => by rwa [isRunNow] at untimed]
      exact heldUp old among
  | pass millis => exact untimed.elim
  | @move before rest l move used after among moves =>
    have present : l ∈ state.poll.loops := among ▸ List.mem_append_right _ (List.mem_cons_self ..)
    obtain ⟨rfl, hidden⟩ := moves.hidden_of_heldUp (stopped.cancelled present) stopped.takesTime
      (heldUp l present)
    refine ⟨hidden, fun other listed => heldUp other ?_⟩
    rw [among]
    rw [Option.toList_none, List.append_nil] at listed
    exact ((List.sublist_cons_self l rest).append_left before).subset listed

theorem Run.hidden_of_heldUp (run : Run script state trace last) (stopped : state.Stopped)
    (paced : ∀ happening ∈ trace, happening.Paced)
    (unstarted : last.poll.lastLoop = state.poll.lastLoop)
    (untimed : ∀ happening ∈ trace, happening.Untimed)
    (heldUp : ∀ l ∈ state.poll.loops, ¬ l.phase.CanGoOn state.moment.clock) :
    ∀ happening ∈ trace, happening.events = [] := by
  induction run with
  | refl state => exact nofun
  | step first rest ih =>
    obtain ⟨now, later⟩ := first.unstarted_of_run rest unstarted
    obtain ⟨pacedNow, pacedLater⟩ := List.forall_mem_cons.mp paced
    obtain ⟨untimedNow, untimedLater⟩ := List.forall_mem_cons.mp untimed
    obtain ⟨hidden, still⟩ := first.hidden_of_heldUp stopped now untimedNow heldUp
    exact List.forall_mem_cons.mpr ⟨Happening.events_eq_nil hidden,
      ih (first.stopped stopped pacedNow now) pacedLater later untimedLater still⟩

theorem Step.undelivered (step : Step script state happening next)
    (nobody : ∀ toData, state.poll.subscribers toData = []) (unregistered : happening.registers? = none) :
    happening.deliveries = [] ∧ ∀ toData, next.poll.subscribers toData = [] := by
  constructor
  · rw [step.deliveries_eq]
    exact List.flatMap_eq_nil_iff.mpr fun outcome _ => by rw [nobody, List.map_nil]
  · intro toData
    cases step with
    | call call =>
      show (state.poll.perform call).subscribers toData = []
      rw [Poll.subscribers_perform, nobody, show call.registers? = none from unregistered]
      rfl
    | pass millis => exact nobody toData
    | move among moves => exact nobody toData

theorem Run.undelivered (run : Run script state trace last)
    (nobody : ∀ toData, state.poll.subscribers toData = [])
    (unregistered : ∀ happening ∈ trace, happening.registers? = none) :
    ∀ happening ∈ trace, happening.deliveries = [] := by
  induction run with
  | refl state => exact nofun
  | step first rest ih =>
    obtain ⟨now, later⟩ := List.forall_mem_cons.mp unregistered
    obtain ⟨silent, still⟩ := first.undelivered nobody now
    exact List.forall_mem_cons.mpr ⟨silent, ih still later⟩

/-- What shows of a poll while it is stopped. It comes from loops that were about when it was stopped.
Where intervals take time, the request of each of them goes on once at most, and not at all if none of them
could go on and neither time passes nor a wait is ended. Once it was destroyed nobody is notified, where a
publication is one step: one that has copied its subscribers by then goes on to the last of them. -/
theorem shown_while_stopped {hasRuntime : Bool} {request : Exchange ρ (Except ClientError α)}
    {interval : Duration} {poll : Poll ρ α} {moment : Moment} {before after : List (Happening ρ α)}
    {stopped : PollAt ρ α} (created : Poll.create hasRuntime request interval = .ok poll)
    (reached : Run script ⟨poll, moment⟩ before stopped) (idle : stopped.poll.isRunning = false)
    (continued : Run script stopped after last)
    (unstarted : last.poll.lastLoop = stopped.poll.lastLoop) :
    (∀ id ∈ after.filterMap Happening.shown?,
        ∃ l ∈ stopped.poll.loops, l.id = id ∧ l.cancelled = true) ∧
      (0 < waitMillis stopped.poll.interval → (∀ happening ∈ after, happening.Paced) →
        (after.filterMap Happening.shown?).Nodup ∧
          ((∀ l ∈ stopped.poll.loops, ¬ l.phase.CanGoOn stopped.moment.clock) →
            (∀ happening ∈ after, happening.Untimed) → ∀ happening ∈ after, happening.events = [])) ∧
      (∀ earlier, before = earlier ++ [.called .destroy] →
        (∀ happening ∈ after, happening.registers? = none) →
          ∀ happening ∈ after, happening.deliveries = []) := by
  have consistent := reached.consistent (Poll.consistent_of_create created)
  have nobody : stopped.poll.running = none :=
    Option.not_isSome_iff_eq_none.mp (Bool.eq_false_iff.mp idle)
  refine ⟨fun id shown => ?_, fun takesTime paced => ?_, ?_⟩
  · obtain ⟨happening, member, shown⟩ := List.mem_filterMap.mp shown
    obtain ⟨move, rfl⟩ := Happening.moved_of_shown shown
    rcases continued.origin.2 id move member with listed | ⟨new, bound⟩
    · obtain ⟨l, among, same⟩ := List.mem_map.mp listed
      exact ⟨l, among, same, consistent.cancelled_of_idle nobody among⟩
    · omega
  · have still : stopped.Stopped := ⟨consistent, nobody, takesTime⟩
    exact ⟨continued.shown_nodup still paced unstarted, fun heldUp untimed =>
      continued.hidden_of_heldUp still paced unstarted untimed heldUp⟩
  · rintro earlier rfl unregistered
    obtain ⟨middle, -, destroyed⟩ := reached.split
    cases destroyed with
    | step first rest =>
      cases first
      cases rest
      refine continued.undelivered (fun toData => ?_) unregistered
      cases toData <;> rfl

/-- A poll that is stopped before its loop moved: the loop may still send the request, once, and its
subscriber is notified. -/
theorem shown_while_stopped_unnoticed :
    ∃ (poll : Poll Unit Json) (stopped last : PollAt Unit Json) (after : List (Happening Unit Json)),
      Poll.create true (Exchange.ask ()) (.ofSeconds 1) = .ok poll ∧
      Run (fun _ => ⟨.ok .null, 0⟩) ⟨poll, {}⟩ [.called (.onData fun _ => none), .called .stop] stopped ∧
      stopped.poll.isRunning = false ∧ Run (fun _ => ⟨.ok .null, 0⟩) stopped after last ∧
      last.poll.lastLoop = stopped.poll.lastLoop ∧
      after.flatMap Happening.events = [.sent (), .data 1 0 .null] ∧
      after.filterMap Happening.shown? = [1] ∧
      (∃ l ∈ stopped.poll.loops, l.id = 1 ∧ l.cancelled = true) ∧
      (after.filterMap Happening.shown?).Nodup := by
  have created : Poll.create true (Exchange.ask ()) (.ofSeconds 1) =
      .ok (Poll.start { request := some (Exchange.ask ()), interval := .ofSeconds 1 }) := rfl
  have reached : Run (fun _ => ⟨.ok .null, 0⟩)
      ⟨Poll.start { request := some (Exchange.ask ()), interval := .ofSeconds 1 }, {}⟩
      [.called (.onData fun _ => none), .called .stop] _ :=
    .step (.call _) <| .step (.call _) <| .refl _
  have continued : Run (fun _ => ⟨.ok .null, 0⟩)
      ⟨((Poll.start { request := some (Exchange.ask ()), interval := .ofSeconds 1 }).onData
        fun _ => none).stop, {}⟩ _ _ :=
    .step (.move (l := ⟨1, true, .ready⟩) (List.nil_append _).symm (.begins rfl rfl)) <|
    .step (.move (l := ⟨1, true, _⟩) (List.nil_append _).symm (.finishes rfl rfl (.ends rfl))) <|
    .refl _
  obtain ⟨own, once, -⟩ := shown_while_stopped created reached rfl continued rfl
  have distinct := (once (by decide)
    (List.forall_mem_cons.mpr ⟨nofun, List.forall_mem_cons.mpr ⟨nofun, nofun⟩⟩)).1
  exact ⟨_, _, _, _, created, reached, rfl, continued, rfl, rfl, rfl, own 1 (List.mem_singleton_self 1),
    distinct⟩

/-- So it does not hold of all runs that nothing is sent and nobody is notified from a stop on to the next
start. -/
theorem sent_after_stop :
    ¬ ∀ (script : Script) (request : Exchange Unit (Except ClientError Json)) (interval : Duration)
      (poll : Poll Unit Json) (moment : Moment) (before after : List (Happening Unit Json))
      (last : PollAt Unit Json), Poll.create true request interval = .ok poll →
      Run script ⟨poll, moment⟩ (before ++ .called .stop :: after) last → .called .start ∉ after →
      ∀ happening ∈ after, ∀ event ∈ happening.events,
        (∀ request, event ≠ .sent request) ∧ event.delivery? = none := by
  intro silent
  obtain ⟨poll, created, after, last, run, events, unstarted⟩ :
      ∃ poll : Poll Unit Json, Poll.create true (Exchange.ask ()) (.ofSeconds 1) = .ok poll ∧
        ∃ after last, Run (fun _ => ⟨.ok (.number (.integer ⟨1, by decide⟩)), 0⟩) ⟨poll, {}⟩
            (.called .stop :: after) last ∧
          after.flatMap Happening.events = [.sent ()] ∧ .called .start ∉ after :=
    ⟨_, rfl, _, _, .step (.call _) <|
      .step (.move (l := ⟨1, true, .ready⟩) (List.nil_append _).symm (.begins rfl rfl)) <|
      .step (.move (l := ⟨1, true, _⟩) (List.nil_append _).symm (.finishes rfl rfl (.ends rfl))) <|
      .refl _, rfl, by simp⟩
  have sent : PollEvent.sent () ∈ after.flatMap Happening.events := events ▸ List.mem_singleton_self _
  obtain ⟨happening, member, shown⟩ := List.mem_flatMap.mp sent
  exact (silent _ _ _ poll {} [] after last created run unstarted happening member _ shown).1 () rfl

end PollAt

end OData
