import Mathlib
import OData.Proofs.Poll.Loops

namespace OData

open OData.Time

/-- Where a loop is with regard to its waits: it is busy otherwise; or it has read the interval and is about
to wait; or it waits with a timer that is armed, and was told to start again or not. -/
inductive WaitStage
  | away
  | holding (interval : Duration)
  | armed (interval : Duration) (rescheduled : Bool)

/-- The announcement of a change reaches those who wait, and nobody else later on. -/
def WaitStage.told : WaitStage → WaitStage
  | .armed interval _ => .armed interval true
  | stage => stage

/-- The interval of a poll between its callers and one loop: what is set, how many callers have set it and
still have to announce that, and where the loop is. -/
structure IntervalState where
  cell : Duration
  announcing : Nat
  stage : WaitStage

/-- The single steps of a change of the interval, and of a wait. -/
inductive IntervalMove
  | wrote (interval : Duration)
  | announced
  | read
  | armed
  | restarted
  | left

def IntervalMove.IsOfCaller : IntervalMove → Prop
  | .wrote _ | .announced => True
  | _ => False

def IntervalMove.written? : IntervalMove → Option Duration
  | .wrote interval => some interval
  | _ => none

/-- The interval that was written last. -/
def lastWritten? (moves : List IntervalMove) : Option Duration :=
  (moves.filterMap IntervalMove.written?).getLast?

theorem lastWritten?_wrote (moves : List IntervalMove) (interval : Duration) :
    lastWritten? (moves ++ [.wrote interval]) = some interval := by
  simp [lastWritten?, IntervalMove.written?]

theorem lastWritten?_announced (moves : List IntervalMove) :
    lastWritten? (moves ++ [.announced]) = lastWritten? moves := by
  simp [lastWritten?, IntervalMove.written?]

inductive IntervalStep : IntervalState → IntervalMove → IntervalState → Prop
  | write {state : IntervalState} (interval : Duration) :
      IntervalStep state (.wrote interval)
        { state with cell := interval, announcing := state.announcing + 1 }
  | announce {cell : Duration} {others : Nat} {stage : WaitStage} :
      IntervalStep ⟨cell, others + 1, stage⟩ .announced ⟨cell, others, stage.told⟩
  | read {cell : Duration} {announcing : Nat} :
      IntervalStep ⟨cell, announcing, .away⟩ .read ⟨cell, announcing, .holding cell⟩
  | arm {cell interval : Duration} {announcing : Nat} :
      IntervalStep ⟨cell, announcing, .holding interval⟩ .armed ⟨cell, announcing, .armed interval false⟩
  | restart {cell interval : Duration} {announcing : Nat} :
      IntervalStep ⟨cell, announcing, .armed interval true⟩ .restarted ⟨cell, announcing, .away⟩
  | leave {cell interval : Duration} {announcing : Nat} {rescheduled : Bool} :
      IntervalStep ⟨cell, announcing, .armed interval rescheduled⟩ .left ⟨cell, announcing, .away⟩

/-- Any interleaving of callers with the loop. -/
inductive IntervalRun (start : IntervalState) : List IntervalMove → IntervalState → Prop
  | refl : IntervalRun start [] start
  | step {moves : List IntervalMove} {state next : IntervalState} {move : IntervalMove}
      (run : IntervalRun start moves state) (last : IntervalStep state move next) :
      IntervalRun start (moves ++ [move]) next

namespace IntervalRun

variable {start middle last : IntervalState} {moves more : List IntervalMove} {first interval : Duration}

theorem append (run : IntervalRun start moves middle) (rest : IntervalRun middle more last) :
    IntervalRun start (moves ++ more) last := by
  induction rest with
  | refl => rwa [List.append_nil]
  | step _ last ih =>
    rw [← List.append_assoc]
    exact ih.step last

theorem one {move : IntervalMove} (only : IntervalStep start move last) :
    IntervalRun start [move] last :=
  IntervalRun.refl.step only

theorem change (state : IntervalState) (interval : Duration) :
    IntervalRun state [.wrote interval, .announced]
      ⟨interval, state.announcing, state.stage.told⟩ :=
  (one (.write interval)).append (one .announce)

theorem rest (cell : Duration) (announcing : Nat) :
    IntervalRun ⟨cell, announcing, .away⟩ [.read, .armed] ⟨cell, announcing, .armed cell false⟩ :=
  (one .read).append (one .arm)

/-- What a loop holds is what it read, and since then only callers have moved. -/
theorem holding (run : IntervalRun ⟨first, 0, .away⟩ moves last) (holds : last.stage = .holding interval) :
    ∃ before between, moves = before ++ .read :: between ∧ (∀ move ∈ between, move.IsOfCaller) ∧
      last.cell = (lastWritten? between).getD interval := by
  induction run with
  | refl => cases holds
  | step _ last ih =>
    cases last with
    | write written =>
      obtain ⟨before, between, rfl, callers, -⟩ := ih holds
      refine ⟨before, between ++ [.wrote written], by simp, ?_, ?_⟩
      · exact List.forall_mem_append.mpr ⟨callers, List.forall_mem_singleton.mpr trivial⟩
      · rw [lastWritten?_wrote]
        rfl
    | @announce cell others stage =>
      have held : stage = .holding interval := by
        cases stage with
        | holding => exact holds
        | away | armed => cases holds
      obtain ⟨before, between, rfl, callers, now⟩ := ih held
      refine ⟨before, between ++ [.announced], by simp, ?_, ?_⟩
      · exact List.forall_mem_append.mpr ⟨callers, List.forall_mem_singleton.mpr trivial⟩
      · rw [lastWritten?_announced]
        exact now
    | read =>
      cases holds
      exact ⟨_, [], rfl, nofun, rfl⟩
    | arm | restart | leave => cases holds

/-- While a timer is armed and nobody was told to start again, nothing has happened since it was armed, or
there is a caller who still has to announce a change. -/
theorem armed (run : IntervalRun ⟨first, 0, .away⟩ moves last)
    (waits : last.stage = .armed interval false) :
    0 < last.announcing ∨ ∃ before between, moves = before ++ .read :: (between ++ [.armed]) ∧
      (∀ move ∈ between, move.IsOfCaller) ∧ last.cell = (lastWritten? between).getD interval := by
  induction run with
  | refl => cases waits
  | step run last ih =>
    cases last with
    | write written => exact Or.inl (Nat.succ_pos _)
    | @announce cell others stage => cases stage <;> cases waits
    | arm =>
      cases waits
      obtain ⟨before, between, rfl, callers, now⟩ := run.holding rfl
      exact Or.inr ⟨before, between, by simp, callers, now⟩
    | read | restart | leave => cases waits

/-- Whoever changes the interval between the read and the timer is not heard: the wait goes by the interval
of before. -/
theorem lost (first : Duration) (changes : List Duration) :
    IntervalRun ⟨first, 0, .away⟩
      (.read :: (changes.flatMap fun interval => [.wrote interval, .announced]) ++ [.armed])
      ⟨changes.getLast?.getD first, 0, .armed first false⟩ := by
  have heard : IntervalRun ⟨first, 0, .away⟩
      (.read :: changes.flatMap fun interval => [.wrote interval, .announced])
      ⟨changes.getLast?.getD first, 0, .holding first⟩ := by
    induction changes using List.reverseRecOn with
    | nil => exact one .read
    | append_singleton changes interval ih =>
      rw [List.flatMap_append, ← List.cons_append, List.getLast?_concat]
      exact ih.append (change _ interval)
  exact heard.step .arm

end IntervalRun

/-- The single steps of a call. -/
def PollCall.pieces {α : Type} : PollCall α → List IntervalMove
  | .setInterval interval => [.wrote interval, .announced]
  | _ => []

/-- The single steps of a loop up to its next selection. -/
def LoopMove.pieces {ρ α : Type} : LoopMove ρ α → List IntervalMove
  | .finished _ _ _ => [.read, .armed]
  | .awoke => [.left]
  | .restarted => [.restarted, .read, .armed]
  | .began | .wentOn _ | .ended => []

/-- The single steps of what happens, with regard to one loop. -/
def Happening.pieces {ρ α : Type} (id : Nat) : Happening ρ α → List IntervalMove
  | .called call => call.pieces
  | .passed _ => []
  | .moved loop move => if loop = id then move.pieces else []

variable {ρ α : Type}

/-- In one piece, nothing comes between the read and the timer. -/
theorem Happening.pieces_chain (id : Nat) (trace : List (Happening ρ α)) :
    (trace.flatMap (Happening.pieces id)).IsChain fun move next => move = .read → next = .armed := by
  have single (happening : Happening ρ α) :
      ((happening.pieces id).IsChain fun move next => move = .read → next = .armed) ∧
        ∀ move ∈ (happening.pieces id).getLast?, move ≠ .read := by
    cases happening with
    | called call => cases call <;> simp [pieces, PollCall.pieces]
    | passed millis => simp [pieces]
    | moved loop move =>
      by_cases own : loop = id
      · rw [show (Happening.moved loop move).pieces id = move.pieces from if_pos own]
        cases move <;> simp [LoopMove.pieces]
      · rw [show (Happening.moved loop move).pieces id = [] from if_neg own]
        simp
  induction trace with
  | nil => exact .nil
  | cons happening trace ih =>
    obtain ⟨chain, closed⟩ := single happening
    rw [List.flatMap_cons]
    exact chain.append ih fun move ends _ _ same => absurd same (closed move ends)

/-- A loop in a phase is seen at this stage. A timer was armed at some time, for the interval. -/
inductive LoopPhase.SeenAs (clock : Nat) : LoopPhase ρ α → WaitStage → Prop
  | away {phase : LoopPhase ρ α}
      (busy : ∀ deadline woken rescheduled, phase ≠ .waiting deadline woken rescheduled) :
      SeenAs clock phase .away
  | armed {interval : Duration} {since : Nat} (woken rescheduled : Bool) (earlier : since ≤ clock) :
      SeenAs clock (.waiting (since + waitMillis interval) woken rescheduled) (.armed interval rescheduled)

namespace LoopPhase.SeenAs

variable {clock later : Nat} {phase : LoopPhase ρ α} {stage : WaitStage}

theorem mono (seen : phase.SeenAs clock stage) (passes : clock ≤ later) : phase.SeenAs later stage := by
  cases seen with
  | away busy => exact .away busy
  | armed woken rescheduled earlier => exact .armed woken rescheduled (earlier.trans passes)

theorem eq_away (seen : phase.SeenAs clock stage)
    (busy : ∀ deadline woken rescheduled, phase ≠ .waiting deadline woken rescheduled) :
    stage = .away := by
  cases seen with
  | away => rfl
  | armed => exact absurd rfl (busy _ _ _)

theorem told_runNow (seen : phase.SeenAs clock stage) :
    (phase.told (.runNow : PollCall α)).SeenAs clock stage := by
  cases seen with
  | away busy =>
    rw [told_of_busy busy]
    exact .away busy
  | armed woken rescheduled earlier => exact .armed true rescheduled earlier

theorem told_setInterval (seen : phase.SeenAs clock stage) (interval : Duration) :
    (phase.told (.setInterval interval : PollCall α)).SeenAs clock stage.told := by
  cases seen with
  | away busy =>
    rw [told_of_busy busy]
    exact .away busy
  | armed woken rescheduled earlier => exact .armed woken true earlier

end LoopPhase.SeenAs

namespace PollAt

/-- A poll with a loop in a phase, seen while no caller is in the middle of a change. -/
structure Shows (state : PollAt ρ α) (phase : LoopPhase ρ α) (seen : IntervalState) : Prop where
  cell : seen.cell = state.poll.interval
  announced : seen.announcing = 0
  stage : phase.SeenAs state.moment.clock seen.stage

variable {script : Script} {state next last : PollAt ρ α} {l : PollLoop ρ α} {phase : LoopPhase ρ α}
  {move : LoopMove ρ α} {used id : Nat} {after : Option (PollLoop ρ α)} {seen : IntervalState}

/-- A call takes its steps in one piece. -/
theorem Shows.perform (shows : state.Shows phase seen) (call : PollCall α) :
    ∃ reached, IntervalRun seen call.pieces reached ∧
      Shows { state with poll := state.poll.perform call } (phase.told call) reached := by
  cases call with
  | setInterval interval =>
    exact ⟨_, .change seen interval, rfl, shows.announced, shows.stage.told_setInterval interval⟩
  | runNow => exact ⟨seen, .refl, shows.cell, shows.announced, shows.stage.told_runNow⟩
  | start =>
    exact ⟨seen, .refl, shows.cell.trans state.poll.start_interval.symm, shows.announced, shows.stage⟩
  | stop | destroy =>
    exact ⟨seen, .refl, shows.cell.trans state.poll.stop_interval.symm, shows.announced, shows.stage⟩
  | onData panics | onError panics | unsubscribe subscription =>
    exact ⟨seen, .refl, shows.cell, shows.announced, shows.stage⟩

theorem Shows.later (shows : state.Shows phase seen) (same : next.poll.interval = state.poll.interval)
    (passes : state.moment.clock ≤ next.moment.clock) : next.Shows phase seen :=
  ⟨shows.cell.trans same.symm, shows.announced, shows.stage.mono passes⟩

theorem busy_of_resumed {conversation : Exchange ρ (Except ClientError α)}
    (resumed : state.resumed? phase = some conversation) :
    ∀ deadline woken rescheduled, phase ≠ .waiting deadline woken rescheduled := by
  rintro deadline woken rescheduled rfl
  cases resumed

theorem LoopStep.shows (moves : LoopStep script state l move used after)
    (shows : state.Shows l.phase seen) :
    ∃ reached, IntervalRun seen move.pieces reached ∧ ∀ left ∈ after, state.Shows left.phase reached := by
  obtain ⟨cell, announcing, stage⟩ := seen
  obtain ⟨rfl, rfl, stage⟩ := shows
  have resting {left : PollLoop ρ α} (arrives : Arrives state.moment.clock l state.rest after)
      (among : left ∈ after) :
      state.Shows left.phase ⟨state.poll.interval, 0, .armed state.poll.interval false⟩ := by
    rcases arrives.cases with ⟨rfl, -⟩ | rfl
    · cases among
    · cases among
      exact ⟨rfl, rfl, .armed false false le_rfl⟩
  cases moves with
  | requestless | cancels => exact ⟨_, .refl, nofun⟩
  | begins about taken =>
    refine ⟨_, .refl, fun left among => ?_⟩
    cases among
    obtain rfl := stage.eq_away (by rw [about]; exact nofun)
    exact ⟨rfl, rfl, .away nofun⟩
  | goesOn resumed advanced arrives =>
    refine ⟨_, .refl, fun left among => ?_⟩
    obtain rfl := stage.eq_away (busy_of_resumed resumed)
    rcases arrives.cases with ⟨rfl, -⟩ | rfl
    · cases among
    · cases among
      exact ⟨rfl, rfl, .away nofun⟩
  | finishes resumed advanced arrives =>
    obtain rfl := stage.eq_away (busy_of_resumed resumed)
    exact ⟨_, .rest state.poll.interval 0, fun left among => resting arrives among⟩
  | awakes waits ready =>
    rw [waits] at stage
    cases stage with
    | away busy => exact absurd rfl (busy _ _ _)
    | armed =>
      refine ⟨_, .one .leave, fun left among => ?_⟩
      cases among
      exact ⟨rfl, rfl, .away nofun⟩
  | restarts told arrives =>
    rw [told] at stage
    cases stage with
    | away busy => exact absurd rfl (busy _ _ _)
    | armed =>
      exact ⟨_, (IntervalRun.one .restart).append (.rest state.poll.interval 0),
        fun left among => resting arrives among⟩

/-- The loop with a number shows how it is seen, or there is none yet, or none any more. -/
inductive Follows (state : PollAt ρ α) (id : Nat) (seen : IntervalState) : Prop
  | present {l : PollLoop ρ α} (among : l ∈ state.poll.loops) (numbered : l.id = id)
      (shows : state.Shows l.phase seen)
  | future (above : state.poll.lastLoop < id) (shows : state.Shows .ready seen)
  | gone (below : id ≤ state.poll.lastLoop) (absent : ∀ l ∈ state.poll.loops, l.id ≠ id)

theorem Follows.shows (follows : state.Follows l.id seen) (consistent : state.poll.Consistent)
    (among : l ∈ state.poll.loops) : state.Shows l.phase seen := by
  cases follows with
  | present other numbered shows =>
    rwa [List.inj_on_of_nodup_map consistent.distinct other among numbered] at shows
  | future above => exact absurd (consistent.numbered l among) (Nat.not_le.mpr above)
  | gone below absent => exact absurd rfl (absent l among)

theorem Follows.perform (follows : state.Follows id seen) (call : PollCall α) :
    ∃ reached, IntervalRun seen call.pieces reached ∧
      Follows { state with poll := state.poll.perform call } id reached := by
  cases follows with
  | present among numbered shows =>
    obtain ⟨reached, run, shown⟩ := shows.perform call
    obtain ⟨left, listed, same, told⟩ := Poll.perform_of_mem among call
    rw [← told] at shown
    exact ⟨reached, run, .present listed (same.trans numbered) shown⟩
  | future above shows =>
    obtain ⟨reached, run, shown⟩ := shows.perform call
    have untold : (LoopPhase.ready : LoopPhase ρ α).told call = .ready := by cases call <;> rfl
    rw [untold] at shown
    rcases Poll.perform_of_future above call with later | ⟨l, listed, numbered, ready⟩
    · exact ⟨reached, run, .future later shown⟩
    · rw [← ready] at shown
      exact ⟨reached, run, .present listed numbered shown⟩
  | gone below absent =>
    obtain ⟨old, still⟩ := Poll.perform_of_gone below absent call
    obtain ⟨reached, run⟩ : ∃ reached, IntervalRun seen call.pieces reached := by
      cases call with
      | setInterval interval => exact ⟨_, .change seen interval⟩
      | _ => exact ⟨seen, .refl⟩
    exact ⟨reached, run, .gone old still⟩

theorem Follows.pass (follows : state.Follows id seen) (millis : Nat) :
    Follows { state with moment := { state.moment with clock := state.moment.clock + millis } } id seen := by
  cases follows with
  | present among numbered shows =>
    exact .present among numbered (shows.later rfl (Nat.le_add_right _ _))
  | future above shows => exact .future above (shows.later rfl (Nat.le_add_right _ _))
  | gone below absent => exact .gone below absent

theorem Step.follows {happening : Happening ρ α} (step : Step script state happening next)
    (consistent : state.poll.Consistent) (follows : state.Follows id seen) :
    ∃ reached, IntervalRun seen (happening.pieces id) reached ∧ next.Follows id reached := by
  cases step with
  | call call => exact follows.perform call
  | pass millis => exact ⟨seen, .refl, follows.pass millis⟩
  | @move before rest l move used after among moves =>
    have member : l ∈ state.poll.loops := by
      rw [among]
      exact List.mem_append_right _ (List.mem_cons_self ..)
    by_cases own : l.id = id
    · subst own
      obtain ⟨reached, run, shows⟩ := moves.shows (follows.shows consistent member)
      rw [show (Happening.moved l.id move).pieces l.id = move.pieces from if_pos rfl]
      refine ⟨reached, run, ?_⟩
      cases ended : after with
      | none => exact .gone (consistent.numbered l member) (consistent.id_ne_of_removed among)
      | some left =>
        exact .present (List.mem_append_left _ (List.mem_append_right _ (List.mem_singleton_self _)))
          (moves.same_id left ended) ((shows left ended).later rfl le_rfl)
    · rw [show (Happening.moved l.id move).pieces id = [] from if_neg own]
      refine ⟨seen, .refl, ?_⟩
      cases follows with
      | present listed numbered shows =>
        exact .present ((mem_moved_iff moves (numbered.trans_ne (Ne.symm own))).mpr (among ▸ listed)) numbered
          (shows.later rfl le_rfl)
      | future above shows => exact .future above (shows.later rfl le_rfl)
      | gone below absent => exact .gone below (absent_moved among moves (Ne.symm own) absent)

variable {trace : List (Happening ρ α)}

/-- A run of a poll is a run of the single steps, for every one of its loops. -/
theorem Run.follows (run : Run script state trace last) (consistent : state.poll.Consistent)
    (follows : state.Follows id seen) :
    ∃ reached, IntervalRun seen (trace.flatMap (Happening.pieces id)) reached ∧
      last.Follows id reached := by
  induction run generalizing seen with
  | refl state => exact ⟨seen, .refl, follows⟩
  | @step state next last happening trace first rest ih =>
    obtain ⟨middle, begun, followed⟩ := first.follows consistent follows
    obtain ⟨reached, run, still⟩ := ih (first.consistent consistent) followed
    rw [List.flatMap_cons]
    exact ⟨reached, begun.append run, still⟩

theorem follows_of_create {hasRuntime : Bool} {request : Exchange ρ (Except ClientError α)}
    {interval : Duration} {poll : Poll ρ α} (moment : Moment)
    (created : Poll.create hasRuntime request interval = .ok poll) (id : Nat) :
    Follows ⟨poll, moment⟩ id ⟨interval, 0, .away⟩ := by
  obtain rfl := Poll.eq_of_create created
  have ready : Shows ⟨Poll.start { request := some request, interval := interval }, moment⟩
      .ready ⟨interval, 0, .away⟩ := ⟨rfl, rfl, .away nofun⟩
  rcases id with _ | _ | id
  · exact .gone (Nat.zero_le _) fun l listed => by
      rw [List.mem_singleton.mp listed]
      exact Nat.succ_ne_zero 0
  · exact .present (l := ⟨1, false, .ready⟩) (List.mem_singleton_self _) rfl ready
  · exact .future (show 1 < id + 1 + 1 by omega) ready

end PollAt

/-- What a settled wait was armed with: the interval that the loop has read. Nothing has happened since it
was armed, and between the read and the timer only callers have moved; if they have written, the interval is
the last that they wrote, and the wait does not go by it. Where changes and waits are in one piece each,
as they are for a poll whose loops move from selection to selection, nobody comes between, so a wait that
was not told to start again goes by the interval that is set. -/
theorem settled_interval {ρ α : Type} :
    (∀ (first : Duration) (moves : List IntervalMove) (last : IntervalState) (armed : Duration),
      IntervalRun ⟨first, 0, .away⟩ moves last → last.announcing = 0 → last.stage = .armed armed false →
      ∃ before between, moves = before ++ .read :: (between ++ [.armed]) ∧
        (∀ move ∈ between, move.IsOfCaller) ∧ last.cell = (lastWritten? between).getD armed) ∧
    ∀ (hasRuntime : Bool) (request : Exchange ρ (Except ClientError α)) (interval : Duration)
      (poll : Poll ρ α) (moment : Moment) (script : Script) (trace : List (Happening ρ α))
      (last : PollAt ρ α), Poll.create hasRuntime request interval = .ok poll →
      PollAt.Run script ⟨poll, moment⟩ trace last → ∀ l ∈ last.poll.loops,
      (∃ seen, IntervalRun ⟨interval, 0, .away⟩ (trace.flatMap (Happening.pieces l.id)) seen ∧
        last.Shows l.phase seen) ∧
      ∀ deadline woken, l.phase = .waiting deadline woken false →
        ∃ since ≤ last.moment.clock, deadline = since + waitMillis last.poll.interval := by
  have settled {first armed : Duration} {moves : List IntervalMove} {last : IntervalState}
      (run : IntervalRun ⟨first, 0, .away⟩ moves last) (announced : last.announcing = 0)
      (waits : last.stage = .armed armed false) :
      ∃ before between, moves = before ++ .read :: (between ++ [.armed]) ∧
        (∀ move ∈ between, move.IsOfCaller) ∧ last.cell = (lastWritten? between).getD armed :=
    (run.armed waits).resolve_left (Nat.not_lt.mpr announced.le)
  refine ⟨fun first moves last armed run => settled run, ?_⟩
  intro hasRuntime request interval poll moment script trace last created run l among
  have first := Poll.consistent_of_create created
  obtain ⟨seen, pieces, follows⟩ := run.follows first (PollAt.follows_of_create moment created l.id)
  have shows := follows.shows (run.consistent first) among
  refine ⟨⟨seen, pieces, shows⟩, fun deadline woken waits => ?_⟩
  obtain ⟨cell, announcing, stage⟩ := seen
  obtain ⟨rfl, rfl, stage⟩ := shows
  rw [waits] at stage
  cases stage with
  | away busy => exact absurd rfl (busy _ _ _)
  | @armed armed since _ _ earlier =>
    obtain ⟨before, between, shape, callers, now⟩ := settled pieces rfl rfl
    have chain := Happening.pieces_chain l.id trace
    rw [shape] at chain
    cases between with
    | nil =>
      obtain rfl : last.poll.interval = armed := now
      exact ⟨since, earlier, rfl⟩
    | cons move between =>
      have prompt := (List.isChain_append_cons_cons.mp chain).2.1 rfl
      rw [prompt] at callers
      exact (callers _ (List.mem_cons_self ..)).elim

/-- Two changes between the read and the timer, the last of which is what is set then; and a poll whose loop
starts its wait again when the interval is changed in the middle of it. -/
theorem settled_interval_changed :
    (∃ before between, [.read, .wrote (.ofMillis 200), .announced, .wrote (.ofMillis 50), .announced,
        .armed] = before ++ IntervalMove.read :: (between ++ [.armed]) ∧
      .ofMillis 50 = (lastWritten? between).getD (.ofMillis 1000)) ∧
    ∃ (poll : Poll Unit Nat) (trace : List (Happening Unit Nat)) (last : PollAt Unit Nat)
      (l : PollLoop Unit Nat), Poll.create true (.done (.ok 7)) (.ofMillis 1000) = .ok poll ∧
      PollAt.Run (fun _ => ⟨.ok .null, 0⟩) ⟨poll, {}⟩ trace last ∧ l ∈ last.poll.loops ∧
      trace.flatMap (Happening.pieces l.id) = [.read, .armed, .wrote (.ofMillis 50), .announced,
        .restarted, .read, .armed] ∧
      l.phase = .waiting 60 false false ∧ ∃ since ≤ 10, 60 = since + waitMillis (.ofMillis 50) := by
  obtain ⟨between, wait⟩ := settled_interval (ρ := Unit) (α := Nat)
  constructor
  · obtain ⟨before, callers, shape, -, cell⟩ := between _ _ _ (.ofMillis 1000)
      (.lost (.ofMillis 1000) [.ofMillis 200, .ofMillis 50]) rfl rfl
    exact ⟨before, callers, shape, cell⟩
  · obtain ⟨poll, created, last, run, among, set, now⟩ : ∃ poll : Poll Unit Nat,
        Poll.create true (.done (.ok 7)) (.ofMillis 1000) = .ok poll ∧ ∃ last,
          PollAt.Run (fun _ => ⟨.ok .null, 0⟩) ⟨poll, {}⟩ [.moved 1 .began,
            .moved 1 (.finished [] (.ok 7) []), .passed 10, .called (.setInterval (.ofMillis 50)),
            .moved 1 .restarted] last ∧ ⟨1, false, .waiting 60 false false⟩ ∈ last.poll.loops ∧
          last.poll.interval = .ofMillis 50 ∧ last.moment.clock = 10 :=
      ⟨_, rfl, _,
        .step (.move (l := ⟨1, false, .ready⟩) (List.nil_append _).symm (.begins rfl rfl)) <|
        .step (.move (l := ⟨1, false, _⟩) (List.nil_append _).symm
          (@PollAt.LoopStep.finishes _ _ _ _ _ _ [] _ (.ok 7) _ rfl rfl (.stays nofun))) <|
        .step (.pass 10) <| .step (.call _) <|
        .step (.move (l := ⟨1, false, _⟩) (List.nil_append _).symm
          (.restarts rfl (.stays nofun))) <|
        .refl _, List.mem_singleton_self _, rfl, rfl⟩
    have due := (wait _ _ _ _ _ _ _ _ created run _ among).2 60 false rfl
    rw [set, now] at due
    exact ⟨poll, _, last, _, created, run, among, rfl, rfl, due⟩

/-- So it does not hold of all interleavings that a settled wait goes by the interval that is set: a change
between the read and the timer is lost. -/
theorem interval_lost :
    ¬ ∀ (first : Duration) (moves : List IntervalMove) (last : IntervalState) (armed : Duration),
      IntervalRun ⟨first, 0, .away⟩ moves last → last.announcing = 0 → last.stage = .armed armed false →
      armed = last.cell := by
  intro kept
  have same := kept _ _ _ _ (.lost (.ofMillis 1000) [.ofMillis 50]) rfl rfl
  exact absurd same (by decide)

end OData
