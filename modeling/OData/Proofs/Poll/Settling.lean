import Mathlib
import OData.Proofs.Poll.Step

namespace OData

open OData.Time

variable {ρ α : Type}

theorem Advanced.eq_of_progress {advanced : Advanced ρ α} {progress : Progress ρ α}
    (same : advanced.progress = progress) : advanced = ⟨advanced.events, advanced.used, progress⟩ :=
  same ▸ rfl

namespace PollAt

variable {script : Script} {state next last : PollAt ρ α} {l : PollLoop ρ α}
  {before rest : List (PollLoop ρ α)}

def withLoops (state : PollAt ρ α) (loops : List (PollLoop ρ α)) : PollAt ρ α :=
  { state with poll := { state.poll with loops := loops } }

/-- There is a run from one state to another in which this is observed. Everything that the clock
of a poll does is shown to be one. -/
def Leads (script : Script) (state : PollAt ρ α) (events : List (PollEvent ρ α)) (last : PollAt ρ α) :
    Prop :=
  ∃ trace, Run script state trace last ∧ trace.flatMap Happening.events = events

theorem Leads.refl (state : PollAt ρ α) : Leads script state [] state := ⟨[], .refl state, rfl⟩

theorem Leads.trans {events more : List (PollEvent ρ α)} (first : Leads script state events next)
    (second : Leads script next more last) : Leads script state (events ++ more) last := by
  obtain ⟨trace, run, rfl⟩ := first
  obtain ⟨further, runOn, rfl⟩ := second
  exact ⟨trace ++ further, run.append runOn, List.flatMap_append⟩

theorem Step.leads {happening : Happening ρ α} (step : Step script state happening next) :
    Leads script state happening.events next :=
  ⟨[happening], .step step (.refl next), List.flatMap_singleton ..⟩

/-- The other loops play no part in a move. -/
theorem LoopStep.leads {move : LoopMove ρ α} {used : Nat} {after : Option (PollLoop ρ α)}
    (moves : LoopStep script state l move used after) :
    Leads script (state.withLoops (before ++ l :: rest)) (Happening.events (.moved l.id move))
      (withLoops { state with moment := { state.moment with used := used } }
        (before ++ after.toList ++ rest)) := by
  have same : LoopStep script (state.withLoops (before ++ l :: rest)) l move used after := by
    cases moves with
    | requestless about gone => exact .requestless about gone
    | begins about taken => exact .begins about taken
    | goesOn resumed advanced arrives => exact .goesOn resumed advanced arrives
    | finishes resumed advanced arrives => exact .finishes resumed advanced arrives
    | awakes waits ready => exact .awakes waits ready
    | restarts told arrives => exact .restarts told arrives
    | cancels selecting stopped => exact .cancels selecting stopped
  exact (Step.move rfl same).leads

theorem arrives_holdUp {clock : Nat} (l : PollLoop ρ α) (phase : LoopPhase ρ α) :
    Arrives clock l phase (holdUp l phase) := by
  unfold holdUp
  split
  · next stopped => exact .ends stopped
  · next live => exact .stays fun stopped => absurd stopped live

theorem LoopStep.leads_to {move : LoopMove ρ α} {left : PollLoop ρ α}
    (moves : LoopStep script state l move state.moment.used (some left)) :
    Leads script (state.withLoops (before ++ l :: rest)) (Happening.events (.moved l.id move))
      (state.withLoops (before ++ left :: rest)) := by
  have leads : Leads script (state.withLoops (before ++ l :: rest)) _
      (state.withLoops (before ++ (some left).toList ++ rest)) := moves.leads
  rwa [Option.toList_some, List.append_assoc, List.singleton_append] at leads

theorem awoken_leads : Leads script (state.withLoops (before ++ l :: rest)) []
    (state.withLoops (before ++ { l with phase := state.awoken l.phase } :: rest)) := by
  obtain ⟨id, cancelled, phase⟩ := l
  cases phase with
  | waiting deadline woken rescheduled =>
    rw [awoken]
    split
    · next ready =>
      exact (LoopStep.awakes rfl (ready.symm.imp_left And.left)).leads_to
    · exact .refl _
  | ready | requesting _ | suspended _ _ => exact .refl _

theorem begun_leads : Leads script (state.withLoops (before ++ l :: rest)) []
    (state.withLoops (before ++ { l with phase := state.begun l.phase } :: rest)) := by
  obtain ⟨id, cancelled, phase⟩ := l
  cases phase with
  | ready =>
    rw [begun]
    cases taken : state.poll.request with
    | none => exact .refl _
    | some conversation => exact (LoopStep.begins rfl taken).leads_to
  | requesting _ | suspended _ _ | waiting _ _ _ => exact .refl _

/-- A loop that has to wait stays where it is, or it ends. -/
theorem holdUp_leads (selecting : l.phase ≠ .ready) :
    Leads script (state.withLoops (before ++ l :: rest)) []
      (state.withLoops (before ++ (holdUp l l.phase).toList ++ rest)) := by
  unfold holdUp
  split
  · next stopped => exact (LoopStep.cancels selecting stopped).leads
  · rw [Option.toList_some, List.append_assoc, List.singleton_append]
    exact .refl _

/-- A loop that cannot go on has to wait, starts its wait again, or ends without a request. -/
theorem heldUp_leads (heldUp : state.resumed? l.phase = none)
    (requestless : l.phase = .ready → state.poll.request = none) :
    Leads script (state.withLoops (before ++ l :: rest)) []
      (state.withLoops (before ++ (state.heldUp l l.phase).toList ++ rest)) := by
  cases phase : l.phase with
  | ready => exact (LoopStep.requestless phase (requestless phase)).leads
  | requesting conversation =>
    rw [phase] at heldUp
    cases heldUp
  | suspended due conversation =>
    have waits : state.heldUp l (.suspended due conversation) = holdUp l l.phase := by
      rw [phase]
      rfl
    rw [waits]
    exact holdUp_leads (phase.trans_ne nofun)
  | waiting deadline woken rescheduled =>
    cases rescheduled with
    | true => exact (LoopStep.restarts phase (arrives_holdUp l state.rest)).leads
    | false =>
      have waits : state.heldUp l (.waiting deadline woken false) = holdUp l l.phase := by
        rw [phase]
        rfl
      rw [waits]
      exact holdUp_leads (phase.trans_ne nofun)

theorem begun_ready {phase : LoopPhase ρ α} (ready : state.begun phase = .ready) :
    state.poll.request = none := by
  cases phase with
  | ready =>
    cases taken : state.poll.request with
    | none => rfl
    | some conversation =>
      rw [begun, taken] at ready
      cases ready
  | requesting _ | suspended _ _ | waiting _ _ _ => cases ready

/-- Taking a loop as far as it gets is a run. -/
theorem settleLoop_leads : Leads script (state.withLoops (before ++ l :: rest))
    (state.settleLoop script l).2.1 ((state.settleLoop script l).1.withLoops
      (before ++ (state.settleLoop script l).2.2.toList ++ rest)) := by
  have awakes : Leads script (state.withLoops (before ++ l :: rest)) [] (state.withLoops (before ++
      { l with phase := if l.cancelled then l.phase else state.awoken l.phase } :: rest)) := by
    split
    · exact .refl _
    · exact awoken_leads
  have begins := awakes.trans begun_leads
  unfold settleLoop
  generalize taken : state.begun (if l.cancelled then l.phase else state.awoken l.phase) = phase at begins
  dsimp only
  rw [taken]
  split
  · next heldUp =>
    exact begins.trans (heldUp_leads heldUp fun ready => begun_ready (taken.trans ready))
  · next conversation resumed =>
    split
    · next due rest suspended =>
      exact begins.trans (LoopStep.goesOn resumed (Advanced.eq_of_progress suspended)
        (arrives_holdUp ..)).leads
    · next outcome finished =>
      exact begins.trans (LoopStep.finishes resumed (Advanced.eq_of_progress finished)
        (arrives_holdUp ..)).leads

theorem settleLoop_clock (state : PollAt ρ α) (l : PollLoop ρ α) :
    (state.settleLoop script l).1.moment.clock = state.moment.clock := by
  unfold settleLoop
  dsimp only
  split
  · rfl
  · split <;> rfl

/-- What has settled already is put down, and what is left is taken one loop after the other. -/
def settleNext (script : Script) :
    PollAt ρ α × List (PollEvent ρ α) × List (PollLoop ρ α) → PollLoop ρ α →
      PollAt ρ α × List (PollEvent ρ α) × List (PollLoop ρ α)
  | (state, events, loops), l =>
    let (state, more, l) := state.settleLoop script l
    (state, events ++ more, loops ++ l.toList)

theorem foldl_settleNext_leads (script : Script) (left settled : List (PollLoop ρ α)) (state : PollAt ρ α)
    (events : List (PollEvent ρ α)) :
    (left.foldl (settleNext script) (state, events, settled)).1.moment.clock = state.moment.clock ∧
      ∃ more, (left.foldl (settleNext script) (state, events, settled)).2.1 = events ++ more ∧
        Leads script (state.withLoops (settled ++ left)) more
          ((left.foldl (settleNext script) (state, events, settled)).1.withLoops
            (left.foldl (settleNext script) (state, events, settled)).2.2) := by
  induction left generalizing settled state events with
  | nil =>
    refine ⟨rfl, [], (List.append_nil _).symm, ?_⟩
    rw [List.append_nil]
    exact .refl _
  | cons l rest ih =>
    obtain ⟨clock, more, observed, leads⟩ := ih (settled ++ (state.settleLoop script l).2.2.toList)
      (state.settleLoop script l).1 (events ++ (state.settleLoop script l).2.1)
    refine ⟨clock.trans (settleLoop_clock state l), (state.settleLoop script l).2.1 ++ more, ?_,
      settleLoop_leads.trans leads⟩
    rw [← List.append_assoc]
    exact observed

/-- Letting everything settle is a run, and it takes no time. -/
theorem settle_leads (script : Script) (state : PollAt ρ α) :
    (state.settle script).1.moment.clock = state.moment.clock ∧
      Leads script state (state.settle script).2 (state.settle script).1 := by
  obtain ⟨clock, more, observed, leads⟩ :=
    foldl_settleNext_leads script state.poll.loops [] state []
  refine ⟨clock, ?_⟩
  have same : (state.settle script).2 = more := observed
  rw [same]
  exact leads

theorem command_leads (state : PollAt ρ α) (call : PollCall α) :
    Leads script state (state.command script (·.perform call)).2
      (state.command script (·.perform call)).1 :=
  (Step.call call).leads.trans (settle_leads script _).2

-- A poll that is stopped at once, before its loop got to move, still sends its request.
example : ((⟨Poll.start { request := some (Exchange.ask ()), interval := .ofSeconds 1 }, {}⟩ :
    PollAt Unit Json).command (fun _ => ⟨.ok .null, 0⟩) (·.perform .stop)).2 = [.sent ()] := rfl

theorem later_leads (script : Script) {target : Nat} (later : state.moment.clock ≤ target) :
    Leads script state [] { state with moment := { state.moment with clock := target } } := by
  have passes : Leads script state [] { state with moment :=
      { state.moment with clock := state.moment.clock + (target - state.moment.clock) } } :=
    (Step.pass _).leads
  rwa [Nat.add_sub_cancel' later] at passes

theorem advanceTo_leads {target : Nat} (fuel : Nat) (state : PollAt ρ α)
    (later : state.moment.clock ≤ target) :
    Leads script state (state.advanceTo script target fuel).2 (state.advanceTo script target fuel).1 := by
  induction fuel generalizing state with
  | zero => exact later_leads script later
  | succ fuel ih =>
    rw [advanceTo]
    split
    · next due waits =>
      split
      · next soon =>
        have moves := later_leads script (Nat.le_max_right due state.moment.clock)
        have settles := settle_leads script
          { state with moment := { state.moment with clock := max due state.moment.clock } }
        have still := settles.1.trans_le (Nat.max_le.mpr ⟨soon, later⟩)
        exact moves.trans (settles.2.trans (ih _ still))
      · exact later_leads script later
    · exact later_leads script later

theorem pass_leads (state : PollAt ρ α) (millis : Nat) :
    Leads script state (state.pass script millis).2 (state.pass script millis).1 :=
  advanceTo_leads _ state (Nat.le_add_right _ _)

end PollAt

end OData
