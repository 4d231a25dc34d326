import Mathlib
import OData.Proofs.Poll.Step

namespace OData

open OData.Time

variable {ρ α : Type}

namespace Poll

/-- The loops of a poll go with its other fields. Loops that were stopped may still be about, but
at most one loop was not: there is one exactly while the poll is running. -/
structure Consistent (poll : Poll ρ α) : Prop where
  distinct : (poll.loops.map PollLoop.id).Nodup
  numbered : ∀ l ∈ poll.loops, l.id ≤ poll.lastLoop
  live : (poll.loops.filter fun l => !l.cancelled).map PollLoop.id = poll.running.toList
  requested : poll.request = none → poll.running = none

variable {poll : Poll ρ α}

/-- A loop that was not stopped is the one that runs. -/
theorem Consistent.running_of_live (consistent : poll.Consistent) {l : PollLoop ρ α}
    (among : l ∈ poll.loops) (live : l.cancelled = false) : poll.running = some l.id := by
  have listed : l.id ∈ (poll.loops.filter fun l => !l.cancelled).map PollLoop.id :=
    List.mem_map_of_mem (List.mem_filter.mpr ⟨among, by rw [live]; rfl⟩)
  rw [consistent.live] at listed
  exact Option.mem_toList.mp listed

theorem Consistent.cancelled_of_idle (consistent : poll.Consistent) (idle : poll.running = none)
    {l : PollLoop ρ α} (among : l ∈ poll.loops) : l.cancelled = true := by
  by_contra live
  have runs := consistent.running_of_live among (Bool.eq_false_iff.mpr live)
  rw [idle] at runs
  cases runs

theorem Consistent.not_mem_of_removed (consistent : poll.Consistent) {before rest : List (PollLoop ρ α)}
    {l : PollLoop ρ α} (among : poll.loops = before ++ l :: rest) :
    l.id ∉ (before ++ (none : Option (PollLoop ρ α)).toList ++ rest).map PollLoop.id := by
  have distinct := consistent.distinct
  rw [among, List.map_append, List.map_cons] at distinct
  rw [Option.toList_none, List.append_nil, List.map_append]
  exact (List.nodup_middle.mp distinct).notMem

theorem Consistent.id_ne_of_removed (consistent : poll.Consistent) {before rest : List (PollLoop ρ α)}
    {l : PollLoop ρ α} (among : poll.loops = before ++ l :: rest) :
    ∀ other ∈ before ++ (none : Option (PollLoop ρ α)).toList ++ rest, other.id ≠ l.id := by
  intro other listed same
  refine consistent.not_mem_of_removed among ?_
  rw [← same]
  exact List.mem_map_of_mem listed

theorem Consistent.of_map (consistent : poll.Consistent) {change : PollLoop ρ α → PollLoop ρ α}
    (sameId : ∀ l, (change l).id = l.id) (sameState : ∀ l, (change l).cancelled = l.cancelled) :
    Consistent { poll with loops := poll.loops.map change } where
  distinct := by
    rw [List.map_map, show PollLoop.id ∘ change = PollLoop.id from funext sameId]
    exact consistent.distinct
  numbered := by
    intro l among
    obtain ⟨before, member, rfl⟩ := List.mem_map.mp among
    rw [sameId]
    exact consistent.numbered before member
  live := by
    have keeps : ((fun l : PollLoop ρ α => !l.cancelled) ∘ change) = fun l => !l.cancelled :=
      funext fun l => congrArg not (sameState l)
    rw [List.filter_map, keeps, List.map_map, show PollLoop.id ∘ change = PollLoop.id from
      funext sameId]
    exact consistent.live
  requested := consistent.requested

theorem Consistent.start (consistent : poll.Consistent) : poll.start.Consistent := by
  rcases poll.start_cases with same | ⟨nobody, requested, started⟩
  · rw [same]
    exact consistent
  · rw [started]
    have fresh : poll.lastLoop + 1 ∉ poll.loops.map PollLoop.id := by
      intro listed
      obtain ⟨l, among, same⟩ := List.mem_map.mp listed
      have bound := consistent.numbered l among
      omega
    have none : (poll.loops.filter fun l => !l.cancelled).map PollLoop.id = [] := by
      rw [consistent.live, nobody]
      rfl
    refine ⟨?_, fun l among => ?_, ?_, fun gone => absurd gone requested⟩
    · rw [List.map_append]
      exact List.nodup_append.mpr ⟨consistent.distinct, List.nodup_singleton _,
        fun id listed other new same => by
          rw [same, List.mem_singleton.mp new] at listed
          exact fresh listed⟩
    · rcases List.mem_append.mp among with old | new
      · exact (consistent.numbered l old).trans (Nat.le_succ _)
      · rw [List.mem_singleton.mp new]
    · rw [List.filter_append, List.map_append, none]
      rfl

theorem Consistent.stop (consistent : poll.Consistent) : poll.stop.Consistent := by
  rw [stop_eq]
  have sameIds : PollLoop.id ∘ poll.afterStop = PollLoop.id := funext poll.afterStop_id
  refine ⟨?_, fun l among => ?_, ?_, fun _ => rfl⟩
  · rw [List.map_map, sameIds]
    exact consistent.distinct
  · obtain ⟨before, member, rfl⟩ := List.mem_map.mp among
    exact (poll.afterStop_id before).symm ▸ consistent.numbered before member
  · have all : (poll.loops.map poll.afterStop).filter (fun l => !l.cancelled) = [] := by
      refine List.filter_eq_nil_iff.mpr fun l among => ?_
      obtain ⟨before, member, rfl⟩ := List.mem_map.mp among
      unfold afterStop
      split
      · exact Bool.false_ne_true
      · next other =>
        intro live
        exact other (consistent.running_of_live member (by simpa using live))
    exact congrArg (List.map PollLoop.id) all

theorem Consistent.signalled (consistent : poll.Consistent)
    (signal : LoopPhase ρ α → LoopPhase ρ α) : (poll.signalled signal).Consistent :=
  consistent.of_map (fun _ => rfl) fun _ => rfl

theorem Consistent.perform (consistent : poll.Consistent) (call : PollCall α) :
    (poll.perform call).Consistent := by
  cases call with
  | start => exact consistent.start
  | stop => exact consistent.stop
  | destroy =>
    have stopped := consistent.stop
    exact ⟨stopped.distinct, stopped.numbered, stopped.live, fun _ => poll.stop_running⟩
  | runNow =>
    rw [Poll.perform, runNow]
    exact consistent.signalled _
  | setInterval interval =>
    have other : Consistent { poll with interval := interval } :=
      ⟨consistent.distinct, consistent.numbered, consistent.live, consistent.requested⟩
    rw [Poll.perform, setInterval]
    exact other.signalled _
  | onData panics =>
    exact ⟨consistent.distinct, consistent.numbered, consistent.live, consistent.requested⟩
  | onError panics =>
    exact ⟨consistent.distinct, consistent.numbered, consistent.live, consistent.requested⟩
  | unsubscribe subscription =>
    exact ⟨consistent.distinct, consistent.numbered, consistent.live, consistent.requested⟩

theorem eq_of_create {hasRuntime : Bool} {request : Exchange ρ (Except ClientError α)}
    {interval : Duration} (created : Poll.create hasRuntime request interval = .ok poll) :
    Poll.start { request := some request, interval := interval } = poll := by
  unfold Poll.create at created
  split at created
  · exact Except.ok.inj created
  · cases created

theorem consistent_of_create {hasRuntime : Bool} {request : Exchange ρ (Except ClientError α)}
    {interval : Duration} (created : Poll.create hasRuntime request interval = .ok poll) :
    poll.Consistent := by
  have idle : Consistent { request := some request, interval := interval : Poll ρ α } :=
    ⟨List.nodup_nil, nofun, rfl, nofun⟩
  rw [← eq_of_create created]
  exact idle.start

end Poll

theorem Arrives.cases {clock : Nat} {l : PollLoop ρ α} {phase : LoopPhase ρ α}
    {after : Option (PollLoop ρ α)} (arrives : Arrives clock l phase after) :
    (after = none ∧ l.cancelled = true) ∨ after = some { l with phase } := by
  cases arrives with
  | stays another => exact Or.inr rfl
  | ends stopped => exact Or.inl ⟨rfl, stopped⟩

namespace PollAt

variable {script : Script} {state next last : PollAt ρ α} {l : PollLoop ρ α}
  {move : LoopMove ρ α} {used : Nat} {after : Option (PollLoop ρ α)}

/-- A move changes nothing of a loop but its phase, and only a loop that was stopped or is without a
request ends. -/
theorem LoopStep.cases (moves : LoopStep script state l move used after) :
    (after = none ∧ (l.cancelled = true ∨ state.poll.request = none)) ∨
      ∃ phase, after = some { l with phase } := by
  have arrived {phase : LoopPhase ρ α} (arrives : Arrives state.moment.clock l phase after) :
      (after = none ∧ (l.cancelled = true ∨ state.poll.request = none)) ∨
        ∃ phase, after = some { l with phase } := by
    rcases arrives.cases with ⟨ended, stopped⟩ | stays
    · exact Or.inl ⟨ended, Or.inl stopped⟩
    · exact Or.inr ⟨phase, stays⟩
  cases moves with
  | requestless about gone => exact Or.inl ⟨rfl, Or.inr gone⟩
  | begins about taken => exact Or.inr ⟨_, rfl⟩
  | goesOn resumed advanced arrives => exact arrived arrives
  | finishes resumed advanced arrives => exact arrived arrives
  | awakes waits ready => exact Or.inr ⟨_, rfl⟩
  | restarts told arrives => exact arrived arrives
  | cancels selecting stopped => exact Or.inl ⟨rfl, Or.inl stopped⟩

theorem consistent_moved (consistent : state.poll.Consistent) {before rest : List (PollLoop ρ α)}
    (among : state.poll.loops = before ++ l :: rest)
    (moves : LoopStep script state l move used after) :
    Poll.Consistent { state.poll with loops := before ++ after.toList ++ rest } := by
  have member : l ∈ state.poll.loops := by
    rw [among]
    exact List.mem_append_right _ (List.mem_cons_self ..)
  have distinct := consistent.distinct
  have numbered := consistent.numbered
  have live := consistent.live
  rw [among] at distinct numbered live
  rcases moves.cases with ⟨rfl, reason⟩ | ⟨phase, rfl⟩
  · -- Without a request no loop is live, so one that ends is never the one that runs.
    have stopped : l.cancelled = true :=
      reason.elim id fun gone => consistent.cancelled_of_idle (consistent.requested gone) member
    have fewer : (before ++ rest).Sublist (before ++ l :: rest) :=
      (List.sublist_cons_self l rest).append_left before
    rw [Option.toList_none, List.append_nil]
    refine ⟨distinct.sublist (fewer.map _), fun other listed => numbered other (fewer.subset listed),
      ?_, consistent.requested⟩
    rw [← live, List.filter_append, List.filter_append, List.filter_cons_of_neg (by rw [stopped]; decide)]
  · have sameIds : (before ++ [{ l with phase }] ++ rest).map PollLoop.id =
        (before ++ l :: rest).map PollLoop.id := by
      simp only [List.map_append, List.map_cons, List.append_assoc, List.cons_append, List.nil_append]
    rw [Option.toList_some]
    refine ⟨by rw [sameIds]; exact distinct, fun other listed => ?_, ?_, consistent.requested⟩
    · have listedId := List.mem_map_of_mem (f := PollLoop.id) listed
      rw [sameIds] at listedId
      obtain ⟨own, ownListed, same⟩ := List.mem_map.mp listedId
      exact same ▸ numbered own ownListed
    · rw [← live]
      cases stopped : l.cancelled <;> simp [List.filter_append, stopped]

theorem Step.consistent {happening : Happening ρ α} (step : Step script state happening next)
    (consistent : state.poll.Consistent) : next.poll.Consistent := by
  cases step with
  | call call => exact consistent.perform call
  | pass millis => exact consistent
  | move among moves => exact consistent_moved consistent among moves

theorem Run.consistent {trace : List (Happening ρ α)} (run : Run script state trace last)
    (consistent : state.poll.Consistent) : last.poll.Consistent :=
  run.induction consistent Step.consistent

theorem Step.origin {happening : Happening ρ α} (step : Step script state happening next) :
    state.poll.lastLoop ≤ next.poll.lastLoop ∧
      ∀ id ∈ next.poll.loops.map PollLoop.id, id ∈ state.poll.loops.map PollLoop.id ∨
        state.poll.lastLoop < id ∧ id ≤ next.poll.lastLoop := by
  cases step with
  | call call =>
    show _ ≤ (state.poll.perform call).lastLoop ∧ ∀ id ∈ (state.poll.perform call).loops.map PollLoop.id,
      id ∈ _ ∨ _ < id ∧ id ≤ (state.poll.perform call).lastLoop
    rcases state.poll.perform_loops call with ⟨-, next, added⟩ | ⟨same, change, changed, keeps⟩
    · rw [next, added, List.map_append]
      refine ⟨Nat.le_succ _, fun id listed => (List.mem_append.mp listed).imp_right fun new => ?_⟩
      exact List.mem_singleton.mp new ▸ ⟨Nat.lt_succ_self _, le_rfl⟩
    · have sameIds : PollLoop.id ∘ change = PollLoop.id := funext fun l => (keeps l).1
      rw [same, changed, List.map_map, sameIds]
      exact ⟨le_rfl, fun id listed => Or.inl listed⟩
  | pass millis => exact ⟨le_rfl, fun id listed => Or.inl listed⟩
  | @move before rest l move used after among moves =>
    refine ⟨le_rfl, fun id listed => Or.inl ?_⟩
    rw [among]
    rcases moves.cases with ⟨rfl, _⟩ | ⟨phase, rfl⟩
    · rw [Option.toList_none, List.append_nil] at listed
      exact ((List.sublist_cons_self l rest).append_left before).map PollLoop.id |>.subset listed
    · simpa using listed

/-- A loop that moves was there from the start or was made on the way. -/
theorem Run.origin {trace : List (Happening ρ α)} (run : Run script state trace last) :
    state.poll.lastLoop ≤ last.poll.lastLoop ∧
      ∀ id move, .moved id move ∈ trace → id ∈ state.poll.loops.map PollLoop.id ∨
        state.poll.lastLoop < id ∧ id ≤ last.poll.lastLoop := by
  induction run with
  | refl state => exact ⟨le_rfl, nofun⟩
  | @step state next last happening trace first rest ih =>
    obtain ⟨lower, earlier⟩ := first.origin
    obtain ⟨upper, later⟩ := ih
    refine ⟨lower.trans upper, fun id move among => ?_⟩
    rcases List.mem_cons.mp among with rfl | among
    · cases first with
      | move present moves =>
        rw [present]
        exact Or.inl (List.mem_map_of_mem (List.mem_append_right _ (List.mem_cons_self ..)))
    · rcases later id move among with listed | new
      · exact (earlier id listed).imp_right fun new => ⟨new.1, new.2.trans upper⟩
      · exact Or.inr ⟨lower.trans_lt new.1, new.2⟩

/-- A loop that has ended does not move any more. -/
theorem Run.not_moved_of_gone {trace : List (Happening ρ α)} (run : Run script state trace last)
    {id : Nat} (gone : id ∉ state.poll.loops.map PollLoop.id) (old : id ≤ state.poll.lastLoop)
    (move : LoopMove ρ α) : .moved id move ∉ trace := by
  intro moved
  rcases run.origin.2 id move moved with listed | ⟨new, _⟩
  · exact gone listed
  · omega

end PollAt

/-- What loops do by turns: they take the request, and they publish its outcome. -/
inductive Turn
  | began
  | finished

namespace Turn

def other : Turn → Turn
  | .began => .finished
  | .finished => .began

/-- The turns come one after the other, and this one is the first. -/
def Alternate (first : Turn) : List Turn → Prop
  | [] => True
  | turn :: rest => turn = first ∧ Alternate first.other rest

end Turn

def LoopMove.turn? : LoopMove ρ α → Option Turn
  | .began => some .began
  | .finished _ _ _ => some .finished
  | _ => none

def Happening.turn? (id : Nat) : Happening ρ α → Option Turn
  | .moved loop move => if loop = id then move.turn? else none
  | _ => none

/-- The turn that a loop in a phase takes next. -/
def LoopPhase.nextTurn : LoopPhase ρ α → Turn
  | .requesting _ | .suspended _ _ => .finished
  | .ready | .waiting _ _ _ => .began

theorem LoopPhase.nextTurn_told (call : PollCall α) (phase : LoopPhase ρ α) :
    (phase.told call).nextTurn = phase.nextTurn := by
  cases phase <;> cases call <;> rfl

/-- The turn that the loop with a number takes next, be it that it is there or that it is not yet. One that
is gone takes none, so it may be expected to take any. -/
inductive Poll.Expects (poll : Poll ρ α) (id : Nat) : Turn → Prop
  | present {l : PollLoop ρ α} (among : l ∈ poll.loops) (numbered : l.id = id) :
      Expects poll id l.phase.nextTurn
  | future (above : poll.lastLoop < id) : Expects poll id .began
  | gone (turn : Turn) (below : id ≤ poll.lastLoop) (absent : ∀ l ∈ poll.loops, l.id ≠ id) :
      Expects poll id turn

namespace Poll

variable {poll : Poll ρ α} {id : Nat} {turn : Turn}

/-- A call does not change whose turn it is. -/
theorem Expects.perform (expects : poll.Expects id turn) (call : PollCall α) :
    (poll.perform call).Expects id turn := by
  cases expects with
  | @present l among numbered =>
    obtain ⟨left, listed, same, told⟩ := perform_of_mem among call
    rw [← l.phase.nextTurn_told call, ← told]
    exact .present listed (same.trans numbered)
  | future above =>
    rcases perform_of_future above call with later | ⟨l, listed, numbered, ready⟩
    · exact .future later
    · rw [show Turn.began = l.phase.nextTurn from ready ▸ rfl]
      exact .present listed numbered
  | gone turn below absent =>
    obtain ⟨old, still⟩ := perform_of_gone below absent call
    exact .gone turn old still

/-- A loop that is there is expected to do what its phase says. -/
theorem Expects.turn_eq (expects : poll.Expects id turn) (consistent : poll.Consistent)
    {l : PollLoop ρ α} (member : l ∈ poll.loops) (own : l.id = id) : turn = l.phase.nextTurn := by
  cases expects with
  | present among numbered =>
    rw [List.inj_on_of_nodup_map consistent.distinct among member (numbered.trans own.symm)]
  | future above =>
    have bound := consistent.numbered l member
    omega
  | gone turn below absent => exact absurd own (absent l member)

end Poll

namespace PollAt

variable {script : Script} {state next last : PollAt ρ α} {l : PollLoop ρ α}
  {move : LoopMove ρ α} {used : Nat} {after : Option (PollLoop ρ α)}
  {trace : List (Happening ρ α)} {id : Nat} {turn : Turn}

theorem nextTurn_of_resumed {phase : LoopPhase ρ α} {conversation : Exchange ρ (Except ClientError α)}
    (resumed : state.resumed? phase = some conversation) : phase.nextTurn = .finished := by
  cases phase with
  | requesting rest => rfl
  | suspended due rest => rfl
  | ready | waiting _ _ _ => cases resumed

/-- A move is the turn of the loop, and then the other turn comes next, or it is none. -/
theorem LoopStep.turns (moves : LoopStep script state l move used after) :
    (move.turn? = none ∧ ∀ left ∈ after, left.phase.nextTurn = l.phase.nextTurn) ∨
      (move.turn? = some l.phase.nextTurn ∧
        ∀ left ∈ after, left.phase.nextTurn = l.phase.nextTurn.other) := by
  cases moves with
  | requestless about gone => exact Or.inl ⟨rfl, nofun⟩
  | begins about taken =>
    rw [about]
    exact Or.inr ⟨rfl, fun left same => Option.some.inj same ▸ rfl⟩
  | goesOn resumed advanced arrives =>
    rw [nextTurn_of_resumed resumed]
    rcases arrives.cases with ⟨rfl, _⟩ | rfl
    · exact Or.inl ⟨rfl, nofun⟩
    · exact Or.inl ⟨rfl, fun left same => Option.some.inj same ▸ rfl⟩
  | finishes resumed advanced arrives =>
    rw [nextTurn_of_resumed resumed]
    rcases arrives.cases with ⟨rfl, _⟩ | rfl
    · exact Or.inr ⟨rfl, nofun⟩
    · exact Or.inr ⟨rfl, fun left same => Option.some.inj same ▸ rfl⟩
  | awakes waits ready =>
    rw [waits]
    exact Or.inl ⟨rfl, fun left same => Option.some.inj same ▸ rfl⟩
  | restarts told arrives =>
    rw [told]
    rcases arrives.cases with ⟨rfl, _⟩ | rfl
    · exact Or.inl ⟨rfl, nofun⟩
    · exact Or.inl ⟨rfl, fun left same => Option.some.inj same ▸ rfl⟩
  | cancels selecting stopped => exact Or.inl ⟨rfl, nofun⟩

theorem LoopStep.same_id (moves : LoopStep script state l move used after) :
    ∀ left ∈ after, left.id = l.id := by
  rcases moves.cases with ⟨rfl, _⟩ | ⟨phase, rfl⟩
  · exact nofun
  · exact fun left same => Option.some.inj same ▸ rfl

theorem mem_moved_iff {before rest : List (PollLoop ρ α)}
    (moves : LoopStep script state l move used after) {other : PollLoop ρ α} (differs : other.id ≠ l.id) :
    other ∈ before ++ after.toList ++ rest ↔ other ∈ before ++ l :: rest := by
  have notMoved : other ≠ l := fun same => differs (congrArg PollLoop.id same)
  have notLeft : other ∉ after.toList := fun listed =>
    differs (moves.same_id other (Option.mem_toList.mp listed))
  simp only [List.mem_append, List.mem_cons, notMoved, notLeft, false_or, or_false]

theorem absent_moved {before rest : List (PollLoop ρ α)}
    (among : state.poll.loops = before ++ l :: rest)
    (moves : LoopStep script state l move used after) (differs : id ≠ l.id)
    (absent : ∀ other ∈ state.poll.loops, other.id ≠ id) :
    ∀ other ∈ before ++ after.toList ++ rest, other.id ≠ id := by
  intro other listed same
  exact absent other (among ▸ (mem_moved_iff moves (same.trans_ne differs)).mp listed) same

/-- What the loop with a number is expected to do after a move of one loop: the same as before, or, if it
was that loop's turn, the other turn. -/
theorem expects_moved (consistent : state.poll.Consistent) (expects : state.poll.Expects id turn)
    {before rest : List (PollLoop ρ α)} (among : state.poll.loops = before ++ l :: rest)
    (moves : LoopStep script state l move used after) :
    (Happening.turn? id (.moved l.id move) = none ∧
        Poll.Expects { state.poll with loops := before ++ after.toList ++ rest } id turn) ∨
      (Happening.turn? id (.moved l.id move) = some turn ∧
        Poll.Expects { state.poll with loops := before ++ after.toList ++ rest } id turn.other) := by
  have member : l ∈ state.poll.loops := by
    rw [among]
    exact List.mem_append_right _ (List.mem_cons_self ..)
  by_cases own : l.id = id
  · have expected : turn = l.phase.nextTurn := expects.turn_eq consistent member own
    -- Whatever its turn is now, a loop that has ended may be expected to take it.
    have left (next : Turn) (phase : ∀ left ∈ after, left.phase.nextTurn = next) :
        Poll.Expects { state.poll with loops := before ++ after.toList ++ rest } id next := by
      cases ended : after with
      | none =>
        exact .gone next (own ▸ consistent.numbered l member) (own ▸ consistent.id_ne_of_removed among)
      | some left =>
        rw [← phase left ended]
        exact .present (List.mem_append_left _ (List.mem_append_right _ (List.mem_singleton_self _)))
          ((moves.same_id left ended).trans own)
    have turns : Happening.turn? id (.moved l.id move) = move.turn? := if_pos own
    rw [turns, expected]
    exact moves.turns.imp (And.imp_right (left _)) (And.imp_right (left _))
  · refine Or.inl ⟨if_neg own, ?_⟩
    cases expects with
    | present listed numbered =>
      exact .present ((mem_moved_iff moves (numbered.trans_ne (Ne.symm own))).mpr (among ▸ listed)) numbered
    | future above => exact .future above
    | gone turn below absent =>
      exact .gone turn below (absent_moved among moves (Ne.symm own) absent)

/-- A step is the expected turn of a loop, and then the other turn is expected, or it is none of its
turns. -/
theorem Step.turns {happening : Happening ρ α} (step : Step script state happening next)
    (consistent : state.poll.Consistent) (expects : state.poll.Expects id turn) :
    (happening.turn? id = none ∧ next.poll.Expects id turn) ∨
      (happening.turn? id = some turn ∧ next.poll.Expects id turn.other) := by
  cases step with
  | call call => exact Or.inl ⟨rfl, expects.perform call⟩
  | pass millis => exact Or.inl ⟨rfl, expects⟩
  | move among moves => exact expects_moved consistent expects among moves

/-- The turns of a loop alternate, from the one that it takes next. -/
theorem Run.turns (run : Run script state trace last) (consistent : state.poll.Consistent)
    (expects : state.poll.Expects id turn) :
    turn.Alternate (trace.filterMap (Happening.turn? id)) := by
  induction run generalizing turn with
  | refl state => trivial
  | @step state next last happening trace first rest ih =>
    have later := first.consistent consistent
    rw [List.filterMap_cons]
    rcases first.turns consistent expects with ⟨silent, same⟩ | ⟨taken, other⟩
    · rw [silent]
      exact ih later same
    · rw [taken]
      exact ⟨rfl, ih later other⟩

theorem Step.requestless {happening : Happening ρ α} (step : Step script state happening next)
    (gone : state.poll.request = none) : next.poll.request = none := by
  cases step with
  | call call =>
    cases call with
    | start =>
      exact (congrArg Poll.request (state.poll.start_of_requestless gone)).trans gone
    | stop => exact state.poll.stop_request.trans gone
    | destroy => rfl
    | runNow | setInterval interval | onData panics | onError panics | unsubscribe subscription =>
      exact gone
  | pass millis => exact gone
  | move among moves => exact gone

/-- After it was destroyed a poll is without a request. -/
theorem Run.requestless (run : Run script state trace last)
    (destroyed : .called .destroy ∈ trace) : last.poll.request = none := by
  obtain ⟨before, after, rfl⟩ := List.append_of_mem destroyed
  obtain ⟨middle, -, rest⟩ := run.split
  cases rest with
  | step first rest =>
    cases first with
    | call call =>
      refine rest.induction ?_ Step.requestless
      rfl

/-- A loop that has finished the request has published its outcome, to the subscribers of its kind. -/
theorem Run.notifies {id : Nat} {events deliveries : List (PollEvent ρ α)}
    {outcome : Except ClientError α} {before after : List (Happening ρ α)}
    (run : Run script state (before ++ .moved id (.finished events outcome deliveries) :: after) last) :
    ∃ middle, Run script state before middle ∧
      deliveries.filterMap PollEvent.delivery? =
        (middle.poll.subscribers outcome.isOk).map (·, outcome) := by
  obtain ⟨middle, reached, rest⟩ := run.split
  refine ⟨middle, reached, ?_⟩
  cases rest with
  | step finishes _ =>
    cases finishes with
    | move among moves =>
      cases moves with
      | finishes => exact middle.poll.deliveries_publish _ outcome

/-- The number of loops that were not stopped is one while the poll is running, and else it is zero.
Every loop takes the request and publishes its outcome by turns, and the publication reaches those who are
subscribed then, one after the other. Once it was destroyed a poll does not run, and a start changes
nothing. -/
theorem single_live_loop {hasRuntime : Bool} {request : Exchange ρ (Except ClientError α)}
    {interval : Duration} {poll : Poll ρ α} {moment : Moment}
    (created : Poll.create hasRuntime request interval = .ok poll)
    (run : Run script ⟨poll, moment⟩ trace last) :
    (last.poll.loops.filter fun l => !l.cancelled).length = (if last.poll.isRunning then 1 else 0) ∧
      (∀ id, Turn.Alternate .began (trace.filterMap (Happening.turn? id))) ∧
      (∀ before id events outcome deliveries after,
        trace = before ++ .moved id (.finished events outcome deliveries) :: after →
        ∃ middle, Run script ⟨poll, moment⟩ before middle ∧
          deliveries.filterMap PollEvent.delivery? =
            (middle.poll.subscribers outcome.isOk).map (·, outcome)) ∧
      (.called .destroy ∈ trace →
        last.poll.isRunning = false ∧ last.poll.perform .start = last.poll) := by
  have first := Poll.consistent_of_create created
  have consistent := run.consistent first
  refine ⟨?_, fun id => ?_, ?_, fun destroyed => ?_⟩
  · rw [← List.length_map (f := PollLoop.id), consistent.live, Poll.isRunning]
    cases last.poll.running <;> rfl
  · obtain rfl := Poll.eq_of_create created
    have fresh : Poll.Expects { request := some request, interval := interval : Poll ρ α } id .began := by
      rcases Nat.eq_zero_or_pos id with rfl | above
      · exact .gone .began le_rfl nofun
      · exact .future above
    exact run.turns first (fresh.perform .start)
  · rintro before id events outcome deliveries after rfl
    exact run.notifies
  · have gone := run.requestless destroyed
    refine ⟨?_, last.poll.start_of_requestless gone⟩
    rw [Poll.isRunning, consistent.requested gone]
    rfl

/-- A poll that shows a subscriber what it gets, is stopped in the middle of its second request and started
again, and destroyed in the middle of the next one: two loops are about, and neither is live. -/
theorem single_live_loop_restarted :
    ∃ (poll : Poll Unit Nat) (trace : List (Happening Unit Nat)) (middle last : PollAt Unit Nat),
      Poll.create true (.done (.ok 7)) (.ofSeconds 1) = .ok poll ∧
      Run (fun _ => ⟨.ok .null, 0⟩) ⟨poll, {}⟩ trace last ∧
      last.poll.loops.map PollLoop.id = [1, 2] ∧ .called .destroy ∈ trace ∧
      (last.poll.loops.filter fun l => !l.cancelled).length = 0 ∧
      (∀ id, Turn.Alternate .began (trace.filterMap (Happening.turn? id))) ∧
      trace.filterMap (Happening.turn? 1) = [.began, .finished, .began] ∧
      Run (fun _ => ⟨.ok .null, 0⟩) ⟨poll, {}⟩ (trace.take 2) middle ∧
      [(1, .ok 7)] = (middle.poll.subscribers true).map (·, (.ok 7 : Except ClientError Nat)) ∧
      last.poll.isRunning = false ∧ last.poll.perform .start = last.poll := by
  obtain ⟨poll, created, last, run, two⟩ : ∃ poll : Poll Unit Nat,
      Poll.create true (.done (.ok 7)) (.ofSeconds 1) = .ok poll ∧ ∃ last,
        Run (fun _ => ⟨.ok .null, 0⟩) ⟨poll, {}⟩ [.called (.onData fun _ => none), .moved 1 .began,
          .moved 1 (.finished [] (.ok 7) [.data 1 0 7]), .passed 1000, .moved 1 .awoke,
          .moved 1 .began, .called .stop, .called .start, .moved 2 .began, .called .destroy] last ∧
        last.poll.loops.map PollLoop.id = [1, 2] :=
    ⟨_, rfl, _,
      .step (.call _) <|
      .step (.move (l := ⟨1, false, .ready⟩) (List.nil_append _).symm (.begins rfl rfl)) <|
      .step (.move (l := ⟨1, false, _⟩) (List.nil_append _).symm
        (@LoopStep.finishes _ _ _ _ _ _ [] _ (.ok 7) _ rfl rfl (.stays nofun))) <|
      .step (.pass 1000) <|
      .step (.move (l := ⟨1, false, _⟩) (List.nil_append _).symm (.awakes rfl (.inl (by decide)))) <|
      .step (.move (l := ⟨1, false, .ready⟩) (List.nil_append _).symm (.begins rfl rfl)) <|
      .step (.call .stop) <| .step (.call .start) <|
      .step (.move (l := ⟨2, false, .ready⟩) (List.singleton_append).symm (.begins rfl rfl)) <|
      .step (.call .destroy) <| .refl _, rfl⟩
  obtain ⟨live, turns, published, final⟩ := single_live_loop created run
  obtain ⟨idle, same⟩ := final (by simp)
  obtain ⟨middle, reached, notified⟩ :=
    published [.called (.onData fun _ => none), .moved 1 .began] _ _ _ _ _ rfl
  rw [idle] at live
  exact ⟨poll, _, middle, last, created, run, two, by simp, live, turns, rfl, reached, notified, idle, same⟩

end PollAt

end OData
