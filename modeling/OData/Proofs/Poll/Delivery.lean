import Mathlib
import OData.Proofs.Poll.Loops

namespace OData

open OData.Time

-- Powers of numbers are those of the core library, whatever else is in scope.
attribute [local instance (high)] instPowNat

variable {ρ α : Type}

/-- The outcome that is published in this step. -/
def Happening.outcome? : Happening ρ α → Option (Except ClientError α)
  | .moved _ (.finished _ outcome _) => some outcome
  | _ => none

/-- The call removes the subscriber with this number. -/
def PollCall.removes (id : Nat) : PollCall α → Bool
  | .unsubscribe subscription => subscription = id
  | .destroy => true
  | _ => false

def Happening.removes (id : Nat) : Happening ρ α → Bool
  | .called call => call.removes id
  | _ => false

/-- What reaches subscribers in this step, and through which subscriptions. -/
def Happening.deliveries (happening : Happening ρ α) : List (Nat × Except ClientError α) :=
  happening.events.filterMap PollEvent.delivery?

/-- How many subscribers were added. -/
def registrations (trace : List (Happening ρ α)) : Nat :=
  (trace.filterMap Happening.registers?).length

/-- What reached a subscriber. -/
def received (id : Nat) (trace : List (Happening ρ α)) : List (Except ClientError α) :=
  ((trace.flatMap Happening.deliveries).filter (·.1 = id)).map Prod.snd

/-- What was published: the successes, or the failures. -/
def published (successes : Bool) (trace : List (Happening ρ α)) : List (Except ClientError α) :=
  (trace.filterMap Happening.outcome?).filter (·.isOk = successes)

/-- What happens until a subscriber is removed. -/
def untilRemoved (id : Nat) (trace : List (Happening ρ α)) : List (Happening ρ α) :=
  trace.takeWhile (! ·.removes id)

namespace Poll

variable {poll : Poll ρ α} {count id : Nat} {toData : Bool}

theorem subscribers_unsubscribe (poll : Poll ρ α) (id : Nat) (toData : Bool) :
    (poll.perform (.unsubscribe id)).subscribers toData = (poll.subscribers toData).filter (· != id) := by
  have kept {β : Type} (subscribers : List (Subscriber β)) :
      (subscribers.filter (·.id ≠ id)).map Subscriber.id =
        (subscribers.map Subscriber.id).filter (· != id) := by
    rw [List.filter_map]
    refine congrArg (List.map _) (List.filter_congr fun s _ => ?_)
    exact decide_not
  cases toData with
  | true => exact kept poll.data
  | false => exact kept poll.errors

/-- What a call makes of the subscribers: it removes some, and a registration adds the next one at the
end. -/
theorem subscribers_perform (poll : Poll ρ α) (call : PollCall α) (toData : Bool) :
    (poll.perform call).subscribers toData =
      (poll.subscribers toData).filter (! call.removes ·) ++
        if call.registers? = some toData then [poll.nextSubscription] else [] := by
  cases call with
  | start | stop | runNow | setInterval interval =>
    cases toData <;> simp [subscribers, perform, PollCall.removes, PollCall.registers?, runNow,
      setInterval, signalled]
  | destroy =>
    cases toData <;> simp [subscribers, perform, destroy, PollCall.removes, PollCall.registers?]
  | onData panics | onError panics =>
    cases toData <;> simp [subscribers, perform, onData, onError, PollCall.removes, PollCall.registers?]
  | unsubscribe subscription =>
    have silent : (PollCall.unsubscribe subscription : PollCall α).registers? ≠ some toData :=
      (Option.some_ne_none toData).symm
    rw [subscribers_unsubscribe, if_neg silent, List.append_nil]
    refine List.filter_congr fun id _ => ?_
    exact congrArg (! ·) (decide_eq_decide.mpr eq_comm)

/-- The subscriptions are numbered from one on, each kind is in the order of the numbers, and no number is
of both kinds. -/
structure Subscribed (poll : Poll ρ α) (count : Nat) : Prop where
  last : poll.lastSubscription = count
  ordered : ∀ toData, (poll.subscribers toData).Pairwise (· < ·)
  bounded : ∀ toData, ∀ id ∈ poll.subscribers toData, id ≤ count
  disjoint : ∀ id ∈ poll.subscribers true, id ∉ poll.subscribers false

theorem lastSubscription_perform (poll : Poll ρ α) (call : PollCall α) :
    (poll.perform call).lastSubscription =
      if call.registers?.isSome then poll.nextSubscription else poll.lastSubscription := by
  cases call with
  | start => exact poll.start_lastSubscription
  | stop | destroy => exact poll.stop_lastSubscription
  | runNow | setInterval interval | onData panics | onError panics | unsubscribe subscription => rfl

theorem Subscribed.nextSubscription_eq (subscribed : poll.Subscribed count)
    (few : count + 1 < 2 ^ 64) : poll.nextSubscription = count + 1 := by
  rw [nextSubscription, subscribed.last, Nat.mod_eq_of_lt few]

/-- The number of a subscriber is an earlier one, or it is the next one. -/
theorem Subscribed.mem_perform_iff (subscribed : poll.Subscribed count) {call : PollCall α}
    (few : count + call.registers?.toList.length < 2 ^ 64) :
    id ∈ (poll.perform call).subscribers toData ↔
      id ∈ poll.subscribers toData ∧ call.removes id = false ∨
        call.registers? = some toData ∧ id = count + 1 := by
  rw [subscribers_perform, List.mem_append, List.mem_filter, Bool.not_eq_true']
  cases registers : call.registers? with
  | none => simp
  | some kind =>
    rw [registers] at few
    rw [subscribed.nextSubscription_eq few]
    split
    · next same => simp [same]
    · next other => simp [other]

theorem Subscribed.perform (subscribed : poll.Subscribed count) {call : PollCall α}
    (few : count + call.registers?.toList.length < 2 ^ 64) :
    (poll.perform call).Subscribed (count + call.registers?.toList.length) := by
  have earlier (toData : Bool) : ∀ id ∈ (poll.subscribers toData).filter (! call.removes ·), id ≤ count :=
    fun id listed => subscribed.bounded toData id (List.mem_of_mem_filter listed)
  refine ⟨?_, fun toData => ?_, fun toData id listed => ?_, fun id data errors => ?_⟩
  · rw [lastSubscription_perform]
    cases registers : call.registers? with
    | none => exact subscribed.last
    | some kind =>
      rw [registers] at few
      exact subscribed.nextSubscription_eq few
  · rw [subscribers_perform]
    have kept := (subscribed.ordered toData).filter (! call.removes ·)
    split
    · next registers =>
      rw [registers] at few
      rw [subscribed.nextSubscription_eq few]
      refine List.pairwise_append.mpr ⟨kept, List.pairwise_singleton _ _, fun id listed next new => ?_⟩
      rw [List.mem_singleton.mp new]
      exact Nat.lt_succ_of_le (earlier toData id listed)
    · rw [List.append_nil]
      exact kept
  · rcases (subscribed.mem_perform_iff few).mp listed with ⟨old, -⟩ | ⟨registers, rfl⟩
    · exact (subscribed.bounded toData id old).trans (Nat.le_add_right _ _)
    · rw [registers]
      rfl
  · -- A new number is above all the earlier ones, and a registration is of one kind.
    rcases (subscribed.mem_perform_iff few).mp data with ⟨oldData, -⟩ | ⟨registersData, rfl⟩ <;>
      rcases (subscribed.mem_perform_iff few).mp errors with ⟨oldErrors, -⟩ | ⟨registersErrors, new⟩
    · exact subscribed.disjoint id oldData oldErrors
    · exact absurd (subscribed.bounded true id oldData) (by omega)
    · exact absurd (subscribed.bounded false _ oldErrors) (by omega)
    · exact absurd (registersData.symm.trans registersErrors) (by decide)

theorem subscribed_of_create {hasRuntime : Bool} {request : Exchange ρ (Except ClientError α)}
    {interval : Duration} (created : Poll.create hasRuntime request interval = .ok poll) :
    poll.Subscribed 0 := by
  have nobody (toData : Bool) : poll.subscribers toData = [] := by
    rw [← eq_of_create created]
    cases toData <;> simp [subscribers]
  refine ⟨?_, fun toData => ?_, fun toData id listed => ?_, fun id data => ?_⟩
  · rw [← eq_of_create created]
    exact start_lastSubscription _
  · rw [nobody]
    exact .nil
  · rw [nobody] at listed
    cases listed
  · rw [nobody] at data
    cases data

theorem Subscribed.mem_iff (subscribed : poll.Subscribed count) (present : id ∈ poll.subscribers toData)
    (other : Bool) : id ∈ poll.subscribers other ↔ other = toData := by
  refine ⟨fun listed => ?_, fun same => same ▸ present⟩
  cases other <;> cases toData
  · rfl
  · exact absurd listed (subscribed.disjoint id present)
  · exact absurd present (subscribed.disjoint id listed)
  · rfl

end Poll

namespace PollAt

variable {script : Script} {state next last : PollAt ρ α} {happening : Happening ρ α}
  {trace : List (Happening ρ α)} {count id : Nat} {toData : Bool}

theorem deliveries_filterMap_ofEvent (events : List (Event ρ)) :
    (events.filterMap (ofEvent (α := α))).filterMap PollEvent.delivery? = [] := by
  refine List.filterMap_eq_nil_iff.mpr fun event listed => ?_
  obtain ⟨source, -, kept⟩ := List.mem_filterMap.mp listed
  exact delivery?_of_ofEvent kept

/-- A step that publishes an outcome notifies the subscribers of its kind, and no other step notifies
anybody. -/
theorem Step.deliveries_eq (step : Step script state happening next) :
    happening.deliveries = happening.outcome?.toList.flatMap fun outcome =>
      (state.poll.subscribers outcome.isOk).map (·, outcome) := by
  cases step with
  | call call => rfl
  | pass millis => rfl
  | move among moves =>
    cases moves with
    | requestless | begins | awakes | restarts | cancels => rfl
    | goesOn resumed advanced arrives => exact deliveries_filterMap_ofEvent _
    | @finishes conversation events used outcome after resumed advanced arrives =>
      rw [Happening.deliveries, Happening.events, List.filterMap_append, deliveries_filterMap_ofEvent,
        Poll.deliveries_publish]
      exact (List.flatMap_singleton ..).symm

theorem Step.subscribed (step : Step script state happening next) (subscribed : state.poll.Subscribed count)
    (few : count + happening.registers?.toList.length < 2 ^ 64) :
    next.poll.Subscribed (count + happening.registers?.toList.length) := by
  cases step with
  | call call => exact subscribed.perform few
  | pass millis => exact subscribed
  | move among moves =>
    exact ⟨subscribed.last, subscribed.ordered, subscribed.bounded, subscribed.disjoint⟩

theorem Step.mem_subscribers_iff (step : Step script state happening next)
    (subscribed : state.poll.Subscribed count)
    (few : count + happening.registers?.toList.length < 2 ^ 64) :
    id ∈ next.poll.subscribers toData ↔
      id ∈ state.poll.subscribers toData ∧ happening.removes id = false ∨
        happening.registers? = some toData ∧ id = count + 1 := by
  cases step with
  | call call => exact subscribed.mem_perform_iff few
  | pass millis => exact ⟨fun listed => Or.inl ⟨listed, rfl⟩, fun either => (either.resolve_right nofun).1⟩
  | move among moves =>
    exact ⟨fun listed => Or.inl ⟨listed, rfl⟩, fun either => (either.resolve_right nofun).1⟩

theorem registrations_cons (happening : Happening ρ α) (trace : List (Happening ρ α)) :
    registrations (happening :: trace) = happening.registers?.toList.length + registrations trace := by
  rw [registrations, registrations, List.filterMap_cons]
  cases happening.registers? with
  | none => exact (Nat.zero_add _).symm
  | some toData => exact Nat.add_comm _ 1

theorem registrations_append (before after : List (Happening ρ α)) :
    registrations (before ++ after) = registrations before + registrations after := by
  rw [registrations, List.filterMap_append, List.length_append, registrations, registrations]

theorem received_append (id : Nat) (before after : List (Happening ρ α)) :
    received id (before ++ after) = received id before ++ received id after := by
  rw [received, List.flatMap_append, List.filter_append, List.map_append, received, received]

theorem published_cons (successes : Bool) (happening : Happening ρ α) (trace : List (Happening ρ α)) :
    published successes (happening :: trace) =
      happening.outcome?.toList.filter (·.isOk = successes) ++ published successes trace := by
  rw [published, published, List.filterMap_cons]
  cases happening.outcome? with
  | none => rfl
  | some outcome => rw [Option.toList_some, ← List.filter_append, List.singleton_append]

/-- What one step brings a subscriber: the outcome that is published, if the subscriber is one to it. -/
theorem Step.received_eq (step : Step script state happening next)
    (subscribed : state.poll.Subscribed count) (id : Nat) :
    received id [happening] =
      happening.outcome?.toList.filter fun outcome => id ∈ state.poll.subscribers outcome.isOk := by
  rw [received, List.flatMap_singleton, step.deliveries_eq]
  cases happening.outcome? with
  | none => rfl
  | some outcome =>
    have once := (subscribed.ordered outcome.isOk).nodup.count (a := id)
    have own : (fun delivery : Nat × Except ClientError α => decide (delivery.1 = id)) ∘ (·, outcome) =
        fun subscription => decide (subscription = id) := rfl
    rw [Option.toList_some, List.flatMap_singleton, List.filter_map, List.map_map, own, List.filter_eq,
      once, List.filter_singleton]
    by_cases listed : id ∈ state.poll.subscribers outcome.isOk <;> simp [listed]

theorem Run.subscribed (run : Run script state trace last) (subscribed : state.poll.Subscribed count)
    (few : count + registrations trace < 2 ^ 64) : last.poll.Subscribed (count + registrations trace) := by
  induction run generalizing count with
  | refl state => exact subscribed
  | step first rest ih =>
    rw [registrations_cons, ← Nat.add_assoc] at few ⊢
    exact ih (first.subscribed subscribed (by omega)) few

/-- Nothing reaches a number that no subscriber has and that is not given on the way. -/
theorem Run.received_of_absent (run : Run script state trace last)
    (subscribed : state.poll.Subscribed count) (few : count + registrations trace < 2 ^ 64)
    (absent : ∀ toData, id ∉ state.poll.subscribers toData)
    (notGiven : id ≤ count ∨ count + registrations trace < id) : received id trace = [] := by
  induction run generalizing count with
  | refl state => rfl
  | @step state next last happening trace first rest ih =>
    rw [registrations_cons, ← Nat.add_assoc] at few notGiven
    have fewNow : count + happening.registers?.toList.length < 2 ^ 64 := by omega
    have nothing : received id [happening] = [] := by
      rw [first.received_eq subscribed]
      exact List.filter_eq_nil_iff.mpr fun outcome _ => by simpa using absent outcome.isOk
    rw [← List.singleton_append, received_append, nothing, List.nil_append]
    refine ih (first.subscribed subscribed fewNow) few (fun toData listed => ?_) (by omega)
    rcases (first.mem_subscribers_iff subscribed fewNow).mp listed with ⟨old, -⟩ | ⟨registers, new⟩
    · exact absent toData old
    · rw [registers, Option.toList_some, List.length_singleton] at notGiven
      omega

/-- A subscriber gets what is published of its kind until it is removed. -/
theorem Run.received_of_present (run : Run script state trace last)
    (subscribed : state.poll.Subscribed count) (few : count + registrations trace < 2 ^ 64)
    (present : id ∈ state.poll.subscribers toData) :
    received id trace = published toData (untilRemoved id trace) := by
  induction run generalizing count with
  | refl state => rfl
  | @step state next last happening trace first rest ih =>
    rw [registrations_cons, ← Nat.add_assoc] at few
    have fewNow : count + happening.registers?.toList.length < 2 ^ 64 := by omega
    have later := first.subscribed subscribed fewNow
    rw [← List.singleton_append, received_append, first.received_eq subscribed, List.singleton_append,
      untilRemoved, List.takeWhile_cons]
    cases removed : happening.removes id with
    | true =>
      -- What removes a subscriber is a call, so nothing is published with it.
      have unpublished : happening.outcome? = none := by
        cases happening with
        | called call => rfl
        | passed millis => rfl
        | moved loop move => cases removed
      have bound := subscribed.bounded toData id present
      rw [unpublished, rest.received_of_absent later few (fun other listed => ?_) (Or.inl (by omega))]
      · rfl
      · rcases (first.mem_subscribers_iff subscribed fewNow).mp listed with ⟨-, kept⟩ | ⟨-, new⟩
        · exact absurd (kept.symm.trans removed) Bool.false_ne_true
        · omega
    | false =>
      have still := (first.mem_subscribers_iff subscribed fewNow).mpr (Or.inl ⟨present, removed⟩)
      have own : (fun outcome : Except ClientError α => decide (id ∈ state.poll.subscribers outcome.isOk)) =
          fun outcome => decide (outcome.isOk = toData) :=
        funext fun outcome => decide_eq_decide.mpr (subscribed.mem_iff present outcome.isOk)
      rw [own, ih later few still, Bool.not_false, if_pos rfl, published_cons]
      rfl

/-- A subscriber that is added on the way gets nothing before, and from then on what is published of its
kind until it is removed. -/
theorem Run.received_of_registered {before after : List (Happening ρ α)} {call : PollCall α}
    (run : Run script state (before ++ .called call :: after) last)
    (subscribed : state.poll.Subscribed count)
    (few : count + registrations (before ++ .called call :: after) < 2 ^ 64)
    (absent : ∀ toData, count + registrations before + 1 ∉ state.poll.subscribers toData)
    (registers : call.registers? = some toData) :
    received (count + registrations before + 1) (before ++ .called call :: after) =
      published toData (untilRemoved (count + registrations before + 1) after) := by
  obtain ⟨middle, earlier, rest⟩ := run.split
  rw [registrations_append, registrations_cons] at few
  have reached := earlier.subscribed subscribed (by omega)
  have nothing := earlier.received_of_absent subscribed (by omega) absent (Or.inr (Nat.lt_succ_self _))
  cases rest with
  | step first rest =>
    have given := (first.mem_subscribers_iff reached (by omega)).mpr (Or.inr ⟨registers, rfl⟩)
    rw [received_append, nothing, List.nil_append]
    exact rest.received_of_present (first.subscribed reached (by omega)) (by omega) given

theorem Step.deliveries_ordered {loop : Nat} {events deliveries : List (PollEvent ρ α)}
    {outcome : Except ClientError α}
    (step : Step script state (.moved loop (.finished events outcome deliveries)) next)
    (subscribed : state.poll.Subscribed count) :
    (deliveries.filterMap PollEvent.delivery?).Pairwise (·.1 < ·.1) := by
  cases step with
  | move among moves =>
    cases moves with
    | finishes resumed advanced arrives =>
      rw [Poll.deliveries_publish]
      exact List.pairwise_map.mpr (subscribed.ordered outcome.isOk)

end PollAt

/-- The same subscriber, but it never panics. -/
def Subscriber.calm {β : Type} (subscriber : Subscriber β) : Subscriber β :=
  { subscriber with panics := fun _ => none }

def PollCall.calm : PollCall α → PollCall α
  | .onData _ => .onData fun _ => none
  | .onError _ => .onError fun _ => none
  | call => call

def PollEvent.isPanic : PollEvent ρ α → Bool
  | .panicked _ _ => true
  | _ => false

def LoopMove.calm : LoopMove ρ α → LoopMove ρ α
  | .finished events outcome deliveries => .finished events outcome (deliveries.filter (! ·.isPanic))
  | move => move

/-- The same, but no subscriber panics. -/
def Happening.calm : Happening ρ α → Happening ρ α
  | .called call => .called call.calm
  | .passed millis => .passed millis
  | .moved loop move => .moved loop move.calm

theorem Happening.deliveries_calm (happening : Happening ρ α) :
    happening.calm.deliveries = happening.deliveries := by
  have same (events : List (PollEvent ρ α)) :
      (events.filter (! ·.isPanic)).filterMap PollEvent.delivery? =
        events.filterMap PollEvent.delivery? := by
    rw [List.filterMap_filter]
    refine List.filterMap_congr fun event _ => ?_
    cases event <;> rfl
  cases happening with
  | called call => rfl
  | passed millis => rfl
  | moved loop move =>
    cases move with
    | finished events outcome deliveries =>
      simp only [calm, LoopMove.calm, Happening.deliveries, Happening.events, List.filterMap_append, same]
    | _ => rfl

theorem received_calm (id : Nat) (trace : List (Happening ρ α)) :
    received id (trace.map Happening.calm) = received id trace := by
  rw [received, received, List.flatMap_map]
  simp only [Happening.deliveries_calm]

namespace Poll

def calm (poll : Poll ρ α) : Poll ρ α :=
  { poll with data := poll.data.map Subscriber.calm, errors := poll.errors.map Subscriber.calm }

theorem calm_perform (poll : Poll ρ α) (call : PollCall α) :
    (poll.perform call).calm = poll.calm.perform call.calm := by
  cases call with
  | start =>
    show poll.start.calm = poll.calm.start
    unfold Poll.start
    split
    · next idle => exact (if_pos idle).symm
    · next idle => exact (if_neg idle).symm
  | stop =>
    show poll.stop.calm = poll.calm.stop
    rw [stop_eq, stop_eq]
    rfl
  | destroy =>
    show poll.destroy.calm = poll.calm.destroy
    rw [destroy, destroy, stop_eq, stop_eq]
    rfl
  | runNow | setInterval interval => rfl
  | onData panics =>
    show (poll.onData panics).calm = poll.calm.onData fun _ => none
    simp only [onData, calm, List.map_append]
    rfl
  | onError panics =>
    show (poll.onError panics).calm = poll.calm.onError fun _ => none
    simp only [onError, calm, List.map_append]
    rfl
  | unsubscribe subscription =>
    show (poll.unsubscribe subscription).calm = poll.calm.unsubscribe subscription
    simp only [unsubscribe, calm, List.filter_map]
    rfl

theorem publish_calm (poll : Poll ρ α) (clock : Nat) (outcome : Except ClientError α) :
    (poll.calm.publish clock outcome : List (PollEvent ρ α)) =
      (poll.publish clock outcome).filter (! ·.isPanic) := by
  have notified {β : Type} (subscribers : List (Subscriber β)) (event : Nat → PollEvent ρ α)
      (ofData : Bool) (payload : β) (own : ∀ id, (event id).isPanic = false) :
      ((subscribers.map Subscriber.calm).flatMap fun s => event s.id ::
        ((s.panics payload).map (PollEvent.panicked ofData)).toList) =
      (subscribers.flatMap fun s => event s.id ::
        ((s.panics payload).map (PollEvent.panicked ofData)).toList).filter (! ·.isPanic) := by
    induction subscribers with
    | nil => rfl
    | cons s rest ih =>
      have panic : ((s.panics payload).map (PollEvent.panicked (ρ := ρ) (α := α) ofData)).toList.filter
          (! ·.isPanic) = [] := by
        cases s.panics payload <;> rfl
      rw [List.map_cons, List.flatMap_cons, List.flatMap_cons, ih, List.filter_append,
        List.filter_cons_of_pos (by rw [own]; rfl), panic]
      rfl
  cases outcome with
  | ok value => exact notified poll.data (.data · clock value) true value fun _ => rfl
  | error error => exact notified poll.errors (.error · clock error) false error fun _ => rfl

end Poll

namespace PollAt

variable {script : Script} {state next last : PollAt ρ α} {l : PollLoop ρ α}
  {move : LoopMove ρ α} {used : Nat} {after : Option (PollLoop ρ α)}
  {happening : Happening ρ α} {trace : List (Happening ρ α)}

def calm (state : PollAt ρ α) : PollAt ρ α := { state with poll := state.poll.calm }

theorem LoopStep.calm (moves : LoopStep script state l move used after) :
    LoopStep script state.calm l move.calm used after := by
  cases moves with
  | requestless about gone => exact .requestless about gone
  | begins about taken => exact .begins about taken
  | goesOn resumed advanced arrives => exact .goesOn resumed advanced arrives
  | @finishes conversation events used outcome after resumed advanced arrives =>
    rw [LoopMove.calm, ← Poll.publish_calm]
    show LoopStep script state.calm l (.finished _ outcome
      (state.calm.poll.publish state.calm.moment.clock outcome)) used after
    exact .finishes resumed advanced arrives
  | awakes waits ready => exact .awakes waits ready
  | restarts told arrives => exact .restarts told arrives
  | cancels selecting stopped => exact .cancels selecting stopped

theorem Step.calm (step : Step script state happening next) :
    Step script state.calm happening.calm next.calm := by
  cases step with
  | call call =>
    have performed : PollAt.calm { state with poll := state.poll.perform call } =
        { state.calm with poll := state.calm.poll.perform call.calm } :=
      congrArg (PollAt.mk · state.moment) (state.poll.calm_perform call)
    rw [performed]
    exact .call call.calm
  | pass millis => exact .pass millis
  | move among moves => exact .move among moves.calm

/-- Panics change nothing but that they are recorded. -/
theorem Run.calm (run : Run script state trace last) :
    Run script state.calm (trace.map Happening.calm) last.calm := by
  induction run with
  | refl state => exact .refl state.calm
  | step first _ ih => exact .step first.calm ih

/-- What reaches the subscribers of a poll. The subscription of a registration has the number of the
registration, and all its subscriber ever gets is what is published of its kind from then on until it is
removed. A publication comes to the subscribers in the order of their registrations. No number is used
twice. Without any panic the same happens, and everybody gets the same. -/
theorem exact_delivery {hasRuntime : Bool} {request : Exchange ρ (Except ClientError α)}
    {interval : Duration} {poll : Poll ρ α} {moment : Moment}
    (created : Poll.create hasRuntime request interval = .ok poll)
    (run : Run script ⟨poll, moment⟩ trace last) (few : registrations trace < 2 ^ 64) :
    (∀ before call after toData, trace = before ++ .called call :: after →
        call.registers? = some toData →
        received (registrations before + 1) trace =
          published toData (untilRemoved (registrations before + 1) after)) ∧
      (∀ loop events outcome deliveries, .moved loop (.finished events outcome deliveries) ∈ trace →
        (deliveries.filterMap PollEvent.delivery?).Pairwise (·.1 < ·.1)) ∧
      (last.poll.lastSubscription = registrations trace ∧
        (last.poll.subscribers true ++ last.poll.subscribers false).Nodup ∧
        ∀ id toData, (last.poll.perform (.unsubscribe id)).subscribers toData =
          (last.poll.subscribers toData).erase id) ∧
      (Run script ⟨poll, moment⟩ (trace.map Happening.calm) last.calm ∧
        ∀ id, received id (trace.map Happening.calm) = received id trace) := by
  have fresh := Poll.subscribed_of_create created
  have subscribed := run.subscribed fresh (by omega)
  rw [Nat.zero_add] at subscribed
  refine ⟨?delivered, ?ordered, ⟨subscribed.last, ?distinct, ?erased⟩, ?quiet, (received_calm · trace)⟩
  case delivered =>
    rintro before call after toData rfl registers
    have gets := run.received_of_registered fresh (by omega) (fun kind listed => ?_) registers
    · rwa [Nat.zero_add] at gets
    · exact absurd (fresh.bounded kind _ listed) (by omega)
  case ordered =>
    intro loop events outcome deliveries member
    obtain ⟨before, after, rfl⟩ := List.append_of_mem member
    obtain ⟨middle, earlier, rest⟩ := run.split
    rw [registrations_append] at few
    cases rest with
    | step first _ => exact first.deliveries_ordered (earlier.subscribed fresh (by omega))
  case distinct =>
    refine List.nodup_append.mpr ⟨(subscribed.ordered true).nodup, (subscribed.ordered false).nodup,
      fun id data other errors same => ?_⟩
    exact subscribed.disjoint id data (same ▸ errors)
  case erased =>
    intro id toData
    rw [Poll.subscribers_unsubscribe, (subscribed.ordered toData).nodup.erase_eq_filter]
  case quiet =>
    have same : poll.calm = poll := by
      rw [← Poll.eq_of_create created]
      exact Poll.calm_perform _ .start
    have calmed := run.calm
    rw [PollAt.calm, same] at calmed
    exact calmed

/-- Two subscribers to data, the first of which panics: a success comes to both, in their order. -/
theorem exact_delivery_panicking :
    ∃ (poll : Poll Unit Json) (after : List (Happening Unit Json)) (last : PollAt Unit Json),
      Poll.create true (Exchange.ask ()) (.ofSeconds 1) = .ok poll ∧
      Run (fun _ => ⟨.ok .null, 0⟩) ⟨poll, {}⟩ ([.called (.onData fun _ => some .unexplained)] ++
        .called (.onData fun _ => none) :: after) last ∧
      after.flatMap Happening.events =
        [.sent (), .data 1 0 .null, .panicked true .unexplained, .data 2 0 .null] ∧
      published true (untilRemoved 2 after) = [.ok .null] ∧
      received 2 ([.called (.onData fun _ => some .unexplained)] ++
        .called (.onData fun _ => none) :: after) = published true (untilRemoved 2 after) ∧
      last.poll.lastSubscription = 2 := by
  have created : Poll.create true (Exchange.ask ()) (.ofSeconds 1) =
      .ok (Poll.start { request := some (Exchange.ask ()), interval := .ofSeconds 1 }) := rfl
  have run : Run (fun _ => ⟨.ok .null, 0⟩)
      ⟨Poll.start { request := some (Exchange.ask ()), interval := .ofSeconds 1 }, {}⟩
      ([.called (.onData fun _ => some .unexplained)] ++ .called (.onData fun _ => none) :: _) _ :=
    .step (.call _) <| .step (.call _) <|
    .step (.move (l := ⟨1, false, .ready⟩) (List.nil_append _).symm (.begins rfl rfl)) <|
    .step (.move (l := ⟨1, false, _⟩) (List.nil_append _).symm (.finishes rfl rfl (.stays nofun))) <|
    .step (.call (.unsubscribe 1)) <| .refl _
  obtain ⟨delivered, -, ⟨numbered, -⟩, -⟩ := exact_delivery created run (show 2 < 2 ^ 64 by decide)
  have second := delivered _ (.onData fun _ => none) _ true rfl rfl
  exact ⟨_, _, _, created, run, rfl, rfl, second, numbered⟩

end PollAt

end OData
