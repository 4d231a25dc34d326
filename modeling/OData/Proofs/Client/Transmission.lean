import Mathlib
import OData.Client.Basic
import OData.Proofs.Client.Retry

namespace OData

open OData.Time

variable {ρ α : Type}

/-- One request was sent, `count` times in a row and nothing else, and the result is the reply to the
last of them. -/
structure SendsOnly (script : Script) (start : Moment) (request : ρ) (count : Nat)
    (played : Played ρ (Except ClientError Json)) : Prop where
  positive : 1 ≤ count
  requests : Event.requests played.events = List.replicate count request
  value : played.value = (script (start.used + count - 1)).outcome
  used : played.after.used = start.used + count

/-- A successful reply that has a value as its payload. -/
def Reports (reply : Except ClientError Json) (value : Json) : Prop :=
  ∃ fields, reply = .ok (.object fields) ∧ fields.lookup "d" = some value ∧ value ≠ .null

theorem payload_eq_ok_iff {response value : Json} :
    payload response = .ok value ↔ Reports (.ok response) value := by
  constructor
  · intro read
    unfold payload at read
    split at read
    · split at read
      · cases read
      · cases read
      · next fields _ _ nonnull found =>
        obtain rfl := Except.ok.inj read
        refine ⟨fields, rfl, found, ?_⟩
        rintro rfl
        exact nonnull rfl
    · cases read
    · cases read
  · rintro ⟨fields, ⟨⟩, found, other⟩
    cases value with
    | null => exact absurd rfl other
    | _ => simp only [payload, found]

theorem Reports.unique {reply : Except ClientError Json} {value other : Json}
    (first : Reports reply value) (second : Reports reply other) : value = other := by
  obtain ⟨fields, rfl, found, _⟩ := first
  obtain ⟨_, ⟨⟩, again, _⟩ := second
  exact Option.some.inj (found.symm.trans again)

theorem Event.requests_flatMap_range {events : Nat → List (Event ρ)} {request : ρ}
    (each : ∀ index, requests (events index) = [request]) (count : Nat) :
    requests ((List.range count).flatMap events) = List.replicate count request := by
  induction count with
  | zero => rfl
  | succ count ih =>
    rw [List.range_succ, List.flatMap_append, requests_append, ih, List.flatMap_singleton, each,
      List.replicate_succ']

namespace RetryPolicy

variable {policy : RetryPolicy} {computed : Nat → Duration}

theorem requests_pauseEvents (number : Nat) (outcome : Except ClientError α) :
    Event.requests (policy.pauseEvents computed number outcome : List (Event ρ)) = [] := by
  cases outcome with
  | ok value => rfl
  | error error =>
    rw [pauseEvents]
    cases policy.observed <;> rfl

/-- Waiting uses up no reply, so the attempts of a request get one reply after another. -/
theorem attemptAt_ask (policy : RetryPolicy) (computed : Nat → Duration) (script : Script)
    (start : Moment) (request : ρ) (number index : Nat) :
    ((policy.attemptAt computed (.ask request) script number start index).value =
        (script (start.used + index)).outcome ∧
      (policy.attemptAt computed (.ask request) script number start index).after.used =
        start.used + index + 1) ∧
    (policy.attemptAt computed (.ask request) script number start index).events =
      [.sent request] := by
  induction index generalizing number start with
  | zero => exact ⟨⟨rfl, rfl⟩, rfl⟩
  | succ index ih =>
    have waited : (policy.resumption computed number
        ((Exchange.ask request).play script start)).used = start.used + 1 := by
      rw [resumption]
      split <;> rfl
    have later := ih (policy.resumption computed number ((Exchange.ask request).play script start))
      (number + 1)
    rw [waited, Nat.add_assoc start.used 1 index, Nat.add_comm 1 index] at later
    exact later

theorem run_ask (policy : RetryPolicy) (script : Script) (start : Moment) (request : ρ) :
    ∃ count, SendsOnly script start request count
      ((policy.run (.ask request)).play script start) := by
  obtain ⟨last, ends⟩ := policy.runWith_endsAfter policy.backoff.delay (.ask request) script start
  obtain ⟨⟨value, used⟩, events⟩ :=
    attemptAt_ask policy policy.backoff.delay script start request 1 last
  refine ⟨last + 1, Nat.le_add_left .., ?_, ends.value.trans value, ?_⟩
  · have each (index : Nat) : Event.requests
        ((policy.attemptAt policy.backoff.delay (.ask request) script 1 start index).events ++
          policy.pauseEvents policy.backoff.delay (index + 1)
            (policy.attemptAt policy.backoff.delay (.ask request) script 1 start index).value) =
          [request] := by
      rw [Event.requests_append, requests_pauseEvents, (attemptAt_ask policy _ script start request 1 index).2]
      rfl
    have earlier := Event.requests_flatMap_range each last
    rw [run, ends.events, Event.requests_append, earlier, events,
      List.replicate_succ']
    rfl
  · rw [run, ends.after, used]
    rfl

end RetryPolicy

namespace Client

theorem play_compile (client : Client) (query : Query) (script : Script) (start : Moment) :
    (client.compile query).play script start =
      ⟨query.compile.outcome.mapError .compile,
        query.compile.reports.map fun report => .noted (.deprecated report), start⟩ :=
  Exchange.play_ofCompilation script start query.compile

/-- What follows a compiled query begins after the reports of its compilation. -/
theorem compile_bind {client : Client} {query : Query} {url : Text}
    (run : query.compile.outcome = .ok url) (next : Text → Session Request α) :
    client.compile query >>= next =
      ExceptT.mk (Exchange.announce query.compile.reports (next url).run) := by
  have whole := Exchange.ofCompilation_bind query.compile (ExceptT.bindCont next)
  rw [run] at whole
  exact whole

theorem compile_bind_error {client : Client} {query : Query} {error : Error}
    (run : query.compile.outcome = .error error) (next : Text → Session Request α) :
    client.compile query >>= next =
      ExceptT.mk (Exchange.announce query.compile.reports (.done (.error (.compile error)))) := by
  have whole := Exchange.ofCompilation_bind query.compile (ExceptT.bindCont next)
  rw [run] at whole
  exact whole

/-- Sends one request under a policy, if there is one. -/
def transmit (policy : Option RetryPolicy) (request : Request) : Session Request Json :=
  match policy with
  | some policy => ExceptT.mk (policy.run (.ask request))
  | none => ExceptT.mk (.ask request)

theorem dispatch_eq_transmit (client : Client) (params : RequestParams) (compiled : Text) :
    client.dispatch params compiled =
      transmit (params.retry.resolve client.retry) (client.requestFor params compiled) := by
  unfold dispatch
  cases params.retry.resolve client.retry with
  | none => rfl
  | some policy => rfl

theorem transmit_sendsOnly (policy : Option RetryPolicy) (request : Request) (script : Script)
    (start : Moment) :
    ∃ count, SendsOnly script start request count
      (Session.play script start (transmit policy request)) := by
  cases policy with
  | some policy => exact policy.run_ask script start request
  | none => exact ⟨1, Nat.le_refl 1, rfl, rfl, rfl⟩

variable {client : Client} {params : RequestParams} {script : Script} {start : Moment}

/-- A request whose query compiles is sent, and nothing else is. -/
theorem request_sendsOnly {url : Text} (run : params.query.compile.outcome = .ok url) :
    ∃ count, SendsOnly script start (client.requestFor params url) count
      ((client.request params).play script start) := by
  obtain ⟨count, sent⟩ := transmit_sendsOnly (params.retry.resolve client.retry)
    (client.requestFor params url) script start
  have announced : (client.request params).play script start = _ :=
    (congrArg (Session.play script start) (compile_bind run _)).trans
      (Exchange.play_announce script start _ _)
  rw [dispatch_eq_transmit] at announced
  refine ⟨count, sent.positive, ?_, ?_, ?_⟩
  · rw [announced, Event.requests_append, Event.requests_deprecated, List.nil_append]
    exact sent.requests
  · rw [announced]
    exact sent.value
  · rw [announced]
    exact sent.used

/-- A request whose query does not compile ends before anything is sent. -/
theorem play_request_refused {error : Error} (run : params.query.compile.outcome = .error error) :
    (client.request params).play script start =
      ⟨.error (.compile error),
        params.query.compile.reports.map fun report => .noted (.deprecated report), start⟩ := by
  have announced : (client.request params).play script start = _ :=
    (congrArg (Session.play script start) (compile_bind_error run _)).trans
      (Exchange.play_announce script start _ _)
  rw [announced, Exchange.play, List.append_nil]

end Client

end OData
