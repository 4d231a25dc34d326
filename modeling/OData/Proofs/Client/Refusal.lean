import Mathlib
import OData.Poll.Subscribe
import OData.Proofs.Client.Prepared
import OData.Proofs.Client.Upsert

namespace OData

open OData.Time

variable {ρ α β : Type}

/-- The client itself turns the parameters down. -/
def ClientError.IsRefusal : ClientError → Prop
  | .compile _ | .invalidParameters _ => True
  | .httpStatus _ _ _ | .transport _ | .invalidResponse _ | .multipleResults => False

/-- No reply of the transport is a refusal of the client. -/
def Script.Honest (script : Script) : Prop :=
  ∀ index error, (script index).outcome = .error error → ¬ error.IsRefusal

namespace Session

/-- Nothing is sent. -/
def Silent (session : Session ρ α) : Prop :=
  ∀ script start, Event.requests (session.play script start).events = []

/-- With a transport that is honest there is no refusal. -/
def NeverRefuses (session : Session ρ α) : Prop :=
  ∀ script start, script.Honest → ∀ error,
    (session.play script start).value = .error error → ¬ error.IsRefusal

/-- With a transport that is honest a refusal comes before the first request. -/
def RefusesFirst (session : Session ρ α) : Prop :=
  ∀ script start, script.Honest → ∀ error,
    (session.play script start).value = .error error → error.IsRefusal →
    Event.requests (session.play script start).events = []

variable {session : Session ρ α} {first : Session ρ α} {next : α → Session ρ β}

theorem Silent.refusesFirst (silent : Silent session) : RefusesFirst session :=
  fun script start _ _ _ _ => silent script start

theorem NeverRefuses.refusesFirst (never : NeverRefuses session) : RefusesFirst session :=
  fun script start honest error failed refusal =>
    absurd refusal (never script start honest error failed)

theorem settled_silent (outcome : Except ClientError α) :
    Silent (ExceptT.mk (pure outcome) : Session ρ α) := fun _ _ => rfl

theorem Silent.bind_refusesFirst (head : Silent first) (tail : ∀ value, RefusesFirst (next value)) :
    RefusesFirst (first >>= next) := by
  intro script start honest error failed refusal
  have nothing := head script start
  cases passed : (first.play script start).value with
  | error cause =>
    rw [play_bind_error passed]
    exact nothing
  | ok value =>
    rw [play_bind_ok passed, Played.andThen] at failed
    rw [play_bind_ok passed, Played.andThen, Event.requests_append, nothing, List.nil_append]
    exact tail value script _ honest error failed refusal

theorem Silent.bind (head : Silent first) (tail : ∀ value, Silent (next value)) :
    Silent (first >>= next) := by
  intro script start
  have nothing := head script start
  cases passed : (first.play script start).value with
  | error cause =>
    rw [play_bind_error passed]
    exact nothing
  | ok value =>
    rw [play_bind_ok passed, Played.andThen, Event.requests_append, nothing, List.nil_append]
    exact tail value script _

/-- What follows a refusal or a request is asked only about the values that come that far. -/
theorem RefusesFirst.bind (head : RefusesFirst first)
    (tail : ∀ script start value, (first.play script start).value = .ok value →
      NeverRefuses (next value)) : RefusesFirst (first >>= next) := by
  intro script start honest error failed refusal
  cases passed : (first.play script start).value with
  | error cause =>
    rw [play_bind_error passed] at failed ⊢
    obtain rfl := Except.error.inj failed
    exact head script start honest cause passed refusal
  | ok value =>
    rw [play_bind_ok passed, Played.andThen] at failed
    exact absurd refusal (tail script start value passed script _ honest error failed)

theorem NeverRefuses.bind (head : NeverRefuses first) (tail : ∀ value, NeverRefuses (next value)) :
    NeverRefuses (first >>= next) := by
  intro script start honest error failed
  cases passed : (first.play script start).value with
  | error cause =>
    rw [play_bind_error passed] at failed
    obtain rfl := Except.error.inj failed
    exact head script start honest cause passed
  | ok value =>
    rw [play_bind_ok passed, Played.andThen] at failed
    exact tail value script _ honest error failed

theorem pure_neverRefuses (value : α) : NeverRefuses (pure value : Session ρ α) := by
  intro script start honest error failed
  cases failed

theorem RefusesFirst.map (write : α → β) (head : RefusesFirst session) :
    RefusesFirst (write <$> session) := by
  rw [map_eq_pure_bind]
  exact head.bind fun _ _ value _ => pure_neverRefuses (write value)

end Session

/-- Where a query of a resource compiles, the query of the resource alone does. -/
theorem Query.compile_ofResource {query : Query} {resource : String} {url : Text}
    (described : query.url = none) (named : query.resource = some resource)
    (run : query.compile.outcome = .ok url) :
    (ofResource resource).compile.outcome = .ok (Uri.encodeResource (.single resource)) := by
  rw [compile_eq_bind query described named] at run
  obtain ⟨path, located, _⟩ :
      ∃ path, compilePath resource query.id query.action = .ok path ∧ _ :=
    Compilation.bind_eq_ok.mp run
  have bare : compilePath resource none none = .ok (Uri.encodeResource (.single resource)) := by
    unfold compilePath at located ⊢
    split at located
    case isTrue => cases located
    case isFalse other => exact if_neg other
  rw [compile_eq_bind (ofResource resource) rfl rfl]
  exact Compilation.bind_eq_ok.mpr ⟨_, bare, rfl⟩

theorem payload_not_refusal {response : Json} {error : ClientError}
    (failed : payload response = .error error) : ¬ error.IsRefusal := by
  unfold payload at failed
  split at failed
  · split at failed
    · cases failed; exact not_false
    · cases failed; exact not_false
    · cases failed
  · cases failed; exact not_false
  · cases failed; exact not_false

theorem QueryResult.ofPayload_not_refusal {value : Json} {expectation : Expectation}
    {error : ClientError} (failed : ofPayload value expectation = .error error) :
    ¬ error.IsRefusal := by
  unfold ofPayload at failed
  split at failed
  · split at failed
    · cases failed
    · cases failed; exact not_false
  · split at failed
    · cases failed
    · cases failed
    · cases failed; exact not_false
    · cases failed
  · split at failed <;> cases failed

/-- A response is not read into a refusal. -/
theorem QueryResult.ofResponse_not_refusal {expectation : Expectation} {response : Json}
    {error : ClientError} (failed : ofResponse expectation response = .error error) :
    ¬ error.IsRefusal := by
  unfold ofResponse at failed
  cases read : payload response with
  | error cause =>
    rw [read] at failed
    obtain rfl := Except.error.inj failed
    exact payload_not_refusal read
  | ok value =>
    rw [read] at failed
    exact ofPayload_not_refusal failed

open Session

namespace Client

variable (client : Client)

theorem compile_silent (query : Query) : Silent (client.compile query) := by
  intro script start
  rw [play_compile]
  exact Event.requests_deprecated _

theorem transmit_neverRefuses (policy : Option RetryPolicy) (request : Request) :
    NeverRefuses (transmit policy request) := by
  intro script start honest error failed
  obtain ⟨count, sent⟩ := transmit_sendsOnly policy request script start
  rw [sent.value] at failed
  exact honest _ error failed

theorem dispatch_neverRefuses (params : RequestParams) (compiled : Text) :
    NeverRefuses (client.dispatch params compiled) := by
  rw [dispatch_eq_transmit]
  exact transmit_neverRefuses _ _

theorem request_refusesFirst (params : RequestParams) : RefusesFirst (client.request params) :=
  (client.compile_silent params.query).bind_refusesFirst fun compiled =>
    (client.dispatch_neverRefuses params compiled).refusesFirst

theorem request_neverRefuses {params : RequestParams} {url : Text}
    (run : params.query.compile.outcome = .ok url) : NeverRefuses (client.request params) := by
  intro script start honest error failed
  obtain ⟨count, sent⟩ : ∃ count, SendsOnly script start (client.requestFor params url) count
      ((client.request params).play script start) := request_sendsOnly run
  rw [sent.value] at failed
  exact honest _ error failed

theorem result_neverRefuses (expectation : Expectation) (response : Json) :
    NeverRefuses (ExceptT.mk (pure (QueryResult.ofResponse expectation response)) :
      Session Request QueryResult) :=
  fun _ _ _ _ failed => QueryResult.ofResponse_not_refusal failed

theorem get_refusesFirst (params : RequestParams) : RefusesFirst (client.get params) :=
  (client.request_refusesFirst { params with method := .get }).bind fun _ _ response _ =>
    result_neverRefuses params.expectation response

/-- Something can only be got with a query that compiles. -/
theorem compiles_of_get {params : RequestParams} {script : Script} {start : Moment}
    {result : QueryResult} (got : ((client.get params).play script start).value = .ok result) :
    ∃ url, params.query.compile.outcome = .ok url := by
  cases run : params.query.compile.outcome with
  | ok url => exact ⟨url, rfl⟩
  | error cause =>
    have refused : (client.requestWith .get params).play script start = _ :=
      play_request_refused run
    rw [get, play_bind_error (congrArg Played.value refused)] at got
    cases got

theorem prepare_silent (params : RequestParams) : Silent (client.prepare params) :=
  (client.compile_silent params.query).bind fun _ => settled_silent (.ok _)

theorem call_neverRefuses (prepared : PreparedQuery) (call : PreparedCall) :
    NeverRefuses (prepared.call call) := prepared.client.dispatch_neverRefuses _ _

theorem fetch_refusesFirst (prepared : PreparedQuery) (call : PreparedCall) :
    RefusesFirst (prepared.fetch call) := by
  unfold PreparedQuery.fetch
  cases prepared.expectation with
  | none => exact Silent.refusesFirst fun _ _ => rfl
  | some expectation =>
    exact ((call_neverRefuses prepared call).bind fun response =>
      result_neverRefuses expectation response).refusesFirst

theorem subscription_silent (params : RequestParams) : Silent (client.subscription params) := by
  unfold subscription
  split
  · exact fun _ _ => rfl
  · exact (client.prepare_silent params).bind fun prepared => settled_silent (.ok _)

theorem subscribeIn_silent (hasRuntime : Bool) (params : RequestParams)
    (interval : Option Duration) : Silent (client.subscribeIn hasRuntime params interval) :=
  (client.subscription_silent params).bind fun _ => settled_silent _

theorem getOrCreate_refusesFirst (params : UpsertParams) :
    RefusesFirst (client.getOrCreate params) := by
  refine (settled_silent params.keyedBody).bind_refusesFirst fun body => ?_
  refine (settled_silent params.keyId).bind_refusesFirst fun id => ?_
  refine (client.get_refusesFirst _).bind fun script start found got => ?_
  obtain ⟨url, run⟩ := client.compiles_of_get got
  have compiled : (params.request none).query.compile.outcome = _ :=
    Query.compile_ofResource rfl rfl run
  split
  · exact pure_neverRefuses _
  · exact client.request_neverRefuses compiled

theorem naturalKey_eq_ok {params : UpsertParams} {key : Keyed Json}
    (keyed : params.naturalKey = .ok key) : params.key = .object key := by
  unfold UpsertParams.naturalKey at keyed
  split at keyed
  · cases keyed
  · next fields _ written =>
    obtain rfl := Except.ok.inj keyed
    exact written
  · cases keyed

/-- A body with the natural key over it comes from an object and a key that is one, too. -/
theorem keyedBody_eq_ok {params : UpsertParams} {row : Json} (bodied : params.keyedBody = .ok row) :
    ∃ key body, params.key = .object key ∧ params.body = some (.object body) ∧
      row = .object (Keyed.extend body key) := by
  unfold UpsertParams.keyedBody at bodied
  obtain ⟨key, keyed, merged⟩ := bind_eq_ok_iff.mp bodied
  cases given : params.body with
  | none =>
    rw [given] at merged
    cases merged
  | some value =>
    rw [given] at merged
    cases value with
    | object body =>
      exact ⟨key, body, naturalKey_eq_ok keyed, rfl, (Except.ok.inj merged).symm⟩
    | _ => cases merged

/-- An upsert that ends with a refusal behind a request has met a conflict, and what it refuses is the
change of the row that is there. -/
theorem upsert_refusal {params : UpsertParams} {script : Script} {start : Moment}
    (honest : script.Honest) {error : ClientError}
    (ended : ((client.upsert params).play script start).value = .error error)
    (refusal : error.IsRefusal) :
    Event.requests ((client.upsert params).play script start).events = [] ∨
      ∃ posts post cause, 1 ≤ posts ∧
        Event.requests ((client.upsert params).play script start).events =
          List.replicate posts post ∧
        Conflicts (script (start.used + posts - 1)).outcome ∧
        params.ChangeRefused cause ∧ error = .compile cause := by
  cases bodied : params.keyedBody with
  | error cause =>
    refine Or.inl ?_
    have settled : (client.upsert params).play script start = ⟨.error cause, [], start⟩ := by
      rw [upsert, bodied]
      rfl
    rw [settled]
    rfl
  | ok row =>
    obtain ⟨key, body, _, given, rfl⟩ := keyedBody_eq_ok bodied
    cases run : (params.request params.options).query.compile.outcome with
    | error cause =>
      have refused : (client.create params (.object (Keyed.extend body key))).play script start =
        _ := play_request_refused run
      have final : ¬ Conflicts (.error (.compile cause) : Except ClientError Json) := by
        rintro ⟨_, ⟨⟩, _, _, ⟨⟩, _⟩
      rw [play_upsert bodied, refused, play_afterCreate final, Played.andThen_done]
      exact Or.inl (Event.requests_deprecated _)
    | ok url =>
      obtain ⟨posts, positive, blocks⟩ := upsert_blocks bodied given run rfl
      have never (index : Nat) : (script index).outcome ≠ .error error :=
        fun failed => honest index error failed refusal
      rcases blocks with ⟨_, _, value⟩ | ⟨conflict, sent, cause, refused, value⟩ |
        ⟨_, _, _, _, _, _, _, _, value⟩
      · exact absurd (value.symm.trans ended) (never _)
      · obtain rfl := Except.error.inj (value.symm.trans ended)
        exact Or.inr ⟨posts, _, cause, positive, sent, conflict, refused, rfl⟩
      · exact absurd (value.symm.trans ended) (never _)

end Client

/-- What a client can be asked for. -/
inductive Operation
  | request (params : RequestParams)
  | get (params : RequestParams)
  | put (params : RequestParams)
  | patch (params : RequestParams)
  | post (params : RequestParams)
  | delete (params : RequestParams)
  | upsert (params : UpsertParams)
  | getOrCreate (params : UpsertParams)
  | call (params : RequestParams) (call : PreparedCall)
  | fetch (params : RequestParams) (call : PreparedCall)
  | subscribe (hasRuntime : Bool) (params : RequestParams) (interval : Option Duration)

/-- What an operation ends with. -/
inductive Answer
  | response (body : Json)
  | result (result : QueryResult)
  | poll (poll : Poll Request QueryResult)

namespace Client

/-- An operation as a conversation. -/
def perform (client : Client) : Operation → Session Request Answer
  | .request params => .response <$> client.request params
  | .get params => .result <$> client.get params
  | .put params => .response <$> client.put params
  | .patch params => .response <$> client.patch params
  | .post params => .response <$> client.post params
  | .delete params => .response <$> client.delete params
  | .upsert params => .response <$> client.upsert params
  | .getOrCreate params => .response <$> client.getOrCreate params
  | .call params call => .response <$> (client.prepare params >>= fun prepared => prepared.call call)
  | .fetch params call => .result <$> (client.prepare params >>= fun prepared => prepared.fetch call)
  | .subscribe hasRuntime params interval =>
    .poll <$> client.subscribeIn hasRuntime params interval

/-- A refusal comes before the first request, but for one operation. An upsert that ends with a refusal
may have sent its POST, once or several times; then the last reply was a conflict over a unique
constraint, and what is refused is the change of the row with the natural key. -/
theorem perform_refusal (client : Client) (operation : Operation) (script : Script) (start : Moment)
    (honest : script.Honest) {error : ClientError}
    (ended : ((client.perform operation).play script start).value = .error error)
    (refusal : error.IsRefusal) :
    Event.requests ((client.perform operation).play script start).events = [] ∨
      ∃ params posts post cause, operation = .upsert params ∧ 1 ≤ posts ∧
        Event.requests ((client.perform operation).play script start).events =
          List.replicate posts post ∧
        Conflicts (script (start.used + posts - 1)).outcome ∧
        params.ChangeRefused cause ∧ error = .compile cause := by
  have early : RefusesFirst (client.perform operation) →
      Event.requests ((client.perform operation).play script start).events = [] :=
    fun refuses => refuses script start honest error ended refusal
  cases operation with
  | request params => exact Or.inl (early (.map _ (client.request_refusesFirst params)))
  | get params => exact Or.inl (early (.map _ (client.get_refusesFirst params)))
  | put params => exact Or.inl (early (.map _ (client.request_refusesFirst _)))
  | patch params => exact Or.inl (early (.map _ (client.request_refusesFirst _)))
  | post params => exact Or.inl (early (.map _ (client.request_refusesFirst _)))
  | delete params => exact Or.inl (early (.map _ (client.request_refusesFirst _)))
  | getOrCreate params => exact Or.inl (early (.map _ (client.getOrCreate_refusesFirst params)))
  | call params call =>
    exact Or.inl (early (.map _ ((client.prepare_silent params).bind_refusesFirst fun prepared =>
      (call_neverRefuses prepared call).refusesFirst)))
  | fetch params call =>
    exact Or.inl (early (.map _ ((client.prepare_silent params).bind_refusesFirst fun prepared =>
      fetch_refusesFirst prepared call)))
  | subscribe hasRuntime params interval =>
    exact Or.inl (early (.map _ (client.subscribeIn_silent hasRuntime params interval).refusesFirst))
  | upsert params =>
    have mapped : (client.perform (.upsert params)).play script start = _ :=
      Session.play_map Answer.response (client.upsert params)
    rw [mapped] at ended ⊢
    have failed : ((client.upsert params).play script start).value = .error error := by
      cases value : ((client.upsert params).play script start).value with
      | ok response =>
        rw [value] at ended
        cases ended
      | error cause =>
        rw [value] at ended
        exact congrArg Except.error (Except.error.inj ended)
    rcases client.upsert_refusal honest failed refusal with
      nothing | ⟨posts, post, cause, positive, sent, conflict, refused, same⟩
    · exact Or.inl nothing
    · exact Or.inr ⟨params, posts, post, cause, rfl, positive, sent, conflict, refused, same⟩

/-- A list is no value to compare a field with, which comes to light behind the POST. -/
theorem perform_refusal_upsert :
    ∃ posts post, 1 ≤ posts ∧
      Event.requests ((perform ⟨{}, none⟩
        (.upsert ⟨"device", .object [("k", .array [.string "x"])], some (.object []), none, []⟩)).play
          (fun _ => ⟨.error (.httpStatus 409 "unique" none), 0⟩) {}).events =
        List.replicate posts post := by
  have honest : Script.Honest fun _ => ⟨.error (.httpStatus 409 "unique" none), 0⟩ := by
    rintro _ _ ⟨⟩
    exact not_false
  have refusal : ClientError.IsRefusal (.compile (.arity (.filterList 2 [.string "x"]))) := trivial
  rcases perform_refusal ⟨{}, none⟩
      (.upsert ⟨"device", .object [("k", .array [.string "x"])], some (.object []), none, []⟩)
      (fun _ => ⟨.error (.httpStatus 409 "unique" none), 0⟩) {} honest rfl refusal with
    nothing | ⟨_, posts, post, _, _, positive, sent, _⟩
  · exact absurd nothing (List.cons_ne_nil _ _)
  · exact ⟨posts, post, positive, sent⟩

/-- So it does not hold of all operations that a refusal comes before the first request. -/
theorem refusal_after_sending :
    ¬ ∀ (client : Client) (operation : Operation) (script : Script) (start : Moment)
      (error : ClientError), script.Honest →
      ((client.perform operation).play script start).value = .error error → error.IsRefusal →
      Event.requests ((client.perform operation).play script start).events = [] := by
  intro early
  have honest : Script.Honest fun _ => ⟨.error (.httpStatus 409 "unique" none), 0⟩ := by
    rintro _ _ ⟨⟩
    exact not_false
  have nothing := early ⟨{}, none⟩
    (.upsert ⟨"device", .object [("k", .array [.string "x"])], some (.object []), none, []⟩)
    (fun _ => ⟨.error (.httpStatus 409 "unique" none), 0⟩) {}
    (.compile (.arity (.filterList 2 [.string "x"]))) honest rfl trivial
  exact List.cons_ne_nil _ _ nothing

end Client

end OData
