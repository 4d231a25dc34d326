import Mathlib
import OData.Client.Prepared
import OData.Proofs.Client.Transmission
import OData.Proofs.Keyed
import OData.Proofs.Query.Parameters

namespace OData

/-- A body with the body of a call over it: an object goes over an object key by key, anything else takes
the place of what was there, and without a body of its own the call keeps it. -/
inductive BodyOver : (base overlay merged : Option Json) → Prop
  | kept (base : Option Json) : BodyOver base none base
  | objects {base overlay merged : Keyed Json} (entries : Keyed.Overlaid base overlay merged) :
      BodyOver (some (.object base)) (some (.object overlay)) (some (.object merged))
  | replaced {base : Option Json} {overlay : Json}
      (different : ¬ ∃ fields entries, base = some (.object fields) ∧ overlay = .object entries) :
      BodyOver base (some overlay) (some overlay)

theorem bodyOver_mergeBodies (base overlay : Option Json) :
    BodyOver base overlay (mergeBodies base overlay) := by
  unfold mergeBodies
  split
  case h_1 fields entries => exact .objects (Keyed.overlaid_extend fields entries)
  case h_2 => exact .kept _
  case h_3 overlay others =>
    refine .replaced ?_
    rintro ⟨fields, entries, rfl, rfl⟩
    exact others fields entries rfl rfl

theorem BodyOver.eq_mergeBodies {base overlay merged : Option Json} (overlaid : BodyOver base overlay merged)
    (distinct : ∀ fields, base = some (.object fields) → (Keyed.keys fields).Nodup) :
    merged = mergeBodies base overlay := by
  cases overlaid with
  | kept =>
    unfold mergeBodies
    split <;> first | rfl | contradiction
  | objects entries => rw [entries.eq_extend (distinct _ rfl), mergeBodies]
  | replaced different =>
    unfold mergeBodies
    split
    case h_1 fields entries given => exact absurd ⟨fields, entries, rfl, Option.some.inj given⟩ different
    case h_2 absent => cases absent
    case h_3 given => exact given

/-- The parameters `direct` ask at once for what a call asks for of a query with the parameters `params`:
the aliases are the last options, in order, and the body and the passthrough options of the call go over
those of the query. -/
structure PreparedCall.AsksAtOnce (call : PreparedCall) (params direct : RequestParams) : Prop where
  query : direct.query = params.query.withParameters call.aliases
  method : direct.method = params.method
  apiPrefix : direct.apiPrefix = params.apiPrefix
  body : BodyOver params.body call.body direct.body
  passthrough : Keyed.Overlaid params.passthrough (call.passthrough.getD []) direct.passthrough
  retry : direct.retry = params.retry

namespace RequestParams

/-- Neither the passthrough options nor the fields of the body repeat a key. -/
structure HasDistinctKeys (params : RequestParams) : Prop where
  passthrough : (Keyed.keys params.passthrough).Nodup
  body : ∀ fields, params.body = some (.object fields) → (Keyed.keys fields).Nodup

def withCall (call : PreparedCall) (params : RequestParams) : RequestParams :=
  { params with
    query := params.query.withParameters call.aliases
    body := mergeBodies params.body call.body
    passthrough := Keyed.extend params.passthrough (call.passthrough.getD []) }

theorem withCall_asksAtOnce (call : PreparedCall) (params : RequestParams) :
    call.AsksAtOnce params (params.withCall call) where
  query := rfl
  method := rfl
  apiPrefix := rfl
  body := bodyOver_mergeBodies params.body call.body
  passthrough := Keyed.overlaid_extend params.passthrough _
  retry := rfl

end RequestParams

theorem PreparedCall.AsksAtOnce.eq_withCall {call : PreparedCall} {params direct : RequestParams}
    (asks : call.AsksAtOnce params direct) (distinct : params.HasDistinctKeys) :
    direct = params.withCall call := by
  obtain ⟨query, method, apiPrefix, body, passthrough, retry⟩ := direct
  obtain ⟨rfl, rfl, rfl, merged, overlaid, rfl⟩ := asks
  obtain rfl := merged.eq_mergeBodies distinct.body
  obtain rfl := overlaid.eq_extend distinct.passthrough
  rfl

namespace Client

/-- The prepared query for a compiled text. -/
def preparedWith (client : Client) (params : RequestParams) (url : Text) : PreparedQuery :=
  ⟨client, url, params, if params.method = .get then some params.expectation else none⟩

variable {client : Client} {params : RequestParams} {call : PreparedCall}

theorem prepare_eq_map :
    client.prepare params = client.preparedWith params <$> client.compile params.query := by
  rw [map_eq_pure_bind]
  rfl

theorem play_prepare (script : Script) (start : Moment) :
    ((client.prepare params).play script start).value =
      (params.query.compile.outcome.mapError .compile).map (client.preparedWith params) := by
  have played : (client.prepare params).play script start = _ :=
    (congrArg (Session.play script start) prepare_eq_map).trans (Session.play_map _ _)
  rw [played, play_compile]

/-- A query that compiles is prepared, and one that does not is not. -/
theorem prepare_eq_ok {script : Script} {start : Moment} {prepared : PreparedQuery} :
    ((client.prepare params).play script start).value = .ok prepared ↔
      ∃ url, params.query.compile.outcome = .ok url ∧ client.preparedWith params url = prepared := by
  rw [play_prepare]
  cases params.query.compile.outcome with
  | error error => exact ⟨nofun, nofun⟩
  | ok url =>
    constructor
    · intro same
      exact ⟨url, rfl, Except.ok.inj same⟩
    · rintro ⟨_, ⟨⟩, rfl⟩
      rfl

/-- What a call sends is what is sent for the parameters with the call. -/
theorem preparedWith_call (url : Text) :
    (client.preparedWith params url).call call =
      client.dispatch (params.withCall call) (withAliases url call.aliases) := by
  rw [dispatch_eq_transmit]
  exact client.dispatch_eq_transmit _ _

/-- A call of a prepared query is the request for the query with the aliases of the call as its last
options, in order, and with the body and the passthrough options of the call over those of the query.
These parameters are determined wherever keys do not repeat. The query has to compile, and then it does
so with the aliases too; what is sent for it, and under which retry policy, does not depend on when it was
compiled. -/
theorem prepare_call (client : Client) (params : RequestParams) (call : PreparedCall)
    (script : Script) (start : Moment) (described : params.query.url = none)
    (plain : params.query.HasPlainPath) :
    ∃ direct, call.AsksAtOnce params direct ∧
      (params.HasDistinctKeys → ∀ other, call.AsksAtOnce params other → other = direct) ∧
      ((∃ prepared, ((client.prepare params).play script start).value = .ok prepared) ↔
        ∃ url, params.query.compile.outcome = .ok url) ∧
      ((∃ url, params.query.compile.outcome = .ok url) ↔
        ∃ url, direct.query.compile.outcome = .ok url) ∧
      ∀ prepared, ((client.prepare params).play script start).value = .ok prepared →
        ∃ url, direct.query.compile.outcome = .ok url ∧
          prepared.call call = transmit (params.retry.resolve client.retry)
            (client.requestFor direct url) ∧
          client.request direct = (client.compile direct.query >>= fun _ => prepared.call call) ∧
          (client.prepare params >>= fun prepared => prepared.call call) = client.request direct := by
  refine ⟨params.withCall call, params.withCall_asksAtOnce call,
    fun distinct other asks => asks.eq_withCall distinct, ?prepared,
    (Query.compiles_withParameters_iff call.aliases described plain).symm, ?called⟩
  case prepared =>
    constructor
    · rintro ⟨prepared, made⟩
      obtain ⟨url, run, _⟩ := prepare_eq_ok.mp made
      exact ⟨url, run⟩
    · rintro ⟨url, run⟩
      exact ⟨_, prepare_eq_ok.mpr ⟨url, run, rfl⟩⟩
  case called =>
    intro prepared made
    obtain ⟨url, run, rfl⟩ := prepare_eq_ok.mp made
    have whole := Query.compile_withParameters call.aliases described plain run
    have extended : (params.withCall call).query.compile.outcome =
        .ok (withAliases url call.aliases) := by
      rw [RequestParams.withCall, whole]
      exact Compilation.map_eq_ok.mpr ⟨url, run, rfl⟩
    refine ⟨withAliases url call.aliases, extended,
      (preparedWith_call url).trans (client.dispatch_eq_transmit _ _), ?_, ?_⟩
    · rw [request, compile_bind extended, compile_bind extended, preparedWith_call]
    · have reports : (params.withCall call).query.compile.reports = params.query.compile.reports := by
        rw [RequestParams.withCall, whole, Compilation.map_reports]
      have steps : (client.prepare params >>= fun prepared => prepared.call call) =
          client.compile params.query >>= fun url => (client.preparedWith params url).call call := by
        rw [prepare_eq_map, bind_map_left]
      rw [steps, compile_bind run, request, compile_bind extended, reports, preparedWith_call]

/-- Question marks in the resource, in the key and in the value that is compared do not make a query
string, so the alias of the call comes behind the filter inside the count. The body of the call goes over
one key of the body that was prepared and adds another one. -/
theorem prepare_call_count :
    let params : RequestParams :=
      { query := ⟨some "a?b", some (.composite [("k", .value (.string "?"))]), none, none,
          some [.count [.filter (.ofProperty "n" (.value (.string "m?")))]]⟩
        method := .patch
        body := some (.object [("x", .null), ("y", .null)])
        passthrough := [("s", .null)] }
    let call : PreparedCall :=
      { aliases := [("p", .string "q?")]
        body := some (.object [("z", .bool false), ("y", .bool true), ("z", .bool true)])
        passthrough := some [("t", .bool true), ("s", .bool true)] }
    ∃ prepared, ((prepare ⟨{}, none⟩ params).play (fun _ => ⟨.ok .null, 0⟩) {}).value =
        .ok prepared ∧
      prepared.call call =
        transmit none
          ⟨.patch, "/a%3Fb(k='%3F')/$count?$filter=n eq 'm%3F'&@p='q%3F'",
            some (.object [("x", .null), ("y", .bool true), ("z", .bool true)]),
            [("s", .bool true), ("t", .bool true)]⟩ := by
  intro params call
  have run : params.query.compile.outcome =
      .ok "a%3Fb(k='%3F')/$count?$filter=n eq 'm%3F'".toList := rfl
  have plain : params.query.HasPlainPath := by
    refine ⟨nofun, ?_⟩
    rintro _ ⟨⟩ entry member
    obtain rfl := List.mem_singleton.mp member
    decide
  have distinct : params.HasDistinctKeys :=
    ⟨List.nodup_singleton _, by rintro _ ⟨⟩; decide⟩
  obtain ⟨direct, _, unique, made, _, called⟩ := prepare_call ⟨{}, none⟩ params call
    (fun _ => ⟨.ok .null, 0⟩) {} rfl plain
  have asked : call.AsksAtOnce params {
      query := params.query.withParameters call.aliases
      method := .patch
      body := some (.object [("x", .null), ("y", .bool true), ("z", .bool true)])
      passthrough := [("s", .bool true), ("t", .bool true)] } :=
    ⟨rfl, rfl, rfl, .objects (Keyed.overlaid_extend _ _), Keyed.overlaid_extend _ _, rfl⟩
  obtain rfl := unique distinct _ asked
  obtain ⟨prepared, value⟩ := made.mpr ⟨_, run⟩
  obtain ⟨url, compiled, sent, _⟩ := called prepared value
  have extended : (params.query.withParameters call.aliases).compile.outcome =
      .ok "a%3Fb(k='%3F')/$count?$filter=n eq 'm%3F'&@p='q%3F'".toList := rfl
  obtain rfl := Except.ok.inj (extended.symm.trans compiled)
  refine ⟨prepared, value, sent.trans (congrArg (transmit none) ?_)⟩
  exact (Request.mk.injEq ..).mpr ⟨rfl, by decide, rfl, rfl⟩

end Client

end OData
