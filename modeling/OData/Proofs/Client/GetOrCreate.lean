import Mathlib
import OData.Proofs.Client.Refusal

namespace OData

/-- A reply shows exactly one row, by itself or as the only one of a list. -/
inductive ShowsRow (reply : Except ClientError Json) (row : Json) : Prop
  | alone (reported : Reports reply row) (single : ∀ rows, row ≠ .array rows)
  | listed (reported : Reports reply (.array [row]))

/-- A reply passes for the absence of the row: a list without rows, or any number where a count was asked
for. -/
inductive PassesForAbsent (counted : Bool) (reply : Except ClientError Json) : Prop
  | noRows (listed : counted = false) (reported : Reports reply (.array []))
  | anyCount (asked : counted = true) {value : Json} {count : Nat}
      (natural : value.toNat? = some count) (reported : Reports reply value)

namespace QueryResult

/-- What is expected of a lookup with an id. -/
def expectedOfLookup (counted : Bool) : Expectation := if counted then .count else .one

/-- What is read from a reply to a lookup. -/
def ofReply (counted : Bool) (reply : Except ClientError Json) : Except ClientError QueryResult := do
  ofResponse (expectedOfLookup counted) (← reply)

variable {counted : Bool} {reply : Except ClientError Json} {result : QueryResult}

theorem ofReply_eq_ok_iff : ofReply counted reply = .ok result ↔
    ∃ value, Reports reply value ∧ ofPayload value (expectedOfLookup counted) = .ok result := by
  rw [ofReply, bind_eq_ok_iff]
  constructor
  · rintro ⟨response, rfl, read⟩
    obtain ⟨value, reported, taken⟩ := bind_eq_ok_iff.mp read
    exact ⟨value, payload_eq_ok_iff.mp reported, taken⟩
  · rintro ⟨value, reported, taken⟩
    obtain ⟨fields, rfl, found⟩ := id reported
    exact ⟨_, rfl, bind_eq_ok_iff.mpr ⟨value, payload_eq_ok_iff.mpr reported, taken⟩⟩

theorem ofPayload_count_row? {value : Json} (taken : ofPayload value .count = .ok result) :
    result.row? = none ∧ ∃ count, value.toNat? = some count := by
  simp only [ofPayload] at taken
  split at taken
  · next count natural =>
    obtain rfl := Except.ok.inj taken
    exact ⟨rfl, count, natural⟩
  · cases taken

/-- One row is read from a list of one or from a value that is no list, and none from an empty list. -/
theorem ofPayload_one_row? {value : Json} {row : Option Json}
    (taken : ofPayload value .one = .ok result) (shown : result.row? = row) :
    (row = none ∧ value = .array []) ∨
      ∃ only, row = some only ∧ (value = .array [only] ∨ value = only ∧ ∀ rows, only ≠ .array rows) := by
  simp only [ofPayload] at taken
  split at taken
  · obtain rfl := Except.ok.inj taken
    exact Or.inl ⟨shown.symm, rfl⟩
  · next only =>
    obtain rfl := Except.ok.inj taken
    exact Or.inr ⟨only, shown.symm, Or.inl rfl⟩
  · cases taken
  · next none one several =>
    obtain rfl := Except.ok.inj taken
    refine Or.inr ⟨value, shown.symm, Or.inr ⟨rfl, ?_⟩⟩
    rintro (_ | ⟨first, _ | ⟨second, rest⟩⟩) rfl
    · exact none rfl
    · exact one first rfl
    · exact several first second rest rfl

/-- A row is found exactly where one is shown and no count was asked for. -/
theorem shows_of_ofReply {row : Json} (read : ofReply counted reply = .ok result)
    (found : result.row? = some row) : counted = false ∧ ShowsRow reply row := by
  obtain ⟨value, reported, taken⟩ := ofReply_eq_ok_iff.mp read
  cases counted with
  | true => cases found.symm.trans (ofPayload_count_row? taken).1
  | false =>
    refine ⟨rfl, ?_⟩
    rcases ofPayload_one_row? taken found with ⟨⟨⟩, _⟩ | ⟨only, ⟨⟩, rfl | ⟨rfl, single⟩⟩
    · exact .listed reported
    · exact .alone reported single

theorem absent_of_ofReply (read : ofReply counted reply = .ok result)
    (missing : result.row? = none) : PassesForAbsent counted reply := by
  obtain ⟨value, reported, taken⟩ := ofReply_eq_ok_iff.mp read
  cases counted with
  | true =>
    obtain ⟨count, natural⟩ := (ofPayload_count_row? taken).2
    exact .anyCount rfl natural reported
  | false =>
    rcases ofPayload_one_row? taken missing with ⟨_, rfl⟩ | ⟨only, ⟨⟩, _⟩
    exact .noRows rfl reported

theorem ofReply_of_absent (absent : PassesForAbsent counted reply) :
    ∃ result, ofReply counted reply = .ok result ∧ result.row? = none := by
  cases absent with
  | noRows listed reported =>
    subst listed
    exact ⟨_, ofReply_eq_ok_iff.mpr ⟨_, reported, rfl⟩, rfl⟩
  | @anyCount asked value count natural reported =>
    subst asked
    have taken : ofPayload value .count = .ok (.count count) := by simp only [ofPayload, natural]
    exact ⟨_, ofReply_eq_ok_iff.mpr ⟨value, reported, taken⟩, rfl⟩

theorem ofReply_of_shows {row : Json} (shows : ShowsRow reply row) :
    ofReply false reply = .ok (.one (some row)) := by
  cases shows with
  | listed reported => exact ofReply_eq_ok_iff.mpr ⟨_, reported, rfl⟩
  | alone reported single =>
    refine ofReply_eq_ok_iff.mpr ⟨row, reported, ?_⟩
    cases row with
    | array rows => exact absurd rfl (single rows)
    | _ => rfl

/-- A reply that shows the row does not pass for its absence. -/
theorem not_absent_of_row {row : Json} (read : ofReply counted reply = .ok result)
    (found : result.row? = some row) : ¬ PassesForAbsent counted reply := by
  intro absent
  obtain ⟨other, again, missing⟩ := ofReply_of_absent absent
  obtain rfl := Except.ok.inj (read.symm.trans again)
  cases found.symm.trans missing

/-- A reply that is read as an error neither passes for the absence of the row nor shows it. -/
theorem neither_of_error {error : ClientError} (failed : ofReply counted reply = .error error) :
    ¬ PassesForAbsent counted reply ∧ ∀ row, counted = false → ¬ ShowsRow reply row := by
  refine ⟨fun absent => ?_, fun row single shows => ?_⟩
  · obtain ⟨result, other, _⟩ := ofReply_of_absent absent
    cases failed.symm.trans other
  · have other := ofReply_of_shows shows
    rw [← single] at other
    cases failed.symm.trans other

end QueryResult

namespace Client

def lookupParams (params : UpsertParams) (id : ResourceId) : RequestParams :=
  let given := params.request params.options
  { given with query := { given.query with id := some id }, method := .get }

def afterLookup (client : Client) (params : UpsertParams) (row : Json) (found : QueryResult) :
    Session Request Json :=
  match found.row? with
  | some row => return row
  | none => client.post { params.request none with body := some row }

variable {client : Client} {params : UpsertParams} {script : Script} {start : Moment}

/-- A lookup is a block of GETs, and what it finds is read from the last reply. -/
theorem get_lookup (client : Client) (script : Script) (start : Moment) {id : ResourceId} {url : Text}
    (compiled : (lookupParams params id).query.compile.outcome = .ok url) :
    ∃ lookups, 1 ≤ lookups ∧
      let played := (client.get (lookupParams params id)).play script start
      Event.requests played.events =
        List.replicate lookups (client.requestFor (lookupParams params id) url) ∧
      played.value = QueryResult.ofReply (params.request params.options).query.isCount
        (script (start.used + lookups - 1)).outcome ∧
      played.after.used = start.used + lookups := by
  obtain ⟨lookups, sent⟩ : ∃ lookups, SendsOnly script start
      (client.requestFor (lookupParams params id) url) lookups
      ((client.requestWith .get (lookupParams params id)).play script start) :=
    request_sendsOnly compiled
  have expected : (lookupParams params id).expectation =
      QueryResult.expectedOfLookup (params.request params.options).query.isCount := rfl
  refine ⟨lookups, sent.positive, ?_⟩
  unfold get
  cases replied : ((client.requestWith .get (lookupParams params id)).play script start).value with
  | error error =>
    have failed := sent.value.symm.trans replied
    rw [Session.play_bind_error replied, failed]
    exact ⟨sent.requests, rfl, sent.used⟩
  | ok response =>
    have answered := sent.value.symm.trans replied
    rw [Session.play_bind_ok replied, answered, expected]
    refine ⟨?_, rfl, sent.used⟩
    rw [Played.andThen, Event.requests_append, sent.requests]
    exact List.append_nil _

theorem play_get_refused {id : ResourceId} {error : Error} {next : QueryResult → Session Request Json}
    (refused : (lookupParams params id).query.compile.outcome = .error error) :
    (client.get (lookupParams params id) >>= next).play script start =
      ⟨.error (.compile error), (lookupParams params id).query.compile.reports.map fun report =>
        .noted (.deprecated report), start⟩ := by
  have failed : (client.requestWith .get (lookupParams params id)).play script start = _ :=
    play_request_refused refused
  have ended : (client.get (lookupParams params id)).play script start = _ :=
    (Session.play_bind_error (congrArg Played.value failed)).trans (by rw [failed])
  rw [Session.play_bind_error (congrArg Played.value ended), ended]

theorem getOrCreate_eq {row : Json} {id : ResourceId} (bodied : params.keyedBody = .ok row)
    (keyed : params.keyId = .ok id) :
    client.getOrCreate params =
      client.get (lookupParams params id) >>= client.afterLookup params row := by
  rw [getOrCreate, bodied, keyed]
  rfl

/-- Behind a lookup whose query compiles, the query of the resource alone compiles, too, so that the row
can be created. -/
theorem create_behind_lookup (client : Client) (script : Script) (start : Moment) {id : ResourceId}
    {url : Text} (compiled : (lookupParams params id).query.compile.outcome = .ok url)
    (row : Keyed Json) :
    ∃ posts, SendsOnly script start
      (client.writeRequest params .post row (Uri.encodeResource (.single params.resource))) posts
      ((client.post { params.request none with body := some (.object row) }).play script start) := by
  have bare : (params.request none).query.compile.outcome =
      .ok (Uri.encodeResource (.single params.resource)) :=
    Query.compile_ofResource rfl rfl compiled
  obtain ⟨posts, sent⟩ : ∃ posts, SendsOnly script start
      (client.requestFor { params.request none with method := .post, body := some (.object row) }
        (Uri.encodeResource (.single params.resource))) posts
      ((client.post { params.request none with body := some (.object row) }).play script start) :=
    request_sendsOnly bare
  exact ⟨posts, sent⟩

/-- What becomes of a row that is fetched or else created. Its parameters are refused and nothing is
sent; or the lookup by the natural key is sent, several times if the policy says so, and the last reply
to it decides. Where that passes for the absence of the row, the row is created with the fields of the
key over those of the body, and the last reply to the POST is the result. Otherwise nothing more is
sent: a row that is shown alone is the result, and all other replies end in an error. -/
theorem getOrCreate_protocol (client : Client) (params : UpsertParams) (script : Script)
    (start : Moment) :
    let run := (client.getOrCreate params).play script start
    let counted := (params.request params.options).query.isCount
    (Event.requests run.events = [] ∧ ∃ error, run.value = .error error) ∨
    ∃ key body id url lookups, params.key = .object key ∧ params.body = some (.object body) ∧
      params.keyId = .ok id ∧ (lookupParams params id).query.compile.outcome = .ok url ∧ 1 ≤ lookups ∧
      let get := client.requestFor (lookupParams params id) url
      let post := client.writeRequest params .post (Keyed.extend body key)
        (Uri.encodeResource (.single params.resource))
      let reply := (script (start.used + lookups - 1)).outcome
      ((PassesForAbsent counted reply ∧ ∃ posts, 1 ≤ posts ∧
          Event.requests run.events = List.replicate lookups get ++ List.replicate posts post ∧
          run.value = (script (start.used + lookups + posts - 1)).outcome) ∨
        (¬ PassesForAbsent counted reply ∧ Event.requests run.events = List.replicate lookups get ∧
          ((∃ row, counted = false ∧ ShowsRow reply row ∧ run.value = .ok row) ∨
            ((∀ row, counted = false → ¬ ShowsRow reply row) ∧ ∃ error, run.value = .error error)))) := by
  intro run counted
  cases bodied : params.keyedBody with
  | error error =>
    have settled : run = ⟨.error error, [], start⟩ := by
      simp only [run, getOrCreate, bodied]
      rfl
    rw [settled]
    exact Or.inl ⟨rfl, error, rfl⟩
  | ok row =>
    obtain ⟨key, body, keyed, given, rfl⟩ := keyedBody_eq_ok bodied
    cases identified : params.keyId with
    | error error =>
      have settled : run = ⟨.error error, [], start⟩ := by
        simp only [run, getOrCreate, bodied, identified]
        rfl
      rw [settled]
      exact Or.inl ⟨rfl, error, rfl⟩
    | ok id =>
      have steps : run = (client.get (lookupParams params id) >>=
          client.afterLookup params (.object (Keyed.extend body key))).play script start :=
        congrArg (Session.play script start) (getOrCreate_eq bodied identified)
      cases compiled : (lookupParams params id).query.compile.outcome with
      | error error =>
        rw [steps, play_get_refused compiled]
        exact Or.inl ⟨Event.requests_deprecated _, _, rfl⟩
      | ok url =>
        obtain ⟨lookups, positive, sent, read, used⟩ := get_lookup client script start compiled
        refine Or.inr ⟨key, body, id, url, lookups, keyed, given, rfl, compiled, positive, ?_⟩
        cases found : ((client.get (lookupParams params id)).play script start).value with
        | error error =>
          rw [steps, Session.play_bind_error found]
          rw [found] at read
          obtain ⟨notAbsent, notShown⟩ := QueryResult.neither_of_error read.symm
          exact Or.inr ⟨notAbsent, sent, Or.inr ⟨notShown, error, rfl⟩⟩
        | ok result =>
          rw [steps, Session.play_bind_ok found]
          rw [found] at read
          cases shown : result.row? with
          | some row =>
            obtain ⟨single, shows⟩ := QueryResult.shows_of_ofReply read.symm shown
            have notAbsent := QueryResult.not_absent_of_row read.symm shown
            simp only [afterLookup, shown]
            refine Or.inr ⟨notAbsent, ?_, Or.inl ⟨row, single, shows, rfl⟩⟩
            rw [Played.andThen, Event.requests_append, sent]
            exact List.append_nil _
          | none =>
            obtain ⟨posts, created⟩ := create_behind_lookup client script
              ((client.get (lookupParams params id)).play script start).after compiled
              (Keyed.extend body key)
            simp only [afterLookup, shown]
            refine Or.inl ⟨QueryResult.absent_of_ofReply read.symm shown, posts, created.positive, ?_, ?_⟩
            · rw [Played.andThen, Event.requests_append, sent, created.requests]
            · rw [Played.andThen, created.value, used]

/-- A lookup that is told of two rows, because the options of the row ask for a count, is followed by a
POST. So it does not hold of all options that no row is created beside rows that are there. -/
theorem row_created_beside_counted :
    ¬ ∀ (client : Client) (params : UpsertParams) (script : Script) (start : Moment) (value : Json)
      (count : Nat), value.toNat? = some count → 0 < count →
      (∀ index, Reports (script index).outcome value) →
      ∀ request ∈ Event.requests ((client.getOrCreate params).play script start).events,
        request.method ≠ .post := by
  intro never
  let two : Json := .number (.integer ⟨2, by decide⟩)
  obtain ⟨client, params, script, told, sent⟩ :
      ∃ (client : Client) (params : UpsertParams) (script : Script),
        (∀ index, Reports (script index).outcome two) ∧
        (Event.requests ((client.getOrCreate params).play script {}).events).map Request.method =
          [.get, .post] :=
    ⟨⟨{}, none⟩, ⟨"device", .object [("uuid", .string "abc")], some (.object []), some [.count []], []⟩,
      fun _ => ⟨.ok (.object [("d", two)]), 0⟩, fun _ => ⟨_, rfl, rfl, nofun⟩, rfl⟩
  have posted : Http.Method.post ∈ (Event.requests
      ((client.getOrCreate params).play script {}).events).map Request.method := by
    rw [sent]
    exact List.mem_cons_of_mem _ (List.mem_singleton_self _)
  obtain ⟨request, among, isPost⟩ := List.mem_map.mp posted
  exact never client params script {} two 2 rfl (by decide) told request among isPost

end Client

end OData
