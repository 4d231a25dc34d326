import Mathlib
import OData.Proofs.Client.Transmission
import OData.Proofs.Query.Parameters
import OData.Proofs.Uri.Ending

namespace OData

open Text

/-- The path in front of the options asks for a count. -/
def AddressesCount (url : Text) : Prop := "/$count".toList <:+ before '?' url

def countInserted (url : Text) : Text :=
  before '?' url ++ ("/$count".toList ++ url.dropWhile (· ≠ '?'))

namespace Query

/-- No path asks for a count by itself: a name that would is refused, and an id ends in a parenthesis. -/
theorem not_suffix_compilePath {resource : String} {id : Option ResourceId} {path : Text}
    (run : compilePath resource id none = .ok path) : ¬ "/$count".toList <:+ path := by
  have uncounted : ¬ "/$count".toList <:+ resource.toList := by
    intro counted
    rw [compilePath, if_pos (List.isSuffixOf_iff_suffix.mpr counted)] at run
    cases run
  obtain ⟨selected, chosen, rfl⟩ := compilePath_eq_ok run
  rw [Uri.encodeResource_single uncounted, actionText, List.append_nil]
  cases id with
  | none =>
    obtain rfl := Except.ok.inj chosen
    rw [List.append_nil]
    exact Uri.not_suffix_encodeComponent resource.toList _
  | some id =>
    obtain ⟨text, _, rfl⟩ := map_eq_ok_iff.mp chosen
    rintro ⟨front, ends⟩
    rw [← List.append_assoc] at ends
    have last : front ++ "/$coun".toList ++ ['t'] =
        Uri.encodeComponent resource.toList ++ '(' :: text ++ [')'] := by
      rw [← ends, List.append_assoc]
      rfl
    exact absurd (List.head_eq_of_cons_eq (List.append_inj' last rfl).2) (by decide)

theorem suffix_wholePath_iff {query : Query} {path : Text} (uncounted : ¬ "/$count".toList <:+ path) :
    "/$count".toList <:+ query.wholePath path ↔ query.isCount = true := by
  unfold wholePath
  split
  case isTrue counts => exact ⟨fun _ => counts, fun _ => List.suffix_append ..⟩
  case isFalse other => exact ⟨fun ends => absurd ends uncounted, fun counts => absurd counts other⟩

/-- The part of a compiled query before its first question mark is its path. -/
theorem before_compile {query : Query} {url : Text} (described : query.url = none)
    (plain : query.HasPlainPath) (run : query.compile.outcome = .ok url) :
    ∃ resource path, compilePath resource query.id query.action = .ok path ∧
      before '?' url = query.wholePath path := by
  obtain ⟨resource, path, _, _, found, _, shape⟩ := compile_shape described run
  have free := plain.wholePath found
  refine ⟨resource, path, found, ?_⟩
  rcases shape with ⟨_, rfl⟩ | ⟨_, rfl⟩
  · exact before_of_not_mem free
  · exact before_append free _

theorem addressesCount_iff {query : Query} {url : Text} (described : query.url = none)
    (actionless : query.action = none) (plain : query.HasPlainPath)
    (run : query.compile.outcome = .ok url) : AddressesCount url ↔ query.isCount = true := by
  obtain ⟨resource, path, found, whole⟩ := before_compile described plain run
  rw [actionless] at found
  rw [AddressesCount, whole]
  exact suffix_wholePath_iff (not_suffix_compilePath found)

theorem countInserted_withParts {path : Text} (plain : '?' ∉ path) (parts : List Text) :
    countInserted (withParts path parts) = withParts (path ++ "/$count".toList) parts := by
  have behind (rest : Text) : (path ++ rest).dropWhile (· ≠ '?') = rest.dropWhile (· ≠ '?') := by
    refine List.dropWhile_append_of_pos fun c member => ?_
    simp only [decide_eq_true_eq]
    rintro rfl
    exact plain member
  unfold countInserted withParts
  split
  · have nothing := behind []
    rw [List.append_nil] at nothing
    rw [before_of_not_mem plain, nothing]
    rfl
  · rw [before_append plain, behind, List.append_assoc]
    rfl

/-- The query with other options. -/
def selecting (options : Options) (query : Query) : Query := { query with options := some options }

/-- A count of options is compiled as the options are, with the count at the end of the path. -/
theorem compile_counted {query : Query} (described : query.url = none) (plain : query.HasPlainPath)
    {options : Options} (uncounted : Options.count? options = none) :
    (query.selecting options.counted).compile = countInserted <$> (query.selecting options).compile := by
  cases named : query.resource with
  | none =>
    unfold compile
    rw [selecting, selecting, described, named]
    rfl
  | some resource =>
    have whole (options : Options) : (query.selecting options).compile = (do
        let path ← Compilation.lift (compilePath resource query.id query.action)
        compileOptions path options) :=
      compile_eq_bind (query.selecting options) described named
    rw [whole, whole, map_bind]
    refine Compilation.bind_congr fun path run => ?_
    have alone : compileOptions path options = withOptions path options := by
      rw [compileOptions, uncounted]
    have counted : compileOptions path options.counted =
        withOptions (path ++ "/$count".toList) options := rfl
    rw [alone, counted, withOptions_eq_bind, withOptions_eq_bind, map_bind]
    simp only [map_pure, countInserted_withParts (plain.compilePath run)]

end Query

/-- The results that a payload can be read as: a natural number, one row or none, or rows. -/
inductive QueryResult.IsOf (payload : Json) : QueryResult → Prop
  | count {count : Nat} (natural : payload.toNat? = some count) : IsOf payload (.count count)
  | none (empty : payload = .array []) : IsOf payload (.one none)
  | only {row : Json} (listed : payload = .array [row]) : IsOf payload (.one (some row))
  | one (single : ∀ rows, payload ≠ .array rows) : IsOf payload (.one (some payload))
  | many {rows : List Json} (listed : payload = .array rows) : IsOf payload (.many rows)
  | single (single : ∀ rows, payload ≠ .array rows) : IsOf payload (.many [payload])

theorem QueryResult.isOf_of_ofPayload {value : Json} {expectation : Expectation} {result : QueryResult}
    (taken : ofPayload value expectation = .ok result) : IsOf value result := by
  cases expectation with
  | count =>
    simp only [ofPayload] at taken
    split at taken
    · next natural => cases taken; exact .count natural
    · cases taken
  | one =>
    simp only [ofPayload] at taken
    split at taken
    · cases taken; exact .none rfl
    · cases taken; exact .only rfl
    · cases taken
    · next none one several =>
      cases taken
      refine .one ?_
      rintro (_ | ⟨first, _ | ⟨second, rest⟩⟩) rfl
      · exact none rfl
      · exact one first rfl
      · exact several first second rest rfl
  | many =>
    simp only [ofPayload] at taken
    split at taken
    · cases taken; exact .many rfl
    · next single => cases taken; exact .single single

theorem QueryResult.ofPayload_count_iff {value : Json} {expectation : Expectation}
    {result : QueryResult} (taken : ofPayload value expectation = .ok result) :
    (∃ count, result = .count count) ↔ expectation = .count := by
  cases expectation with
  | count =>
    simp only [ofPayload] at taken
    split at taken
    · next count _ => exact ⟨fun _ => rfl, fun _ => ⟨count, (Except.ok.inj taken).symm⟩⟩
    · cases taken
  | one =>
    simp only [ofPayload] at taken
    split at taken <;> cases taken <;> simp
  | many =>
    simp only [ofPayload] at taken
    split at taken <;> cases taken <;> simp

theorem RequestParams.expectation_count_iff {params : RequestParams} :
    params.expectation = .count ↔ params.query.isCount = true := by
  unfold expectation
  split
  case isTrue counts => exact ⟨fun _ => counts, fun _ => rfl⟩
  case isFalse other =>
    refine ⟨fun same => ?_, fun counts => absurd counts other⟩
    split at same <;> cases same

namespace Client

/-- What a query fetches is read from the last reply to the compiled query, and it is a number exactly where
the query is for a count. -/
theorem get_eq_ok {client : Client} {params : RequestParams} {script : Script} {start : Moment}
    {result : QueryResult} (run : ((client.get params).play script start).value = .ok result) :
    ∃ url sent payload, params.query.compile.outcome = .ok url ∧ 1 ≤ sent ∧
      Event.requests ((client.get params).play script start).events =
        List.replicate sent (client.requestFor { params with method := .get } url) ∧
      Reports (script (start.used + sent - 1)).outcome payload ∧ QueryResult.IsOf payload result ∧
      ((∃ count, result = .count count) ↔ params.query.isCount = true) := by
  cases replied : ((client.requestWith .get params).play script start).value with
  | error error =>
    rw [get, Session.play_bind_error replied] at run
    cases run
  | ok response =>
    cases compiled : params.query.compile.outcome with
    | error error =>
      have refused : (client.requestWith .get params).play script start = _ :=
        play_request_refused compiled
      rw [refused] at replied
      cases replied
    | ok url =>
      obtain ⟨count, sent⟩ : ∃ count, SendsOnly script start
          (client.requestFor { params with method := .get } url) count
          ((client.requestWith .get params).play script start) := request_sendsOnly compiled
      rw [get, Session.play_bind_ok replied] at run
      obtain ⟨value, reported, taken⟩ := bind_eq_ok_iff.mp run
      refine ⟨url, count, value, rfl, sent.positive, ?_, ?_, QueryResult.isOf_of_ofPayload taken, ?_⟩
      · rw [get, Session.play_bind_ok replied, Played.andThen, Event.requests_append, sent.requests]
        exact List.append_nil _
      · rw [← sent.value, replied]
        exact payload_eq_ok_iff.mp reported
      · rw [QueryResult.ofPayload_count_iff taken, RequestParams.expectation_count_iff]

/-- The address of a query without an action asks for a count exactly when the description does. So what is
fetched, which is what the last reply says, is a number only where the address asks for one, and it is rows
only where the address does not. And a
count of options compiles exactly when the options do, to the same text with `/$count` at the end of the
path. Only the names of composite keys, which are written as they are, have to be free of question
marks. -/
theorem count_addressed {query : Query} (described : query.url = none)
    (actionless : query.action = none)
    (keys : ∀ keys, query.id = some (.composite keys) → ∀ entry ∈ keys, '?' ∉ entry.1.toList) :
    (∀ url, query.compile.outcome = .ok url → (AddressesCount url ↔ query.isCount = true)) ∧
    (∀ (client : Client) (params : RequestParams) (script : Script) (start : Moment)
        (result : QueryResult), params.query = query →
      ((client.get params).play script start).value = .ok result →
      ∃ url sent payload, query.compile.outcome = .ok url ∧ 1 ≤ sent ∧
        Event.requests ((client.get params).play script start).events =
          List.replicate sent (client.requestFor { params with method := .get } url) ∧
        Reports (script (start.used + sent - 1)).outcome payload ∧ QueryResult.IsOf payload result ∧
        ((∃ count, result = .count count) ↔ AddressesCount url)) ∧
    ∀ options, Options.count? options = none →
      (query.selecting options.counted).compile =
        countInserted <$> (query.selecting options).compile := by
  have noAction : ∀ action, query.action = some action → '?' ∉ action.toList := by
    rw [actionless]
    nofun
  have plain : query.HasPlainPath := ⟨noAction, keys⟩
  refine ⟨?address, ?result, ?counted⟩
  case address => exact fun url run => Query.addressesCount_iff described actionless plain run
  case result =>
    rintro client params script start result rfl run
    obtain ⟨url, sent, payload, compiled, positive, requests, reported, held, read⟩ := get_eq_ok run
    refine ⟨url, sent, payload, compiled, positive, requests, reported, held, ?_⟩
    rw [read, Query.addressesCount_iff described actionless plain compiled]
  case counted => exact fun options uncounted => Query.compile_counted described plain uncounted

/-- A resource whose name looks like an encoded count is none; a count of it is. It is asked for twice, since
the first reply is an error, and the second reply is read as the number that it is. -/
theorem count_addressed_disguised :
    let counting (options : Options) : Query :=
      { resource := some "a%2F%24count", id := some (.value (.string "/$count"))
        options := some options }
    let client : Client := ⟨{}, some {}⟩
    let script : Script := fun used =>
      { outcome := if used = 0 then .error (.transport "reset")
          else .ok (.object [("d", .ofInt 3)]) }
    let fetched := (client.get { query := counting [.count [.top 1]] }).play script {}
    ¬ AddressesCount "a%252F%2524count('%2F%24count')?$top=1".toList ∧
      AddressesCount "a%252F%2524count('%2F%24count')/$count?$top=1".toList ∧
      fetched.value = .ok (.count 3) ∧
      Event.requests fetched.events =
        List.replicate 2 ⟨.get, "/a%252F%2524count('%2F%24count')/$count?$top=1", none, []⟩ ∧
      Reports (script 1).outcome (.ofInt 3) := by
  intro counting client script fetched
  have asked (options : Options) := @count_addressed (counting options) rfl rfl nofun
  have plain : (counting [.top 1]).compile.outcome =
      .ok "a%252F%2524count('%2F%24count')?$top=1".toList := rfl
  have counted : (counting [.count [.top 1]]).compile.outcome =
      .ok "a%252F%2524count('%2F%24count')/$count?$top=1".toList := rfl
  have value : fetched.value = .ok (.count 3) := rfl
  obtain ⟨url, sent, payload, compiled, _, requests, reported, _⟩ :=
    (asked _).2.1 client _ script {} (.count 3) rfl value
  obtain rfl := Except.ok.inj (counted.symm.trans compiled)
  obtain rfl : sent = 2 := by
    have twice : (Event.requests fetched.events).length = 2 := rfl
    rwa [requests, List.length_replicate] at twice
  obtain rfl : payload = .ofInt 3 := reported.unique ⟨_, rfl, rfl, nofun⟩
  refine ⟨fun counts => Bool.noConfusion (((asked _).1 _ plain).mp counts),
    ((asked _).1 _ counted).mpr rfl, value, requests.trans (congrArg _ ?_), reported⟩
  exact (Request.mk.injEq ..).mpr ⟨rfl, by decide, rfl, rfl⟩

end Client

end OData
