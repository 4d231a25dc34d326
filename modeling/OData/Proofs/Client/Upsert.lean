import Mathlib
import OData.Client.Upsert
import OData.Proofs.Client.Transmission
import OData.Proofs.Keyed
import OData.Proofs.Options.Filter

namespace OData

theorem Text.contains_iff_infix (needle text : Text) :
    Text.contains needle text = true ↔ needle <:+: text := by
  induction text with
  | nil => simp [Text.contains]
  | cons c text ih =>
    rw [Text.contains, Bool.or_eq_true, List.isPrefixOf_iff_prefix, ih, List.infix_cons_iff]

/-- A conflict of which the server says, in letters of any case, that something is not unique. -/
def ClientError.ViolatesUnique (error : ClientError) : Prop :=
  ∃ body delay, error = .httpStatus 409 body delay ∧
    ∃ word, word <:+: body.toList ∧ word.map Char.toLower = "unique".toList

theorem ClientError.isUniqueViolation_iff (error : ClientError) :
    error.isUniqueViolation = true ↔ error.ViolatesUnique := by
  cases error with
  | httpStatus status body delay =>
    rw [isUniqueViolation, Bool.and_eq_true, beq_iff_eq, Text.contains_iff_infix,
      List.infix_map_iff]
    constructor
    · rintro ⟨rfl, word, inside, same⟩
      exact ⟨body, delay, rfl, word, inside, same.symm⟩
    · rintro ⟨_, _, ⟨⟩, word, inside, same⟩
      exact ⟨rfl, word, inside, same.symm⟩
  | compile _ | transport _ | invalidResponse _ | multipleResults | invalidParameters _ =>
    constructor
    · intro violation
      cases violation
    · rintro ⟨_, _, ⟨⟩, _⟩

namespace Options

/-- The second options are the first ones under one more condition: the first filter is narrowed by
it where it stands, and where there is no filter the condition comes last. -/
inductive Conditioned (condition : Filter) : Options → Options → Prop
  | narrowed (before : Options) (existing : Filter) (after : Options)
      (first : filter? before = none) :
      Conditioned condition (before ++ .filter existing :: after)
        (before ++ .filter (.ofOperation (.and (.list [existing, condition]))) :: after)
  | added (options : Options) (unfiltered : filter? options = none) :
      Conditioned condition options (options ++ [.filter condition])

/-- The given options under one more condition. -/
def conditioned (condition : Filter) (given : Options) : Options :=
  match filter? given with
  | some existing => setFilter (.ofOperation (.and (.list [existing, condition]))) given
  | none => setFilter condition given

theorem conditioned_eq_iff {condition : Filter} {given options : Options} :
    conditioned condition given = options ↔ Conditioned condition given options := by
  constructor
  · rintro rfl
    unfold conditioned
    split
    case h_1 existing found =>
      obtain ⟨before, after, rfl, first⟩ := exists_of_filter?_eq_some found
      rw [setFilter_append _ first]
      exact .narrowed before existing after first
    case h_2 unfiltered =>
      rw [setFilter_of_unfiltered condition unfiltered]
      exact .added given unfiltered
  · intro shape
    cases shape with
    | narrowed before existing after first =>
      have found : filter? (before ++ .filter existing :: after) = some existing := by
        rw [filter?, List.findSome?_append, ← filter?, first]
        rfl
      rw [conditioned, found]
      exact setFilter_append _ first _
    | added options unfiltered =>
      rw [conditioned, unfiltered]
      exact setFilter_of_unfiltered condition unfiltered

/-- Whichever way a condition is set, it is required by a filter of the options. -/
theorem Conditioned.requires {condition : Filter} {given options : Options}
    (shape : Conditioned condition given options) :
    ∃ filter, .filter filter ∈ options ∧ (filter = condition ∨
      ∃ existing, filter = .ofOperation (.and (.list [existing, condition]))) := by
  cases shape with
  | narrowed before existing after first =>
    exact ⟨_, List.mem_append_right _ (List.mem_cons_self ..), Or.inr ⟨existing, rfl⟩⟩
  | added options unfiltered =>
    exact ⟨condition, List.mem_append_right _ (List.mem_singleton_self _), Or.inl rfl⟩

end Options

namespace UpsertParams

/-- The options under the condition that the natural key holds. -/
theorem keyedOptions_eq (params : UpsertParams) :
    params.keyedOptions = ((Filter.ofJson params.key).mapError .compile).map fun condition =>
      Options.conditioned condition (params.options.getD []) := by
  unfold keyedOptions Options.conditioned
  cases Filter.ofJson params.key with
  | error error => rfl
  | ok condition =>
    simp only [Except.mapError, Except.map, Bind.bind, Except.bind]
    cases Options.filter? (params.options.getD []) with
    | none => rfl
    | some existing => rfl

/-- The row with the natural key can be changed: the key is a condition, these are the options under
it, and their query is compiled to this text. -/
structure Change (params : UpsertParams) (condition : Filter) (options : Options) (url : Text) :
    Prop where
  read : Filter.ofJson params.key = .ok condition
  shape : Options.Conditioned condition (params.options.getD []) options
  compiled : (params.request (some options)).query.compile.outcome = .ok url

/-- Why the row with the natural key cannot be changed: the key is no condition, or there is no query
under that condition. -/
inductive ChangeRefused (params : UpsertParams) (error : Error) : Prop
  | key (unread : Filter.ofJson params.key = .error error)
  | query (condition : Filter) (options : Options)
      (read : Filter.ofJson params.key = .ok condition)
      (shape : Options.Conditioned condition (params.options.getD []) options)
      (failed : (params.request (some options)).query.compile.outcome = .error error)

variable {params : UpsertParams}

/-- The natural key determines the change. -/
theorem Change.unique {condition other : Filter} {options given : Options} {url text : Text}
    (first : params.Change condition options url) (second : params.Change other given text) :
    url = text := by
  obtain rfl : condition = other := Except.ok.inj (first.read.symm.trans second.read)
  obtain rfl : options = given := (Options.conditioned_eq_iff.mpr first.shape).symm.trans
    (Options.conditioned_eq_iff.mpr second.shape)
  exact Except.ok.inj (first.compiled.symm.trans second.compiled)

theorem ChangeRefused.not_change {error : Error} (refused : params.ChangeRefused error)
    (condition : Filter) (options : Options) (url : Text) :
    ¬ params.Change condition options url := by
  rintro ⟨read, shape, compiled⟩
  cases refused with
  | key unread =>
    rw [unread] at read
    cases read
  | query other given readOther shapeOther failed =>
    obtain rfl := Except.ok.inj (read.symm.trans readOther)
    obtain rfl : options = given :=
      (Options.conditioned_eq_iff.mpr shape).symm.trans (Options.conditioned_eq_iff.mpr shapeOther)
    rw [failed] at compiled
    cases compiled

end UpsertParams

namespace Client

open OData.Http

/-- What is sent when a row is written, for the text of the query. -/
def writeRequest (client : Client) (params : UpsertParams) (method : Method) (body : Keyed Json)
    (url : Text) : Request where
  method := method
  url := String.ofList (client.config.apiPrefix.toList ++ url)
  body := some (.object body)
  passthrough := client.passthroughFor method params.passthrough

def create (client : Client) (params : UpsertParams) (row : Json) : Session Request Json :=
  client.post { params.request params.options with body := some row }

def amend (client : Client) (params : UpsertParams) : Session Request Json := do
  let options ← ExceptT.mk (pure params.keyedOptions)
  client.patch { params.request (some options) with body := params.body }

def afterCreate (client : Client) (params : UpsertParams) :
    Except ClientError Json → Session Request Json
  | .ok response => return response
  | .error error => if error.isUniqueViolation then client.amend params else throw error

/-- A POST ended with a reply that says that the row is there already. -/
def Conflicts (outcome : Except ClientError Json) : Prop :=
  ∃ error, outcome = .error error ∧ error.ViolatesUnique

variable {client : Client} {params : UpsertParams} {key body : Keyed Json} {script : Script}
  {start : Moment}

theorem keyedBody_eq (keyed : params.key = .object key) (nonempty : key ≠ [])
    (given : params.body = some (.object body)) :
    params.keyedBody = .ok (.object (Keyed.extend body key)) := by
  obtain ⟨entry, rest, rfl⟩ := List.exists_cons_of_ne_nil nonempty
  rw [UpsertParams.keyedBody, UpsertParams.naturalKey, keyed, given]
  rfl

theorem play_upsert {row : Json} (bodied : params.keyedBody = .ok row) :
    (client.upsert params).play script start =
      ((client.create params row).play script start).andThen
        ((client.afterCreate params ((client.create params row).play script start).value).play script
          ((client.create params row).play script start).after) := by
  have steps : client.upsert params =
      ExceptT.lift (client.create params row).run >>= client.afterCreate params := by
    rw [upsert, bodied]
    refine congrArg (ExceptT.lift (client.create params row).run >>= ·) (funext fun created => ?_)
    cases created with
    | ok response => rfl
    | error error => rfl
  rw [steps, Session.play_lift_bind]

theorem afterCreate_of_conflicts {outcome : Except ClientError Json} (conflict : Conflicts outcome) :
    client.afterCreate params outcome = client.amend params := by
  obtain ⟨error, rfl, violates⟩ := conflict
  exact if_pos (error.isUniqueViolation_iff.mpr violates)

theorem play_afterCreate {outcome : Except ClientError Json} (final : ¬ Conflicts outcome) :
    (client.afterCreate params outcome).play script start = ⟨outcome, [], start⟩ := by
  cases outcome with
  | ok response => rfl
  | error error =>
    have other : ¬ error.isUniqueViolation = true := fun violation =>
      final ⟨error, rfl, error.isUniqueViolation_iff.mp violation⟩
    rw [afterCreate, if_neg other]
    rfl

theorem create_sendsOnly {row : Keyed Json} {url : Text}
    (compiled : (params.request params.options).query.compile.outcome = .ok url) :
    ∃ count, SendsOnly script start (client.writeRequest params .post row url) count
      ((client.create params (.object row)).play script start) := by
  obtain ⟨count, sent⟩ : ∃ count, SendsOnly script start
      (client.requestFor { params.request params.options with
        method := .post, body := some (.object row) } url) count
      ((client.create params (.object row)).play script start) := request_sendsOnly compiled
  exact ⟨count, sent⟩

theorem amend_eq_patch {condition : Filter} {options : Options}
    (read : Filter.ofJson params.key = .ok condition)
    (shape : Options.Conditioned condition (params.options.getD []) options) :
    client.amend params =
      client.patch { params.request (some options) with body := params.body } := by
  have chosen : params.keyedOptions = .ok options := by
    rw [params.keyedOptions_eq, read, ← Options.conditioned_eq_iff.mpr shape]
    rfl
  rw [amend, chosen]
  rfl

/-- The change behind a conflict is a block of PATCHes, or it is refused and nothing is sent. -/
theorem play_amend (client : Client) (script : Script) (start : Moment)
    (given : params.body = some (.object body)) :
    (∃ condition options url count, params.Change condition options url ∧
      SendsOnly script start (client.writeRequest params .patch body url) count
        ((client.amend params).play script start)) ∨
    ∃ error, params.ChangeRefused error ∧
      Event.requests ((client.amend params).play script start).events = [] ∧
      ((client.amend params).play script start).value = .error (.compile error) := by
  cases read : Filter.ofJson params.key with
  | error error =>
    have refused : params.keyedOptions = .error (.compile error) := by
      rw [params.keyedOptions_eq, read]
      rfl
    have failed : (client.amend params).play script start = ⟨.error (.compile error), [], start⟩ := by
      rw [amend, refused]
      rfl
    rw [failed]
    exact Or.inr ⟨error, .key read, rfl, rfl⟩
  | ok condition =>
    obtain ⟨options, shape⟩ : ∃ options,
        Options.Conditioned condition (params.options.getD []) options :=
      ⟨_, Options.conditioned_eq_iff.mp rfl⟩
    rw [amend_eq_patch read shape]
    cases run : (params.request (some options)).query.compile.outcome with
    | error error =>
      have failed : (client.patch { params.request (some options) with body := params.body }).play
          script start = _ := play_request_refused run
      rw [failed]
      exact Or.inr ⟨error, .query condition options read shape run,
        Event.requests_deprecated _, rfl⟩
    | ok url =>
      obtain ⟨count, sent⟩ : ∃ count, SendsOnly script start
          (client.requestFor { params.request (some options) with
            method := .patch, body := params.body } url) count
          ((client.patch { params.request (some options) with body := params.body }).play
            script start) := request_sendsOnly run
      rw [given] at sent ⊢
      exact Or.inl ⟨condition, options, url, count, ⟨read, shape, run⟩, sent⟩

/-- Where the POST goes out, there is a block of it, and behind a conflict a block of PATCHes or a
refusal. -/
theorem upsert_blocks {row : Keyed Json} {url : Text}
    (bodied : params.keyedBody = .ok (.object row)) (given : params.body = some (.object body))
    (compiled : (params.request params.options).query.compile.outcome = .ok url)
    {run : Played Request (Except ClientError Json)}
    (played : (client.upsert params).play script start = run) :
    ∃ posts, 1 ≤ posts ∧
      let reply := (script (start.used + posts - 1)).outcome
      let created := List.replicate posts (client.writeRequest params .post row url)
      ((¬ Conflicts reply ∧ Event.requests run.events = created ∧ run.value = reply) ∨
        (Conflicts reply ∧ Event.requests run.events = created ∧
          ∃ error, params.ChangeRefused error ∧ run.value = .error (.compile error)) ∨
        (Conflicts reply ∧ ∃ condition options changeUrl patches,
          params.Change condition options changeUrl ∧ 1 ≤ patches ∧
          Event.requests run.events = created ++
            List.replicate patches (client.writeRequest params .patch body changeUrl) ∧
          run.value = (script (start.used + posts + patches - 1)).outcome)) := by
  rw [play_upsert bodied] at played
  obtain ⟨posts, created⟩ : ∃ posts, SendsOnly script start
      (client.writeRequest params .post row url) posts
      ((client.create params (.object row)).play script start) := create_sendsOnly compiled
  rw [created.value] at played
  refine ⟨posts, created.positive, ?_⟩
  by_cases conflict : Conflicts (script (start.used + posts - 1)).outcome
  · rw [afterCreate_of_conflicts conflict] at played
    have amended := play_amend client script
      ((client.create params (.object row)).play script start).after given
    rcases amended with
      ⟨condition, options, changeUrl, patches, change, sent⟩ | ⟨error, refused, nothing, value⟩
    · refine Or.inr (Or.inr ⟨conflict, condition, options, changeUrl, patches, change,
        sent.positive, ?_, ?_⟩)
      · rw [← played, Played.andThen, Event.requests_append, created.requests, sent.requests]
      · rw [← played, Played.andThen, sent.value, created.used]
    · refine Or.inr (Or.inl ⟨conflict, ?_, error, refused, ?_⟩)
      · rw [← played, Played.andThen, Event.requests_append, created.requests, nothing,
          List.append_nil]
      · rw [← played, Played.andThen, value]
  · rw [play_afterCreate conflict, Played.andThen_done] at played
    rw [← played]
    exact Or.inl ⟨conflict, created.requests, rfl⟩

/-- What becomes of an upsert with a natural key and a body whose first query compiles. First the POST
is sent, several times if the policy says so, with the fields of the key over those of the body. When
the last reply to it is no conflict over a unique constraint, that reply is the result. Otherwise the
PATCH of the row with the natural key follows, several times if the policy says so, with the body as
it was given, and the last reply to it is the result; or, where the key or the query under it is
refused, nothing follows, and the refusal is the result. The options of the PATCH are the given ones
under the condition that the key holds, so that no PATCH goes out without it. -/
theorem upsert_protocol (client : Client) (params : UpsertParams) (script : Script) (start : Moment)
    {key body : Keyed Json} {url : Text} (keyed : params.key = .object key) (nonempty : key ≠ [])
    (given : params.body = some (.object body))
    (compiled : (params.request params.options).query.compile.outcome = .ok url) :
    let run := (client.upsert params).play script start
    let post := client.writeRequest params .post (Keyed.extend body key) url
    (∀ name, (Keyed.extend body key).lookup name =
      (key.reverse.lookup name).or (body.lookup name)) ∧
    ∃ posts, 1 ≤ posts ∧
      let reply := (script (start.used + posts - 1)).outcome
      ((¬ Conflicts reply ∧ Event.requests run.events = List.replicate posts post ∧
          run.value = reply) ∨
        (Conflicts reply ∧ (∀ condition options url, ¬ params.Change condition options url) ∧
          Event.requests run.events = List.replicate posts post ∧
          ∃ error, params.ChangeRefused error ∧ run.value = .error (.compile error)) ∨
        (Conflicts reply ∧ ∃ condition options changeUrl patches,
          params.Change condition options changeUrl ∧
          (∃ filter, .filter filter ∈ options ∧ (filter = condition ∨
            ∃ existing, filter = .ofOperation (.and (.list [existing, condition])))) ∧
          1 ≤ patches ∧
          Event.requests run.events = List.replicate posts post ++
            List.replicate patches (client.writeRequest params .patch body changeUrl) ∧
          run.value = (script (start.used + posts + patches - 1)).outcome)) := by
  intro run post
  refine ⟨fun name => Keyed.lookup_extend name body key, ?_⟩
  have bodied := keyedBody_eq keyed nonempty given
  have played : (client.upsert params).play script start = run := rfl
  obtain ⟨posts, positive, blocks⟩ := upsert_blocks bodied given compiled played
  refine ⟨posts, positive, ?_⟩
  rcases blocks with final | ⟨conflict, sent, error, refused, value⟩ |
    ⟨conflict, condition, options, changeUrl, patches, change, more, sent, value⟩
  · exact Or.inl final
  · exact Or.inr (Or.inl ⟨conflict, refused.not_change, sent, error, refused, value⟩)
  · exact Or.inr (Or.inr ⟨conflict, condition, options, changeUrl, patches, change,
      change.shape.requires, more, sent, value⟩)

/-- The server answers every request with a conflict over a unique constraint, so the row is changed,
under the filter that was given and the natural key. -/
theorem upsert_protocol_conflict :
    let active : Filter := .ofProperty "is_active" (.value (.bool true))
    let params : UpsertParams :=
      { resource := "device", key := .object [("uuid", .string "abc")],
        body := some (.object [("name", .string "n")]),
        options := some [.select (.fields "id"), .filter active] }
    let script : Script := fun _ => ⟨.error (.httpStatus 409 "UNIQUE key violated" none), 0⟩
    ∃ posts patches, 1 ≤ posts ∧ 1 ≤ patches ∧
      Event.requests ((upsert ⟨{}, none⟩ params).play script {}).events =
        List.replicate posts ⟨.post, "/device?$select=id&$filter=is_active eq true",
          some (.object [("name", .string "n"), ("uuid", .string "abc")]), []⟩ ++
        List.replicate patches
          ⟨.patch, "/device?$select=id&$filter=(is_active eq true) and (uuid eq 'abc')",
            some (.object [("name", .string "n")]), []⟩ := by
  intro active params script
  have conflict : Conflicts (script 0).outcome :=
    ⟨_, rfl, _, _, rfl, "UNIQUE".toList, by decide, by decide⟩
  have created : (params.request params.options).query =
      ⟨some "device", none, none, none, some [.select (.fields "id"), .filter active]⟩ := rfl
  have compiled : (params.request params.options).query.compile.outcome =
      .ok "device?$select=id&$filter=is_active eq true".toList := by
    rw [created]
    rfl
  let both : Filter := .ofOperation (.and (.list
    [active, .ofProperty "uuid" (.value (.string "abc"))]))
  have changed : (params.request (some [.select (.fields "id"), .filter both])).query =
      ⟨some "device", none, none, none, some [.select (.fields "id"), .filter both]⟩ := rfl
  have change : params.Change (.ofProperty "uuid" (.value (.string "abc")))
      [.select (.fields "id"), .filter both]
      "device?$select=id&$filter=(is_active eq true) and (uuid eq 'abc')".toList := by
    refine ⟨rfl, .narrowed [.select (.fields "id")] active [] rfl, ?_⟩
    rw [changed]
    rfl
  obtain ⟨_, posts, several, final | ⟨_, unchanged, _⟩ |
      ⟨_, condition, options, url, patches, found, _, more, sent, _⟩⟩ :=
    upsert_protocol ⟨{}, none⟩ params script {} rfl (List.cons_ne_nil _ _) rfl compiled
  · exact absurd conflict final.1
  · exact absurd change (unchanged _ _ _)
  · obtain rfl := change.unique found
    have post : writeRequest ⟨{}, none⟩ params .post
        (Keyed.extend [("name", .string "n")] [("uuid", .string "abc")])
        "device?$select=id&$filter=is_active eq true".toList =
        ⟨.post, "/device?$select=id&$filter=is_active eq true",
          some (.object [("name", .string "n"), ("uuid", .string "abc")]), []⟩ :=
      (Request.mk.injEq ..).mpr ⟨rfl, by decide, rfl, rfl⟩
    have patch : writeRequest ⟨{}, none⟩ params .patch [("name", .string "n")]
        "device?$select=id&$filter=(is_active eq true) and (uuid eq 'abc')".toList =
        ⟨.patch, "/device?$select=id&$filter=(is_active eq true) and (uuid eq 'abc')",
          some (.object [("name", .string "n")]), []⟩ :=
      (Request.mk.injEq ..).mpr ⟨rfl, by decide, rfl, rfl⟩
    rw [post, patch] at sent
    exact ⟨posts, patches, several, more, sent⟩

end Client

end OData
