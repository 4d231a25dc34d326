import Mathlib
import OData.Client.Prepared
import OData.Proofs.Client.Prepared
import OData.Proofs.Client.Transmission
import OData.Proofs.Keyed

namespace OData

open OData.Http

/-- The options that changes give a method as a whole. -/
def ClientOverrides.forMethod? (method : Method) (changes : ClientOverrides) : Option (Keyed Json) :=
  Keyed.last? (changes.passthroughByMethod.getD []) method.name

/-- The value that changes give a key for every method. -/
def ClientOverrides.general? (key : String) (changes : ClientOverrides) : Option Json :=
  Keyed.last? (changes.passthrough.getD []) key

/-- The value that is received under a key, read off the layers without merging any of them. The
request itself says it first, the last of its layers before the others; then the options for its
method, which are those of the last changes that name the method; then the last changes that have
the key. What no change says is as in the first settings. -/
def ClientConfig.effective? (config : ClientConfig) (chain : List ClientOverrides) (method : Method)
    (own : List (Keyed Json)) (key : String) : Option Json :=
  if key = "url" ∨ key = "body" ∨ key = "method" then none
  else
    let ofRequest := own.reverse.findSome? (Keyed.last? · key)
    let forMethod := (chain.reverse.findSome? (ClientOverrides.forMethod? method)).or
      (config.passthroughByMethod.lookup method.name)
    let general := (chain.reverse.findSome? (ClientOverrides.general? key)).or
      (config.passthrough.lookup key)
    (ofRequest.or (forMethod.bind (Keyed.last? · key))).or general

namespace Client

/-- What the last changes in a chain say counts, where each one either says something or leaves it as it
is. -/
theorem find_foldl_override {β : Type} (find : ClientConfig → Option β)
    {change : ClientOverrides → Option β}
    (step : ∀ config changes, find (config.override changes) = (change changes).or (find config))
    (base : Client) (chain : List ClientOverrides) :
    find (chain.foldl override base).config =
      (chain.reverse.findSome? change).or (find base.config) := by
  induction chain generalizing base with
  | nil => rfl
  | cons changes chain ih =>
    have single : [changes].findSome? change = change changes := by
      rw [List.findSome?_cons]
      cases change changes <;> rfl
    have first : find (base.override changes).config = (change changes).or (find base.config) :=
      step base.config changes
    rw [List.foldl_cons, ih, first, List.reverse_cons, List.findSome?_append, single, Option.or_assoc]

theorem lookup_passthrough_override (key : String) (config : ClientConfig) (changes : ClientOverrides) :
    (config.override changes).passthrough.lookup key =
      (changes.general? key).or (config.passthrough.lookup key) :=
  Keyed.lookup_extend key config.passthrough (changes.passthrough.getD [])

theorem lookup_passthroughByMethod_override (method : Method) (config : ClientConfig)
    (changes : ClientOverrides) :
    (config.override changes).passthroughByMethod.lookup method.name =
      (changes.forMethod? method).or (config.passthroughByMethod.lookup method.name) :=
  Keyed.lookup_extendSorted method.name config.passthroughByMethod (changes.passthroughByMethod.getD [])

variable {client : Client} {method : Method} {own : Keyed Json} {key : String}

theorem lookup_passthroughFor :
    (client.passthroughFor method own).lookup key =
      if key = "url" ∨ key = "body" ∨ key = "method" then none
      else ((Keyed.last? own key).or ((client.config.passthroughByMethod.lookup method.name).bind
        (Keyed.last? · key))).or (client.config.passthrough.lookup key) := by
  have reserved : (!reservedKeys.contains key) = true ↔
      ¬ (key = "url" ∨ key = "body" ∨ key = "method") := by
    simp [reservedKeys]
  have options : Keyed.last? ((client.config.passthroughByMethod.lookup method.name).getD []) key =
      (client.config.passthroughByMethod.lookup method.name).bind (Keyed.last? · key) := by
    cases client.config.passthroughByMethod.lookup method.name <;> rfl
  rw [passthroughFor, Keyed.lookup_filter key (fun key => !reservedKeys.contains key), Keyed.lookup_extend,
    Keyed.lookup_extend, ← options, Option.or_assoc]
  by_cases taken : key = "url" ∨ key = "body" ∨ key = "method"
  · rw [if_pos taken, if_neg fun kept => reserved.mp kept taken]
  · rw [if_neg taken, if_pos (reserved.mpr taken)]
    rfl

theorem lookup_passthroughFor_foldl (base : Client) (chain : List ClientOverrides) (method : Method)
    (own : Keyed Json) (key : String) :
    ((chain.foldl override base).passthroughFor method own).lookup key =
      base.config.effective? chain method [own] key := by
  have forMethod := find_foldl_override (·.passthroughByMethod.lookup method.name)
    (lookup_passthroughByMethod_override method) base chain
  have general := find_foldl_override (·.passthrough.lookup key)
    (lookup_passthrough_override key) base chain
  have ofRequest : [own].findSome? (Keyed.last? · key) = Keyed.last? own key := by
    rw [List.findSome?_cons]
    cases Keyed.last? own key <;> rfl
  rw [lookup_passthroughFor, forMethod, general, ClientConfig.effective?, List.reverse_singleton, ofRequest]

/-- Options of a call over those of the prepared request are as good as two layers. -/
theorem last?_extend {base overlay : Keyed Json} (distinct : (Keyed.keys base).Nodup) :
    Keyed.last? (Keyed.extend base overlay) key = [base, overlay].reverse.findSome? (Keyed.last? · key) := by
  have merged := Keyed.keys_extend_nodup distinct overlay
  rw [Keyed.last?, Keyed.lookup_reverse_of_nodup merged, Keyed.lookup_extend,
    ← Keyed.lookup_reverse_of_nodup distinct]
  show _ = [overlay, base].findSome? (Keyed.last? · key)
  rw [List.findSome?_cons, List.findSome?_cons]
  show (Keyed.last? overlay key).or (Keyed.last? base key) = _
  cases Keyed.last? overlay key with
  | some value => rfl
  | none => cases Keyed.last? base key <;> rfl

/-- Which options are received. A client that comes out of a chain of changes sends a request, once or
several times in a row, with the method and the body that were asked for and with exactly the options that
the layers give, be it sent at once or as a call of a prepared query, whose options have distinct keys. -/
theorem passthrough_received (base : Client) (chain : List ClientOverrides) (params : RequestParams)
    (script : Script) (start : Moment) :
    (∀ method url, params.query.compile.outcome = .ok url →
      ∃ sent count, SendsOnly script start sent count
          (((chain.foldl override base).requestWith method params).play script start) ∧
        sent.method = method ∧ sent.body = params.body ∧
        ∀ key, sent.passthrough.lookup key =
          base.config.effective? chain method [params.passthrough] key) ∧
    ((Keyed.keys params.passthrough).Nodup → ∀ prepared,
      (((chain.foldl override base).prepare params).play script start).value = .ok prepared →
      ∀ call later, ∃ sent count, SendsOnly script later sent count
          ((prepared.call call).play script later) ∧
        sent.method = params.method ∧ sent.body = mergeBodies params.body call.body ∧
        ∀ key, sent.passthrough.lookup key = base.config.effective? chain params.method
          [params.passthrough, call.passthrough.getD []] key) := by
  refine ⟨fun method url run => ?direct, fun distinct prepared made call later => ?called⟩
  case direct =>
    obtain ⟨count, sends⟩ : ∃ count, SendsOnly script start
        ((chain.foldl override base).requestFor { params with method := method } url) count
        (((chain.foldl override base).requestWith method params).play script start) :=
      request_sendsOnly run
    exact ⟨_, count, sends, rfl, rfl, lookup_passthroughFor_foldl base chain method params.passthrough⟩
  case called =>
    obtain ⟨url, _, rfl⟩ := prepare_eq_ok.mp made
    have dispatched : ((chain.foldl override base).preparedWith params url).call call = _ :=
      preparedWith_call url
    obtain ⟨count, sends⟩ := transmit_sendsOnly
      ((params.withCall call).retry.resolve (chain.foldl override base).retry)
      ((chain.foldl override base).requestFor (params.withCall call) (withAliases url call.aliases))
      script later
    rw [← dispatch_eq_transmit, ← dispatched] at sends
    refine ⟨_, count, sends, rfl, rfl, fun key => ?_⟩
    have merged := lookup_passthroughFor_foldl base chain params.method
      (Keyed.extend params.passthrough (call.passthrough.getD [])) key
    have layers : [Keyed.extend params.passthrough (call.passthrough.getD [])].reverse.findSome?
        (Keyed.last? · key) =
        [params.passthrough, call.passthrough.getD []].reverse.findSome? (Keyed.last? · key) := by
      rw [← last?_extend distinct, List.reverse_singleton, List.findSome?_cons]
      cases Keyed.last? (Keyed.extend params.passthrough (call.passthrough.getD [])) key <;> rfl
    rw [ClientConfig.effective?, layers] at merged
    exact merged

/-- The second change of a client takes the options for GET away that the first settings had, and the first
change gives a key that the second one gives again. -/
theorem passthrough_received_layers :
    let base : Client := .ofConfig {
      passthrough := [("a", .bool false), ("b", .bool false), ("url", .null)]
      passthroughByMethod := [("GET", [("b", .bool true)])] }
    let chain : List ClientOverrides := [{ passthrough := some [("a", .null), ("c", .null)] },
      { passthrough := some [("a", .bool true)]
        passthroughByMethod := some [("GET", [("c", .bool true)])] }]
    let params : RequestParams := { query := .ofResource "r", passthrough := [("d", .null)] }
    ∃ prepared sent count,
      (((chain.foldl override base).prepare params).play (fun _ => ⟨.ok .null, 0⟩) {}).value = .ok prepared ∧
      SendsOnly (fun _ => ⟨.ok .null, 0⟩) {} sent count
        ((prepared.call { passthrough := some [("d", .bool true)] }).play (fun _ => ⟨.ok .null, 0⟩) {}) ∧
      sent.passthrough.lookup "a" = some (.bool true) ∧ sent.passthrough.lookup "b" = some (.bool false) ∧
      sent.passthrough.lookup "c" = some (.bool true) ∧ sent.passthrough.lookup "d" = some (.bool true) ∧
      sent.passthrough.lookup "url" = none := by
  intro base chain params
  obtain ⟨prepared, made⟩ : ∃ prepared, (((chain.foldl override base).prepare params).play
      (fun _ => ⟨.ok .null, 0⟩) {}).value = .ok prepared := ⟨_, rfl⟩
  obtain ⟨sent, count, sends, -, -, received⟩ :=
    (passthrough_received base chain params (fun _ => ⟨.ok .null, 0⟩) {}).2 (List.nodup_singleton _)
      prepared made { passthrough := some [("d", .bool true)] } {}
  refine ⟨prepared, sent, count, made, sends, ?_⟩
  rw [received, received, received, received, received]
  exact ⟨rfl, rfl, rfl, rfl, rfl⟩

end Client

end OData
