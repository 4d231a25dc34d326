import OData.Client.Basic

namespace OData

structure UpsertParams where
  resource : String
  key : Json
  body : Option Json := none
  options : Option Options := none
  passthrough : Keyed Json := []

namespace UpsertParams

/-- The natural key, an object with at least one field. -/
def naturalKey (params : UpsertParams) : Except ClientError (List (String × Json)) :=
  match params.key with
  | .object [] => .error (.invalidParameters .keyEmpty)
  | .object fields => .ok fields
  | _ => .error (.invalidParameters .keyKind)

/-- The body with the natural key merged over it. -/
def keyedBody (params : UpsertParams) : Except ClientError Json := do
  let key ← params.naturalKey
  match params.body with
  | none => .error (.invalidParameters .bodyMissing)
  | some (.object body) => return .object (Keyed.extend body key)
  | some _ => .error (.invalidParameters .bodyKind)

/-- The natural key as a composite id. -/
def keyId (params : UpsertParams) : Except ClientError ResourceId := do
  let key ← params.naturalKey
  let parts ← key.mapM fun (name, value) => do
    return (name, KeyValue.value (← (Primitive.ofJson value).mapError .compile))
  return .composite parts

def request (params : UpsertParams) (options : Option Options) : RequestParams where
  query := { resource := some params.resource, options := options }
  passthrough := params.passthrough

/-- The caller's options with the natural key as a further condition: the first filter is replaced
by its conjunction with the key, and without a filter the key is the filter. -/
def keyedOptions (params : UpsertParams) : Except ClientError Options := do
  let condition ← (Filter.ofJson params.key).mapError .compile
  let options := params.options.getD []
  match Options.filter? options with
  | some existing =>
    return Options.setFilter (.ofOperation (.and (.list [existing, condition]))) options
  | none => return Options.setFilter condition options

end UpsertParams

namespace Client

/-- Creates a row; where that hits a unique constraint, changes the row with the same natural key
instead. -/
def upsert (client : Client) (params : UpsertParams) : Session Request Json := do
  let body ← ExceptT.mk (pure params.keyedBody)
  let created ← ExceptT.lift
    (client.post { params.request params.options with body := some body }).run
  match created with
  | .ok response => return response
  | .error error =>
    if error.isUniqueViolation then
      let options ← ExceptT.mk (pure params.keyedOptions)
      client.patch { params.request (some options) with body := params.body }
    else throw error

/-- Fetches the row with the natural key, and creates it where there is none. -/
def getOrCreate (client : Client) (params : UpsertParams) : Session Request Json := do
  let body ← ExceptT.mk (pure params.keyedBody)
  let id ← ExceptT.mk (pure params.keyId)
  let lookup := params.request params.options
  let found ← client.get { lookup with query := { lookup.query with id := some id } }
  match found.row? with
  | some row => return row
  | none => client.post { params.request none with body := some body }

end Client

end OData
