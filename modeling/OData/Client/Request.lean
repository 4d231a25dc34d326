import OData.Client.Response
import OData.Client.Retry
import OData.Query.Compile

namespace OData

open OData.Http

structure Request where
  method : Method
  url : String
  body : Option Json
  passthrough : Keyed Json

/-- A query with everything that its request needs. -/
structure RequestParams where
  query : Query
  method : Method := .get
  apiPrefix : Option String := none
  body : Option Json := none
  passthrough : Keyed Json := []
  retry : RetryMode := .inherit

namespace RequestParams

/-- What the query asks for: a count, a row where it has an id, rows otherwise. -/
def expectation (params : RequestParams) : Expectation :=
  if params.query.isCount then .count
  else if params.query.id.isSome then .one
  else .many

/-- The method under the key `method`; a value that is no text does not count. -/
def methodOfFields (fields : List (String × Json)) : Except ClientError Method :=
  match fields.lookup "method" with
  | some (.string word) =>
    match Method.ofWord? word with
    | some method => .ok method
    | none => .error (.invalidParameters (.method word))
  | _ => .ok .get

/-- The prefix under the key `apiPrefix`; a value that is no text does not count. -/
def apiPrefixOfFields (fields : List (String × Json)) : Option String :=
  (fields.lookup "apiPrefix").bind Json.toString?

/-- The body; null stands for none. -/
def bodyOfFields (fields : List (String × Json)) : Option Json :=
  match fields.lookup "body" with
  | none | some .null => none
  | some body => some body

def passthroughOfFields (fields : List (String × Json)) : Except ClientError (Keyed Json) :=
  match fields.lookup "passthrough" with
  | none | some .null => .ok []
  | some (.object passthrough) => .ok passthrough
  | some _ => .error (.invalidParameters .passthroughKind)

/-- The parameters that a JSON value describes: those of a query, and `method`, `body`, `apiPrefix`
and `passthrough`. -/
def ofJson : Json → Except ClientError RequestParams
  | .object fields => do
    let query ← (Query.ofJson (.object fields)).mapError .compile
    let method ← methodOfFields fields
    let passthrough ← passthroughOfFields fields
    return { query, method, apiPrefix := apiPrefixOfFields fields, body := bodyOfFields fields,
             passthrough }
  | other => do return { query := ← (Query.ofJson other).mapError .compile }

end RequestParams

/-- One JSON object merged over another, key by key. Where either is no object, the one on top is
taken. -/
def mergeBodies : (base overlay : Option Json) → Option Json
  | some (.object base), some (.object overlay) => some (.object (Keyed.extend base overlay))
  | base, none => base
  | _, some overlay => some overlay

end OData
