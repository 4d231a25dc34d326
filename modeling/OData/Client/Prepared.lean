import OData.Client.Basic
import OData.Log

namespace OData

open OData.Http

/-- A compiled query of a client. Only a GET has something that is expected of the response. -/
structure PreparedQuery where
  client : Client
  url : Text
  params : RequestParams
  expectation : Option Expectation

/-- What one call adds to a prepared query. -/
structure PreparedCall where
  aliases : List (String × Primitive) := []
  body : Option Json := none
  passthrough : Option (Keyed Json) := none

def Client.prepare (client : Client) (params : RequestParams) : Session Request PreparedQuery := do
  let url ← client.compile params.query
  return ⟨client, url, params, if params.method = .get then some params.expectation else none⟩

/-- A url with the definitions of parameter aliases at its end. Their names are written as they
are. -/
def withAliases (url : Text) (aliases : List (String × Primitive)) : Text :=
  if aliases.isEmpty then url
  else
    let separator := if '?' ∈ url then '&' else '?'
    let definitions := aliases.map fun (name, value) =>
      '@' :: name.toList ++ '=' :: value.literal
    url ++ separator :: Text.join ['&'] definitions

namespace PreparedQuery

def paramsOf (prepared : PreparedQuery) (call : PreparedCall) : RequestParams :=
  { prepared.params with
    body := mergeBodies prepared.params.body call.body
    passthrough := Keyed.extend prepared.params.passthrough (call.passthrough.getD []) }

def call (prepared : PreparedQuery) (call : PreparedCall) : Session Request Json :=
  prepared.client.dispatch (prepared.paramsOf call) (withAliases prepared.url call.aliases)

def fetch (prepared : PreparedQuery) (call : PreparedCall) : Session Request QueryResult := do
  match prepared.expectation with
  | none => throw (.invalidParameters (.notFetchable prepared.params.method))
  | some expectation =>
    let response ← prepared.call call
    ExceptT.mk (pure (QueryResult.ofResponse expectation response))

end PreparedQuery

def PreparedQuery.debugText (prepared : PreparedQuery) : Text :=
  "PreparedQuery \x7b url: ".toList ++ debugQuoted prepared.url ++ ", method: ".toList ++
    prepared.params.method.name.toList ++ ", .. \x7d".toList

end OData
