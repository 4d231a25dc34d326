import OData.Client.Config
import OData.Client.Request

namespace OData

open OData.Http

/-- A client by its settings. The retry policy may differ from the one in the settings. -/
structure Client where
  config : ClientConfig
  retry : Option RetryPolicy

namespace Client

def ofConfig (config : ClientConfig) : Client := ⟨config, config.retry.map RetrySettings.policy⟩

def withRetry (policy : RetryPolicy) (client : Client) : Client :=
  { client with retry := some policy }

def withoutRetry (client : Client) : Client := { client with retry := none }

def override (client : Client) (changes : ClientOverrides) : Client where
  config := client.config.override changes
  retry := (changes.retry.map RetrySettings.policy).or client.retry

/-- Keys that passthrough options cannot set. -/
def reservedKeys : List String := ["url", "body", "method"]

/-- The options that go to the transport beside the request: those of the client, those of the
client for the method, and those of the request, the later ones over the earlier ones. -/
def passthroughFor (client : Client) (method : Method) (own : Keyed Json) : Keyed Json :=
  let forMethod := (client.config.passthroughByMethod.lookup method.name).getD []
  (Keyed.extend (Keyed.extend client.config.passthrough forMethod) own).filter
    fun (key, _) => !reservedKeys.contains key

def requestFor (client : Client) (params : RequestParams) (compiled : Text) : Request where
  method := params.method
  url := String.ofList ((params.apiPrefix.getD client.config.apiPrefix).toList ++ compiled)
  body := params.body
  passthrough := client.passthroughFor params.method params.passthrough

def compile (_client : Client) (query : Query) : Session Request Text :=
  ExceptT.mk (Exchange.ofCompilation query.compile)

def dispatch (client : Client) (params : RequestParams) (compiled : Text) :
    Session Request Json :=
  let attempt := Exchange.ask (client.requestFor params compiled)
  match params.retry.resolve client.retry with
  | some policy => ExceptT.mk (policy.run attempt)
  | none => ExceptT.mk attempt

/-- Compiles and sends, and ends with the response as it is. -/
def request (client : Client) (params : RequestParams) : Session Request Json := do
  let compiled ← client.compile params.query
  client.dispatch params compiled

def requestWith (client : Client) (method : Method) (params : RequestParams) :
    Session Request Json :=
  client.request { params with method := method }

def get (client : Client) (params : RequestParams) : Session Request QueryResult := do
  let response ← client.requestWith .get params
  ExceptT.mk (pure (QueryResult.ofResponse params.expectation response))

def put (client : Client) : RequestParams → Session Request Json := client.requestWith .put

def patch (client : Client) : RequestParams → Session Request Json := client.requestWith .patch

def post (client : Client) : RequestParams → Session Request Json := client.requestWith .post

def delete (client : Client) : RequestParams → Session Request Json := client.requestWith .delete

end Client

end OData
