import OData.Error
import OData.Http.Method
import OData.Http.RetryAfter
import OData.Http.Status

namespace OData

open OData.Http OData.Time

/-- Why parameters are refused before anything is sent. -/
inductive ParameterFault
  | method (word : String)
  | passthroughKind
  | keyKind
  | keyEmpty
  | bodyMissing
  | bodyKind
  | notFetchable (method : Method)
  | notSubscribable (method : Method)
  | noRuntime
  | other (text : String)
deriving DecidableEq, Repr

inductive ResponseFault
  | notAnObject (got : TypeName)
  | payloadMissing
  | notACount (got : Json)
  | other (text : String)

/-- Why a request fails. -/
inductive ClientError
  | compile (error : Error)
  | httpStatus (status : Nat) (body : String) (retryAfter : Option Duration)
  | transport (reason : String)
  | invalidResponse (fault : ResponseFault)
  | multipleResults
  | invalidParameters (fault : ParameterFault)

def ParameterFault.text : ParameterFault → Text
  | .method word => "Invalid method '".toList ++ word.toList ++ ['\'']
  | .passthroughKind => "The passthrough property must be an object".toList
  | .keyKind => "The id property must be an object".toList
  | .keyEmpty => "The id property must be an object with the natural key of the model".toList
  | .bodyMissing => "The body property is missing".toList
  | .bodyKind => "The body property must be an object".toList
  | .notFetchable got => "Only GET queries can be fetched, got: ".toList ++ got.name.toList
  | .notSubscribable got =>
    "Only GET requests can be subscribed to, got: ".toList ++ got.name.toList
  | .noRuntime => "Polling requires a running tokio runtime".toList
  | .other text => text.toList

def ResponseFault.text : ResponseFault → Text
  | .notAnObject got => "Response was not a JSON object: '".toList ++ got.text ++ ['\'']
  | .payloadMissing => "Invalid response received, the 'd' property is missing.".toList
  | .notACount got => "Expected a count, got: ".toList ++ got.text
  | .other text => text.toList

namespace ClientError

def text : ClientError → Text
  | .compile error => error.text
  | .httpStatus status body _ =>
    "HTTP ".toList ++ statusText status ++ ": ".toList ++ body.toList
  | .transport reason => "Transport error: ".toList ++ reason.toList
  | .invalidResponse fault => fault.text
  | .multipleResults => "Returned multiple results when only one was expected.".toList
  | .invalidParameters fault => fault.text

def ofResponse (now : SystemTime) (status : Nat) (headers : Headers) (body : String) :
    ClientError :=
  .httpStatus status body (retryAfterOf? now headers)

def status? : ClientError → Option Nat
  | .httpStatus status _ _ => some status
  | _ => none

/-- The delay that the server asks for. -/
def retryAfter? : ClientError → Option Duration
  | .httpStatus _ _ delay => delay
  | _ => none

/-- A conflict whose body mentions a unique constraint. -/
def isUniqueViolation : ClientError → Bool
  | .httpStatus status body _ =>
    status == 409 && Text.contains "unique".toList (body.toList.map Char.toLower)
  | _ => false

/-- Whether a further attempt may help: the transport failed, the server failed, or it asked for
fewer requests. -/
def isTransient : ClientError → Bool
  | .compile _ | .invalidParameters _ | .invalidResponse _ | .multipleResults => false
  | .httpStatus status _ _ => status == 429 || isServerError status
  | .transport _ => true

end ClientError

end OData
