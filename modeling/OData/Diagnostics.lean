import OData.Deprecation
import OData.Log

namespace OData

def Deprecation.log (deprecation : Deprecation) : LogRecord where
  level := .warn
  message := deprecation.text
  fields := [("key", .quoted deprecation.key.toList)]

/-- What becomes of reports. A sink that logs every key once knows the keys that it has logged. -/
inductive DiagnosticsSink
  | silent
  | every
  | once (seen : List String)
deriving DecidableEq, Repr

namespace DiagnosticsSink

def fresh : DiagnosticsSink := .once []

/-- Whether a report is logged, and the sink after it. -/
def receive (sink : DiagnosticsSink) (report : Deprecation) : Bool × DiagnosticsSink :=
  match sink with
  | .silent => (false, .silent)
  | .every => (true, .every)
  | .once seen =>
    if seen.contains report.key then (false, .once seen) else (true, .once (report.key :: seen))

/-- The reports that are logged, and the sink after all of them. -/
def deliver (sink : DiagnosticsSink) : List Deprecation → List Deprecation × DiagnosticsSink
  | [] => ([], sink)
  | report :: rest =>
    let (logged, next) := sink.receive report
    let (others, last) := next.deliver rest
    (if logged then report :: others else others, last)

end DiagnosticsSink

end OData
