import OData.Command.Directory

open OData OData.Command

namespace OData.Main

def usage : String := "Usage: odata [-c FILE] compile [-i FILE] [-p PREFIX]\n" ++
  "       odata [-c FILE] auth [-i FILE]\n\n" ++
  "  -c, --config FILE        YAML configuration file\n" ++
  "  -i, --input FILE         JSON file with the description; - or nothing reads stdin\n" ++
  "  -p, --api-prefix PREFIX  overrides the configured api prefix"

def reason : IO.Error → String
  | .noFileOrDirectory .. => Refusal.missing.text
  | .permissionDenied .. => "Permission denied (os error 13)"
  | .inappropriateType .. => Refusal.isDirectory.text
  | .userError _ => "stream did not contain valid UTF-8"
  | error => toString error

def readText (path : String) : IO (Except String String) := do
  match ← (IO.FS.readFile path).toBaseIO with
  | .ok text => return .ok text
  | .error error => return .error (reason error)

/-- All lines that a stream still has. -/
partial def readLines (stream : IO.FS.Stream) (before : String) : IO String := do
  let line ← stream.getLine
  if line.isEmpty then return before else readLines stream (before ++ line)

def readVariables : IO (List (String × String)) := do
  match ← readText "/proc/self/environ" with
  | .error _ => return []
  | .ok text => return (text.toList.splitOn '\x00').filterMap fun entry =>
      match entry.dropWhile (· ≠ '=') with
      | _ :: value => some (String.ofList (entry.takeWhile (· ≠ '=')), String.ofList value)
      | [] => none

def elsewhere : List String := [Refusal.missing.text, Refusal.isDirectory.text]

/-- What an invocation needs to know about its surroundings. -/
def look (invocation : Invocation) : IO Surroundings := do
  let files ← (invocation.config.toList ++ invocation.inputFile?.toList).mapM fun path =>
    return (path, ← readText path)
  let input ← if invocation.inputFile?.isSome then pure (.ok "") else
    match ← (readLines (← IO.getStdin) "").toBaseIO with
    | .ok text => pure (.ok text)
    | .error error => pure (.error (reason error))
  let read (path : String) : Except String String := (files.lookup path).getD (.error "")
  return {
    input
    read
    isFile := fun path => match read path with
      | .ok _ => true
      | .error reason => !elsewhere.contains reason
    environment := ← readVariables }

def report (run : Run) : IO UInt32 := do
  for record in run.logs do
    IO.eprintln (String.ofList record.line)
  match run.result with
  | .ok output =>
    IO.println (String.ofList output)
    return 0
  | .error failure =>
    IO.eprintln (String.ofList failure.text)
    return 1

end OData.Main

def main (arguments : List String) : IO UInt32 := do
  match Invocation.ofArguments arguments with
  | .error .misuse =>
    IO.eprintln Main.usage
    return 2
  | .error .help =>
    IO.println Main.usage
    return 0
  | .error (.version subcommand) =>
    IO.println (versionText subcommand)
    return 0
  | .ok invocation => Main.report (invocation.run (← Main.look invocation))
