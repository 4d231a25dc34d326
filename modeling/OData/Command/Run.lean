import OData.Command.Arguments
import OData.Command.SettingFile
import OData.Command.Settings
import OData.Diagnostics
import OData.Json.Reader
import OData.Query.Compile

namespace OData.Command

/-- What the command finds around it. A path has the text at its end or the reason why there is none
to read. -/
structure Surroundings where
  input : Except String String
  read : String → Except String String
  /-- Whether a path leads to a file. -/
  isFile : String → Bool
  environment : List (String × String)

inductive Failure
  | settingsMissing (path : String)
  | settingsInvalid
  | notReadable (path reason : String)
  | notJson
  | refused (error : Error)

def Failure.text : Failure → Text
  | .settingsMissing path => "Error: config file not found: ".toList ++ path.toList
  | .settingsInvalid => "Error: invalid configuration".toList
  | .notReadable path reason =>
    "error: cannot read ".toList ++ path.toList ++ ": ".toList ++ reason.toList
  | .notJson => "error: input is not valid JSON".toList
  | .refused error => "error: ".toList ++ error.text

structure Run where
  logs : List LogRecord
  result : Except Failure Text

/-- The settings in force: defaults, overridden by a configuration file, overridden by environment
variables. -/
def loadSettings (invocation : Invocation) (world : Surroundings) : Except Failure Settings := do
  let file ← match invocation.config with
    | none => pure []
    | some path =>
      if !world.isFile path then throw (.settingsMissing path)
      match world.read path with
      | .error _ => throw .settingsInvalid
      | .ok document =>
        match SettingFile.layer? document.toList with
        | some layer => pure layer
        | none => throw .settingsInvalid
  match Settings.ofLayer? (file ++ variableLayer world.environment) with
  | some settings => pure settings
  | none => throw .settingsInvalid

/-- Whether a path stands for the input of the command: a hyphen, whatever slashes and points are
behind it. -/
def isInputSign (path : String) : Bool :=
  match path.toList.splitOn '/' with
  | first :: rest => first = ['-'] && rest.all fun step => step.isEmpty || step = ['.']
  | [] => false

def Invocation.inputFile? (invocation : Invocation) : Option String :=
  invocation.input.filter (!isInputSign ·)

def readDescription (invocation : Invocation) (world : Surroundings) :
    LogRecord × Except Failure Json :=
  let parsed (text : String) : Except Failure Json :=
    match Json.parse? text.toList with
    | some json => .ok json
    | none => .error .notJson
  match invocation.inputFile? with
  | none =>
    (⟨.debug, "Reading query description from stdin".toList, []⟩,
      match world.input with
      | .ok text => parsed text
      | .error reason => .error (.notReadable "stdin" reason))
  | some path =>
    (⟨.debug, "Reading query description".toList, [("path", .plain path.toList)]⟩,
      match world.read path with
      | .ok text => parsed text
      | .error reason => .error (.notReadable path reason))

def compileDescription (invocation : Invocation) (settings : Settings) (json : Json) :
    Compilation Text :=
  match invocation.subcommand with
  | .compile => do
    let query ← .lift (Query.ofJson json)
    let url ← query.compile
    return (invocation.apiPrefix.getD settings.apiPrefix).toList ++ url
  | .auth => do
    let permission ← .lift (Permission.ofJson json)
    .lift permission.compile

/-- Runs the command. Nothing is logged before the settings are known. Each record has a target, the
part of the program that it is from. -/
def Invocation.run (invocation : Invocation) (world : Surroundings) : Run :=
  match loadSettings invocation world with
  | .error failure => ⟨[], .error failure⟩
  | .ok settings =>
    let loaded : LogRecord := ⟨.debug, "Configuration loaded".toList,
      [("api_prefix", .plain settings.apiPrefix.toList),
        ("log_level", .plain settings.logLevel.toList)]⟩
    let (reading, description) := readDescription invocation world
    let (reports, result) : List Deprecation × Except Failure Text := match description with
      | .error failure => ([], .error failure)
      | .ok json =>
        let compilation := compileDescription invocation settings json
        (compilation.reports, compilation.outcome.mapError .refused)
    let reported := (DiagnosticsSink.every.deliver reports).1.map Deprecation.log
    let records := ("odata", loaded) :: ("odata::compile", reading) ::
      reported.map (("odata_query::diagnostics", ·))
    let filter := settings.logFilter world.environment
    let logged := records.filter fun (target, record) => filter.admits target.toList record
    ⟨logged.map (·.2), result⟩

end OData.Command
