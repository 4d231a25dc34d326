import OData.Command.SettingValue
import OData.Log.Filter

namespace OData.Command

structure Settings where
  apiPrefix : String := ""
  logLevel : String := "warn"
deriving DecidableEq, Repr

/-- Where the value of an environment variable belongs: the name of a setting and, behind points, of
what is in it. Names are the same in either case, and blanks around them do not count. -/
def settingPath? (name : String) : Option (List Text) := do
  let key ← Text.dropBeginning? "odata_".toList ((Text.trimmed name.toList).map Char.toLower)
  let path := (Text.trimmed key).splitOn '.'
  if path.any (·.isEmpty) then none else some path

def variableSetting? : String × String → Option (String × SettingValue)
  | (name, raw) => do
    match ← settingPath? name with
    | [] => none
    | [setting] => some (String.ofList setting, .ofVariable raw)
    | setting :: _ => some (String.ofList setting, .other)

def variableLayer (environment : List (String × String)) : SettingLayer :=
  environment.filterMap variableSetting?

/-- The text that the last of all values of a name gives; other values than text are invalid. -/
def setting? (layer : SettingLayer) (name default : String) : Option String :=
  match layer.reverse.lookup name with
  | none => some default
  | some (.text value) => some value
  | some .other => none

def Settings.ofLayer? (layer : SettingLayer) : Option Settings := do
  let defaults : Settings := {}
  return {
    apiPrefix := ← setting? layer "api_prefix" defaults.apiPrefix
    logLevel := ← setting? layer "log_level" defaults.logLevel }

/-- The filter of log records: one of the environment goes before the one of the settings, unless it
is malformed. -/
def Settings.logFilter (settings : Settings) (environment : List (String × String)) : LogFilter :=
  match (environment.lookup "RUST_LOG").bind fun text => LogFilter.ofText? text.toList with
  | some filter => filter
  | none => .ofPieces settings.logLevel.toList

end OData.Command
