namespace OData.Command

inductive Subcommand
  | compile
  | auth
deriving DecidableEq, Repr

inductive Switch
  | config
  | input
  | apiPrefix
deriving DecidableEq, Repr

namespace Switch

def long : Switch → String
  | .config => "config"
  | .input => "input"
  | .apiPrefix => "api-prefix"

def short : Switch → Char
  | .config => 'c'
  | .input => 'i'
  | .apiPrefix => 'p'

/-- Names of files cannot be empty. -/
def acceptsEmpty : Switch → Bool
  | .apiPrefix => true
  | _ => false

end Switch

def Subcommand.name : Subcommand → String
  | .compile => "compile"
  | .auth => "auth"

/-- Why the arguments lead to no invocation. The version may be asked of a subcommand. -/
inductive Halt
  | misuse
  | help
  | version (subcommand : Option Subcommand)
deriving DecidableEq, Repr

def versionText : Option Subcommand → String
  | none => "odata 0.1.0"
  | some subcommand => "odata-" ++ subcommand.name ++ " 0.1.0"

/-- The same reason, given behind a subcommand. -/
def Halt.within (subcommand : Subcommand) : Halt → Halt
  | .version _ => .version (some subcommand)
  | halt => halt

abbrev Assignments := List (Switch × String)

structure Invocation where
  subcommand : Subcommand
  config : Option String
  input : Option String
  apiPrefix : Option String
deriving DecidableEq, Repr

inductive Item
  | assignment (switch : Switch) (value : String)
  | word (word : String)
  | endOfOptions
deriving DecidableEq, Repr

/-- Whether an argument looks like an option; a single hyphen does not. -/
def looksLikeOption (argument : String) : Bool :=
  argument.toList.head? = some '-' && argument ≠ "-"

/-- The switch with its value, which is attached to it or is the next argument. -/
def takeValue (switch : Switch) (attached : Option String) (rest : List String) :
    Except Halt (Item × List String) :=
  let checked (value : String) (rest : List String) : Except Halt (Item × List String) :=
    if value.isEmpty ∧ switch.acceptsEmpty = false then .error .misuse
    else .ok (.assignment switch value, rest)
  match attached, rest with
  | some value, rest => checked value rest
  | none, [] => .error .misuse
  | none, value :: rest => if looksLikeOption value then .error .misuse else checked value rest

/-- An option that is written with two hyphens, given without them. -/
def takeLong (switches : List Switch) (name : List Char) (rest : List String) :
    Except Halt (Item × List String) :=
  let key := String.ofList (name.takeWhile (· ≠ '='))
  let attached := match name.dropWhile (· ≠ '=') with
    | _ :: value => some (String.ofList value)
    | [] => none
  match switches.find? (·.long = key), attached with
  | some switch, attached => takeValue switch attached rest
  | none, none =>
    if key = "help" then .error .help
    else if key = "version" then .error (.version none)
    else .error .misuse
  | none, some _ => .error .misuse

/-- An option that is written with one hyphen, given as its letter and what is attached to it. -/
def takeShort (switches : List Switch) (letter : Char) (attached : List Char)
    (rest : List String) : Except Halt (Item × List String) :=
  match switches.find? (·.short = letter) with
  | some switch =>
    let value := match attached with
      | [] => none
      | '=' :: value => some (String.ofList value)
      | value => some (String.ofList value)
    takeValue switch value rest
  | none =>
    if letter = 'h' then .error .help
    else if letter = 'V' then .error (.version none)
    else .error .misuse

def takeItem (switches : List Switch) (argument : String) (rest : List String) :
    Except Halt (Item × List String) :=
  match argument.toList with
  | ['-', '-'] => .ok (.endOfOptions, rest)
  | '-' :: '-' :: name => takeLong switches name rest
  | '-' :: letter :: attached => takeShort switches letter attached rest
  | _ => .ok (.word argument, rest)

/-- Adds an assignment, unless the switch has a value already. -/
def assign (given : Assignments) (switch : Switch) (value : String) : Except Halt Assignments :=
  if (given.lookup switch).isSome then .error .misuse else .ok ((switch, value) :: given)

/-- The options behind a subcommand. Nothing else may stand there. `fuel` bounds the number of
arguments. -/
def readOptions (switches : List Switch) (given : Assignments) :
    (fuel : Nat) → List String → Except Halt Assignments
  | _, [] => .ok given
  | 0, _ :: _ => .error .misuse
  | fuel + 1, argument :: rest => do
    match ← takeItem switches argument rest with
    | (.assignment switch value, rest) =>
      readOptions switches (← assign given switch value) fuel rest
    | (.word _, _) => .error .misuse
    | (.endOfOptions, rest) => if rest.isEmpty then return given else .error .misuse

def Subcommand.switches : Subcommand → List Switch
  | .compile => [.config, .input, .apiPrefix]
  | .auth => [.config, .input]

def Subcommand.ofName? (name : String) : Option Subcommand :=
  [.compile, .auth].find? fun (subcommand : Subcommand) => subcommand.name = name

/-- The subcommand with its options. An option given on both sides of it has the value behind it. -/
def readSubcommand (given : Assignments) (word : String) (rest : List String) :
    Except Halt Invocation := do
  match Subcommand.ofName? word with
  | some subcommand =>
    let own ← (readOptions subcommand.switches [] rest.length rest).mapError (.within subcommand)
    return {
      subcommand
      config := (own.lookup .config).or (given.lookup .config)
      input := own.lookup .input
      apiPrefix := own.lookup .apiPrefix }
  | none =>
    match word, rest with
    | "help", [] => .error .help
    | "help", [name] =>
      .error (if name = "help" ∨ (Subcommand.ofName? name).isSome then .help else .misuse)
    | _, _ => .error .misuse

def readInvocation (given : Assignments) : (fuel : Nat) → List String → Except Halt Invocation
  | _, [] => .error .misuse
  | 0, _ :: _ => .error .misuse
  | fuel + 1, argument :: rest => do
    match ← takeItem [.config] argument rest with
    | (.assignment switch value, rest) =>
      readInvocation (← assign given switch value) fuel rest
    | (.word word, rest) => readSubcommand given word rest
    | (.endOfOptions, _) => .error .misuse

/-- The invocation that the arguments ask for: options for all subcommands, a subcommand, and
options for it. An option comes at most once on each side of the subcommand. -/
def Invocation.ofArguments (arguments : List String) : Except Halt Invocation :=
  readInvocation [] arguments.length arguments

end OData.Command
