import OData.Log
import OData.Text.Integer

namespace OData

/-- A rule of a filter. It concerns the records of the targets that start with `target` and have
the field `field`, as far as these are given. -/
structure LogDirective where
  target : Option Text := none
  field : Option Text := none
  /-- The least serious level that is logged, if any is. -/
  limit : Option LogLevel
deriving DecidableEq, Repr

/-- The limit that a word stands for: the name or the number of a level, or none at all. -/
def LogLevel.limit? (word : Text) : Option (Option LogLevel) :=
  let number := match word with
    | '+' :: digits => Text.toNat? digits
    | digits => Text.toNat? digits
  match number with
  | some 0 => some none
  | some (n + 1) => all[n]?.map some
  | none =>
    let name := word.map Char.toUpper
    if word.isEmpty then some (some .error)
    else if name = "OFF".toList then some none
    else (all.find? (·.name.toList = name)).map some

namespace LogDirective

def behindTarget? : Text → Option (Option LogLevel)
  | [] | ['='] => some (some .trace)
  | '=' :: word => LogLevel.limit? word
  | _ => none

/-- The directive for a target and for what stands behind its opening bracket: the name of a span, a
field in braces, or both. Nothing happens inside a span here, and fields have no fixed values, so
that directives for these concern nothing. -/
def ofScope? (target : Option Text) (scope : Text) : Option (Option LogDirective) := do
  let isInside (c : Char) : Bool := c ≠ ']' && c ≠ '\x7b'
  let span := scope.takeWhile isInside
  match scope.dropWhile isInside with
  | ']' :: tail => do
    let limit ← behindTarget? tail
    return if span.isEmpty then some { target, limit } else none
  | '\x7b' :: rest => do
    let field := rest.takeWhile (· ≠ '}')
    match rest.dropWhile (· ≠ '}') with
    | '}' :: ']' :: tail => do
      let limit ← behindTarget? tail
      if field.isEmpty then none
      return if span.isEmpty ∧ '=' ∉ field then some { target, field, limit } else none
    | _ => none
  | _ => none

/-- The directive that a text without commas stands for, unless that concerns nothing. A word that
is no level is a target. -/
def ofText? (text : Text) : Option (Option LogDirective) :=
  let word := text.takeWhile fun c => c ≠ '=' && c ≠ '['
  match text, text.dropWhile fun c => c ≠ '=' && c ≠ '[' with
  | '[' :: scope, _ => ofScope? none scope
  | c :: _, tail =>
    if !c.isAlphanum && c ≠ '-' && c ≠ ':' && c ≠ '_' then none
    else match tail with
      | [] =>
        match LogLevel.limit? word with
        | some limit => some (some { limit })
        | none => some (some { target := some word, limit := some .trace })
      | '[' :: scope => ofScope? (some word) scope
      | tail => (behindTarget? tail).map fun limit => some { target := some word, limit }
  | [], _ => none

/-- Whether the directive says something about a record. -/
def concerns (directive : LogDirective) (target : Text) (record : LogRecord) : Bool :=
  (directive.target.map (·.isPrefixOf target)).getD true &&
    (directive.field.map fun field =>
      ("message" :: record.fields.map (·.1)).any (·.toList = field)).getD true

/-- Whether a directive is at least as specific as another one: by the length of its target, then
by its field. -/
def outranks (directive other : LogDirective) : Bool :=
  let length (d : LogDirective) : Nat := (d.target.map (·.length + 1)).getD 0
  length other < length directive ||
    (length other = length directive && !decide (directive.field.getD [] < other.field.getD []))

end LogDirective

/-- A filter of records: directives with commas between them, such as `warn,odata=debug`. For each
record the most specific of the directives that concern it decides. -/
abbrev LogFilter := List LogDirective

namespace LogFilter

def pieces (text : Text) : List Text := (text.splitOn ',').filter (!·.isEmpty)

/-- The filter that a text stands for, if all its pieces are directives. -/
def ofText? (text : Text) : Option LogFilter := do
  return (← (pieces text).mapM LogDirective.ofText?).filterMap id

/-- The filter that the directives in a text stand for; pieces that are none are left out. -/
def ofPieces (text : Text) : LogFilter :=
  ((pieces text).filterMap LogDirective.ofText?).filterMap id

/-- The least serious level of the records that are logged of those like `record`. Of directives
that are equally specific the last one decides, and without any directive errors are logged. -/
def limit (filter : LogFilter) (target : Text) (record : LogRecord) : Option LogLevel :=
  if filter.isEmpty then some .error
  else
    let chosen := (filter.filter (·.concerns target record)).foldl (fun best directive =>
      if (best.map directive.outranks).getD true then some directive else best) none
    chosen.bind (·.limit)

def admits (filter : LogFilter) (target : Text) (record : LogRecord) : Bool :=
  match filter.limit target record with
  | some limit => record.level.rank ≤ limit.rank
  | none => false

end LogFilter

end OData
