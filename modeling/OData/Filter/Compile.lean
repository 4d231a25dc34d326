import OData.Error
import OData.Filter.Template
import OData.Filter.Term
import OData.Filter.ToJson

namespace OData

/-- Where a filter stands: the navigation path that it is bound to, empty where there is none, and
whether the body of a lambda expression surrounds it. Only there may a property stand inside another
one. -/
structure FilterPlace where
  inLambda : Bool
  path : List String
deriving DecidableEq, Repr

namespace FilterPlace

def top : FilterPlace := ⟨false, []⟩

def detached (place : FilterPlace) : FilterPlace := { place with path := [] }

def step? (place : FilterPlace) (name : String) : Except Error FilterPlace :=
  if place.path ≠ [] ∧ place.inLambda = false then .error (.removed .nestedNavigation)
  else .ok { place with path := place.path ++ [name] }

end FilterPlace

/-- Refuses a list that is too short. -/
def requireItems (least : Nat) (items : List Filter) : Except Error Unit :=
  if items.length < least then .error (.arity (.filterList least (Filter.listToJson items)))
  else .ok ()

namespace DurationLiteral

/-- A part with its unit, nothing for a part that is not set. -/
def partText (part : Double) (unit : Char) : Text :=
  if part.isNonzero then NumberFormat.literal.text part ++ [unit] else []

/-- The literal; at least one part has to be set. -/
def literal (d : DurationLiteral) : Except Error Text :=
  let days := partText d.days 'D'
  let time := partText d.hours 'H' ++ partText d.minutes 'M' ++ partText d.seconds 'S'
  if days = [] ∧ time = [] then .error (.shape .durationParts)
  else .ok ("duration'".toList ++ (if d.negative then ['-'] else []) ++ 'P' :: days ++
    (if time = [] then [] else 'T' :: time) ++ ['\''])

end DurationLiteral

/-- The operands of a comparison that stands at `path`: one operand is compared with the path, more
are compared with each other. -/
def compareEntries (op : BinaryOperator) (path : List String) : List Term → Except Error Term
  | [] => .error (.arity (.comparisonObject op))
  | [term] => .ok (term.bind path (.operator op))
  | terms => .ok ((Term.join (.operator op) terms).bind path .eq)

/-- The value that a template's placeholder is replaced by: that of the last parameter of its name,
in parentheses. -/
def parameterBinding (parameters : List (String × Term)) (name : Text) : Option Text :=
  (parameters.reverse.lookup (String.ofList name)).map fun term => '(' :: term.bare ++ [')']

def FilterOperation.countPath (path : List String) : Text :=
  if path = [] then "$count".toList else Uri.encodePath (path ++ ["$count"])

mutual

/-- A filter at its place. `joint` is what the operation around a list or an object joins it with,
if it does. -/
def Filter.compileAt (place : FilterPlace) (joint : Option Connective) :
    Filter → Except Error Term
  | .value scalar => .ok ((Term.atom scalar.literal).bind place.path .eq)
  | .list items => do
    requireItems 2 items
    let terms ← Filter.compileList place.detached items
    return (Term.join (joint.getD .or) terms).bind place.path .eq
  | .object entries => do
    let terms ← FilterEntry.compileList place entries
    return Term.join (joint.getD .and) terms

def Filter.compileList (place : FilterPlace) : List Filter → Except Error (List Term)
  | [] => .ok []
  | filter :: rest => do
    let term ← filter.compileAt place none
    let terms ← Filter.compileList place rest
    return term :: terms

def FilterEntry.compileList (place : FilterPlace) : List FilterEntry → Except Error (List Term)
  | [] => .ok []
  | entry :: rest => do
    let term ← entry.compileAt place
    let terms ← FilterEntry.compileList place rest
    return term :: terms

def FilterEntry.compileAt (place : FilterPlace) : FilterEntry → Except Error Term
  | .property name filter => do
    let inner ← place.step? name
    filter.compileAt inner none
  | .parameter name => .ok ((Term.atom (Uri.encodeAlias name)).bind place.path .eq)
  | .operation operation => operation.compileAt place

def FilterOperation.compileAt (place : FilterPlace) : FilterOperation → Except Error Term
  | .compare op (.value scalar) =>
    .ok ((Term.atom scalar.literal).bind place.path (.operator op))
  | .compare op (.list items) => do
    requireItems 2 items
    let terms ← Filter.compileList place.detached items
    return (Term.join (.operator op) terms).bind place.path .eq
  | .compare op (.object entries) => do
    let terms ← FilterEntry.compileList place.detached entries
    compareEntries op place.path terms
  | .apply function (.value scalar) =>
    let subject := if place.path = [] then [] else [Uri.encodePath place.path]
    let argument := if scalar.isNull then [] else [scalar.literal]
    .ok (Term.call function.name.toList (subject ++ argument))
  | .apply function (.list items) => do
    requireItems 2 items
    let terms ← Filter.compileList place.detached items
    return (Term.call function.name.toList (terms.map Term.bare)).bind place.path .eq
  | .apply function (.object entries) => do
    let terms ← FilterEntry.compileList place.detached entries
    return (Term.call function.name.toList (terms.map Term.bare)).bind place.path .eq
  | .duration literal => do return (Term.atom (← literal.literal)).bind place.path .eq
  | .raw text => .ok ((Term.atom ('(' :: text.toList ++ [')'])).bind place.path .eq)
  | .template text parameters => do
    let compiled ← Filter.compileParameters place.detached parameters
    let substituted := substitute (parameterBinding compiled) text.toList
    return (Term.atom ('(' :: substituted ++ [')'])).bind place.path .eq
  | .resource path => .ok ((Term.atom (Uri.encodeResource path)).bind place.path .eq)
  | .count none => .ok (.atom (FilterOperation.countPath place.path))
  | .count (some filter) => do
    let term ← filter.compileAt place.detached none
    return .atom (FilterOperation.countPath place.path ++ "($filter=".toList ++ term.bare ++ [')'])
  | .and operand => do
    return (← operand.compileAt place.detached (some .and)).bind place.path .eq
  | .or operand => do
    return (← operand.compileAt place.detached (some .or)).bind place.path .eq
  | .within (.value scalar) => .ok ((Term.atom scalar.literal).bind place.path .eq)
  | .within (.list items) => do
    requireItems 1 items
    if items.all Filter.isValue then
      let terms ← Filter.compileList place.detached items
      let values := Text.join ", ".toList (terms.map Term.grouped)
      return (Term.atom ('(' :: values ++ [')'])).bind place.path .within
    else
      return Term.join .or (← Filter.compileList place items)
  | .within (.object entries) => do
    let terms ← FilterEntry.compileList place entries
    if terms.isEmpty then .error (.arity .membershipObject)
    else return Term.join .or terms
  | .not operand => do
    let term ← operand.compileAt place.detached none
    return (Term.atom ("not(".toList ++ term.bare ++ [')'])).bind place.path .eq
  | .lambda quantifier binder body => do
    let term ← body.compileAt ⟨true, []⟩ none
    let text := quantifier.name.toList ++ '(' :: binder.toList ++ ':' :: term.bare ++ [')']
    return (Term.atom text).bind place.path .step
  | .method scope name arguments => do
    let terms ← Filter.compileList place.detached arguments
    let callee := Uri.encodeComponent scope.toList ++ '.' :: Uri.encodeComponent name.toList
    return (Term.call callee (terms.map Term.bare)).bind place.path .step
  | .canAccess => .ok ((Term.atom "canAccess()".toList).bind place.path .step)

def Filter.compileParameters (place : FilterPlace) :
    List (String × Filter) → Except Error (List (String × Term))
  | [] => .ok []
  | (name, filter) :: rest => do
    let term ← filter.compileAt place none
    let terms ← Filter.compileParameters place rest
    return (name, term) :: terms

end

def Filter.compile (filter : Filter) : Except Error Text :=
  Term.bare <$> filter.compileAt .top none

end OData
