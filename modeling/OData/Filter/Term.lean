import OData.Filter.Vocabulary
import OData.Uri.Path

namespace OData

/-- A compiled piece of a filter. An atom never needs parentheses; a chain of several tokens gets
them where it becomes part of something larger. -/
inductive Term
  | atom (text : Text)
  | chain (text : Text)
deriving DecidableEq, Repr

namespace Term

def bare : Term → Text
  | .atom text => text
  | .chain text => text

def grouped : Term → Text
  | .atom text => text
  | .chain text => '(' :: text ++ [')']

/-- The terms with a connective between neighbours. A single term stays as it is, so that a list of
one never gains parentheses. -/
def join (connective : Connective) : List Term → Term
  | [term] => term
  | terms => .chain (Text.join connective.text (terms.map grouped))

/-- The term bound to a navigation path. Without a path it stays as it is. -/
def bind (path : List String) (connective : Connective) (term : Term) : Term :=
  match path with
  | [] => term
  | _ :: _ => .chain (Uri.encodePath path ++ connective.text ++ term.grouped)

def call (name : Text) (arguments : List Text) : Term :=
  .atom (name ++ '(' :: Text.join [','] arguments ++ [')'])

end Term

end OData
