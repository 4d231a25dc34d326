import OData.Filter.Basic
import OData.OrderBy

namespace OData

inductive Select
  | fields (text : String)
  | list (names : List String)
  | set (names : List String)
deriving DecidableEq, Repr

/-- The value of an option that the query language does not know. -/
inductive CustomValue
  | text (value : String)
  | bool (value : Bool)
  | number (value : JsonNumber)
  | list (items : List String)
deriving DecidableEq, Repr

mutual

inductive Expand
  | property (path : String)
  | list (items : List Expand)
  | object (entries : List (String × List QueryOption))

/-- A query option. The name of a parameter alias has no `@`. -/
inductive QueryOption
  | filter (filter : Filter)
  | expand (expand : Expand)
  | orderBy (ordering : OrderBy)
  | top (count : Nat)
  | skip (count : Nat)
  | select (select : Select)
  | format (format : String)
  | count (inner : List QueryOption)
  | parameter (name : String) (value : Primitive)
  | custom (name : String) (value : CustomValue)

end

/-- The options of a query, in the order of the output. Nothing keeps a kind of option from standing
in it twice. -/
abbrev Options := List QueryOption

namespace QueryOption

def key : QueryOption → String
  | .filter _ => "$filter"
  | .expand _ => "$expand"
  | .orderBy _ => "$orderby"
  | .top _ => "$top"
  | .skip _ => "$skip"
  | .select _ => "$select"
  | .format _ => "$format"
  | .count _ => "$count"
  | .parameter name _ => String.ofList ('@' :: name.toList)
  | .custom name _ => name

def filter? : QueryOption → Option Filter
  | .filter condition => some condition
  | _ => none

def count? : QueryOption → Option Options
  | .count inner => some inner
  | _ => none

end QueryOption

namespace Options

def keys (options : Options) : List String := options.map QueryOption.key

def filter? (options : Options) : Option Filter := options.findSome? QueryOption.filter?

def count? (options : Options) : Option Options := options.findSome? QueryOption.count?

def push (option : QueryOption) (options : Options) : Options := options ++ [option]

/-- A count of what the options select. -/
def counted (options : Options) : Options := [.count options]

/-- The options with the first filter replaced where it stands, or with the filter at the end where
there is none. -/
def setFilter (filter : Filter) : Options → Options
  | [] => [.filter filter]
  | .filter _ :: rest => .filter filter :: rest
  | option :: rest => option :: setFilter filter rest

end Options

/-- Names without repetitions, in the order of their characters. -/
def Select.ofSet (names : List String) : Select :=
  .set (Keyed.keys (names.foldl (fun entries name => Keyed.insertSorted name () entries) []))

end OData
