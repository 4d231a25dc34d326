import Mathlib
import OData.Proofs.Literal

namespace OData

/-- The literal of a filter that is a value. -/
def Filter.literal? : Filter → Option Text
  | .value scalar => some scalar.literal
  | _ => none

namespace Expression

/-- A literal under a path. -/
def literal (path : List String) (connective : Connective) (text : Text) : Expression :=
  bound path connective (.leaf text)

/-- One operand is compared with the path, more are compared with each other. -/
def compared (op : BinaryOperator) (path : List String) : List Expression → Expression
  | [operand] => bound path (.operator op) operand
  | operands => bound path .eq (joined (.operator op) operands)

/-- A function of the path, unless there is none, and of a value, unless it is null. -/
def applied (function : FilterFunction) (path : List String) (scalar : Primitive) : Expression :=
  .call function.name.toList
    ((if path = [] then [] else [.leaf (Uri.encodePath path)]) ++
      (if scalar.isNull then [] else [.leaf scalar.literal]))

end Expression

open Expression (bound joined)

mutual

/-- The expression of a filter that stands under a path. Values are compared with the path; lists
are alternatives and objects conditions, unless the operation around them joins them otherwise.
Nothing is refused. -/
def Filter.expressionAt (path : List String) (joint : Option Connective) : Filter → Expression
  | .value scalar => .literal path .eq scalar.literal
  | .list items => bound path .eq (joined (joint.getD .or) (Filter.expressionList [] items))
  | .object entries => joined (joint.getD .and) (FilterEntry.expressionList path entries)

def Filter.expressionList (path : List String) : List Filter → List Expression
  | [] => []
  | filter :: rest => filter.expressionAt path none :: Filter.expressionList path rest

def FilterEntry.expressionList (path : List String) : List FilterEntry → List Expression
  | [] => []
  | entry :: rest => entry.expressionAt path :: FilterEntry.expressionList path rest

def FilterEntry.expressionAt (path : List String) : FilterEntry → Expression
  | .property name filter => filter.expressionAt (path ++ [name]) none
  | .parameter name => .literal path .eq (Uri.encodeAlias name)
  | .operation operation => operation.expressionAt path

def FilterOperation.expressionAt (path : List String) : FilterOperation → Expression
  | .compare op (.value scalar) => .literal path (.operator op) scalar.literal
  | .compare op (.list items) =>
    bound path .eq (joined (.operator op) (Filter.expressionList [] items))
  | .compare op (.object entries) => .compared op path (FilterEntry.expressionList [] entries)
  | .apply function (.value scalar) => .applied function path scalar
  | .apply function (.list items) =>
    bound path .eq (.call function.name.toList (Filter.expressionList [] items))
  | .apply function (.object entries) =>
    bound path .eq (.call function.name.toList (FilterEntry.expressionList [] entries))
  | .duration literal => .literal path .eq literal.text
  | .raw text => .literal path .eq ('(' :: text.toList ++ [')'])
  | .template text parameters =>
    let binding := parameterBinding
      ((Filter.parameterExpressions parameters).map fun (name, value) => (name, value.term))
    .literal path .eq ('(' :: substitute binding text.toList ++ [')'])
  | .resource resource => .literal path .eq (Uri.encodeResource resource)
  | .count none => .leaf (FilterOperation.countPath path)
  | .count (some filter) =>
    .count (FilterOperation.countPath path) (filter.expressionAt [] none)
  | .and operand => bound path .eq (operand.expressionAt [] (some .and))
  | .or operand => bound path .eq (operand.expressionAt [] (some .or))
  | .within (.value scalar) => .literal path .eq scalar.literal
  | .within (.list items) =>
    if items.all Filter.isValue then bound path .within (.values (items.filterMap Filter.literal?))
    else joined .or (Filter.expressionList path items)
  | .within (.object entries) => joined .or (FilterEntry.expressionList path entries)
  | .not operand => bound path .eq (.call "not".toList [operand.expressionAt [] none])
  | .lambda quantifier binder body =>
    bound path .step (.lambda quantifier binder.toList (body.expressionAt [] none))
  | .method scope name arguments =>
    bound path .step (.call
      (Uri.encodeComponent scope.toList ++ '.' :: Uri.encodeComponent name.toList)
      (Filter.expressionList [] arguments))
  | .canAccess => bound path .step (.call "canAccess".toList [])

def Filter.parameterExpressions : List (String × Filter) → List (String × Expression)
  | [] => []
  | (name, filter) :: rest =>
    (name, filter.expressionAt [] none) :: Filter.parameterExpressions rest

end

/-- The expression that a whole filter denotes. -/
def Filter.expression (filter : Filter) : Expression := filter.expressionAt [] none

theorem Filter.exists_scalar_of_mem {items : List Filter} {text : Text}
    (member : text ∈ items.filterMap Filter.literal?) :
    ∃ scalar : Primitive, text = scalar.literal := by
  obtain ⟨item, _, literal⟩ := List.mem_filterMap.mp member
  cases item with
  | value scalar => exact ⟨scalar, (Option.some.inj literal).symm⟩
  | list items => cases literal
  | object entries => cases literal

namespace Expression

open Text

/-- A property of texts that is kept when they are put together to the text of an expression. -/
structure Kept (property : Text → Prop) : Prop where
  nil : property []
  append {text other : Text} : property text → property other → property (text ++ other)
  parenthesized {text : Text} : property text → property ('(' :: text ++ [')'])
  connective (connective : Connective) : property connective.text
  slash : property ['/']
  comma : property [',']
  spacedComma : property ", ".toList
  filterKey : property "$filter=".toList

namespace Kept

variable {property : Text → Prop} (kept : Kept property) {expression : Expression}
  {operands : List Expression} {path : List String}

include kept

theorem join {separator : Text} {texts : List Text} (between : property separator)
    (inner : ∀ text ∈ texts, property text) : property (Text.join separator texts) := by
  induction texts with
  | nil => exact kept.nil
  | cons text texts ih =>
    rw [List.forall_mem_cons] at inner
    cases texts with
    | nil => exact inner.1
    | cons next texts => exact kept.append (kept.append inner.1 between) (ih inner.2)

theorem grouped (inner : property expression.bare) : property expression.grouped := by
  cases chain : expression.isChain
  · rw [grouped_of_not_isChain chain]
    exact inner
  · rw [grouped_of_isChain chain]
    exact kept.parenthesized inner

theorem chain (connective : Connective) (inner : ∀ operand ∈ operands, property operand.bare) :
    property (Expression.chain connective operands).bare := by
  rw [bare, groupedTexts_eq_map]
  refine kept.join (kept.connective connective) fun piece member => ?_
  obtain ⟨operand, found, rfl⟩ := List.mem_map.mp member
  exact kept.grouped (inner operand found)

theorem joined (connective : Connective) (inner : ∀ operand ∈ operands, property operand.bare) :
    property (Expression.joined connective operands).bare := by
  match operands with
  | [] => exact kept.chain connective inner
  | [operand] => exact inner operand (List.mem_singleton_self operand)
  | first :: second :: others => exact kept.chain connective inner

theorem bound (located : property (Uri.encodePath path)) (connective : Connective)
    (inner : property expression.bare) :
    property (Expression.bound path connective expression).bare := by
  cases path with
  | nil => exact inner
  | cons first rest =>
    cases connective with
    | step => exact kept.append located (kept.append kept.slash inner)
    | and | or | within | operator _ =>
      exact kept.chain _ (List.forall_mem_cons.mpr ⟨located, List.forall_mem_singleton.mpr inner⟩)

theorem call {callee : Text} (named : property callee) {arguments : List Expression}
    (inner : ∀ argument ∈ arguments, property argument.bare) :
    property (Expression.call callee arguments).bare := by
  rw [bare, bareTexts_eq_map]
  have joined : property (Text.join [','] (arguments.map bare)) := by
    refine kept.join kept.comma fun piece member => ?_
    obtain ⟨argument, found, rfl⟩ := List.mem_map.mp member
    exact inner argument found
  exact kept.append named (kept.parenthesized joined)

theorem compared (op : BinaryOperator) (located : property (Uri.encodePath path))
    (inner : ∀ operand ∈ operands, property operand.bare) :
    property (Expression.compared op path operands).bare := by
  match operands with
  | [] => exact kept.bound located .eq (kept.joined (.operator op) inner)
  | [operand] => exact kept.bound located _ (inner operand (List.mem_singleton_self operand))
  | first :: second :: others => exact kept.bound located .eq (kept.joined (.operator op) inner)

theorem applied {function : FilterFunction} (named : property function.name.toList)
    (located : property (Uri.encodePath path)) {scalar : Primitive}
    (literal : property scalar.literal) :
    property (Expression.applied function path scalar).bare := by
  refine kept.call named (List.forall_mem_append.mpr ⟨?subject, ?argument⟩)
  case subject =>
    split
    · exact List.forall_mem_nil _
    · exact List.forall_mem_singleton.mpr located
  case argument =>
    split
    · exact List.forall_mem_nil _
    · exact List.forall_mem_singleton.mpr literal

theorem count {path : Text} (located : property path) (inner : property expression.bare) :
    property (Expression.count path expression).bare := by
  have inside := kept.parenthesized (kept.append kept.filterKey inner)
  rw [List.cons_append, List.append_assoc] at inside
  exact kept.append located inside

theorem values (literal : ∀ scalar : Primitive, property scalar.literal) (items : List Filter) :
    property (Expression.values (items.filterMap Filter.literal?)).bare := by
  refine kept.parenthesized (kept.join kept.spacedComma fun text member => ?_)
  obtain ⟨scalar, rfl⟩ := Filter.exists_scalar_of_mem member
  exact literal scalar

end Kept

end Expression

end OData
