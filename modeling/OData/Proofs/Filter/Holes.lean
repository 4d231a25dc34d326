import Mathlib
import OData.Proofs.Filter.Nesting
import OData.Proofs.Filter.Readable

namespace OData

open Text

namespace Expression

mutual

/-- The texts at all places of an expression where an expression has to stand: the whole one, operands,
values, arguments, bodies and the filters of counts. -/
def positions : Expression → List Text
  | .leaf text => [text]
  | .values texts => (values texts).bare :: texts
  | .chain connective operands => (chain connective operands).bare :: listPositions operands
  | .step path target => (step path target).bare :: target.positions
  | .call callee arguments => (call callee arguments).bare :: listPositions arguments
  | .lambda quantifier binder body => (lambda quantifier binder body).bare :: body.positions
  | .count path filter => (count path filter).bare :: filter.positions

def listPositions : List Expression → List Text
  | [] => []
  | expression :: rest => expression.positions ++ listPositions rest

end

/-- There is no hole in the expression. -/
def Complete (expression : Expression) : Prop := [] ∉ expression.positions

variable {expression : Expression} {operands : List Expression} {path : List String}

theorem bare_mem_positions (expression : Expression) : expression.bare ∈ expression.positions := by
  cases expression <;> exact List.mem_cons_self ..

theorem Complete.bare_ne_nil (complete : expression.Complete) : expression.bare ≠ [] :=
  fun empty => complete (empty ▸ expression.bare_mem_positions)

theorem not_mem_listPositions :
    [] ∉ listPositions operands ↔ ∀ operand ∈ operands, operand.Complete := by
  induction operands with
  | nil => simp [listPositions]
  | cons operand rest ih =>
    rw [listPositions, List.mem_append, not_or, ih, List.forall_mem_cons]
    rfl

/-- Where something is written around them, the inner places alone can be holes. -/
theorem not_mem_cons {whole : Text} (written : whole ≠ []) {inner : List Text} :
    [] ∉ whole :: inner ↔ [] ∉ inner := by
  rw [List.mem_cons, not_or]
  exact and_iff_right written.symm

theorem complete_leaf {text : Text} : (leaf text).Complete ↔ text ≠ [] := by
  rw [Complete, positions, List.mem_singleton]
  exact ne_comm

theorem complete_values {texts : List Text} :
    (values texts).Complete ↔ ∀ text ∈ texts, text ≠ [] := by
  have written : (values texts).bare ≠ [] := List.cons_ne_nil _ _
  rw [Complete, positions, not_mem_cons written]
  exact ⟨fun full text member empty => full (empty ▸ member), fun full member => full [] member rfl⟩

theorem complete_step {path : Text} {target : Expression} :
    (step path target).Complete ↔ target.Complete :=
  not_mem_cons (List.append_ne_nil_of_right_ne_nil path (List.cons_ne_nil _ _))

theorem complete_call {callee : Text} {arguments : List Expression} :
    (call callee arguments).Complete ↔ ∀ argument ∈ arguments, argument.Complete := by
  have written : (call callee arguments).bare ≠ [] :=
    List.append_ne_nil_of_right_ne_nil callee (List.cons_ne_nil _ _)
  rw [Complete, positions, not_mem_cons written, not_mem_listPositions]

theorem complete_lambda {quantifier : Quantifier} {binder : Text} {body : Expression} :
    (lambda quantifier binder body).Complete ↔ body.Complete :=
  not_mem_cons (List.append_ne_nil_of_right_ne_nil _ (List.cons_ne_nil _ _))

theorem complete_count {path : Text} {filter : Expression} :
    (count path filter).Complete ↔ filter.Complete :=
  not_mem_cons (List.append_ne_nil_of_right_ne_nil path (List.cons_ne_nil _ _))

theorem grouped_ne_nil (written : expression.bare ≠ []) : expression.grouped ≠ [] := by
  cases chain : expression.isChain
  · rw [grouped_of_not_isChain chain]
    exact written
  · rw [grouped_of_isChain chain]
    exact List.cons_ne_nil _ _

/-- A chain without operands is a hole itself. -/
theorem complete_chain {connective : Connective} :
    (chain connective operands).Complete ↔
      operands ≠ [] ∧ ∀ operand ∈ operands, operand.Complete := by
  cases operands with
  | nil => exact ⟨fun complete => absurd rfl complete.bare_ne_nil, fun both => absurd rfl both.1⟩
  | cons first others =>
    rw [Complete, positions, List.mem_cons, not_or, not_mem_listPositions]
    constructor
    · exact fun both => ⟨List.cons_ne_nil _ _, both.2⟩
    · rintro ⟨_, inner⟩
      have head := grouped_ne_nil (inner first (List.mem_cons_self ..)).bare_ne_nil
      refine ⟨?_, inner⟩
      rw [bare, groupedTexts_eq_map, List.map_cons, join_eq_flatMap]
      exact (List.append_ne_nil_of_left_ne_nil head _).symm

theorem complete_joined {connective : Connective} :
    (joined connective operands).Complete ↔
      operands ≠ [] ∧ ∀ operand ∈ operands, operand.Complete := by
  match operands with
  | [] => exact complete_chain
  | [operand] =>
    rw [List.forall_mem_singleton]
    exact (and_iff_right (List.cons_ne_nil operand [])).symm
  | first :: second :: others => exact complete_chain

/-- A path with named steps is no hole. -/
theorem complete_bound (named : ∀ name ∈ path, name.toList ≠ []) (connective : Connective)
    (expression : Expression) :
    (bound path connective expression).Complete ↔ expression.Complete := by
  cases path with
  | nil => exact Iff.rfl
  | cons first rest =>
    have written := Uri.encodePath_ne_nil (List.cons_ne_nil first rest) named
    have both : (chain connective [leaf (Uri.encodePath (first :: rest)), expression]).Complete ↔
        expression.Complete := by
      rw [complete_chain, List.forall_mem_cons, List.forall_mem_singleton, complete_leaf]
      exact ⟨fun all => all.2.2, fun inner => ⟨List.cons_ne_nil _ _, written, inner⟩⟩
    cases connective with
    | step => exact complete_step
    | and | or | within | operator _ => exact both

theorem complete_literal (named : ∀ name ∈ path, name.toList ≠ []) (connective : Connective)
    {text : Text} (written : text ≠ []) : (literal path connective text).Complete :=
  (complete_bound named connective (leaf text)).mpr (complete_leaf.mpr written)

theorem complete_compared (op : BinaryOperator) (named : ∀ name ∈ path, name.toList ≠ [])
    (nonempty : operands ≠ []) :
    (compared op path operands).Complete ↔ ∀ operand ∈ operands, operand.Complete := by
  match operands with
  | [operand] => rw [compared, complete_bound named, List.forall_mem_singleton]
  | first :: second :: others =>
    have several := complete_bound named .eq (joined (.operator op) (first :: second :: others))
    rw [compared, several, complete_joined]
    · exact and_iff_right nonempty
    · exact fun operand => nofun

theorem complete_applied (function : FilterFunction) (named : ∀ name ∈ path, name.toList ≠ [])
    (scalar : Primitive) : (applied function path scalar).Complete := by
  rw [applied, complete_call, List.forall_mem_append]
  constructor
  · split
    · exact List.forall_mem_nil _
    case isFalse nonempty =>
      exact List.forall_mem_singleton.mpr
        (complete_leaf.mpr (Uri.encodePath_ne_nil nonempty named))
  · split
    · exact List.forall_mem_nil _
    · exact List.forall_mem_singleton.mpr (complete_leaf.mpr scalar.literal_isWord.1)

end Expression

mutual

/-- Objects of the filter have conditions, unless a function is called on them, and the paths of its
resources have segments. -/
def Filter.Filled : Filter → Prop
  | .value _ => True
  | .list items => Filter.ListFilled items
  | .object entries => entries ≠ [] ∧ FilterEntry.ListFilled entries

def Filter.ListFilled : List Filter → Prop
  | [] => True
  | filter :: rest => filter.Filled ∧ Filter.ListFilled rest

def FilterEntry.ListFilled : List FilterEntry → Prop
  | [] => True
  | entry :: rest => entry.Filled ∧ FilterEntry.ListFilled rest

def FilterEntry.Filled : FilterEntry → Prop
  | .property _ filter => filter.Filled
  | .parameter _ => True
  | .operation operation => operation.Filled

def FilterOperation.Filled : FilterOperation → Prop
  | .compare _ operand => operand.Filled
  | .apply _ (.value _) => True
  | .apply _ (.list items) => Filter.ListFilled items
  | .apply _ (.object entries) => FilterEntry.ListFilled entries
  | .duration _ => True
  | .raw _ => True
  | .template _ _ => True
  | .resource resource => resource ≠ .segments []
  | .count none => True
  | .count (some filter) => filter.Filled
  | .and operand => operand.Filled
  | .or operand => operand.Filled
  | .within operand => operand.Filled
  | .not operand => operand.Filled
  | .lambda _ _ body => body.Filled
  | .method _ _ arguments => Filter.ListFilled arguments
  | .canAccess => True

end

/-- A name of at least one character. -/
def IsNonempty (name : String) : Prop := name.toList ≠ []

theorem Filter.listFilled_of_values {items : List Filter} (values : items.all Filter.isValue = true) :
    Filter.ListFilled items := by
  induction items with
  | nil => trivial
  | cons item rest ih =>
    rw [List.all_cons, Bool.and_eq_true] at values
    cases item with
    | value scalar => exact ⟨trivial, ih values.2⟩
    | list items => exact Bool.noConfusion values.1
    | object entries => exact Bool.noConfusion values.1

theorem FilterOperation.countPath_ne_nil {path : List String}
    (named : ∀ name ∈ path, IsNonempty name) : countPath path ≠ [] := by
  unfold countPath
  split
  · decide
  · refine Uri.encodePath_ne_nil (by simp) (List.forall_mem_append.mpr ⟨named, ?_⟩)
    exact List.forall_mem_singleton.mpr (by decide)

/-- A resource is a hole where it is a path without segments. -/
theorem Uri.encodeResource_ne_nil_iff {resource : ResourcePath} (named : resource.Named IsNonempty) :
    encodeResource resource ≠ [] ↔ resource ≠ .segments [] := by
  constructor
  · rintro written rfl
    exact written rfl
  · intro nonempty
    cases resource with
    | single name => exact restoreCount_ne_nil (encodeComponent_ne_nil named)
    | segments names =>
      exact encodePath_ne_nil (fun none => nonempty (congrArg ResourcePath.segments none)) named

open Expression (complete_leaf complete_values complete_call complete_lambda complete_count
  complete_joined complete_bound complete_literal complete_compared complete_applied)

mutual

/-- An accepted filter with names is complete exactly where it is filled. Empty lists and empty
objects under comparisons and memberships are refused; any other empty object leaves a hole,
unless a function is called on it. -/
theorem Filter.expressionAt_complete {path : List String}
    (names : ∀ name ∈ path, IsNonempty name) (joint : Option Connective) (context : FilterContext) :
    (filter : Filter) → filter.Named IsNonempty (fun _ => True) →
      (∀ site ∈ filter.sites context, site.Allowed) →
      ((filter.expressionAt path joint).Complete ↔ filter.Filled)
  | .value scalar, _, _ =>
    iff_of_true (complete_literal names .eq scalar.literal_isWord.1) trivial
  | .list items, named, allowed => by
    rw [Filter.sites, List.forall_mem_cons] at allowed
    have nonempty := Filter.expressionList_ne_nil [] Nat.two_pos allowed.1
    have inner := Filter.expressionList_complete (List.forall_mem_nil _) context.detached items
      named allowed.2
    rw [Filter.expressionAt, complete_bound names, complete_joined, inner]
    exact and_iff_right nonempty
  | .object entries, named, allowed => by
    have inner := FilterEntry.expressionList_complete names context entries named allowed
    have empty : FilterEntry.expressionList path entries = [] ↔ entries = [] :=
      FilterEntry.expressionList_eq_nil_iff
    rw [Filter.expressionAt, complete_joined, inner, Ne, empty]
    rfl

theorem Filter.expressionList_complete {path : List String}
    (names : ∀ name ∈ path, IsNonempty name) (context : FilterContext) :
    (items : List Filter) → Filter.ListNamed IsNonempty (fun _ => True) items →
      (∀ site ∈ Filter.listSites context items, site.Allowed) →
      ((∀ expression ∈ Filter.expressionList path items, expression.Complete) ↔
        Filter.ListFilled items)
  | [], _, _ => iff_of_true (List.forall_mem_nil _) trivial
  | filter :: rest, named, allowed => by
    rw [Filter.listSites, List.forall_mem_append] at allowed
    have head := filter.expressionAt_complete names none context named.1 allowed.1
    have tail := Filter.expressionList_complete names context rest named.2 allowed.2
    rw [Filter.expressionList, List.forall_mem_cons, head, tail]
    rfl

theorem FilterEntry.expressionList_complete {path : List String}
    (names : ∀ name ∈ path, IsNonempty name) (context : FilterContext) :
    (entries : List FilterEntry) → FilterEntry.ListNamed IsNonempty (fun _ => True) entries →
      (∀ site ∈ FilterEntry.listSites context entries, site.Allowed) →
      ((∀ expression ∈ FilterEntry.expressionList path entries, expression.Complete) ↔
        FilterEntry.ListFilled entries)
  | [], _, _ => iff_of_true (List.forall_mem_nil _) trivial
  | entry :: rest, named, allowed => by
    rw [FilterEntry.listSites, List.forall_mem_append] at allowed
    have head := entry.expressionAt_complete names context named.1 allowed.1
    have tail := FilterEntry.expressionList_complete names context rest named.2 allowed.2
    rw [FilterEntry.expressionList, List.forall_mem_cons, head, tail]
    rfl

theorem FilterEntry.expressionAt_complete {path : List String}
    (names : ∀ name ∈ path, IsNonempty name) (context : FilterContext) :
    (entry : FilterEntry) → entry.Named IsNonempty (fun _ => True) →
      (∀ site ∈ entry.sites context, site.Allowed) →
      ((entry.expressionAt path).Complete ↔ entry.Filled)
  | .property property filter, named, allowed => by
    rw [FilterEntry.sites, List.forall_mem_cons] at allowed
    have inside := List.forall_mem_append.mpr ⟨names, List.forall_mem_singleton.mpr named.1⟩
    exact filter.expressionAt_complete inside none context.stepped named.2 allowed.2
  | .parameter parameter, _, _ =>
    iff_of_true (complete_literal names .eq (List.cons_ne_nil _ _)) trivial
  | .operation operation, named, allowed =>
    operation.expressionAt_complete names context named allowed

theorem FilterOperation.expressionAt_complete {path : List String}
    (names : ∀ name ∈ path, IsNonempty name) (context : FilterContext) :
    (operation : FilterOperation) → operation.Named IsNonempty (fun _ => True) →
      (∀ site ∈ operation.sites context, site.Allowed) →
      ((operation.expressionAt path).Complete ↔ operation.Filled)
  | .compare op (.value scalar), _, _ =>
    iff_of_true (complete_literal names (.operator op) scalar.literal_isWord.1) trivial
  | .compare op (.list items), named, allowed => by
    rw [FilterOperation.sites, List.forall_mem_cons] at allowed
    have nonempty := Filter.expressionList_ne_nil [] Nat.two_pos allowed.1
    have inner := Filter.expressionList_complete (List.forall_mem_nil _) context.detached items
      named allowed.2
    rw [FilterOperation.expressionAt, complete_bound names, complete_joined, inner]
    exact and_iff_right nonempty
  | .compare op (.object entries), named, allowed => by
    rw [FilterOperation.sites, List.forall_mem_cons] at allowed
    have nonempty := FilterEntry.expressionList_ne_nil [] allowed.1
    have inner := FilterEntry.expressionList_complete (List.forall_mem_nil _) context.detached
      entries named allowed.2
    rw [FilterOperation.expressionAt, complete_compared op names nonempty, inner]
    exact (and_iff_right allowed.1).symm
  | .apply function (.value scalar), _, _ =>
    iff_of_true (complete_applied function names scalar) trivial
  | .apply function (.list items), named, allowed => by
    rw [FilterOperation.sites, Filter.sites, List.forall_mem_cons] at allowed
    have inner := Filter.expressionList_complete (List.forall_mem_nil _)
      context.detached.detached items named allowed.2
    rw [FilterOperation.expressionAt, complete_bound names, complete_call, inner]
    rfl
  | .apply function (.object entries), named, allowed => by
    have inner := FilterEntry.expressionList_complete (List.forall_mem_nil _) context.detached
      entries named allowed
    rw [FilterOperation.expressionAt, complete_bound names, complete_call, inner]
    rfl
  | .duration literal, _, _ =>
    iff_of_true (complete_literal names .eq literal.text_isWord.1) trivial
  | .raw _, named, _ => named.elim
  | .template _ _, named, _ => named.elim
  | .resource resource, named, _ => by
    rw [FilterOperation.expressionAt, Expression.literal, complete_bound names, complete_leaf]
    exact Uri.encodeResource_ne_nil_iff named
  | .count none, _, _ =>
    iff_of_true (complete_leaf.mpr (FilterOperation.countPath_ne_nil names)) trivial
  | .count (some filter), named, allowed => by
    have inner := filter.expressionAt_complete (List.forall_mem_nil _) none context.detached named
      allowed
    rw [FilterOperation.expressionAt, complete_count, inner]
    rfl
  | .and operand, named, allowed => by
    have inner := operand.expressionAt_complete (List.forall_mem_nil _) (some .and)
      context.detached named allowed
    exact (complete_bound names .eq _).trans inner
  | .or operand, named, allowed => by
    have inner := operand.expressionAt_complete (List.forall_mem_nil _) (some .or)
      context.detached named allowed
    exact (complete_bound names .eq _).trans inner
  | .within (.value scalar), _, _ =>
    iff_of_true (complete_literal names .eq scalar.literal_isWord.1) trivial
  | .within (.list items), named, allowed => by
    rw [FilterOperation.sites, List.forall_mem_cons] at allowed
    rw [FilterOperation.expressionAt]
    split
    case isTrue values =>
      have written : (Expression.values (items.filterMap Filter.literal?)).Complete :=
        complete_values.mpr fun text member => by
          obtain ⟨scalar, rfl⟩ := Filter.exists_scalar_of_mem member
          exact scalar.literal_isWord.1
      exact iff_of_true ((complete_bound names .within _).mpr written)
        (Filter.listFilled_of_values values)
    case isFalse =>
      have nonempty := Filter.expressionList_ne_nil path Nat.one_pos allowed.1
      have inner := Filter.expressionList_complete names context items named allowed.2
      rw [complete_joined, inner]
      exact and_iff_right nonempty
  | .within (.object entries), named, allowed => by
    rw [FilterOperation.sites, List.forall_mem_cons] at allowed
    have nonempty := FilterEntry.expressionList_ne_nil path allowed.1
    have inner := FilterEntry.expressionList_complete names context entries named allowed.2
    rw [FilterOperation.expressionAt, complete_joined, inner]
    exact ⟨fun both => ⟨allowed.1, both.2⟩, fun both => ⟨nonempty, both.2⟩⟩
  | .not operand, named, allowed => by
    have inner := operand.expressionAt_complete (List.forall_mem_nil _) none context.detached named
      allowed
    rw [FilterOperation.expressionAt, complete_bound names, complete_call,
      List.forall_mem_singleton, inner]
    rfl
  | .lambda quantifier binder body, named, allowed => by
    have inner := body.expressionAt_complete (List.forall_mem_nil _) none .lambdaBody named.2 allowed
    rw [FilterOperation.expressionAt, complete_bound names, complete_lambda, inner]
    rfl
  | .method scope method arguments, named, allowed => by
    have inner := Filter.expressionList_complete (List.forall_mem_nil _) context.detached arguments
      named.2.2 allowed
    rw [FilterOperation.expressionAt, complete_bound names, complete_call, inner]
    rfl
  | .canAccess, _, _ => by
    have call : (Expression.call "canAccess".toList []).Complete :=
      complete_call.mpr (List.forall_mem_nil _)
    exact iff_of_true ((complete_bound names .step _).mpr call) trivial

end

/-- The text of an accepted filter with names has a hole exactly where an object is empty that no
function is called on, or a resource has no segments. -/
theorem Filter.compile_complete {filter : Filter} {text : Text}
    (named : filter.Named IsNonempty fun _ => True) (run : filter.compile = .ok text) :
    text = filter.expression.bare ∧ (filter.expression.Complete ↔ filter.Filled) := by
  obtain ⟨allowed, written⟩ := filter.compile_checks.eq_ok_iff.mp run
  exact ⟨written.symm,
    filter.expressionAt_complete (List.forall_mem_nil _) none .top named allowed⟩

end OData
