import Mathlib
import OData.Proofs.Filter.Compilation
import OData.Proofs.Literal

namespace OData

open Text

/-- The marks that cut a query into its path and its options. -/
def querySeparators : Text := ['?', '&']

/-- A text that cannot be mistaken for more than one part of a query. -/
abbrev Unseparated (text : Text) : Prop := Avoids querySeparators text

mutual

/-- Texts of a filter that are written verbatim: raw texts, templates and the names that lambda
bodies have for their elements. Everything else is encoded. -/
def Filter.verbatim : Filter → List String
  | .value _ => []
  | .list items => Filter.listVerbatim items
  | .object entries => FilterEntry.listVerbatim entries

def Filter.listVerbatim : List Filter → List String
  | [] => []
  | filter :: rest => filter.verbatim ++ Filter.listVerbatim rest

def FilterEntry.listVerbatim : List FilterEntry → List String
  | [] => []
  | entry :: rest => entry.verbatim ++ FilterEntry.listVerbatim rest

def FilterEntry.verbatim : FilterEntry → List String
  | .property _ filter => filter.verbatim
  | .parameter _ => []
  | .operation operation => operation.verbatim

def FilterOperation.verbatim : FilterOperation → List String
  | .compare _ operand => operand.verbatim
  | .apply _ operand => operand.verbatim
  | .duration _ => []
  | .raw text => [text]
  | .template text parameters => text :: Filter.parameterVerbatim parameters
  | .resource _ => []
  | .count none => []
  | .count (some filter) => filter.verbatim
  | .and operand => operand.verbatim
  | .or operand => operand.verbatim
  | .within operand => operand.verbatim
  | .not operand => operand.verbatim
  | .lambda _ binder body => binder :: body.verbatim
  | .method _ _ arguments => Filter.listVerbatim arguments
  | .canAccess => []

def Filter.parameterVerbatim : List (String × Filter) → List String
  | [] => []
  | (_, filter) :: rest => filter.verbatim ++ Filter.parameterVerbatim rest

end

/-- The separators come out of no encoding and stand in no literal. -/
theorem querySeparators_structural {mark : Char} (member : mark ∈ querySeparators) :
    isInert mark = false ∧ mark ∉ Uri.brackets ∧ mark ≠ ':' := by
  simp only [querySeparators, List.mem_cons, List.not_mem_nil, or_false] at member
  rcases member with rfl | rfl <;> decide

theorem Text.Inert.unseparated {text : Text} (inert : Inert text) : Unseparated text :=
  inert.avoids fun _ member => (querySeparators_structural member).1

theorem Uri.encodeComponent_unseparated (text : Text) : Unseparated (Uri.encodeComponent text) :=
  Uri.encodeComponent_avoids text fun _ member =>
    ⟨(querySeparators_structural member).1, (querySeparators_structural member).2.1⟩

theorem Uri.restoreCount_unseparated {text : Text} (inner : Unseparated text) :
    Unseparated (Uri.restoreCount text) :=
  Uri.restoreCount_avoids inner fun _ member => (querySeparators_structural member).1

theorem Uri.encodePath_unseparated (segments : List String) :
    Unseparated (Uri.encodePath segments) := by
  refine Uri.restoreCount_unseparated (Avoids.join (by decide) fun piece member => ?_)
  obtain ⟨segment, _, rfl⟩ := List.mem_map.mp member
  exact Uri.encodeComponent_unseparated segment.toList

theorem Uri.encodeResource_unseparated (resource : ResourcePath) :
    Unseparated (Uri.encodeResource resource) := by
  cases resource with
  | single name =>
    exact Uri.restoreCount_unseparated (Uri.encodeComponent_unseparated name.toList)
  | segments names => exact Uri.encodePath_unseparated names

theorem Uri.encodeAlias_unseparated (name : String) : Unseparated (Uri.encodeAlias name) :=
  avoids_cons.mpr ⟨by decide, Uri.encodeComponent_unseparated name.toList⟩

theorem Primitive.literal_unseparated (scalar : Primitive) : Unseparated scalar.literal :=
  scalar.literal_avoids fun _ => querySeparators_structural

theorem parenthesized_unseparated {text : Text} (inner : Unseparated text) :
    Unseparated ('(' :: text ++ [')']) :=
  avoids_append.mpr ⟨avoids_cons.mpr ⟨by decide, inner⟩, by decide⟩

theorem Connective.text_unseparated (connective : Connective) : Unseparated connective.text := by
  cases connective with
  | operator op => cases op <;> decide
  | and | or | within | step => decide

/-- No separator comes in between the parts of an expression. -/
theorem Expression.unseparated_kept : Kept Unseparated where
  nil := .nil
  append := fun first second => avoids_append.mpr ⟨first, second⟩
  parenthesized := parenthesized_unseparated
  connective := Connective.text_unseparated
  slash := by decide
  comma := by decide
  spacedComma := by decide
  filterKey := by decide

theorem Expression.bound_unseparated (path : List String) (connective : Connective)
    {expression : Expression} (inner : Unseparated expression.bare) :
    Unseparated (bound path connective expression).bare :=
  unseparated_kept.bound (Uri.encodePath_unseparated path) connective inner

theorem FilterFunction.name_unseparated (function : FilterFunction) :
    Unseparated function.name.toList := by
  cases function <;> decide

/-- Cutting a template loses nothing of it. -/
theorem TemplatePiece.flatMap_text (template : Text) :
    (ofTemplate template).flatMap text = template := by
  fun_induction ofTemplate template with
  | case1 => rfl
  | case2 c rest name placeholder ih =>
    rw [List.flatMap_cons, ih, placeholder.1]
    exact congrArg ('$' :: ·) List.takeWhile_append_dropWhile
  | case3 c rest name plain ih => rw [List.flatMap_cons, ih]; rfl

/-- A template brings what it has itself and what its bindings bring. -/
theorem substitute_unseparated {binding : Text → Option Text} {template : Text}
    (own : Unseparated template)
    (bound : ∀ name text, binding name = some text → Unseparated text) :
    Unseparated (substitute binding template) := by
  intro c member
  obtain ⟨piece, found, inPiece⟩ := List.mem_flatMap.mp member
  have written : Unseparated piece.text := by
    intro d inText
    rw [← TemplatePiece.flatMap_text template] at own
    exact own d (List.mem_flatMap.mpr ⟨piece, found, inText⟩)
  cases piece with
  | char d => exact written c inPiece
  | placeholder name =>
    cases value : binding name with
    | none =>
      simp only [value, Option.getD_none] at inPiece
      exact written c inPiece
    | some text =>
      simp only [value, Option.getD_some] at inPiece
      exact bound name text value c inPiece

theorem parameterBinding_unseparated {parameters : List (String × Term)}
    (inner : ∀ parameter ∈ parameters, Unseparated parameter.2.bare) {name text : Text}
    (bound : parameterBinding parameters name = some text) : Unseparated text := by
  unfold parameterBinding at bound
  obtain ⟨term, found, rfl⟩ := Option.map_eq_some_iff.mp bound
  obtain ⟨before, after, split, _⟩ := List.lookup_eq_some_iff.mp found
  have member : (String.ofList name, term) ∈ parameters.reverse := by simp [split]
  exact parenthesized_unseparated (inner _ (List.mem_reverse.mp member))

theorem DurationLiteral.text_unseparated (d : DurationLiteral) : Unseparated d.text :=
  d.text_avoids fun _ member =>
    ⟨(querySeparators_structural member).1, (querySeparators_structural member).2.1⟩

theorem FilterOperation.countPath_unseparated (path : List String) :
    Unseparated (countPath path) := by
  unfold countPath
  split
  · decide
  · exact Uri.encodePath_unseparated _

open Expression (unseparated_kept bound_unseparated)

mutual

/-- What a filter is compiled to has no separator but those of its verbatim texts. -/
theorem Filter.expressionAt_unseparated (path : List String) (joint : Option Connective) :
    (filter : Filter) → (∀ text ∈ filter.verbatim, Unseparated text.toList) →
      Unseparated (filter.expressionAt path joint).bare
  | .value scalar, _ => bound_unseparated path .eq scalar.literal_unseparated
  | .list items, own => by
    have inner := Filter.expressionList_unseparated [] items own
    exact bound_unseparated path .eq (unseparated_kept.joined _ inner)
  | .object entries, own => by
    have inner := FilterEntry.expressionList_unseparated path entries own
    exact unseparated_kept.joined _ inner

theorem Filter.expressionList_unseparated (path : List String) :
    (items : List Filter) → (∀ text ∈ Filter.listVerbatim items, Unseparated text.toList) →
      ∀ expression ∈ Filter.expressionList path items, Unseparated expression.bare
  | [], _ => List.forall_mem_nil _
  | filter :: rest, own => by
    rw [Filter.listVerbatim, List.forall_mem_append] at own
    exact List.forall_mem_cons.mpr ⟨filter.expressionAt_unseparated path none own.1,
      Filter.expressionList_unseparated path rest own.2⟩

theorem FilterEntry.expressionList_unseparated (path : List String) :
    (entries : List FilterEntry) →
      (∀ text ∈ FilterEntry.listVerbatim entries, Unseparated text.toList) →
      ∀ expression ∈ FilterEntry.expressionList path entries, Unseparated expression.bare
  | [], _ => List.forall_mem_nil _
  | entry :: rest, own => by
    rw [FilterEntry.listVerbatim, List.forall_mem_append] at own
    exact List.forall_mem_cons.mpr ⟨entry.expressionAt_unseparated path own.1,
      FilterEntry.expressionList_unseparated path rest own.2⟩

theorem FilterEntry.expressionAt_unseparated (path : List String) :
    (entry : FilterEntry) → (∀ text ∈ entry.verbatim, Unseparated text.toList) →
      Unseparated (entry.expressionAt path).bare
  | .property name filter, own => filter.expressionAt_unseparated (path ++ [name]) none own
  | .parameter name, _ => bound_unseparated path .eq (Uri.encodeAlias_unseparated name)
  | .operation operation, own => operation.expressionAt_unseparated path own

theorem FilterOperation.expressionAt_unseparated (path : List String) :
    (operation : FilterOperation) → (∀ text ∈ operation.verbatim, Unseparated text.toList) →
      Unseparated (operation.expressionAt path).bare
  | .compare op (.value scalar), _ =>
    bound_unseparated path (.operator op) scalar.literal_unseparated
  | .compare op (.list items), own => by
    have inner := Filter.expressionList_unseparated [] items own
    exact bound_unseparated path .eq (unseparated_kept.joined _ inner)
  | .compare op (.object entries), own => by
    have inner := FilterEntry.expressionList_unseparated [] entries own
    exact unseparated_kept.compared op (Uri.encodePath_unseparated path) inner
  | .apply function (.value scalar), _ =>
    unseparated_kept.applied function.name_unseparated (Uri.encodePath_unseparated path)
      scalar.literal_unseparated
  | .apply function (.list items), own => by
    have inner := Filter.expressionList_unseparated [] items own
    exact bound_unseparated path .eq (unseparated_kept.call function.name_unseparated inner)
  | .apply function (.object entries), own => by
    have inner := FilterEntry.expressionList_unseparated [] entries own
    exact bound_unseparated path .eq (unseparated_kept.call function.name_unseparated inner)
  | .duration literal, _ => bound_unseparated path .eq literal.text_unseparated
  | .raw text, own =>
    bound_unseparated path .eq
      (parenthesized_unseparated (own text (List.mem_singleton_self text)))
  | .template text parameters, own => by
    rw [FilterOperation.verbatim, List.forall_mem_cons] at own
    have inner := Filter.parameterExpressions_unseparated parameters own.2
    refine bound_unseparated path .eq (parenthesized_unseparated ?_)
    refine substitute_unseparated own.1 fun name text bound => ?_
    refine parameterBinding_unseparated (fun parameter member => ?_) bound
    obtain ⟨entry, found, rfl⟩ := List.mem_map.mp member
    rw [Expression.bare_term]
    exact inner entry found
  | .resource resource, _ => bound_unseparated path .eq (Uri.encodeResource_unseparated resource)
  | .count none, _ => FilterOperation.countPath_unseparated path
  | .count (some filter), own => by
    have inner := filter.expressionAt_unseparated [] none own
    exact unseparated_kept.count (FilterOperation.countPath_unseparated path) inner
  | .and operand, own => bound_unseparated path .eq (operand.expressionAt_unseparated [] _ own)
  | .or operand, own => bound_unseparated path .eq (operand.expressionAt_unseparated [] _ own)
  | .within (.value scalar), _ => bound_unseparated path .eq scalar.literal_unseparated
  | .within (.list items), own => by
    rw [FilterOperation.expressionAt]
    split
    · exact bound_unseparated path .within
        (unseparated_kept.values Primitive.literal_unseparated items)
    · exact unseparated_kept.joined .or (Filter.expressionList_unseparated path items own)
  | .within (.object entries), own =>
    unseparated_kept.joined .or (FilterEntry.expressionList_unseparated path entries own)
  | .not operand, own => by
    have inner := operand.expressionAt_unseparated [] none own
    have name : Unseparated "not".toList := by decide
    exact bound_unseparated path .eq
      (unseparated_kept.call name (List.forall_mem_singleton.mpr inner))
  | .lambda quantifier binder body, own => by
    rw [FilterOperation.verbatim, List.forall_mem_cons] at own
    have inner := body.expressionAt_unseparated [] none own.2
    have name : Unseparated quantifier.name.toList := by cases quantifier <;> decide
    refine bound_unseparated path .step (avoids_append.mpr ⟨name, ?_⟩)
    refine avoids_cons.mpr ⟨by decide, avoids_append.mpr ⟨own.1, ?_⟩⟩
    exact avoids_cons.mpr ⟨by decide, avoids_append.mpr ⟨inner, by decide⟩⟩
  | .method scope name arguments, own => by
    have inner := Filter.expressionList_unseparated [] arguments own
    have callee := avoids_append.mpr ⟨Uri.encodeComponent_unseparated scope.toList,
      avoids_cons.mpr ⟨(by decide : '.' ∉ querySeparators),
        Uri.encodeComponent_unseparated name.toList⟩⟩
    exact bound_unseparated path .step (unseparated_kept.call callee inner)
  | .canAccess, _ => by
    have name : Unseparated "canAccess".toList := by decide
    exact bound_unseparated path .step (unseparated_kept.call name (List.forall_mem_nil _))

theorem Filter.parameterExpressions_unseparated :
    (parameters : List (String × Filter)) →
      (∀ text ∈ Filter.parameterVerbatim parameters, Unseparated text.toList) →
      ∀ entry ∈ Filter.parameterExpressions parameters, Unseparated entry.2.bare
  | [], _ => List.forall_mem_nil _
  | (name, filter) :: rest, own => by
    rw [Filter.parameterVerbatim, List.forall_mem_append] at own
    exact List.forall_mem_cons.mpr ⟨filter.expressionAt_unseparated [] none own.1,
      Filter.parameterExpressions_unseparated rest own.2⟩

end

theorem Filter.compile_unseparated {filter : Filter} {text : Text}
    (own : ∀ text ∈ filter.verbatim, Unseparated text.toList) (run : filter.compile = .ok text) :
    Unseparated text := by
  obtain ⟨_, written⟩ := filter.compile_checks.eq_ok_iff.mp run
  rw [← written]
  exact filter.expressionAt_unseparated [] none own

end OData
