import Mathlib
import OData.Proofs.Filter.Compilation
import OData.Proofs.Filter.Word
import OData.Proofs.Text.Nesting

namespace OData

open Text

/-- All names of the resource have the property. -/
def ResourcePath.Named (name : String → Prop) : ResourcePath → Prop
  | .single resource => name resource
  | .segments steps => ∀ step ∈ steps, name step

mutual

/-- No raw text and no template is in the filter, its names have the one property, and the names that
lambda bodies have for their elements the other. -/
def Filter.Named (name binder : String → Prop) : Filter → Prop
  | .value _ => True
  | .list items => Filter.ListNamed name binder items
  | .object entries => FilterEntry.ListNamed name binder entries

def Filter.ListNamed (name binder : String → Prop) : List Filter → Prop
  | [] => True
  | filter :: rest => filter.Named name binder ∧ Filter.ListNamed name binder rest

def FilterEntry.ListNamed (name binder : String → Prop) : List FilterEntry → Prop
  | [] => True
  | entry :: rest => entry.Named name binder ∧ FilterEntry.ListNamed name binder rest

def FilterEntry.Named (name binder : String → Prop) : FilterEntry → Prop
  | .property property filter => name property ∧ filter.Named name binder
  | .parameter parameter => name parameter
  | .operation operation => operation.Named name binder

def FilterOperation.Named (name binder : String → Prop) : FilterOperation → Prop
  | .compare _ operand => operand.Named name binder
  | .apply _ operand => operand.Named name binder
  | .duration _ => True
  | .raw _ => False
  | .template _ _ => False
  | .resource resource => resource.Named name
  | .count none => True
  | .count (some filter) => filter.Named name binder
  | .and operand => operand.Named name binder
  | .or operand => operand.Named name binder
  | .within operand => operand.Named name binder
  | .not operand => operand.Named name binder
  | .lambda _ element body => binder element ∧ body.Named name binder
  | .method scope method arguments =>
    name scope ∧ name method ∧ Filter.ListNamed name binder arguments
  | .canAccess => True

end

/-- A name without quotes and parentheses; it may be empty. -/
def IsBracketless (name : String) : Prop := Avoids Uri.brackets name.toList

instance : DecidablePred IsBracketless := fun _ => inferInstanceAs (Decidable (Avoids _ _))

/-- A text that is left in one piece where semicolons separate. -/
abbrev Unsplit (text : Text) : Prop := Sealed [';'] text

/-- Words hide their parentheses between quotes. -/
theorem Text.walk_of_isClosed {marks text : Text} {quoted : Bool} (depth : Nat)
    (closed : isClosed quoted text = true) (plain : Avoids marks text) :
    walk marks ⟨depth, quoted⟩ text = some ⟨depth, false⟩ := by
  induction text generalizing quoted with
  | nil =>
    have outside : quoted = false := by simpa [isClosed] using closed
    rw [outside, walk]
  | cons c text ih =>
    rw [avoids_cons] at plain
    simp only [isClosed, Bool.and_eq_true, Bool.or_eq_true, Bool.not_eq_true'] at closed
    have visible (unquoted : quoted = false) : c ≠ '(' ∧ c ≠ ')' := by
      have plain : isDelimiter c = false := closed.1.resolve_left fun isQuoted =>
        Bool.noConfusion (unquoted.symm.trans isQuoted)
      constructor <;> (rintro rfl; cases plain)
    have free : ¬ (Nesting.mk depth quoted = .outside ∧ c ∈ ')' :: marks) := by
      rintro ⟨outside, met⟩
      rcases List.mem_cons.mp met with closing | isMark
      · exact (visible (congrArg Nesting.quoted outside)).2 closing
      · exact plain.1 isMark
    have step : (Nesting.mk depth quoted).step c = ⟨depth, quoted != (c == '\'')⟩ := by
      by_cases quote : c = '\''
      · subst quote
        cases quoted <;> rfl
      · rw [Nesting.step, if_neg quote, beq_false_of_ne quote, Bool.bne_false]
        cases quoted with
        | true => rfl
        | false =>
          have shown := visible rfl
          rw [if_neg Bool.false_ne_true, if_neg shown.1, if_neg shown.2]
    rw [walk_cons free, step]
    exact ih closed.2 plain.2

theorem Text.IsWord.unsplit {text : Text} (isWord : IsWord text) (plain : Avoids [';'] text) :
    Unsplit text :=
  walk_of_isClosed 0 isWord.2 plain

theorem Text.Inert.unsplit {text : Text} (inert : Inert text) : Unsplit text :=
  .of_avoids (inert.avoids (by simp [Uri.brackets, isInert]))

theorem Primitive.literal_unsplit (scalar : Primitive) : Unsplit scalar.literal :=
  scalar.literal_isWord.unsplit (scalar.literal_avoids (by simp [Uri.brackets, isInert]))

theorem DurationLiteral.text_unsplit (d : DurationLiteral) : Unsplit d.text :=
  d.text_isWord.unsplit (d.text_avoids (by simp [Uri.brackets, isInert]))

namespace Uri

theorem encodePath_inert {path : List String} (names : ∀ name ∈ path, IsBracketless name) :
    Inert (encodePath path) :=
  restoreCount_inert (encodeSegments_inert names)

theorem encodeResource_inert {resource : ResourcePath} (names : resource.Named IsBracketless) :
    Inert (encodeResource resource) := by
  cases resource with
  | single name => exact restoreCount_inert (encodeComponent_inert names)
  | segments _ => exact encodePath_inert names

end Uri

theorem FilterOperation.countPath_inert {path : List String}
    (names : ∀ name ∈ path, IsBracketless name) : Inert (countPath path) := by
  unfold countPath
  split
  · decide
  · exact Uri.encodePath_inert (List.forall_mem_append.mpr
      ⟨names, List.forall_mem_singleton.mpr (by decide)⟩)

theorem parenthesized_unsplit {text : Text} {marks : Text} (inner : Sealed marks text) :
    Unsplit ('(' :: text ++ [')']) :=
  inner.parenthesized (by decide)

theorem Connective.text_unsplit (connective : Connective) : Unsplit connective.text := by
  cases connective with
  | operator op => cases op <;> decide
  | and | or | within | step => decide

namespace Expression

/-- No semicolon comes in between the parts of an expression. -/
theorem unsplit_kept : Kept Unsplit where
  nil := .nil
  append := Sealed.append
  parenthesized := parenthesized_unsplit
  connective := Connective.text_unsplit
  slash := by decide
  comma := by decide
  spacedComma := by decide
  filterKey := by decide

theorem bound_unsplit {path : List String} (names : ∀ name ∈ path, IsBracketless name)
    (connective : Connective) {expression : Expression} (inner : Unsplit expression.bare) :
    Unsplit (bound path connective expression).bare :=
  unsplit_kept.bound (Uri.encodePath_inert names).unsplit connective inner

/-- Behind the colon of a lambda expression its parentheses are still open, so the name in front of it
may have a semicolon. -/
theorem lambda_unsplit (quantifier : Quantifier) {binder : String} (name : IsBracketless binder)
    {body : Expression} (inner : Unsplit body.bare) :
    Unsplit (lambda quantifier binder.toList body).bare := by
  have quantified : Inert quantifier.name.toList := by cases quantifier <;> decide
  have element : Sealed [] binder.toList := by
    refine .of_avoids ?_
    rwa [List.append_nil]
  have opened := element.append ((inner.mono (List.nil_subset _)).cons (by decide : ':' ∉ _))
  have whole := parenthesized_unsplit opened
  rw [List.cons_append, List.append_assoc, List.cons_append] at whole
  exact quantified.unsplit.append whole

end Expression

theorem FilterFunction.name_unsplit (function : FilterFunction) : Unsplit function.name.toList := by
  cases function <;> decide

open Expression (unsplit_kept bound_unsplit lambda_unsplit)

mutual

/-- Wherever a filter with plain names stands, its expression stays in one piece. -/
theorem Filter.expressionAt_unsplit {path : List String}
    (names : ∀ name ∈ path, IsBracketless name) (joint : Option Connective) :
    (filter : Filter) → filter.Named IsBracketless IsBracketless →
      Unsplit (filter.expressionAt path joint).bare
  | .value scalar, _ => bound_unsplit names .eq scalar.literal_unsplit
  | .list items, named => by
    have inner := Filter.expressionList_unsplit (List.forall_mem_nil _) items named
    exact bound_unsplit names .eq (unsplit_kept.joined _ inner)
  | .object entries, named =>
    unsplit_kept.joined _ (FilterEntry.expressionList_unsplit names entries named)

theorem Filter.expressionList_unsplit {path : List String}
    (names : ∀ name ∈ path, IsBracketless name) :
    (items : List Filter) → Filter.ListNamed IsBracketless IsBracketless items →
      ∀ expression ∈ Filter.expressionList path items, Unsplit expression.bare
  | [], _ => List.forall_mem_nil _
  | filter :: rest, named =>
    List.forall_mem_cons.mpr ⟨filter.expressionAt_unsplit names none named.1,
      Filter.expressionList_unsplit names rest named.2⟩

theorem FilterEntry.expressionList_unsplit {path : List String}
    (names : ∀ name ∈ path, IsBracketless name) :
    (entries : List FilterEntry) → FilterEntry.ListNamed IsBracketless IsBracketless entries →
      ∀ expression ∈ FilterEntry.expressionList path entries, Unsplit expression.bare
  | [], _ => List.forall_mem_nil _
  | entry :: rest, named =>
    List.forall_mem_cons.mpr ⟨entry.expressionAt_unsplit names named.1,
      FilterEntry.expressionList_unsplit names rest named.2⟩

theorem FilterEntry.expressionAt_unsplit {path : List String}
    (names : ∀ name ∈ path, IsBracketless name) :
    (entry : FilterEntry) → entry.Named IsBracketless IsBracketless →
      Unsplit (entry.expressionAt path).bare
  | .property property filter, named => by
    have inside := List.forall_mem_append.mpr ⟨names, List.forall_mem_singleton.mpr named.1⟩
    exact filter.expressionAt_unsplit inside none named.2
  | .parameter parameter, named => by
    have inert : Inert (Uri.encodeAlias parameter) :=
      inert_cons.mpr ⟨rfl, Uri.encodeComponent_inert named⟩
    exact bound_unsplit names .eq inert.unsplit
  | .operation operation, named => operation.expressionAt_unsplit names named

theorem FilterOperation.expressionAt_unsplit {path : List String}
    (names : ∀ name ∈ path, IsBracketless name) :
    (operation : FilterOperation) → operation.Named IsBracketless IsBracketless →
      Unsplit (operation.expressionAt path).bare
  | .compare op (.value scalar), _ => bound_unsplit names (.operator op) scalar.literal_unsplit
  | .compare op (.list items), named => by
    have inner := Filter.expressionList_unsplit (List.forall_mem_nil _) items named
    exact bound_unsplit names .eq (unsplit_kept.joined _ inner)
  | .compare op (.object entries), named =>
    unsplit_kept.compared op (Uri.encodePath_inert names).unsplit
      (FilterEntry.expressionList_unsplit (List.forall_mem_nil _) entries named)
  | .apply function (.value scalar), _ =>
    unsplit_kept.applied function.name_unsplit (Uri.encodePath_inert names).unsplit
      scalar.literal_unsplit
  | .apply function (.list items), named => by
    have inner := Filter.expressionList_unsplit (List.forall_mem_nil _) items named
    exact bound_unsplit names .eq (unsplit_kept.call function.name_unsplit inner)
  | .apply function (.object entries), named => by
    have inner := FilterEntry.expressionList_unsplit (List.forall_mem_nil _) entries named
    exact bound_unsplit names .eq (unsplit_kept.call function.name_unsplit inner)
  | .duration literal, _ => bound_unsplit names .eq literal.text_unsplit
  | .raw _, named => named.elim
  | .template _ _, named => named.elim
  | .resource resource, named =>
    bound_unsplit names .eq (Uri.encodeResource_inert named).unsplit
  | .count none, _ => (FilterOperation.countPath_inert names).unsplit
  | .count (some filter), named => by
    have inner := filter.expressionAt_unsplit (List.forall_mem_nil _) none named
    exact unsplit_kept.count (FilterOperation.countPath_inert names).unsplit inner
  | .and operand, named =>
    bound_unsplit names .eq (operand.expressionAt_unsplit (List.forall_mem_nil _) _ named)
  | .or operand, named =>
    bound_unsplit names .eq (operand.expressionAt_unsplit (List.forall_mem_nil _) _ named)
  | .within (.value scalar), _ => bound_unsplit names .eq scalar.literal_unsplit
  | .within (.list items), named => by
    rw [FilterOperation.expressionAt]
    split
    · exact bound_unsplit names .within
        (unsplit_kept.values Primitive.literal_unsplit items)
    · exact unsplit_kept.joined .or (Filter.expressionList_unsplit names items named)
  | .within (.object entries), named =>
    unsplit_kept.joined .or (FilterEntry.expressionList_unsplit names entries named)
  | .not operand, named => by
    have inner := operand.expressionAt_unsplit (List.forall_mem_nil _) none named
    have name : Unsplit "not".toList := by decide
    exact bound_unsplit names .eq (unsplit_kept.call name (List.forall_mem_singleton.mpr inner))
  | .lambda quantifier binder body, named => by
    have inner := body.expressionAt_unsplit (List.forall_mem_nil _) none named.2
    exact bound_unsplit names .step (lambda_unsplit quantifier named.1 inner)
  | .method scope method arguments, named => by
    obtain ⟨scopeNamed, methodNamed, rest⟩ := named
    have inner := Filter.expressionList_unsplit (List.forall_mem_nil _) arguments rest
    have callee : Inert (Uri.encodeComponent scope.toList ++
        '.' :: Uri.encodeComponent method.toList) :=
      inert_append.mpr ⟨Uri.encodeComponent_inert scopeNamed,
        inert_cons.mpr ⟨rfl, Uri.encodeComponent_inert methodNamed⟩⟩
    exact bound_unsplit names .step (unsplit_kept.call callee.unsplit inner)
  | .canAccess, _ => by
    have name : Unsplit "canAccess".toList := by decide
    exact bound_unsplit names .step (unsplit_kept.call name (List.forall_mem_nil _))

end

/-- A filter with plain names stays in one piece among options. -/
theorem Filter.expression_unsplit {filter : Filter}
    (named : filter.Named IsBracketless IsBracketless) : Unsplit filter.expression.bare :=
  filter.expressionAt_unsplit (List.forall_mem_nil _) none named

end OData
