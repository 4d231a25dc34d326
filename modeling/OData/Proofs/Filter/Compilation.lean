import Mathlib
import OData.Proofs.Filter.Denotation
import OData.Proofs.Filter.Site

namespace OData

variable {α β : Type}

/-- A computation that checks some sites in order and, if all keep their rules, returns a value. -/
def Checks (sites : List FilterSite) (outcome : Except Error α) (value : α) : Prop :=
  outcome = (FilterSite.checkAll sites).map fun _ => value

namespace Checks

theorem ok (value : α) : Checks [] (.ok value) value := rfl

theorem of_eq {written value : α} (same : written = value) : Checks [] (.ok written) value :=
  congrArg Except.ok same

theorem site (site : FilterSite) : Checks [site] site.check () := by
  unfold Checks FilterSite.checkAll
  cases site.check <;> rfl

theorem bind {first : Except Error α} {next : α → Except Error β} {sites later : List FilterSite}
    {value : α} {result : β} (head : Checks sites first value)
    (tail : Checks later (next value) result) : Checks (sites ++ later) (first >>= next) result := by
  unfold Checks at *
  rw [head, FilterSite.checkAll_append]
  cases FilterSite.checkAll sites with
  | error error => rfl
  | ok passed => exact tail

/-- What follows on a computation without checking anything. -/
theorem andThen {first : Except Error α} {next : α → Except Error β} {sites : List FilterSite}
    {value : α} {result : β} (head : Checks sites first value) (run : next value = .ok result) :
    Checks sites (first >>= next) result := by
  unfold Checks at *
  rw [head]
  cases FilterSite.checkAll sites with
  | error error => rfl
  | ok passed => exact run

/-- Such a computation returns its value exactly when every site keeps its rule. -/
theorem eq_ok_iff {sites : List FilterSite} {outcome : Except Error α} {value result : α}
    (checks : Checks sites outcome value) :
    outcome = .ok result ↔ (∀ site ∈ sites, site.Allowed) ∧ value = result := by
  unfold Checks at checks
  rw [checks, ← FilterSite.checkAll_ok_iff]
  cases FilterSite.checkAll sites with
  | error error => exact ⟨nofun, fun both => nomatch both.1⟩
  | ok passed => exact ⟨fun run => ⟨rfl, Except.ok.inj run⟩, fun both => congrArg Except.ok both.2⟩

theorem eq_error_iff {sites : List FilterSite} {outcome : Except Error α} {value : α}
    {error : Error} (checks : Checks sites outcome value) :
    outcome = .error error ↔ FilterSite.checkAll sites = .error error := by
  unfold Checks at checks
  rw [checks]
  cases FilterSite.checkAll sites with
  | error error => exact ⟨congrArg _ ∘ Except.error.inj, congrArg _ ∘ Except.error.inj⟩
  | ok passed => exact ⟨nofun, nofun⟩

end Checks

/-- A site that keeps its rule may stand in front. -/
theorem Checks.cons {site : FilterSite} {sites : List FilterSite} {outcome : Except Error α}
    {value : α} (allowed : site.Allowed) (rest : Checks sites outcome value) :
    Checks (site :: sites) outcome value := by
  unfold Checks at *
  rw [FilterSite.checkAll_cons_of_allowed sites allowed, rest]

/-- A computation behind a single site that is refused with the site. -/
theorem Checks.refused {site : FilterSite} {value : α} (broken : ¬ site.Allowed) :
    Checks [site] (.error site.error) value := by
  unfold Checks
  rw [FilterSite.checkAll_cons_of_not_allowed [] broken]
  rfl

theorem requireItems_checks (least : Nat) (items : List Filter) :
    Checks [.list least items] (requireItems least items) () := by
  have same : requireItems least items = (FilterSite.list least items).check := by
    by_cases enough : (FilterSite.list least items).Allowed
    · rw [FilterSite.check_of_allowed enough]
      exact if_neg (Nat.not_lt.mpr enough)
    · rw [FilterSite.check_of_not_allowed enough]
      exact if_pos (Nat.not_le.mp enough)
  rw [same]
  exact .site _

theorem FilterPlace.step?_checks (place : FilterPlace) (name : String) :
    Checks [.property place.context] (place.step? name)
      { place with path := place.path ++ [name] } := by
  have refused : (place.path ≠ [] ∧ place.inLambda = false) ↔
      ¬ (FilterSite.property place.context).Allowed := by
    obtain ⟨inLambda, path⟩ := place
    cases inLambda <;> cases path <;> simp [FilterSite.Allowed, FilterPlace.context]
  have same : place.step? name = (FilterSite.property place.context).check >>= fun _ =>
      .ok { place with path := place.path ++ [name] } := by
    by_cases allowed : (FilterSite.property place.context).Allowed
    · rw [FilterSite.check_of_allowed allowed]
      exact if_neg (fun open_ => refused.mp open_ allowed)
    · rw [FilterSite.check_of_not_allowed allowed]
      exact if_pos (refused.mpr allowed)
  rw [same]
  exact (Checks.site _).andThen rfl

theorem FilterPlace.context_step (place : FilterPlace) (name : String) :
    FilterPlace.context { place with path := place.path ++ [name] } = place.context.stepped := by
  cases path : place.path <;> simp [FilterPlace.context, FilterContext.stepped]

theorem DurationLiteral.partText_eq_nil_iff {part : Double} {unit : Char} :
    partText part unit = [] ↔ part.isNonzero = false := by
  unfold partText
  split <;> simp_all

/-- A duration is written exactly when one of its parts is set. -/
theorem DurationLiteral.literal_checks (d : DurationLiteral) :
    Checks [.duration d] d.literal d.text := by
  have unset : (partText d.days 'D' = [] ∧
      partText d.hours 'H' ++ partText d.minutes 'M' ++ partText d.seconds 'S' = []) ↔
      ¬ (FilterSite.duration d).Allowed := by
    simp only [FilterSite.Allowed, parts, List.append_eq_nil_iff, partText_eq_nil_iff,
      List.exists_mem_cons_iff, not_or, Bool.not_eq_true, List.not_mem_nil, false_and,
      exists_false, not_false_eq_true, and_true, and_assoc]
  have same : d.literal = (FilterSite.duration d).check >>= fun _ => .ok d.text := by
    by_cases allowed : (FilterSite.duration d).Allowed
    · rw [FilterSite.check_of_allowed allowed]
      exact if_neg (fun empty => unset.mp empty allowed)
    · rw [FilterSite.check_of_not_allowed allowed]
      exact if_pos (unset.mpr allowed)
  rw [same]
  exact (Checks.site _).andThen rfl

namespace Expression

theorem term_bound_of_ne_step (path : List String) (connective : Connective)
    (expression : Expression) (between : connective ≠ .step) :
    expression.term.bind path connective = (bound path connective expression).term :=
  term_bound path fun isStep => absurd isStep between

/-- A literal is bound as a single piece. -/
theorem term_literal (path : List String) (connective : Connective) (text : Text)
    (between : connective ≠ .step) :
    (Term.atom text).bind path connective = (literal path connective text).term :=
  term_bound_of_ne_step path connective (.leaf text) between

theorem term_call (callee : Text) (arguments : List Expression) :
    Term.call callee ((arguments.map term).map Term.bare) = (call callee arguments).term := by
  have bareTerms : (arguments.map term).map Term.bare = arguments.map bare := by
    rw [List.map_map]
    exact List.map_congr_left fun argument _ => bare_term argument
  rw [bareTerms]
  simp [Term.call, term, isChain, bare, bareTexts_eq_map]

theorem term_lambda (quantifier : Quantifier) (binder : Text) (body : Expression) :
    Term.atom (quantifier.name.toList ++ '(' :: binder ++ ':' :: body.bare ++ [')']) =
      (lambda quantifier binder body).term := by
  simp [term, isChain, bare]

theorem term_count (path : Text) (filter : Expression) :
    Term.atom (path ++ "($filter=".toList ++ filter.bare ++ [')']) = (count path filter).term := by
  simp [term, isChain, bare]

theorem compareEntries_term (op : BinaryOperator) (path : List String) {operands : List Expression}
    (nonempty : operands ≠ []) :
    compareEntries op path (operands.map term) = .ok (compared op path operands).term := by
  match operands with
  | [] => exact absurd rfl nonempty
  | [operand] => exact congrArg Except.ok (term_bound_of_ne_step path (.operator op) operand nofun)
  | first :: second :: rest =>
    have several := term_joined (.operator op) (first :: second :: rest)
    have bound := term_bound_of_ne_step path .eq
      (joined (.operator op) (first :: second :: rest)) nofun
    rw [← several] at bound
    exact congrArg Except.ok bound

end Expression

open Expression (term_bound term_bound_of_ne_step term_joined term_literal term_call term_lambda
  term_count compareEntries_term)

theorem Filter.compileList_values {items : List Filter} (place : FilterPlace)
    (values : items.all Filter.isValue = true) :
    Filter.compileList place.detached items =
      .ok ((items.filterMap Filter.literal?).map Term.atom) := by
  induction items with
  | nil => rfl
  | cons item rest ih =>
    rw [List.all_cons, Bool.and_eq_true] at values
    cases item with
    | value scalar =>
      rw [Filter.compileList, ih values.2]
      rfl
    | list items => exact Bool.noConfusion values.1
    | object entries => exact Bool.noConfusion values.1

theorem Filter.listSites_values {items : List Filter} (context : FilterContext)
    (values : items.all Filter.isValue = true) : Filter.listSites context items = [] := by
  induction items with
  | nil => rfl
  | cons item rest ih =>
    rw [List.all_cons, Bool.and_eq_true] at values
    cases item with
    | value scalar => rw [Filter.listSites, ih values.2, Filter.sites, List.nil_append]
    | list items => exact Bool.noConfusion values.1
    | object entries => exact Bool.noConfusion values.1

theorem FilterEntry.expressionList_eq_nil_iff {path : List String} {entries : List FilterEntry} :
    FilterEntry.expressionList path entries = [] ↔ entries = [] := by
  cases entries <;> simp [FilterEntry.expressionList]

mutual

/-- Compilation checks the sites in order and then writes the expression; every part of a filter
does so by itself, wherever it stands. What is accepted does not depend on any text, and what is
written does not depend on any check. -/
theorem Filter.compileAt_checks (place : FilterPlace) (joint : Option Connective) :
    (filter : Filter) → Checks (filter.sites place.context) (filter.compileAt place joint)
      (filter.expressionAt place.path joint).term
  | .value scalar =>
    .of_eq (term_literal place.path .eq scalar.literal nofun)
  | .list items => by
    have inner := Filter.compileList_checks place.detached items
    refine (requireItems_checks 2 items).bind (inner.andThen (congrArg Except.ok ?_))
    rw [term_joined]
    exact term_bound_of_ne_step place.path .eq _ nofun
  | .object entries => by
    have inner := FilterEntry.compileList_checks place entries
    exact inner.andThen (congrArg Except.ok (term_joined _ _))

theorem Filter.compileList_checks (place : FilterPlace) :
    (items : List Filter) → Checks (Filter.listSites place.context items)
      (Filter.compileList place items)
      ((Filter.expressionList place.path items).map Expression.term)
  | [] => .ok _
  | filter :: rest =>
    (filter.compileAt_checks place none).bind
      ((Filter.compileList_checks place rest).andThen rfl)

theorem FilterEntry.compileList_checks (place : FilterPlace) :
    (entries : List FilterEntry) → Checks (FilterEntry.listSites place.context entries)
      (FilterEntry.compileList place entries)
      ((FilterEntry.expressionList place.path entries).map Expression.term)
  | [] => .ok _
  | entry :: rest =>
    (entry.compileAt_checks place).bind
      ((FilterEntry.compileList_checks place rest).andThen rfl)

theorem FilterEntry.compileAt_checks (place : FilterPlace) :
    (entry : FilterEntry) → Checks (entry.sites place.context) (entry.compileAt place)
      (entry.expressionAt place.path).term
  | .property name filter => by
    have inner := filter.compileAt_checks { place with path := place.path ++ [name] } none
    rw [place.context_step name] at inner
    exact (place.step?_checks name).bind inner
  | .parameter name =>
    .of_eq (term_literal place.path .eq (Uri.encodeAlias name) nofun)
  | .operation operation => operation.compileAt_checks place

theorem FilterOperation.compileAt_checks (place : FilterPlace) :
    (operation : FilterOperation) → Checks (operation.sites place.context)
      (operation.compileAt place) (operation.expressionAt place.path).term
  | .compare op (.value scalar) =>
    .of_eq (term_literal place.path (.operator op) scalar.literal nofun)
  | .compare op (.list items) => by
    have inner := Filter.compileList_checks place.detached items
    refine (requireItems_checks 2 items).bind (inner.andThen (congrArg Except.ok ?_))
    rw [term_joined]
    exact term_bound_of_ne_step place.path .eq _ nofun
  | .compare op (.object entries) => by
    have inner := FilterEntry.compileList_checks place.detached entries
    by_cases empty : entries = []
    · subst empty
      exact Checks.refused fun allowed => allowed rfl
    · refine Checks.cons empty (inner.andThen (compareEntries_term op place.path ?_))
      exact fun none => empty (FilterEntry.expressionList_eq_nil_iff.mp none)
  | .apply function (.value scalar) => by
    have same : Term.call function.name.toList
        ((if place.path = [] then [] else [Uri.encodePath place.path]) ++
          (if scalar.isNull then [] else [scalar.literal])) =
        (Expression.applied function place.path scalar).term := by
      unfold Expression.applied
      rw [← term_call]
      split <;> split <;> rfl
    exact .of_eq same
  | .apply function (.list items) => by
    have inner := Filter.compileList_checks place.detached items
    refine (requireItems_checks 2 items).bind (inner.andThen (congrArg Except.ok ?_))
    rw [term_call]
    exact term_bound_of_ne_step place.path .eq _ nofun
  | .apply function (.object entries) => by
    have inner := FilterEntry.compileList_checks place.detached entries
    refine inner.andThen (congrArg Except.ok ?_)
    rw [term_call]
    exact term_bound_of_ne_step place.path .eq _ nofun
  | .duration literal => by
    refine literal.literal_checks.andThen (congrArg Except.ok ?_)
    exact term_literal place.path .eq literal.text nofun
  | .raw text => .of_eq (term_literal place.path .eq ('(' :: text.toList ++ [')']) nofun)
  | .template text parameters => by
    have inner := Filter.compileParameters_checks place parameters
    refine inner.andThen (congrArg Except.ok ?_)
    exact term_literal place.path .eq _ nofun
  | .resource path => .of_eq (term_literal place.path .eq (Uri.encodeResource path) nofun)
  | .count none => .ok _
  | .count (some filter) => by
    have inner := filter.compileAt_checks place.detached none
    refine inner.andThen (congrArg Except.ok ?_)
    rw [Expression.bare_term]
    exact term_count (FilterOperation.countPath place.path) (filter.expressionAt [] none)
  | .and operand => by
    have inner := operand.compileAt_checks place.detached (some .and)
    exact inner.andThen (congrArg Except.ok (term_bound_of_ne_step place.path .eq _ nofun))
  | .or operand => by
    have inner := operand.compileAt_checks place.detached (some .or)
    exact inner.andThen (congrArg Except.ok (term_bound_of_ne_step place.path .eq _ nofun))
  | .within (.value scalar) => .of_eq (term_literal place.path .eq scalar.literal nofun)
  | .within (.list items) => by
    by_cases values : items.all Filter.isValue = true
    -- values have no sites, so the list is the only one
    · have compiled := Filter.compileList_values place values
      rw [FilterOperation.compileAt, FilterOperation.sites, FilterOperation.expressionAt,
        Filter.listSites_values _ values, if_pos values]
      refine (requireItems_checks 1 items).andThen ?_
      rw [if_pos values, compiled]
      have literals : ((items.filterMap Filter.literal?).map Term.atom).map Term.grouped =
          items.filterMap Filter.literal? := by
        rw [List.map_map]
        exact List.map_id _
      refine congrArg Except.ok ?_
      rw [literals]
      exact term_bound_of_ne_step place.path .within (.values (items.filterMap Filter.literal?)) nofun
    · have inner := Filter.compileList_checks place items
      rw [FilterOperation.compileAt, FilterOperation.sites, FilterOperation.expressionAt,
        if_neg values]
      refine (requireItems_checks 1 items).bind ?_
      rw [if_neg values]
      exact inner.andThen (congrArg Except.ok (term_joined _ _))
  | .within (.object entries) => by
    have inner := FilterEntry.compileList_checks place entries
    by_cases empty : entries = []
    · subst empty
      exact Checks.refused fun allowed => allowed rfl
    · refine Checks.cons empty (inner.andThen ?_)
      have several : ¬ ((FilterEntry.expressionList place.path entries).map
          Expression.term).isEmpty = true := by
        rw [List.isEmpty_iff, List.map_eq_nil_iff]
        exact fun none => empty (FilterEntry.expressionList_eq_nil_iff.mp none)
      rw [if_neg several]
      exact congrArg Except.ok (term_joined _ _)
  | .not operand => by
    have inner := operand.compileAt_checks place.detached none
    refine inner.andThen (congrArg Except.ok ?_)
    have call : Term.atom ("not(".toList ++ (operand.expressionAt [] none).term.bare ++ [')']) =
        (Expression.call "not".toList [operand.expressionAt [] none]).term :=
      term_call "not".toList [operand.expressionAt [] none]
    rw [FilterPlace.detached, call]
    exact term_bound_of_ne_step place.path .eq _ nofun
  | .lambda quantifier binder body => by
    -- the place of the body is made anew; that of the lambda expression stays what it was
    have inner := body.compileAt_checks ⟨true, []⟩ none
    refine inner.andThen (congrArg Except.ok ?_)
    rw [Expression.bare_term, term_lambda]
    exact term_bound place.path fun _ => rfl
  | .method scope name arguments => by
    have inner := Filter.compileList_checks place.detached arguments
    refine inner.andThen (congrArg Except.ok ?_)
    rw [term_call]
    exact term_bound place.path fun _ => rfl
  | .canAccess => by
    have call : Term.atom "canAccess()".toList = (Expression.call "canAccess".toList []).term :=
      term_call "canAccess".toList []
    refine .of_eq ?_
    rw [call]
    exact term_bound place.path fun _ => rfl

/-- Parameters are compiled without the path around the template. -/
theorem Filter.compileParameters_checks (place : FilterPlace) :
    (parameters : List (String × Filter)) →
      Checks (Filter.parameterSites place.detached.context parameters)
        (Filter.compileParameters place.detached parameters)
        ((Filter.parameterExpressions parameters).map fun (name, value) => (name, value.term))
  | [] => .ok _
  | (_, filter) :: rest =>
    (filter.compileAt_checks place.detached none).bind
      ((Filter.compileParameters_checks place rest).andThen rfl)

end

/-- The text of a filter that is accepted is that of its expression. -/
theorem Filter.compile_checks (filter : Filter) :
    Checks (filter.sites .top) filter.compile filter.expression.bare := by
  have whole : Checks (filter.sites .top) (filter.compileAt .top none) filter.expression.term :=
    filter.compileAt_checks .top none
  have text : (Except.ok filter.expression.term.bare : Except Error Text) =
      .ok filter.expression.bare := congrArg Except.ok (Expression.bare_term _)
  unfold Filter.compile
  rw [map_eq_pure_bind]
  exact whole.andThen text

end OData
