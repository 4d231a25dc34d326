import Mathlib
import OData.Proofs.Filter.Compilation
import OData.Proofs.Filter.Word

namespace OData

open Text

mutual

/-- Nothing in the filter is written verbatim that could be taken for something else: there are no
templates, names have no brackets, and an object has conditions, unless a function is called on it. -/
def Filter.Readable : Filter → Prop
  | .value _ => True
  | .list items => Filter.ListReadable items
  | .object entries => entries ≠ [] ∧ FilterEntry.ListReadable entries

def Filter.ListReadable : List Filter → Prop
  | [] => True
  | filter :: rest => filter.Readable ∧ Filter.ListReadable rest

def FilterEntry.ListReadable : List FilterEntry → Prop
  | [] => True
  | entry :: rest => entry.Readable ∧ FilterEntry.ListReadable rest

def FilterEntry.Readable : FilterEntry → Prop
  | .property name filter => IsName name ∧ filter.Readable
  | .parameter name => IsName name
  | .operation operation => operation.Readable

def FilterOperation.Readable : FilterOperation → Prop
  | .compare _ operand => operand.Readable
  | .apply _ (.value _) => True
  | .apply _ (.list items) => Filter.ListReadable items
  | .apply _ (.object entries) => FilterEntry.ListReadable entries
  | .duration _ => True
  | .raw _ => False
  | .template _ _ => False
  | .resource path => path.Readable
  | .count none => True
  | .count (some filter) => filter.Readable
  | .and operand => operand.Readable
  | .or operand => operand.Readable
  | .within operand => operand.Readable
  | .not operand => operand.Readable
  | .lambda _ binder body => IsBinder binder ∧ body.Readable
  | .method scope name arguments => IsName scope ∧ IsName name ∧ Filter.ListReadable arguments
  | .canAccess => True

end

namespace Expression

theorem joined_wellFormed (connective : Connective) {operands : List Expression}
    (nonempty : operands ≠ []) (wellFormed : ListWellFormed operands)
    (between : connective ≠ .step) : (joined connective operands).WellFormed := by
  match operands with
  | [operand] => exact wellFormed.1
  | first :: second :: others => exact ⟨between, by simp, wellFormed⟩

theorem bound_wellFormed {path : List String} (names : ∀ name ∈ path, IsName name)
    {connective : Connective} {expression : Expression} (wellFormed : expression.WellFormed)
    (stepsToCall : connective = .step → expression.isCall = true) :
    (bound path connective expression).WellFormed := by
  cases path with
  | nil => exact wellFormed
  | cons first rest =>
    have isWord := Uri.encodePath_isWord (List.cons_ne_nil first rest) names
    cases connective with
    | step => exact ⟨isWord, stepsToCall rfl, wellFormed⟩
    | and | or | within | operator _ => exact ⟨by simp, Nat.le_refl 2, isWord, wellFormed, trivial⟩

/-- Any expression is bound by a connective that is not a step. -/
theorem bound_infix_wellFormed {path : List String} (names : ∀ name ∈ path, IsName name)
    (connective : Connective) {expression : Expression} (wellFormed : expression.WellFormed)
    (between : connective ≠ .step) : (bound path connective expression).WellFormed :=
  bound_wellFormed names wellFormed fun isStep => absurd isStep between

theorem literal_wellFormed {path : List String} (names : ∀ name ∈ path, IsName name)
    (connective : Connective) {text : Text} (isWord : IsWord text) (between : connective ≠ .step) :
    (literal path connective text).WellFormed :=
  bound_infix_wellFormed names connective isWord between

theorem compared_wellFormed (op : BinaryOperator) {path : List String}
    (names : ∀ name ∈ path, IsName name) {operands : List Expression} (nonempty : operands ≠ [])
    (wellFormed : ListWellFormed operands) : (compared op path operands).WellFormed := by
  match operands with
  | [operand] => exact bound_infix_wellFormed names (.operator op) wellFormed.1 (by simp)
  | first :: second :: others =>
    have all := joined_wellFormed (.operator op) nonempty wellFormed (by simp)
    exact bound_infix_wellFormed names .eq all (by simp)

theorem listWellFormed_append {first second : List Expression} (front : ListWellFormed first)
    (back : ListWellFormed second) : ListWellFormed (first ++ second) := by
  induction first with
  | nil => exact back
  | cons expression rest ih => exact ⟨front.1, ih front.2⟩

theorem applied_wellFormed (function : FilterFunction) {path : List String}
    (names : ∀ name ∈ path, IsName name) (scalar : Primitive) :
    (applied function path scalar).WellFormed := by
  refine ⟨function.isCallee, listWellFormed_append ?subject ?argument⟩
  case subject =>
    split
    · exact trivial
    case isFalse nonempty => exact ⟨Uri.encodePath_isWord nonempty names, trivial⟩
  case argument =>
    split
    · exact trivial
    · exact ⟨scalar.literal_isWord, trivial⟩

end Expression

theorem Filter.expressionList_ne_nil (path : List String) {items : List Filter} {least : Nat}
    (positive : 0 < least) (enough : (FilterSite.list least items).Allowed) :
    Filter.expressionList path items ≠ [] := by
  cases items with
  | nil => exact absurd enough (Nat.not_le.mpr positive)
  | cons filter rest => exact List.cons_ne_nil _ _

theorem FilterEntry.expressionList_ne_nil (path : List String) {entries : List FilterEntry}
    (nonempty : entries ≠ []) : FilterEntry.expressionList path entries ≠ [] :=
  fun none => nonempty (FilterEntry.expressionList_eq_nil_iff.mp none)

theorem Filter.values_wellFormed {items : List Filter}
    (enough : (FilterSite.list 1 items).Allowed) (values : items.all Filter.isValue = true) :
    (Expression.values (items.filterMap Filter.literal?)).WellFormed := by
  constructor
  · match items with
    | [] => exact absurd enough (Nat.not_succ_le_zero 0)
    | .value scalar :: rest => simp [Filter.literal?]
    | .list items :: rest => exact Bool.noConfusion (Bool.and_eq_true_iff.mp values).1
    | .object entries :: rest => exact Bool.noConfusion (Bool.and_eq_true_iff.mp values).1
  · intro text member
    obtain ⟨scalar, rfl⟩ := Filter.exists_scalar_of_mem member
    exact scalar.literal_isWord

theorem forall_mem_snoc {path : List String} {name : String} (names : ∀ other ∈ path, IsName other)
    (isName : IsName name) : ∀ other ∈ path ++ [name], IsName other :=
  List.forall_mem_append.mpr ⟨names, List.forall_mem_singleton.mpr isName⟩

open Expression (WellFormed ListWellFormed joined_wellFormed bound_infix_wellFormed
  literal_wellFormed compared_wellFormed applied_wellFormed bound_wellFormed)

mutual

/-- A readable filter whose sites keep their rules denotes a well-formed expression. -/
theorem Filter.expressionAt_wellFormed {path : List String} (names : ∀ name ∈ path, IsName name)
    (joint : Option Connective) (between : joint ≠ some .step) (context : FilterContext) :
    (filter : Filter) → filter.Readable → (∀ site ∈ filter.sites context, site.Allowed) →
      (filter.expressionAt path joint).WellFormed
  | .value scalar, _, _ => literal_wellFormed names .eq scalar.literal_isWord nofun
  | .list items, readable, allowed => by
    rw [Filter.sites, List.forall_mem_cons] at allowed
    have inner := Filter.expressionList_wellFormed (List.forall_mem_nil _) context.detached items
      readable allowed.2
    have nonempty := Filter.expressionList_ne_nil [] Nat.two_pos allowed.1
    refine bound_infix_wellFormed names .eq (joined_wellFormed _ nonempty inner ?_) nofun
    cases joint with
    | none => nofun
    | some connective => exact fun isStep => between (congrArg some isStep)
  | .object entries, readable, allowed => by
    have inner := FilterEntry.expressionList_wellFormed names context entries readable.2 allowed
    refine joined_wellFormed _ (FilterEntry.expressionList_ne_nil path readable.1) inner ?_
    cases joint with
    | none => nofun
    | some connective => exact fun isStep => between (congrArg some isStep)

theorem Filter.expressionList_wellFormed {path : List String} (names : ∀ name ∈ path, IsName name)
    (context : FilterContext) :
    (items : List Filter) → Filter.ListReadable items →
      (∀ site ∈ Filter.listSites context items, site.Allowed) →
      ListWellFormed (Filter.expressionList path items)
  | [], _, _ => trivial
  | filter :: rest, readable, allowed => by
    rw [Filter.listSites, List.forall_mem_append] at allowed
    exact ⟨filter.expressionAt_wellFormed names none nofun context readable.1 allowed.1,
      Filter.expressionList_wellFormed names context rest readable.2 allowed.2⟩

theorem FilterEntry.expressionList_wellFormed {path : List String}
    (names : ∀ name ∈ path, IsName name) (context : FilterContext) :
    (entries : List FilterEntry) → FilterEntry.ListReadable entries →
      (∀ site ∈ FilterEntry.listSites context entries, site.Allowed) →
      ListWellFormed (FilterEntry.expressionList path entries)
  | [], _, _ => trivial
  | entry :: rest, readable, allowed => by
    rw [FilterEntry.listSites, List.forall_mem_append] at allowed
    exact ⟨entry.expressionAt_wellFormed names context readable.1 allowed.1,
      FilterEntry.expressionList_wellFormed names context rest readable.2 allowed.2⟩

theorem FilterEntry.expressionAt_wellFormed {path : List String}
    (names : ∀ name ∈ path, IsName name) (context : FilterContext) :
    (entry : FilterEntry) → entry.Readable → (∀ site ∈ entry.sites context, site.Allowed) →
      (entry.expressionAt path).WellFormed
  | .property name filter, readable, allowed => by
    rw [FilterEntry.sites, List.forall_mem_cons] at allowed
    exact filter.expressionAt_wellFormed (forall_mem_snoc names readable.1) none nofun context.stepped
      readable.2 allowed.2
  | .parameter name, readable, _ =>
    literal_wellFormed names .eq (Uri.encodeAlias_isWord readable) nofun
  | .operation operation, readable, allowed =>
    operation.expressionAt_wellFormed names context readable allowed

theorem FilterOperation.expressionAt_wellFormed {path : List String}
    (names : ∀ name ∈ path, IsName name) (context : FilterContext) :
    (operation : FilterOperation) → operation.Readable →
      (∀ site ∈ operation.sites context, site.Allowed) →
      (operation.expressionAt path).WellFormed
  | .compare op (.value scalar), _, _ =>
    literal_wellFormed names (.operator op) scalar.literal_isWord nofun
  | .compare op (.list items), readable, allowed => by
    rw [FilterOperation.sites, List.forall_mem_cons] at allowed
    have inner := Filter.expressionList_wellFormed (List.forall_mem_nil _) context.detached items
      readable allowed.2
    have nonempty := Filter.expressionList_ne_nil [] Nat.two_pos allowed.1
    exact bound_infix_wellFormed names .eq (joined_wellFormed _ nonempty inner nofun) nofun
  | .compare op (.object entries), readable, allowed => by
    rw [FilterOperation.sites, List.forall_mem_cons] at allowed
    have inner := FilterEntry.expressionList_wellFormed (List.forall_mem_nil _) context.detached
      entries readable.2 allowed.2
    exact compared_wellFormed op names (FilterEntry.expressionList_ne_nil [] allowed.1) inner
  | .apply function (.value scalar), _, _ => applied_wellFormed function names scalar
  | .apply function (.list items), readable, allowed => by
    rw [FilterOperation.sites, Filter.sites, List.forall_mem_cons] at allowed
    have inner := Filter.expressionList_wellFormed (List.forall_mem_nil _) context.detached.detached
      items readable allowed.2
    exact bound_infix_wellFormed names .eq ⟨function.isCallee, inner⟩ nofun
  | .apply function (.object entries), readable, allowed => by
    have inner := FilterEntry.expressionList_wellFormed (List.forall_mem_nil _) context.detached
      entries readable allowed
    exact bound_infix_wellFormed names .eq ⟨function.isCallee, inner⟩ nofun
  | .duration literal, _, _ => literal_wellFormed names .eq literal.text_isWord nofun
  | .raw _, readable, _ => readable.elim
  | .template _ _, readable, _ => readable.elim
  | .resource path, readable, _ =>
    literal_wellFormed names .eq (Uri.encodeResource_isWord readable) nofun
  | .count none, _, _ => FilterOperation.countPath_isWord names
  | .count (some filter), readable, allowed => by
    have inner := filter.expressionAt_wellFormed (List.forall_mem_nil _) none nofun context.detached
      readable allowed
    exact ⟨FilterOperation.countPath_isWord names, FilterOperation.splitCallee_countPath path, inner⟩
  | .and operand, readable, allowed => by
    have inner := operand.expressionAt_wellFormed (List.forall_mem_nil _) (some .and) nofun
      context.detached readable allowed
    exact bound_infix_wellFormed names .eq inner nofun
  | .or operand, readable, allowed => by
    have inner := operand.expressionAt_wellFormed (List.forall_mem_nil _) (some .or) nofun
      context.detached readable allowed
    exact bound_infix_wellFormed names .eq inner nofun
  | .within (.value scalar), _, _ => literal_wellFormed names .eq scalar.literal_isWord nofun
  | .within (.list items), readable, allowed => by
    rw [FilterOperation.sites, List.forall_mem_cons] at allowed
    rw [FilterOperation.expressionAt]
    split
    case isTrue values =>
      exact bound_infix_wellFormed names .within (Filter.values_wellFormed allowed.1 values) nofun
    case isFalse =>
      have inner := Filter.expressionList_wellFormed names context items readable allowed.2
      exact joined_wellFormed .or (Filter.expressionList_ne_nil path Nat.one_pos allowed.1) inner nofun
  | .within (.object entries), readable, allowed => by
    rw [FilterOperation.sites, List.forall_mem_cons] at allowed
    have inner := FilterEntry.expressionList_wellFormed names context entries readable.2 allowed.2
    exact joined_wellFormed .or (FilterEntry.expressionList_ne_nil path allowed.1) inner nofun
  | .not operand, readable, allowed => by
    have inner := operand.expressionAt_wellFormed (List.forall_mem_nil _) none nofun
      context.detached readable allowed
    have isCallee : Expression.IsCallee "not".toList := ⟨⟨nofun, rfl⟩, by decide, by decide⟩
    exact bound_infix_wellFormed names .eq ⟨isCallee, inner, trivial⟩ nofun
  | .lambda quantifier binder body, readable, allowed => by
    have inner := body.expressionAt_wellFormed (List.forall_mem_nil _) none nofun .lambdaBody
      readable.2 allowed
    have lambda : (Expression.lambda quantifier binder.toList
        (body.expressionAt [] none)).WellFormed := ⟨readable.1.isWord, inner⟩
    exact bound_wellFormed names lambda fun _ => rfl
  | .method scope name arguments, readable, allowed => by
    obtain ⟨isScope, isName, rest⟩ := readable
    have inner := Filter.expressionList_wellFormed (List.forall_mem_nil _) context.detached
      arguments rest allowed
    have call : (Expression.call _ _).WellFormed := ⟨isCallee_method isScope isName, inner⟩
    exact bound_wellFormed names call fun _ => rfl
  | .canAccess, _, _ => by
    have isCallee : Expression.IsCallee "canAccess".toList := ⟨⟨nofun, rfl⟩, by decide, by decide⟩
    have call : (Expression.call "canAccess".toList []).WellFormed := ⟨isCallee, trivial⟩
    exact bound_wellFormed names call fun _ => rfl

end

/-- The text of a readable filter is read as the expression that the filter denotes. -/
theorem Filter.read_compile {filter : Filter} {text : Text} (readable : filter.Readable)
    (run : filter.compile = .ok text) : Expression.read? text = some filter.expression := by
  obtain ⟨allowed, written⟩ := filter.compile_checks.eq_ok_iff.mp run
  have wellFormed := filter.expressionAt_wellFormed (List.forall_mem_nil _) none nofun .top readable
    allowed
  rw [← written]
  exact Expression.read?_bare wellFormed

/-- A call at the end of a path, a sum that is compared and a membership; all marks of the reader stand
inside the quotes. -/
theorem Filter.read_compile_nested :
    Expression.read?
        "(Items/any(x:x/Name eq 'it''s%20(a%2C%20b)')) and (Price eq (2 add Tax)) and (Id in (1, 2))".toList =
      some (.chain .and [
        .step "Items".toList (.lambda .any ['x']
          (.chain .eq [.leaf "x/Name".toList, .leaf "'it''s%20(a%2C%20b)'".toList])),
        .chain .eq [.leaf "Price".toList,
          .chain (.operator .add) [.leaf ['2'], .leaf "Tax".toList]],
        .chain .within [.leaf "Id".toList, .values [['1'], ['2']]]]) := by
  have name : IsName "Name" := by decide
  have items : IsName "Items" ∧ IsBinder "x" ∧ IsName "x" := by decide
  have columns : IsName "Price" ∧ IsName "Tax" ∧ IsName "Id" := by decide
  have readable : Filter.Readable (.object [
      .property "Items" (.ofOperation (.lambda .any "x"
        (.ofProperty "x" (.ofProperty "Name" (.value (.string "it's (a, b)")))))),
      .property "Price" (.ofOperation (.compare .add (.list [
        .value (.number (.integer ⟨2, by decide⟩)), .ofOperation (.resource (.single "Tax"))]))),
      .property "Id" (.ofOperation (.within (.list [
        .value (.number (.integer ⟨1, by decide⟩)),
        .value (.number (.integer ⟨2, by decide⟩))])))]) := by
    simp only [Filter.Readable, Filter.ListReadable, FilterEntry.ListReadable, FilterEntry.Readable,
      FilterOperation.Readable, Filter.ofOperation, Filter.ofProperty, ResourcePath.Readable, items,
      columns, name, ne_eq, reduceCtorEq, not_false_eq_true, and_true]
  exact Filter.read_compile readable rfl

end OData
