import Mathlib
import OData.Filter.Compile

namespace OData

variable {α β : Type}

/-- What stands immediately around a filter in an entry of an object. -/
inductive EntryFrame
  | property (name : String)
  | compare (op : BinaryOperator)
  | apply (function : FilterFunction)
  | template (text : String) (before : List (String × Filter)) (name : String)
      (after : List (String × Filter))
  | count
  | and
  | or
  | within
  | not
  | lambda (quantifier : Quantifier) (binder : String)
  | method (scope name : String) (before after : List Filter)

namespace EntryFrame

/-- The entry with the filter in its place. -/
def around (filter : Filter) : EntryFrame → FilterEntry
  | .property name => .property name filter
  | .compare op => .operation (.compare op filter)
  | .apply function => .operation (.apply function filter)
  | .template text before name after =>
    .operation (.template text (before ++ (name, filter) :: after))
  | .count => .operation (.count (some filter))
  | .and => .operation (.and filter)
  | .or => .operation (.or filter)
  | .within => .operation (.within filter)
  | .not => .operation (.not filter)
  | .lambda quantifier binder => .operation (.lambda quantifier binder filter)
  | .method scope name before after => .operation (.method scope name (before ++ filter :: after))

/-- The operations that treat an operand by its form: conjunctions, memberships, comparisons and
functions. -/
def takesForm : EntryFrame → Bool
  | .and | .within | .compare _ | .apply _ => true
  | _ => false

end EntryFrame

/-- What stands immediately around a filter in a larger one. -/
inductive FilterFrame
  | item (before after : List Filter)
  | entry (before : List FilterEntry) (kind : EntryFrame) (after : List FilterEntry)

/-- The larger filter with the filter in its place. -/
def FilterFrame.around (filter : Filter) : FilterFrame → Filter
  | .item before after => .list (before ++ filter :: after)
  | .entry before kind after => .object (before ++ kind.around filter :: after)

/-- The filter is directly the operand of an operation that treats it by its form. -/
def FilterFrame.takesForm : FilterFrame → Bool
  | .item _ _ => false
  | .entry _ kind _ => kind.takesForm

/-- A filter in all that surrounds it, the outermost first. -/
def Filter.surrounded (frames : List FilterFrame) (filter : Filter) : Filter :=
  frames.foldr (fun frame inner => frame.around inner) filter

/-- How a list with a single item is refused. -/
def Filter.aloneInList (filter : Filter) : Error := .arity (.filterList 2 [filter.toJson])

/-- Outcomes that are the same, or errors that quote the one and the other. -/
def Agrees (quotes : Error → Error → Prop) (first second : Except Error α) : Prop :=
  first = second ∨ ∃ error other, quotes error other ∧ first = .error error ∧ second = .error other

variable {quotes : Error → Error → Prop}

namespace Agrees

theorem refl (outcome : Except Error α) : Agrees quotes outcome outcome := Or.inl rfl

theorem bind {first second : Except Error α} {next after : α → Except Error β}
    (agree : Agrees quotes first second) (later : ∀ value, Agrees quotes (next value) (after value)) :
    Agrees quotes (first >>= next) (second >>= after) := by
  rcases agree with rfl | ⟨error, other, quoted, rfl, rfl⟩
  · cases first with
    | error error => exact .refl _
    | ok value => exact later value
  · exact Or.inr ⟨error, other, quoted, rfl, rfl⟩

theorem andThen {first second : Except Error α} (agree : Agrees quotes first second)
    (next : α → Except Error β) : Agrees quotes (first >>= next) (second >>= next) :=
  agree.bind fun _ => .refl _

end Agrees

/-- Filters that are no values and agree wherever they are compiled for themselves. If an operation around
them says how their terms are joined, it is as alternatives. -/
structure AgreeAlone (quotes : Error → Error → Prop) (first second : Filter) : Prop where
  unvalued : first.isValue = false ∧ second.isValue = false
  compiled : ∀ place joint, joint = none ∨ joint = some .or →
    Agrees quotes (first.compileAt place joint) (second.compileAt place joint)

/-- Filters that are no values and agree wherever they stand. -/
structure AgreeAnywhere (quotes : Error → Error → Prop) (first second : Filter) : Prop where
  unvalued : first.isValue = false ∧ second.isValue = false
  compiled : ∀ place joint, Agrees quotes (first.compileAt place joint) (second.compileAt place joint)
  compared : ∀ place op, Agrees quotes (FilterOperation.compileAt place (.compare op first))
    (FilterOperation.compileAt place (.compare op second))
  applied : ∀ place function, Agrees quotes (FilterOperation.compileAt place (.apply function first))
    (FilterOperation.compileAt place (.apply function second))
  within : ∀ place, Agrees quotes (FilterOperation.compileAt place (.within first))
    (FilterOperation.compileAt place (.within second))

variable {first second : Filter}

theorem AgreeAnywhere.alone (agree : AgreeAnywhere quotes first second) :
    AgreeAlone quotes first second :=
  ⟨agree.unvalued, fun place joint _ => agree.compiled place joint⟩

theorem Filter.compileList_agrees {place : FilterPlace}
    (agree : Agrees quotes (first.compileAt place none) (second.compileAt place none))
    (before after : List Filter) :
    Agrees quotes (Filter.compileList place (before ++ first :: after))
      (Filter.compileList place (before ++ second :: after)) := by
  induction before with
  | nil => exact agree.andThen _
  | cons item before ih => exact (Agrees.refl _).bind fun _ => ih.andThen _

theorem FilterEntry.compileList_agrees {place : FilterPlace} {first second : FilterEntry}
    (agree : Agrees quotes (first.compileAt place) (second.compileAt place))
    (before after : List FilterEntry) :
    Agrees quotes (FilterEntry.compileList place (before ++ first :: after))
      (FilterEntry.compileList place (before ++ second :: after)) := by
  induction before with
  | nil => exact agree.andThen _
  | cons entry before ih => exact (Agrees.refl _).bind fun _ => ih.andThen _

theorem Filter.compileParameters_agrees {place : FilterPlace}
    (agree : Agrees quotes (first.compileAt place none) (second.compileAt place none))
    (before after : List (String × Filter)) (name : String) :
    Agrees quotes (Filter.compileParameters place (before ++ (name, first) :: after))
      (Filter.compileParameters place (before ++ (name, second) :: after)) := by
  induction before with
  | nil => exact agree.andThen _
  | cons parameter before ih => exact (Agrees.refl _).bind fun _ => ih.andThen _

/-- Lists that are too short quote their items, and only a list of one is. -/
theorem requireItems_agrees {before after : List Filter}
    (quoted : before = [] → after = [] → quotes first.aloneInList second.aloneInList) :
    Agrees quotes (requireItems 2 (before ++ first :: after))
      (requireItems 2 (before ++ second :: after)) := by
  by_cases enough : 2 ≤ (before ++ first :: after).length
  · have alike : (before ++ second :: after).length = (before ++ first :: after).length := by simp
    rw [requireItems, requireItems, if_neg (Nat.not_lt.mpr enough), alike,
      if_neg (Nat.not_lt.mpr enough)]
    exact .refl _
  · have none : before = [] ∧ after = [] := by
      rw [List.length_append, List.length_cons] at enough
      exact ⟨List.length_eq_zero_iff.mp (by omega), List.length_eq_zero_iff.mp (by omega)⟩
    obtain ⟨rfl, rfl⟩ := none
    exact Or.inr ⟨_, _, quoted rfl rfl, rfl, rfl⟩

/-- In a list filters need to agree for themselves only, whatever is done with the list. -/
theorem AgreeAlone.item (agree : AgreeAlone quotes first second) {before after : List Filter}
    (quoted : before = [] → after = [] → quotes first.aloneInList second.aloneInList) :
    AgreeAnywhere quotes (.list (before ++ first :: after)) (.list (before ++ second :: after)) := by
  have items (place : FilterPlace) :=
    Filter.compileList_agrees (agree.compiled place none (Or.inl rfl)) before after
  have required := requireItems_agrees quoted
  have unvalued {filter : Filter} (other : filter.isValue = false) :
      (before ++ filter :: after).all Filter.isValue = false := by
    rw [List.all_append, List.all_cons, other, Bool.false_and, Bool.and_false]
  have present (filter : Filter) : requireItems 1 (before ++ filter :: after) = .ok () := by
    refine if_neg (Nat.not_lt.mpr ?_)
    rw [List.length_append, List.length_cons]
    omega
  refine ⟨⟨rfl, rfl⟩, fun place joint => ?compiled, fun place op => ?compared,
    fun place function => ?applied, fun place => ?within⟩
  case compiled => exact required.bind fun _ => (items place.detached).andThen _
  case compared => exact required.bind fun _ => (items place.detached).andThen _
  case applied => exact required.bind fun _ => (items place.detached).andThen _
  case within =>
    rw [FilterOperation.compileAt, FilterOperation.compileAt, present, present,
      unvalued agree.unvalued.1, unvalued agree.unvalued.2]
    exact (items place).andThen _

theorem FilterEntry.object_agrees {first second : FilterEntry}
    (agree : ∀ place, Agrees quotes (first.compileAt place) (second.compileAt place))
    (before after : List FilterEntry) :
    AgreeAnywhere quotes (.object (before ++ first :: after)) (.object (before ++ second :: after)) := by
  have entries (place : FilterPlace) := FilterEntry.compileList_agrees (agree place) before after
  exact ⟨⟨rfl, rfl⟩, fun place joint => (entries place).andThen _,
    fun place op => (entries place.detached).andThen _,
    fun place function => (entries place.detached).andThen _,
    fun place => (entries place).andThen _⟩

/-- Under an operation that does not look at their form it is enough that filters agree for themselves. -/
theorem AgreeAlone.entry (agree : AgreeAlone quotes first second) {kind : EntryFrame}
    (formless : kind.takesForm = false) (place : FilterPlace) :
    Agrees quotes ((kind.around first).compileAt place) ((kind.around second).compileAt place) := by
  have unjoined (place : FilterPlace) := agree.compiled place none (Or.inl rfl)
  cases kind with
  | property name => exact (Agrees.refl _).bind fun inner => unjoined inner
  | compare op | apply function | and | within => cases formless
  | template text before name after =>
    exact (Filter.compileParameters_agrees (unjoined place.detached) before after name).andThen _
  | count | not => exact (unjoined place.detached).andThen _
  | or => exact (agree.compiled place.detached (some .or) (Or.inr rfl)).andThen _
  | lambda quantifier binder => exact (unjoined ⟨true, []⟩).andThen _
  | method scope name before after =>
    exact (Filter.compileList_agrees (unjoined place.detached) before after).andThen _

theorem AgreeAnywhere.entry (agree : AgreeAnywhere quotes first second) (kind : EntryFrame)
    (place : FilterPlace) :
    Agrees quotes ((kind.around first).compileAt place) ((kind.around second).compileAt place) := by
  cases form : kind.takesForm with
  | false => exact agree.alone.entry form place
  | true =>
    cases kind with
    | compare op => exact agree.compared place op
    | apply function => exact agree.applied place function
    | and => exact (agree.compiled place.detached (some .and)).andThen _
    | within => exact agree.within place
    | property name | template text before name after | count | or | not | lambda quantifier binder
      | method scope name before after => cases form

theorem FilterFrame.agrees_of_alone (agree : AgreeAlone quotes first second) {frame : FilterFrame}
    (formless : frame.takesForm = false)
    (quoted : frame = .item [] [] → quotes first.aloneInList second.aloneInList) :
    AgreeAnywhere quotes (frame.around first) (frame.around second) := by
  cases frame with
  | item before after => exact agree.item fun none nobody => quoted (by rw [none, nobody])
  | entry before kind after => exact FilterEntry.object_agrees (agree.entry formless) before after

theorem FilterFrame.agrees (agree : AgreeAnywhere quotes first second) {frame : FilterFrame}
    (quoted : frame = .item [] [] → quotes first.aloneInList second.aloneInList) :
    AgreeAnywhere quotes (frame.around first) (frame.around second) := by
  cases frame with
  | item before after => exact agree.alone.item fun none nobody => quoted (by rw [none, nobody])
  | entry before kind after => exact FilterEntry.object_agrees (agree.entry kind) before after

/-- Filters that agree for themselves agree anywhere in larger ones, unless an operation takes them by their
form. An error may quote the one and the other where a list around them has no other item. -/
theorem AgreeAlone.surrounded (agree : AgreeAlone quotes first second) {frames : List FilterFrame}
    (formless : ∀ frame ∈ frames.getLast?, frame.takesForm = false)
    (quoted : ∀ inner, .item [] [] :: inner <:+ frames →
      quotes (first.surrounded inner).aloneInList (second.surrounded inner).aloneInList) :
    AgreeAlone quotes (first.surrounded frames) (second.surrounded frames) := by
  -- From the second frame on the operations that take a filter by its form do no harm.
  have anywhere : frames ≠ [] →
      AgreeAnywhere quotes (first.surrounded frames) (second.surrounded frames) := by
    induction frames with
    | nil => exact fun none => absurd rfl none
    | cons frame frames ih =>
      intro _
      have here (alone : frame = .item [] []) :
          quotes (first.surrounded frames).aloneInList (second.surrounded frames).aloneInList :=
        quoted frames (alone ▸ List.suffix_rfl)
      cases frames with
      | nil => exact FilterFrame.agrees_of_alone agree (formless frame rfl) here
      | cons next frames =>
        have inner := ih formless fun inner suffix => quoted inner (suffix.trans (List.suffix_cons ..))
        exact FilterFrame.agrees (inner nofun) here
  cases frames with
  | nil => exact agree
  | cons frame frames => exact (anywhere nofun).alone

end OData
