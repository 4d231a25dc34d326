import Mathlib
import OData.Filter.Compile

namespace OData

/-- What surrounds a part of a filter: whether the body of a lambda expression does, and whether a
navigation path is open that the part is bound to. -/
structure FilterContext where
  inLambda : Bool
  underPath : Bool
deriving DecidableEq

namespace FilterContext

def top : FilterContext := ⟨false, false⟩

/-- The context of what is compiled for itself, without the path around it. -/
def detached (context : FilterContext) : FilterContext := { context with underPath := false }

/-- The context of a property's filter. -/
def stepped (context : FilterContext) : FilterContext := { context with underPath := true }

def lambdaBody : FilterContext := ⟨true, false⟩

end FilterContext

/-- Of the path itself only its presence counts. -/
def FilterPlace.context (place : FilterPlace) : FilterContext :=
  ⟨place.inLambda, !place.path.isEmpty⟩

def DurationLiteral.parts (d : DurationLiteral) : List Double :=
  [d.days, d.hours, d.minutes, d.seconds]

/-- A place where a filter may be refused: a list, an object under a comparison or a membership,
a duration, or a property with what surrounds it. -/
inductive FilterSite
  | list (least : Nat) (items : List Filter)
  | comparison (op : BinaryOperator) (entries : List FilterEntry)
  | membership (entries : List FilterEntry)
  | duration (literal : DurationLiteral)
  | property (context : FilterContext)

namespace FilterSite

/-- The rules. Lists have enough elements, operand objects are not empty, durations have a part, and
a property stands under a path in lambda bodies only. -/
def Allowed : FilterSite → Prop
  | .list least items => least ≤ items.length
  | .comparison _ entries => entries ≠ []
  | .membership entries => entries ≠ []
  | .duration literal => ∃ part ∈ literal.parts, part.isNonzero = true
  | .property context => context.underPath = true → context.inLambda = true

instance : (site : FilterSite) → Decidable site.Allowed
  | .list least items => inferInstanceAs (Decidable (least ≤ items.length))
  | .comparison _ entries => inferInstanceAs (Decidable (entries ≠ []))
  | .membership entries => inferInstanceAs (Decidable (entries ≠ []))
  | .duration literal =>
    inferInstanceAs (Decidable (∃ part ∈ literal.parts, part.isNonzero = true))
  | .property context =>
    inferInstanceAs (Decidable (context.underPath = true → context.inLambda = true))

/-- What a site that breaks its rule is refused with. -/
def error : FilterSite → Error
  | .list least items => .arity (.filterList least (Filter.listToJson items))
  | .comparison op _ => .arity (.comparisonObject op)
  | .membership _ => .arity .membershipObject
  | .duration _ => .shape .durationParts
  | .property _ => .removed .nestedNavigation

def check (site : FilterSite) : Except Error Unit :=
  if site.Allowed then .ok () else .error site.error

theorem check_of_allowed {site : FilterSite} (allowed : site.Allowed) : site.check = .ok () :=
  if_pos allowed

theorem check_of_not_allowed {site : FilterSite} (broken : ¬ site.Allowed) :
    site.check = .error site.error :=
  if_neg broken

/-- The sites checked one after another, up to the first that breaks its rule. -/
def checkAll : List FilterSite → Except Error Unit
  | [] => .ok ()
  | site :: rest => do
    site.check
    checkAll rest

theorem checkAll_append (first second : List FilterSite) :
    checkAll (first ++ second) = checkAll first >>= fun _ => checkAll second := by
  induction first with
  | nil => rfl
  | cons site rest ih =>
    simp only [List.cons_append, checkAll, ih]
    cases site.check <;> rfl

theorem checkAll_cons_of_allowed {site : FilterSite} (rest : List FilterSite)
    (allowed : site.Allowed) : checkAll (site :: rest) = checkAll rest := by
  rw [checkAll, check_of_allowed allowed]
  rfl

theorem checkAll_cons_of_not_allowed {site : FilterSite} (rest : List FilterSite)
    (broken : ¬ site.Allowed) : checkAll (site :: rest) = .error site.error := by
  rw [checkAll, check_of_not_allowed broken]
  rfl

theorem checkAll_ok_iff {sites : List FilterSite} :
    checkAll sites = .ok () ↔ ∀ site ∈ sites, site.Allowed := by
  induction sites with
  | nil => simp [checkAll]
  | cons site rest ih =>
    rw [List.forall_mem_cons, ← ih]
    by_cases allowed : site.Allowed
    · rw [checkAll_cons_of_allowed rest allowed]
      exact ⟨fun run => ⟨allowed, run⟩, fun both => both.2⟩
    · rw [checkAll_cons_of_not_allowed rest allowed]
      constructor
      · intro run
        cases run
      · intro both
        exact absurd both.1 allowed

/-- The error is that of the first site that breaks its rule. -/
theorem checkAll_error_iff {sites : List FilterSite} {error : Error} :
    checkAll sites = .error error ↔
      ∃ before site after, sites = before ++ site :: after ∧ (∀ other ∈ before, other.Allowed) ∧
        ¬ site.Allowed ∧ error = site.error := by
  constructor
  · intro run
    induction sites with
    | nil => cases run
    | cons site rest ih =>
      by_cases allowed : site.Allowed
      · rw [checkAll_cons_of_allowed rest allowed] at run
        obtain ⟨before, bad, after, split, earlier, broken, same⟩ := ih run
        exact ⟨site :: before, bad, after, congrArg (site :: ·) split,
          List.forall_mem_cons.mpr ⟨allowed, earlier⟩, broken, same⟩
      · rw [checkAll_cons_of_not_allowed rest allowed] at run
        exact ⟨[], site, rest, rfl, List.forall_mem_nil _, allowed, (Except.error.inj run).symm⟩
  · rintro ⟨before, site, after, rfl, earlier, broken, rfl⟩
    rw [checkAll_append, checkAll_ok_iff.mpr earlier]
    exact checkAll_cons_of_not_allowed after broken

end FilterSite

mutual

/-- The sites of a filter in its context, in the order in which a reader meets them: a node
before what stands in it. -/
def Filter.sites (context : FilterContext) : Filter → List FilterSite
  | .value _ => []
  | .list items => .list 2 items :: Filter.listSites context.detached items
  | .object entries => FilterEntry.listSites context entries

def Filter.listSites (context : FilterContext) : List Filter → List FilterSite
  | [] => []
  | filter :: rest => filter.sites context ++ Filter.listSites context rest

def FilterEntry.listSites (context : FilterContext) : List FilterEntry → List FilterSite
  | [] => []
  | entry :: rest => entry.sites context ++ FilterEntry.listSites context rest

def FilterEntry.sites (context : FilterContext) : FilterEntry → List FilterSite
  | .property _ filter => .property context :: filter.sites context.stepped
  | .parameter _ => []
  | .operation operation => operation.sites context

/-- Only a membership passes the path on to its operand; every other operation compiles what it holds
for itself. -/
def FilterOperation.sites (context : FilterContext) : FilterOperation → List FilterSite
  | .compare _ (.value _) => []
  | .compare _ (.list items) => .list 2 items :: Filter.listSites context.detached items
  | .compare op (.object entries) =>
    .comparison op entries :: FilterEntry.listSites context.detached entries
  | .apply _ operand => operand.sites context.detached
  | .duration literal => [.duration literal]
  | .raw _ => []
  | .template _ parameters => Filter.parameterSites context.detached parameters
  | .resource _ => []
  | .count none => []
  | .count (some filter) => filter.sites context.detached
  | .and operand => operand.sites context.detached
  | .or operand => operand.sites context.detached
  | .within (.value _) => []
  | .within (.list items) => .list 1 items :: Filter.listSites context items
  | .within (.object entries) => .membership entries :: FilterEntry.listSites context entries
  | .not operand => operand.sites context.detached
  | .lambda _ _ body => body.sites .lambdaBody
  | .method _ _ arguments => Filter.listSites context.detached arguments
  | .canAccess => []

def Filter.parameterSites (context : FilterContext) : List (String × Filter) → List FilterSite
  | [] => []
  | (_, filter) :: rest => filter.sites context ++ Filter.parameterSites context rest

end

end OData
