import Mathlib
import OData.Proofs.Options.Filter
import OData.Proofs.Query.Structure

namespace OData

/-- A step in the history of options: one more option, whichever builder it comes from, a filter that is
set, or a count of all that was there. -/
inductive OptionStep
  | add (option : QueryOption)
  | setFilter (filter : Filter)
  | count

namespace OptionStep

/-- The options after a step. -/
def apply (options : Options) : OptionStep → Options
  | .add option => Options.push option options
  | .setFilter filter => Options.setFilter filter options
  | .count => Options.counted options

def run (options : Options) (steps : List OptionStep) : Options := steps.foldl apply options

/-- The options that a history from its start leads to. -/
def history (steps : List OptionStep) : Options := run [] steps

open Options (filter? filters count? keys)

/-- What a step makes of options. -/
inductive Effect : OptionStep → Options → Options → Prop
  | added (options : Options) (option : QueryOption) :
      Effect (.add option) options (options ++ [option])
  | counted (options : Options) : Effect .count options [.count options]
  | replaced (front : Options) (old new : Filter) (rest : Options) (first : filter? front = none) :
      Effect (.setFilter new) (front ++ .filter old :: rest) (front ++ .filter new :: rest)
  | appended (options : Options) (filter : Filter) (unfiltered : filter? options = none) :
      Effect (.setFilter filter) options (options ++ [.filter filter])

theorem apply_effect (options : Options) (step : OptionStep) :
    Effect step options (apply options step) := by
  cases step with
  | add option => exact .added options option
  | count => exact .counted options
  | setFilter filter =>
    rw [apply]
    cases found : filter? options with
    | none =>
      rw [Options.setFilter_of_unfiltered filter found]
      exact .appended options filter found
    | some existing =>
      obtain ⟨front, rest, rfl, first⟩ := Options.exists_of_filter?_eq_some found
      rw [Options.setFilter_append filter first]
      exact .replaced front existing filter rest first

/-- The same options, but for the first filter, which may have become another one. -/
inductive Refiltered : Options → Options → Prop
  | same (options : Options) : Refiltered options options
  | changed (front : Options) (old new : Filter) (rest : Options) (first : filter? front = none) :
      Refiltered (front ++ .filter old :: rest) (front ++ .filter new :: rest)

namespace Refiltered

variable {before middle after : Options}

theorem setFilter {existing : Filter} (found : filter? before = some existing) (filter : Filter) :
    Refiltered before (Options.setFilter filter before) := by
  obtain ⟨front, rest, rfl, first⟩ := Options.exists_of_filter?_eq_some found
  rw [Options.setFilter_append filter first]
  exact .changed front existing filter rest first

theorem eq_or_setFilter (refiltered : Refiltered before after) :
    after = before ∨ ∃ filter, after = Options.setFilter filter before := by
  cases refiltered with
  | same => exact Or.inl rfl
  | changed front old new rest first =>
    have set := Options.setFilter_append new first (.filter old :: rest)
    exact Or.inr ⟨new, set.symm⟩

/-- A filter that is set once more is still the only one that was changed. -/
theorem after_setFilter {existing : Filter} (found : filter? before = some existing)
    {filter : Filter} (refiltered : Refiltered (Options.setFilter filter before) after) :
    Refiltered before after := by
  rcases refiltered.eq_or_setFilter with rfl | ⟨new, rfl⟩
  · exact setFilter found filter
  · rw [Options.setFilter_setFilter]
    exact setFilter found new

theorem front {first second : Options} (refiltered : Refiltered (first ++ second) after) :
    ∃ kept rest, after = kept ++ rest ∧ Refiltered first kept := by
  rcases refiltered.eq_or_setFilter with rfl | ⟨filter, rfl⟩
  · exact ⟨first, second, rfl, .same first⟩
  · cases found : filter? first with
    | none =>
      rw [Options.setFilter_append filter found]
      exact ⟨first, _, rfl, .same first⟩
    | some existing =>
      rw [Options.setFilter_append_of_filtered filter found]
      exact ⟨_, second, rfl, setFilter found filter⟩

theorem eq_of_count {inner : Options} (refiltered : Refiltered [.count inner] after) :
    after = [.count inner] := by
  generalize whole : ([.count inner] : Options) = options at refiltered
  cases refiltered with
  | same => rfl
  | changed front old new rest first =>
    have listed := congrArg filters whole
    rw [Options.filters_append] at listed
    exact absurd listed.symm (List.append_ne_nil_of_right_ne_nil _ (List.cons_ne_nil _ _))

end Refiltered

/-- Whether a step puts all options into a count. -/
def isCount : OptionStep → Bool
  | .count => true
  | _ => false

end OptionStep

def Options.inside : Options → Options
  | .count inner :: _ => inner
  | _ => []

namespace OptionStep

open Options (filter? filters count? keys inside)

/-- What is there now is found again after any steps, as deep as there were counts since then, and at the
same places: other options stand only behind it. -/
theorem run_keeps (options : Options) (steps : List OptionStep) :
    ∃ kept added, inside^[steps.countP isCount] (run options steps) = kept ++ added ∧
      Refiltered options kept := by
  induction steps generalizing options with
  | nil => exact ⟨options, [], (List.append_nil options).symm, .same options⟩
  | cons step steps ih =>
    obtain ⟨kept, added, found, refiltered⟩ := ih (apply options step)
    have later : run options (step :: steps) = run (apply options step) steps := rfl
    cases step with
    | add option =>
      obtain ⟨own, rest, rfl, unmoved⟩ := refiltered.front
      rw [List.append_assoc] at found
      exact ⟨own, rest ++ added, found, unmoved⟩
    | setFilter filter =>
      cases filtered : filter? options with
      | none =>
        rw [apply, Options.setFilter_of_unfiltered filter filtered] at refiltered
        obtain ⟨own, rest, rfl, unmoved⟩ := refiltered.front
        rw [List.append_assoc] at found
        exact ⟨own, rest ++ added, found, unmoved⟩
      | some existing => exact ⟨kept, added, found, refiltered.after_setFilter filtered⟩
    | count =>
      obtain rfl := refiltered.eq_of_count
      have deeper : (OptionStep.count :: steps).countP isCount = steps.countP isCount + 1 :=
        List.countP_cons_of_pos rfl
      rw [deeper, Function.iterate_succ_apply', later, found]
      exact ⟨options, [], (List.append_nil options).symm, .same options⟩

theorem run_append (options : Options) (steps more : List OptionStep) :
    run options (steps ++ more) = run (run options steps) more := List.foldl_append

theorem filters_apply_le_one {options : Options} {step : OptionStep}
    (few : options.filters.length ≤ 1) (other : ∀ filter, step ≠ .add (.filter filter)) :
    (apply options step).filters.length ≤ 1 := by
  cases step with
  | count => exact Nat.zero_le 1
  | setFilter filter =>
    rw [apply, Options.filters_setFilter, List.length_cons, List.length_tail]
    omega
  | add option =>
    have unfiltered : option.filter? = none := by
      cases option with
      | filter filter => exact absurd rfl (other filter)
      | _ => rfl
    have single : filters [option] = [] := List.filterMap_cons_none unfiltered
    rw [apply, Options.push, Options.filters_append, single, List.append_nil]
    exact few

theorem filters_run_le_one {options : Options} {steps : List OptionStep}
    (few : options.filters.length ≤ 1) (other : ∀ filter, .add (.filter filter) ∉ steps) :
    (run options steps).filters.length ≤ 1 := by
  induction steps generalizing options with
  | nil => exact few
  | cons step steps ih =>
    have first : ∀ filter, step ≠ .add (.filter filter) := fun filter same =>
      other filter (same ▸ List.mem_cons_self ..)
    exact ih (filters_apply_le_one few first) fun filter later =>
      other filter (List.mem_cons_of_mem step later)

/-- Whether a step leaves a count behind. -/
def BringsCount (step : OptionStep) : Prop := step = .count ∨ ∃ inner, step = .add (.count inner)

theorem count?_apply_isSome (options : Options) (step : OptionStep) :
    (count? (apply options step)).isSome ↔ (count? options).isSome ∨ step.BringsCount := by
  cases step with
  | count => exact iff_of_true rfl (Or.inr (Or.inl rfl))
  | setFilter filter =>
    rw [apply, Options.count?_setFilter]
    simp [BringsCount]
  | add option =>
    rw [apply, Options.push, count?, List.findSome?_append, Option.isSome_or, Bool.or_eq_true,
      ← count?]
    cases option <;> simp [BringsCount, QueryOption.count?]

theorem count?_run_isSome (options : Options) (steps : List OptionStep) :
    (count? (run options steps)).isSome ↔
      (count? options).isSome ∨ ∃ step ∈ steps, step.BringsCount := by
  induction steps generalizing options with
  | nil => simp [run]
  | cons step steps ih =>
    have later : run options (step :: steps) = run (apply options step) steps := rfl
    rw [later, ih, count?_apply_isSome, or_assoc]
    simp only [List.mem_cons, exists_eq_or_imp]

/-- A query string has its parts in the order of the options, each behind the key of its option. -/
theorem parts_of_compile {options : Options} {text : Text}
    (compiled : (Options.compile options).outcome = .ok text) :
    ∃ parts, List.Forall₂ (fun option part => option.compile.outcome = .ok part) options parts ∧
      List.Forall₂ (fun key part => ∃ value, part = QueryOption.assign key value) (keys options) parts ∧
      text = Text.join ['&'] parts := by
  obtain ⟨parts, listed, rfl⟩ := Compilation.map_eq_ok.mp compiled
  have own := Options.compileList_eq_ok listed
  refine ⟨parts, own, ?_, rfl⟩
  rw [keys, List.forall₂_map_left_iff]
  exact own.imp fun _ _ written => QueryOption.compile_assign written

/-- A history of options that starts with none. Each step has its effect and no other: an option comes at
the end, all of them go into a count, or the first filter is replaced where it stands and comes at the end
only where there was none; a filter that is set is the one that is found. Whatever was there at some point
is found again later on, as deep as there were counts since then and with nothing in front of it, and at
most its first filter is another one. Where filters are only set there are never two; a count is there
exactly if one was added or everything was counted; and the keys are those of the query string, in its
order. -/
theorem history_keeps (steps more : List OptionStep) (step : OptionStep) :
    let before := history steps
    let after := history (steps ++ [step])
    Effect step before after ∧
      (∀ filter, step = .setFilter filter → filter? after = some filter ∧
        (filters after).length = max 1 (filters before).length) ∧
      (∃ kept added, inside^[more.countP isCount] (history (steps ++ more)) = kept ++ added ∧
        Refiltered before kept) ∧
      ((∀ filter, .add (.filter filter) ∉ steps) → (filters before).length ≤ 1) ∧
      ((count? before).isSome ↔
        ∃ earlier ∈ steps, earlier = .count ∨ ∃ inner, earlier = .add (.count inner)) ∧
      ∀ text, (Options.compile before).outcome = .ok text → ∃ parts,
        List.Forall₂ (fun option part => option.compile.outcome = .ok part) before parts ∧
        List.Forall₂ (fun key part => ∃ value, part = QueryOption.assign key value) (keys before) parts ∧
        text = Text.join ['&'] parts := by
  intro before after
  have next : after = apply before step := run_append [] steps [step]
  refine ⟨?effect, ?set, ?kept, ?few, ?counted, fun text compiled => parts_of_compile compiled⟩
  case effect =>
    rw [next]
    exact apply_effect before step
  case set =>
    rintro filter rfl
    have listed : filters after = filter :: before.filters.tail := by
      rw [next]
      exact Options.filters_setFilter filter before
    refine ⟨by rw [Options.filter?_eq_head?, listed]; rfl, ?_⟩
    rw [listed, List.length_cons, List.length_tail]
    omega
  case kept =>
    have later : history (steps ++ more) = run before more := run_append [] steps more
    rw [later]
    exact run_keeps before more
  case few => exact filters_run_le_one (Nat.zero_le 1)
  case counted =>
    have whole := count?_run_isSome [] steps
    rwa [or_iff_right (by decide)] at whole

end OptionStep

end OData
