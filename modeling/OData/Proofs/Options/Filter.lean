import Mathlib
import OData.Options.Basic

namespace OData.Options

variable {options : Options}

/-- The filters in order. An option that the query language does not know is none, whatever its
key. -/
def filters (options : Options) : List Filter := options.filterMap QueryOption.filter?

/-- A filter is set behind all options that are none. -/
theorem setFilter_append (filter : Filter) {before : Options} (first : filter? before = none)
    (rest : Options) : setFilter filter (before ++ rest) = before ++ setFilter filter rest := by
  induction before with
  | nil => rfl
  | cons option before ih =>
    obtain ⟨other, others⟩ := List.forall_mem_cons.mp (List.findSome?_eq_none_iff.mp first)
    have later := ih (List.findSome?_eq_none_iff.mpr others)
    cases option with
    | filter own => cases other
    | _ => exact congrArg _ later

theorem setFilter_of_unfiltered (filter : Filter) (unfiltered : filter? options = none) :
    setFilter filter options = options ++ [.filter filter] := by
  have last := setFilter_append filter unfiltered []
  rwa [List.append_nil] at last

theorem exists_of_filter?_eq_some {existing : Filter} (found : filter? options = some existing) :
    ∃ before after, options = before ++ .filter existing :: after ∧ filter? before = none := by
  obtain ⟨before, option, after, rfl, isFilter, others⟩ := List.findSome?_eq_some_iff.mp found
  cases option with
  | filter own =>
    obtain rfl := Option.some.inj isFilter
    exact ⟨before, after, rfl, List.findSome?_eq_none_iff.mpr others⟩
  | _ => cases isFilter

theorem setFilter_append_of_filtered (filter : Filter) {existing : Filter}
    (found : filter? options = some existing) (rest : Options) :
    setFilter filter (options ++ rest) = setFilter filter options ++ rest := by
  obtain ⟨before, after, rfl, first⟩ := exists_of_filter?_eq_some found
  rw [List.append_assoc, setFilter_append filter first, setFilter_append filter first,
    List.append_assoc]
  rfl

theorem filter?_eq_head? (options : Options) : filter? options = options.filters.head? :=
  (List.head?_filterMap ..).symm

theorem filters_append (first second : Options) :
    filters (first ++ second) = first.filters ++ second.filters := List.filterMap_append ..

/-- Options without a filter have none to list. -/
theorem filter?_eq_none_iff : filter? options = none ↔ options.filters = [] := by
  rw [filter?_eq_head?, List.head?_eq_none_iff]

theorem filters_setFilter (filter : Filter) (options : Options) :
    filters (setFilter filter options) = filter :: options.filters.tail := by
  cases found : filter? options with
  | none =>
    rw [setFilter_of_unfiltered filter found, filters_append, filter?_eq_none_iff.mp found]
    rfl
  | some existing =>
    obtain ⟨before, after, rfl, first⟩ := exists_of_filter?_eq_some found
    rw [setFilter_append filter first, filters_append, filters_append, filter?_eq_none_iff.mp first]
    rfl

/-- Setting a filter brings no count and takes none away. -/
theorem count?_setFilter (filter : Filter) (options : Options) :
    count? (setFilter filter options) = count? options := by
  cases found : filter? options with
  | none =>
    rw [setFilter_of_unfiltered filter found, count?, List.findSome?_append, ← count?]
    exact Option.or_none
  | some existing =>
    obtain ⟨before, after, rfl, first⟩ := exists_of_filter?_eq_some found
    rw [setFilter_append filter first, count?, count?, List.findSome?_append,
      List.findSome?_append]
    rfl

/-- Of two filters that are set one after the other the second one stays. -/
theorem setFilter_setFilter (old new : Filter) (options : Options) :
    setFilter new (setFilter old options) = setFilter new options := by
  cases found : filter? options with
  | none =>
    rw [setFilter_of_unfiltered old found, setFilter_append new found,
      setFilter_of_unfiltered new found]
    rfl
  | some existing =>
    obtain ⟨before, after, rfl, first⟩ := exists_of_filter?_eq_some found
    rw [setFilter_append old first, setFilter_append new first, setFilter_append new first]
    rfl

end OData.Options
