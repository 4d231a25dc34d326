import Mathlib
import OData.Proofs.Filter.JsonForm

namespace OData

mutual

/-- No object in the filter, at any depth, refers to parameters twice. -/
def Filter.SingleAliases : Filter → Prop
  | .value _ => True
  | .list items => Filter.ListSingleAliases items
  | .object entries =>
    entries.countP FilterEntry.isAlias ≤ 1 ∧ FilterEntry.ListSingleAliases entries

def Filter.ListSingleAliases : List Filter → Prop
  | [] => True
  | filter :: rest => filter.SingleAliases ∧ Filter.ListSingleAliases rest

def FilterEntry.ListSingleAliases : List FilterEntry → Prop
  | [] => True
  | entry :: rest => entry.SingleAliases ∧ FilterEntry.ListSingleAliases rest

def FilterEntry.SingleAliases : FilterEntry → Prop
  | .property _ filter => filter.SingleAliases
  | .parameter _ => True
  | .operation operation => operation.SingleAliases

def FilterOperation.SingleAliases : FilterOperation → Prop
  | .compare _ operand => operand.SingleAliases
  | .apply _ operand => operand.SingleAliases
  | .duration _ => True
  | .raw _ => True
  | .template _ parameters => Filter.ParametersSingleAliases parameters
  | .resource _ => True
  | .count none => True
  | .count (some filter) => filter.SingleAliases
  | .and operand => operand.SingleAliases
  | .or operand => operand.SingleAliases
  | .within operand => operand.SingleAliases
  | .not operand => operand.SingleAliases
  | .lambda _ _ body => body.SingleAliases
  | .method _ _ arguments => Filter.ListSingleAliases arguments
  | .canAccess => True

def Filter.ParametersSingleAliases : List (String × Filter) → Prop
  | [] => True
  | (_, filter) :: rest => filter.SingleAliases ∧ Filter.ParametersSingleAliases rest

end

namespace FilterEntry

theorem key_of_isAlias {entry : FilterEntry} (marked : entry.isAlias = true) : entry.key = "@" := by
  cases entry with
  | parameter name => rfl
  | property name filter => cases marked
  | operation operation => cases marked

/-- Among entries with legal names, those with the key `@` are the references to parameters. -/
theorem alias_key_mem_iff {entries : List FilterEntry} (canonical : ListCanonical entries) :
    "@" ∈ entries.map key ↔ ∃ entry ∈ entries, entry.isAlias = true := by
  induction entries with
  | nil => simp
  | cons entry rest ih =>
    rw [List.map_cons, List.mem_cons, ih canonical.2, List.exists_mem_cons_iff]
    refine or_congr_left ⟨fun same => ?_, fun marked => (key_of_isAlias marked).symm⟩
    by_contra named
    exact key_ne_of_not_isAlias canonical.1 (by simpa using named) same.symm

/-- Keys repeat exactly where there are two references to parameters. -/
theorem nodup_keys_iff {entries : List FilterEntry} (canonical : ListCanonical entries)
    (apart : entries.Pairwise fun first second =>
      first.key = second.key → first.isAlias = true) :
    (entries.map key).Nodup ↔ entries.countP isAlias ≤ 1 := by
  induction entries with
  | nil => simp
  | cons entry rest ih =>
    obtain ⟨head, apart⟩ := List.pairwise_cons.mp apart
    have tail := ih canonical.2 apart
    rw [List.map_cons, List.nodup_cons, tail]
    cases marked : entry.isAlias
    case false =>
      have absent : entry.key ∉ rest.map key := by
        intro member
        obtain ⟨other, inRest, same⟩ := List.mem_map.mp member
        have contrary := head other inRest same.symm
        rw [marked] at contrary
        cases contrary
      rw [List.countP_cons_of_neg (by simp [marked])]
      exact and_iff_right absent
    case true =>
      rw [List.countP_cons_of_pos marked, key_of_isAlias marked, alias_key_mem_iff canonical.2,
        ← List.countP_pos_iff]
      omega

theorem length_listNormalize (resolve : List FilterEntry → List FilterEntry)
    (entries : List FilterEntry) : (listNormalize resolve entries).length = entries.length := by
  induction entries with
  | nil => rfl
  | cons entry rest ih => rw [listNormalize, List.length_cons, ih, List.length_cons]

/-- An object keeps its entries exactly where it does not refer to parameters twice. -/
theorem listNormalize_resolve_iff {entries : List FilterEntry} (canonical : ListCanonical entries)
    (apart : entries.Pairwise fun first second =>
      first.key = second.key → first.isAlias = true) :
    listNormalize id (resolve (listNormalize resolve entries)) = listNormalize id entries ↔
      entries.countP isAlias ≤ 1 ∧
        listNormalize id (listNormalize resolve entries) = listNormalize id entries := by
  have keys := keys_normalize entries
  rw [← nodup_keys_iff canonical apart, ← keys]
  constructor
  · intro same
    -- the lengths alone tell whether an entry was lost
    have lengths := congrArg List.length same
    rw [length_listNormalize, length_listNormalize, ← length_listNormalize resolve entries,
      length_resolve_eq_iff] at lengths
    rw [resolve_of_nodup lengths] at same
    exact ⟨lengths, same⟩
  · rintro ⟨distinct, same⟩
    rw [resolve_of_nodup distinct]
    exact same

end FilterEntry

mutual

/-- The normal form is the filter, up to the signs of zeros, exactly where no object refers to
parameters twice. -/
theorem Filter.normalize_eq_iff :
    (filter : Filter) → filter.Canonical →
      ((filter.normalize FilterEntry.resolve).normalize id = filter.normalize id ↔
        filter.SingleAliases)
  | .value _, _ => iff_of_true rfl trivial
  | .list items, canonical => by
    simp only [Filter.normalize, Filter.list.injEq]
    exact Filter.listNormalize_eq_iff items canonical
  | .object entries, ⟨apart, canonical⟩ => by
    simp only [Filter.normalize, Filter.object.injEq, id]
    rw [FilterEntry.listNormalize_resolve_iff canonical apart,
      FilterEntry.listNormalize_eq_iff entries canonical]
    rfl

theorem Filter.listNormalize_eq_iff :
    (items : List Filter) → Filter.ListCanonical items →
      (Filter.listNormalize id (Filter.listNormalize FilterEntry.resolve items) =
        Filter.listNormalize id items ↔ Filter.ListSingleAliases items)
  | [], _ => iff_of_true rfl trivial
  | filter :: rest, canonical => by
    simp only [Filter.listNormalize, List.cons.injEq]
    exact and_congr (filter.normalize_eq_iff canonical.1)
      (Filter.listNormalize_eq_iff rest canonical.2)

theorem FilterEntry.listNormalize_eq_iff :
    (entries : List FilterEntry) → FilterEntry.ListCanonical entries →
      (FilterEntry.listNormalize id (FilterEntry.listNormalize FilterEntry.resolve entries) =
        FilterEntry.listNormalize id entries ↔ FilterEntry.ListSingleAliases entries)
  | [], _ => iff_of_true rfl trivial
  | entry :: rest, canonical => by
    simp only [FilterEntry.listNormalize, List.cons.injEq]
    exact and_congr (entry.normalize_eq_iff canonical.1)
      (FilterEntry.listNormalize_eq_iff rest canonical.2)

theorem FilterEntry.normalize_eq_iff :
    (entry : FilterEntry) → entry.Canonical →
      ((entry.normalize FilterEntry.resolve).normalize id = entry.normalize id ↔
        entry.SingleAliases)
  | .property _ filter, canonical => by
    simp only [FilterEntry.normalize, FilterEntry.property.injEq, true_and]
    exact filter.normalize_eq_iff canonical.2
  | .parameter _, _ => iff_of_true rfl trivial
  | .operation operation, canonical => by
    simp only [FilterEntry.normalize, FilterEntry.operation.injEq]
    exact operation.normalize_eq_iff canonical

theorem FilterOperation.normalize_eq_iff :
    (operation : FilterOperation) → operation.Canonical →
      ((operation.normalize FilterEntry.resolve).normalize id = operation.normalize id ↔
        operation.SingleAliases)
  | .compare _ operand, canonical => by
    simp only [FilterOperation.normalize, FilterOperation.compare.injEq, true_and]
    exact operand.normalize_eq_iff canonical
  | .apply _ operand, canonical => by
    simp only [FilterOperation.normalize, FilterOperation.apply.injEq, true_and]
    exact operand.normalize_eq_iff canonical
  | .duration literal, _ =>
    iff_of_true (congrArg FilterOperation.duration literal.unsignedZeros_idem) trivial
  | .raw _, _ => iff_of_true rfl trivial
  | .template _ parameters, canonical => by
    simp only [FilterOperation.normalize, FilterOperation.template.injEq, true_and]
    exact Filter.parametersNormalize_eq_iff parameters canonical.2
  | .resource _, _ => iff_of_true rfl trivial
  | .count none, _ => iff_of_true rfl trivial
  | .count (some filter), canonical => by
    simp only [FilterOperation.normalize, FilterOperation.count.injEq, Option.some.injEq]
    exact filter.normalize_eq_iff canonical
  | .and operand, canonical => by
    simp only [FilterOperation.normalize, FilterOperation.and.injEq]
    exact operand.normalize_eq_iff canonical
  | .or operand, canonical => by
    simp only [FilterOperation.normalize, FilterOperation.or.injEq]
    exact operand.normalize_eq_iff canonical
  | .within operand, canonical => by
    simp only [FilterOperation.normalize, FilterOperation.within.injEq]
    exact operand.normalize_eq_iff canonical
  | .not operand, canonical => by
    simp only [FilterOperation.normalize, FilterOperation.not.injEq]
    exact operand.normalize_eq_iff canonical
  | .lambda _ _ body, canonical => by
    simp only [FilterOperation.normalize, FilterOperation.lambda.injEq, true_and]
    exact body.normalize_eq_iff canonical.2
  | .method _ _ arguments, canonical => by
    simp only [FilterOperation.normalize, FilterOperation.method.injEq, true_and]
    exact Filter.listNormalize_eq_iff arguments canonical
  | .canAccess, _ => iff_of_true rfl trivial

theorem Filter.parametersNormalize_eq_iff :
    (parameters : List (String × Filter)) → Filter.ParametersCanonical parameters →
      (Filter.parametersNormalize id (Filter.parametersNormalize FilterEntry.resolve parameters) =
        Filter.parametersNormalize id parameters ↔ Filter.ParametersSingleAliases parameters)
  | [], _ => iff_of_true rfl trivial
  | (_, filter) :: rest, canonical => by
    simp only [Filter.parametersNormalize, List.cons.injEq, Prod.mk.injEq, true_and]
    exact and_congr (filter.normalize_eq_iff canonical.1)
      (Filter.parametersNormalize_eq_iff rest canonical.2)

end

end OData
