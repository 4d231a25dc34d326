import Mathlib
import OData.Proofs.Filter.Canonical
import OData.Proofs.Filter.DurationJson

namespace OData

/-- Entries with repeated keys resolved as they are in JSON: the first place, the last entry. -/
def FilterEntry.resolve (entries : List FilterEntry) : List FilterEntry :=
  (Keyed.ofList (entries.map fun entry => (entry.key, entry))).map Prod.snd

mutual

/-- The filter with the zeros of durations unsigned and the entries of every object, from the inside
out, passed through `resolve`. -/
def Filter.normalize (resolve : List FilterEntry → List FilterEntry) : Filter → Filter
  | .value scalar => .value scalar
  | .list items => .list (Filter.listNormalize resolve items)
  | .object entries => .object (resolve (FilterEntry.listNormalize resolve entries))

def Filter.listNormalize (resolve : List FilterEntry → List FilterEntry) :
    List Filter → List Filter
  | [] => []
  | filter :: rest => filter.normalize resolve :: Filter.listNormalize resolve rest

def FilterEntry.listNormalize (resolve : List FilterEntry → List FilterEntry) :
    List FilterEntry → List FilterEntry
  | [] => []
  | entry :: rest => entry.normalize resolve :: FilterEntry.listNormalize resolve rest

def FilterEntry.normalize (resolve : List FilterEntry → List FilterEntry) :
    FilterEntry → FilterEntry
  | .property name filter => .property name (filter.normalize resolve)
  | .parameter name => .parameter name
  | .operation operation => .operation (operation.normalize resolve)

def FilterOperation.normalize (resolve : List FilterEntry → List FilterEntry) :
    FilterOperation → FilterOperation
  | .compare op operand => .compare op (operand.normalize resolve)
  | .apply function operand => .apply function (operand.normalize resolve)
  | .duration literal => .duration literal.unsignedZeros
  | .raw text => .raw text
  | .template text parameters => .template text (Filter.parametersNormalize resolve parameters)
  | .resource path => .resource path
  | .count none => .count none
  | .count (some filter) => .count (some (filter.normalize resolve))
  | .and operand => .and (operand.normalize resolve)
  | .or operand => .or (operand.normalize resolve)
  | .within operand => .within (operand.normalize resolve)
  | .not operand => .not (operand.normalize resolve)
  | .lambda quantifier binder body => .lambda quantifier binder (body.normalize resolve)
  | .method scope name arguments =>
    .method scope name (Filter.listNormalize resolve arguments)
  | .canAccess => .canAccess

def Filter.parametersNormalize (resolve : List FilterEntry → List FilterEntry) :
    List (String × Filter) → List (String × Filter)
  | [] => []
  | (name, filter) :: rest =>
    (name, filter.normalize resolve) :: Filter.parametersNormalize resolve rest

end

/-- The filter up to the signs of zeros. -/
def Filter.unsignedZeros (filter : Filter) : Filter := filter.normalize id

/-- The filter that comes back from the JSON form: references to parameters in one object, which
all have the same key, have become one, and zeros have lost their signs. -/
def Filter.normal (filter : Filter) : Filter := filter.normalize FilterEntry.resolve

namespace FilterEntry

theorem listToFields_eq_map (entries : List FilterEntry) :
    listToFields entries = entries.map toField := by
  induction entries with
  | nil => rfl
  | cons entry rest ih => rw [listToFields, List.map_cons, ih]

theorem mem_resolve {entries : List FilterEntry} {entry : FilterEntry}
    (member : entry ∈ resolve entries) : entry ∈ entries := by
  obtain ⟨keyed, inKeyed, rfl⟩ := List.mem_map.mp member
  obtain ⟨found, inEntries, rfl⟩ := List.mem_map.mp (Keyed.mem_ofList inKeyed)
  exact inEntries

/-- Resolving the entries and resolving the fields are the same. -/
theorem listToFields_resolve (entries : List FilterEntry) :
    listToFields (resolve entries) = Keyed.ofList (listToFields entries) := by
  have fields : listToFields entries = (entries.map fun entry => (entry.key, entry)).map
      (Prod.map id fun entry => entry.toField.2) := by
    rw [listToFields_eq_map, List.map_map]
    rfl
  rw [fields, Keyed.ofList_map, listToFields_eq_map, resolve, List.map_map]
  refine List.map_congr_left fun keyed member => ?_
  obtain ⟨entry, _, rfl⟩ := List.mem_map.mp (Keyed.mem_ofList member)
  rfl

/-- Nothing is resolved where no key repeats. -/
theorem resolve_of_nodup {entries : List FilterEntry} (distinct : (entries.map key).Nodup) :
    resolve entries = entries := by
  have keys : (Keyed.keys (entries.map fun entry => (entry.key, entry))).Nodup := by
    rw [Keyed.keys, List.map_map]
    exact distinct
  rw [resolve, Keyed.ofList_of_nodup keys, List.map_map]
  exact List.map_id entries

theorem length_resolve_eq_iff {entries : List FilterEntry} :
    (resolve entries).length = entries.length ↔ (entries.map key).Nodup := by
  have keys : Keyed.keys (entries.map fun entry => (entry.key, entry)) = entries.map key := by
    rw [Keyed.keys, List.map_map]
    rfl
  rw [← keys, ← Keyed.length_ofList_eq_iff, resolve, List.length_map, List.length_map]

end FilterEntry

theorem Filter.parameterNames_normalize (resolve : List FilterEntry → List FilterEntry)
    (parameters : List (String × Filter)) :
    (Filter.parametersNormalize resolve parameters).map Prod.fst = parameters.map Prod.fst := by
  induction parameters with
  | nil => rfl
  | cons parameter rest ih => rw [Filter.parametersNormalize, List.map_cons, ih, List.map_cons]

mutual

/-- A filter and its normal form are written alike. -/
theorem Filter.toJson_normalize :
    (filter : Filter) → (filter.normalize FilterEntry.resolve).toJson = filter.toJson
  | .value _ => rfl
  | .list items => congrArg Json.array (Filter.listToJson_normalize items)
  | .object entries => by
    have fields := FilterEntry.listToFields_normalize entries
    rw [Filter.normalize, Filter.toJson, Filter.toJson, FilterEntry.listToFields_resolve, fields,
      Json.ofFields, Keyed.ofList_ofList]
    rfl

theorem Filter.listToJson_normalize :
    (items : List Filter) →
      Filter.listToJson (Filter.listNormalize FilterEntry.resolve items) = Filter.listToJson items
  | [] => rfl
  | filter :: rest => by
    rw [Filter.listNormalize, Filter.listToJson, filter.toJson_normalize,
      Filter.listToJson_normalize rest, Filter.listToJson]

theorem FilterEntry.listToFields_normalize :
    (entries : List FilterEntry) →
      FilterEntry.listToFields (FilterEntry.listNormalize FilterEntry.resolve entries) =
        FilterEntry.listToFields entries
  | [] => rfl
  | entry :: rest => by
    rw [FilterEntry.listNormalize, FilterEntry.listToFields, entry.toField_normalize,
      FilterEntry.listToFields_normalize rest, FilterEntry.listToFields]

theorem FilterEntry.toField_normalize :
    (entry : FilterEntry) → (entry.normalize FilterEntry.resolve).toField = entry.toField
  | .property name filter => congrArg (Prod.mk name) filter.toJson_normalize
  | .parameter _ => rfl
  | .operation operation => operation.toField_normalize

theorem FilterOperation.toField_normalize :
    (operation : FilterOperation) →
      (operation.normalize FilterEntry.resolve).toField = operation.toField
  | .compare _ operand => congrArg (Prod.mk _) operand.toJson_normalize
  | .apply _ operand => congrArg (Prod.mk _) operand.toJson_normalize
  | .duration literal => congrArg (Prod.mk _) literal.toJson_unsignedZeros
  | .raw _ => rfl
  | .template text parameters => by
    have names := Filter.parameterNames_normalize FilterEntry.resolve parameters
    rw [FilterOperation.normalize, FilterOperation.toField, FilterOperation.toField, names,
      Filter.parametersToFields_normalize parameters]
  | .resource _ => rfl
  | .count none => rfl
  | .count (some filter) =>
    congrArg (fun inner => ("$count", Json.object [("$filter", inner)])) filter.toJson_normalize
  | .and operand => congrArg (Prod.mk _) operand.toJson_normalize
  | .or operand => congrArg (Prod.mk _) operand.toJson_normalize
  | .within operand => congrArg (Prod.mk _) operand.toJson_normalize
  | .not operand => congrArg (Prod.mk _) operand.toJson_normalize
  | .lambda quantifier binder body => by
    rw [FilterOperation.normalize, FilterOperation.toField, body.toJson_normalize,
      FilterOperation.toField]
  | .method scope name arguments => by
    rw [FilterOperation.normalize, FilterOperation.toField, Filter.listToJson_normalize arguments,
      FilterOperation.toField]
  | .canAccess => rfl

theorem Filter.parametersToFields_normalize :
    (parameters : List (String × Filter)) →
      Filter.parametersToFields (Filter.parametersNormalize FilterEntry.resolve parameters) =
        Filter.parametersToFields parameters
  | [] => rfl
  | (name, filter) :: rest => by
    rw [Filter.parametersNormalize, Filter.parametersToFields, filter.toJson_normalize,
      Filter.parametersToFields_normalize rest, Filter.parametersToFields]

end

theorem FilterEntry.key_normalize (entry : FilterEntry) :
    (entry.normalize FilterEntry.resolve).key = entry.key :=
  congrArg Prod.fst entry.toField_normalize

theorem FilterEntry.keys_normalize (entries : List FilterEntry) :
    (FilterEntry.listNormalize FilterEntry.resolve entries).map FilterEntry.key =
      entries.map FilterEntry.key := by
  induction entries with
  | nil => rfl
  | cons entry rest ih =>
    rw [FilterEntry.listNormalize, List.map_cons, entry.key_normalize, ih, List.map_cons]

end OData
