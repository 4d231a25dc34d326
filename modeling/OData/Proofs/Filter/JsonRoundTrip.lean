import Mathlib
import OData.Proofs.Filter.Aliases

namespace OData

namespace FilterEntry

/-- The field of an entry is read as the entry. -/
def ReadsBack (entry : FilterEntry) : Prop :=
  ofField entry.toField.1 entry.toField.2 = .ok entry

theorem listOfFields_of_readsBack {entries : List FilterEntry}
    (each : ∀ entry ∈ entries, entry.ReadsBack) :
    listOfFields (listToFields entries) = .ok entries := by
  induction entries with
  | nil => rfl
  | cons entry rest ih =>
    obtain ⟨first, others⟩ := List.forall_mem_cons.mp each
    rw [listToFields, listOfFields_cons, first, ih others]
    rfl

/-- Fields with repeated keys are read as the entries with repeated keys resolved. -/
theorem listOfFields_ofList {entries : List FilterEntry}
    (each : ∀ entry ∈ entries, entry.ReadsBack) :
    listOfFields (Keyed.ofList (listToFields entries)) = .ok (resolve entries) := by
  rw [← listToFields_resolve]
  exact listOfFields_of_readsBack fun entry member => each entry (mem_resolve member)

theorem ofField_property {name : String} (isProperty : FilterKey.ofString name = .property)
    (value : Json) : ofField name value = property name <$> Filter.ofJson value := by
  unfold ofField
  rw [isProperty]

theorem ofField_parameter (name : String) : ofField "@" (.string name) = .ok (.parameter name) := by
  have isParameter : FilterKey.ofString "@" = .parameter := rfl
  unfold ofField
  rw [isParameter]

theorem ofField_operation (key : OperationKey) (value : Json) :
    ofField key.text value = operation <$> FilterOperation.ofKey key value := by
  unfold ofField
  rw [FilterKey.ofString_text]

end FilterEntry

theorem ResourcePath.ofJson_toJson (path : ResourcePath) : ofJson path.toJson = .ok path := by
  cases path with
  | single name => rfl
  | segments names =>
    have each : (names.map Json.string).mapM segmentOfJson = .ok names := by
      induction names with
      | nil => rfl
      | cons name rest ih =>
        rw [List.map_cons, List.mapM_cons, ih]
        rfl
    rw [toJson, ofJson, each]
    rfl

namespace FilterOperation

/-- Parameters in order are those that are numbered. -/
theorem positional_of_arePositional {parameters : List (String × Filter)}
    (inOrder : arePositional (parameters.map Prod.fst) = true) (text : String) :
    positional text (parameters.map Prod.snd) = .template text parameters := by
  have names := eq_of_beq inOrder
  rw [List.length_map] at names
  refine congrArg (template text) (List.ext_getElem (by simp) fun i _ bound => ?_)
  have name : (parameters.map Prod.fst)[i]? = some (String.ofList (Text.ofNat (i + 1))) := by
    rw [names, List.getElem?_map, List.getElem?_range bound]
    rfl
  rw [List.getElem?_map, List.getElem?_eq_getElem bound] at name
  rw [List.getElem_mapIdx, List.getElem_map, ← Option.some.inj name]

end FilterOperation

/-- A name behind `$` in a template is not that of the template itself. -/
theorem ne_string_of_isParameterName {name : String} (legal : isParameterName name = true) :
    name ≠ "$string" := by
  rintro rfl
  exact absurd legal (by decide)

theorem Filter.parametersToFields_eq_map (parameters : List (String × Filter)) :
    Filter.parametersToFields parameters = parameters.map (Prod.map id Filter.toJson) := by
  induction parameters with
  | nil => rfl
  | cons parameter rest ih => rw [Filter.parametersToFields, ih, List.map_cons]; rfl

theorem Filter.toJson_ne_null {filter : Filter} (present : filter ≠ .value .null) :
    filter.toJson ≠ .null := by
  intro none
  cases filter with
  | value scalar => cases scalar <;> first | exact present rfl | cases none
  | list items => cases none
  | object entries => cases none

theorem FilterOperation.rawOfJson_named {text : String} {parameters : List (String × Filter)}
    (distinct : (parameters.map Prod.fst).Nodup)
    (legal : ∀ name ∈ parameters.map Prod.fst, isParameterName name = true) :
    rawOfJson (.ofFields (("$string", .string text) :: Filter.parametersToFields parameters)) =
      template text <$> Filter.parametersOfFields (Filter.parametersToFields parameters) := by
  have keys : Keyed.keys (Filter.parametersToFields parameters) = parameters.map Prod.fst := by
    rw [Filter.parametersToFields_eq_map, Keyed.keys, List.map_map]
    rfl
  have absent : "$string" ∉ Keyed.keys (Filter.parametersToFields parameters) := by
    rw [keys]
    exact fun member => ne_string_of_isParameterName (legal _ member) rfl
  have nodup : (Keyed.keys (("$string", .string text) ::
      Filter.parametersToFields parameters)).Nodup :=
    List.nodup_cons.mpr ⟨absent, by rwa [← keys] at distinct⟩
  rw [Json.ofFields, Keyed.ofList_of_nodup nodup, rawOfJson, List.lookup_cons,
    beq_self_eq_true]
  conv_lhs => unfold Filter.parametersOfFields
  rfl

theorem FilterOperation.lambdaOfJson_of_ofJson (quantifier : Quantifier) (binder : String)
    {value : Json} (present : value ≠ .null) {body : Filter}
    (read : Filter.ofJson value = .ok body) :
    lambdaOfJson quantifier (.object [("$alias", .string binder), ("$expr", value)]) =
      .ok (.lambda quantifier binder body) := by
  have found : ([("$alias", .string binder), ("$expr", value)] : List (String × Json)).lookup
      "$expr" = some value := rfl
  have inner := Filter.at?_of_lookup found
  rw [read] at inner
  rw [lambdaOfJson, inner]
  cases value with
  | null => exact absurd rfl present
  | bool _ | number _ | string _ | array _ | object _ => rfl

mutual

/-- What was written is read as the normal form. -/
theorem Filter.ofJson_toJson_normalize :
    (filter : Filter) → filter.Canonical →
      Filter.ofJson filter.toJson = .ok (filter.normalize FilterEntry.resolve)
  | .value .null, _ => rfl
  | .value (.bool _), _ => rfl
  | .value (.number _), _ => rfl
  | .value (.string _), _ => rfl
  | .list items, canonical => by
    rw [Filter.toJson, Filter.ofJson, Filter.listOfJson_listToJson items canonical]
    rfl
  | .object entries, canonical => by
    have each := FilterEntry.readsBack_listNormalize entries canonical.2
    rw [Filter.toJson, Json.ofFields, Filter.ofJson, ← FilterEntry.listToFields_normalize,
      FilterEntry.listOfFields_ofList each]
    rfl

theorem Filter.listOfJson_listToJson :
    (items : List Filter) → Filter.ListCanonical items →
      Filter.listOfJson (Filter.listToJson items) =
        .ok (Filter.listNormalize FilterEntry.resolve items)
  | [], _ => rfl
  | filter :: rest, canonical => by
    rw [Filter.listToJson, Filter.listOfJson, filter.ofJson_toJson_normalize canonical.1,
      Filter.listOfJson_listToJson rest canonical.2]
    rfl

theorem FilterEntry.readsBack_listNormalize :
    (entries : List FilterEntry) → FilterEntry.ListCanonical entries →
      ∀ entry ∈ FilterEntry.listNormalize FilterEntry.resolve entries, entry.ReadsBack
  | [], _ => List.forall_mem_nil _
  | entry :: rest, canonical =>
    List.forall_mem_cons.mpr ⟨entry.readsBack_normalize canonical.1,
      FilterEntry.readsBack_listNormalize rest canonical.2⟩

theorem FilterEntry.readsBack_normalize :
    (entry : FilterEntry) → entry.Canonical → (entry.normalize FilterEntry.resolve).ReadsBack
  | .property name filter, canonical => by
    rw [FilterEntry.ReadsBack, FilterEntry.toField_normalize, FilterEntry.toField,
      FilterEntry.ofField_property canonical.1, filter.ofJson_toJson_normalize canonical.2]
    rfl
  | .parameter name, _ => FilterEntry.ofField_parameter name
  | .operation operation, canonical => by
    rw [FilterEntry.ReadsBack, FilterEntry.toField_normalize, FilterEntry.toField,
      operation.toField_key, FilterEntry.ofField_operation, operation.ofKey_toField canonical]
    rfl

theorem FilterOperation.ofKey_toField :
    (operation : FilterOperation) → operation.Canonical →
      FilterOperation.ofKey operation.operationKey operation.toField.2 =
        .ok (operation.normalize FilterEntry.resolve)
  | .compare op operand, canonical =>
    congrArg (FilterOperation.compare op <$> ·) (operand.ofJson_toJson_normalize canonical)
  | .apply function operand, canonical =>
    congrArg (FilterOperation.apply function <$> ·) (operand.ofJson_toJson_normalize canonical)
  | .duration literal, canonical =>
    congrArg (FilterOperation.duration <$> ·) (literal.ofJson_toJson canonical)
  | .raw _, _ => rfl
  | .template text parameters, ⟨names, canonical⟩ => by
    rw [FilterOperation.normalize, FilterOperation.toField]
    by_cases inOrder : arePositional (parameters.map Prod.fst) = true
    -- a list has no names, and the numbers that it is read with are the names
    · have normalInOrder := inOrder
      rw [← Filter.parameterNames_normalize FilterEntry.resolve] at normalInOrder
      have read := congrArg (FilterOperation.positional text <$> ·)
        (Filter.listOfJson_parametersToFields parameters canonical)
      rw [if_pos inOrder, ← FilterOperation.positional_of_arePositional normalInOrder]
      exact read
    · obtain ⟨distinct, legal⟩ := names.resolve_left inOrder
      have read := congrArg (FilterOperation.template text <$> ·)
        (Filter.parametersOfFields_parametersToFields parameters legal canonical)
      rw [if_neg inOrder]
      exact (FilterOperation.rawOfJson_named distinct legal).trans read
  | .resource path, _ => congrArg (FilterOperation.resource <$> ·) path.ofJson_toJson
  | .count none, _ => rfl
  | .count (some filter), canonical =>
    congrArg (fun inner => FilterOperation.count <$> some <$> inner)
      (filter.ofJson_toJson_normalize canonical)
  | .and operand, canonical =>
    congrArg (FilterOperation.and <$> ·) (operand.ofJson_toJson_normalize canonical)
  | .or operand, canonical =>
    congrArg (FilterOperation.or <$> ·) (operand.ofJson_toJson_normalize canonical)
  | .within operand, canonical =>
    congrArg (FilterOperation.within <$> ·) (operand.ofJson_toJson_normalize canonical)
  | .not operand, canonical =>
    congrArg (FilterOperation.not <$> ·) (operand.ofJson_toJson_normalize canonical)
  | .lambda quantifier binder body, ⟨present, canonical⟩ =>
    FilterOperation.lambdaOfJson_of_ofJson quantifier binder (Filter.toJson_ne_null present)
      (body.ofJson_toJson_normalize canonical)
  | .method scope name arguments, canonical =>
    congrArg (FilterOperation.method scope name <$> ·)
      (Filter.listOfJson_listToJson arguments canonical)
  | .canAccess, _ => rfl

theorem Filter.parametersOfFields_parametersToFields :
    (parameters : List (String × Filter)) →
      (∀ name ∈ parameters.map Prod.fst, isParameterName name = true) →
      Filter.ParametersCanonical parameters →
      Filter.parametersOfFields (Filter.parametersToFields parameters) =
        .ok (Filter.parametersNormalize FilterEntry.resolve parameters)
  | [], _, _ => rfl
  | (name, filter) :: rest, legal, canonical => by
    obtain ⟨own, others⟩ := List.forall_mem_cons.mp legal
    rw [Filter.parametersToFields, Filter.parametersOfFields,
      if_neg (ne_string_of_isParameterName own), if_pos own,
      filter.ofJson_toJson_normalize canonical.1,
      Filter.parametersOfFields_parametersToFields rest others canonical.2]
    rfl

/-- The values alone, for parameters in order. -/
theorem Filter.listOfJson_parametersToFields :
    (parameters : List (String × Filter)) → Filter.ParametersCanonical parameters →
      Filter.listOfJson ((Filter.parametersToFields parameters).map Prod.snd) =
        .ok ((Filter.parametersNormalize FilterEntry.resolve parameters).map Prod.snd)
  | [], _ => rfl
  | (name, filter) :: rest, canonical => by
    rw [Filter.parametersToFields, List.map_cons, Filter.listOfJson,
      filter.ofJson_toJson_normalize canonical.1,
      Filter.listOfJson_parametersToFields rest canonical.2]
    rfl

end

/-- A filter that was read is written in a form that is read again. What is read then is the same
filter, up to the signs of zeros in durations, exactly where no object refers to parameters twice,
and in every case it has the same form. The keys of an object are distinct in every value that was
parsed. -/
theorem Filter.toJson_reread {value : Json} {filter : Filter} (distinct : value.KeysDistinct)
    (read : Filter.ofJson value = .ok filter) :
    ∃ second, Filter.ofJson filter.toJson = .ok second ∧
      (second.unsignedZeros = filter.unsignedZeros ↔ filter.SingleAliases) ∧
      second.toJson = filter.toJson := by
  have canonical : filter.Canonical := Filter.ofJson_canonical value distinct read
  exact ⟨filter.normal, filter.ofJson_toJson_normalize canonical,
    filter.normalize_eq_iff canonical, filter.toJson_normalize⟩

/-- Two references to parameters, beside a duration of minus zero days, come back as one. -/
theorem Filter.toJson_reread_twoAliases :
    ∃ second,
      Filter.ofJson (Filter.toJson (.object [.parameter "a", .parameter "b",
        .operation (.duration ⟨true, .finite (.zero true), .zero, .zero, .zero⟩)])) = .ok second ∧
      second.unsignedZeros ≠ Filter.unsignedZeros (.object [.parameter "a", .parameter "b",
        .operation (.duration ⟨true, .finite (.zero true), .zero, .zero, .zero⟩)]) ∧
      second.toJson =
        .object [("@", .string "b"), ("$duration", .object [("negative", .bool true)])] := by
  have distinct : Json.KeysDistinct (.object [("@first", .string "a"), ("@second", .string "b"),
      ("$duration", .object [("negative", .bool true),
        ("days", .number (.double (.zero true)))])]) := by
    simp [Json.KeysDistinct, Json.FieldsKeysDistinct, Keyed.keys]
  obtain ⟨second, read, same, form⟩ := Filter.toJson_reread distinct rfl
  refine ⟨second, read, fun equal => ?_, form⟩
  have single := (same.mp equal).1
  exact absurd single (by decide)

end OData
