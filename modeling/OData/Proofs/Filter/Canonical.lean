import Mathlib
import OData.Filter.OfJson
import OData.Filter.ToJson
import OData.Proofs.Json.Keys
import OData.Proofs.Outcome

namespace OData

/-- The name of an operation behind its `$`. -/
def OperationKey.name : OperationKey → String
  | .compare op => op.name
  | .apply function => function.name
  | .duration => "duration"
  | .raw => "raw"
  | .resource => ""
  | .count => "count"
  | .and => "and"
  | .or => "or"
  | .within => "in"
  | .not => "not"
  | .lambda quantifier => quantifier.name
  | .method => "fn"
  | .canAccess => "canAccess"

/-- The key of an operation. -/
def OperationKey.text (key : OperationKey) : String := String.ofList ('$' :: key.name.toList)

theorem OperationKey.name_of_ofName? {name : String} {key : OperationKey}
    (found : ofName? name = some key) : key.name = name := by
  unfold ofName? at found
  split at found
  case h_1 op _ isOperator =>
    obtain rfl := Option.some.inj found
    have same := List.find?_some isOperator
    exact of_decide_eq_true same
  case h_2 function _ isFunction =>
    obtain rfl := Option.some.inj found
    have same := List.find?_some isFunction
    exact of_decide_eq_true same
  case h_3 =>
    split at found
    all_goals first | cases found; rfl | cases found

theorem FilterKey.ofString_text (key : OperationKey) : ofString key.text = .operation key := by
  cases key with
  | compare op => cases op <;> rfl
  | apply function => cases function <;> rfl
  | lambda quantifier => cases quantifier <;> rfl
  | duration | raw | resource | count | and | or | within | not | method | canAccess => rfl

theorem FilterKey.text_of_ofString {text : String} {key : OperationKey}
    (found : ofString text = .operation key) : key.text = text := by
  unfold ofString at found
  split at found
  case h_1 name split =>
    split at found
    case h_1 operation isOperation =>
      cases found
      rw [OperationKey.text, OperationKey.name_of_ofName? isOperation, String.toList_ofList, ← split,
        String.ofList_toList]
    case h_2 => cases found
  case h_2 => cases found
  case h_3 => cases found

/-- The operation key that an operation is written under. -/
def FilterOperation.operationKey : FilterOperation → OperationKey
  | .compare op _ => .compare op
  | .apply function _ => .apply function
  | .duration _ => .duration
  | .raw _ => .raw
  | .template _ _ => .raw
  | .resource _ => .resource
  | .count _ => .count
  | .and _ => .and
  | .or _ => .or
  | .within _ => .within
  | .not _ => .not
  | .lambda quantifier _ _ => .lambda quantifier
  | .method _ _ _ => .method
  | .canAccess => .canAccess

theorem FilterOperation.toField_key (operation : FilterOperation) :
    operation.toField.1 = operation.operationKey.text := by
  cases operation with
  | compare op operand => rfl
  | apply function operand => rfl
  | lambda quantifier binder body => rfl
  | template text parameters =>
    rw [toField]
    split <;> simp [operationKey, OperationKey.text, OperationKey.name]
  | count filter =>
    cases filter <;> simp [toField, operationKey, OperationKey.text, OperationKey.name]
  | duration _ | raw _ | resource _ | and _ | or _ | within _ | not _ | method _ _ _ | canAccess =>
    simp [toField, operationKey, OperationKey.text, OperationKey.name]

namespace FilterEntry

/-- The key that an entry is written under; all references to parameters have the same one. -/
def key (entry : FilterEntry) : String := entry.toField.1

def isAlias : FilterEntry → Bool
  | .parameter _ => true
  | _ => false

end FilterEntry

theorem FilterEntry.key_operation (operation : FilterOperation) :
    key (.operation operation) = operation.operationKey.text := operation.toField_key

def DurationLiteral.IsFinite (d : DurationLiteral) : Prop :=
  d.days.isFinite = true ∧ d.hours.isFinite = true ∧ d.minutes.isFinite = true ∧
    d.seconds.isFinite = true

mutual

/-- Filters as they come from JSON. Their values and durations have a JSON form, and no key comes
twice beside the references to parameters, which all have the same one. -/
def Filter.Canonical : Filter → Prop
  | .value (.instant _) => False
  | .value _ => True
  | .list items => Filter.ListCanonical items
  | .object entries =>
    entries.Pairwise (fun first second => first.key = second.key → first.isAlias = true) ∧
      FilterEntry.ListCanonical entries

def Filter.ListCanonical : List Filter → Prop
  | [] => True
  | filter :: rest => filter.Canonical ∧ Filter.ListCanonical rest

def FilterEntry.ListCanonical : List FilterEntry → Prop
  | [] => True
  | entry :: rest => entry.Canonical ∧ FilterEntry.ListCanonical rest

def FilterEntry.Canonical : FilterEntry → Prop
  | .property name filter => FilterKey.ofString name = .property ∧ filter.Canonical
  | .parameter _ => True
  | .operation operation => operation.Canonical

/-- The parameters of a template are in order, or they have different names. -/
def FilterOperation.Canonical : FilterOperation → Prop
  | .compare _ operand => operand.Canonical
  | .apply _ operand => operand.Canonical
  | .duration literal => literal.IsFinite
  | .raw _ => True
  | .template _ parameters =>
    (arePositional (parameters.map Prod.fst) = true ∨ (parameters.map Prod.fst).Nodup ∧
      ∀ name ∈ parameters.map Prod.fst, isParameterName name = true) ∧
      Filter.ParametersCanonical parameters
  | .resource _ => True
  | .count none => True
  | .count (some filter) => filter.Canonical
  | .and operand => operand.Canonical
  | .or operand => operand.Canonical
  | .within operand => operand.Canonical
  | .not operand => operand.Canonical
  | .lambda _ _ body => body ≠ .value .null ∧ body.Canonical
  | .method _ _ arguments => Filter.ListCanonical arguments
  | .canAccess => True

def Filter.ParametersCanonical : List (String × Filter) → Prop
  | [] => True
  | (_, filter) :: rest => filter.Canonical ∧ Filter.ParametersCanonical rest

end

theorem DurationLiteral.partOfFields_isFinite {fields : List (String × Json)} {part : DurationPart}
    {value : Double} (read : partOfFields fields part = .ok value) : value.isFinite = true := by
  unfold partOfFields at read
  split at read
  all_goals first | cases read; rfl | cases read

theorem DurationLiteral.ofJson_isFinite {value : Json} {d : DurationLiteral}
    (read : ofJson value = .ok d) : d.IsFinite := by
  match value with
  | .object fields =>
    obtain ⟨negative, _, read⟩ := bind_eq_ok_iff.mp read
    obtain ⟨days, first, read⟩ := bind_eq_ok_iff.mp read
    obtain ⟨hours, second, read⟩ := bind_eq_ok_iff.mp read
    obtain ⟨minutes, third, read⟩ := bind_eq_ok_iff.mp read
    obtain ⟨seconds, fourth, read⟩ := bind_eq_ok_iff.mp read
    obtain rfl := Except.ok.inj read
    exact ⟨partOfFields_isFinite first, partOfFields_isFinite second, partOfFields_isFinite third,
      partOfFields_isFinite fourth⟩
  | .array _ | .null | .bool _ | .number _ | .string _ => cases read

theorem Filter.ne_null_of_ofJson {value : Json} (present : value ≠ .null) {filter : Filter}
    (read : Filter.ofJson value = .ok filter) : filter ≠ .value .null := by
  cases value with
  | null => exact absurd rfl present
  | bool b => obtain rfl := Except.ok.inj read; nofun
  | number n => obtain rfl := Except.ok.inj read; nofun
  | string s => obtain rfl := Except.ok.inj read; nofun
  | array items =>
    obtain ⟨filters, _, read⟩ := bind_eq_ok_iff.mp read
    obtain rfl := Except.ok.inj read
    nofun
  | object fields =>
    obtain ⟨entries, _, read⟩ := bind_eq_ok_iff.mp read
    obtain rfl := Except.ok.inj read
    nofun

/-- A property or an operation is written under the key that it was read from. -/
def FilterEntry.KeptKey (field : String × Json) (entry : FilterEntry) : Prop :=
  entry.isAlias = false → entry.key = field.1

theorem FilterEntry.key_ne_of_not_isAlias {entry : FilterEntry} (canonical : entry.Canonical)
    (named : entry.isAlias = false) : entry.key ≠ "@" := by
  cases entry with
  | parameter name => cases named
  | property name filter =>
    rintro rfl
    have reserved : FilterKey.ofString "@" = .parameter := rfl
    exact absurd (canonical.1.symm.trans reserved) nofun
  | operation operation =>
    rw [key_operation, OperationKey.text]
    intro same
    have chars := congrArg String.toList same
    rw [String.toList_ofList] at chars
    exact absurd (List.cons.inj chars).1 (by decide)

theorem FilterEntry.key_mem_of_keptKeys {fields : List (String × Json)}
    {entries : List FilterEntry} (kept : List.Forall₂ KeptKey fields entries) {entry : FilterEntry}
    (member : entry ∈ entries) (named : entry.isAlias = false) : entry.key ∈ Keyed.keys fields := by
  induction kept with
  | nil => cases member
  | @cons field first fields entries head _ ih =>
    rcases List.mem_cons.mp member with rfl | later
    · rw [head named]
      exact List.mem_cons_self ..
    · exact List.mem_cons_of_mem _ (ih later)

/-- Keys that do not repeat in an object do not repeat in the filter, references to parameters
apart. -/
theorem FilterEntry.pairwise_of_keptKeys {fields : List (String × Json)}
    {entries : List FilterEntry} (kept : List.Forall₂ KeptKey fields entries)
    (distinct : (Keyed.keys fields).Nodup) (canonical : FilterEntry.ListCanonical entries) :
    entries.Pairwise (fun first second => first.key = second.key → first.isAlias = true) := by
  induction kept with
  | nil => exact .nil
  | @cons field first fields entries head rest ih =>
    obtain ⟨absent, distinct⟩ := List.nodup_cons.mp distinct
    refine .cons (fun second member same => ?_) (ih distinct canonical.2)
    by_contra unnamed
    have named : first.isAlias = false := by simpa using unnamed
    have own := head named
    cases other : second.isAlias
    · have inRest := key_mem_of_keptKeys rest member other
      rw [← same, own] at inRest
      exact absent inRest
    -- a reference has the key `@`, and nothing else does
    · cases second with
      | parameter name => exact key_ne_of_not_isAlias canonical.1 named same
      | property name filter => cases other
      | operation operation => cases other

/-- Parameters in order are named by their numbers. -/
theorem FilterOperation.arePositional_mapIdx (filters : List Filter) :
    arePositional ((filters.mapIdx fun i filter =>
      (String.ofList (Text.ofNat (i + 1)), filter)).map Prod.fst) = true := by
  have names : (filters.mapIdx fun i filter => (String.ofList (Text.ofNat (i + 1)), filter)).map
      Prod.fst = (List.range filters.length).map fun i => String.ofList (Text.ofNat (i + 1)) := by
    refine List.ext_getElem (by simp) fun i _ _ => ?_
    simp
  rw [names, arePositional, List.length_map, List.length_range]
  exact beq_self_eq_true _

theorem Filter.parametersCanonical_mapIdx {filters : List Filter}
    (canonical : Filter.ListCanonical filters) (name : Nat → String) :
    Filter.ParametersCanonical (filters.mapIdx fun i filter => (name i, filter)) := by
  induction filters generalizing name with
  | nil => trivial
  | cons filter rest ih =>
    rw [List.mapIdx_cons]
    exact ⟨canonical.1, ih canonical.2 fun i => name (i + 1)⟩

theorem Filter.at?_of_lookup {key : String} {fields : List (String × Json)} {value : Json}
    (found : fields.lookup key = some value) :
    Filter.at? key fields = some <$> Filter.ofJson value := by
  induction fields with
  | nil => cases found
  | cons field rest ih =>
    obtain ⟨k, other⟩ := field
    rw [List.lookup_cons] at found
    rw [Filter.at?]
    by_cases same : k = key
    · subst same
      rw [beq_self_eq_true] at found
      obtain rfl := Option.some.inj found
      rw [if_pos rfl]
      rfl
    · rw [beq_false_of_ne (Ne.symm same)] at found
      rw [if_neg same]
      exact ih found

/-- The operation that a value describes under its key. -/
def FilterOperation.ofKey (key : OperationKey) (value : Json) : Except Error FilterOperation :=
  match key with
  | .compare op => FilterOperation.compare op <$> Filter.ofJson value
  | .apply function => FilterOperation.apply function <$> Filter.ofJson value
  | .duration => FilterOperation.duration <$> DurationLiteral.ofJson value
  | .raw => FilterOperation.rawOfJson value
  | .resource => FilterOperation.resource <$> ResourcePath.ofJson value
  | .count => FilterOperation.count <$> Filter.countOfJson value
  | .and => FilterOperation.and <$> Filter.ofJson value
  | .or => FilterOperation.or <$> Filter.ofJson value
  | .within => FilterOperation.within <$> Filter.ofJson value
  | .not => FilterOperation.not <$> Filter.ofJson value
  | .lambda quantifier => FilterOperation.lambdaOfJson quantifier value
  | .method => FilterOperation.methodOfJson value
  | .canAccess =>
    match value with
    | .bool true => .ok .canAccess
    | other => .error (.shape (.canAccess other))

/-- The entry that a field describes by itself. -/
def FilterEntry.ofField (key : String) (value : Json) : Except Error FilterEntry :=
  match FilterKey.ofString key with
  | .property => FilterEntry.property key <$> Filter.ofJson value
  | .parameter =>
    match value with
    | .string name => .ok (.parameter name)
    | other => .error (.invalidAlias other.typeName)
  | .unknown => .error (.unrecognisedOperator key)
  | .operation key => FilterEntry.operation <$> FilterOperation.ofKey key value

/-- Fields are read one by one. -/
theorem FilterEntry.listOfFields_cons (key : String) (value : Json) (rest : List (String × Json)) :
    FilterEntry.listOfFields ((key, value) :: rest) = (do
      let entry ← FilterEntry.ofField key value
      let entries ← FilterEntry.listOfFields rest
      return entry :: entries) := by
  conv_lhs => unfold FilterEntry.listOfFields
  unfold FilterEntry.ofField
  cases FilterKey.ofString key with
  | property => rfl
  | unknown => rfl
  | parameter => cases value <;> rfl
  | operation key => rfl

/-- What is known of the operations that a value describes. -/
structure Json.ReadsCanonical (value : Json) : Prop where
  filter : ∀ {filter : Filter}, Filter.ofJson value = .ok filter → filter.Canonical
  raw : ∀ {operation : FilterOperation}, FilterOperation.rawOfJson value = .ok operation →
    operation.operationKey = .raw ∧ operation.Canonical
  count : ∀ {filter : Option Filter}, Filter.countOfJson value = .ok filter →
    (FilterOperation.count filter).Canonical
  lambda : ∀ {quantifier : Quantifier} {operation : FilterOperation},
    FilterOperation.lambdaOfJson quantifier value = .ok operation →
    operation.operationKey = .lambda quantifier ∧ operation.Canonical
  method : ∀ {operation : FilterOperation}, FilterOperation.methodOfJson value = .ok operation →
    operation.operationKey = .method ∧ operation.Canonical

theorem FilterOperation.ofKey_canonical {key : OperationKey} {value : Json}
    {operation : FilterOperation} (inner : value.ReadsCanonical)
    (read : ofKey key value = .ok operation) :
    operation.operationKey = key ∧ operation.Canonical := by
  cases key with
  | compare op | apply function | and | or | within | not =>
    obtain ⟨operand, written, rfl⟩ := map_eq_ok_iff.mp read
    exact ⟨rfl, inner.filter written⟩
  | duration =>
    obtain ⟨literal, written, rfl⟩ := map_eq_ok_iff.mp read
    exact ⟨rfl, DurationLiteral.ofJson_isFinite written⟩
  | resource =>
    obtain ⟨path, _, rfl⟩ := map_eq_ok_iff.mp read
    exact ⟨rfl, trivial⟩
  | count =>
    obtain ⟨filter, written, rfl⟩ := map_eq_ok_iff.mp read
    exact ⟨rfl, inner.count written⟩
  | raw => exact inner.raw read
  | lambda quantifier => exact inner.lambda read
  | method => exact inner.method read
  | canAccess =>
    match value with
    | .bool true =>
      obtain rfl := Except.ok.inj read
      exact ⟨rfl, trivial⟩
    | .bool false | .null | .number _ | .string _ | .array _ | .object _ => cases read

theorem FilterEntry.ofField_canonical {key : String} {value : Json} {entry : FilterEntry}
    (inner : value.ReadsCanonical) (read : ofField key value = .ok entry) :
    KeptKey (key, value) entry ∧ entry.Canonical := by
  unfold ofField at read
  split at read
  case h_1 isProperty =>
    obtain ⟨filter, written, rfl⟩ := map_eq_ok_iff.mp read
    exact ⟨fun _ => rfl, isProperty, inner.filter written⟩
  case h_2 =>
    split at read
    · cases read
      exact ⟨nofun, trivial⟩
    · cases read
  case h_3 => cases read
  case h_4 isOperation =>
    obtain ⟨operation, written, rfl⟩ := map_eq_ok_iff.mp read
    obtain ⟨same, canonical⟩ := FilterOperation.ofKey_canonical inner written
    refine ⟨fun _ => ?_, canonical⟩
    rw [key_operation, same]
    exact FilterKey.text_of_ofString isOperation

mutual

/-- A filter that is read from JSON is canonical. -/
theorem Filter.ofJson_canonical :
    (value : Json) → value.KeysDistinct → ∀ {filter : Filter},
      Filter.ofJson value = .ok filter → filter.Canonical
  | .null, _, _, read => by obtain rfl := Except.ok.inj read; trivial
  | .bool _, _, _, read => by obtain rfl := Except.ok.inj read; trivial
  | .number _, _, _, read => by obtain rfl := Except.ok.inj read; trivial
  | .string _, _, _, read => by obtain rfl := Except.ok.inj read; trivial
  | .array items, distinct, _, read => by
    obtain ⟨filters, inner, read⟩ := bind_eq_ok_iff.mp read
    obtain rfl := Except.ok.inj read
    exact Filter.listOfJson_canonical items distinct inner
  | .object fields, distinct, _, read => by
    obtain ⟨entries, inner, read⟩ := bind_eq_ok_iff.mp read
    obtain rfl := Except.ok.inj read
    obtain ⟨kept, canonical⟩ := FilterEntry.listOfFields_canonical fields distinct.2 inner
    exact ⟨FilterEntry.pairwise_of_keptKeys kept distinct.1 canonical, canonical⟩

theorem Filter.listOfJson_canonical :
    (items : List Json) → Json.ListKeysDistinct items → ∀ {filters : List Filter},
      Filter.listOfJson items = .ok filters → Filter.ListCanonical filters
  | [], _, _, read => by obtain rfl := Except.ok.inj read; trivial
  | item :: rest, distinct, _, read => by
    obtain ⟨filter, first, read⟩ := bind_eq_ok_iff.mp read
    obtain ⟨filters, later, read⟩ := bind_eq_ok_iff.mp read
    obtain rfl := Except.ok.inj read
    exact ⟨Filter.ofJson_canonical item distinct.1 first,
      Filter.listOfJson_canonical rest distinct.2 later⟩

theorem FilterEntry.listOfFields_canonical :
    (fields : List (String × Json)) → Json.FieldsKeysDistinct fields →
      ∀ {entries : List FilterEntry}, FilterEntry.listOfFields fields = .ok entries →
      List.Forall₂ FilterEntry.KeptKey fields entries ∧ FilterEntry.ListCanonical entries
  | [], _, _, read => by
    obtain rfl := Except.ok.inj read
    exact ⟨.nil, trivial⟩
  | (key, value) :: rest, distinct, _, read => by
    rw [FilterEntry.listOfFields_cons] at read
    obtain ⟨entry, first, read⟩ := bind_eq_ok_iff.mp read
    obtain ⟨entries, later, read⟩ := bind_eq_ok_iff.mp read
    obtain rfl := Except.ok.inj read
    have inner : value.ReadsCanonical :=
      ⟨Filter.ofJson_canonical value distinct.1, FilterOperation.rawOfJson_canonical value distinct.1,
        Filter.countOfJson_canonical value distinct.1,
        FilterOperation.lambdaOfJson_canonical _ value distinct.1,
        FilterOperation.methodOfJson_canonical value distinct.1⟩
    obtain ⟨kept, canonical⟩ := FilterEntry.ofField_canonical inner first
    obtain ⟨others, canonicalRest⟩ := FilterEntry.listOfFields_canonical rest distinct.2 later
    exact ⟨.cons kept others, canonical, canonicalRest⟩

theorem FilterOperation.rawOfJson_canonical :
    (value : Json) → value.KeysDistinct → ∀ {operation : FilterOperation},
      FilterOperation.rawOfJson value = .ok operation →
      operation.operationKey = .raw ∧ operation.Canonical
  | .string _, _, _, read => by
    obtain rfl := Except.ok.inj read
    exact ⟨rfl, trivial⟩
  | .array [], _, _, read => by cases read
  | .array (.string template :: parameters), distinct, _, read => by
    obtain ⟨filters, inner, read⟩ := bind_eq_ok_iff.mp read
    obtain rfl := Except.ok.inj read
    have canonical := Filter.listOfJson_canonical parameters distinct.2 inner
    exact ⟨rfl, Or.inl (FilterOperation.arePositional_mapIdx filters),
      Filter.parametersCanonical_mapIdx canonical _⟩
  | .array (.null :: _), _, _, read => by cases read
  | .array (.bool _ :: _), _, _, read => by cases read
  | .array (.number _ :: _), _, _, read => by cases read
  | .array (.array _ :: _), _, _, read => by cases read
  | .array (.object _ :: _), _, _, read => by cases read
  | .object fields, distinct, _, read => by
    rw [FilterOperation.rawOfJson] at read
    split at read
    · obtain ⟨parameters, inner, read⟩ := bind_eq_ok_iff.mp read
      obtain rfl := Except.ok.inj read
      obtain ⟨names, legal, canonical⟩ := Filter.parametersOfFields_canonical fields distinct.2 inner
      exact ⟨rfl, Or.inr ⟨names.nodup distinct.1, legal⟩, canonical⟩
    · cases read
  | .null, _, _, read => by cases read
  | .bool _, _, _, read => by cases read
  | .number _, _, _, read => by cases read

theorem Filter.parametersOfFields_canonical :
    (fields : List (String × Json)) → Json.FieldsKeysDistinct fields →
      ∀ {parameters : List (String × Filter)}, Filter.parametersOfFields fields = .ok parameters →
      List.Sublist (parameters.map Prod.fst) (Keyed.keys fields) ∧
        (∀ name ∈ parameters.map Prod.fst, isParameterName name = true) ∧
        Filter.ParametersCanonical parameters
  | [], _, _, read => by
    obtain rfl := Except.ok.inj read
    exact ⟨.slnil, List.forall_mem_nil _, trivial⟩
  | (name, value) :: rest, distinct, _, read => by
    rw [Filter.parametersOfFields] at read
    split at read
    · obtain ⟨names, legal, canonical⟩ := Filter.parametersOfFields_canonical rest distinct.2 read
      exact ⟨names.cons name, legal, canonical⟩
    · split at read
      case isTrue isName =>
        obtain ⟨filter, first, read⟩ := bind_eq_ok_iff.mp read
        obtain ⟨parameters, later, read⟩ := bind_eq_ok_iff.mp read
        obtain rfl := Except.ok.inj read
        obtain ⟨names, legal, canonical⟩ :=
          Filter.parametersOfFields_canonical rest distinct.2 later
        exact ⟨names.cons_cons name, List.forall_mem_cons.mpr ⟨isName, legal⟩,
          Filter.ofJson_canonical value distinct.1 first, canonical⟩
      case isFalse => cases read

theorem Filter.countOfJson_canonical :
    (value : Json) → value.KeysDistinct → ∀ {filter : Option Filter},
      Filter.countOfJson value = .ok filter → (FilterOperation.count filter).Canonical
  | .object fields, distinct, filter, read => by
    rw [Filter.countOfJson] at read
    split at read
    · have inner := Filter.at?_canonical "$filter" fields distinct.2 read
      cases filter with
      | none => trivial
      | some filter => exact inner filter rfl
    · cases read
  | .null, _, _, read => by cases read
  | .bool _, _, _, read => by cases read
  | .number _, _, _, read => by cases read
  | .string _, _, _, read => by cases read
  | .array _, _, _, read => by cases read

theorem Filter.at?_canonical (key : String) :
    (fields : List (String × Json)) → Json.FieldsKeysDistinct fields →
      ∀ {found : Option Filter}, Filter.at? key fields = .ok found →
      ∀ filter ∈ found, filter.Canonical
  | [], _, _, read => by
    obtain rfl := Except.ok.inj read
    nofun
  | (k, value) :: rest, distinct, _, read => by
    rw [Filter.at?] at read
    split at read
    · obtain ⟨filter, inner, read⟩ := bind_eq_ok_iff.mp read
      obtain rfl := Except.ok.inj read
      rintro other ⟨⟩
      exact Filter.ofJson_canonical value distinct.1 inner
    · exact Filter.at?_canonical key rest distinct.2 read

theorem FilterOperation.lambdaOfJson_canonical (quantifier : Quantifier) :
    (value : Json) → value.KeysDistinct → ∀ {operation : FilterOperation},
      FilterOperation.lambdaOfJson quantifier value = .ok operation →
      operation.operationKey = .lambda quantifier ∧ operation.Canonical
  | .object fields, distinct, _, read => by
    obtain ⟨binder, _, read⟩ := bind_eq_ok_iff.mp read
    split at read
    · cases read
    · cases read
    case h_3 given present found =>
      obtain ⟨body, inner, read⟩ := bind_eq_ok_iff.mp read
      obtain rfl := Except.ok.inj read
      have canonical := Filter.at?_canonical "$expr" fields distinct.2 inner
      rw [Filter.at?_of_lookup found] at inner
      obtain ⟨filter, written, rfl⟩ := map_eq_ok_iff.mp inner
      exact ⟨rfl, Filter.ne_null_of_ofJson (fun none => present (none ▸ rfl)) written,
        canonical filter rfl⟩
  | .null, _, _, read => by cases read
  | .bool _, _, _, read => by cases read
  | .number _, _, _, read => by cases read
  | .string _, _, _, read => by cases read
  | .array _, _, _, read => by cases read

theorem FilterOperation.methodOfJson_canonical :
    (value : Json) → value.KeysDistinct → ∀ {operation : FilterOperation},
      FilterOperation.methodOfJson value = .ok operation →
      operation.operationKey = .method ∧ operation.Canonical
  | .object fields, distinct, _, read => by
    obtain ⟨arguments, inner, read⟩ := bind_eq_ok_iff.mp read
    obtain ⟨scope, _, read⟩ := bind_eq_ok_iff.mp read
    obtain ⟨name, _, read⟩ := bind_eq_ok_iff.mp read
    obtain rfl := Except.ok.inj read
    exact ⟨rfl, Filter.argumentsOfFields_canonical fields distinct.2 inner⟩
  | .null, _, _, read => by cases read
  | .bool _, _, _, read => by cases read
  | .number _, _, _, read => by cases read
  | .string _, _, _, read => by cases read
  | .array _, _, _, read => by cases read

theorem Filter.argumentsOfFields_canonical :
    (fields : List (String × Json)) → Json.FieldsKeysDistinct fields →
      ∀ {arguments : List Filter}, Filter.argumentsOfFields fields = .ok arguments →
      Filter.ListCanonical arguments
  | [], _, _, read => by obtain rfl := Except.ok.inj read; trivial
  | (key, value) :: rest, distinct, _, read => by
    unfold Filter.argumentsOfFields at read
    split at read
    · match value with
      | .null => obtain rfl := Except.ok.inj read; trivial
      | .array items => exact Filter.listOfJson_canonical items distinct.1 read
      | .bool _ => cases read
      | .number _ => cases read
      | .string _ => cases read
      | .object _ => cases read
    · exact Filter.argumentsOfFields_canonical rest distinct.2 read

end

end OData
