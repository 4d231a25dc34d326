import Mathlib
import OData.Json.Reader
import OData.Proofs.Keyed

namespace OData

namespace Json

mutual

/-- No object of the value has a key twice. -/
def KeysDistinct : Json → Prop
  | .null => True
  | .bool _ => True
  | .number _ => True
  | .string _ => True
  | .array items => ListKeysDistinct items
  | .object fields => (Keyed.keys fields).Nodup ∧ FieldsKeysDistinct fields

def ListKeysDistinct : List Json → Prop
  | [] => True
  | item :: rest => item.KeysDistinct ∧ ListKeysDistinct rest

def FieldsKeysDistinct : List (String × Json) → Prop
  | [] => True
  | (_, value) :: rest => value.KeysDistinct ∧ FieldsKeysDistinct rest

end

theorem fieldsKeysDistinct_iff {fields : List (String × Json)} :
    FieldsKeysDistinct fields ↔ ∀ field ∈ fields, field.2.KeysDistinct := by
  induction fields with
  | nil => simp [FieldsKeysDistinct]
  | cons field rest ih => rw [FieldsKeysDistinct, List.forall_mem_cons, ih]

theorem keysDistinct_ofFields {fields : List (String × Json)} (inner : FieldsKeysDistinct fields) :
    (ofFields fields).KeysDistinct := by
  rw [fieldsKeysDistinct_iff] at inner
  refine ⟨Keyed.keys_ofList_nodup fields, fieldsKeysDistinct_iff.mpr fun field member => ?_⟩
  exact inner field (Keyed.mem_ofList member)

namespace Reader

/-- What the reader returns with some fuel. -/
structure Distinct (fuel : Nat) : Prop where
  value : ∀ {depth : Nat} {text rest : Text} {value : Json},
    value? fuel depth text = some (value, rest) → value.KeysDistinct
  items : ∀ {depth : Nat} {text rest : Text} {items : List Json},
    items? fuel depth text = some (items, rest) → ListKeysDistinct items
  fields : ∀ {depth : Nat} {text rest : Text} {fields : List (String × Json)},
    fields? fuel depth text = some (fields, rest) → FieldsKeysDistinct fields

theorem value_distinct {fuel depth : Nat} {text rest : Text} {value : Json}
    (less : Distinct fuel) (read : value? (fuel + 1) depth text = some (value, rest)) :
    value.KeysDistinct := by
  unfold value? at read
  split at read
  · cases read; trivial
  · cases read; trivial
  · cases read; trivial
  · obtain ⟨chars, _, read⟩ := Option.bind_eq_some_iff.mp read
    cases read; trivial
  · split at read
    · cases read
    · split at read
      · cases read; trivial
      · obtain ⟨⟨items, tail⟩, inner, read⟩ := Option.bind_eq_some_iff.mp read
        cases read
        exact less.items inner
  · split at read
    · cases read
    · split at read
      · cases read
        exact ⟨List.nodup_nil, trivial⟩
      · obtain ⟨⟨fields, tail⟩, inner, read⟩ := Option.bind_eq_some_iff.mp read
        cases read
        exact keysDistinct_ofFields (less.fields inner)
  · obtain ⟨number, _, read⟩ := Option.bind_eq_some_iff.mp read
    cases read; trivial

theorem items_distinct {fuel depth : Nat} {text rest : Text} {items : List Json}
    (less : Distinct fuel) (read : items? (fuel + 1) depth text = some (items, rest)) :
    ListKeysDistinct items := by
  unfold items? at read
  obtain ⟨⟨item, tail⟩, first, read⟩ := Option.bind_eq_some_iff.mp read
  simp only at read
  split at read
  · cases read
    exact ⟨less.value first, trivial⟩
  · obtain ⟨⟨others, tail⟩, later, read⟩ := Option.bind_eq_some_iff.mp read
    cases read
    exact ⟨less.value first, less.items later⟩
  · cases read

theorem fields_distinct {fuel depth : Nat} {text rest : Text} {fields : List (String × Json)}
    (less : Distinct fuel) (read : fields? (fuel + 1) depth text = some (fields, rest)) :
    FieldsKeysDistinct fields := by
  unfold fields? at read
  split at read
  · obtain ⟨⟨key, tail⟩, _, read⟩ := Option.bind_eq_some_iff.mp read
    simp only at read
    split at read
    · obtain ⟨⟨value, tail⟩, first, read⟩ := Option.bind_eq_some_iff.mp read
      simp only at read
      split at read
      · cases read
        exact ⟨less.value first, trivial⟩
      · obtain ⟨⟨others, tail⟩, later, read⟩ := Option.bind_eq_some_iff.mp read
        cases read
        exact ⟨less.value first, less.fields later⟩
      · cases read
    · cases read
  · cases read

theorem distinct (fuel : Nat) : Distinct fuel := by
  induction fuel with
  | zero => exact ⟨nofun, nofun, nofun⟩
  | succ fuel ih => exact ⟨value_distinct ih, items_distinct ih, fields_distinct ih⟩

end Reader

/-- A value that is read from a text has no key twice, whatever the text repeats. -/
theorem parse?_keysDistinct {text : Text} {value : Json} (read : parse? text = some value) :
    value.KeysDistinct := by
  obtain ⟨⟨found, rest⟩, inner, read⟩ := Option.bind_eq_some_iff.mp read
  simp only at read
  split at read
  · cases read
    exact (Reader.distinct _).value inner
  · cases read

end Json

end OData
