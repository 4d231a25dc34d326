import Mathlib
import OData.Filter.OfJson
import OData.Filter.ToJson
import OData.Proofs.Filter.Canonical
import OData.Proofs.Number.Double
import OData.Proofs.Outcome

namespace OData

/-- The number with a zero of either sign replaced by the positive one. -/
def Double.unsignedZero : Double → Double
  | .finite x => if x.isZero then .zero else .finite x
  | other => other

def DurationLiteral.unsignedZeros (d : DurationLiteral) : DurationLiteral :=
  ⟨d.negative, d.days.unsignedZero, d.hours.unsignedZero, d.minutes.unsignedZero,
    d.seconds.unsignedZero⟩

theorem Double.unsignedZero_of_isZero {x : FiniteDouble} (zero : x.isZero = true) :
    (Double.finite x).unsignedZero = .zero := if_pos zero

theorem Double.unsignedZero_of_set {x : FiniteDouble} (set : x.isZero = false) :
    (Double.finite x).unsignedZero = .finite x := by
  rw [unsignedZero, set, if_neg Bool.false_ne_true]

theorem Double.unsignedZero_idem (value : Double) :
    value.unsignedZero.unsignedZero = value.unsignedZero := by
  cases value with
  | finite x =>
    cases zero : x.isZero
    · rw [unsignedZero_of_set zero, unsignedZero_of_set zero]
    · rw [unsignedZero_of_isZero zero]
      exact unsignedZero_of_isZero rfl
  | infinite negative => rfl
  | undefined => rfl

theorem DurationLiteral.unsignedZeros_idem (d : DurationLiteral) :
    d.unsignedZeros.unsignedZeros = d.unsignedZeros := by
  simp only [unsignedZeros, Double.unsignedZero_idem]

theorem durationField_of_isZero (name : String) {x : FiniteDouble} (zero : x.isZero = true) :
    durationField name (.finite x) = [] := if_pos zero

theorem durationField_unsignedZero (name : String) (part : Double) :
    durationField name part.unsignedZero = durationField name part := by
  cases part with
  | finite x =>
    cases zero : x.isZero
    · rw [Double.unsignedZero_of_set zero]
    · rw [Double.unsignedZero_of_isZero zero, durationField_of_isZero name zero]
      exact durationField_of_isZero name rfl
  | infinite negative => rfl
  | undefined => rfl

/-- The signs of zeros are not written. -/
theorem DurationLiteral.toJson_unsignedZeros (d : DurationLiteral) :
    d.unsignedZeros.toJson = d.toJson := by
  simp only [toJson, unsignedZeros, durationField_unsignedZero]
  rfl

/-- A finite part that is set is written as a number with exactly its value. -/
theorem Double.partToJson_eq_number {x : FiniteDouble} (set : x.isZero = false) :
    ∃ number : JsonNumber, (Double.finite x).partToJson = .number number ∧
      number.toDouble = x := by
  have kept : ∃ number : JsonNumber, Json.number (.double x) = .number number ∧
      number.toDouble = x := ⟨.double x, rfl, rfl⟩
  unfold partToJson
  simp only
  split
  case h_2 => exact kept
  case h_1 n whole =>
    by_cases small : n.natAbs < 2 ^ 53
    · have range : -2 ^ 63 ≤ n ∧ n < 2 ^ 64 := by omega
      refine ⟨.integer ⟨n, range⟩, ?_, ?_⟩
      · rw [if_pos small, Json.ofInt, JsonNumber.ofInt?, dif_pos range]
        rfl
      · rw [JsonNumber.toDouble, FiniteDouble.ofInt?_toInt? set whole small]
        rfl
    · rw [if_neg small]
      exact kept

namespace DurationLiteral

theorem lookup_durationField_of_ne {key name : String} (other : key ≠ name) (part : Double) :
    (durationField name part).lookup key = none := by
  have apart : (key == name) = false := beq_false_of_ne other
  unfold durationField
  split
  · split
    · rfl
    · rw [List.lookup_cons, apart]
      rfl
  · rw [List.lookup_cons, apart]
    rfl

/-- A finite part is read from its own field as it was, and a zero from the absence of the field. -/
theorem lookup_durationField {part : Double} (finite : part.isFinite = true) (name : String) :
    ((durationField name part).lookup name = none ∧ part.unsignedZero = .zero) ∨
      ∃ number : JsonNumber, (durationField name part).lookup name = some (.number number) ∧
        part.unsignedZero = .finite number.toDouble := by
  cases part with
  | infinite negative => cases finite
  | undefined => cases finite
  | finite x =>
    cases set : x.isZero
    · obtain ⟨number, written, value⟩ := Double.partToJson_eq_number set
      refine Or.inr ⟨number, ?_, ?_⟩
      · simp [durationField, set, written]
      · rw [Double.unsignedZero_of_set set, value]
    · refine Or.inl ⟨?_, Double.unsignedZero_of_isZero set⟩
      rw [durationField_of_isZero name set]
      rfl

theorem partOfFields_of_lookup {fields : List (String × Json)} {part : DurationPart}
    {value : Double} (found : (fields.lookup part.name = none ∧ value = .zero) ∨
      ∃ number : JsonNumber, fields.lookup part.name = some (.number number) ∧
        value = .finite number.toDouble) : partOfFields fields part = .ok value := by
  unfold partOfFields
  rcases found with ⟨none, rfl⟩ | ⟨number, some, rfl⟩
  · rw [none]
  · rw [some]

/-- The value of a part. -/
def part (d : DurationLiteral) : DurationPart → Double
  | .days => d.days
  | .hours => d.hours
  | .minutes => d.minutes
  | .seconds => d.seconds

/-- The fields of the JSON form. -/
def jsonFields (d : DurationLiteral) : List (String × Json) :=
  (if d.negative then [("negative", .bool true)] else []) ++
    durationField "days" d.days ++ durationField "hours" d.hours ++
    durationField "minutes" d.minutes ++ durationField "seconds" d.seconds

theorem lookup_sign_of_ne {key : String} (other : key ≠ "negative") (negative : Bool) :
    (if negative then [("negative", Json.bool true)] else []).lookup key = none := by
  have apart : (key == "negative") = false := beq_false_of_ne other
  cases negative
  · rfl
  · simp [List.lookup_cons, apart]

/-- No field stands in the way of another. -/
theorem lookup_jsonFields (d : DurationLiteral) (part : DurationPart) :
    d.jsonFields.lookup part.name =
      (durationField part.name (d.part part)).lookup part.name := by
  cases part <;>
    simp [jsonFields, List.lookup_append, lookup_sign_of_ne, lookup_durationField_of_ne,
      DurationPart.name, part]

theorem signOfFields_jsonFields (d : DurationLiteral) :
    signOfFields d.jsonFields = .ok d.negative := by
  have found : d.jsonFields.lookup "negative" =
      if d.negative then some (.bool true) else none := by
    simp only [jsonFields, List.lookup_append]
    rw [lookup_durationField_of_ne (by decide), lookup_durationField_of_ne (by decide),
      lookup_durationField_of_ne (by decide), lookup_durationField_of_ne (by decide)]
    cases d.negative <;> rfl
  unfold signOfFields
  rw [found]
  cases d.negative <;> rfl

/-- A duration with finite parts is read back from its JSON form. -/
theorem ofJson_toJson {d : DurationLiteral} (finite : d.IsFinite) :
    ofJson d.toJson = .ok d.unsignedZeros := by
  obtain ⟨days, hours, minutes, seconds⟩ := finite
  have own : ∀ part : DurationPart, (d.part part).isFinite = true →
      partOfFields d.jsonFields part = .ok (d.part part).unsignedZero := by
    intro part isFinite
    refine partOfFields_of_lookup ?_
    rw [lookup_jsonFields]
    exact lookup_durationField isFinite part.name
  have written : d.toJson = .object d.jsonFields := rfl
  rw [written, ofJson, signOfFields_jsonFields, own .days days, own .hours hours, own .minutes minutes,
    own .seconds seconds]
  rfl

end DurationLiteral

end OData
