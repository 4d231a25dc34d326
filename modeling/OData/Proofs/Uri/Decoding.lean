import Mathlib
import OData.Proofs.Uri.Component

namespace OData.Uri

/-- The value of a hexadecimal digit, upper-case or lower-case. -/
def hexValue? (c : Char) : Option Nat :=
  if c.isDigit then some (c.toNat - '0'.toNat)
  else if 'A' ≤ c ∧ c ≤ 'F' then some (c.toNat - 'A'.toNat + 10)
  else if 'a' ≤ c ∧ c ≤ 'f' then some (c.toNat - 'a'.toNat + 10)
  else none

/-- The byte that two hexadecimal digits stand for. -/
def hexByte? (high low : Char) : Option UInt8 := do
  let high ← hexValue? high
  let low ← hexValue? low
  return UInt8.ofNat (16 * high + low)

/-- The bytes that a text stands for. A percent sign without two hexadecimal digits behind it stands
for itself. -/
def decodedBytes : Text → List UInt8
  | [] => []
  | '%' :: high :: low :: rest =>
    match hexByte? high low with
    | some byte => byte :: decodedBytes rest
    | none => String.utf8EncodeChar '%' ++ decodedBytes (high :: low :: rest)
  | c :: rest => String.utf8EncodeChar c ++ decodedBytes rest

/-- The decoded text, unless its bytes are no UTF-8. -/
def decode? (text : Text) : Option Text :=
  (decodedBytes text).toByteArray.utf8Decode?.map Array.toList

theorem hexValue?_upperHexDigit {n : Nat} (small : n < 16) : hexValue? (upperHexDigit n) = some n := by
  have all : ∀ n < 16, hexValue? (upperHexDigit n) = some n := by decide
  exact all n small

theorem decodedBytes_escapeByte_append (byte : UInt8) (rest : Text) :
    decodedBytes (escapeByte byte ++ rest) = byte :: decodedBytes rest := by
  have bound := byte.toNat_lt
  have high := hexValue?_upperHexDigit (by omega : byte.toNat / 16 < 16)
  have low := hexValue?_upperHexDigit (by omega : byte.toNat % 16 < 16)
  have digits : hexByte? (upperHexDigit (byte.toNat / 16)) (upperHexDigit (byte.toNat % 16)) =
      some byte := by
    have whole : 16 * (byte.toNat / 16) + byte.toNat % 16 = byte.toNat := Nat.div_add_mod ..
    simp only [hexByte?, high, low, Option.bind_eq_bind, Option.bind_some, Option.pure_def, whole,
      UInt8.ofNat_toNat]
  simp only [escapeByte, List.cons_append, List.nil_append, decodedBytes, digits]

theorem decodedBytes_cons {c : Char} (plain : c ≠ '%') (rest : Text) :
    decodedBytes (c :: rest) = String.utf8EncodeChar c ++ decodedBytes rest := by
  rw [decodedBytes]
  rintro high low tail isPercent
  exact absurd isPercent plain

theorem decodedBytes_flatMap_append (bytes : List UInt8) (rest : Text) :
    decodedBytes (bytes.flatMap escapeByte ++ rest) = bytes ++ decodedBytes rest := by
  induction bytes with
  | nil => rfl
  | cons byte bytes ih =>
    rw [List.flatMap_cons, List.append_assoc, decodedBytes_escapeByte_append, ih, List.cons_append]

/-- An encoded character stands for the bytes of the character. -/
theorem decodedBytes_encodeChar_append (c : Char) (rest : Text) :
    decodedBytes (encodeChar c ++ rest) = String.utf8EncodeChar c ++ decodedBytes rest := by
  rcases encodeChar_cases c with ⟨itself, plain⟩ | ⟨bytes, last, encoded, escaped⟩
  · rw [itself, List.singleton_append, decodedBytes_cons plain]
  · rw [escaped, encoded, List.append_assoc, decodedBytes_flatMap_append,
      decodedBytes_escapeByte_append, List.append_assoc, List.singleton_append]

theorem decodedBytes_encodeComponent (text : Text) :
    decodedBytes (encodeComponent text) = text.flatMap String.utf8EncodeChar := by
  rw [encodeComponent_eq_flatMap]
  induction text with
  | nil => rfl
  | cons c text ih =>
    rw [List.flatMap_cons, List.flatMap_cons, decodedBytes_encodeChar_append, ih]

/-- Decoding reads the bytes as UTF-8, and there is one text for them at most. -/
theorem decode?_eq_some_iff {text decoded : Text} :
    decode? text = some decoded ↔ decodedBytes text = decoded.flatMap String.utf8EncodeChar := by
  constructor
  · intro read
    obtain ⟨characters, valid, rfl⟩ := Option.map_eq_some_iff.mp read
    have encoded := ByteArray.utf8Encode_get_utf8Decode? (h := Option.isSome_of_eq_some valid)
    simp only [valid, Option.get_some, List.utf8Encode] at encoded
    exact (List.toByteArray_inj.mp encoded).symm
  · intro bytes
    have encoded : (decodedBytes text).toByteArray = decoded.utf8Encode := by
      rw [bytes, List.utf8Encode]
    rw [decode?, encoded, List.utf8Decode?_utf8Encode, Option.map_some]

/-- Decoding undoes encoding. -/
theorem decode?_encodeComponent (text : Text) : decode? (encodeComponent text) = some text :=
  decode?_eq_some_iff.mpr (decodedBytes_encodeComponent text)

/-- Encoding tells texts apart. -/
theorem encodeComponent_inj {text other : Text} (same : encodeComponent text = encodeComponent other) :
    text = other := by
  have back := congrArg decode? same
  rw [decode?_encodeComponent, decode?_encodeComponent] at back
  exact Option.some.inj back

theorem decode?_encodeAlias (name : String) : decode? (encodeAlias name) = some ('@' :: name.toList) := by
  refine decode?_eq_some_iff.mpr ?_
  rw [encodeAlias, decodedBytes_cons (by decide), decodedBytes_encodeComponent, List.flatMap_cons]

/-- Two digits behind a percent sign stand nowhere in the text. -/
def Unescaped (text : Text) : Prop :=
  ∀ front high low rest, text = front ++ '%' :: high :: low :: rest → hexByte? high low = none

theorem unescaped_cons {c : Char} {text : Text} :
    Unescaped (c :: text) ↔
      (∀ high low rest, c :: text = '%' :: high :: low :: rest → hexByte? high low = none) ∧
        Unescaped text := by
  constructor
  · intro unescaped
    exact ⟨unescaped [], fun front high low rest split =>
      unescaped (c :: front) high low rest (congrArg (c :: ·) split)⟩
  · rintro ⟨first, later⟩ (_ | ⟨d, front⟩) high low rest split
    · exact first high low rest split
    · exact later front high low rest (List.cons.inj split).2

theorem unescaped_cons_of_ne {c : Char} {text : Text} (plain : c ≠ '%') :
    Unescaped (c :: text) ↔ Unescaped text := by
  rw [unescaped_cons]
  exact and_iff_right fun high low rest split => absurd (List.cons.inj split).1 plain

theorem unescaped_of_not_mem {text : Text} (plain : '%' ∉ text) : Unescaped text := by
  rintro front high low rest rfl
  exact absurd (List.mem_append_right front (List.mem_cons_self ..)) plain

theorem length_decodedBytes_le (text : Text) :
    (decodedBytes text).length ≤ (text.flatMap String.utf8EncodeChar).length := by
  fun_induction decodedBytes text with
  | case1 => exact Nat.le_refl 0
  | case2 high low rest byte digits ih =>
    simp only [List.flatMap_cons, List.length_cons, List.length_append]
    have percent : (String.utf8EncodeChar '%').length = 1 := by decide
    omega
  | case3 high low rest none ih =>
    rw [List.flatMap_cons, List.length_append, List.length_append]
    omega
  | case4 c rest other ih =>
    rw [List.flatMap_cons, List.length_append, List.length_append]
    omega

/-- A text stands for its own bytes only if nothing is escaped in it: an escape is shorter. -/
theorem decodedBytes_eq_iff {text : Text} :
    decodedBytes text = text.flatMap String.utf8EncodeChar ↔ Unescaped text := by
  fun_induction decodedBytes text with
  | case1 => exact ⟨fun _ => unescaped_of_not_mem (List.not_mem_nil), fun _ => rfl⟩
  | case2 high low rest byte digits ih =>
    constructor
    · intro same
      have bound := length_decodedBytes_le rest
      have lengths := congrArg List.length same
      have percent : (String.utf8EncodeChar '%').length = 1 := by decide
      have digit : String.utf8EncodeChar high ≠ [] := String.utf8EncodeChar_ne_nil
      have digitBytes := List.length_pos_iff.mpr digit
      simp only [List.flatMap_cons, List.length_cons, List.length_append] at lengths
      omega
    · intro unescaped
      rw [unescaped [] high low rest rfl] at digits
      cases digits
  | case3 high low rest undigited ih =>
    rw [List.flatMap_cons, List.append_cancel_left_eq, ih]
    refine (unescaped_cons.trans (and_iff_right fun first second behind split => ?_)).symm
    obtain ⟨rfl, rfl, rfl⟩ : high = first ∧ low = second ∧ rest = behind := by simpa using split
    exact undigited
  | case4 c rest other ih =>
    rw [List.flatMap_cons, List.append_cancel_left_eq, ih]
    refine (unescaped_cons.trans (and_iff_right fun first second behind split => ?_)).symm
    obtain ⟨rfl, rfl⟩ := List.cons.inj split
    exact absurd rfl (other first second behind rfl)

/-- A text comes back from decoding as it is exactly if nothing is escaped in it. -/
theorem decode?_eq_self_iff {text : Text} : decode? text = some text ↔ Unescaped text :=
  decode?_eq_some_iff.trans decodedBytes_eq_iff

end OData.Uri
