import Mathlib
import OData.Proofs.Text.Alphabet
import OData.Proofs.Uri.Decoding

namespace OData

namespace Text

variable {pattern replacement text : Text}

theorem contains_cons {c : Char} :
    contains pattern (c :: text) = (pattern.isPrefixOf (c :: text) || contains pattern text) := rfl

/-- A text without the pattern is left alone. -/
theorem replace_of_not_contains (missing : contains pattern text = false) :
    replace pattern replacement text = text := by
  unfold replace
  induction text with
  | nil => rfl
  | cons c rest ih =>
    rw [contains_cons, Bool.or_eq_false_iff] at missing
    simp only [replaceFrom, missing.1, ih missing.2, Bool.false_eq_true, if_false]

end Text

namespace Uri

/-- Letters, digits and some marks. -/
def IsPlain (marks : Text) (c : Char) : Prop :=
  ('A' ≤ c ∧ c ≤ 'Z') ∨ ('a' ≤ c ∧ c ≤ 'z') ∨ ('0' ≤ c ∧ c ≤ '9') ∨ c ∈ marks

instance (marks : Text) : DecidablePred (IsPlain marks) := fun _ =>
  inferInstanceAs (Decidable (_ ∨ _))

/-- The digits of escapes, by their values. -/
def escapeDigits : Text := "0123456789ABCDEF".toList

/-- A byte as the plain character that it is, or as its two digits behind a percent sign. -/
def percentByte (marks : Text) (byte : UInt8) : Text :=
  if IsPlain marks (Char.ofNat byte.toNat) then [Char.ofNat byte.toNat]
  else ['%', escapeDigits.getD (byte.toNat / 16) '0', escapeDigits.getD (byte.toNat % 16) '0']

/-- The bytes of a text, written one after another. The marks are ASCII characters. -/
def percentEncode (marks text : Text) : Text :=
  (text.flatMap String.utf8EncodeChar).flatMap (percentByte marks)

/-- The marks that every part of a URI has in plain form. -/
def unreservedMarks : Text := ['-', '_', '.', '~']

/-- The marks that a component has in plain form. -/
def componentMarks : Text := ['-', '_', '.', '~', '!', '\'', '(', ')', '*']

/-- The separators of a URI, and the blank. -/
def separators : Text := [' ', '/', '?', '&', '=', '#', ',', ';', ':', '@', '$', '+']

/-- The rounds that turn marks back, each of them only if the escape is there at all. -/
def restorePresentMarks (escaped : Text) : Text :=
  keptMarks.foldl (fun text (pattern, mark) =>
    if Text.contains pattern text then Text.replace pattern mark text else text) escaped

theorem restorePresentMarks_eq (escaped : Text) :
    restorePresentMarks escaped = restoreMarks escaped := by
  have round (text pattern mark : Text) :
      (if Text.contains pattern text then Text.replace pattern mark text else text) =
        Text.replace pattern mark text := by
    split
    case isTrue => rfl
    case isFalse missing =>
      exact (Text.replace_of_not_contains (Bool.eq_false_iff.mpr missing)).symm
  simp only [restorePresentMarks, restoreMarks, round]

theorem IsPlain.mono {marks more : Text} {c : Char} (plain : IsPlain marks c)
    (among : marks ⊆ more) : IsPlain more c :=
  plain.imp_right (Or.imp_right (Or.imp_right (among ·)))

theorem toNat_lt_of_isPlain {marks : Text} (ascii : ∀ mark ∈ marks, mark.toNat < 128) {c : Char}
    (plain : IsPlain marks c) : c.toNat < 128 := by
  have below {last : Char} (before : c ≤ last) (small : last.toNat < 128) : c.toNat < 128 :=
    (UInt32.le_iff_toNat_le.mp before).trans_lt small
  rcases plain with upper | lower | digit | mark
  · exact below upper.2 (by decide)
  · exact below lower.2 (by decide)
  · exact below digit.2 (by decide)
  · exact ascii c mark

theorem isPlain_unreservedMarks {c : Char} : IsPlain unreservedMarks c ↔ isUnreserved c = true := by
  simp only [IsPlain, unreservedMarks, isUnreserved, Char.isAlphanum, Char.isAlpha, Char.isUpper,
    Char.isLower, Char.isDigit, Bool.or_eq_true, Bool.and_eq_true, decide_eq_true_eq,
    List.contains_iff_mem, or_assoc]
  rfl

theorem isPlain_componentMarks {c : Char} :
    IsPlain componentMarks c ↔ isUnreserved c = true ∨ c ∈ plainMarks := by
  have marks : componentMarks = unreservedMarks ++ plainMarks := rfl
  simp only [← isPlain_unreservedMarks, IsPlain, marks, List.mem_append, or_assoc]

theorem componentMarks_ascii : ∀ mark ∈ componentMarks, mark.toNat < 128 := by
  simp [componentMarks]

theorem percentByte_of_isPlain {marks : Text} {byte : UInt8}
    (plain : IsPlain marks (Char.ofNat byte.toNat)) :
    percentByte marks byte = [Char.ofNat byte.toNat] := if_pos plain

theorem percentByte_of_not_isPlain {marks : Text} {byte : UInt8}
    (other : ¬ IsPlain marks (Char.ofNat byte.toNat)) :
    percentByte marks byte = escapeByte byte := by
  have digit : ∀ n < 16, escapeDigits.getD n '0' = upperHexDigit n := by decide
  have bound := byte.toNat_lt
  rw [percentByte, if_neg other, digit _ (by omega), digit _ (by omega), escapeByte]

theorem toNat_ofNat_byte (byte : UInt8) : (Char.ofNat byte.toNat).toNat = byte.toNat := by
  have bound := byte.toNat_lt
  have valid : byte.toNat.isValidChar := Or.inl (by omega)
  rw [Char.toNat_ofNat, if_pos valid]

/-- The bytes of a plain character come to the character, and those of another are all escaped: no
byte of a longer form is an ASCII character. -/
theorem flatMap_percentByte {marks : Text} (ascii : ∀ mark ∈ marks, mark.toNat < 128) (c : Char) :
    (String.utf8EncodeChar c).flatMap (percentByte marks) =
      if IsPlain marks c then [c] else (String.utf8EncodeChar c).flatMap escapeByte := by
  split
  case isTrue plain =>
    have below := toNat_lt_of_isPlain ascii plain
    have same : Char.ofNat (UInt8.ofNat c.toNat).toNat = c := by
      rw [UInt8.toNat_ofNat_of_lt' (below.trans (by decide)), Char.ofNat_toNat]
    rw [utf8EncodeChar_of_ascii below, List.flatMap_singleton,
      percentByte_of_isPlain (same.symm ▸ plain), same]
  case isFalse other =>
    -- A byte below 128 is a whole character, so a plain byte would make the character plain.
    refine List.flatMap_congr fun byte member => percentByte_of_not_isPlain fun plain => other ?_
    have below := toNat_lt_of_isPlain ascii plain
    rw [toNat_ofNat_byte] at below
    rwa [← toNat_of_ascii_byte member below, Char.ofNat_toNat] at plain

theorem percentEncode_eq_flatMap {marks : Text} (ascii : ∀ mark ∈ marks, mark.toNat < 128)
    (text : Text) :
    percentEncode marks text = text.flatMap fun c =>
      if IsPlain marks c then [c] else (String.utf8EncodeChar c).flatMap escapeByte := by
  rw [percentEncode, List.flatMap_assoc]
  exact List.flatMap_congr fun c _ => flatMap_percentByte ascii c

/-- What is done first, byte by byte. -/
theorem escape_eq_percentEncode (text : Text) :
    escape text = percentEncode unreservedMarks text := by
  have ascii : ∀ mark ∈ unreservedMarks, mark.toNat < 128 := by simp [unreservedMarks]
  rw [percentEncode_eq_flatMap ascii, escape]
  refine List.flatMap_congr fun c _ => ?_
  simp only [escapeChar, isPlain_unreservedMarks]

theorem encodeComponent_eq_percentEncode (text : Text) :
    encodeComponent text = percentEncode componentMarks text := by
  rw [percentEncode_eq_flatMap componentMarks_ascii, encodeComponent_eq_flatMap]
  refine List.flatMap_congr fun c _ => ?_
  simp only [encodeChar, isPlain_componentMarks]

/-- Only plain characters and percent signs are written. -/
theorem mem_percentEncode {marks text : Text} {d : Char} (member : d ∈ percentEncode marks text) :
    d = '%' ∨ IsPlain marks d := by
  obtain ⟨byte, _, inByte⟩ := List.mem_flatMap.mp member
  unfold percentByte at inByte
  split at inByte
  case isTrue plain =>
    rw [List.mem_singleton.mp inByte]
    exact Or.inr plain
  case isFalse =>
    have digit (n : Nat) (small : n < 16) : IsPlain marks (escapeDigits.getD n '0') := by
      have all : ∀ n < 16, IsPlain [] (escapeDigits.getD n '0') := by decide
      exact (all n small).mono (List.nil_subset marks)
    have bound := byte.toNat_lt
    simp only [List.mem_cons, List.not_mem_nil, or_false] at inByte
    rcases inByte with percent | rfl | rfl
    · exact Or.inl percent
    · exact Or.inr (digit _ (by omega))
    · exact Or.inr (digit _ (by omega))

theorem plain_of_mem_encodeComponent {text : Text} {d : Char} (member : d ∈ encodeComponent text) :
    d = '%' ∨ IsPlain componentMarks d :=
  mem_percentEncode (encodeComponent_eq_percentEncode text ▸ member)

/-- Escaping everything but letters, digits and four marks, and then turning five marks back one
after another, is a single pass over the bytes that keeps those marks as well. So the bytes come
back from decoding, texts are told apart, joined texts are encoded one by one, and no separator is
written. -/
theorem encodeComponent_onePass (text : Text) :
    escape text = percentEncode unreservedMarks text ∧
      restorePresentMarks (escape text) = encodeComponent text ∧
      encodeComponent text = percentEncode componentMarks text ∧
      decodedBytes (encodeComponent text) = text.flatMap String.utf8EncodeChar ∧
      (∀ other, encodeComponent other = encodeComponent text → other = text) ∧
      (∀ other, encodeComponent (text ++ other) = encodeComponent text ++ encodeComponent other) ∧
      (∀ d ∈ encodeComponent text, d.toNat < 128) ∧
      Text.Avoids separators (encodeComponent text) := by
  refine ⟨escape_eq_percentEncode text, restorePresentMarks_eq (escape text),
    encodeComponent_eq_percentEncode text, decodedBytes_encodeComponent text,
    fun other same => encodeComponent_inj same, encodeComponent_append text, ?ascii, ?separators⟩
  case ascii =>
    intro d member
    rcases plain_of_mem_encodeComponent member with rfl | plain
    · decide
    · exact toNat_lt_of_isPlain componentMarks_ascii plain
  case separators =>
    have apart : separators.all (fun mark =>
        ¬ (mark = '%' ∨ IsPlain componentMarks mark)) = true := by decide
    intro d member separator
    exact of_decide_eq_true (List.all_eq_true.mp apart d separator)
      (plain_of_mem_encodeComponent member)

/-- A percent sign of the text is no escape, also in front of the digits of a mark. -/
example : encodeComponent "%2521%21!é*".toList = "%252521%2521!%C3%A9*".toList := by decide

end Uri

end OData
