import Mathlib
import OData.Uri.Path

namespace OData.Uri

/-- The marks that a component has in plain characters beside the unreserved characters. -/
def plainMarks : List Char := ['!', '\'', '(', ')', '*']

/-- A character of a component: itself, or the escapes of its bytes. -/
def encodeChar (c : Char) : Text :=
  if isUnreserved c = true ∨ c ∈ plainMarks then [c]
  else (String.utf8EncodeChar c).flatMap escapeByte

/-- The pieces of escaped text that a replacement sees whole or not at all: a character that opens no
escape, and an escape. -/
inductive EscapeUnit : Text → Prop
  | plain {c : Char} (open_ : c ≠ '%') : EscapeUnit [c]
  | escape {high low : Char} (highOpen : high ≠ '%') (lowOpen : low ≠ '%') :
      EscapeUnit ['%', high, low]

/-- Replacing one escape in a row of units touches exactly the units that are that escape. -/
theorem replace_units {high low : Char} (mark : Text) {units : List Text}
    (whole : ∀ unit ∈ units, EscapeUnit unit) :
    Text.replace ['%', high, low] mark units.flatten =
      (units.map fun unit => if unit = ['%', high, low] then mark else unit).flatten := by
  unfold Text.replace
  induction units with
  | nil => rfl
  | cons unit rest ih =>
    have later := ih fun other member => whole other (List.mem_cons_of_mem _ member)
    cases whole unit (List.mem_cons_self ..) with
    | @plain c opens =>
      have apart : ('%' == c) = false := by simpa using Ne.symm opens
      simp [Text.replaceFrom, List.isPrefixOf, apart, later]
    | @escape first second firstOpens secondOpens =>
      have firstApart : ('%' == first) = false := by simpa using Ne.symm firstOpens
      have secondApart : ('%' == second) = false := by simpa using Ne.symm secondOpens
      by_cases same : first = high ∧ second = low
      · obtain ⟨rfl, rfl⟩ := same
        simp [Text.replaceFrom, List.isPrefixOf, later]
      · have differs : (high == first && low == second) = false := by
          simp only [Bool.and_eq_false_iff, beq_eq_false_iff_ne]
          by_contra both
          simp only [not_or, not_not] at both
          exact same ⟨both.1.symm, both.2.symm⟩
        simp [Text.replaceFrom, List.isPrefixOf, firstApart, secondApart, differs, same, later]

/-- One unit with the escapes of some marks turned back, one mark after another. -/
def restoreUnit (marks : List (Text × Text)) (unit : Text) : Text :=
  marks.foldl (fun unit (pattern, mark) => if unit = pattern then mark else unit) unit

/-- What the rounds over the whole text do, they do to each unit by itself: a mark that is turned back
is a unit again, so the next round meets units only. -/
theorem replace_marks_units {marks : List (Text × Text)} {units : List Text}
    (patterns : ∀ entry ∈ marks, ∃ high low c, entry = (['%', high, low], [c]) ∧ c ≠ '%')
    (whole : ∀ unit ∈ units, EscapeUnit unit) :
    marks.foldl (fun text (pattern, mark) => Text.replace pattern mark text) units.flatten =
      (units.map (restoreUnit marks)).flatten := by
  induction marks generalizing units with
  | nil =>
    have same : units.map (restoreUnit []) = units := List.map_id units
    simp only [List.foldl_nil, same]
  | cons entry rest ih =>
    obtain ⟨high, low, c, rfl, opens⟩ := patterns entry (List.mem_cons_self ..)
    have later := fun other member => patterns other (List.mem_cons_of_mem _ member)
    simp only [List.foldl_cons]
    rw [replace_units [c] whole, ih later, List.map_map]
    · rfl
    · intro unit member
      obtain ⟨old, oldMember, rfl⟩ := List.mem_map.mp member
      split
      · exact .plain opens
      · exact whole old oldMember

/-- The units of a character's escapes. -/
def escapeUnits (c : Char) : List Text :=
  if isUnreserved c then [[c]] else (String.utf8EncodeChar c).map escapeByte

theorem escapeChar_eq_flatten (c : Char) : escapeChar c = (escapeUnits c).flatten := by
  unfold escapeChar escapeUnits
  split
  · rfl
  · rw [List.flatMap_def]

theorem upperHexDigit_isAlphanum {n : Nat} (bound : n < 16) :
    (upperHexDigit n).isAlphanum = true := by
  have all : ∀ n < 16, (upperHexDigit n).isAlphanum = true := by decide
  exact all n bound

theorem ne_of_isAlphanum {c d : Char} (alphanum : c.isAlphanum = true)
    (other : d.isAlphanum = false) : c ≠ d := by
  rintro rfl
  rw [alphanum] at other
  exact Bool.noConfusion other

theorem escapeByte_unit (byte : UInt8) : EscapeUnit (escapeByte byte) := by
  have bound := byte.toNat_lt
  have high : byte.toNat / 16 < 16 := by omega
  have low : byte.toNat % 16 < 16 := by omega
  exact .escape (ne_of_isAlphanum (upperHexDigit_isAlphanum high) rfl)
    (ne_of_isAlphanum (upperHexDigit_isAlphanum low) rfl)

theorem escapeUnits_unit {c : Char} {unit : Text} (member : unit ∈ escapeUnits c) :
    EscapeUnit unit := by
  unfold escapeUnits at member
  split at member
  case isTrue unreserved =>
    rw [List.mem_singleton.mp member]
    refine .plain ?_
    rintro rfl
    exact absurd unreserved (by decide)
  case isFalse =>
    obtain ⟨byte, _, rfl⟩ := List.mem_map.mp member
    exact escapeByte_unit byte

theorem upperHexDigit_inj {n m : Nat} (nBound : n < 16) (mBound : m < 16)
    (same : upperHexDigit n = upperHexDigit m) : n = m := by
  have all : ∀ n < 16, ∀ m < 16, upperHexDigit n = upperHexDigit m → n = m := by decide
  exact all n nBound m mBound same

/-- The escape of a byte determines the byte. -/
theorem escapeByte_inj {a b : UInt8} (same : escapeByte a = escapeByte b) : a = b := by
  simp only [escapeByte, List.cons.injEq, and_true, true_and] at same
  have aBound := a.toNat_lt
  have bBound := b.toNat_lt
  have high := upperHexDigit_inj (by omega) (by omega) same.1
  have low := upperHexDigit_inj (by omega) (by omega) same.2
  exact UInt8.toNat_inj.mp (by omega)

/-- Only a character below 128 has a byte below 128, and then it is that byte. -/
theorem toNat_of_ascii_byte {c : Char} {byte : UInt8} (member : byte ∈ String.utf8EncodeChar c)
    (ascii : byte.toNat < 128) : c.toNat = byte.toNat := by
  have value : c.toNat = c.val.toNat := rfl
  unfold String.utf8EncodeChar at member
  simp only at member
  split at member
  · rw [List.mem_singleton.mp member, value, UInt8.toNat_ofNat']
    omega
  · exfalso
    split at member
    · simp only [List.mem_cons, List.not_mem_nil, or_false] at member
      rcases member with rfl | rfl <;> simp only [UInt8.toNat_ofNat'] at ascii <;> omega
    · split at member
      · simp only [List.mem_cons, List.not_mem_nil, or_false] at member
        rcases member with rfl | rfl | rfl <;> simp only [UInt8.toNat_ofNat'] at ascii <;> omega
      · simp only [List.mem_cons, List.not_mem_nil, or_false] at member
        rcases member with rfl | rfl | rfl | rfl <;> simp only [UInt8.toNat_ofNat'] at ascii <;> omega

theorem utf8EncodeChar_of_ascii {c : Char} (ascii : c.toNat < 128) :
    String.utf8EncodeChar c = [UInt8.ofNat c.toNat] := by
  have small : c.utf8Size = 1 := by
    rw [Char.utf8Size_eq_one_iff, UInt32.le_iff_toNat_le]
    change c.toNat ≤ 127
    omega
  exact String.utf8EncodeChar_eq_singleton small

/-- The bytes of the plain marks, in the order in which their escapes are turned back. -/
def plainBytes : List UInt8 := [0x21, 0x27, 0x28, 0x29, 0x2A]

theorem plainBytes_ascii (byte : UInt8) (member : byte ∈ plainBytes) :
    byte.toNat < 128 ∧ Char.ofNat byte.toNat ∈ plainMarks := by
  have all : plainBytes.all (fun byte =>
      byte.toNat < 128 ∧ Char.ofNat byte.toNat ∈ plainMarks) = true := by decide
  exact of_decide_eq_true (List.all_eq_true.mp all byte member)

theorem keptMarks_eq :
    keptMarks = plainBytes.map fun byte => (escapeByte byte, [Char.ofNat byte.toNat]) := by
  decide

theorem restoreUnit_keptMarks_of_ne {unit : Text}
    (apart : ∀ byte ∈ plainBytes, unit ≠ escapeByte byte) : restoreUnit keptMarks unit = unit := by
  rw [keptMarks_eq]
  simp only [plainBytes, List.forall_mem_cons, List.not_mem_nil, false_imp_iff, implies_true,
    and_true] at apart
  obtain ⟨exclamation, quote, opening, closing, star⟩ := apart
  simp only [restoreUnit, plainBytes, List.map_cons, List.map_nil, List.foldl_cons, List.foldl_nil,
    if_neg exclamation, if_neg quote, if_neg opening, if_neg closing, if_neg star]

theorem restoreUnit_escapeByte_of_not_mem {byte : UInt8} (other : byte ∉ plainBytes) :
    restoreUnit keptMarks (escapeByte byte) = escapeByte byte := by
  refine restoreUnit_keptMarks_of_ne fun mark member same => other ?_
  rw [escapeByte_inj same]
  exact member

/-- The units of one character, turned back: five characters come out plain, all others as they
were escaped. -/
theorem restoreUnit_escapeUnits (c : Char) :
    ((escapeUnits c).map (restoreUnit keptMarks)).flatten = encodeChar c := by
  by_cases unreserved : isUnreserved c = true
  · have apart : ∀ byte ∈ plainBytes, [c] ≠ escapeByte byte := by
      intro byte _ same
      exact absurd (congrArg List.length same) (by simp [escapeByte])
    simp only [escapeUnits, encodeChar, unreserved, if_true, true_or, List.map_cons, List.map_nil,
      restoreUnit_keptMarks_of_ne apart, List.flatten_cons, List.flatten_nil, List.append_nil]
  by_cases plain : c ∈ plainMarks
  · have all : plainMarks.all (fun mark =>
        ((escapeUnits mark).map (restoreUnit keptMarks)).flatten = encodeChar mark) = true := by
      decide
    exact of_decide_eq_true (List.all_eq_true.mp all c plain)
  · have untouched : ∀ byte ∈ String.utf8EncodeChar c,
        restoreUnit keptMarks (escapeByte byte) = escapeByte byte := by
      intro byte member
      refine restoreUnit_escapeByte_of_not_mem fun kept => plain ?_
      have ascii := plainBytes_ascii byte kept
      have back : Char.ofNat byte.toNat = c := by
        rw [← toNat_of_ascii_byte member ascii.1, Char.ofNat_toNat]
      exact back ▸ ascii.2
    have same : ((String.utf8EncodeChar c).map escapeByte).map (restoreUnit keptMarks) =
        (String.utf8EncodeChar c).map escapeByte := by
      rw [List.map_map]
      exact List.map_congr_left untouched
    simp only [escapeUnits, encodeChar, unreserved, plain, or_self, if_false, Bool.false_eq_true,
      same, List.flatMap_def]

/-- A component is encoded in one pass over its characters. -/
theorem encodeComponent_eq_flatMap (text : Text) : encodeComponent text = text.flatMap encodeChar := by
  have escaped : escape text = (text.flatMap escapeUnits).flatten := by
    induction text with
    | nil => rfl
    | cons c rest ih =>
      simp only [escape, List.flatMap_cons, List.flatten_append] at ih ⊢
      rw [← ih, escapeChar_eq_flatten]
  have whole : ∀ unit ∈ text.flatMap escapeUnits, EscapeUnit unit := by
    intro unit member
    obtain ⟨c, _, inUnits⟩ := List.mem_flatMap.mp member
    exact escapeUnits_unit inUnits
  have patterns : ∀ entry ∈ keptMarks, ∃ high low c, entry = (['%', high, low], [c]) ∧ c ≠ '%' := by
    rw [keptMarks_eq]
    simp [plainBytes, escapeByte]
  unfold encodeComponent restoreMarks
  rw [escaped, replace_marks_units patterns whole]
  clear escaped whole patterns
  induction text with
  | nil => rfl
  | cons c rest ih =>
    simp only [List.flatMap_cons, List.map_append, List.flatten_append]
    rw [restoreUnit_escapeUnits, ih]

theorem encodeComponent_append (text other : Text) :
    encodeComponent (text ++ other) = encodeComponent text ++ encodeComponent other := by
  rw [encodeComponent_eq_flatMap, encodeComponent_eq_flatMap, encodeComponent_eq_flatMap,
    List.flatMap_append]

/-- A character is encoded as itself, or its last byte is escaped last. -/
theorem encodeChar_cases (c : Char) :
    (encodeChar c = [c] ∧ c ≠ '%') ∨
      ∃ bytes byte, String.utf8EncodeChar c = bytes ++ [byte] ∧
        encodeChar c = bytes.flatMap escapeByte ++ escapeByte byte := by
  unfold encodeChar
  split
  case isTrue kept =>
    refine Or.inl ⟨rfl, ?_⟩
    rintro rfl
    exact absurd kept (by decide)
  case isFalse =>
    rcases List.eq_nil_or_concat' (String.utf8EncodeChar c) with empty | ⟨bytes, byte, split⟩
    · exact absurd empty String.utf8EncodeChar_ne_nil
    · refine Or.inr ⟨bytes, byte, split, ?_⟩
      rw [split, List.flatMap_append, List.flatMap_singleton]

end OData.Uri
