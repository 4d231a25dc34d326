import Mathlib
import OData.Proofs.Uri.Alphabet

namespace OData.Uri

theorem encodeComponent_snoc (text : Text) (c : Char) :
    encodeComponent (text ++ [c]) = encodeComponent text ++ encodeChar c := by
  rw [encodeComponent_append, encodeComponent_eq_flatMap [c], List.flatMap_singleton]

/-- The digits of escapes. -/
def isEscapeDigit (c : Char) : Bool := c.isDigit || ['A', 'B', 'C', 'D', 'E', 'F'].contains c

theorem ne_percent_of_isEscapeDigit {c : Char} (digit : isEscapeDigit c = true) : c ≠ '%' := by
  rintro rfl
  exact absurd digit (by decide)

theorem escapeByte_digits (byte : UInt8) :
    ∃ high low, escapeByte byte = ['%', high, low] ∧ isEscapeDigit high = true ∧
      isEscapeDigit low = true := by
  have digit : ∀ n < 16, isEscapeDigit (upperHexDigit n) = true := by decide
  have bound := byte.toNat_lt
  exact ⟨_, _, rfl, digit _ (by omega), digit _ (by omega)⟩

/-- What is written last and is no digit of an escape was there before. -/
theorem encodeComponent_eq_snoc {text front : Text} {d : Char}
    (written : encodeComponent text = front ++ [d]) (plain : isEscapeDigit d = false) :
    d ≠ '%' ∧ ∃ rest, text = rest ++ [d] ∧ encodeComponent rest = front := by
  rcases List.eq_nil_or_concat' text with rfl | ⟨rest, c, rfl⟩
  · exact absurd written.symm (List.append_ne_nil_of_right_ne_nil front (List.cons_ne_nil d []))
  rw [encodeComponent_snoc] at written
  rcases encodeChar_cases c with ⟨itself, other⟩ | ⟨bytes, byte, _, escaped⟩
  · rw [itself] at written
    obtain ⟨same, last⟩ := List.append_inj' written rfl
    obtain rfl : c = d := List.head_eq_of_cons_eq last
    exact ⟨other, rest, rfl, same⟩
  · obtain ⟨high, low, digits, _, isDigit⟩ := escapeByte_digits byte
    have cut : encodeComponent rest ++ bytes.flatMap escapeByte ++ ['%', high] ++ [low] =
        front ++ [d] := by
      rw [← written, escaped, digits]
      simp only [List.append_assoc, List.cons_append, List.nil_append]
    obtain rfl : low = d := List.head_eq_of_cons_eq (List.append_inj' cut rfl).2
    rw [isDigit] at plain
    cases plain

/-- An escape that is written last stands for the last byte of the last character. Its digits cannot
be characters of their own, since no percent sign would be written in front of them. -/
theorem encodeComponent_eq_append_escapeByte {text front : Text} {byte : UInt8}
    (written : encodeComponent text = front ++ escapeByte byte) :
    ∃ rest c bytes, text = rest ++ [c] ∧ String.utf8EncodeChar c = bytes ++ [byte] ∧
      front = encodeComponent rest ++ bytes.flatMap escapeByte := by
  obtain ⟨high, low, digits, highDigit, lowDigit⟩ := escapeByte_digits byte
  have nonempty (front : Text) (c : Char) (rest : Text) : [] ≠ front ++ c :: rest :=
    (List.append_ne_nil_of_right_ne_nil front (List.cons_ne_nil c rest)).symm
  rcases List.eq_nil_or_concat' text with rfl | ⟨rest, c, rfl⟩
  · rw [digits] at written
    exact absurd written (nonempty front '%' [high, low])
  rw [encodeComponent_snoc] at written
  rcases encodeChar_cases c with ⟨itself, _⟩ | ⟨bytes, last, encoded, escaped⟩
  · exfalso
    have cut : encodeComponent rest ++ [c] = front ++ ['%', high] ++ [low] := by
      rw [← itself, written, digits, List.append_assoc]
      rfl
    have before := (List.append_inj' cut rfl).1
    rcases List.eq_nil_or_concat' rest with rfl | ⟨earlier, d, rfl⟩
    · exact nonempty front '%' [high] before
    rw [encodeComponent_snoc] at before
    rcases encodeChar_cases d with ⟨itself, _⟩ | ⟨bytes, last, _, escaped⟩
    · have percent : encodeComponent earlier ++ [d] = front ++ ['%'] ++ [high] := by
        rw [← itself, before, List.append_assoc]
        rfl
      exact (encodeComponent_eq_snoc (List.append_inj' percent rfl).1 (by decide)).1 rfl
    · obtain ⟨first, second, lastDigits, firstDigit, _⟩ := escapeByte_digits last
      have percent : encodeComponent earlier ++ bytes.flatMap escapeByte ++ ['%'] ++
          [first, second] = front ++ ['%', high] := by
        rw [← before, escaped, lastDigits]
        simp only [List.append_assoc, List.cons_append, List.nil_append]
      have isPercent := List.head_eq_of_cons_eq (List.append_inj' percent rfl).2
      exact ne_percent_of_isEscapeDigit firstDigit isPercent
  · rw [escaped, ← List.append_assoc] at written
    obtain ⟨same, bytesSame⟩ := List.append_inj' written rfl
    obtain rfl := escapeByte_inj bytesSame
    exact ⟨rest, c, bytes, rfl, encoded, same.symm⟩

/-- An escape of an ASCII byte stands for the character alone. -/
theorem encodeComponent_eq_append_ascii {text front : Text} {byte : UInt8}
    (written : encodeComponent text = front ++ escapeByte byte) (ascii : byte.toNat < 128) :
    ∃ rest, text = rest ++ [Char.ofNat byte.toNat] ∧ encodeComponent rest = front := by
  obtain ⟨rest, c, bytes, rfl, encoded, rfl⟩ := encodeComponent_eq_append_escapeByte written
  have member : byte ∈ String.utf8EncodeChar c := by simp [encoded]
  have same := toNat_of_ascii_byte member ascii
  have single := utf8EncodeChar_of_ascii (same.trans_lt ascii)
  have alone : bytes = [] := by
    have length := congrArg List.length (encoded.symm.trans single)
    simpa using length
  rw [← same, Char.ofNat_toNat, alone, List.flatMap_nil, List.append_nil]
  exact ⟨rest, rfl, rfl⟩

/-- Letters that are no digits of escapes are written last where they stand last. -/
theorem encodeComponent_eq_append_letters {letters front text : Text}
    (plain : ∀ letter ∈ letters, isEscapeDigit letter = false)
    (written : encodeComponent text = front ++ letters) :
    ∃ rest, text = rest ++ letters ∧ encodeComponent rest = front := by
  induction letters using List.reverseRecOn generalizing text with
  | nil => exact ⟨text, (List.append_nil text).symm, by rw [written, List.append_nil]⟩
  | append_singleton letters last ih =>
    rw [List.forall_mem_append, List.forall_mem_singleton] at plain
    rw [← List.append_assoc] at written
    obtain ⟨_, rest, rfl, earlier⟩ := encodeComponent_eq_snoc written plain.2
    obtain ⟨start, rfl, same⟩ := ih plain.1 earlier
    exact ⟨start, List.append_assoc .., same⟩

/-- An encoded name ends in an encoded count only if the name ends in a count. -/
theorem suffix_of_encodeComponent {text : Text}
    (ends : "%2F%24count".toList <:+ encodeComponent text) : "/$count".toList <:+ text := by
  obtain ⟨front, written⟩ := ends
  have marks : front ++ "%2F%24count".toList =
      front ++ escapeByte 0x2F ++ escapeByte 0x24 ++ "count".toList := by
    simp only [List.append_assoc]
    rfl
  rw [marks] at written
  have letters : ∀ letter ∈ "count".toList, isEscapeDigit letter = false := by
    simp [isEscapeDigit]
  obtain ⟨named, rfl, dollar⟩ := encodeComponent_eq_append_letters letters written.symm
  obtain ⟨path, rfl, slash⟩ := encodeComponent_eq_append_ascii dollar (by decide)
  obtain ⟨start, rfl, _⟩ := encodeComponent_eq_append_ascii slash (by decide)
  refine ⟨start, ?_⟩
  simp only [List.append_assoc]
  rfl

/-- A slash that stands for itself is in no encoded name. -/
theorem not_suffix_encodeComponent (text ending : Text) :
    ¬ '/' :: ending <:+ encodeComponent text := fun ends =>
  slash_not_mem_encodeComponent text (ends.subset (List.mem_cons_self ..))

theorem encodeComponent_count : encodeComponent "$count".toList = "%24count".toList := by decide

theorem encodeSegments_append {front rest : List String} (first : front ≠ []) (last : rest ≠ []) :
    encodeSegments (front ++ rest) = encodeSegments front ++ '/' :: encodeSegments rest := by
  rw [encodeSegments, List.map_append,
    Text.join_append ['/'] (List.map_eq_nil_iff.not.mpr first) (List.map_eq_nil_iff.not.mpr last),
    List.append_assoc]
  rfl

theorem restoreCount_of_not_suffix {encoded : Text} (inside : ¬ "%2F%24count".toList <:+ encoded)
    (behind : ¬ "/%24count".toList <:+ encoded) : restoreCount encoded = encoded := by
  rw [restoreCount, Text.dropEnding?_eq_none inside, Text.dropEnding?_eq_none behind]

theorem restoreCount_inside (front : Text) :
    restoreCount (front ++ "%2F%24count".toList) = front ++ "/$count".toList := by
  rw [restoreCount, Text.dropEnding?_append]

/-- The count behind a path is readable, and it is a step of its own. -/
theorem restoreCount_append (front : Text) :
    restoreCount (front ++ "/%24count".toList) = front ++ "/$count".toList := by
  have inside : Text.dropEnding? "%2F%24count".toList (front ++ "/%24count".toList) = none := by
    refine Text.dropEnding?_eq_none fun ends => ?_
    have both := List.suffix_or_suffix_of_suffix ends (List.suffix_append front "/%24count".toList)
    revert both
    decide
  rw [restoreCount, inside, Text.dropEnding?_append]

theorem encodePath_count {segments : List String} (nonempty : segments ≠ []) :
    encodePath (segments ++ ["$count"]) = encodeSegments segments ++ "/$count".toList := by
  have last : encodeSegments ["$count"] = "%24count".toList := encodeComponent_count
  rw [encodePath, encodeSegments_append nonempty (List.cons_ne_nil _ _), last]
  exact restoreCount_append _

theorem encodeResource_single {name : String} (uncounted : ¬ "/$count".toList <:+ name.toList) :
    encodeResource (.single name) = encodeComponent name.toList := by
  exact restoreCount_of_not_suffix (fun ends => uncounted (suffix_of_encodeComponent ends))
    (not_suffix_encodeComponent name.toList _)

/-- The count behind a name is written in plain characters. -/
theorem encodeResource_count (name : Text) :
    encodeResource (.single (String.ofList (name ++ "/$count".toList))) =
      encodeComponent name ++ "/$count".toList := by
  have count : encodeComponent "/$count".toList = "%2F%24count".toList := by decide
  rw [encodeResource, String.toList_ofList, encodeComponent_append, count, restoreCount_inside]

end OData.Uri
