import Mathlib
import OData.Text.Blank
import OData.Text.Integer

namespace OData

/-- What may stand in front of the digits of a numeral. -/
inductive NumeralSign
  | absent
  | plus
  | minus
deriving DecidableEq, Repr

def NumeralSign.text : NumeralSign → Text
  | .absent => []
  | .plus => ['+']
  | .minus => ['-']

def NumeralSign.apply : NumeralSign → Nat → Int
  | .absent, n | .plus, n => n
  | .minus, n => -n

/-- A row of digits, the highest one first. -/
abbrev Digits := List (Fin 10)

namespace Digits

def text (digits : Digits) : Text := digits.map fun digit => digit.val.digitChar

def value (digits : Digits) : Nat := Nat.ofDigits 10 (digits.reverse.map Fin.val)

theorem text_isDigit (digits : Digits) {c : Char} (member : c ∈ digits.text) : c.isDigit = true := by
  obtain ⟨digit, _, rfl⟩ := List.mem_map.mp member
  rw [Nat.isDigit_digitChar, decide_eq_true digit.isLt]

theorem toNat_of_isDigit {c : Char} (decimal : c.isDigit = true) : 48 ≤ c.toNat ∧ c.toNat ≤ 57 :=
  Char.isDigit_iff_toNat.mp decimal

theorem exists_digit {c : Char} (decimal : c.isDigit = true) :
    ∃ digit : Fin 10, digit.val.digitChar = c := by
  obtain ⟨least, most⟩ := toNat_of_isDigit decimal
  have small : c.toNat - 48 < 10 := by omega
  refine ⟨⟨c.toNat - 48, small⟩, Char.toNat_inj.mp ?_⟩
  rw [Nat.toNat_digitChar_of_lt_ten small]
  omega

theorem exists_text {text : Text} (decimal : ∀ c ∈ text, c.isDigit = true) :
    ∃ digits : Digits, digits.text = text :=
  (Set.range_list_map _).ge fun c member => exists_digit (decimal c member)

theorem value_append (digits : Digits) (digit : Fin 10) :
    value (digits ++ [digit]) = 10 * value digits + digit := by
  rw [value, List.reverse_append, List.reverse_singleton, List.singleton_append, List.map_cons,
    Nat.ofDigits_cons, Nat.add_comm]
  rfl

/-- The value of digits is that of their characters from the highest one on. -/
theorem foldl_text (digits : Digits) :
    digits.text.foldl (fun n c => 10 * n + (c.toNat - '0'.toNat)) 0 = digits.value := by
  rw [text, List.foldl_map]
  induction digits using List.reverseRecOn with
  | nil => rfl
  | append_singleton digits digit ih =>
    rw [List.foldl_concat, ih, value_append]
    exact congrArg (10 * value digits + ·) (Nat.toNat_digitChar_sub_48_of_lt_ten digit.isLt)

end Digits

/-- An optional sign in front of digits, which may start with zeros. -/
structure Numeral where
  sign : NumeralSign
  digits : Digits
  nonempty : digits ≠ []

namespace Numeral

def text (numeral : Numeral) : Text := numeral.sign.text ++ numeral.digits.text

def value (numeral : Numeral) : Int := numeral.sign.apply numeral.digits.value

theorem text_ne_nil (numeral : Numeral) : numeral.text ≠ [] := by
  intro empty
  exact numeral.nonempty (List.map_eq_nil_iff.mp (List.append_eq_nil_iff.mp empty).2)

theorem eq_sign_or_isDigit {numeral : Numeral} {c : Char} (member : c ∈ numeral.text) :
    c = '+' ∨ c = '-' ∨ c.isDigit = true := by
  rcases List.mem_append.mp member with sign | digit
  · cases own : numeral.sign <;> rw [own] at sign
    case absent => cases sign
    case plus => exact Or.inl (List.mem_singleton.mp sign)
    case minus => exact Or.inr (Or.inl (List.mem_singleton.mp sign))
  · exact Or.inr (Or.inr (numeral.digits.text_isDigit digit))

theorem not_isUnicodeBlank {numeral : Numeral} {c : Char} (member : c ∈ numeral.text) :
    isUnicodeBlank c = false := by
  rcases eq_sign_or_isDigit member with rfl | rfl | decimal
  · rfl
  · rfl
  · obtain ⟨least, most⟩ := Digits.toNat_of_isDigit decimal
    simp only [isUnicodeBlank, Bool.or_eq_false_iff, Bool.and_eq_false_iff, decide_eq_false_iff_not,
      beq_eq_false_iff_ne]
    omega

/-- A numeral stands in a text with nothing but blanks around it. -/
def IsAllOf (numeral : Numeral) (text : Text) : Prop :=
  ∃ before behind, text = before ++ numeral.text ++ behind ∧
    (∀ c ∈ before, isUnicodeBlank c) ∧ ∀ c ∈ behind, isUnicodeBlank c

end Numeral

namespace Text

theorem toNat?_digits {digits : Digits} (nonempty : digits ≠ []) :
    toNat? digits.text = some digits.value := by
  have decimal : digits.text.all Char.isDigit = true :=
    List.all_eq_true.mpr fun _ => digits.text_isDigit
  have written : digits.text ≠ [] := fun empty => nonempty (List.map_eq_nil_iff.mp empty)
  rw [toNat?, if_pos ⟨written, decimal⟩, digits.foldl_text]

theorem toNat?_eq_some_iff {text : Text} {n : Nat} :
    toNat? text = some n ↔ ∃ digits : Digits, digits ≠ [] ∧ digits.text = text ∧ digits.value = n := by
  constructor
  · intro read
    have shape : text ≠ [] ∧ text.all Char.isDigit := by
      by_contra other
      rw [toNat?, if_neg other] at read
      cases read
    obtain ⟨digits, rfl⟩ := Digits.exists_text (List.all_eq_true.mp shape.2)
    have nonempty : digits ≠ [] := fun empty => shape.1 (List.map_eq_nil_iff.mpr empty)
    rw [toNat?_digits nonempty] at read
    exact ⟨digits, nonempty, rfl, Option.some.inj read⟩
  · rintro ⟨digits, nonempty, rfl, rfl⟩
    exact toNat?_digits nonempty

/-- Without a sign an integer is read as a number of digits. -/
theorem toInt?_of_unsigned {text : Text} (first : ∀ c ∈ text.head?, c.isDigit = true) :
    toInt? text = (toNat? text).map Int.ofNat := by
  unfold toInt?
  split
  case h_1 => exact absurd (first '-' rfl) (by decide)
  case h_2 => exact absurd (first '+' rfl) (by decide)
  case h_3 => rfl

theorem toInt?_minus (digits : Text) :
    toInt? ('-' :: digits) = (toNat? digits).map NumeralSign.minus.apply := by
  rw [toInt?]
  cases toNat? digits <;> rfl

theorem toInt?_numeral (numeral : Numeral) : toInt? numeral.text = some numeral.value := by
  obtain ⟨sign, digits, nonempty⟩ := numeral
  have read := toNat?_digits nonempty
  cases sign with
  | absent =>
    have unsigned : ∀ c ∈ digits.text.head?, c.isDigit = true := fun c first =>
      digits.text_isDigit (List.mem_of_mem_head? first)
    exact (toInt?_of_unsigned unsigned).trans (congrArg (Option.map Int.ofNat) read)
  | plus => exact congrArg (Option.map Int.ofNat) read
  | minus => exact (toInt?_minus _).trans (congrArg (Option.map NumeralSign.minus.apply) read)

/-- Digits that are read behind a sign make a numeral with it. -/
theorem exists_numeral (sign : NumeralSign) {digits : Text} {n : Int}
    (read : (toNat? digits).map sign.apply = some n) :
    ∃ numeral : Numeral, numeral.text = sign.text ++ digits ∧ numeral.value = n := by
  obtain ⟨m, number, rfl⟩ := Option.map_eq_some_iff.mp read
  obtain ⟨row, nonempty, rfl, rfl⟩ := toNat?_eq_some_iff.mp number
  exact ⟨⟨sign, row, nonempty⟩, rfl, rfl⟩

/-- What is read as an integer is a numeral, and it is read as its value. -/
theorem toInt?_eq_some_iff {text : Text} {n : Int} :
    toInt? text = some n ↔ ∃ numeral : Numeral, numeral.text = text ∧ numeral.value = n := by
  constructor
  · intro read
    unfold toInt? at read
    split at read
    case h_1 digits => exact exists_numeral .minus ((toInt?_minus digits).symm.trans read)
    case h_2 digits => exact exists_numeral .plus read
    case h_3 => exact exists_numeral .absent read
  · rintro ⟨numeral, rfl, rfl⟩
    exact toInt?_numeral numeral

/-- What is trimmed are blanks at either end. -/
theorem exists_trimmed (text : Text) : ∃ before behind, text = before ++ text.trimmed ++ behind ∧
    (∀ c ∈ before, isUnicodeBlank c) ∧ ∀ c ∈ behind, isUnicodeBlank c := by
  let tail := text.dropWhile isUnicodeBlank
  refine ⟨text.takeWhile isUnicodeBlank, (tail.reverse.takeWhile isUnicodeBlank).reverse, ?_,
    fun c => List.mem_takeWhile_imp, fun c member => List.mem_takeWhile_imp (List.mem_reverse.mp member)⟩
  have back : text.trimmed ++ (tail.reverse.takeWhile isUnicodeBlank).reverse = tail := by
    rw [trimmed, ← List.reverse_append, List.takeWhile_append_dropWhile, List.reverse_reverse]
  rw [List.append_assoc, back, List.takeWhile_append_dropWhile]

theorem dropWhile_of_head {text : Text} (first : ∀ c ∈ text.head?, isUnicodeBlank c = false) :
    text.dropWhile isUnicodeBlank = text := by
  cases text with
  | nil => rfl
  | cons c rest => rw [List.dropWhile_cons, first c rfl, if_neg Bool.false_ne_true]

/-- A text without blanks is all that is left of it with blanks around it. -/
theorem trimmed_surrounded {before text behind : Text} (front : ∀ c ∈ before, isUnicodeBlank c)
    (back : ∀ c ∈ behind, isUnicodeBlank c) (solid : ∀ c ∈ text, isUnicodeBlank c = false)
    (nonempty : text ≠ []) : (before ++ text ++ behind).trimmed = text := by
  have first : ∀ c ∈ (text ++ behind).head?, isUnicodeBlank c = false := by
    rw [List.head?_append_of_ne_nil _ nonempty]
    exact fun c member => solid c (List.mem_of_mem_head? member)
  have last : ∀ c ∈ text.reverse.head?, isUnicodeBlank c = false := fun c member =>
    solid c (List.mem_reverse.mp (List.mem_of_mem_head? member))
  rw [trimmed, List.append_assoc, List.dropWhile_append_of_pos front, dropWhile_of_head first,
    List.reverse_append, List.dropWhile_append_of_pos fun c member => back c (List.mem_reverse.mp member),
    dropWhile_of_head last, List.reverse_reverse]

end Text

namespace Numeral

variable {numeral : Numeral} {text : Text}

theorem isAllOf_iff : numeral.IsAllOf text ↔ text.trimmed = numeral.text := by
  constructor
  · rintro ⟨before, behind, rfl, front, back⟩
    exact Text.trimmed_surrounded front back (fun _ => not_isUnicodeBlank) numeral.text_ne_nil
  · intro trimmed
    obtain ⟨before, behind, split, blanks⟩ := Text.exists_trimmed text
    rw [trimmed] at split
    exact ⟨before, behind, split, blanks⟩

/-- With blanks around it a numeral is read as its value. -/
theorem toInt?_trimmed (whole : numeral.IsAllOf text) : Text.toInt? text.trimmed = some numeral.value := by
  rw [isAllOf_iff.mp whole]
  exact Text.toInt?_numeral numeral

/-- Where there is no numeral between the blanks, no integer is read. -/
theorem toInt?_trimmed_eq_none (other : ∀ numeral : Numeral, ¬ numeral.IsAllOf text) :
    Text.toInt? text.trimmed = none := by
  rw [Option.eq_none_iff_forall_ne_some]
  intro n read
  obtain ⟨numeral, whole, _⟩ := Text.toInt?_eq_some_iff.mp read
  exact other numeral (isAllOf_iff.mpr whole.symm)

end Numeral

end OData
