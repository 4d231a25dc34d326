import Mathlib
import OData.Proofs.Literal
import OData.Proofs.Text.Numeral
import OData.Proofs.Uri.Decoding

namespace OData

/-- A text between quotes, with the quotes in it doubled. -/
def quoted (text : Text) : Text := '\'' :: doubleQuotes text ++ ['\'']

namespace Text

/-- The content of a string literal whose opening quote was read, and the text behind the literal. A
doubled quote stands for one. -/
def readContent : Text → Option (Text × Text)
  | [] => none
  | '\'' :: '\'' :: rest =>
    (readContent rest).map fun (content, behind) => ('\'' :: content, behind)
  | '\'' :: rest => some ([], rest)
  | c :: rest => (readContent rest).map fun (content, behind) => (c :: content, behind)

/-- The content of the string literal at the front of a text, and the text behind the literal. -/
def readString : Text → Option (Text × Text)
  | '\'' :: rest => readContent rest
  | _ => none

theorem doubleQuotes_cons (c : Char) (text : Text) :
    doubleQuotes (c :: text) = (if c = '\'' then ['\'', '\''] else [c]) ++ doubleQuotes text :=
  List.flatMap_cons

theorem doubleQuotes_append (text other : Text) :
    doubleQuotes (text ++ other) = doubleQuotes text ++ doubleQuotes other :=
  List.flatMap_append

/-- A text without quotes has none to double. -/
theorem doubleQuotes_of_avoids {text : Text} (plain : Avoids ['\''] text) :
    doubleQuotes text = text := by
  induction text with
  | nil => rfl
  | cons c text ih =>
    rw [avoids_cons, List.mem_singleton] at plain
    rw [doubleQuotes_cons, if_neg plain.1, ih plain.2, List.singleton_append]

theorem readContent_cons {c : Char} (plain : c ≠ '\'') (rest : Text) :
    readContent (c :: rest) =
      (readContent rest).map fun (content, behind) => (c :: content, behind) := by
  rw [readContent]
  · rintro rest isQuote
    exact absurd isQuote plain
  · exact plain

theorem readContent_quote {rest : Text} (ends : rest.head? ≠ some '\'') :
    readContent ('\'' :: rest) = some ([], rest) := by
  rw [readContent]
  rintro other rfl
  exact ends rfl

/-- Doubled quotes do not end a literal, and the next quote does. -/
theorem readContent_doubleQuotes (text : Text) {rest : Text} (ends : rest.head? ≠ some '\'') :
    readContent (doubleQuotes text ++ '\'' :: rest) = some (text, rest) := by
  induction text with
  | nil => exact readContent_quote ends
  | cons c text ih =>
    rw [doubleQuotes_cons, List.append_assoc]
    by_cases quote : c = '\''
    · subst quote
      simp only [if_true, List.cons_append, List.nil_append, readContent, ih, Option.map_some]
    · rw [if_neg quote, List.singleton_append, readContent_cons quote, ih, Option.map_some]

theorem readString_quoted (text : Text) {rest : Text} (ends : rest.head? ≠ some '\'') :
    readString (quoted text ++ rest) = some (text, rest) := by
  have shape : quoted text ++ rest = '\'' :: (doubleQuotes text ++ '\'' :: rest) := by
    simp only [quoted, List.append_assoc, List.cons_append, List.nil_append]
  rw [shape, readString]
  exact readContent_doubleQuotes text ends

theorem toNat?_ofNat (n : Nat) : toNat? (ofNat n) = some n := by
  have digits : (ofNat n).all Char.isDigit = true := List.all_eq_true.mpr fun c member =>
    Nat.isDigit_of_mem_toDigits (by decide) (by decide) member
  have value : Nat.ofDigitChars 10 (ofNat n) 0 = n := Nat.ofDigitChars_ten_toDigits
  rw [toNat?, if_pos ⟨ofNat_ne_nil n, digits⟩]
  exact congrArg some value

/-- An integer is read back from its digits and its sign. -/
theorem toInt?_ofInt (n : Int) : toInt? (ofInt n) = some n := by
  cases n with
  | negSucc n => rw [ofInt, toInt?, toNat?_ofNat]; rfl
  | ofNat n =>
    have unsigned : ∀ c ∈ (ofNat n).head?, c.isDigit = true := fun c first =>
      Nat.isDigit_of_mem_toDigits (by decide) (by decide) (List.mem_of_mem_head? first)
    rw [ofInt, toInt?_of_unsigned unsigned, toNat?_ofNat, Option.map_some]

end Text

namespace Uri

open Text

/-- Quotes may be doubled before a text is encoded or after. -/
theorem encodeComponent_doubleQuotes (text : Text) :
    encodeComponent (doubleQuotes text) = doubleQuotes (encodeComponent text) := by
  rw [encodeComponent_eq_flatMap, encodeComponent_eq_flatMap]
  induction text with
  | nil => rfl
  | cons c text ih =>
    rw [doubleQuotes_cons, List.flatMap_append, List.flatMap_cons, doubleQuotes_append, ih]
    by_cases quote : c = '\''
    · subst quote
      rfl
    · rw [if_neg quote, List.flatMap_singleton, doubleQuotes_of_avoids (encodeChar_avoids_quote quote)]

theorem encodeComponent_quoted (text : Text) :
    encodeComponent (quoted text) = '\'' :: encodeComponent (doubleQuotes text) ++ ['\''] := by
  have quote : encodeComponent ['\''] = ['\''] := by decide
  have shape : quoted text = ['\''] ++ doubleQuotes text ++ ['\''] := rfl
  rw [shape, encodeComponent_append, encodeComponent_append, quote]
  rfl

end Uri

open Text (readString readString_quoted)

namespace Primitive

theorem literal_string (text : String) :
    (Primitive.string text).literal = Uri.encodeComponent (quoted text.toList) :=
  (Uri.encodeComponent_quoted text.toList).symm

/-- The literal of a text is also the encoded text between quotes. -/
theorem literal_string_eq_quoted (text : String) :
    (Primitive.string text).literal = quoted (Uri.encodeComponent text.toList) := by
  rw [quoted, ← Uri.encodeComponent_doubleQuotes]
  rfl

/-- Null, truth values, integers and texts. A double may be written like an integer, and an instant is
written with a name in front of it. -/
def IsDiscrete : Primitive → Prop
  | .null | .bool _ | .string _ => True
  | .number (.integer _) => True
  | .number (.double _) => False
  | .instant _ => False

def ofLiteral? (literal : Text) : Option Primitive :=
  if literal.head? = some '\'' then do
    let decoded ← Uri.decode? literal
    let (text, behind) ← readString decoded
    if behind = [] then return .string (String.ofList text) else none
  else if literal = "null".toList then some .null
  else if literal = "true".toList then some (.bool true)
  else if literal = "false".toList then some (.bool false)
  else do
    let value ← Text.toInt? literal
    let number ← JsonNumber.ofInt? value
    return .number number

theorem ofLiteral?_integer (n : WordInteger) :
    ofLiteral? (JsonNumber.integer n).literal = some (.number (.integer n)) := by
  have read := Text.toInt?_ofInt n.value
  have word (word : Text) (other : Text.toInt? word = none) : Text.ofInt n.value ≠ word := by
    rintro rfl
    rw [read] at other
    cases other
  have unquoted : (Text.ofInt n.value).head? ≠ some '\'' := by
    intro quote
    exact absurd (Text.ofInt_inert n.value _ (List.mem_of_mem_head? quote)) (by decide)
  rw [ofLiteral?, JsonNumber.literal, if_neg unquoted, if_neg (word _ rfl), if_neg (word _ rfl),
    if_neg (word _ rfl), read, Option.bind_eq_bind, Option.bind_some, JsonNumber.ofInt?,
    dif_pos n.inRange, Option.bind_eq_bind, Option.bind_some, Option.pure_def]

/-- Every discrete scalar is read back from its literal. -/
theorem ofLiteral?_literal {scalar : Primitive} (discrete : scalar.IsDiscrete) :
    ofLiteral? scalar.literal = some scalar := by
  match scalar with
  | .null | .bool true | .bool false => rfl
  | .number (.integer n) => exact ofLiteral?_integer n
  | .number (.double _) | .instant _ => exact discrete.elim
  | .string text =>
    have decoded := Uri.decode?_encodeComponent (quoted text.toList)
    have ends : ([] : Text).head? ≠ some '\'' := nofun
    have read := readString_quoted text.toList ends
    rw [List.append_nil] at read
    rw [← literal_string] at decoded
    have quote : (Primitive.string text).literal.head? = some '\'' := rfl
    simp only [ofLiteral?, quote, if_true, decoded, read, Option.bind_eq_bind, Option.bind_some,
      String.ofList_toList, Option.pure_def]

/-- The literal of a text ends at its last quote, whether it is read as it is or decoded, and holds
nothing but the text. A scalar that is null, a truth value, an integer or a text has its literal to
itself. -/
theorem literal_determines :
    (∀ text : String,
      Uri.decode? (Primitive.string text).literal = some (quoted text.toList) ∧
      ∀ rest : Text, rest.head? ≠ some '\'' →
        readString (quoted text.toList ++ rest) = some (text.toList, rest) ∧
        ∃ content, readString ((Primitive.string text).literal ++ rest) = some (content, rest) ∧
          Uri.decode? content = some text.toList) ∧
    ∀ scalar other : Primitive, scalar.IsDiscrete → other.IsDiscrete →
      scalar.literal = other.literal → scalar = other := by
  constructor
  · intro text
    have decoded := Uri.decode?_encodeComponent (quoted text.toList)
    rw [← literal_string] at decoded
    refine ⟨decoded, fun rest ends => ⟨readString_quoted text.toList ends, ?_⟩⟩
    refine ⟨Uri.encodeComponent text.toList, ?_, Uri.decode?_encodeComponent text.toList⟩
    rw [literal_string_eq_quoted]
    exact readString_quoted _ ends
  · intro scalar other discrete otherDiscrete same
    have read := ofLiteral?_literal discrete
    rw [same, ofLiteral?_literal otherDiscrete] at read
    exact (Option.some.inj read).symm

/-- A quote and a percent sign in a text, and a text that spells another scalar. -/
theorem literal_determines_apostrophe :
    readString "'it''s 5%') or".toList = some ("it's 5%".toList, ") or".toList) ∧
    (∃ content, readString "'it''s%205%25') or".toList = some (content, ") or".toList) ∧
      Uri.decode? content = some "it's 5%".toList) ∧
    (Primitive.string "null").literal ≠ Primitive.null.literal := by
  obtain ⟨texts, scalars⟩ := literal_determines
  have ends : ") or".toList.head? ≠ some '\'' := by decide
  obtain ⟨afterwards, before⟩ := (texts "it's 5%").2 ") or".toList ends
  refine ⟨afterwards, before, fun same => ?_⟩
  cases scalars (.string "null") .null trivial trivial same

end Primitive

end OData
