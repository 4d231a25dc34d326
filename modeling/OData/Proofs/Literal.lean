import Mathlib
import OData.Filter.Compile
import OData.Proofs.Filter.Expression
import OData.Proofs.Uri.Alphabet

namespace OData

open Text

namespace Text

/-- Text without quotes changes nothing between quotes. -/
theorem isClosed_quoted_append {text : Text} (plain : Avoids ['\''] text) (rest : Text) :
    isClosed true (text ++ rest) = isClosed true rest := by
  induction text with
  | nil => rfl
  | cons c text ih =>
    rw [avoids_cons, List.mem_singleton] at plain
    have stays : (true != (c == '\'')) = true := by simpa using plain.1
    rw [List.cons_append, isClosed, stays, ih plain.2, Bool.true_or, Bool.true_and]

/-- Text in quotes behind a name of inert characters is a word. -/
theorem isWord_quoted (name : Text) {text : Text} (inert : Inert name)
    (hidden : isClosed true (text ++ ['\'']) = true) : IsWord (name ++ '\'' :: (text ++ ['\''])) := by
  refine ⟨by simp, ?_⟩
  rw [isClosed_append _ inert.isClosed]
  exact hidden

theorem inert_avoids_quote {text : Text} (inert : Inert text) : Avoids ['\''] text :=
  inert.avoids (by simp [isInert])

end Text

namespace Time

theorem yearText_inert (year : Int) : Inert (yearText year) := by
  unfold yearText
  split
  · exact padded_inert _ _
  · refine inert_cons.mpr ⟨?_, padded_inert _ _⟩
    split <;> decide

/-- The text of an instant has nothing but inert characters and colons. -/
theorem Instant.text_avoids {marks : Text} (instant : Instant)
    (structural : ∀ mark ∈ marks, isInert mark = false ∧ mark ≠ ':') :
    Avoids marks instant.text := by
  have inert : ∀ {text : Text}, Inert text → Avoids marks text :=
    fun inert => inert.avoids fun mark member => (structural mark member).1
  have field : ∀ {c : Char} {text : Text}, isInert c = true → Inert text →
      Avoids marks (c :: text) := fun first rest => inert (inert_cons.mpr ⟨first, rest⟩)
  have timed : ∀ {text : Text}, Inert text → Avoids marks (':' :: text) :=
    fun rest => avoids_cons.mpr ⟨fun isMark => (structural _ isMark).2 rfl, inert rest⟩
  simp only [Instant.text, avoids_append]
  exact ⟨⟨⟨⟨⟨⟨⟨inert (yearText_inert _), field rfl (padded_inert _ _)⟩,
    field rfl (padded_inert _ _)⟩, field rfl (padded_inert _ _)⟩, timed (padded_inert _ _)⟩,
    timed (padded_inert _ _)⟩, field rfl (padded_inert _ _)⟩, field rfl .nil⟩

end Time

namespace NumberFormat

theorem positionalText_ne_nil (keepsFraction : Bool) {digits : Text} (nonempty : digits ≠ [])
    (scientific : Int) : positionalText keepsFraction digits scientific ≠ [] := by
  unfold positionalText
  split
  · simp
  · simp only
    split
    · simp [nonempty]
    · simp

theorem finiteText_ne_nil (format : NumberFormat) (x : FiniteDouble) :
    format.finiteText x ≠ [] := by
  unfold finiteText
  split
  · simp only [ne_eq, List.append_eq_nil_iff, not_and]
    intro _
    split <;> simp
  · simp only [ne_eq, List.append_eq_nil_iff, not_and]
    intro _
    split
    · exact positionalText_ne_nil _ (ofNat_ne_nil _) _
    · simp [scientificText]

end NumberFormat

theorem JsonNumber.literal_inert (number : JsonNumber) : Inert number.literal := by
  cases number with
  | integer n => exact ofInt_inert _
  | double x => exact NumberFormat.finiteText_inert _ _

theorem JsonNumber.literal_isWord (number : JsonNumber) : IsWord number.literal := by
  refine (JsonNumber.literal_inert number).isWord ?_
  cases number with
  | integer n => exact ofInt_ne_nil _
  | double x => exact NumberFormat.finiteText_ne_nil _ _

/-- A doubled quote closes and opens again, and no other character of a component does either. -/
theorem isClosed_string (text rest : Text) :
    isClosed true (Uri.encodeComponent (doubleQuotes text) ++ rest) = isClosed true rest := by
  rw [Uri.encodeComponent_eq_flatMap, doubleQuotes]
  induction text with
  | nil => rfl
  | cons c text ih =>
    by_cases quote : c = '\''
    · subst quote
      simp only [List.flatMap_cons, if_true, List.flatMap_append, List.append_assoc]
      exact ih
    · have plain := Uri.encodeChar_avoids_quote quote
      simp only [List.flatMap_cons, if_neg quote, List.flatMap_append, List.flatMap_nil,
        List.append_nil, List.append_assoc]
      rw [isClosed_quoted_append plain]
      exact ih

theorem Primitive.literal_isWord (scalar : Primitive) : IsWord scalar.literal := by
  cases scalar with
  | null => exact (by decide : Inert "null".toList).isWord nofun
  | bool value =>
    cases value
    · exact (by decide : Inert "false".toList).isWord nofun
    · exact (by decide : Inert "true".toList).isWord nofun
  | number number => exact number.literal_isWord
  | string text => exact isWord_quoted [] .nil (isClosed_string text.toList ['\''])
  | instant instant =>
    have plain : Avoids ['\''] instant.text := instant.text_avoids (by simp [isInert])
    have hidden := isClosed_quoted_append plain ['\'']
    exact isWord_quoted "datetime".toList (by decide) hidden

/-- A literal has none of the marks that separate the parts of a query. -/
theorem Primitive.literal_avoids {marks : Text} (scalar : Primitive)
    (structural : ∀ mark ∈ marks, isInert mark = false ∧ mark ∉ Uri.brackets ∧ mark ≠ ':') :
    Avoids marks scalar.literal := by
  have inert : ∀ {text : Text}, Inert text → Avoids marks text :=
    fun inert => inert.avoids fun mark member => (structural mark member).1
  have quote : '\'' ∉ marks := fun isMark => (structural _ isMark).2.1 (by decide)
  cases scalar with
  | null => exact inert (by decide)
  | bool value => cases value <;> exact inert (by decide)
  | number number => exact inert number.literal_inert
  | string text =>
    have component : Avoids marks (Uri.encodeComponent (doubleQuotes text.toList)) :=
      Uri.encodeComponent_avoids _ fun mark member =>
        ⟨(structural mark member).1, (structural mark member).2.1⟩
    exact avoids_append.mpr ⟨avoids_cons.mpr ⟨quote, component⟩, avoids_cons.mpr ⟨quote, .nil⟩⟩
  | instant instant =>
    have text := instant.text_avoids fun mark member =>
      ⟨(structural mark member).1, (structural mark member).2.2⟩
    refine avoids_append.mpr ⟨avoids_append.mpr ⟨?_, text⟩, avoids_cons.mpr ⟨quote, .nil⟩⟩
    exact avoids_append.mpr ⟨inert (by decide : Inert "datetime".toList),
      avoids_cons.mpr ⟨quote, .nil⟩⟩

/-- The literal of a duration, whether or not a part is set. -/
def DurationLiteral.text (d : DurationLiteral) : Text :=
  let time := partText d.hours 'H' ++ partText d.minutes 'M' ++ partText d.seconds 'S'
  "duration'".toList ++ (if d.negative then ['-'] else []) ++ 'P' :: partText d.days 'D' ++
    (if time = [] then [] else 'T' :: time) ++ ['\'']

theorem DurationLiteral.partText_inert (part : Double) {unit : Char} (inert : isInert unit = true) :
    Inert (partText part unit) := by
  unfold partText
  split
  · exact inert_append.mpr ⟨NumberFormat.text_inert _ _, inert_cons.mpr ⟨inert, .nil⟩⟩
  · exact .nil

/-- A duration stands in quotes behind its name, and nothing in them is more than inert. -/
theorem DurationLiteral.exists_inner (d : DurationLiteral) :
    ∃ inner, Inert inner ∧ d.text = "duration".toList ++ '\'' :: (inner ++ ['\'']) := by
  have dayPart : Inert (partText d.days 'D') := partText_inert _ rfl
  have timeParts : Inert (partText d.hours 'H' ++ partText d.minutes 'M' ++
      partText d.seconds 'S') :=
    inert_append.mpr ⟨inert_append.mpr ⟨partText_inert _ rfl, partText_inert _ rfl⟩,
      partText_inert _ rfl⟩
  have sign : Inert (if d.negative then ['-'] else []) := by split <;> decide
  unfold text
  generalize partText d.days 'D' = days at dayPart
  generalize partText d.hours 'H' ++ partText d.minutes 'M' ++ partText d.seconds 'S' = time
    at timeParts
  have marked : Inert (if time = [] then [] else 'T' :: time) := by
    split
    · exact .nil
    · exact inert_cons.mpr ⟨rfl, timeParts⟩
  have name : "duration'".toList = "duration".toList ++ ['\''] := by decide
  refine ⟨_, inert_append.mpr ⟨sign, inert_cons.mpr ⟨(rfl : isInert 'P' = true),
    inert_append.mpr ⟨dayPart, marked⟩⟩⟩, ?_⟩
  rw [name]
  simp only [List.append_assoc, List.cons_append, List.nil_append]

theorem DurationLiteral.text_isWord (d : DurationLiteral) : IsWord d.text := by
  obtain ⟨inner, inert, written⟩ := d.exists_inner
  have hidden := isClosed_quoted_append (inert_avoids_quote inert) ['\'']
  rw [written]
  exact isWord_quoted "duration".toList (by decide) hidden

theorem DurationLiteral.text_avoids {marks : Text} (d : DurationLiteral)
    (structural : ∀ mark ∈ marks, isInert mark = false ∧ mark ∉ Uri.brackets) :
    Avoids marks d.text := by
  obtain ⟨inner, inert, written⟩ := d.exists_inner
  have quote : '\'' ∉ marks := fun isMark => (structural _ isMark).2 (by decide)
  have plain : ∀ {text : Text}, Inert text → Avoids marks text :=
    fun inert => inert.avoids fun mark member => (structural mark member).1
  rw [written]
  exact avoids_append.mpr ⟨plain (by decide : Inert "duration".toList),
    avoids_cons.mpr ⟨quote, avoids_append.mpr ⟨plain inert, avoids_cons.mpr ⟨quote, .nil⟩⟩⟩⟩

end OData
