import Mathlib
import OData.Number.Format
import OData.Text

namespace OData.Text

/-- Letters, digits and the marks that stand inside names, numbers and paths. They separate
nothing, neither in a filter nor in a query string. -/
def isInert (c : Char) : Bool :=
  c.isAlphanum || ['-', '_', '.', '~', '!', '*', '%', '+', '/', '$', '@'].contains c

/-- Only inert characters stand in the text. -/
def Inert (text : Text) : Prop := ∀ c ∈ text, isInert c = true

/-- None of the marks stands in the text. -/
def Avoids (marks text : Text) : Prop := ∀ c ∈ text, c ∉ marks

instance : DecidablePred Inert := fun text =>
  decidable_of_iff (text.all isInert = true) List.all_eq_true

instance (marks : Text) : DecidablePred (Avoids marks) := fun text =>
  decidable_of_iff (text.all (fun c => decide (c ∉ marks)) = true) (by simp [Avoids])

variable {marks text other separator : Text}

theorem Inert.nil : Inert [] := by simp [Inert]

theorem inert_cons {c : Char} : Inert (c :: text) ↔ isInert c = true ∧ Inert text :=
  List.forall_mem_cons

theorem inert_append : Inert (text ++ other) ↔ Inert text ∧ Inert other := List.forall_mem_append

theorem Avoids.nil : Avoids marks [] := by simp [Avoids]

theorem avoids_cons {c : Char} : Avoids marks (c :: text) ↔ c ∉ marks ∧ Avoids marks text :=
  List.forall_mem_cons

theorem avoids_append : Avoids marks (text ++ other) ↔ Avoids marks text ∧ Avoids marks other :=
  List.forall_mem_append

theorem Avoids.mono {fewer : Text} (avoids : Avoids marks text) (among : fewer ⊆ marks) :
    Avoids fewer text := fun c member isMark => avoids c member (among isMark)

/-- A text of inert characters avoids all marks that are not inert themselves. -/
theorem Inert.avoids (inert : Inert text) (structural : ∀ mark ∈ marks, isInert mark = false) :
    Avoids marks text := by
  intro c member isMark
  have live := inert c member
  rw [structural c isMark] at live
  exact Bool.noConfusion live

theorem join_eq_flatMap (separator first : Text) (others : List Text) :
    join separator (first :: others) = first ++ others.flatMap (separator ++ ·) := by
  induction others generalizing first with
  | nil => rw [List.flatMap_nil, List.append_nil, join]
  | cons next others ih =>
    have several : join separator (first :: next :: others) =
        first ++ separator ++ join separator (next :: others) := rfl
    rw [several, ih next, List.flatMap_cons, List.append_assoc, List.append_assoc]

theorem join_append (separator : Text) {front rest : List Text} (first : front ≠ [])
    (last : rest ≠ []) :
    join separator (front ++ rest) = join separator front ++ separator ++ join separator rest := by
  obtain ⟨piece, front, rfl⟩ := List.exists_cons_of_ne_nil first
  obtain ⟨next, rest, rfl⟩ := List.exists_cons_of_ne_nil last
  rw [List.cons_append, join_eq_flatMap, join_eq_flatMap, join_eq_flatMap, List.flatMap_append,
    List.flatMap_cons]
  simp only [List.append_assoc]

/-- Pieces without the mark that stands between them are what a text is split into. -/
theorem splitOn_join {mark : Char} {pieces : List Text} (nonempty : pieces ≠ [])
    (free : ∀ piece ∈ pieces, mark ∉ piece) : (join [mark] pieces).splitOn mark = pieces := by
  have same : join [mark] pieces = [mark].intercalate pieces := by
    obtain ⟨first, others, rfl⟩ := List.exists_cons_of_ne_nil nonempty
    clear nonempty free
    induction others generalizing first with
    | nil => simp [join]
    | cons next others ih => simp [join, ih next]
  rw [same]
  exact List.splitOn_intercalate mark free nonempty

/-- Cutting joined texts at what joins them cuts every text on its own. -/
theorem splitOn_join_eq_flatMap {mark : Char} {texts : List Text} (several : texts ≠ []) :
    (join [mark] texts).splitOn mark = texts.flatMap (·.splitOn mark) := by
  induction texts with
  | nil => exact absurd rfl several
  | cons first rest ih =>
    cases rest with
    | nil => rw [join, List.flatMap_singleton]
    | cons next rest =>
      have cut : join [mark] (first :: next :: rest) =
          first ++ mark :: join [mark] (next :: rest) := List.append_assoc ..
      rw [cut, List.splitOn_append_cons_self, ih (List.cons_ne_nil next rest)]
      rfl

/-- A text is one piece exactly if the mark is not in it. -/
theorem splitOn_eq_singleton_iff {mark : Char} {text part : Text} :
    text.splitOn mark = [part] ↔ mark ∉ text ∧ part = text := by
  constructor
  · intro single
    refine ⟨fun member => ?marked, ?same⟩
    case marked =>
      obtain ⟨front, rest, rfl⟩ := List.append_of_mem member
      have lengths := congrArg List.length single
      have frontPieces := List.length_pos_iff.mpr (List.splitOn_ne_nil mark front)
      have restPieces := List.length_pos_iff.mpr (List.splitOn_ne_nil mark rest)
      rw [List.splitOn_append_cons_self, List.length_append, List.length_singleton] at lengths
      omega
    case same =>
      have whole : [mark].intercalate (text.splitOn mark) = text := List.intercalate_splitOn mark
      rw [single] at whole
      simpa using whole
  · rintro ⟨free, rfl⟩
    exact splitOn_join (List.cons_ne_nil part []) (List.forall_mem_singleton.mpr free)

theorem length_le_join {piece : Text} {pieces : List Text} (member : piece ∈ pieces) :
    piece.length ≤ (join separator pieces).length := by
  induction pieces with
  | nil => cases member
  | cons first rest ih =>
    cases rest with
    | nil => exact (congrArg List.length (List.mem_singleton.mp member)).le
    | cons next rest =>
      simp only [join, List.length_append]
      rcases List.mem_cons.mp member with rfl | inRest
      · omega
      · have shorter := ih inRest
        omega

theorem length_le_flatMap {α : Type} {written : α → Text} (nonempty : ∀ a, written a ≠ [])
    (pieces : List α) : pieces.length ≤ (pieces.flatMap written).length := by
  induction pieces with
  | nil => exact Nat.le_refl 0
  | cons piece pieces ih =>
    have one := List.length_pos_iff.mpr (nonempty piece)
    rw [List.flatMap_cons, List.length_cons, List.length_append]
    omega

theorem mem_join {c : Char} {pieces : List Text} (member : c ∈ join separator pieces) :
    c ∈ separator ∨ ∃ piece ∈ pieces, c ∈ piece := by
  induction pieces with
  | nil => cases member
  | cons piece rest ih =>
    cases rest with
    | nil => exact Or.inr ⟨piece, List.mem_cons_self .., member⟩
    | cons next rest =>
      simp only [join, List.mem_append] at member
      rcases member with (inPiece | inSeparator) | inRest
      · exact Or.inr ⟨piece, List.mem_cons_self .., inPiece⟩
      · exact Or.inl inSeparator
      · rcases ih inRest with inSeparator | ⟨found, inside, inFound⟩
        · exact Or.inl inSeparator
        · exact Or.inr ⟨found, List.mem_cons_of_mem _ inside, inFound⟩

theorem Avoids.join {pieces : List Text} (between : Avoids marks separator)
    (inside : ∀ piece ∈ pieces, Avoids marks piece) : Avoids marks (join separator pieces) := by
  intro c member
  rcases mem_join member with inSeparator | ⟨piece, found, inPiece⟩
  · exact between c inSeparator
  · exact inside piece found c inPiece

theorem Inert.join {pieces : List Text} (between : Inert separator)
    (inside : ∀ piece ∈ pieces, Inert piece) : Inert (join separator pieces) := by
  intro c member
  rcases mem_join member with inSeparator | ⟨piece, found, inPiece⟩
  · exact between c inSeparator
  · exact inside piece found c inPiece

theorem dropEnding?_append (front ending : Text) :
    dropEnding? ending (front ++ ending) = some front := by
  have ends := List.isSuffixOf_iff_suffix.mpr (List.suffix_append front ending)
  rw [dropEnding?, if_pos ends, List.length_append, Nat.add_sub_cancel, List.take_left]

theorem dropEnding?_eq_none {ending : Text} (missing : ¬ ending <:+ text) :
    dropEnding? ending text = none :=
  if_neg fun ends => missing (List.isSuffixOf_iff_suffix.mp ends)

theorem subset_of_dropEnding? {ending front : Text} (dropped : dropEnding? ending text = some front) :
    front ⊆ text := by
  unfold dropEnding? at dropped
  split at dropped
  case isTrue =>
    obtain rfl := Option.some.inj dropped
    exact List.take_subset _ text
  case isFalse => cases dropped

theorem ofNat_inert (n : Nat) : Inert (ofNat n) := by
  intro c member
  have digit := Nat.isDigit_of_mem_toDigits (by decide) (by decide) member
  simp [isInert, Char.isAlphanum, digit]

theorem ofNat_ne_nil (n : Nat) : ofNat n ≠ [] := Nat.toDigits_ne_nil

/-- Different numbers have different digits. -/
theorem ofNat_injective : Function.Injective ofNat :=
  Function.LeftInverse.injective (g := fun digits => Nat.ofDigitChars 10 digits 0) fun _ =>
    Nat.ofDigitChars_ten_toDigits

theorem ofInt_inert (n : Int) : Inert (ofInt n) := by
  cases n with
  | ofNat n => exact ofNat_inert n
  | negSucc n => exact inert_cons.mpr ⟨by decide, ofNat_inert _⟩

theorem ofInt_ne_nil (n : Int) : ofInt n ≠ [] := by
  cases n with
  | ofNat n => exact ofNat_ne_nil n
  | negSucc n => exact List.cons_ne_nil _ _

theorem replicate_inert (n : Nat) {c : Char} (inert : isInert c = true) :
    Inert (List.replicate n c) := by
  intro d member
  rw [(List.mem_replicate.mp member).2]
  exact inert

theorem padded_inert (width n : Nat) : Inert (padded width n) :=
  inert_append.mpr ⟨replicate_inert _ (by decide), ofNat_inert n⟩

end OData.Text

namespace OData.NumberFormat

open Text

theorem positionalText_inert (keepsFraction : Bool) {digits : Text} (inert : Inert digits)
    (scientific : Int) : Inert (positionalText keepsFraction digits scientific) := by
  unfold positionalText
  split
  · exact inert_append.mpr ⟨inert_append.mpr ⟨by decide, replicate_inert _ (by decide)⟩, inert⟩
  · simp only
    split
    · refine inert_append.mpr ⟨inert_append.mpr ⟨inert, replicate_inert _ (by decide)⟩, ?_⟩
      split <;> decide
    · refine inert_append.mpr ⟨fun c member => inert c (List.mem_of_mem_take member), ?_⟩
      exact inert_cons.mpr ⟨by decide, fun c member => inert c (List.mem_of_mem_drop member)⟩

theorem scientificText_inert (marksPlus : Bool) {digits : Text} (inert : Inert digits)
    (scientific : Int) : Inert (scientificText marksPlus digits scientific) := by
  unfold scientificText
  refine inert_append.mpr ⟨inert_append.mpr ⟨?_, inert_cons.mpr ⟨by decide, ?_⟩⟩, ofInt_inert _⟩
  · split
    · rw [inert_cons] at inert
      exact inert_cons.mpr ⟨inert.1, inert_cons.mpr ⟨by decide, inert.2⟩⟩
    · exact inert
  · split <;> decide

/-- The text of a number has no mark that could end it. -/
theorem finiteText_inert (format : NumberFormat) (x : FiniteDouble) :
    Inert (format.finiteText x) := by
  unfold finiteText
  split
  · refine inert_append.mpr ⟨?_, ?_⟩ <;> split <;> decide
  · refine inert_append.mpr ⟨?_, ?_⟩
    · split <;> decide
    · split
      · exact positionalText_inert _ (ofNat_inert _) _
      · exact scientificText_inert _ (ofNat_inert _) _

theorem text_inert (format : NumberFormat) (x : Double) : Inert (format.text x) := by
  cases x with
  | finite x => exact finiteText_inert format x
  | infinite negative =>
    cases negative
    · exact (by decide : Inert "inf".toList)
    · exact (by decide : Inert "-inf".toList)
  | undefined => exact (by decide : Inert "NaN".toList)

end OData.NumberFormat
