import Mathlib
import OData.Proofs.Uri.Alphabet

namespace OData.Text

open Uri (brackets)

/-- Where a reader is in a text: how many parentheses are open, and whether a quote is. -/
structure Nesting where
  depth : Nat
  quoted : Bool
deriving DecidableEq

namespace Nesting

def outside : Nesting := ⟨0, false⟩

/-- What a character opens or closes. Between quotes nothing but a quote has a meaning. -/
def step (place : Nesting) (c : Char) : Nesting :=
  if c = '\'' then { place with quoted := !place.quoted }
  else if place.quoted then place
  else if c = '(' then { place with depth := place.depth + 1 }
  else if c = ')' then { place with depth := place.depth - 1 }
  else place

/-- The same place inside one more pair of parentheses. -/
def inside (place : Nesting) : Nesting := { place with depth := place.depth + 1 }

theorem inside_ne_outside (place : Nesting) : place.inside ≠ outside := nofun

/-- Only the parenthesis that closes the outermost pair sees how many are around it. -/
theorem step_inside {place : Nesting} {c : Char} (inner : ¬ (place = outside ∧ c = ')')) :
    place.inside.step c = (place.step c).inside := by
  obtain ⟨depth, quoted⟩ := place
  unfold step
  by_cases quote : c = '\''
  · simp only [if_pos quote, inside]
  rw [if_neg quote, if_neg quote]
  cases quoted with
  | true => rfl
  | false =>
    by_cases opening : c = '('
    · simp only [if_pos opening, inside, Bool.false_eq_true, if_false]
    by_cases closing : c = ')'
    · have deep : depth ≠ 0 := by
        rintro rfl
        exact inner ⟨rfl, closing⟩
      have depths : depth + 1 - 1 = depth - 1 + 1 := by omega
      simp only [if_neg opening, if_pos closing, inside, Bool.false_eq_true, if_false, depths]
    · simp only [if_neg opening, if_neg closing, inside, Bool.false_eq_true, if_false]

theorem step_of_not_mem {place : Nesting} {c : Char} (plain : c ∉ brackets) :
    place.step c = place := by
  simp only [brackets, List.mem_cons, List.not_mem_nil, or_false, not_or] at plain
  obtain ⟨quote, opening, closing⟩ := plain
  simp only [step, if_neg quote, if_neg opening, if_neg closing, ite_self]

end Nesting

/-- A text cut at each mark outside of parentheses and quotes: the first piece and the others. -/
def cut (mark : Char) : (place : Nesting) → Text → Text × List Text
  | _, [] => ([], [])
  | place, c :: rest =>
    if place = .outside ∧ c = mark then
      let (piece, others) := cut mark .outside rest
      ([], piece :: others)
    else
      let (piece, others) := cut mark (place.step c) rest
      (c :: piece, others)

/-- The pieces between the marks outside of parentheses and quotes, of which there is at least one. -/
def pieces (mark : Char) (text : Text) : List Text :=
  let (piece, others) := cut mark .outside text
  piece :: others

/-- Where a reader is behind a text, unless it met a mark outside or a parenthesis that closes
nothing. -/
def walk (marks : Text) : (place : Nesting) → Text → Option Nesting
  | place, [] => some place
  | place, c :: rest =>
    if place = .outside ∧ c ∈ ')' :: marks then none else walk marks (place.step c) rest

/-- A text that closes whatever it opens and has the marks only inside. -/
def Sealed (marks text : Text) : Prop := walk marks .outside text = some .outside

instance (marks : Text) : DecidablePred (Sealed marks) := fun _ => inferInstanceAs (Decidable (_ = _))

variable {marks fewer text other : Text} {place next : Nesting} {mark : Char}

theorem walk_cons {c : Char} (free : ¬ (place = .outside ∧ c ∈ ')' :: marks)) (rest : Text) :
    walk marks place (c :: rest) = walk marks (place.step c) rest := if_neg free

theorem walk_append (text other : Text) :
    walk marks place (text ++ other) =
      (walk marks place text).bind fun next => walk marks next other := by
  induction text generalizing place with
  | nil => rfl
  | cons c text ih =>
    rw [List.cons_append, walk, walk, ih]
    split <;> rfl

theorem walk_mono (among : fewer ⊆ marks) (walked : walk marks place text = some next) :
    walk fewer place text = some next := by
  induction text generalizing place with
  | nil => exact walked
  | cons c text ih =>
    rw [walk] at walked ⊢
    split at walked
    case isTrue => cases walked
    case isFalse free =>
      have still : ¬ (place = .outside ∧ c ∈ ')' :: fewer) := fun met =>
        free ⟨met.1, List.cons_subset_cons _ among met.2⟩
      rw [if_neg still]
      exact ih walked

/-- Inside of parentheses no mark counts. -/
theorem walk_inside (walked : walk marks place text = some next) (others : Text) :
    walk others place.inside text = some next.inside := by
  induction text generalizing place with
  | nil => exact congrArg (Option.map Nesting.inside) walked
  | cons c text ih =>
    rw [walk] at walked
    split at walked
    case isTrue => cases walked
    case isFalse free =>
      have inner : ¬ (place = .outside ∧ c = ')') := by
        rintro ⟨top, rfl⟩
        exact free ⟨top, List.mem_cons_self ..⟩
      have step := ih walked
      rw [← Nesting.step_inside inner] at step
      rw [walk_cons fun met => place.inside_ne_outside met.1]
      exact step

/-- Text without brackets and marks leaves the reader where it was. -/
theorem walk_of_avoids (plain : Avoids (brackets ++ marks) text) :
    walk marks place text = some place := by
  induction text with
  | nil => rfl
  | cons c text ih =>
    obtain ⟨first, rest⟩ := avoids_cons.mp plain
    rw [List.mem_append, not_or] at first
    have free : ¬ (place = .outside ∧ c ∈ ')' :: marks) := by
      rintro ⟨_, met⟩
      rcases List.mem_cons.mp met with rfl | isMark
      · exact first.1 (by decide)
      · exact first.2 isMark
    rw [walk_cons free, Nesting.step_of_not_mem first.1]
    exact ih rest

namespace Sealed

theorem nil : Sealed marks [] := rfl

theorem mono (sealed_ : Sealed marks text) (among : fewer ⊆ marks) : Sealed fewer text :=
  walk_mono among sealed_

theorem append (first : Sealed marks text) (second : Sealed marks other) :
    Sealed marks (text ++ other) := by
  rw [Sealed, walk_append, first]
  exact second

theorem of_avoids (plain : Avoids (brackets ++ marks) text) : Sealed marks text :=
  walk_of_avoids plain

theorem cons {c : Char} (plain : c ∉ brackets ++ marks) (rest : Sealed marks text) :
    Sealed marks (c :: text) := by
  have first : Sealed marks [c] := of_avoids (avoids_cons.mpr ⟨plain, .nil⟩)
  exact first.append rest

/-- Between parentheses a text may have any marks. -/
theorem parenthesized (inner : Sealed fewer text) (structural : '(' ∉ marks) :
    Sealed marks ('(' :: text ++ [')']) := by
  have opened : Nesting.outside.step '(' = Nesting.outside.inside := rfl
  have free : ¬ (Nesting.outside = .outside ∧ '(' ∈ ')' :: marks) := by simp [structural]
  have closed : walk marks Nesting.outside.inside [')'] = some .outside :=
    walk_cons (fun met => Nesting.inside_ne_outside _ met.1) []
  rw [Sealed, List.cons_append, walk_cons free, opened, walk_append, walk_inside inner marks]
  exact closed

theorem join {separator : Text} {texts : List Text} (between : Sealed marks separator)
    (inner : ∀ text ∈ texts, Sealed marks text) : Sealed marks (join separator texts) := by
  induction texts with
  | nil => exact .nil
  | cons text texts ih =>
    rw [List.forall_mem_cons] at inner
    cases texts with
    | nil => exact inner.1
    | cons next texts => exact (inner.1.append between).append (ih inner.2)

end Sealed

/-- What a reader walks through is a part of one piece. -/
theorem cut_append (walked : walk [mark] place text = some next) (rest : Text) :
    cut mark place (text ++ rest) = (text ++ (cut mark next rest).1, (cut mark next rest).2) := by
  induction text generalizing place with
  | nil =>
    obtain rfl := Option.some.inj walked
    rfl
  | cons c text ih =>
    rw [walk] at walked
    split at walked
    case isTrue => cases walked
    case isFalse free =>
      have within : ¬ (place = .outside ∧ c = mark) := by
        rintro ⟨top, rfl⟩
        exact free ⟨top, List.mem_cons_of_mem _ (List.mem_singleton_self c)⟩
      rw [List.cons_append, cut, if_neg within, ih walked]
      rfl

/-- Texts with a mark between them are the pieces of what they are joined to. -/
theorem pieces_join {texts : List Text} (nonempty : texts ≠ [])
    (closed : ∀ text ∈ texts, Sealed [mark] text) : pieces mark (join [mark] texts) = texts := by
  have whole : ∀ first others, (∀ text ∈ first :: others, Sealed [mark] text) →
      cut mark .outside (join [mark] (first :: others)) = (first, others) := by
    intro first others closed
    induction others generalizing first with
    | nil =>
      have only : Sealed [mark] first := closed first (List.mem_singleton_self first)
      have walked := cut_append only []
      rw [List.append_nil, cut, List.append_nil] at walked
      exact walked
    | cons second others ih =>
      rw [List.forall_mem_cons] at closed
      have several : join [mark] (first :: second :: others) =
          first ++ mark :: join [mark] (second :: others) :=
        List.append_assoc first [mark] (join [mark] (second :: others))
      have at_mark : cut mark .outside (mark :: join [mark] (second :: others)) =
          ([], second :: others) := by
        rw [cut, if_pos ⟨rfl, rfl⟩, ih second closed.2]
      rw [several, cut_append closed.1, at_mark, List.append_nil]
  obtain ⟨first, others, rfl⟩ := List.exists_cons_of_ne_nil nonempty
  rw [pieces, whole first others closed]

end OData.Text
