import Mathlib
import OData.Literal
import OData.Proofs.Text.Alphabet
import OData.Proofs.Uri.OnePass

namespace OData

open Text

namespace Uri

/-- The quote and the parentheses: a component has them in plain characters, and they have a meaning
in a filter. -/
def brackets : Text := ['\'', '(', ')']

theorem isInert_of_isUnreserved {c : Char} (unreserved : isUnreserved c = true) :
    isInert c = true := by
  simp only [isUnreserved, isInert, Bool.or_eq_true, List.contains_iff_mem, List.mem_cons,
    List.not_mem_nil, or_false] at unreserved ⊢
  tauto

theorem escapeByte_inert (byte : UInt8) : Inert (escapeByte byte) := by
  have bound := byte.toNat_lt
  have hexInert : ∀ n < 16, isInert (upperHexDigit n) = true := by
    intro n small
    simp [isInert, upperHexDigit_isAlphanum small]
  exact inert_cons.mpr ⟨by decide, inert_cons.mpr ⟨hexInert _ (by omega),
    inert_cons.mpr ⟨hexInert _ (by omega), .nil⟩⟩⟩

theorem mem_encodeChar {c d : Char} (member : d ∈ encodeChar c) :
    isInert d = true ∨ d = c ∧ d ∈ brackets := by
  unfold encodeChar at member
  split at member
  case isTrue kept =>
    obtain rfl := List.mem_singleton.mp member
    rcases kept with unreserved | plain
    · exact Or.inl (isInert_of_isUnreserved unreserved)
    · have marks : plainMarks.all (fun mark => isInert mark = true ∨ mark ∈ brackets) = true := by
        decide
      exact (of_decide_eq_true (List.all_eq_true.mp marks d plain)).imp_right fun bracket =>
        ⟨rfl, bracket⟩
  case isFalse =>
    obtain ⟨byte, _, inEscape⟩ := List.mem_flatMap.mp member
    exact Or.inl (escapeByte_inert byte d inEscape)

theorem mem_encodeComponent {text : Text} {d : Char} (member : d ∈ encodeComponent text) :
    isInert d = true ∨ d ∈ text ∧ d ∈ brackets := by
  rw [encodeComponent_eq_flatMap] at member
  obtain ⟨c, inText, inChar⟩ := List.mem_flatMap.mp member
  rcases mem_encodeChar inChar with inert | ⟨rfl, bracket⟩
  · exact Or.inl inert
  · exact Or.inr ⟨inText, bracket⟩

/-- A name without brackets is encoded to inert characters, whatever else stands in it. -/
theorem encodeComponent_inert {text : Text} (plain : Avoids brackets text) :
    Inert (encodeComponent text) := by
  intro d member
  rcases mem_encodeComponent member with inert | ⟨inText, bracket⟩
  · exact inert
  · exact absurd bracket (plain d inText)

/-- No text whatsoever brings a mark into its component that is neither inert nor a bracket. -/
theorem encodeComponent_avoids {marks : Text} (text : Text)
    (structural : ∀ mark ∈ marks, isInert mark = false ∧ mark ∉ brackets) :
    Avoids marks (encodeComponent text) := by
  intro d member isMark
  rcases mem_encodeComponent member with inert | ⟨_, bracket⟩
  · rw [(structural d isMark).1] at inert
    exact Bool.noConfusion inert
  · exact (structural d isMark).2 bracket

theorem encodeChar_avoids_quote {c : Char} (plain : c ≠ '\'') : Avoids ['\''] (encodeChar c) := by
  intro d member isMark
  obtain rfl := List.mem_singleton.mp isMark
  rcases mem_encodeChar member with inert | ⟨same, _⟩
  · exact absurd inert (by decide)
  · exact plain same.symm

/-- A slash in a name does not become a slash between segments. -/
theorem slash_not_mem_encodeComponent (text : Text) : '/' ∉ encodeComponent text := by
  have reserved : ¬ ('/' = '%' ∨ IsPlain componentMarks '/') := by decide
  exact fun member => reserved (plain_of_mem_encodeComponent member)

theorem encodeChar_ne_nil (c : Char) : encodeChar c ≠ [] := by
  unfold encodeChar
  split
  · exact List.cons_ne_nil _ _
  · intro empty
    obtain ⟨byte, rest, bytes⟩ := List.exists_cons_of_ne_nil (String.utf8EncodeChar_ne_nil (c := c))
    rw [bytes] at empty
    simp [escapeByte] at empty

theorem encodeComponent_ne_nil {text : Text} (nonempty : text ≠ []) : encodeComponent text ≠ [] := by
  obtain ⟨c, rest, rfl⟩ := List.exists_cons_of_ne_nil nonempty
  rw [encodeComponent_eq_flatMap, List.flatMap_cons]
  intro empty
  exact encodeChar_ne_nil c (List.append_eq_nil_iff.mp empty).1

/-- What stands in a text whose last `/$count` was made readable stood in it before, or in that
ending. -/
theorem mem_restoreCount {text : Text} {c : Char} (member : c ∈ restoreCount text) :
    c ∈ text ∨ c ∈ "/$count".toList := by
  unfold restoreCount at member
  split at member
  · rename_i dropped
    exact (List.mem_append.mp member).imp_left fun inFront => subset_of_dropEnding? dropped inFront
  · split at member
    · rename_i dropped
      exact (List.mem_append.mp member).imp_left fun inFront => subset_of_dropEnding? dropped inFront
    · exact Or.inl member

theorem restoreCount_ne_nil {text : Text} (nonempty : text ≠ []) : restoreCount text ≠ [] := by
  unfold restoreCount
  split
  · simp
  · split
    · simp
    · exact nonempty

theorem restoreCount_inert {text : Text} (inert : Inert text) : Inert (restoreCount text) := by
  intro c member
  rcases mem_restoreCount member with inText | inEnding
  · exact inert c inText
  · exact (by decide : Inert "/$count".toList) c inEnding

theorem restoreCount_avoids {marks text : Text} (avoids : Avoids marks text)
    (structural : ∀ mark ∈ marks, isInert mark = false) : Avoids marks (restoreCount text) := by
  intro c member
  rcases mem_restoreCount member with inText | inEnding
  · exact avoids c inText
  · exact (by decide : Inert "/$count".toList).avoids structural c inEnding

end Uri

end OData
