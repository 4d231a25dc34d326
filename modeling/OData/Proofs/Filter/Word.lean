import Mathlib
import OData.Proofs.Filter.RoundTrip
import OData.Proofs.Literal
import OData.Proofs.Uri.Ending

namespace OData

open Text

/-- A name that is encoded to a word: it is not empty and has no brackets. -/
def IsName (name : String) : Prop := name.toList ≠ [] ∧ Avoids Uri.brackets name.toList

/-- A name that is a word as it is. -/
def IsBinder (name : String) : Prop :=
  name.toList ≠ [] ∧ Avoids ['\'', ' ', ',', '(', ')', ':'] name.toList

/-- Names of a resource; there is at least one. -/
def ResourcePath.Readable : ResourcePath → Prop
  | .single name => IsName name
  | .segments names => names ≠ [] ∧ ∀ name ∈ names, IsName name

instance : DecidablePred IsName := fun _ => inferInstanceAs (Decidable (_ ∧ _))

instance : DecidablePred IsBinder := fun _ => inferInstanceAs (Decidable (_ ∧ _))

theorem IsBinder.isWord {name : String} (isBinder : IsBinder name) : IsWord name.toList := by
  obtain ⟨nonempty, plain⟩ := isBinder
  refine ⟨nonempty, ?_⟩
  clear nonempty
  generalize name.toList = text at plain
  induction text with
  | nil => rfl
  | cons c text ih =>
    rw [avoids_cons] at plain
    simp only [List.mem_cons, List.not_mem_nil, or_false, not_or] at plain
    obtain ⟨⟨quote, blank, comma, opening, closing, colon⟩, rest⟩ := plain
    have outside : (c == '\'') = false := by simpa using quote
    have delimiter : isDelimiter c = false := by
      simp [isDelimiter, blank, comma, opening, closing, colon]
    rw [isClosed, delimiter, outside]
    exact ih rest

namespace Uri

theorem encodeSegments_inert {segments : List String}
    (names : ∀ name ∈ segments, Avoids brackets name.toList) : Inert (encodeSegments segments) := by
  refine Inert.join (by decide) fun piece member => ?_
  obtain ⟨name, inSegments, rfl⟩ := List.mem_map.mp member
  exact encodeComponent_inert (names name inSegments)

/-- Named segments make a path that is not empty, as long as there are any. -/
theorem encodePath_ne_nil {segments : List String} (nonempty : segments ≠ [])
    (named : ∀ name ∈ segments, name.toList ≠ []) : encodePath segments ≠ [] := by
  refine restoreCount_ne_nil ?_
  obtain ⟨first, others, rfl⟩ := List.exists_cons_of_ne_nil nonempty
  have head := encodeComponent_ne_nil (named first (List.mem_cons_self ..))
  rw [encodeSegments, List.map_cons, join_eq_flatMap]
  exact fun empty => head (List.append_eq_nil_iff.mp empty).1

theorem encodePath_isWord {segments : List String} (nonempty : segments ≠ [])
    (names : ∀ name ∈ segments, IsName name) : IsWord (encodePath segments) := by
  have inert := restoreCount_inert (encodeSegments_inert fun name member => (names name member).2)
  exact inert.isWord (encodePath_ne_nil nonempty fun name member => (names name member).1)

theorem encodeResource_isWord {resource : ResourcePath} (readable : resource.Readable) :
    IsWord (encodeResource resource) := by
  cases resource with
  | single name =>
    have component := encodeComponent_ne_nil readable.1
    exact (restoreCount_inert (encodeComponent_inert readable.2)).isWord
      (restoreCount_ne_nil component)
  | segments names => exact encodePath_isWord readable.1 readable.2

theorem encodeAlias_isWord {name : String} (isName : IsName name) : IsWord (encodeAlias name) :=
  (inert_cons.mpr ⟨rfl, encodeComponent_inert isName.2⟩).isWord (List.cons_ne_nil _ _)

end Uri

theorem FilterOperation.countPath_isWord {path : List String} (names : ∀ name ∈ path, IsName name) :
    IsWord (countPath path) := by
  unfold countPath
  split
  · exact (by decide : Inert "$count".toList).isWord nofun
  · refine Uri.encodePath_isWord (by simp) fun name member => ?_
    rcases List.mem_append.mp member with inPath | isCount
    · exact names name inPath
    · rw [List.mem_singleton.mp isCount]
      decide

theorem FilterOperation.splitCallee_countPath (path : List String) :
    (Expression.splitCallee (countPath path)).2 = "$count".toList := by
  unfold countPath
  split
  · rfl
  case isFalse nonempty =>
    rw [Uri.encodePath_count nonempty]
    exact congrArg Prod.snd
      (Expression.splitCallee_append (by decide : '/' ∉ "$count".toList) _)

open Expression (IsCallee)

theorem FilterFunction.isCallee (function : FilterFunction) : IsCallee function.name.toList := by
  cases function <;> exact ⟨⟨nofun, rfl⟩, by decide, by decide⟩

/-- The dot keeps a method apart from all other calls. -/
theorem isCallee_method {scope name : String} (isScope : IsName scope) (isName : IsName name) :
    IsCallee (Uri.encodeComponent scope.toList ++ '.' :: Uri.encodeComponent name.toList) := by
  have front := Uri.slash_not_mem_encodeComponent scope.toList
  have back := Uri.slash_not_mem_encodeComponent name.toList
  refine ⟨Inert.isWord ?inert (by simp), by simp [front, back], ?free⟩
  case inert =>
    exact inert_append.mpr ⟨Uri.encodeComponent_inert isScope.2,
      inert_cons.mpr ⟨rfl, Uri.encodeComponent_inert isName.2⟩⟩
  case free =>
    intro reserved
    have dotless : Expression.reservedCallees.all (fun callee => '.' ∉ callee) = true := by decide
    exact of_decide_eq_true (List.all_eq_true.mp dotless _ reserved) (by simp)

end OData
