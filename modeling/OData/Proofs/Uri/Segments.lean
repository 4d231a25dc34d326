import Mathlib
import OData.Proofs.Uri.Decoding
import OData.Proofs.Uri.Ending

namespace OData.Uri

/-- The segment that a piece of a path stands for. -/
def segmentOf? (piece : Text) : Option String := (decode? piece).map String.ofList

/-- What stands between the slashes of a path, decoded. -/
def segmentsIn (path : Text) : List (Option String) := (path.splitOn '/').map segmentOf?

/-- The segments, with a count at the end of the last one as a segment behind it. -/
def countApart : List String → List String
  | [] => []
  | [last] =>
    match Text.dropEnding? "/$count".toList last.toList with
    | some front => [String.ofList front, "$count"]
    | none => [last]
  | segment :: next :: rest => segment :: countApart (next :: rest)

/-- The segments as they are written: all of them encoded, but for a count behind others. -/
def writtenSegments (segments : List String) : List Text :=
  let encoded := segments.map fun segment => encodeComponent segment.toList
  if segments.dropLast ≠ [] ∧ segments.getLast? = some "$count" then
    encoded.dropLast ++ ["$count".toList]
  else encoded

theorem countApart_append (front : List String) (last : String) :
    countApart (front ++ [last]) = front ++ countApart [last] := by
  induction front with
  | nil => rfl
  | cons segment front ih =>
    obtain ⟨next, rest, split⟩ : ∃ next rest, front ++ [last] = next :: rest :=
      List.exists_cons_of_ne_nil (List.append_ne_nil_of_right_ne_nil front (List.cons_ne_nil _ _))
    rw [List.cons_append, List.cons_append, ← ih, split, countApart]

theorem countApart_count (front : List String) (path : String) :
    countApart (front ++ [path ++ "/$count"]) = front ++ [path, "$count"] := by
  rw [countApart_append, countApart, String.toList_append, Text.dropEnding?_append]
  simp only [String.ofList_toList]

theorem countApart_uncounted (front : List String) {last : String}
    (uncounted : ¬ "/$count".toList <:+ last.toList) : countApart (front ++ [last]) = front ++ [last] := by
  rw [countApart_append, countApart, Text.dropEnding?_eq_none uncounted]

/-- A segment that ends in a count, with the part in front of the count. -/
theorem exists_of_counted {last : String} (counted : "/$count".toList <:+ last.toList) :
    ∃ path, last = path ++ "/$count" := by
  obtain ⟨path, whole⟩ := counted
  refine ⟨String.ofList path, String.toList_inj.mp ?_⟩
  rw [String.toList_append, String.toList_ofList, whole]

theorem countApart_ne_nil {segments : List String} (nonempty : segments ≠ []) :
    countApart segments ≠ [] := by
  obtain ⟨front, last, rfl⟩ := (List.eq_nil_or_concat' segments).resolve_left nonempty
  by_cases counted : "/$count".toList <:+ last.toList
  · obtain ⟨path, rfl⟩ := exists_of_counted counted
    rw [countApart_count]
    exact List.append_ne_nil_of_right_ne_nil front (List.cons_ne_nil _ _)
  · rwa [countApart_uncounted front counted]

/-- Nothing is set apart exactly where the last segment does not end in a count. -/
theorem countApart_eq_self {segments : List String} :
    countApart segments = segments ↔ ¬ ∃ front path, segments = front ++ [path ++ "/$count"] := by
  constructor
  · rintro same ⟨front, path, rfl⟩
    have length := congrArg List.length same
    rw [countApart_count, List.length_append, List.length_append] at length
    simp only [List.length_cons, List.length_nil] at length
    omega
  · intro uncounted
    rcases List.eq_nil_or_concat' segments with rfl | ⟨front, last, rfl⟩
    · rfl
    refine countApart_uncounted front fun counted => uncounted ?_
    obtain ⟨path, rfl⟩ := exists_of_counted counted
    exact ⟨front, path, rfl⟩

theorem writtenSegments_append (front : List String) (last : String) :
    writtenSegments (front ++ [last]) = (front.map fun segment => encodeComponent segment.toList) ++
      [if front ≠ [] ∧ last = "$count" then "$count".toList else encodeComponent last.toList] := by
  simp only [writtenSegments, List.dropLast_concat, List.getLast?_concat, Option.some_inj,
    List.map_append, List.map_singleton]
  split <;> rfl

theorem suffix_of_suffix_append_cons {mark : Char} {ending front rest : Text} (free : mark ∉ ending)
    (ends : ending <:+ front ++ mark :: rest) : ending <:+ rest := by
  have inMark : mark :: rest <:+ front ++ mark :: rest := List.suffix_append ..
  rcases List.suffix_or_suffix_of_suffix ends inMark with short | long
  · rcases List.suffix_cons_iff.mp short with rfl | inside
    · exact absurd (List.mem_cons_self ..) free
    · exact inside
  · exact absurd (long.subset (List.mem_cons_self ..)) free

/-- Between a slash and the end there is a single piece. -/
theorem eq_of_cons_suffix_append_cons {mark : Char} {ending front rest : Text} (free : mark ∉ rest)
    (unmarked : mark ∉ ending) (ends : mark :: ending <:+ front ++ mark :: rest) : ending = rest := by
  have inMark : mark :: rest <:+ front ++ mark :: rest := List.suffix_append ..
  have whole (a b : Text) (free : mark ∉ b) (short : mark :: a <:+ mark :: b) : a = b := by
    rcases List.suffix_cons_iff.mp short with same | inside
    · exact (List.cons.inj same).2
    · exact absurd (inside.subset (List.mem_cons_self ..)) free
  rcases List.suffix_or_suffix_of_suffix ends inMark with short | long
  · exact whole ending rest free short
  · exact (whole rest ending unmarked long).symm

/-- A path whose last segment does not end in a count, and is none behind others, is written as its
encoded segments. -/
theorem restoreCount_encodeSegments {front : List String} {last : String}
    (uncounted : ¬ "/$count".toList <:+ last.toList) (other : ¬ (front ≠ [] ∧ last = "$count")) :
    restoreCount (encodeSegments (front ++ [last])) = encodeSegments (front ++ [last]) := by
  have single : encodeSegments [last] = encodeComponent last.toList := rfl
  rcases eq_or_ne front [] with rfl | nonempty
  · rw [List.nil_append, single]
    exact encodeResource_single uncounted
  rw [encodeSegments_append nonempty (List.cons_ne_nil _ _), single]
  refine restoreCount_of_not_suffix ?inside ?behind
  case inside =>
    intro ends
    have free : '/' ∉ "%2F%24count".toList := by decide
    exact uncounted (suffix_of_encodeComponent (suffix_of_suffix_append_cons free ends))
  case behind =>
    intro ends
    have free : '/' ∉ "%24count".toList := by decide
    have written := eq_of_cons_suffix_append_cons (slash_not_mem_encodeComponent last.toList) free ends
    rw [← encodeComponent_count] at written
    exact other ⟨nonempty, (String.toList_inj.mp (encodeComponent_inj written)).symm⟩

/-- A count that ends the last segment is encoded with it. -/
theorem encodeSegments_counted (front : List String) (path : String) :
    encodeSegments (front ++ [path ++ "/$count"]) =
      encodeSegments (front ++ [path]) ++ "%2F%24count".toList := by
  have marks : encodeComponent "/$count".toList = "%2F%24count".toList := by decide
  have single : encodeSegments [path ++ "/$count"] =
      encodeSegments [path] ++ "%2F%24count".toList := by
    rw [← marks]
    exact (congrArg encodeComponent String.toList_append).trans (encodeComponent_append ..)
  rcases eq_or_ne front [] with rfl | several
  · exact single
  · rw [encodeSegments_append several (List.cons_ne_nil _ _), single,
      encodeSegments_append several (List.cons_ne_nil _ _), List.append_assoc, List.cons_append]

theorem join_writtenSegments_count {front : List String} (several : front ≠ []) :
    Text.join ['/'] (writtenSegments (front ++ ["$count"])) =
      encodeSegments front ++ "/$count".toList := by
  rw [writtenSegments_append, if_pos ⟨several, rfl⟩,
    Text.join_append ['/'] (List.map_eq_nil_iff.not.mpr several) (List.cons_ne_nil _ _),
    List.append_assoc]
  rfl

/-- A path is its segments with slashes between them, when the count has been set apart. -/
theorem encodePath_eq_join {segments : List String} (nonempty : segments ≠ []) :
    encodePath segments = Text.join ['/'] (writtenSegments (countApart segments)) := by
  obtain ⟨front, last, rfl⟩ := (List.eq_nil_or_concat' segments).resolve_left nonempty
  by_cases counted : "/$count".toList <:+ last.toList
  · obtain ⟨path, rfl⟩ := exists_of_counted counted
    have apart : front ++ [path, "$count"] = front ++ [path] ++ ["$count"] :=
      (List.append_assoc front [path] ["$count"]).symm
    have several : front ++ [path] ≠ [] :=
      List.append_ne_nil_of_right_ne_nil front (List.cons_ne_nil _ _)
    rw [countApart_count, apart, join_writtenSegments_count several, encodePath,
      encodeSegments_counted, restoreCount_inside]
  rw [countApart_uncounted front counted]
  by_cases isCount : front ≠ [] ∧ last = "$count"
  · obtain ⟨several, rfl⟩ := isCount
    rw [join_writtenSegments_count several, encodePath_count several]
  · rw [encodePath, restoreCount_encodeSegments counted isCount, encodeSegments,
      writtenSegments_append, if_neg isCount, List.map_append, List.map_singleton]

theorem splitOn_encodePath {segments : List String} (nonempty : segments ≠ []) :
    (encodePath segments).splitOn '/' = writtenSegments (countApart segments) := by
  obtain ⟨front, last, apart⟩ :=
    (List.eq_nil_or_concat' (countApart segments)).resolve_left (countApart_ne_nil nonempty)
  rw [encodePath_eq_join nonempty, apart, writtenSegments_append]
  refine Text.splitOn_join (List.append_ne_nil_of_right_ne_nil _ (List.cons_ne_nil _ _)) ?_
  intro piece member
  rw [List.mem_append, List.mem_map, List.mem_singleton] at member
  rcases member with ⟨segment, _, rfl⟩ | rfl
  · exact slash_not_mem_encodeComponent segment.toList
  · split
    · decide
    · exact slash_not_mem_encodeComponent last.toList

theorem segmentOf?_encodeComponent (segment : String) :
    segmentOf? (encodeComponent segment.toList) = some segment := by
  rw [segmentOf?, decode?_encodeComponent, Option.map_some, String.ofList_toList]

theorem segmentOf?_count : segmentOf? "$count".toList = some "$count" := by
  have plain : '%' ∉ "$count".toList := by decide
  rw [segmentOf?, decode?_eq_self_iff.mpr (unescaped_of_not_mem plain), Option.map_some,
    String.ofList_toList]

/-- Decoding gives every segment back, a count that is written in plain characters included. -/
theorem map_segmentOf?_writtenSegments (segments : List String) :
    (writtenSegments segments).map segmentOf? = segments.map some := by
  rcases List.eq_nil_or_concat' segments with rfl | ⟨front, last, rfl⟩
  · rfl
  simp only [writtenSegments_append, List.map_append, List.map_map, List.map_singleton,
    Function.comp_def, segmentOf?_encodeComponent]
  split
  case isTrue isCount => rw [segmentOf?_count, isCount.2]
  case isFalse => rw [segmentOf?_encodeComponent]

theorem segmentsIn_encodePath {segments : List String} (nonempty : segments ≠ []) :
    segmentsIn (encodePath segments) = (countApart segments).map some := by
  rw [segmentsIn, splitOn_encodePath nonempty, map_segmentOf?_writtenSegments]

theorem encodePath_inj {segments other : List String} (nonempty : segments ≠ [])
    (otherNonempty : other ≠ []) :
    encodePath other = encodePath segments ↔ countApart other = countApart segments := by
  constructor
  · intro same
    have read := congrArg segmentsIn same
    rw [segmentsIn_encodePath nonempty, segmentsIn_encodePath otherNonempty] at read
    exact (List.map_injective_iff.mpr (Option.some_injective _)) read
  · intro same
    rw [encodePath_eq_join nonempty, encodePath_eq_join otherNonempty, same]

/-- A path comes back as its segments, whatever is in them, unless the last one ends in a count; that
one comes back as two. So paths are the same only where the segments are, up to the count. -/
theorem path_segments {segments : List String} (nonempty : segments ≠ []) :
    segmentsIn (encodePath segments) = (countApart segments).map some ∧
      segmentsIn (encodeResource (.segments segments)) = (countApart segments).map some ∧
      (∀ name, segments = [name] →
        segmentsIn (encodeResource (.single name)) = (countApart segments).map some) ∧
      (countApart segments = segments ↔ ¬ ∃ front path, segments = front ++ [path ++ "/$count"]) ∧
      (∀ front path, segments = front ++ [path ++ "/$count"] →
        countApart segments = front ++ [path, "$count"]) ∧
      (encodePath segments).splitOn '/' = writtenSegments (countApart segments) ∧
      ∀ other, other ≠ [] →
        (encodePath other = encodePath segments ↔ countApart other = countApart segments) := by
  have read := segmentsIn_encodePath nonempty
  refine ⟨read, read, ?single, countApart_eq_self, ?counted, splitOn_encodePath nonempty, ?same⟩
  case single =>
    rintro name rfl
    exact read
  case counted =>
    rintro front path rfl
    exact countApart_count front path
  case same => exact fun other otherNonempty => encodePath_inj nonempty otherNonempty

/-- Slashes, percent signs and counts anywhere else are names like others. -/
theorem path_segments_hostile :
    ["$count", "%2F%24count", "a/$count/b", "c/$count"] ≠ [] ∧
      segmentsIn (encodePath ["$count", "%2F%24count", "a/$count/b", "c/$count"]) =
        [some "$count", some "%2F%24count", some "a/$count/b", some "c", some "$count"] := by
  have nonempty : ["$count", "%2F%24count", "a/$count/b", "c/$count"] ≠ [] := List.cons_ne_nil _ _
  obtain ⟨read, _, _, _, counted, _⟩ := path_segments nonempty
  have apart := counted ["$count", "%2F%24count", "a/$count/b"] "c" (by decide)
  refine ⟨nonempty, ?_⟩
  rw [read, apart]
  rfl

end OData.Uri
