import Mathlib
import OData.Proofs.Filter.Holes
import OData.Proofs.Options.Items

namespace OData

open Text

mutual

/-- The texts of an item and of all items inside it, with the expansions that these make up. -/
def ExpandedItem.positions : ExpandedItem → List Text
  | .mk path options => (ExpandedItem.mk path options).text :: ExpandedOption.listPositions options

def ExpandedItem.listPositions : List ExpandedItem → List Text
  | [] => []
  | item :: rest => item.positions ++ ExpandedItem.listPositions rest

def ExpandedOption.positions : ExpandedOption → List Text
  | .value _ _ => []
  | .expand items => ExpandedItem.joined items :: ExpandedItem.listPositions items

def ExpandedOption.listPositions : List ExpandedOption → List Text
  | [] => []
  | option :: rest => option.positions ++ ExpandedOption.listPositions rest

end

mutual

/-- All objects of the expansion have navigation properties. -/
def Expand.Filled : Expand → Prop
  | .property _ => True
  | .list expands => Expand.ListFilled expands
  | .object entries => entries ≠ [] ∧ Expand.EntriesFilled entries

def Expand.ListFilled : List Expand → Prop
  | [] => True
  | expand :: rest => expand.Filled ∧ Expand.ListFilled rest

def Expand.EntriesFilled : List (String × List QueryOption) → Prop
  | [] => True
  | (_, options) :: rest => QueryOption.ListFilled options ∧ Expand.EntriesFilled rest

def QueryOption.ListFilled : List QueryOption → Prop
  | [] => True
  | option :: rest => option.Filled ∧ QueryOption.ListFilled rest

def QueryOption.Filled : QueryOption → Prop
  | .expand expand => expand.Filled
  | _ => True

end

namespace ExpandedItem

/-- There is no hole in the expansion that the items make up. -/
def Complete (items : List ExpandedItem) : Prop := [] ∉ joined items :: listPositions items

theorem listPositions_append (first second : List ExpandedItem) :
    listPositions (first ++ second) = listPositions first ++ listPositions second := by
  induction first with
  | nil => rfl
  | cons item rest ih => rw [List.cons_append, listPositions, listPositions, ih, List.append_assoc]

theorem text_ne_nil {path : Text} (written : path ≠ []) (options : List ExpandedOption) :
    (mk path options).text ≠ [] := by
  rw [text]
  split
  · exact written
  · exact List.append_ne_nil_of_left_ne_nil (List.append_ne_nil_of_left_ne_nil written _) _

theorem not_mem_positions {path : Text} (written : path ≠ []) {options : List ExpandedOption} :
    [] ∉ (mk path options).positions ↔ [] ∉ ExpandedOption.listPositions options := by
  rw [positions, Expression.not_mem_cons (text_ne_nil written options)]

/-- Items that are there show in the text of the expansion. -/
theorem complete_iff {items : List ExpandedItem} (nonempty : items ≠ []) :
    Complete items ↔ [] ∉ listPositions items := by
  obtain ⟨first, others, rfl⟩ := List.exists_cons_of_ne_nil nonempty
  refine ⟨fun complete hole => complete (List.mem_cons_of_mem _ hole), fun inner => ?_⟩
  have head : first.text ≠ [] := by
    intro empty
    obtain ⟨path, options⟩ := first
    exact inner (List.mem_append_left _ (empty ▸ List.mem_cons_self ..))
  have written : joined (first :: others) ≠ [] := by
    rw [joined, texts, join_eq_flatMap]
    exact List.append_ne_nil_of_left_ne_nil head _
  exact (Expression.not_mem_cons written).mpr inner

end ExpandedItem

theorem Uri.encodeResource_single_ne_nil {name : String} (named : IsNonempty name) :
    encodeResource (.single name) ≠ [] :=
  restoreCount_ne_nil (encodeComponent_ne_nil named)

/-- Of a count only filters are written, and no expansion is among them. -/
theorem Expand.countItem_complete {path : String} (named : IsNonempty path) (inner : Options) :
    [] ∉ (countItem path inner).positions := by
  have written := Uri.encodeResource_single_ne_nil named
  rw [countItem, ExpandedItem.not_mem_positions (List.append_ne_nil_of_left_ne_nil written _)]
  induction countFilters inner with
  | nil => exact List.not_mem_nil
  | cons filter rest ih => exact ih

mutual

/-- A regular expansion with named paths is complete exactly where it is filled. An empty list is
refused, but an empty object leaves nothing between the commas around it. -/
theorem Expand.items_complete : (expand : Expand) → expand.Regular →
    expand.Named IsNonempty (fun _ => True) →
    ([] ∉ ExpandedItem.listPositions expand.items ↔ expand.Filled)
  | .property path, _, named => by
    have written := Uri.encodeResource_single_ne_nil named
    have item : [] ∉ (ExpandedItem.mk (Uri.encodeResource (.single path)) []).positions :=
      (ExpandedItem.not_mem_positions written).mpr List.not_mem_nil
    refine iff_of_true ?_ trivial
    rwa [Expand.items, ExpandedItem.listPositions, ExpandedItem.listPositions, List.append_nil]
  | .list expands, regular, named => Expand.listItems_complete expands regular.2 named
  | .object [], _, _ => iff_of_false (fun full => full (List.mem_cons_self ..)) fun filled => filled.1 rfl
  | .object (first :: others), regular, named => by
    have inner := Expand.entryItems_complete (first :: others) regular named
    exact inner.trans (and_iff_right (List.cons_ne_nil first others)).symm

theorem Expand.listItems_complete : (expands : List Expand) → Expand.ListRegular expands →
    Expand.ListNamed IsNonempty (fun _ => True) expands →
      ([] ∉ ExpandedItem.listPositions (Expand.listItems expands) ↔ Expand.ListFilled expands)
  | [], _, _ => iff_of_true List.not_mem_nil trivial
  | expand :: rest, regular, named => by
    have head := expand.items_complete regular.1 named.1
    have tail := Expand.listItems_complete rest regular.2 named.2
    rw [Expand.listItems, ExpandedItem.listPositions_append, List.mem_append, not_or, head, tail]
    rfl

theorem Expand.entryItems_complete : (entries : List (String × List QueryOption)) →
    Expand.EntriesRegular entries → Expand.EntriesNamed IsNonempty (fun _ => True) entries →
      ([] ∉ ExpandedItem.listPositions (Expand.entryItems entries) ↔ Expand.EntriesFilled entries)
  | [], _, _ => iff_of_true List.not_mem_nil trivial
  | (path, options) :: rest, regular, named => by
    have nested := QueryOption.expandedList_complete options
    have tail := Expand.entryItems_complete rest regular.2 named.2.2
    have head : [] ∉ (Expand.entryItem path (QueryOption.expandedList options) options).positions ↔
        QueryOption.ListFilled options := by
      by_cases counted : ∃ inner, options = [.count inner]
      · obtain ⟨inner, rfl⟩ := counted
        exact iff_of_true (Expand.countItem_complete named.1 inner) ⟨trivial, trivial⟩
      · rw [Expand.entryItem_of_ne_count path _ (not_exists.mp counted),
          ExpandedItem.not_mem_positions (Uri.encodeResource_single_ne_nil named.1)]
        exact nested (regular.1.resolve_left counted) named.2.1
    rw [Expand.entryItems, ExpandedItem.listPositions, List.mem_append, not_or, head, tail]
    rfl

theorem QueryOption.expandedList_complete : (options : List QueryOption) →
    QueryOption.ListRegular options → QueryOption.ListNamed IsNonempty (fun _ => True) options →
      ([] ∉ ExpandedOption.listPositions (QueryOption.expandedList options) ↔
        QueryOption.ListFilled options)
  | [], _, _ => iff_of_true List.not_mem_nil trivial
  | option :: rest, regular, named => by
    have head := option.expanded_complete regular.1 named.1
    have tail := QueryOption.expandedList_complete rest regular.2 named.2
    rw [QueryOption.expandedList, ExpandedOption.listPositions, List.mem_append, not_or, head, tail]
    rfl

theorem QueryOption.expanded_complete : (option : QueryOption) → option.Regular →
    option.Named IsNonempty (fun _ => True) →
    ([] ∉ option.expanded.positions ↔ option.Filled)
  | .expand expand, regular, named => by
    have inner := expand.items_complete regular named
    rw [← ExpandedItem.complete_iff (expand.items_ne_nil regular)] at inner
    exact inner
  | .filter _, _, _ => iff_of_true List.not_mem_nil trivial
  | .orderBy _, _, _ => iff_of_true List.not_mem_nil trivial
  | .top _, _, _ => iff_of_true List.not_mem_nil trivial
  | .skip _, _, _ => iff_of_true List.not_mem_nil trivial
  | .select _, _, _ => iff_of_true List.not_mem_nil trivial
  | .format _, _, _ => iff_of_true List.not_mem_nil trivial
  | .count _, refused, _ => refused.elim
  | .parameter _ _, refused, _ => refused.elim
  | .custom _ _, refused, _ => refused.elim

end

/-- The text of an accepted expansion with named paths has a hole exactly where an object is empty. -/
theorem Expand.compile_complete {expand : Expand} {text : Text}
    (named : expand.Named IsNonempty fun _ => True) (run : expand.compile.outcome = .ok text) :
    text = ExpandedItem.joined expand.items ∧
      (ExpandedItem.Complete expand.items ↔ expand.Filled) := by
  obtain ⟨regular, written⟩ := expand.compile_writes text run
  have inner := expand.items_complete regular named
  rw [← ExpandedItem.complete_iff (expand.items_ne_nil regular)] at inner
  exact ⟨written, inner⟩

/-- What is accepted has holes exactly where its description has nothing: in a filter, an empty object
that no function is called on or a resource without segments, and in an expansion an empty object. -/
theorem complete_iff_filled (filter : Filter) (expand : Expand) (text : Text) :
    (filter.Named IsNonempty (fun _ => True) → filter.compile = .ok text →
      text = filter.expression.bare ∧ (filter.expression.Complete ↔ filter.Filled)) ∧
    (expand.Named IsNonempty (fun _ => True) → expand.compile.outcome = .ok text →
      text = ExpandedItem.joined expand.items ∧
        (ExpandedItem.Complete expand.items ↔ expand.Filled)) :=
  ⟨Filter.compile_complete, Expand.compile_complete⟩

/-- A negation of a condition, one of nothing, and nothing in front of a comma. -/
theorem complete_iff_filled_not :
    (Filter.ofOperation (.not (.ofProperty "a" (.value .null)))).expression.Complete ∧
      ¬ (Filter.ofOperation (.not (.object []))).expression.Complete ∧
      ¬ ExpandedItem.Complete (Expand.list [.object [], .property "b"]).items := by
  let gap : Expand := .list [.object [], .property "b"]
  let condition : Filter := .ofOperation (.not (.ofProperty "a" (.value .null)))
  let nothing : Filter := .ofOperation (.not (.object []))
  have names : IsNonempty "a" ∧ IsNonempty "b" := ⟨nofun, nofun⟩
  refine ⟨?full, ?negation, ?comma⟩
  case full =>
    have named : condition.Named IsNonempty fun _ => True :=
      ⟨⟨⟨names.1, trivial⟩, trivial⟩, trivial⟩
    have complete := ((complete_iff_filled condition gap "not(a eq null)".toList).1 named rfl).2
    exact complete.mpr ⟨nofun, ⟨nofun, trivial, trivial⟩, trivial⟩
  case negation =>
    have named : nothing.Named IsNonempty fun _ => True := ⟨trivial, trivial⟩
    have complete := ((complete_iff_filled nothing gap "not()".toList).1 named rfl).2
    exact fun holds => (complete.mp holds).2.1.1 rfl
  case comma =>
    have named : gap.Named IsNonempty fun _ => True := ⟨trivial, names.2, trivial⟩
    have complete := ((complete_iff_filled nothing gap ",b".toList).2 named rfl).2
    exact fun holds => (complete.mp holds).1.1 rfl

/-- Not all that is accepted is without holes. -/
theorem negation_of_nothing_accepted :
    ¬ ((∀ (filter : Filter) (text : Text), filter.Named IsNonempty (fun _ => True) →
        filter.compile = .ok text → filter.expression.Complete) ∧
      ∀ (expand : Expand) (text : Text), expand.Named IsNonempty (fun _ => True) →
        expand.compile.outcome = .ok text →
        ExpandedItem.Complete expand.items) := by
  rintro ⟨filters, _⟩
  have run : (Filter.ofOperation (.not (.object []))).compile = .ok "not()".toList := rfl
  have named : (Filter.ofOperation (.not (.object []))).Named IsNonempty (fun _ => True) :=
    ⟨trivial, trivial⟩
  have complete := filters _ _ named run
  have hole : [] ∈ (Filter.ofOperation (.not (.object []))).expression.positions :=
    List.mem_cons_of_mem _ (List.mem_cons_self ..)
  exact complete hole

end OData
