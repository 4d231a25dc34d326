import Mathlib
import OData.Proofs.Filter.Nesting
import OData.Proofs.Options.Items
import OData.Proofs.Query.Structure

namespace OData

open Text

namespace ExpandedItem

/-- An option: the key in front of the first equals sign, and what is behind it. Only the value of an
expansion is read on. -/
def readOption (expansion : Text → Option (List ExpandedItem)) (text : Text) :
    Option ExpandedOption :=
  if '=' ∈ text then
    if before '=' text = "$expand".toList then .expand <$> expansion (behind '=' text)
    else some (.value (before '=' text) (behind '=' text))
  else none

/-- An item: the path in front of the first parenthesis, and the options up to the parenthesis at the
end. -/
def readItem (expansion : Text → Option (List ExpandedItem)) (text : Text) : Option ExpandedItem :=
  if '(' ∈ text then do
    let inside ← dropEnding? [')'] (behind '(' text)
    let options ← (pieces ';' inside).mapM (readOption expansion)
    return .mk (before '(' text) options
  else some (.mk text [])

/-- The items of an expansion. Only commas outside of parentheses and quotes are between items,
and so it is with the semicolons between options; every level of options costs one unit of fuel. -/
def readItems : (fuel : Nat) → Text → Option (List ExpandedItem)
  | 0, _ => none
  | fuel + 1, text => (pieces ',' text).mapM (readItem (readItems fuel))

/-- The items that a whole text is. -/
def read? (text : Text) : Option (List ExpandedItem) := readItems (text.length + 1) text

end ExpandedItem

mutual

/-- What the reader relies on: paths without separators, and options that do not end early. -/
def ExpandedItem.WellFormed : ExpandedItem → Prop
  | .mk path options => Inert path ∧ ExpandedOption.ListWellFormed options

def ExpandedItem.ListWellFormed : List ExpandedItem → Prop
  | [] => True
  | item :: rest => item.WellFormed ∧ ExpandedItem.ListWellFormed rest

def ExpandedOption.WellFormed : ExpandedOption → Prop
  | .value key value => '=' ∉ key ∧ key ≠ "$expand".toList ∧ Unsplit (key ++ '=' :: value)
  | .expand items => items ≠ [] ∧ ExpandedItem.ListWellFormed items

def ExpandedOption.ListWellFormed : List ExpandedOption → Prop
  | [] => True
  | option :: rest => option.WellFormed ∧ ExpandedOption.ListWellFormed rest

end

theorem ExpandedItem.listWellFormed_iff {items : List ExpandedItem} :
    ExpandedItem.ListWellFormed items ↔ ∀ item ∈ items, item.WellFormed := by
  induction items with
  | nil => exact ⟨fun _ => List.forall_mem_nil _, fun _ => trivial⟩
  | cons item rest ih => rw [ListWellFormed, ih, List.forall_mem_cons]

theorem ExpandedOption.listWellFormed_iff {options : List ExpandedOption} :
    ExpandedOption.ListWellFormed options ↔ ∀ option ∈ options, option.WellFormed := by
  induction options with
  | nil => exact ⟨fun _ => List.forall_mem_nil _, fun _ => trivial⟩
  | cons option rest ih => rw [ListWellFormed, ih, List.forall_mem_cons]

mutual

/-- The options of an item are all in parentheses. -/
theorem ExpandedItem.text_sealed : (item : ExpandedItem) → item.WellFormed →
    Sealed [',', ';'] item.text
  | .mk path options, wellFormed => by
    have plain : Sealed [',', ';'] path :=
      .of_avoids (wellFormed.1.avoids (by simp [Uri.brackets, isInert]))
    have inner := ExpandedOption.texts_unsplit options wellFormed.2
    rw [ExpandedItem.text]
    split
    · exact plain
    · rw [List.append_assoc]
      have inside : Sealed [] (join [';'] (ExpandedOption.texts options)) :=
        Sealed.join (by decide) fun text member => (inner text member).mono (List.nil_subset _)
      exact plain.append (inside.parenthesized (by decide))

theorem ExpandedItem.texts_sealed : (items : List ExpandedItem) →
    ExpandedItem.ListWellFormed items → ∀ text ∈ ExpandedItem.texts items, Sealed [',', ';'] text
  | [], _ => List.forall_mem_nil _
  | item :: rest, wellFormed => List.forall_mem_cons.mpr
    ⟨item.text_sealed wellFormed.1, ExpandedItem.texts_sealed rest wellFormed.2⟩

/-- The commas of an expansion are no semicolons. -/
theorem ExpandedOption.text_unsplit : (option : ExpandedOption) → option.WellFormed →
    Unsplit option.text
  | .value key value, wellFormed => wellFormed.2.2
  | .expand items, wellFormed => by
    have inner := ExpandedItem.texts_sealed items wellFormed.2
    have items : Unsplit (join [','] (ExpandedItem.texts items)) :=
      Sealed.join (by decide) fun text member => (inner text member).mono (by simp)
    rw [ExpandedOption.text, QueryOption.assign]
    exact Sealed.append (by decide : Unsplit "$expand".toList) (items.cons (by decide))

theorem ExpandedOption.texts_unsplit : (options : List ExpandedOption) →
    ExpandedOption.ListWellFormed options → ∀ text ∈ ExpandedOption.texts options, Unsplit text
  | [], _ => List.forall_mem_nil _
  | option :: rest, wellFormed => List.forall_mem_cons.mpr
    ⟨option.text_unsplit wellFormed.1, ExpandedOption.texts_unsplit rest wellFormed.2⟩

end

/-- A list is read as a whole if its elements are. -/
theorem mapM_read {α : Type} {written : α → Text} {read : Text → Option α} {elements : List α}
    (back : ∀ element ∈ elements, read (written element) = some element) :
    (elements.map written).mapM read = some elements := by
  induction elements with
  | nil => rfl
  | cons element rest ih =>
    rw [List.forall_mem_cons] at back
    simp only [List.map_cons, List.mapM_cons, back.1, ih back.2, Option.bind_eq_bind,
      Option.bind_some, Option.pure_def]

namespace ExpandedItem

variable {expansion : Text → Option (List ExpandedItem)}

def ReadsBelow (expansion : Text → Option (List ExpandedItem)) (bound : Nat) : Prop :=
  ∀ items : List ExpandedItem, items ≠ [] → ListWellFormed items → (joined items).length < bound →
    expansion (joined items) = some items

theorem ReadsBelow.mono {bound smaller : Nat} (reads : ReadsBelow expansion bound)
    (le : smaller ≤ bound) : ReadsBelow expansion smaller :=
  fun items nonempty wellFormed short => reads items nonempty wellFormed (short.trans_le le)

theorem readOption_text {option : ExpandedOption} (wellFormed : option.WellFormed)
    (reads : ReadsBelow expansion option.text.length) :
    readOption expansion option.text = some option := by
  cases option with
  | value key value =>
    obtain ⟨free, other, _⟩ := wellFormed
    have assigned : '=' ∈ key ++ '=' :: value := by simp
    rw [ExpandedOption.text, readOption, if_pos assigned, before_append free, behind_append free,
      if_neg other]
  | expand items =>
    have free : '=' ∉ "$expand".toList := by decide
    have assigned : '=' ∈ "$expand".toList ++ '=' :: joined items := by simp
    have text : (ExpandedOption.expand items).text = "$expand".toList ++ '=' :: joined items := by
      rw [ExpandedOption.text, QueryOption.assign, joined]
    rw [text] at reads ⊢
    have shorter : (joined items).length < ("$expand".toList ++ '=' :: joined items).length := by
      rw [List.length_append, List.length_cons]
      omega
    have inner := reads items wellFormed.1 wellFormed.2 shorter
    rw [readOption, if_pos assigned, before_append free, behind_append free, if_pos rfl, inner]
    rfl

theorem readItem_text {item : ExpandedItem} (wellFormed : item.WellFormed)
    (reads : ReadsBelow expansion item.text.length) :
    readItem expansion item.text = some item := by
  obtain ⟨path, options⟩ := item
  have free : '(' ∉ path := fun member => absurd (wellFormed.1 _ member) (by decide)
  cases options with
  | nil => exact if_neg free
  | cons first others =>
    have closed := ExpandedOption.texts_unsplit (first :: others) wellFormed.2
    generalize several : first :: others = options at wellFormed reads closed
    have nonempty : options ≠ [] := several ▸ List.cons_ne_nil first others
    have text : (mk path options).text =
        path ++ '(' :: (join [';'] (ExpandedOption.texts options) ++ [')']) := by
      rw [ExpandedItem.text, if_neg (List.isEmpty_iff.not.mpr nonempty), List.append_assoc]
      rfl
    rw [text] at reads ⊢
    have opened : '(' ∈ path ++ '(' :: (join [';'] (ExpandedOption.texts options) ++ [')']) := by
      simp
    have texts : pieces ';' (join [';'] (ExpandedOption.texts options)) =
        options.map ExpandedOption.text := by
      rw [ExpandedOption.texts_eq_map] at closed ⊢
      exact pieces_join (List.map_eq_nil_iff.not.mpr nonempty) closed
    have inner : (options.map ExpandedOption.text).mapM (readOption expansion) = some options := by
      refine mapM_read fun option member => ?_
      refine readOption_text (ExpandedOption.listWellFormed_iff.mp wellFormed.2 option member) ?_
      have inJoined : option.text.length ≤
          (join [';'] (ExpandedOption.texts options)).length := by
        rw [ExpandedOption.texts_eq_map]
        exact length_le_join (List.mem_map_of_mem member)
      refine reads.mono (inJoined.trans ?_)
      simp only [List.length_append, List.length_cons]
      omega
    rw [readItem, if_pos opened, before_append free, behind_append free, dropEnding?_append]
    simp only [Option.bind_eq_bind, Option.bind_some, texts, inner, Option.pure_def]

/-- With more fuel than the text is long, every level of it is read. -/
theorem readItems_joined (fuel : Nat) : ReadsBelow (readItems fuel) fuel := by
  induction fuel with
  | zero => exact fun _ _ _ short => absurd short (Nat.not_lt_zero _)
  | succ fuel ih =>
    intro items nonempty wellFormed short
    have closed : ∀ piece ∈ items.map text, Sealed [','] piece := by
      rw [← texts_eq_map]
      exact fun piece member => (texts_sealed items wellFormed piece member).mono (by simp)
    rw [joined, texts_eq_map] at short ⊢
    rw [readItems, pieces_join (List.map_eq_nil_iff.not.mpr nonempty) closed]
    refine mapM_read fun item member => ?_
    refine readItem_text (listWellFormed_iff.mp wellFormed item member) (ih.mono ?_)
    have inJoined : item.text.length ≤ (join [','] (items.map text)).length :=
      length_le_join (List.mem_map_of_mem member)
    omega

theorem read?_joined {items : List ExpandedItem} (nonempty : items ≠ [])
    (wellFormed : ListWellFormed items) : read? (joined items) = some items :=
  readItems_joined _ items nonempty wellFormed (Nat.lt_succ_self _)

end ExpandedItem

/-- A text without quotes, parentheses and semicolons; it may stand among options as it is. -/
def IsUnmarked (text : String) : Prop := Avoids (Uri.brackets ++ [';']) text.toList

instance : DecidablePred IsUnmarked := fun _ => inferInstanceAs (Decidable (Avoids _ _))

theorem IsUnmarked.unsplit {text : String} (unmarked : IsUnmarked text) : Unsplit text.toList :=
  .of_avoids unmarked

theorem join_unsplit {names : List String} (unmarked : ∀ name ∈ names, IsUnmarked name) :
    Unsplit (join [','] (names.map String.toList)) := by
  refine Sealed.join (by decide) fun text member => ?_
  obtain ⟨name, found, rfl⟩ := List.mem_map.mp member
  exact (unmarked name found).unsplit

theorem Select.text_unsplit {select : Select}
    (unmarked : ∀ name ∈ select.verbatim, IsUnmarked name) : Unsplit select.text := by
  cases select with
  | fields text => exact (unmarked text (List.mem_singleton_self text)).unsplit
  | list names => exact join_unsplit unmarked
  | set names => exact join_unsplit unmarked

namespace OrderBy

mutual

/-- Texts and properties of the ordering are unmarked, and the filters of its counts have plain names. -/
def Readable : OrderBy → Prop
  | .raw text => IsUnmarked text
  | .list items => ListReadable items
  | .object entries _ => ∀ entry ∈ entries, IsUnmarked entry.1 ∧
      ∀ filter, entry.2 = .count (some filter) → filter.Named IsBracketless IsBracketless

def ListReadable : List OrderBy → Prop
  | [] => True
  | item :: rest => item.Readable ∧ ListReadable rest

end

theorem entryText_unsplit {property : String} {key : OrderKey} (unmarked : IsUnmarked property)
    (named : ∀ filter, key = .count (some filter) → filter.Named IsBracketless IsBracketless)
    (shared : Option SortDirection) : Unsplit (entryText property shared key) := by
  have directed (direction : SortDirection) : Unsplit (' ' :: direction.name.toList) := by
    cases direction <;> decide
  have counted : Unsplit "/$count".toList := by decide
  cases key with
  | direction direction => exact unmarked.unsplit.append (directed direction)
  | count filter =>
    refine Sealed.append ?path ?ending
    case ending =>
      cases shared with
      | none => exact .nil
      | some direction => exact directed direction
    case path =>
      cases filter with
      | none => exact unmarked.unsplit.append counted
      | some filter =>
        have key : Unsplit "$filter=".toList := by decide
        have inner := parenthesized_unsplit
          (key.append (Filter.expression_unsplit (named filter rfl)))
        have text : countText property (some filter) = property.toList ++ ("/$count".toList ++
            ('(' :: ("$filter=".toList ++ filter.expression.bare) ++ [')'])) := by
          simp [countText]
        rw [text]
        exact unmarked.unsplit.append (counted.append inner)

mutual

theorem text_unsplit : (ordering : OrderBy) → ordering.Readable → Unsplit ordering.text
  | .raw text, readable => IsUnmarked.unsplit readable
  | .list items, readable => Sealed.join (by decide) (texts_unsplit items readable)
  | .object entries direction, readable => by
    refine Sealed.join (by decide) fun text member => ?_
    obtain ⟨⟨property, key⟩, found, rfl⟩ := List.mem_map.mp member
    have ⟨unmarked, named⟩ := readable _ found
    exact entryText_unsplit unmarked named direction

theorem texts_unsplit : (items : List OrderBy) → ListReadable items →
    ∀ text ∈ texts items, Unsplit text
  | [], _ => List.forall_mem_nil _
  | item :: rest, readable =>
    List.forall_mem_cons.mpr ⟨item.text_unsplit readable.1, texts_unsplit rest readable.2⟩

end

end OrderBy

/-- Nothing in the option is written verbatim that could be taken for something else: its filters have
plain names, and its other texts are unmarked. Of a count only the filters are written. -/
def QueryOption.Plain : QueryOption → Prop
  | .filter condition => condition.Named IsBracketless IsBracketless
  | .orderBy ordering => ordering.Readable
  | .select selection => ∀ name ∈ selection.verbatim, IsUnmarked name
  | .format name => IsUnmarked name
  | .count inner => ∀ condition ∈ Expand.countFilters inner,
      condition.Named IsBracketless IsBracketless
  | _ => True

/-- The paths of the expansion have no brackets, and its options are plain. -/
def Expand.Readable (expand : Expand) : Prop := expand.Named IsBracketless QueryOption.Plain

theorem ExpandedOption.wellFormed_value {key value : Text} (inert : Inert key)
    (other : key ≠ "$expand".toList) (unsplit : Unsplit value) :
    (ExpandedOption.value key value).WellFormed := by
  have free : '=' ∉ key := fun member => absurd (inert _ member) (by decide)
  exact ⟨free, other, inert.unsplit.append (unsplit.cons (by decide))⟩

theorem ExpandedOption.wellFormed_filter {filter : Filter}
    (named : filter.Named IsBracketless IsBracketless) :
    (ExpandedOption.value "$filter".toList filter.expression.bare).WellFormed :=
  wellFormed_value (by decide) (by decide) (Filter.expression_unsplit named)

theorem ExpandedItem.listWellFormed_append {first second : List ExpandedItem}
    (front : ListWellFormed first) (back : ListWellFormed second) :
    ListWellFormed (first ++ second) := by
  rw [listWellFormed_iff] at front back ⊢
  exact List.forall_mem_append.mpr ⟨front, back⟩

theorem Expand.countItem_wellFormed {path : String} (plain : IsBracketless path) {inner : Options}
    (named : ∀ filter ∈ countFilters inner, filter.Named IsBracketless IsBracketless) :
    (countItem path inner).WellFormed := by
  refine ⟨inert_append.mpr ⟨Uri.encodeResource_inert plain, by decide⟩, ?_⟩
  refine ExpandedOption.listWellFormed_iff.mpr fun option member => ?_
  obtain ⟨filter, found, rfl⟩ := List.mem_map.mp member
  exact ExpandedOption.wellFormed_filter (named filter found)

mutual

/-- The items of an accepted expansion are well-formed. -/
theorem Expand.items_wellFormed : (expand : Expand) → expand.Regular → expand.Readable →
    ExpandedItem.ListWellFormed expand.items
  | .property _, _, readable => ⟨⟨Uri.encodeResource_inert readable, trivial⟩, trivial⟩
  | .list expands, regular, readable => Expand.listItems_wellFormed expands regular.2 readable
  | .object [], _, _ => ⟨⟨.nil, trivial⟩, trivial⟩
  | .object (first :: others), regular, readable =>
    Expand.entryItems_wellFormed (first :: others) regular readable

theorem Expand.listItems_wellFormed : (expands : List Expand) → Expand.ListRegular expands →
    Expand.ListNamed IsBracketless QueryOption.Plain expands →
      ExpandedItem.ListWellFormed (Expand.listItems expands)
  | [], _, _ => trivial
  | expand :: rest, regular, readable =>
    ExpandedItem.listWellFormed_append (expand.items_wellFormed regular.1 readable.1)
      (Expand.listItems_wellFormed rest regular.2 readable.2)

theorem Expand.entryItems_wellFormed : (entries : List (String × List QueryOption)) →
    Expand.EntriesRegular entries → Expand.EntriesNamed IsBracketless QueryOption.Plain entries →
      ExpandedItem.ListWellFormed (Expand.entryItems entries)
  | [], _, _ => trivial
  | (path, options) :: rest, regular, readable => by
    obtain ⟨plain, own, others⟩ := readable
    have nested := QueryOption.expandedList_wellFormed options
    refine ⟨?_, Expand.entryItems_wellFormed rest regular.2 others⟩
    by_cases counted : ∃ inner, options = [.count inner]
    · obtain ⟨inner, rfl⟩ := counted
      exact Expand.countItem_wellFormed plain own.1
    · rw [Expand.entryItem_of_ne_count path _ (not_exists.mp counted)]
      exact ⟨Uri.encodeResource_inert plain, nested (regular.1.resolve_left counted) own⟩

theorem QueryOption.expandedList_wellFormed : (options : List QueryOption) →
    QueryOption.ListRegular options →
    QueryOption.ListNamed IsBracketless QueryOption.Plain options →
      ExpandedOption.ListWellFormed (QueryOption.expandedList options)
  | [], _, _ => trivial
  | option :: rest, regular, readable =>
    ⟨option.expanded_wellFormed regular.1 readable.1,
      QueryOption.expandedList_wellFormed rest regular.2 readable.2⟩

theorem QueryOption.expanded_wellFormed : (option : QueryOption) → option.Regular →
    option.Named IsBracketless QueryOption.Plain → option.expanded.WellFormed
  | .filter _, _, readable => ExpandedOption.wellFormed_filter readable
  | .expand expand, regular, readable =>
    ⟨expand.items_ne_nil regular, expand.items_wellFormed regular readable⟩
  | .orderBy ordering, _, readable =>
    ExpandedOption.wellFormed_value (by decide) (by decide)
      (ordering.text_unsplit readable)
  | .top count, _, _ =>
    ExpandedOption.wellFormed_value (by decide) (by decide) (ofNat_inert count).unsplit
  | .skip count, _, _ =>
    ExpandedOption.wellFormed_value (by decide) (by decide) (ofNat_inert count).unsplit
  | .select _, _, readable =>
    ExpandedOption.wellFormed_value (by decide) (by decide)
      (Select.text_unsplit readable)
  | .format _, _, readable =>
    ExpandedOption.wellFormed_value (by decide) (by decide)
      (IsUnmarked.unsplit readable)
  | .count _, refused, _ => refused.elim
  | .parameter _ _, refused, _ => refused.elim
  | .custom _ _, refused, _ => refused.elim

end

/-- The text of an expansion is read back as its items: their paths, and the options of each of them
with their keys and values, however deep they stand. -/
theorem Expand.compile_recovers_items {expand : Expand} {text : Text} (readable : expand.Readable)
    (run : expand.compile.outcome = .ok text) : ExpandedItem.read? text = some expand.items := by
  obtain ⟨regular, written⟩ := expand.compile_writes text run
  rw [written]
  exact ExpandedItem.read?_joined (expand.items_ne_nil regular)
    (expand.items_wellFormed regular readable)

/-- A list of a property and an object whose property has a filter, an expansion with a selection and a
count, and an ordering. The comma, the semicolon and the parenthesis of the note stand in quotes. -/
theorem Expand.compile_recovers_items_nested :
    ExpandedItem.read?
        "a,b($filter=n eq 'x''s%3B%2C(';$expand=c($select=d,e;$top=2),f/$count;$orderby=d asc,e)".toList =
      some [.mk ['a'] [],
        .mk ['b'] [
          .value "$filter".toList "n eq 'x''s%3B%2C('".toList,
          .expand [
            .mk ['c'] [.value "$select".toList "d,e".toList, .value "$top".toList ['2']],
            .mk "f/$count".toList []],
          .value "$orderby".toList "d asc,e".toList]] := by
  have names : IsBracketless "a" ∧ IsBracketless "b" ∧ IsBracketless "c" ∧ IsBracketless "f" ∧
      IsBracketless "n" := by decide
  have texts : IsUnmarked "d" ∧ IsUnmarked "e" ∧ IsUnmarked "d asc,e" := by decide
  have readable : Expand.Readable (.list [.property "a", .object [("b", [
      .filter (.ofProperty "n" (.value (.string "x's;,("))),
      .expand (.object [("c", [.select (.list ["d", "e"]), .top 2]), ("f", [.count [.top 1]])]),
      .orderBy (.raw "d asc,e")])]]) := by
    simp [Expand.Readable, Expand.Named, Expand.ListNamed, Expand.EntriesNamed,
      QueryOption.ListNamed, QueryOption.Named, QueryOption.Plain, OrderBy.Readable, Filter.Named,
      FilterEntry.ListNamed, FilterEntry.Named, Filter.ofProperty, Select.verbatim,
      Expand.countFilters, QueryOption.filter?, names, texts]
  exact Expand.compile_recovers_items readable rfl

end OData
