import Mathlib
import OData.Options.Compile
import OData.Proofs.Filter.Compilation
import OData.Proofs.Outcome
import OData.Proofs.Uri.Ending

namespace OData

open Text

mutual

/-- A navigation property of an expansion: its path as it is written, and its options in order. -/
inductive ExpandedItem
  | mk (path : Text) (options : List ExpandedOption)

/-- An option of a navigation property: a value under its key, or the properties to expand in turn. -/
inductive ExpandedOption
  | value (key value : Text)
  | expand (items : List ExpandedItem)

end

mutual

def ExpandedItem.text : ExpandedItem → Text
  | .mk path options =>
    if options.isEmpty then path
    else path ++ '(' :: join [';'] (ExpandedOption.texts options) ++ [')']

def ExpandedItem.texts : List ExpandedItem → List Text
  | [] => []
  | item :: rest => item.text :: ExpandedItem.texts rest

def ExpandedOption.text : ExpandedOption → Text
  | .value key value => key ++ '=' :: value
  | .expand items => QueryOption.assign "$expand" (join [','] (ExpandedItem.texts items))

def ExpandedOption.texts : List ExpandedOption → List Text
  | [] => []
  | option :: rest => option.text :: ExpandedOption.texts rest

end

/-- The text of an expansion with these items. -/
def ExpandedItem.joined (items : List ExpandedItem) : Text := join [','] (ExpandedItem.texts items)

theorem ExpandedItem.texts_eq_map (items : List ExpandedItem) :
    ExpandedItem.texts items = items.map ExpandedItem.text := by
  induction items with
  | nil => rfl
  | cons item rest ih => rw [texts, ih, List.map_cons]

theorem ExpandedOption.texts_eq_map (options : List ExpandedOption) :
    ExpandedOption.texts options = options.map ExpandedOption.text := by
  induction options with
  | nil => rfl
  | cons option rest ih => rw [texts, ih, List.map_cons]

theorem ExpandedItem.joined_append {first second : List ExpandedItem} (front : first ≠ [])
    (back : second ≠ []) : joined (first ++ second) = joined first ++ [','] ++ joined second := by
  simp only [joined, texts_eq_map, List.map_append]
  exact join_append [','] (List.map_eq_nil_iff.not.mpr front) (List.map_eq_nil_iff.not.mpr back)

theorem ExpandedItem.joined_path (path : Text) : joined [.mk path []] = path := rfl

namespace Select

/-- The fields of a selection with commas between them. -/
def text : Select → Text
  | .fields text => text.toList
  | .list names => join [','] (names.map String.toList)
  | .set names => join [','] (names.map String.toList)

theorem compile_eq_text {select : Select} {written : Text} (run : select.compile = .ok written) :
    written = select.text := by
  match select with
  | .fields text => exact (Except.ok.inj run).symm
  | .list [] => cases run
  | .list (first :: others) => exact (Except.ok.inj run).symm
  | .set [] => cases run
  | .set (first :: others) => exact (Except.ok.inj run).symm

end Select

theorem Filter.compile_eq_text {filter : Filter} {written : Text}
    (run : filter.compile = .ok written) : written = filter.expression.bare :=
  (filter.compile_checks.eq_ok_iff.mp run).2.symm

namespace OrderBy

/-- The path that a property is ordered by, where it is ordered by its count. -/
def countText (property : String) : Option Filter → Text
  | none => property.toList ++ "/$count".toList
  | some filter => property.toList ++ "/$count($filter=".toList ++ filter.expression.bare ++ [')']

/-- A property with the direction that it has, or that the object around it has for its count. -/
def entryText (property : String) (shared : Option SortDirection) : OrderKey → Text
  | .direction direction => property.toList ++ ' ' :: direction.name.toList
  | .count filter =>
    countText property filter ++ (shared.map fun direction => ' ' :: direction.name.toList).getD []

mutual

/-- The text of an ordering with commas between its properties. -/
def text : OrderBy → Text
  | .raw text => text.toList
  | .list items => join [','] (texts items)
  | .object entries direction =>
    join [','] (entries.map fun (property, key) => entryText property direction key)

def texts : List OrderBy → List Text
  | [] => []
  | item :: rest => item.text :: texts rest

end

theorem compileEntry_eq_text {property : String} {shared : Option SortDirection} {key : OrderKey}
    {written : Text} (run : compileEntry property shared key = .ok written) :
    written = entryText property shared key := by
  cases key with
  | direction direction => exact (Except.ok.inj run).symm
  | count filter =>
    obtain ⟨path, counted, run⟩ := bind_eq_ok_iff.mp run
    have same : path = countText property filter := by
      cases filter with
      | none => exact (Except.ok.inj counted).symm
      | some filter =>
        obtain ⟨condition, compiled, counted⟩ := bind_eq_ok_iff.mp counted
        obtain rfl := Filter.compile_eq_text compiled
        exact (Except.ok.inj counted).symm
    cases shared with
    | none => cases run
    | some direction =>
      obtain rfl := Except.ok.inj run
      rw [same]
      rfl

open Compilation (Yields)

theorem compileItem_text (ordering : OrderBy) :
    Yields (fun written => written = ordering.text) (compileItem ordering) := by
  match ordering with
  | .raw text =>
    rw [compileItem]
    split
    · rintro written ⟨⟩
      rfl
    · exact .pure rfl
  | .list _ => exact .fail _
  | .object [] _ => exact .fail _
  | .object (_ :: _ :: _) _ => exact .fail _
  | .object [(property, key)] direction => exact fun written run => compileEntry_eq_text run

theorem compileItems_texts (items : List OrderBy) :
    Yields (fun written => written = texts items) (compileItems items) := by
  induction items with
  | nil => exact .pure rfl
  | cons item rest ih =>
    refine (compileItem_text item).bind ?_
    rintro _ rfl
    refine ih.bind ?_
    rintro _ rfl
    exact .pure rfl

theorem compile_text (ordering : OrderBy) :
    Yields (fun written => written = ordering.text) ordering.compile := by
  match ordering with
  | .list [] => exact .fail _
  | .list (first :: others) =>
    refine (compileItems_texts (first :: others)).bind ?_
    rintro _ rfl
    exact .pure rfl
  | .raw text => exact compileItem_text _
  | .object entries direction => exact compileItem_text _

end OrderBy

namespace Expand

/-- A navigation property that is counted. Of the options inside the count its filters are kept. -/
def countItem (path : String) (inner : Options) : ExpandedItem :=
  .mk (Uri.encodeResource (.single path) ++ "/$count".toList)
    ((countFilters inner).map fun filter => .value "$filter".toList filter.expression.bare)

/-- A navigation property with the options that are written for it, unless it is counted. -/
def entryItem (path : String) (written : List ExpandedOption) : Options → ExpandedItem
  | [.count inner] => countItem path inner
  | _ => .mk (Uri.encodeResource (.single path)) written

end Expand

mutual

/-- The items of an expansion, in order: lists and objects with several properties are only ways
to write them down. An object without properties leaves a blank. -/
def Expand.items : Expand → List ExpandedItem
  | .property path => [.mk (Uri.encodeResource (.single path)) []]
  | .list expands => Expand.listItems expands
  | .object [] => [.mk [] []]
  | .object (first :: others) => Expand.entryItems (first :: others)

def Expand.listItems : List Expand → List ExpandedItem
  | [] => []
  | expand :: rest => expand.items ++ Expand.listItems rest

def Expand.entryItems : List (String × List QueryOption) → List ExpandedItem
  | [] => []
  | (path, options) :: rest =>
    Expand.entryItem path (QueryOption.expandedList options) options :: Expand.entryItems rest

/-- The options of a navigation property. -/
def QueryOption.expandedList : List QueryOption → List ExpandedOption
  | [] => []
  | option :: rest => option.expanded :: QueryOption.expandedList rest

/-- An option of a navigation property; counts, aliases and options that the query language does not
know are none. -/
def QueryOption.expanded : QueryOption → ExpandedOption
  | .filter filter => .value "$filter".toList filter.expression.bare
  | .expand expand => .expand expand.items
  | .orderBy ordering => .value "$orderby".toList ordering.text
  | .top count => .value "$top".toList (Text.ofNat count)
  | .skip count => .value "$skip".toList (Text.ofNat count)
  | .select select => .value "$select".toList select.text
  | .format format => .value "$format".toList format.toList
  | .count _ => .value "$count".toList []
  | .parameter name value => .value ('@' :: name.toList) value.literal
  | .custom name value => .value name.toList value.literal

end

mutual

/-- All navigation paths of the expansion have the one property, and all options that are no expansions
the other. -/
def Expand.Named (name : String → Prop) (plain : QueryOption → Prop) : Expand → Prop
  | .property path => name path
  | .list expands => Expand.ListNamed name plain expands
  | .object entries => Expand.EntriesNamed name plain entries

def Expand.ListNamed (name : String → Prop) (plain : QueryOption → Prop) : List Expand → Prop
  | [] => True
  | expand :: rest => expand.Named name plain ∧ Expand.ListNamed name plain rest

def Expand.EntriesNamed (name : String → Prop) (plain : QueryOption → Prop) :
    List (String × List QueryOption) → Prop
  | [] => True
  | (path, options) :: rest =>
    name path ∧ QueryOption.ListNamed name plain options ∧ Expand.EntriesNamed name plain rest

def QueryOption.ListNamed (name : String → Prop) (plain : QueryOption → Prop) :
    List QueryOption → Prop
  | [] => True
  | option :: rest => option.Named name plain ∧ QueryOption.ListNamed name plain rest

def QueryOption.Named (name : String → Prop) (plain : QueryOption → Prop) : QueryOption → Prop
  | .expand expand => expand.Named name plain
  | option => plain option

end

mutual

/-- What every accepted expansion has: no list is empty, and a navigation property is counted or has
options that it may have. -/
def Expand.Regular : Expand → Prop
  | .property _ => True
  | .list expands => expands ≠ [] ∧ Expand.ListRegular expands
  | .object entries => Expand.EntriesRegular entries

def Expand.ListRegular : List Expand → Prop
  | [] => True
  | expand :: rest => expand.Regular ∧ Expand.ListRegular rest

def Expand.EntriesRegular : List (String × List QueryOption) → Prop
  | [] => True
  | (_, options) :: rest =>
    ((∃ inner, options = [.count inner]) ∨ QueryOption.ListRegular options) ∧
      Expand.EntriesRegular rest

def QueryOption.ListRegular : List QueryOption → Prop
  | [] => True
  | option :: rest => option.Regular ∧ QueryOption.ListRegular rest

def QueryOption.Regular : QueryOption → Prop
  | .expand expand => expand.Regular
  | .count _ => False
  | .parameter _ _ => False
  | .custom _ _ => False
  | _ => True

end

namespace Expand

open Compilation (Yields)

theorem withOptions_eq_text (path : String) (options : List ExpandedOption) :
    withOptions path (ExpandedOption.texts options) =
      (ExpandedItem.mk (Uri.encodeResource (.single path)) options).text := by
  rw [withOptions, ExpandedItem.text]
  cases options <;> rfl

/-- The keys that are accepted do not end in a count. -/
theorem uncounted_of_checkExpandKey {path : String} (run : checkExpandKey path = .ok ()) :
    ¬ "/$count".toList <:+ path.toList := by
  intro counted
  unfold checkExpandKey at run
  rw [if_pos (List.isSuffixOf_iff_suffix.mpr counted)] at run
  split at run <;> cases run

/-- The count is read as the last step of the path, however it is joined to it. -/
theorem encodeResource_count {path : String} (uncounted : ¬ "/$count".toList <:+ path.toList) :
    Uri.encodeResource (.single (String.ofList (path.toList ++ "/$count".toList))) =
      Uri.encodeResource (.single path) ++ "/$count".toList := by
  rw [Uri.encodeResource_count, Uri.encodeResource_single uncounted]

theorem compileFilters_texts {filters : List Filter} {written : List Text}
    (run : compileFilters filters = .ok written) :
    written = ExpandedOption.texts
      (filters.map fun filter => .value "$filter".toList filter.expression.bare) := by
  induction filters generalizing written with
  | nil => exact (Except.ok.inj run).symm
  | cons filter rest ih =>
    obtain ⟨text, compiled, run⟩ := bind_eq_ok_iff.mp run
    obtain ⟨texts, later, run⟩ := bind_eq_ok_iff.mp run
    obtain rfl := Filter.compile_eq_text compiled
    obtain rfl := ih later
    exact (Except.ok.inj run).symm

theorem compileCount_text {path : String} (uncounted : ¬ "/$count".toList <:+ path.toList)
    (inner : Options) :
    Yields (fun written => written = (countItem path inner).text) (compileCount path inner) := by
  have counted : Yields (fun written => written = (countItem path inner).text)
      (Compilation.lift (compileFilters (countFilters inner)) >>= fun filters =>
        pure (withOptions (String.ofList (path.toList ++ "/$count".toList)) filters)) := by
    refine Yields.bind (fun texts run => compileFilters_texts run) ?_
    rintro _ rfl
    refine .pure ?_
    rw [withOptions_eq_text, encodeResource_count uncounted]
    rfl
  unfold compileCount
  split
  · have reported : Yields (fun _ => True)
        (Compilation.report (.expandCountOptions (Options.keys inner))) := fun _ _ => trivial
    exact reported.bind fun _ _ => counted
  · exact counted

theorem items_ne_nil : (expand : Expand) → expand.Regular → expand.items ≠ []
  | .property _, _ => List.cons_ne_nil _ _
  | .list [], regular => absurd rfl regular.1
  | .list (first :: _), regular =>
    List.append_ne_nil_of_left_ne_nil (first.items_ne_nil regular.2.1) _
  | .object [], _ => List.cons_ne_nil _ _
  | .object (_ :: _), _ => List.cons_ne_nil _ _

theorem entryItem_of_ne_count (path : String) (written : List ExpandedOption) {options : Options}
    (other : ∀ inner, options ≠ [.count inner]) :
    entryItem path written options = .mk (Uri.encodeResource (.single path)) written := by
  rw [entryItem]
  exact other

/-- An accepted expansion with its text. -/
def Writes (expand : Expand) (written : Text) : Prop :=
  expand.Regular ∧ written = ExpandedItem.joined expand.items

/-- The items of a list are those of its elements, none of which is without items. -/
theorem writes_list {expands : List Expand} {texts : List Text}
    (written : List.Forall₂ Writes expands texts) (nonempty : expands ≠ []) :
    Writes (.list expands) (join [','] texts) := by
  suffices both : ListRegular expands ∧ join [','] texts = ExpandedItem.joined (listItems expands) from
    ⟨⟨nonempty, both.1⟩, both.2⟩
  induction written with
  | nil => exact absurd rfl nonempty
  | @cons expand text expands texts first rest ih =>
    obtain ⟨regular, rfl⟩ := first
    cases rest with
    | nil =>
      refine ⟨⟨regular, trivial⟩, ?_⟩
      rw [listItems, listItems, List.append_nil]
      rfl
    | @cons next nextText expands texts second rest =>
      obtain ⟨others, later⟩ := ih (List.cons_ne_nil _ _)
      refine ⟨⟨regular, others⟩, ?_⟩
      have here := expand.items_ne_nil regular
      have there : listItems (next :: expands) ≠ [] :=
        List.append_ne_nil_of_left_ne_nil (next.items_ne_nil others.1) _
      rw [listItems, ExpandedItem.joined_append here there, ← later]
      rfl

end Expand

open Compilation (Yields)

mutual

/-- An expansion that is accepted is regular, and its text is that of its items. -/
theorem Expand.compile_writes : (expand : Expand) → Yields expand.Writes expand.compile
  | .property _ => .pure ⟨trivial, (ExpandedItem.joined_path _).symm⟩
  | .list [] => .fail _
  | .list (first :: others) =>
    (Expand.compileList_writes (first :: others)).bind fun _ written =>
      .pure (Expand.writes_list written (List.cons_ne_nil _ _))
  | .object [] => .pure ⟨trivial, rfl⟩
  | .object (first :: others) => by
    refine (Expand.compileEntries_texts (first :: others)).bind ?_
    rintro _ ⟨regular, rfl⟩
    exact .pure ⟨regular, rfl⟩

theorem Expand.compileList_writes :
    (expands : List Expand) →
      Yields (List.Forall₂ Expand.Writes expands) (Expand.compileList expands)
  | [] => .pure .nil
  | expand :: rest =>
    expand.compile_writes.bind fun _ head =>
      (Expand.compileList_writes rest).bind fun _ tail => .pure (.cons head tail)

theorem Expand.compileEntries_texts :
    (entries : List (String × List QueryOption)) →
      Yields (fun texts => Expand.EntriesRegular entries ∧
          texts = ExpandedItem.texts (Expand.entryItems entries))
        (Expand.compileEntries entries)
  | [] => .pure ⟨trivial, rfl⟩
  | (path, options) :: rest => by
    have nested := QueryOption.compileNested_texts options
    have later := Expand.compileEntries_texts rest
    have checked : Yields (fun _ => ¬ "/$count".toList <:+ path.toList)
        (Compilation.lift (checkExpandKey path)) :=
      fun _ run => Expand.uncounted_of_checkExpandKey run
    have both (written : Text)
        (first : ((∃ inner, options = [.count inner]) ∨ QueryOption.ListRegular options) ∧
          written = (Expand.entryItem path (QueryOption.expandedList options) options).text) :
        Yields (fun texts => Expand.EntriesRegular ((path, options) :: rest) ∧
            texts = ExpandedItem.texts (Expand.entryItems ((path, options) :: rest)))
          (do
            let texts ← Expand.compileEntries rest
            pure (written :: texts)) := by
      obtain ⟨regular, rfl⟩ := first
      refine later.bind ?_
      rintro _ ⟨others, rfl⟩
      exact .pure ⟨⟨regular, others⟩, rfl⟩
    rw [Expand.compileEntries]
    refine checked.bind fun _ uncounted => ?_
    dsimp only
    split
    case h_1 inner =>
      have counted := Expand.compileCount_text uncounted inner
      refine Yields.bind (fun written run => ?_) both
      exact ⟨Or.inl ⟨inner, rfl⟩, counted written run⟩
    case h_2 other =>
      split
      · exact (Yields.fail _).bind both
      · refine Yields.bind (nested.map ?_) both
        rintro _ ⟨regular, rfl⟩
        rw [Expand.withOptions_eq_text, Expand.entryItem_of_ne_count path _ other]
        exact ⟨Or.inr regular, rfl⟩

theorem QueryOption.compileNested_texts :
    (options : List QueryOption) →
      Yields (fun texts => QueryOption.ListRegular options ∧
          texts = ExpandedOption.texts (QueryOption.expandedList options))
        (QueryOption.compileNested options)
  | [] => .pure ⟨trivial, rfl⟩
  | option :: rest => by
    have head := option.compile_expanded
    have later := QueryOption.compileNested_texts rest
    rw [QueryOption.compileNested]
    split
    case isTrue nestable =>
      refine (head nestable).bind ?_
      rintro _ ⟨regular, rfl⟩
      refine later.bind ?_
      rintro _ ⟨others, rfl⟩
      exact .pure ⟨⟨regular, others⟩, rfl⟩
    case isFalse => exact (Yields.fail _).bind fun _ (impossible : False) => impossible.elim

theorem QueryOption.compile_expanded :
    (option : QueryOption) → option.isNestable = true →
      Yields (fun text => option.Regular ∧ text = option.expanded.text) option.compile
  | .filter filter, _ =>
    Yields.map (fun _ run => Filter.compile_eq_text run) (by rintro _ rfl; exact ⟨trivial, rfl⟩)
  | .expand expand, _ =>
    expand.compile_writes.map (by rintro _ ⟨regular, rfl⟩; exact ⟨regular, rfl⟩)
  | .orderBy ordering, _ => ordering.compile_text.map (by rintro _ rfl; exact ⟨trivial, rfl⟩)
  | .top _, _ => .pure ⟨trivial, rfl⟩
  | .skip _, _ => .pure ⟨trivial, rfl⟩
  | .select select, _ =>
    Yields.map (fun _ run => Select.compile_eq_text run) (by rintro _ rfl; exact ⟨trivial, rfl⟩)
  | .format _, _ => .pure ⟨trivial, rfl⟩
  | .count _, refused => Bool.noConfusion refused
  | .parameter _ _, refused => Bool.noConfusion refused
  | .custom _ _, refused => Bool.noConfusion refused

end

end OData
