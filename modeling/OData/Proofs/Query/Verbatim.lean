import Mathlib
import OData.Options.Compile
import OData.Proofs.Filter.Verbatim
import OData.Proofs.Outcome

namespace OData

open Text

open Compilation (Yields)

namespace Select

/-- The names are written as they are. -/
def verbatim : Select → List String
  | .fields text => [text]
  | .list names => names
  | .set names => names

end Select

def CustomValue.verbatim : CustomValue → List String
  | .text value => [value]
  | .bool _ => []
  | .number _ => []
  | .list items => items

def OrderKey.verbatim : OrderKey → List String
  | .direction _ => []
  | .count none => []
  | .count (some filter) => filter.verbatim

mutual

/-- Raw orderings and property names, and what stands verbatim in the filters of counts. -/
def OrderBy.verbatim : OrderBy → List String
  | .raw text => [text]
  | .list items => OrderBy.listVerbatim items
  | .object entries _ => entries.flatMap fun (property, key) => property :: key.verbatim

def OrderBy.listVerbatim : List OrderBy → List String
  | [] => []
  | ordering :: rest => ordering.verbatim ++ OrderBy.listVerbatim rest

end

mutual

/-- Navigation paths are encoded, so only their options have verbatim texts. -/
def Expand.verbatim : Expand → List String
  | .property _ => []
  | .list items => Expand.listVerbatim items
  | .object entries => Expand.entriesVerbatim entries

def Expand.listVerbatim : List Expand → List String
  | [] => []
  | expand :: rest => expand.verbatim ++ Expand.listVerbatim rest

def Expand.entriesVerbatim : List (String × List QueryOption) → List String
  | [] => []
  | (_, options) :: rest => QueryOption.listVerbatim options ++ Expand.entriesVerbatim rest

def QueryOption.listVerbatim : List QueryOption → List String
  | [] => []
  | option :: rest => option.verbatim ++ QueryOption.listVerbatim rest

/-- Of a count, which only a navigation property can have, nothing but the filters is written. -/
def QueryOption.verbatim : QueryOption → List String
  | .filter filter => filter.verbatim
  | .expand expand => expand.verbatim
  | .orderBy ordering => ordering.verbatim
  | .top _ => []
  | .skip _ => []
  | .select select => select.verbatim
  | .format format => [format]
  | .count inner => (Expand.countFilters inner).flatMap Filter.verbatim
  | .parameter name _ => [name]
  | .custom name value => name :: value.verbatim

end

/-- All of the texts leave the query uncut. -/
def AllUnseparated (texts : List String) : Prop := ∀ text ∈ texts, Unseparated text.toList

theorem join_unseparated {separator : Text} (between : Unseparated separator) {names : List String}
    (own : AllUnseparated names) : Unseparated (join separator (names.map String.toList)) := by
  refine Avoids.join between fun piece member => ?_
  obtain ⟨name, found, rfl⟩ := List.mem_map.mp member
  exact own name found

theorem Select.compile_unseparated {select : Select} {text : Text}
    (own : AllUnseparated select.verbatim) (run : select.compile = .ok text) : Unseparated text := by
  match select with
  | .fields names =>
    obtain rfl := Except.ok.inj run
    exact own names (List.mem_singleton_self names)
  | .list [] => cases run
  | .set [] => cases run
  | .list (first :: others) =>
    obtain rfl := Except.ok.inj run
    exact join_unseparated (by decide) own
  | .set (first :: others) =>
    obtain rfl := Except.ok.inj run
    exact join_unseparated (by decide) own

theorem CustomValue.literal_unseparated {value : CustomValue} (own : AllUnseparated value.verbatim) :
    Unseparated value.literal := by
  cases value with
  | text value => exact own value (List.mem_singleton_self value)
  | bool value => cases value <;> exact (by decide : Inert _).unseparated
  | number n => exact n.literal_inert.unseparated
  | list items => exact join_unseparated (by decide) own

theorem OrderBy.compileEntry_unseparated {property : String} {shared : Option SortDirection}
    {key : OrderKey} {text : Text} (name : Unseparated property.toList)
    (own : AllUnseparated key.verbatim) (run : compileEntry property shared key = .ok text) :
    Unseparated text := by
  have directed : ∀ direction : SortDirection, Unseparated (' ' :: direction.name.toList) := by
    intro direction
    cases direction <;> decide
  cases key with
  | direction direction =>
    obtain rfl := Except.ok.inj run
    exact avoids_append.mpr ⟨name, directed direction⟩
  | count filter =>
    have path : ∀ path, countPath property filter = .ok path → Unseparated path := by
      intro path written
      cases filter with
      | none =>
        obtain rfl := Except.ok.inj written
        exact avoids_append.mpr ⟨name, by decide⟩
      | some filter =>
        obtain ⟨condition, compiled, written⟩ := bind_eq_ok_iff.mp written
        obtain rfl := Except.ok.inj written
        have inner := Filter.compile_unseparated own compiled
        exact avoids_append.mpr ⟨avoids_append.mpr ⟨avoids_append.mpr ⟨name, by decide⟩, inner⟩,
          by decide⟩
    obtain ⟨counted, written, run⟩ := bind_eq_ok_iff.mp run
    cases shared with
    | none => cases run
    | some direction =>
      obtain rfl := Except.ok.inj run
      exact avoids_append.mpr ⟨path counted written, directed direction⟩

theorem OrderBy.compileItem_unseparated {ordering : OrderBy}
    (own : AllUnseparated ordering.verbatim) : Yields Unseparated (compileItem ordering) := by
  match ordering with
  | .raw text =>
    have same := own text (List.mem_singleton_self text)
    rw [compileItem]
    split
    · rintro value ⟨⟩
      exact same
    · exact .pure same
  | .list _ => exact .fail _
  | .object [] _ => exact .fail _
  | .object (_ :: _ :: _) _ => exact .fail _
  | .object [(property, key)] direction =>
    rw [AllUnseparated, OrderBy.verbatim, List.flatMap_singleton, List.forall_mem_cons] at own
    exact fun text run => compileEntry_unseparated own.1 own.2 run

theorem OrderBy.compileItems_unseparated {items : List OrderBy}
    (own : AllUnseparated (OrderBy.listVerbatim items)) :
    Yields (fun texts => ∀ text ∈ texts, Unseparated text) (compileItems items) := by
  induction items with
  | nil => exact .pure (List.forall_mem_nil _)
  | cons item rest ih =>
    rw [AllUnseparated, OrderBy.listVerbatim, List.forall_mem_append] at own
    refine (compileItem_unseparated own.1).bind fun text plain => ?_
    exact (ih own.2).bind fun texts others => .pure (List.forall_mem_cons.mpr ⟨plain, others⟩)

theorem OrderBy.compile_unseparated {ordering : OrderBy}
    (own : AllUnseparated ordering.verbatim) : Yields Unseparated ordering.compile := by
  match ordering with
  | .list [] => exact .fail _
  | .list (first :: others) =>
    exact (compileItems_unseparated own).bind fun texts plain =>
      .pure (Avoids.join (by decide) plain)
  | .raw text => exact compileItem_unseparated own
  | .object entries direction => exact compileItem_unseparated own

theorem QueryOption.assign_unseparated {key : String} {value : Text}
    (name : Unseparated key.toList) (plain : Unseparated value) :
    Unseparated (assign key value) :=
  avoids_append.mpr ⟨name, avoids_cons.mpr ⟨by decide, plain⟩⟩

theorem Expand.withOptions_unseparated (path : String) {options : List Text}
    (inner : ∀ option ∈ options, Unseparated option) : Unseparated (withOptions path options) := by
  have encoded := Uri.encodeResource_unseparated (.single path)
  unfold withOptions
  split
  · exact encoded
  · have joined : Unseparated (join [';'] options) := Avoids.join (by decide) inner
    rw [List.append_assoc]
    exact avoids_append.mpr ⟨encoded, parenthesized_unseparated joined⟩

theorem Expand.compileFilters_unseparated {filters : List Filter} {texts : List Text}
    (own : AllUnseparated (filters.flatMap Filter.verbatim))
    (run : compileFilters filters = .ok texts) : ∀ text ∈ texts, Unseparated text := by
  induction filters generalizing texts with
  | nil =>
    obtain rfl := Except.ok.inj run
    exact List.forall_mem_nil _
  | cons filter rest ih =>
    rw [AllUnseparated, List.flatMap_cons, List.forall_mem_append] at own
    obtain ⟨text, compiled, run⟩ := bind_eq_ok_iff.mp run
    obtain ⟨others, later, run⟩ := bind_eq_ok_iff.mp run
    obtain rfl := Except.ok.inj run
    have condition := Filter.compile_unseparated own.1 compiled
    have assigned : Unseparated (QueryOption.assign "$filter" text) :=
      QueryOption.assign_unseparated (by decide) condition
    exact List.forall_mem_cons.mpr ⟨assigned, ih own.2 later⟩

theorem Expand.compileCount_unseparated (path : String) {inner : Options}
    (own : AllUnseparated ((countFilters inner).flatMap Filter.verbatim)) :
    Yields Unseparated (compileCount path inner) := by
  have counted : Yields Unseparated
      (Compilation.lift (compileFilters (countFilters inner)) >>= fun filters =>
        pure (withOptions (String.ofList (path.toList ++ "/$count".toList)) filters)) := by
    refine Yields.bind (fun texts run => compileFilters_unseparated own run) fun texts plain => ?_
    exact .pure (withOptions_unseparated _ plain)
  unfold compileCount
  split
  · have reported : Yields (fun _ => True)
        (Compilation.report (.expandCountOptions (Options.keys inner))) := fun _ _ => trivial
    exact reported.bind fun _ _ => counted
  · exact counted

theorem QueryOption.verbatim_of_single_count {inner : Options}
    (own : AllUnseparated (QueryOption.listVerbatim [.count inner])) :
    AllUnseparated ((Expand.countFilters inner).flatMap Filter.verbatim) := by
  rw [QueryOption.listVerbatim, QueryOption.listVerbatim, List.append_nil] at own
  exact own

open QueryOption (assign_unseparated)

mutual

/-- The text of an expansion has no separators but those of its verbatim texts. -/
theorem Expand.compile_unseparated :
    (expand : Expand) → AllUnseparated expand.verbatim → Yields Unseparated expand.compile
  | .property path, _ => .pure (Uri.encodeResource_unseparated (.single path))
  | .list [], _ => .fail _
  | .list (first :: others), own =>
    (Expand.compileList_unseparated (first :: others) own).bind fun _ plain =>
      .pure (Avoids.join (by decide) plain)
  | .object entries, own =>
    (Expand.compileEntries_unseparated entries own).bind fun _ plain =>
      .pure (Avoids.join (by decide) plain)

theorem Expand.compileList_unseparated :
    (items : List Expand) → AllUnseparated (Expand.listVerbatim items) →
      Yields (fun texts => ∀ text ∈ texts, Unseparated text) (Expand.compileList items)
  | [], _ => .pure (List.forall_mem_nil _)
  | expand :: rest, own => by
    rw [AllUnseparated, Expand.listVerbatim, List.forall_mem_append] at own
    refine (expand.compile_unseparated own.1).bind fun text plain => ?_
    refine (Expand.compileList_unseparated rest own.2).bind fun texts others => ?_
    exact .pure (List.forall_mem_cons.mpr ⟨plain, others⟩)

theorem Expand.compileEntries_unseparated :
    (entries : List (String × List QueryOption)) →
      AllUnseparated (Expand.entriesVerbatim entries) →
      Yields (fun texts => ∀ text ∈ texts, Unseparated text) (Expand.compileEntries entries)
  | [], _ => .pure (List.forall_mem_nil _)
  | (path, options) :: rest, own => by
    rw [AllUnseparated, Expand.entriesVerbatim, List.forall_mem_append] at own
    have inner := QueryOption.compileNested_unseparated options own.1
    have later := Expand.compileEntries_unseparated rest own.2
    have both : ∀ text, Unseparated text →
        Yields (fun texts => ∀ text ∈ texts, Unseparated text) (do
          let texts ← Expand.compileEntries rest
          pure (text :: texts)) := fun _ plain =>
      later.bind fun _ others => .pure (List.forall_mem_cons.mpr ⟨plain, others⟩)
    rw [Expand.compileEntries]
    refine Yields.bind (fun _ _ => trivial) fun _ _ => ?_
    dsimp only
    split
    · exact (Expand.compileCount_unseparated path (QueryOption.verbatim_of_single_count own.1)).bind both
    · split
      · exact (Yields.fail _).bind both
      · exact (inner.map fun _ plain => Expand.withOptions_unseparated path plain).bind both

theorem QueryOption.compileNested_unseparated :
    (options : List QueryOption) → AllUnseparated (QueryOption.listVerbatim options) →
      Yields (fun texts => ∀ text ∈ texts, Unseparated text) (QueryOption.compileNested options)
  | [], _ => .pure (List.forall_mem_nil _)
  | option :: rest, own => by
    rw [AllUnseparated, QueryOption.listVerbatim, List.forall_mem_append] at own
    have head := option.compile_unseparated own.1
    have later := QueryOption.compileNested_unseparated rest own.2
    have both : ∀ text, Unseparated text →
        Yields (fun texts => ∀ text ∈ texts, Unseparated text) (do
          let texts ← QueryOption.compileNested rest
          pure (text :: texts)) := fun _ plain =>
      later.bind fun _ others => .pure (List.forall_mem_cons.mpr ⟨plain, others⟩)
    rw [QueryOption.compileNested]
    split
    · exact head.bind both
    · exact (Yields.fail _).bind both

/-- The text of an option, its key included, has no separators but those of its verbatim texts. -/
theorem QueryOption.compile_unseparated :
    (option : QueryOption) → AllUnseparated option.verbatim → Yields Unseparated option.compile
  | .filter filter, own =>
    Yields.map (fun _ run => Filter.compile_unseparated own run) fun _ plain =>
      assign_unseparated (by decide) plain
  | .expand expand, own =>
    (expand.compile_unseparated own).map fun _ plain => assign_unseparated (by decide) plain
  | .orderBy ordering, own =>
    (OrderBy.compile_unseparated own).map fun _ plain => assign_unseparated (by decide) plain
  | .top count, _ => .pure (assign_unseparated (by decide) (ofNat_inert count).unseparated)
  | .skip count, _ => .pure (assign_unseparated (by decide) (ofNat_inert count).unseparated)
  | .select select, own =>
    Yields.map (fun _ run => Select.compile_unseparated own run) fun _ plain =>
      assign_unseparated (by decide) plain
  | .format format, own =>
    .pure (assign_unseparated (by decide) (own format (List.mem_singleton_self format)))
  | .count _, _ => .fail _
  | .parameter name value, own => by
    have key : Unseparated (QueryOption.key (.parameter name value)).toList := by
      rw [QueryOption.key, String.toList_ofList]
      exact avoids_cons.mpr ⟨by decide, own name (List.mem_singleton_self name)⟩
    exact .pure (assign_unseparated key value.literal_unseparated)
  | .custom name value, own => by
    rw [AllUnseparated, QueryOption.verbatim, List.forall_mem_cons] at own
    rw [QueryOption.compile]
    split
    · exact .fail _
    · exact .pure (assign_unseparated own.1 (CustomValue.literal_unseparated own.2))

end

end OData
