import Mathlib
import OData.Proofs.Filter.Surroundings

namespace OData

/-- The alternatives of some filters, as an operation. -/
def Filter.alternatives (items : List Filter) : Filter := .ofOperation (.or (.list items))

/-- A property that is to be among what an operand says. -/
def FilterEntry.among (name : String) (operand : Filter) : FilterEntry :=
  .property name (.ofOperation (.within operand))

/-- A property with each of some filters. -/
def FilterEntry.eachOf (name : String) (items : List Filter) : FilterEntry :=
  .operation (.or (.list (items.map (Filter.ofProperty name))))

/-- Entries that compile to the same where no path is open, for themselves and among the entries of any
object. -/
structure FilterEntry.SameUnbound (inLambda : Bool) (first second : FilterEntry) : Prop where
  entry : first.compileAt ⟨inLambda, []⟩ = second.compileAt ⟨inLambda, []⟩
  entries : ∀ before after,
    FilterEntry.compileList ⟨inLambda, []⟩ (before ++ first :: after) =
      FilterEntry.compileList ⟨inLambda, []⟩ (before ++ second :: after)

theorem FilterEntry.SameUnbound.of_entry {inLambda : Bool} {first second : FilterEntry}
    (same : first.compileAt ⟨inLambda, []⟩ = second.compileAt ⟨inLambda, []⟩) :
    SameUnbound inLambda first second := by
  refine ⟨same, fun before after => ?_⟩
  induction before with
  | nil => exact congrArg (· >>= _) same
  | cons entry before ih => exact congrArg (entry.compileAt _ >>= ·) (funext fun _ => congrArg (· >>= _) ih)

variable {place : FilterPlace} {inLambda : Bool} {name : String}

theorem Filter.compileAt_single (place : FilterPlace) (joint : Option Connective) (entry : FilterEntry) :
    (Filter.object [entry]).compileAt place joint = entry.compileAt place := by
  rw [Filter.compileAt, FilterEntry.compileList, FilterEntry.compileList]
  cases entry.compileAt place <;> rfl

theorem FilterEntry.compileAt_property (filter : Filter) :
    (FilterEntry.property name filter).compileAt ⟨inLambda, []⟩ =
      filter.compileAt ⟨inLambda, [name]⟩ none := rfl

theorem FilterEntry.compileAt_among (operand : Filter) :
    (FilterEntry.among name operand).compileAt place =
      place.step? name >>= fun inner => (FilterOperation.within operand).compileAt inner := by
  rw [among, FilterEntry.compileAt]
  exact congrArg (place.step? name >>= ·) (funext fun inner => Filter.compileAt_single inner none _)

/-- A list of filters that each compile to what something else compiles to. -/
theorem Filter.compileList_map_property (items : List Filter) :
    Filter.compileList ⟨inLambda, []⟩ (items.map (Filter.ofProperty name)) =
      Filter.compileList ⟨inLambda, [name]⟩ items := by
  induction items with
  | nil => rfl
  | cons item items ih =>
    rw [List.map_cons, Filter.compileList, Filter.compileList, ih, ofProperty, compileAt_single,
      FilterEntry.compileAt_property]

theorem Filter.compileList_map_single (entries : List FilterEntry) :
    Filter.compileList place (entries.map fun entry => .object [entry]) =
      FilterEntry.compileList place entries := by
  induction entries with
  | nil => rfl
  | cons entry entries ih =>
    rw [List.map_cons, Filter.compileList, FilterEntry.compileList, ih, compileAt_single]

theorem requireItems_of_le {least : Nat} {items : List Filter} (enough : least ≤ items.length) :
    requireItems least items = .ok () := if_neg (Nat.not_lt.mpr enough)

/-- Among filters that are not all values, the alternatives under the path. -/
theorem FilterOperation.compileAt_within_list {items : List Filter}
    (mixed : items.all Filter.isValue = false) :
    (FilterOperation.within (.list items)).compileAt place =
      Term.join .or <$> Filter.compileList place items := by
  have nonempty : items ≠ [] := fun none => by
    rw [none] at mixed
    cases mixed
  rw [FilterOperation.compileAt, requireItems_of_le (List.length_pos_iff.mpr nonempty), mixed]
  rfl

theorem FilterOperation.compileAt_within_object {entries : List FilterEntry} (nonempty : entries ≠ []) :
    (FilterOperation.within (.object entries)).compileAt place =
      Term.join .or <$> FilterEntry.compileList place entries := by
  cases entries with
  | nil => exact absurd rfl nonempty
  | cons entry entries =>
    rw [FilterOperation.compileAt, FilterEntry.compileList]
    cases entry.compileAt place with
    | error error => rfl
    | ok term => cases FilterEntry.compileList place entries <;> rfl

theorem FilterOperation.compileAt_or_list {items : List Filter} (enough : 2 ≤ items.length) :
    (FilterOperation.or (.list items)).compileAt ⟨inLambda, []⟩ =
      Term.join .or <$> Filter.compileList ⟨inLambda, []⟩ items := by
  rw [FilterOperation.compileAt, Filter.compileAt, requireItems_of_le enough]
  show (Filter.compileList ⟨inLambda, []⟩ items >>= fun terms => pure (Term.join .or terms)) >>= pure = _
  cases Filter.compileList ⟨inLambda, []⟩ items <;> rfl

/-- Where an operation around a list does not say otherwise, its items are alternatives. -/
theorem Filter.compileAt_alternatives (items : List Filter) (place : FilterPlace)
    {joint : Option Connective} (open_ : joint = none ∨ joint = some .or) :
    (Filter.alternatives items).compileAt place joint = (Filter.list items).compileAt place joint := by
  have joined : joint.getD .or = .or := by
    rcases open_ with rfl | rfl <;> rfl
  rw [alternatives, ofOperation, compileAt_single, FilterEntry.compileAt, FilterOperation.compileAt,
    Filter.compileAt, Filter.compileAt, joined]
  show (requireItems 2 items >>= fun _ => Filter.compileList place.detached items >>= fun terms =>
    pure (Term.join .or terms)) >>= (fun term => pure (term.bind place.path .eq)) = _
  cases requireItems 2 items with
  | error error => rfl
  | ok _ => cases Filter.compileList place.detached items <;> rfl

theorem Term.bind_snoc (path : List String) (name : String) (connective : Connective) (term : Term) :
    term.bind (path ++ [name]) connective =
      .chain (Uri.encodePath (path ++ [name]) ++ connective.text ++ term.grouped) := by
  cases path with
  | nil => rfl
  | cons first rest => rfl

theorem Filter.compileList_scalars (scalars : List Primitive) :
    Filter.compileList place.detached (scalars.map .value) =
      .ok (scalars.map fun scalar => .atom scalar.literal) := by
  induction scalars with
  | nil => rfl
  | cons scalar scalars ih =>
    rw [List.map_cons, Filter.compileList, ih]
    rfl

/-- Among values, a comparison of the path with the list of their literals. -/
theorem FilterOperation.compileAt_within_values {scalars : List Primitive} (nonempty : scalars ≠ []) :
    (FilterOperation.within (.list (scalars.map .value))).compileAt place =
      .ok ((Term.atom ('(' :: Text.join ", ".toList (scalars.map Primitive.literal) ++ [')'])).bind
        place.path .within) := by
  have enough : 1 ≤ (scalars.map Filter.value).length := by
    rw [List.length_map]
    exact List.length_pos_iff.mpr nonempty
  have values : (scalars.map Filter.value).all Filter.isValue = true :=
    List.all_eq_true.mpr fun item member => by
      obtain ⟨scalar, _, rfl⟩ := List.mem_map.mp member
      rfl
  have texts : (scalars.map fun scalar => Term.atom scalar.literal).map Term.grouped =
      scalars.map Primitive.literal := by
    rw [List.map_map]
    rfl
  rw [FilterOperation.compileAt, requireItems_of_le enough, values, Filter.compileList_scalars, ← texts]
  rfl

/-- Alternatives and the other ways to write them. Where no path is open, a property among filters that are
not all values, or among the entries of an object, is as good as the alternatives of the property with each
of them; among a single filter it is as good as the property with that filter. Among values it is one
comparison with the list of the literals, of which there has to be one. A list is as good as the alternatives
of its items under every path and wherever no operation takes it by its form: what surrounds it compiles to
the same, unless a list with no other item is refused and quotes it. -/
theorem Filter.alternatives_agree (inLambda : Bool) (name : String) :
    (∀ items, 2 ≤ items.length → items.all Filter.isValue = false →
      FilterEntry.SameUnbound inLambda (.among name (.list items)) (.eachOf name items)) ∧
    (∀ item, item.isValue = false → ∀ place,
      (FilterEntry.among name (.list [item])).compileAt place =
        (FilterEntry.property name item).compileAt place) ∧
    (∀ entries, 2 ≤ entries.length → FilterEntry.SameUnbound inLambda (.among name (.object entries))
      (.eachOf name (entries.map fun entry => .object [entry]))) ∧
    (∀ scalars place inner, place.step? name = .ok inner →
      (FilterEntry.among name (.list (scalars.map .value))).compileAt place =
        if scalars = [] then .error (.arity (.filterList 1 []))
        else .ok (.chain (Uri.encodePath (place.path ++ [name]) ++ " in ".toList ++
          ('(' :: Text.join ", ".toList (scalars.map Primitive.literal) ++ [')'])))) ∧
    ∀ items place joint, joint = none ∨ joint = some .or →
      (Filter.alternatives items).compileAt place joint = (Filter.list items).compileAt place joint ∧
      ∀ frames, (∀ frame ∈ frames.getLast?, frame.takesForm = false) →
        ((Filter.alternatives items).surrounded frames).compileAt place joint =
          ((Filter.list items).surrounded frames).compileAt place joint ∨
        ∃ inner, .item [] [] :: inner <:+ frames ∧
          ((Filter.alternatives items).surrounded frames).compileAt place joint =
            .error ((Filter.alternatives items).surrounded inner).aloneInList ∧
          ((Filter.list items).surrounded frames).compileAt place joint =
            .error ((Filter.list items).surrounded inner).aloneInList := by
  have bound : FilterPlace.step? ⟨inLambda, []⟩ name = .ok ⟨inLambda, [name]⟩ := rfl
  refine ⟨fun items enough mixed => .of_entry ?list, fun item other place => ?single,
    fun entries enough => .of_entry ?object, fun scalars place inner stepped => ?values,
    fun items place joint open_ => ⟨Filter.compileAt_alternatives items place open_,
      fun frames formless => ?surrounded⟩⟩
  case list =>
    have each : 2 ≤ (items.map (Filter.ofProperty name)).length := enough.trans_eq (by rw [List.length_map])
    rw [FilterEntry.compileAt_among, bound, FilterEntry.eachOf, FilterEntry.compileAt,
      FilterOperation.compileAt_or_list each, Filter.compileList_map_property]
    exact FilterOperation.compileAt_within_list mixed
  case single =>
    have mixed : [item].all Filter.isValue = false := by
      rw [List.all_cons, other, Bool.false_and]
    rw [FilterEntry.compileAt_among, FilterEntry.compileAt]
    refine congrArg (place.step? name >>= ·) (funext fun inner => ?_)
    rw [FilterOperation.compileAt_within_list mixed, Filter.compileList, Filter.compileList]
    cases item.compileAt inner none <;> rfl
  case object =>
    have each : 2 ≤ ((entries.map fun entry => Filter.object [entry]).map (Filter.ofProperty name)).length :=
      enough.trans_eq (by rw [List.length_map, List.length_map])
    have nonempty : entries ≠ [] := List.length_pos_iff.mp (Nat.lt_of_lt_of_le Nat.two_pos enough)
    rw [FilterEntry.compileAt_among, bound, FilterEntry.eachOf, FilterEntry.compileAt,
      FilterOperation.compileAt_or_list each, Filter.compileList_map_property,
      Filter.compileList_map_single]
    exact FilterOperation.compileAt_within_object nonempty
  case values =>
    have path : inner.path = place.path ++ [name] := by
      unfold FilterPlace.step? at stepped
      split at stepped
      · cases stepped
      · exact (congrArg FilterPlace.path (Except.ok.inj stepped)).symm
    rw [FilterEntry.compileAt_among, stepped]
    show (FilterOperation.within (.list (scalars.map .value))).compileAt inner = _
    split
    · next none =>
      subst none
      rfl
    · next nonempty =>
      rw [FilterOperation.compileAt_within_values nonempty, path, Term.bind_snoc]
      rfl
  case surrounded =>
    have alone : AgreeAlone (fun error other => ∃ inner, .item [] [] :: inner <:+ frames ∧
          error = ((Filter.alternatives items).surrounded inner).aloneInList ∧
          other = ((Filter.list items).surrounded inner).aloneInList)
        (Filter.alternatives items) (Filter.list items) :=
      ⟨⟨rfl, rfl⟩, fun place joint open_ => Or.inl (Filter.compileAt_alternatives items place open_)⟩
    have agree := alone.surrounded formless fun inner suffix => ⟨inner, suffix, rfl, rfl⟩
    rcases agree.compiled place joint open_ with same | ⟨_, _, ⟨inner, suffix, rfl, rfl⟩, first, second⟩
    · exact Or.inl same
    · exact Or.inr ⟨inner, suffix, first, second⟩

/-- In a lambda body, where a property may stand in another one: the path is kept, a value is compared with
it, and the list of two is a part of the alternatives. -/
theorem Filter.alternatives_agree_nested :
    let items : List Filter := [.value (.bool true), .list [.value .null, .value (.bool false)],
      .ofProperty "b" (.value .null)]
    (FilterEntry.among "a" (.list items)).compileAt ⟨true, []⟩ =
        (FilterEntry.eachOf "a" items).compileAt ⟨true, []⟩ ∧
      (FilterEntry.eachOf "a" items).compileAt ⟨true, []⟩ =
        .ok (.chain "(a eq true) or (a eq (null or false)) or (a/b eq null)".toList) ∧
      ((Filter.alternatives items).surrounded [.entry [] .not []]).compile =
        ((Filter.list items).surrounded [.entry [] .not []]).compile := by
  intro items
  obtain ⟨among, -, -, -, surrounded⟩ := Filter.alternatives_agree true "a"
  refine ⟨(among items (by decide) rfl).entry, rfl, ?_⟩
  have unlisted (inner : List FilterFrame) : ¬ .item [] [] :: inner <:+ [.entry [] .not []] := by
    intro suffix
    rcases List.suffix_cons_iff.mp suffix with same | shorter
    · cases same
    · cases List.suffix_nil.mp shorter
  have same := (surrounded items .top none (Or.inl rfl)).2 [.entry [] .not []] fun frame last => by
    cases Option.mem_some_iff.mp last
    rfl
  exact congrArg (Term.bare <$> ·)
    (same.resolve_right fun ⟨inner, suffix, _⟩ => unlisted inner suffix)

/-- The error of a list with a single item quotes the item, so it tells the two apart. -/
theorem Filter.alternatives_quoted :
    ¬ ∀ (items : List Filter) (frames : List FilterFrame),
      (∀ frame ∈ frames.getLast?, frame.takesForm = false) →
        ((Filter.alternatives items).surrounded frames).compile =
          ((Filter.list items).surrounded frames).compile := by
  intro same
  have formless : ∀ frame ∈ [FilterFrame.item [] []].getLast?, frame.takesForm = false := by
    intro frame last
    cases Option.mem_some_iff.mp last
    rfl
  let items : List Filter := [.ofProperty "a" (.value (.bool true)), .ofProperty "b" (.value (.bool true))]
  have quoted : Except.error (Filter.alternatives items).aloneInList =
      (.error (Filter.list items).aloneInList : Except Error Text) := same items [.item [] []] formless
  have arrays := Error.arity.inj (Except.error.inj quoted)
  have quotation : Json.object _ = Json.array _ := (List.cons.inj (ArityFault.filterList.inj arrays).2).1
  cases quotation

end OData
