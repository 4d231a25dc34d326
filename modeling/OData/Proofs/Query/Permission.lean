import Mathlib
import OData.Query.Compile
import OData.Proofs.Outcome

namespace OData

/-- The object that has nothing but the filter of the given one, if there is one. -/
def Json.filterAlone (options : Json) : Json :=
  .object ((options.field? "$filter").toList.map fun value => ("$filter", value))

namespace Options

variable {options : Json}

theorem ofJson_filterAlone_of_none (missing : options.field? "$filter" = none) :
    ofJson options.filterAlone = .ok [] := by
  rw [Json.filterAlone, missing]
  rfl

theorem ofJson_filterAlone_of_some {value : Json} (found : options.field? "$filter" = some value) :
    ofJson options.filterAlone = (fun filter => [.filter filter]) <$> Filter.ofJson value := by
  have single : ofJson (.object [("$filter", value)]) = (do
      let option ← QueryOption.filter <$> Filter.ofJson value
      return [option]) := rfl
  rw [Json.filterAlone, found]
  refine single.trans ?_
  cases Filter.ofJson value <;> rfl

/-- Nothing but a filter is left. -/
theorem eq_filter_of_filterAlone {reduced : Options}
    (read : ofJson options.filterAlone = .ok reduced) :
    ∃ filter : Option Filter, reduced = filter.toList.map .filter := by
  cases found : options.field? "$filter" with
  | none =>
    rw [ofJson_filterAlone_of_none found] at read
    obtain rfl := Except.ok.inj read
    exact ⟨none, rfl⟩
  | some value =>
    rw [ofJson_filterAlone_of_some found] at read
    obtain ⟨filter, _, rfl⟩ := map_eq_ok_iff.mp read
    exact ⟨some filter, rfl⟩

/-- Options that are no object are refused, but without their filter nothing is left to refuse. -/
theorem ofJson_of_not_object (other : ∀ fields, options ≠ .object fields) :
    ofJson options = .error (.shape (.optionsKind options.typeName)) ∧
      options.field? "$filter" = none := by
  cases options with
  | object fields => exact absurd rfl (other fields)
  | null | bool _ | number _ | string _ | array _ => exact ⟨rfl, rfl⟩

end Options

namespace Query

/-- A query of a resource with options and nothing else. -/
def ofOptions (resource : String) (options : Options) : Query :=
  { ofResource resource with options := some options }

variable {resource : String}

theorem compile_ofOptions (resource : String) (options : Options) :
    (ofOptions resource options).compile = (do
      let path ← Compilation.lift (compilePath resource none none)
      compileOptions path options) := rfl

theorem uncounted_of_compile {options : Options} {url : Text}
    (run : (ofOptions resource options).compile.outcome = .ok url) :
    ¬ "/$count".toList.isSuffixOf resource.toList := by
  intro counted
  have path : compilePath resource none none = .error (.removed .countResource) := if_pos counted
  rw [compile_ofOptions, path] at run
  cases run

theorem compile_ofOptions_of_uncounted (uncounted : ¬ "/$count".toList.isSuffixOf resource.toList)
    (options : Options) : (ofOptions resource options).compile =
      compileOptions (Uri.encodeResource (.single resource)) options := by
  have path : compilePath resource none none = .ok (Uri.encodeResource (.single resource)) :=
    if_neg uncounted
  rw [compile_ofOptions, path]
  rfl

theorem compileOptions_filter (path : Text) (filter : Filter) :
    (compileOptions path [.filter filter]).outcome =
      (fun written => path ++ "?$filter=".toList ++ written) <$> filter.compile := by
  have single : Options.compileList [.filter filter] =
      (fun written => [QueryOption.assign "$filter" written]) <$>
        Compilation.lift filter.compile := by
    have steps : Options.compileList [.filter filter] = (do
        let part ← QueryOption.assign "$filter" <$> Compilation.lift filter.compile
        let parts ← pure []
        return part :: parts) := rfl
    rw [steps]
    simp only [map_eq_pure_bind, bind_assoc, pure_bind]
  have whole (written : Text) : path ++ '?' :: QueryOption.assign "$filter" written =
      path ++ "?$filter=".toList ++ written := by
    rw [List.append_assoc]
    rfl
  have uncounted : compileOptions path [.filter filter] = withOptions path [.filter filter] := rfl
  rw [uncounted, withOptions, Options.compile, single]
  cases filter.compile with
  | error error => rfl
  | ok written => exact congrArg Except.ok (whole written)

theorem compile_ofOptions_filter (uncounted : ¬ "/$count".toList.isSuffixOf resource.toList)
    (filter : Filter) : (ofOptions resource [.filter filter]).compile.outcome =
      (fun written => Uri.encodeResource (.single resource) ++ "?$filter=".toList ++ written) <$>
        filter.compile := by
  rw [compile_ofOptions_of_uncounted uncounted]
  exact compileOptions_filter _ filter

end Query

/-- A text that has to be there is read as it is there. -/
theorem requiredText_eq_ok_iff {fields : List (String × Json)} {field text : String} :
    requiredText fields field = .ok text ↔ fields.lookup field = some (.string text) := by
  constructor
  · intro run
    obtain ⟨found, optional, run⟩ := bind_eq_ok_iff.mp run
    cases found with
    | none => cases run
    | some found =>
      obtain rfl := Except.ok.inj run
      unfold optionalText at optional
      split at optional
      case h_3 other given =>
        obtain rfl := Option.some.inj (Except.ok.inj optional)
        exact given
      all_goals cases optional
  · intro given
    have optional : optionalText fields field = .ok (some text) := by
      simp only [optionalText, given]
    exact bind_eq_ok_iff.mpr ⟨some text, optional, rfl⟩

namespace Permission

/-- `model.resource.access`. -/
def scope (permission : Permission) : Text :=
  permission.model.toList ++ '.' :: permission.resource.toList ++ '.' :: permission.access.toList

/-- Model, resource and access of a permission are those that a document names. -/
structure NamedIn (document : Json) (permission : Permission) : Prop where
  model : document.field? "modelName" = some (.string permission.model)
  resource : document.field? "resource" = some (.string permission.resource)
  access : document.field? "access" = some (.string permission.access)

theorem ofJson_object_eq_ok_iff {fields : List (String × Json)} {permission : Permission} :
    ofJson (.object fields) = .ok permission ↔
      NamedIn (.object fields) permission ∧ filterOfFields fields = .ok permission.filter := by
  constructor
  · intro run
    obtain ⟨filter, condition, run⟩ := bind_eq_ok_iff.mp run
    obtain ⟨model, first, run⟩ := bind_eq_ok_iff.mp run
    obtain ⟨resource, second, run⟩ := bind_eq_ok_iff.mp run
    obtain ⟨access, third, run⟩ := bind_eq_ok_iff.mp run
    obtain rfl := Except.ok.inj run
    exact ⟨⟨requiredText_eq_ok_iff.mp first, requiredText_eq_ok_iff.mp second,
      requiredText_eq_ok_iff.mp third⟩, condition⟩
  · rintro ⟨named, condition⟩
    refine bind_eq_ok_iff.mpr ⟨_, condition, ?_⟩
    refine bind_eq_ok_iff.mpr ⟨_, requiredText_eq_ok_iff.mpr named.model, ?_⟩
    refine bind_eq_ok_iff.mpr ⟨_, requiredText_eq_ok_iff.mpr named.resource, ?_⟩
    exact bind_eq_ok_iff.mpr ⟨_, requiredText_eq_ok_iff.mpr named.access, rfl⟩

/-- The filter of a permission is the one that is left of the options when they are cut down to it. -/
theorem filterOfFields_eq_ok_iff {fields : List (String × Json)} {options : Json}
    (given : fields.lookup "options" = some options) {filter : Option Filter} :
    filterOfFields fields = .ok filter ↔
      Options.ofJson options.filterAlone = .ok (filter.toList.map .filter) := by
  cases found : options.field? "$filter" with
  | none =>
    rw [Options.ofJson_filterAlone_of_none found]
    simp only [filterOfFields, given, found, Except.ok.injEq]
    cases filter <;> simp
  | some value =>
    rw [Options.ofJson_filterAlone_of_some found]
    simp only [filterOfFields, given, found, map_eq_ok_iff]
    cases filter <;> simp

theorem filter_eq_none_iff {fields : List (String × Json)} {options : Json}
    (given : fields.lookup "options" = some options) {filter : Option Filter}
    (run : filterOfFields fields = .ok filter) :
    filter = none ↔ options.field? "$filter" = none := by
  cases found : options.field? "$filter" with
  | none =>
    simp only [filterOfFields, given, found] at run
    exact iff_of_true (Except.ok.inj run).symm rfl
  | some value =>
    simp only [filterOfFields, given, found] at run
    obtain ⟨own, _, rfl⟩ := map_eq_ok_iff.mp run
    exact iff_of_false (Option.some_ne_none own) (Option.some_ne_none value)

variable {permission : Permission}

theorem compile_of_none (own : permission.filter = none) :
    permission.compile = .ok permission.scope := by
  simp only [compile, own]
  rfl

theorem compile_of_some {filter : Filter} (own : permission.filter = some filter) :
    permission.compile =
      (fun written => permission.scope ++ '?' :: written) <$> filter.compile := by
  simp only [compile, own]
  cases filter.compile <;> rfl

/-- A permission is compiled where a query of some resource is that has its filter alone. -/
theorem compiles_iff (permission : Permission) :
    (∃ text, permission.compile = .ok text) ↔ ∃ resource url,
      (Query.ofOptions resource (permission.filter.toList.map .filter)).compile.outcome = .ok url := by
  have plain : ¬ "/$count".toList.isSuffixOf "r".toList := by decide
  cases own : permission.filter with
  | none =>
    refine iff_of_true ⟨_, compile_of_none own⟩ ⟨"r", Uri.encodeResource (.single "r"), ?_⟩
    have compiled := Query.compile_ofOptions_of_uncounted plain []
    exact congrArg Compilation.outcome compiled
  | some filter =>
    rw [compile_of_some own]
    constructor
    · rintro ⟨_, run⟩
      obtain ⟨written, compiled, _⟩ := map_eq_ok_iff.mp run
      have query := Query.compile_ofOptions_filter plain filter
      exact ⟨"r", _, query.trans (map_eq_ok_iff.mpr ⟨written, compiled, rfl⟩)⟩
    · rintro ⟨resource, url, run⟩
      have query := Query.compile_ofOptions_filter (Query.uncounted_of_compile run) filter
      obtain ⟨written, compiled, _⟩ := map_eq_ok_iff.mp (query.symm.trans run)
      exact ⟨_, map_eq_ok_iff.mpr ⟨written, compiled, rfl⟩⟩

/-- What a description with options is accepted for. -/
theorem accepted_iff {fields : List (String × Json)} {options : Json}
    (given : fields.lookup "options" = some options) :
    (∃ permission, ofJson (.object fields) = .ok permission) ↔
      (∃ named, NamedIn (.object fields) named) ∧
        ∃ reduced, Options.ofJson options.filterAlone = .ok reduced := by
  constructor
  · rintro ⟨permission, accepted⟩
    obtain ⟨named, condition⟩ := ofJson_object_eq_ok_iff.mp accepted
    exact ⟨⟨permission, named⟩, _, (filterOfFields_eq_ok_iff given).mp condition⟩
  · rintro ⟨⟨⟨model, resource, access, _⟩, names⟩, reduced, read⟩
    obtain ⟨filter, rfl⟩ := Options.eq_filter_of_filterAlone read
    refine ⟨⟨model, resource, access, filter⟩, ofJson_object_eq_ok_iff.mpr ⟨?names, ?condition⟩⟩
    case names => exact ⟨names.model, names.resource, names.access⟩
    case condition => exact (filterOfFields_eq_ok_iff given).mpr read

/-- A description with options is accepted if it names model, resource and access, and the options, cut
down to their filter, are accepted as those of a query. Then the permission is compiled exactly if some
query with these is, and has the filter behind a question mark, as the query has it behind `$filter=`,
exactly if the options have one. Nothing asks whether the options are an object: any other value, which a
query refuses, has no filter, and the permission goes for all instances. -/
theorem filter_kept {document options : Json} (given : document.field? "options" = some options) :
    ((∃ permission, ofJson document = .ok permission) ↔
      (∃ named, NamedIn document named) ∧
        ∃ reduced, Options.ofJson options.filterAlone = .ok reduced) ∧
      ∀ permission, ofJson document = .ok permission → NamedIn document permission ∧
        ∃ reduced, Options.ofJson options.filterAlone = .ok reduced ∧
          ((∃ text, permission.compile = .ok text) ↔
            ∃ resource url, (Query.ofOptions resource reduced).compile.outcome = .ok url) ∧
          (options.field? "$filter" = none → permission.compile = .ok permission.scope) ∧
          (options.field? "$filter" ≠ none → ∀ text, permission.compile = .ok text →
            ∃ written, text = permission.scope ++ '?' :: written ∧
              ∀ resource, ¬ "/$count".toList.isSuffixOf resource.toList →
                (Query.ofOptions resource reduced).compile.outcome =
                  .ok (Uri.encodeResource (.single resource) ++ "?$filter=".toList ++ written)) ∧
          ((∀ fields, options ≠ .object fields) →
            Options.ofJson options = .error (.shape (.optionsKind options.typeName)) ∧
              permission.compile = .ok permission.scope) := by
  cases document with
  | null | bool _ | number _ | string _ | array _ => cases given
  | object fields =>
    have lookup : fields.lookup "options" = some options := given
    refine ⟨accepted_iff lookup, fun permission accepted => ?_⟩
    obtain ⟨named, condition⟩ := ofJson_object_eq_ok_iff.mp accepted
    have filtered := filter_eq_none_iff lookup condition
    have unfiltered (missing : options.field? "$filter" = none) :
        permission.compile = .ok permission.scope := compile_of_none (filtered.mpr missing)
    refine ⟨named, _, (filterOfFields_eq_ok_iff lookup).mp condition, compiles_iff permission,
      unfiltered, fun found text run => ?_, fun other => ?_⟩
    · obtain ⟨filter, own⟩ := Option.ne_none_iff_exists'.mp (filtered.not.mpr found)
      rw [compile_of_some own] at run
      obtain ⟨written, compiled, rfl⟩ := map_eq_ok_iff.mp run
      refine ⟨written, rfl, fun resource uncounted => ?_⟩
      rw [own]
      exact (Query.compile_ofOptions_filter uncounted filter).trans
        (map_eq_ok_iff.mpr ⟨written, compiled, rfl⟩)
    · obtain ⟨refused, missing⟩ := Options.ofJson_of_not_object other
      exact ⟨refused, unfiltered missing⟩

/-- Of several options the filter alone counts, which the rest of the text is made of. -/
theorem filter_kept_actor :
    ∃ permission, ofJson (.object [("modelName", .string "resin"), ("resource", .string "actor"),
        ("access", .string "delete"), ("options", .object [("$top", .null),
          ("$filter", .object [("id", .object [("@", .string "me")])])])]) = .ok permission ∧
      permission.compile = .ok "resin.actor.delete?id eq @me".toList ∧
      ∃ reduced, Options.ofJson (.object [("$filter",
          .object [("id", .object [("@", .string "me")])])]) = .ok reduced ∧
        (Query.ofOptions "actor" reduced).compile.outcome = .ok "actor?$filter=id eq @me".toList := by
  have accepted : ofJson (.object [("modelName", .string "resin"), ("resource", .string "actor"),
      ("access", .string "delete"), ("options", .object [("$top", .null),
        ("$filter", .object [("id", .object [("@", .string "me")])])])]) =
      .ok ⟨"resin", "actor", "delete",
        some (.object [.property "id" (.object [.parameter "me"])])⟩ := rfl
  have compiled : (Permission.mk "resin" "actor" "delete"
      (some (.object [.property "id" (.object [.parameter "me"])]))).compile =
      .ok ("resin.actor.delete".toList ++ '?' :: "id eq @me".toList) := rfl
  obtain ⟨_, reduced, read, _, _, filtered, _⟩ := (filter_kept rfl).2 _ accepted
  obtain ⟨written, same, query⟩ := filtered (Option.some_ne_none _) _ compiled
  obtain rfl : "id eq @me".toList = written :=
    (List.cons.inj (List.append_cancel_left same)).2
  exact ⟨_, accepted, compiled, reduced, read, query "actor" (by decide)⟩

/-- Options in a list are accepted, and the filter among them is lost. -/
theorem filter_lost_in_list :
    ¬ ∀ (document options : Json), document.field? "options" = some options → options ≠ .null →
      (∀ fields, options ≠ .object fields) →
        ∀ permission, ofJson document = .ok permission → permission.compile ≠ .ok permission.scope := by
  intro never
  have accepted : ofJson (.object [("modelName", .string "resin"), ("resource", .string "actor"),
      ("access", .string "delete"),
      ("options", .array [.object [("$filter", .object [("name", .string "x")])]])]) =
      .ok ⟨"resin", "actor", "delete", none⟩ := rfl
  refine never _ (.array [.object [("$filter", .object [("name", .string "x")])]]) rfl ?_ ?_ _
    accepted rfl
  · exact nofun
  · exact nofun

end Permission

end OData
