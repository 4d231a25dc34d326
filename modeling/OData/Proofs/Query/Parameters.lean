import Mathlib
import OData.Client.Prepared
import OData.Proofs.Query.Structure

namespace OData

open Text

/-- An alias with its value as an option of a query. -/
def QueryOption.ofAlias (definition : String × Primitive) : QueryOption :=
  .parameter definition.1 definition.2

namespace Options

/-- The options with more of them at their end. Where they are a count and nothing else, the end is
inside the count. -/
def extendedBy (more : Options) : Options → Options
  | [.count inner] => [.count (inner ++ more)]
  | options => options ++ more

/-- A count among options stands alone. -/
def CountsAlone (options : Options) : Prop := (count? options).isSome → options.length ≤ 1

/-- The only options with a count that are compiled at all are a wrapper. -/
theorem CountsAlone.cases {options : Options} (alone : CountsAlone options) :
    (∃ inner, options = [.count inner]) ∨ count? options = none := by
  cases found : count? options with
  | none => exact Or.inr rfl
  | some inner =>
    have short : options.length ≤ 1 := alone (Option.isSome_iff_exists.mpr ⟨inner, found⟩)
    obtain ⟨option, member, isCount⟩ := List.exists_of_findSome?_eq_some found
    obtain rfl : options = [option] := by
      have nonempty := List.length_pos_of_mem member
      obtain ⟨only, rfl⟩ := List.length_eq_one_iff.mp (by omega : options.length = 1)
      rw [List.mem_singleton.mp member]
    cases option with
    | count other => exact Or.inl ⟨other, rfl⟩
    | _ => cases isCount

theorem extendedBy_of_ne_count {options : Options} (other : ∀ inner, options ≠ [.count inner])
    (more : Options) : extendedBy more options = options ++ more := by
  unfold extendedBy
  split
  · exact absurd rfl (other _)
  · rfl

theorem compileList_append (options more : Options) :
    compileList (options ++ more) = (do
      let texts ← compileList options
      let others ← compileList more
      return texts ++ others) := by
  induction options with
  | nil =>
    have whole : (do
        let others ← compileList more
        return ([] ++ others : List Text)) = compileList more := bind_pure _
    exact whole.symm
  | cons option options ih =>
    simp only [List.cons_append, compileList, ih, bind_assoc, pure_bind]

/-- The definition of an alias in a query string. -/
def definitionText (definition : String × Primitive) : Text :=
  '@' :: definition.1.toList ++ '=' :: definition.2.literal

theorem compileList_ofAlias (aliases : List (String × Primitive)) :
    compileList (aliases.map QueryOption.ofAlias) = pure (aliases.map definitionText) := by
  induction aliases with
  | nil => rfl
  | cons definition aliases ih =>
    have first : (QueryOption.ofAlias definition).compile = pure (definitionText definition) := by
      simp only [QueryOption.ofAlias, QueryOption.compile, QueryOption.assign, QueryOption.key,
        String.toList_ofList]
      rfl
    rw [List.map_cons, compileList, ih, first]
    rfl

theorem count?_append_ofAlias (options : Options) (aliases : List (String × Primitive)) :
    count? (options ++ aliases.map QueryOption.ofAlias) = count? options := by
  have none : count? (aliases.map QueryOption.ofAlias) = none := by
    refine List.findSome?_eq_none_iff.mpr fun option member => ?_
    obtain ⟨definition, _, rfl⟩ := List.mem_map.mp member
    rfl
  rw [count?, List.findSome?_append, ← count?, ← count?, none, Option.or_none]

/-- More options do not make a count stand alone. -/
theorem not_countsAlone_extendedBy {options : Options} (several : ¬ CountsAlone options)
    (aliases : List (String × Primitive)) :
    ¬ CountsAlone (extendedBy (aliases.map QueryOption.ofAlias) options) := by
  have other (inner : Options) : options ≠ [.count inner] := by
    rintro rfl
    exact several fun _ => Nat.le_refl 1
  intro alone
  refine several fun counted => ?_
  rw [extendedBy_of_ne_count other, CountsAlone, count?_append_ofAlias,
    List.length_append] at alone
  have short := alone counted
  omega

end Options

namespace Query

def withParts (path : Text) (parts : List Text) : Text :=
  if (join ['&'] parts).isEmpty then path else path ++ '?' :: join ['&'] parts

theorem withOptions_eq_bind (path : Text) (options : Options) :
    withOptions path options = (do
      let parts ← Options.compileList options
      return withParts path parts) := by
  rw [withOptions, Options.compile, map_eq_pure_bind, bind_assoc]
  simp only [pure_bind]
  rfl

/-- A compiled option is never empty, so the parts of several options show behind the path. -/
theorem withParts_of_ne_nil (path : Text) {options : Options} {parts : List Text}
    (own : List.Forall₂ (fun option text => option.compile.outcome = .ok text) options parts)
    (several : parts ≠ []) : withParts path parts = path ++ '?' :: join ['&'] parts := by
  refine if_neg fun empty => several ?_
  rw [(join_isEmpty own).mp empty] at own
  exact List.forall₂_nil_left_iff.mp own

/-- Behind a path without a question mark, the separator that the text calls for is the one that
stands between options. -/
theorem withAliases_withParts {path : Text} (plain : '?' ∉ path) {options : Options}
    {parts : List Text} (aliases : List (String × Primitive))
    (compiled : (Options.compileList options).outcome = .ok parts) :
    withParts path (parts ++ aliases.map Options.definitionText) =
      withAliases (withParts path parts) aliases := by
  cases aliases with
  | nil => rw [List.map_nil, List.append_nil]; rfl
  | cons first others =>
    have own := Options.compileList_eq_ok compiled
    have defined := Options.compileList_eq_ok
      (congrArg Compilation.outcome (Options.compileList_ofAlias (first :: others)))
    have definitions : (first :: others).map Options.definitionText ≠ [] := List.cons_ne_nil _ _
    have whole : withParts path (parts ++ (first :: others).map Options.definitionText) =
        path ++ '?' :: join ['&'] (parts ++ (first :: others).map Options.definitionText) :=
      withParts_of_ne_nil path (List.rel_append own defined)
        (List.append_ne_nil_of_right_ne_nil parts definitions)
    have spliced (url : Text) : withAliases url (first :: others) =
        url ++ (if '?' ∈ url then '&' else '?') ::
          join ['&'] ((first :: others).map Options.definitionText) := rfl
    rw [whole, spliced]
    by_cases several : parts = []
    · rw [several]
      have alone : withParts path [] = path := rfl
      rw [alone, if_neg plain, List.nil_append]
    · have written := withParts_of_ne_nil path own several
      have marked : '?' ∈ withParts path parts := by
        rw [written]
        exact List.mem_append_right _ (List.mem_cons_self ..)
      rw [if_pos marked, written, join_append ['&'] several definitions]
      simp only [List.append_assoc, List.cons_append, List.nil_append]

theorem withOptions_append_ofAlias {path : Text} (plain : '?' ∉ path) (options : Options)
    (aliases : List (String × Primitive)) :
    withOptions path (options ++ aliases.map QueryOption.ofAlias) =
      (withAliases · aliases) <$> withOptions path options := by
  rw [withOptions_eq_bind, withOptions_eq_bind, Options.compileList_append,
    Options.compileList_ofAlias, map_eq_pure_bind]
  simp only [bind_assoc, pure_bind]
  refine Compilation.bind_congr fun parts compiled => ?_
  rw [withAliases_withParts plain aliases compiled]

theorem compileOptions_extendedBy {path : Text} (plain : '?' ∉ path) {options : Options}
    (alone : options.CountsAlone) (aliases : List (String × Primitive)) :
    compileOptions path (Options.extendedBy (aliases.map QueryOption.ofAlias) options) =
      (withAliases · aliases) <$> compileOptions path options := by
  have counted : '?' ∉ path ++ "/$count".toList := fun member =>
    (List.mem_append.mp member).elim plain (by decide)
  rcases alone.cases with ⟨inner, rfl⟩ | uncounted
  · exact withOptions_append_ofAlias counted inner aliases
  · have still := Options.count?_append_ofAlias options aliases
    rw [uncounted] at still
    have other (inner : Options) : options ≠ [.count inner] := by
      rintro rfl
      cases uncounted
    rw [Options.extendedBy_of_ne_count other, compileOptions, compileOptions, uncounted, still]
    exact withOptions_append_ofAlias plain options aliases

theorem compileOptions_not_countsAlone {options : Options} (path : Text)
    (several : ¬ options.CountsAlone) :
    compileOptions path options = .fail (.shape (.countAlone (Options.keys options))) := by
  unfold Options.CountsAlone at several
  rw [Classical.not_imp, Nat.not_le] at several
  obtain ⟨inner, found⟩ := Option.isSome_iff_exists.mp several.1
  rw [compileOptions, found]
  exact if_pos several.2

/-- The query with parameter aliases as its last options. -/
def withParameters (aliases : List (String × Primitive)) (query : Query) : Query :=
  { query with
    options := some
      (Options.extendedBy (aliases.map QueryOption.ofAlias) (query.options.getD [])) }

/-- No question mark stands in what is written as it is into the path of the query. -/
structure HasPlainPath (query : Query) : Prop where
  action : ∀ action, query.action = some action → '?' ∉ action.toList
  keys : ∀ keys, query.id = some (.composite keys) → ∀ entry ∈ keys, '?' ∉ entry.1.toList

theorem HasPlainPath.compilePath {query : Query} (plain : query.HasPlainPath) {resource : String}
    {path : Text} (run : compilePath resource query.id query.action = .ok path) : '?' ∉ path := by
  have avoids : Avoids ['?'] path := by
    refine compilePath_avoids (by decide) ?_ ?_ run
    · intro name member c inName isMark
      obtain rfl := List.mem_singleton.mp isMark
      cases identified : query.id with
      | none => rw [identified] at member; cases member
      | some id =>
        rw [identified] at member
        cases id with
        | composite keys =>
          obtain ⟨entry, found, rfl⟩ := List.mem_map.mp member
          exact plain.keys keys identified entry found inName
        | value scalar => cases member
        | parameter name => cases member
    · intro action member c inAction isMark
      obtain rfl := List.mem_singleton.mp isMark
      exact plain.action action (Option.mem_toList.mp member) inAction
  exact fun member => avoids _ member (List.mem_singleton_self _)

theorem HasPlainPath.wholePath {query : Query} (plain : query.HasPlainPath) {resource : String}
    {path : Text} (run : Query.compilePath resource query.id query.action = .ok path) :
    '?' ∉ query.wholePath path := by
  have free := plain.compilePath run
  unfold Query.wholePath
  split
  · exact fun member => (List.mem_append.mp member).elim free (by decide)
  · exact free

/-- A query without options is compiled as one with an empty list of them. -/
theorem compile_eq_bind (query : Query) {resource : String} (described : query.url = none)
    (named : query.resource = some resource) :
    query.compile = (do
      let path ← Compilation.lift (compilePath resource query.id query.action)
      compileOptions path (query.options.getD [])) := by
  unfold compile
  rw [described, named]
  refine Compilation.bind_congr fun path _ => ?_
  cases query.options with
  | none => rfl
  | some options => rfl

variable {query : Query} (aliases : List (String × Primitive))

theorem compile_withParameters_of_countsAlone (described : query.url = none)
    (plain : query.HasPlainPath) (alone : Options.CountsAlone (query.options.getD [])) :
    (query.withParameters aliases).compile = (withAliases · aliases) <$> query.compile := by
  cases named : query.resource with
  | none =>
    unfold compile
    rw [withParameters, described, named]
    rfl
  | some resource =>
    rw [compile_eq_bind (query.withParameters aliases) described named,
      compile_eq_bind query described named, map_bind]
    refine Compilation.bind_congr fun path run => ?_
    exact compileOptions_extendedBy (plain.compilePath run) alone aliases

/-- Where a count does not stand alone, more options do not help. -/
theorem compile_fails_of_not_countsAlone (query : Query) (described : query.url = none)
    (several : ¬ Options.CountsAlone (query.options.getD [])) (url : Text) :
    query.compile.outcome ≠ .ok url := by
  intro run
  obtain ⟨resource, path, _, named, _, _⟩ := compile_eq_ok described run
  rw [compile_eq_bind query described named] at run
  obtain ⟨found, _, run⟩ := Compilation.bind_eq_ok.mp run
  rw [compileOptions_not_countsAlone found several] at run
  cases run

/-- Aliases as options make a compilable query compile to the same text with their definitions behind
it, and with the same reports. -/
theorem compile_withParameters {url : Text} (described : query.url = none)
    (plain : query.HasPlainPath) (run : query.compile.outcome = .ok url) :
    (query.withParameters aliases).compile = (withAliases · aliases) <$> query.compile := by
  refine compile_withParameters_of_countsAlone aliases described plain ?_
  by_contra several
  exact compile_fails_of_not_countsAlone query described several url run

/-- Aliases as options do not decide whether a query compiles. -/
theorem compiles_withParameters_iff (described : query.url = none) (plain : query.HasPlainPath) :
    (∃ url, (query.withParameters aliases).compile.outcome = .ok url) ↔
      ∃ url, query.compile.outcome = .ok url := by
  constructor
  · rintro ⟨url, run⟩
    by_cases alone : Options.CountsAlone (query.options.getD [])
    · rw [compile_withParameters_of_countsAlone aliases described plain alone] at run
      obtain ⟨bare, compiled, _⟩ := Compilation.map_eq_ok.mp run
      exact ⟨bare, compiled⟩
    · have several := Options.not_countsAlone_extendedBy alone aliases
      exact absurd run
        (compile_fails_of_not_countsAlone (query.withParameters aliases) described several url)
  · rintro ⟨url, run⟩
    refine ⟨withAliases url aliases, ?_⟩
    rw [compile_withParameters aliases described plain run]
    exact Compilation.map_eq_ok.mpr ⟨url, run, rfl⟩

end Query

end OData
