import Mathlib
import OData.Proofs.Query.Parameters
import OData.Proofs.Uri.Decoding

namespace OData

open Text
open Compilation (bind_eq_ok)

namespace Query

/-- The query part of a url, cut at the ampersands. -/
def queryParts (url : Text) : List Text :=
  if '?' ∈ url then (behind '?' url).splitOn '&' else []

/-- What the definition of an alias adds to the parts of a query. -/
def definitionParts (definition : String × Primitive) : List Text :=
  (Options.definitionText definition).splitOn '&'

/-- A part in which references to an alias find its value: the key is decoded to what a reference is
decoded to. -/
def Defines (part : Text) (definition : String × Primitive) : Prop :=
  Uri.decode? (before '=' part) = Uri.decode? (Uri.encodeAlias definition.1) ∧
    behind '=' part = definition.2.literal

/-- A name that can be written as it is. An ampersand would cut the definition in two, an equals
sign would end the key early, and an escape would be decoded to something else. -/
structure IsPlainAlias (name : String) : Prop where
  unseparated : '&' ∉ name.toList
  unassigned : '=' ∉ name.toList
  unescaped : Uri.Unescaped name.toList

theorem queryParts_behind_path {path : Text} (plain : '?' ∉ path) (text : Text) :
    queryParts (path ++ '?' :: text) = text.splitOn '&' := by
  rw [queryParts, if_pos (List.mem_append_right path (List.mem_cons_self ..)), behind_append plain]

theorem queryParts_behind_parts {url : Text} (marked : '?' ∈ url) (text : Text) :
    queryParts (url ++ '&' :: text) = queryParts url ++ text.splitOn '&' := by
  obtain ⟨path, rest, rfl, plain⟩ := List.eq_append_cons_of_mem marked
  rw [List.append_assoc, List.cons_append, queryParts_behind_path plain, queryParts_behind_path plain,
    List.splitOn_append_cons_self]

theorem queryParts_withAliases (url : Text) (aliases : List (String × Primitive)) :
    queryParts (withAliases url aliases) = queryParts url ++ aliases.flatMap definitionParts := by
  cases aliases with
  | nil => exact (List.append_nil _).symm
  | cons first others =>
    have spliced : withAliases url (first :: others) = url ++ (if '?' ∈ url then '&' else '?') ::
        join ['&'] ((first :: others).map Options.definitionText) := rfl
    have pieces : (join ['&'] ((first :: others).map Options.definitionText)).splitOn '&' =
        (first :: others).flatMap definitionParts := by
      have some : (first :: others).map Options.definitionText ≠ [] := List.cons_ne_nil _ _
      rw [splitOn_join_eq_flatMap some, List.flatMap_map]
      rfl
    rw [spliced]
    by_cases marked : '?' ∈ url
    · rw [if_pos marked, queryParts_behind_parts marked, pieces]
    · rw [if_neg marked, queryParts_behind_path marked, pieces, queryParts, if_neg marked,
        List.nil_append]

/-- A definition is read as what it defines exactly if its name is plain. -/
theorem defines_definitionText_iff (definition : String × Primitive) :
    Defines (Options.definitionText definition) definition ↔
      '=' ∉ definition.1.toList ∧ Uri.Unescaped definition.1.toList := by
  obtain ⟨name, value⟩ := definition
  have text : Options.definitionText (name, value) =
      ('@' :: name.toList) ++ '=' :: value.literal := rfl
  rw [Defines, Uri.decode?_encodeAlias, text]
  by_cases assigned : '=' ∈ name.toList
  · refine iff_of_false (fun ⟨_, read⟩ => ?_) fun plain => plain.1 assigned
    -- the value would begin inside of the name
    obtain ⟨front, rest, split, free⟩ := List.eq_append_cons_of_mem assigned
    have opening : '=' ∉ '@' :: front := by
      rw [List.mem_cons, not_or]
      exact ⟨by decide, free⟩
    rw [split, ← List.cons_append, List.append_assoc, List.cons_append] at read
    have ends := (behind_append opening (rest ++ '=' :: value.literal)).symm.trans read
    have lengths := congrArg List.length ends
    simp only [List.length_append, List.length_cons] at lengths
    omega
  · have opening : '=' ∉ '@' :: name.toList := by
      rw [List.mem_cons, not_or]
      exact ⟨by decide, assigned⟩
    rw [before_append opening, behind_append opening, Uri.decode?_eq_self_iff,
      Uri.unescaped_cons_of_ne (by decide)]
    exact and_comm.trans (and_congr_left' (iff_of_true rfl assigned))

theorem ampersand_mem_definitionText_iff {definition : String × Primitive} :
    '&' ∈ Options.definitionText definition ↔ '&' ∈ definition.1.toList := by
  have literal : '&' ∉ definition.2.literal := fun member =>
    Primitive.literal_unseparated definition.2 _ member (by decide)
  have marks : '&' ≠ '@' ∧ '&' ≠ '=' := by decide
  simp only [Options.definitionText, List.cons_append, List.mem_cons, List.mem_append, marks.1,
    marks.2, literal, false_or, or_false]

theorem definitionParts_iff (definition : String × Primitive) :
    (∃ part, definitionParts definition = [part] ∧ Defines part definition) ↔
      IsPlainAlias definition.1 := by
  simp only [definitionParts, splitOn_eq_singleton_iff, ampersand_mem_definitionText_iff, and_assoc]
  constructor
  · rintro ⟨part, unseparated, rfl, defines⟩
    obtain ⟨unassigned, unescaped⟩ := (defines_definitionText_iff definition).mp defines
    exact ⟨unseparated, unassigned, unescaped⟩
  · rintro ⟨unseparated, unassigned, unescaped⟩
    exact ⟨_, unseparated, rfl,
      (defines_definitionText_iff definition).mpr ⟨unassigned, unescaped⟩⟩

theorem compileList_definition {front rest : Options} {definition : String × Primitive}
    {texts : List Text}
    (run : (Options.compileList (front ++ .ofAlias definition :: rest)).outcome = .ok texts) :
    ∃ earlier later, (Options.compileList front).outcome = .ok earlier ∧
      (Options.compileList rest).outcome = .ok later ∧
      texts = earlier ++ Options.definitionText definition :: later := by
  rw [Options.compileList_append] at run
  obtain ⟨earlier, compiled, run⟩ := bind_eq_ok.mp run
  obtain ⟨others, behind, run⟩ := bind_eq_ok.mp run
  obtain rfl := Except.ok.inj run
  have alone : QueryOption.ofAlias definition :: rest = [definition].map QueryOption.ofAlias ++ rest := rfl
  rw [alone, Options.compileList_append, Options.compileList_ofAlias, pure_bind] at behind
  obtain ⟨later, last, behind⟩ := bind_eq_ok.mp behind
  obtain rfl := Except.ok.inj behind
  exact ⟨earlier, later, compiled, last, rfl⟩

/-- Among the options, a definition adds its parts between those of the options around it. -/
theorem queryParts_withParts {path : Text} {front rest : Options}
    {definition : String × Primitive} {earlier later : List Text}
    (compiled : (Options.compileList front).outcome = .ok earlier)
    (run : (Options.compileList (front ++ .ofAlias definition :: rest)).outcome =
      .ok (earlier ++ Options.definitionText definition :: later))
    (plain : front = [] → '?' ∉ path) :
    queryParts (withParts path (earlier ++ Options.definitionText definition :: later)) =
      queryParts (withParts path earlier) ++ definitionParts definition ++
        later.flatMap (·.splitOn '&') := by
  have own := Options.compileList_eq_ok compiled
  have pieces : (join ['&'] (Options.definitionText definition :: later)).splitOn '&' =
      definitionParts definition ++ later.flatMap (·.splitOn '&') := by
    rw [splitOn_join_eq_flatMap (List.cons_ne_nil _ _), List.flatMap_cons, definitionParts]
  rw [withParts_of_ne_nil path (Options.compileList_eq_ok run)
    (List.append_ne_nil_of_right_ne_nil earlier (List.cons_ne_nil _ _)), List.append_assoc, ← pieces]
  cases own with
  | nil =>
    have free := plain rfl
    have alone : queryParts (withParts path []) = [] := if_neg free
    rw [alone, List.nil_append, List.nil_append, queryParts_behind_path free]
  | @cons option text front others first own =>
    have several : text :: others ≠ [] := List.cons_ne_nil _ _
    have marked : '?' ∈ path ++ '?' :: join ['&'] (text :: others) :=
      List.mem_append_right path (List.mem_cons_self ..)
    rw [withParts_of_ne_nil path (.cons first own) several, ← queryParts_behind_parts marked,
      join_append ['&'] several (List.cons_ne_nil _ _)]
    simp only [List.append_assoc, List.cons_append, List.nil_append]

theorem exists_defines_of_isPlainAlias {definition : String × Primitive} {parts earlier later : List Text}
    (plain : IsPlainAlias definition.1) (split : parts = earlier ++ definitionParts definition ++ later) :
    ∃ part ∈ parts, Defines part definition := by
  obtain ⟨part, alone, defines⟩ := (definitionParts_iff definition).mpr plain
  refine ⟨part, ?_, defines⟩
  rw [split, alone]
  exact List.mem_append_left later (List.mem_append_right earlier (List.mem_singleton_self part))

/-- The parts of a compiled query around the definition of an alias among its options. Only a first
option needs a path without question marks: behind others the query part has already begun. -/
theorem queryParts_compile {query : Query} {url : Text} (described : query.url = none)
    (run : query.compile.outcome = .ok url) {front rest : Options} {definition : String × Primitive}
    (options : query.effectiveOptions = front ++ .ofAlias definition :: rest)
    (plain : front = [] → query.HasPlainPath) :
    ∃ path earlier later, query.withoutOptions.compile.outcome = .ok path ∧
      (Options.compileList front).outcome = .ok earlier ∧
      (Options.compileList rest).outcome = .ok later ∧
      queryParts url = queryParts (withParts path earlier) ++ definitionParts definition ++
        later.flatMap (·.splitOn '&') := by
  obtain ⟨resource, path, texts, named, found, compiled, written⟩ := compile_eq_ok described run
  rw [options] at compiled
  obtain ⟨earlier, later, first, last, rfl⟩ := compileList_definition compiled
  have bare := compile_withoutOptions described named found
  have free : front = [] → '?' ∉ query.wholePath path := fun empty => (plain empty).wholePath found
  have parts := queryParts_withParts first compiled free
  exact ⟨query.wholePath path, earlier, later, bare, first, last, written ▸ parts⟩

/-- Every definition of an alias, among the options of a query or with a call of it, adds parts of its
own to the query part, between those of its neighbours. It adds a single one, and the one that the
references to the alias look for, exactly if the name of the alias is plain; so such references find
their value. -/
theorem alias_definitions {query : Query} {url : Text} (described : query.url = none)
    (run : query.compile.outcome = .ok url) (aliases : List (String × Primitive)) :
    (∀ front definition rest, query.effectiveOptions = front ++ .ofAlias definition :: rest →
      (front = [] → query.HasPlainPath) →
      (∃ path earlier later, query.withoutOptions.compile.outcome = .ok path ∧
        (Options.compileList front).outcome = .ok earlier ∧
        (Options.compileList rest).outcome = .ok later ∧
        queryParts (withAliases url aliases) =
          queryParts (withParts path earlier) ++ definitionParts definition ++
            (later.flatMap (·.splitOn '&') ++ aliases.flatMap definitionParts)) ∧
      (IsPlainAlias definition.1 →
        ∃ part ∈ queryParts (withAliases url aliases), Defines part definition)) ∧
    (∀ front definition rest, aliases = front ++ definition :: rest →
      queryParts (withAliases url aliases) =
        queryParts (withAliases url front) ++ definitionParts definition ++
          rest.flatMap definitionParts ∧
      (IsPlainAlias definition.1 →
        ∃ part ∈ queryParts (withAliases url aliases), Defines part definition)) ∧
    ∀ definition, (∃ part, definitionParts definition = [part] ∧ Defines part definition) ↔
      IsPlainAlias definition.1 := by
  refine ⟨?options, ?call, definitionParts_iff⟩
  case options =>
    intro front definition rest options plain
    obtain ⟨path, earlier, later, bare, first, last, parts⟩ :=
      queryParts_compile described run options plain
    have split : queryParts (withAliases url aliases) =
        queryParts (withParts path earlier) ++ definitionParts definition ++
          (later.flatMap (·.splitOn '&') ++ aliases.flatMap definitionParts) := by
      rw [queryParts_withAliases, parts, List.append_assoc]
    exact ⟨⟨path, earlier, later, bare, first, last, split⟩,
      fun named => exists_defines_of_isPlainAlias named split⟩
  case call =>
    rintro front definition rest rfl
    have split : queryParts (withAliases url (front ++ definition :: rest)) =
        queryParts (withAliases url front) ++ definitionParts definition ++
          rest.flatMap definitionParts := by
      rw [queryParts_withAliases, queryParts_withAliases, List.flatMap_append, List.flatMap_cons]
      simp only [List.append_assoc]
    exact ⟨split, fun named => exists_defines_of_isPlainAlias named split⟩

/-- A blank and a percent sign are no marks. -/
theorem alias_definitions_blank :
    (Query.compile { resource := some "pilot"
                     options := some [.filter (.ofProperty "name" (.object [.parameter "5% x"])),
                       .parameter "5% x" (.string "y")] }).outcome =
        .ok "pilot?$filter=name eq @5%25%20x&@5% x='y'".toList ∧
      ∃ part ∈ queryParts (withAliases "pilot?$filter=name eq @5%25%20x&@5% x='y'".toList []),
        Defines part ("5% x", .string "y") := by
  have run : (Query.compile { resource := some "pilot"
                              options := some
                                [.filter (.ofProperty "name" (.object [.parameter "5% x"])),
                                  .parameter "5% x" (.string "y")] }).outcome =
      .ok "pilot?$filter=name eq @5%25%20x&@5% x='y'".toList := rfl
  have plain : IsPlainAlias "5% x" :=
    ⟨by decide, by decide, Uri.decodedBytes_eq_iff.mp (by decide)⟩
  have options := (alias_definitions rfl run []).1
    [.filter (.ofProperty "name" (.object [.parameter "5% x"]))] ("5% x", .string "y") [] rfl nofun
  exact ⟨run, options.2 plain⟩

/-- An ampersand is one: the reference is to `@a&b`, and no part is its definition. -/
theorem alias_cut_at_ampersand :
    (Query.compile { resource := some "pilot"
                     options := some [.filter (.ofProperty "name" (.object [.parameter "a&b"])),
                       .parameter "a&b" (.string "x")] }).outcome =
        .ok "pilot?$filter=name eq @a%26b&@a&b='x'".toList ∧
      Uri.encodeAlias "a&b" = "@a%26b".toList ∧
      ¬ ∃ part ∈ queryParts "pilot?$filter=name eq @a%26b&@a&b='x'".toList,
        Defines part ("a&b", .string "x") := by
  have parts : queryParts "pilot?$filter=name eq @a%26b&@a&b='x'".toList =
      ["$filter=name eq @a%26b".toList, "@a".toList, "b='x'".toList] := by decide
  refine ⟨rfl, by decide, ?_⟩
  rintro ⟨part, member, key, _⟩
  have plain : '%' ∉ before '=' part := by
    rw [parts] at member
    revert part
    decide
  rw [Uri.decode?_encodeAlias, Uri.decode?_eq_self_iff.mpr (Uri.unescaped_of_not_mem plain)] at key
  have named := Option.some.inj key
  rw [parts] at member
  revert part
  decide

end Query

end OData
