import Mathlib
import OData.Query.Compile
import OData.Proofs.Query.Verbatim

namespace OData

open Text

/-- The part of a text before the first mark. -/
def Text.before (mark : Char) (text : Text) : Text := text.takeWhile (· ≠ mark)

/-- The part of a text behind the first mark; nothing where there is none. -/
def Text.behind (mark : Char) (text : Text) : Text := (text.dropWhile (· ≠ mark)).tail

theorem Text.before_append {mark : Char} {front : Text} (free : mark ∉ front) (rest : Text) :
    before mark (front ++ mark :: rest) = front := by
  induction front with
  | nil => simp [before]
  | cons c front ih =>
    rw [List.mem_cons, not_or] at free
    have later := ih free.2
    simp only [before, List.cons_append] at later ⊢
    rw [List.takeWhile_cons_of_pos (by simpa using Ne.symm free.1), later]

theorem Text.before_of_not_mem {mark : Char} {text : Text} (free : mark ∉ text) :
    before mark text = text := by
  refine List.takeWhile_eq_self_iff.mpr fun c member => ?_
  simp only [decide_eq_true_eq]
  rintro rfl
  exact free member

theorem Text.behind_append {mark : Char} {front : Text} (free : mark ∉ front) (rest : Text) :
    behind mark (front ++ mark :: rest) = rest := by
  induction front with
  | nil => simp [behind]
  | cons c front ih =>
    rw [List.mem_cons, not_or] at free
    have later := ih free.2
    simp only [behind, List.cons_append] at later ⊢
    rw [List.dropWhile_cons_of_pos (by simpa using Ne.symm free.1), later]

namespace Query

/-- The options that the query string is made of: those of a count wrapper where there is one. -/
def effectiveOptions (query : Query) : Options :=
  match query.options with
  | none => []
  | some options => (Options.count? options).getD options

/-- The same query without options; a count wrapper stays, with nothing in it. -/
def withoutOptions (query : Query) : Query :=
  { query with options := query.options.map fun options =>
      if (Options.count? options).isSome then Options.counted [] else [] }

end Query

/-- The names of a composite key; they are written as they are, and nothing else of an id is. -/
def ResourceId.verbatim : ResourceId → List String
  | .composite keys => keys.map Prod.fst
  | _ => []

/-- The texts that the compilation of a query writes verbatim. -/
def Query.verbatim (query : Query) : List String :=
  query.action.toList ++ (query.id.map ResourceId.verbatim).getD [] ++
    QueryOption.listVerbatim query.effectiveOptions

/-- Names that an equals sign follows, as far as a description chooses them. -/
def QueryOption.names : QueryOption → List String
  | .parameter name _ => [name]
  | .custom name _ => [name]
  | _ => []

def Query.names (query : Query) : List String :=
  (query.id.map ResourceId.verbatim).getD [] ++ query.effectiveOptions.flatMap QueryOption.names

open Compilation (bind_eq_ok map_eq_ok)

/-- An option is written as its key, an equals sign and its value. -/
theorem QueryOption.compile_assign {option : QueryOption} {part : Text}
    (run : option.compile.outcome = .ok part) : ∃ value, part = assign option.key value := by
  cases option with
  | filter filter =>
    obtain ⟨value, _, rfl⟩ := map_eq_ok.mp run
    exact ⟨value, rfl⟩
  | expand expand =>
    obtain ⟨value, _, rfl⟩ := map_eq_ok.mp run
    exact ⟨value, rfl⟩
  | orderBy ordering =>
    obtain ⟨value, _, rfl⟩ := map_eq_ok.mp run
    exact ⟨value, rfl⟩
  | select select =>
    obtain ⟨value, _, rfl⟩ := map_eq_ok.mp run
    exact ⟨value, rfl⟩
  | top count => exact ⟨_, (Except.ok.inj run).symm⟩
  | skip count => exact ⟨_, (Except.ok.inj run).symm⟩
  | format format => exact ⟨_, (Except.ok.inj run).symm⟩
  | parameter name value => exact ⟨_, (Except.ok.inj run).symm⟩
  | count inner => cases run
  | custom name value =>
    rw [compile] at run
    split at run
    · cases run
    · exact ⟨_, (Except.ok.inj run).symm⟩

theorem QueryOption.key_avoids {option : QueryOption}
    (names : ∀ name ∈ option.names, Avoids ['=', ','] name.toList) : '=' ∉ option.key.toList := by
  cases option with
  | parameter name value =>
    have own := names name (List.mem_singleton_self name)
    rw [key, String.toList_ofList, List.mem_cons, not_or]
    exact ⟨by decide, fun member => own _ member (by decide)⟩
  | custom name value =>
    have own := names name (List.mem_singleton_self name)
    exact fun member => own _ member (by decide)
  | filter _ | expand _ | orderBy _ | top _ | skip _ | select _ | format _ | count _ =>
    rw [key]
    decide

theorem Options.compileList_eq_ok {options : Options} {texts : List Text}
    (run : (compileList options).outcome = .ok texts) :
    List.Forall₂ (fun option text => option.compile.outcome = .ok text) options texts := by
  induction options generalizing texts with
  | nil =>
    obtain rfl := Except.ok.inj run
    exact .nil
  | cons option rest ih =>
    obtain ⟨text, compiled, run⟩ := bind_eq_ok.mp run
    obtain ⟨others, later, run⟩ := bind_eq_ok.mp run
    obtain rfl := Except.ok.inj run
    exact .cons compiled (ih later)

theorem Options.parts_unseparated {options : Options} {texts : List Text}
    (parts : List.Forall₂ (fun option text => option.compile.outcome = .ok text) options texts)
    (own : AllUnseparated (QueryOption.listVerbatim options)) :
    ∀ text ∈ texts, Unseparated text := by
  induction parts with
  | nil => exact List.forall_mem_nil _
  | @cons option text options texts compiled _ ih =>
    rw [AllUnseparated, QueryOption.listVerbatim, List.forall_mem_append] at own
    exact List.forall_mem_cons.mpr ⟨option.compile_unseparated own.1 text compiled, ih own.2⟩

theorem Options.parts_keys {options : Options} {texts : List Text}
    (parts : List.Forall₂ (fun option text => option.compile.outcome = .ok text) options texts)
    (names : ∀ name ∈ options.flatMap QueryOption.names, Avoids ['=', ','] name.toList) :
    List.Forall₂ (fun option part =>
      option.compile.outcome = .ok part ∧ before '=' part = option.key.toList) options texts := by
  induction parts with
  | nil => exact .nil
  | @cons option text options texts compiled _ ih =>
    rw [List.flatMap_cons, List.forall_mem_append] at names
    obtain ⟨value, rfl⟩ := QueryOption.compile_assign compiled
    exact .cons ⟨compiled, before_append (QueryOption.key_avoids names.1) value⟩ (ih names.2)

namespace ResourceId

theorem keyText_avoids {marks : Text} (key : KeyValue)
    (structural : ∀ mark ∈ marks, isInert mark = false ∧ mark ∉ Uri.brackets ∧ mark ≠ ':') :
    Avoids marks (keyText key) := by
  cases key with
  | value scalar => exact scalar.literal_avoids structural
  | parameter name =>
    have component : Avoids marks (Uri.encodeComponent name.toList) :=
      Uri.encodeComponent_avoids _ fun mark member =>
        ⟨(structural mark member).1, (structural mark member).2.1⟩
    refine avoids_cons.mpr ⟨fun isMark => ?_, component⟩
    exact absurd (structural _ isMark).1 (by decide)

/-- One part of a composite key. -/
def keyPart (entry : String × KeyValue) : Text := entry.1.toList ++ '=' :: keyText entry.2

/-- The text of an id has a separator only where a name of a composite key has it. -/
theorem compile_avoids {marks : Text} {id : ResourceId} {text : Text}
    (among : marks ⊆ querySeparators) (own : ∀ name ∈ id.verbatim, Avoids marks name.toList)
    (run : id.compile = .ok text) : Avoids marks text := by
  match id with
  | .value scalar =>
    have literal : Avoids marks scalar.literal :=
      Avoids.mono (Primitive.literal_unseparated scalar) among
    cases scalar with
    | null => cases run
    | bool value => obtain rfl := Except.ok.inj run; exact literal
    | number n => obtain rfl := Except.ok.inj run; exact literal
    | string value => obtain rfl := Except.ok.inj run; exact literal
    | instant value => obtain rfl := Except.ok.inj run; exact literal
  | .parameter name =>
    obtain rfl := Except.ok.inj run
    exact Avoids.mono (Uri.encodeAlias_unseparated name) among
  | .composite keys =>
    obtain rfl := Except.ok.inj run
    refine Avoids.join (Avoids.mono (by decide : Unseparated [',']) among) fun piece member => ?_
    obtain ⟨entry, found, rfl⟩ := List.mem_map.mp member
    have name := own entry.1 (List.mem_map_of_mem found)
    have sign : '=' ∉ marks := fun isMark => absurd (among isMark) (by decide)
    exact avoids_append.mpr ⟨name, avoids_cons.mpr ⟨sign,
      keyText_avoids entry.2 fun _ isMark => querySeparators_structural (among isMark)⟩⟩

/-- A composite key is cut at the commas into its parts, and each of them at the equals sign. -/
theorem compile_composite_parts {keys : List (String × KeyValue)} (nonempty : keys ≠ [])
    (names : ∀ entry ∈ keys, Avoids ['=', ','] entry.1.toList) {text : Text}
    (run : (ResourceId.composite keys).compile = .ok text) :
    List.Forall₂ (fun entry part =>
      before '=' part = entry.1.toList ∧ behind '=' part = keyText entry.2) keys
      (text.splitOn ',') := by
  obtain rfl := Except.ok.inj run
  have free : ∀ part ∈ keys.map keyPart, ',' ∉ part := by
    intro part member
    obtain ⟨entry, found, rfl⟩ := List.mem_map.mp member
    have name : Avoids [','] entry.1.toList := fun c inName isComma =>
      names entry found c inName (List.mem_cons_of_mem _ isComma)
    have value : Avoids [','] (keyText entry.2) := keyText_avoids entry.2 (by simp [isInert]; decide)
    have whole : Avoids [','] (keyPart entry) :=
      avoids_append.mpr ⟨name, avoids_cons.mpr ⟨by decide, value⟩⟩
    exact fun comma => whole _ comma (List.mem_singleton_self _)
  have split : (join [','] (keys.map keyPart)).splitOn ',' = keys.map keyPart :=
    splitOn_join (by simpa using nonempty) free
  change List.Forall₂ _ keys ((join [','] (keys.map keyPart)).splitOn ',')
  rw [split, List.forall₂_map_right_iff, List.forall₂_same]
  intro entry found
  have name : '=' ∉ entry.1.toList := fun sign => names entry found _ sign (by decide)
  exact ⟨before_append name _, behind_append name _⟩

end ResourceId

namespace Query

def idText : Option ResourceId → Except Error Text
  | none => .ok []
  | some id => (fun text => '(' :: text ++ [')']) <$> id.compile

def actionText : Option String → Text
  | none => []
  | some action => '/' :: action.toList

/-- A resource that does not ask for a count gives a path of three parts. -/
theorem compilePath_eq_map {resource : String} (id : Option ResourceId) (action : Option String)
    (uncounted : ¬"/$count".toList.isSuffixOf resource.toList) :
    compilePath resource id action =
      (fun selected => Uri.encodeResource (.single resource) ++ (selected ++ actionText action)) <$>
        idText id := by
  rw [compilePath, if_neg uncounted]
  cases id with
  | none => cases action <;> simp [idText, actionText] <;> rfl
  | some id => cases compiled : id.compile <;> cases action <;> simp [idText, actionText, compiled]

theorem compilePath_eq_ok {resource : String} {id : Option ResourceId} {action : Option String}
    {path : Text} (run : compilePath resource id action = .ok path) :
    ∃ selected, idText id = .ok selected ∧
      path = Uri.encodeResource (.single resource) ++ (selected ++ actionText action) := by
  by_cases counted : "/$count".toList.isSuffixOf resource.toList
  · rw [compilePath, if_pos counted] at run
    cases run
  · rw [compilePath_eq_map id action counted] at run
    obtain ⟨selected, chosen, rfl⟩ := map_eq_ok_iff.mp run
    exact ⟨selected, chosen, rfl⟩

/-- A path has a separator only where the action or a name of a composite key has it. -/
theorem compilePath_avoids {marks : Text} {resource : String} {id : Option ResourceId}
    {action : Option String} {path : Text} (among : marks ⊆ querySeparators)
    (ids : ∀ name ∈ (id.map ResourceId.verbatim).getD [], Avoids marks name.toList)
    (actions : ∀ name : String, name ∈ action.toList → Avoids marks name.toList)
    (run : compilePath resource id action = .ok path) : Avoids marks path := by
  obtain ⟨selected, chosen, rfl⟩ := compilePath_eq_ok run
  have encoded := Uri.encodeResource_unseparated (.single resource)
  refine avoids_append.mpr ⟨Avoids.mono encoded among, avoids_append.mpr ⟨?_, ?_⟩⟩
  · cases id with
    | none =>
      obtain rfl := Except.ok.inj chosen
      exact .nil
    | some id =>
      obtain ⟨text, compiled, rfl⟩ := map_eq_ok_iff.mp chosen
      have opening : '(' ∉ marks := fun isMark => absurd (among isMark) (by decide)
      have closing : Avoids marks [')'] := Avoids.mono (by decide : Unseparated [')']) among
      exact avoids_append.mpr
        ⟨avoids_cons.mpr ⟨opening, ResourceId.compile_avoids among ids compiled⟩, closing⟩
  · cases action with
    | none => exact .nil
    | some action =>
      have slash : '/' ∉ marks := fun isMark => absurd (among isMark) (by decide)
      exact avoids_cons.mpr ⟨slash, actions action (List.mem_singleton_self action)⟩

theorem compilePath_unseparated {resource : String} {id : Option ResourceId}
    {action : Option String} {path : Text}
    (ids : AllUnseparated ((id.map ResourceId.verbatim).getD []))
    (actions : AllUnseparated action.toList) (run : compilePath resource id action = .ok path) :
    Unseparated path :=
  compilePath_avoids (List.Subset.refl _) ids actions run

/-- The path of a query, with what a count wrapper puts at its end. -/
def wholePath (query : Query) (path : Text) : Text :=
  if query.isCount then path ++ "/$count".toList else path

theorem withOptions_eq_ok {path url : Text} {options : Options} :
    (withOptions path options).outcome = .ok url ↔
      ∃ texts, (Options.compileList options).outcome = .ok texts ∧
        url = if (join ['&'] texts).isEmpty then path else path ++ '?' :: join ['&'] texts := by
  rw [withOptions, bind_eq_ok]
  constructor
  · rintro ⟨text, compiled, run⟩
    obtain ⟨texts, parts, rfl⟩ := map_eq_ok.mp compiled
    exact ⟨texts, parts, (Except.ok.inj run).symm⟩
  · rintro ⟨texts, parts, rfl⟩
    exact ⟨join ['&'] texts, map_eq_ok.mpr ⟨texts, parts, rfl⟩, rfl⟩

theorem compileOptions_eq_ok {path url : Text} {options : Options}
    (run : (compileOptions path options).outcome = .ok url) :
    (withOptions (if (Options.count? options).isSome then path ++ "/$count".toList else path)
      ((Options.count? options).getD options)).outcome = .ok url := by
  unfold compileOptions at run
  split at run
  case h_1 alone =>
    rw [alone]
    exact run
  case h_2 inner counted =>
    split at run
    · cases run
    · rw [counted]
      exact run

/-- A compiled query is its path and the parts of its effective options. -/
theorem compile_eq_ok {query : Query} {url : Text} (described : query.url = none)
    (run : query.compile.outcome = .ok url) :
    ∃ resource path texts, query.resource = some resource ∧
      compilePath resource query.id query.action = .ok path ∧
      (Options.compileList query.effectiveOptions).outcome = .ok texts ∧
      url = if (join ['&'] texts).isEmpty then query.wholePath path
        else query.wholePath path ++ '?' :: join ['&'] texts := by
  unfold compile at run
  rw [described] at run
  cases named : query.resource with
  | none =>
    rw [named] at run
    cases run
  | some resource =>
    rw [named] at run
    obtain ⟨path, found, run⟩ := bind_eq_ok.mp run
    cases given : query.options with
    | none =>
      rw [given] at run
      have effective : query.effectiveOptions = [] := by rw [effectiveOptions, given]
      have whole : query.wholePath path = path := by
        rw [wholePath, isCount, given]
        rfl
      refine ⟨resource, path, [], rfl, found, by rw [effective]; rfl, ?_⟩
      rw [whole]
      exact (Except.ok.inj run).symm
    | some options =>
      rw [given] at run
      have compiled : (withOptions (query.wholePath path) query.effectiveOptions).outcome =
          .ok url := by
        rw [wholePath, isCount, effectiveOptions, given]
        exact compileOptions_eq_ok run
      obtain ⟨texts, parts, same⟩ := withOptions_eq_ok.mp compiled
      exact ⟨resource, path, texts, rfl, found, parts, same⟩

theorem compile_withoutOptions {query : Query} {resource : String} {path : Text}
    (described : query.url = none) (named : query.resource = some resource)
    (found : compilePath resource query.id query.action = .ok path) :
    query.withoutOptions.compile.outcome = .ok (query.wholePath path) := by
  have start : query.withoutOptions.compile.outcome =
      (match query.withoutOptions.options with
        | none => (pure path : Compilation Text)
        | some options => compileOptions path options).outcome := by
    unfold compile withoutOptions
    simp only [described, named, found]
    rfl
  rw [start, wholePath, isCount, withoutOptions]
  cases query.options with
  | none => rfl
  | some options =>
    cases counted : Options.count? options with
    | none =>
      simp only [Option.map_some, counted]
      rfl
    | some inner =>
      simp only [Option.map_some, counted]
      rfl

theorem wholePath_unseparated {query : Query} {path : Text} (plain : Unseparated path) :
    Unseparated (query.wholePath path) := by
  unfold wholePath
  split
  · exact avoids_append.mpr ⟨plain, by decide⟩
  · exact plain

theorem exists_wholePath_append (query : Query) (path : Text) :
    ∃ ending, query.wholePath path = path ++ ending := by
  unfold wholePath
  split
  · exact ⟨_, rfl⟩
  · exact ⟨[], (List.append_nil _).symm⟩

theorem join_isEmpty {options : Options} {texts : List Text}
    (parts : List.Forall₂ (fun option text => option.compile.outcome = .ok text) options texts) :
    (join ['&'] texts).isEmpty = true ↔ options = [] := by
  cases parts with
  | nil => simp [join]
  | @cons option text options texts compiled rest =>
    obtain ⟨value, rfl⟩ := QueryOption.compile_assign compiled
    rw [join_eq_flatMap]
    simp [QueryOption.assign]

/-- A compiled query is its path, and behind a question mark the parts of its options if it has some. -/
theorem compile_shape {query : Query} {url : Text} (described : query.url = none)
    (run : query.compile.outcome = .ok url) :
    ∃ resource path texts, query.resource = some resource ∧
      compilePath resource query.id query.action = .ok path ∧
      List.Forall₂ (fun option text => option.compile.outcome = .ok text)
        query.effectiveOptions texts ∧
      ((query.effectiveOptions = [] ∧ url = query.wholePath path) ∨
        (query.effectiveOptions ≠ [] ∧
          url = query.wholePath path ++ '?' :: join ['&'] texts)) := by
  obtain ⟨resource, path, texts, named, found, compiled, written⟩ := compile_eq_ok described run
  have parts := Options.compileList_eq_ok compiled
  refine ⟨resource, path, texts, named, found, parts, ?_⟩
  by_cases none : query.effectiveOptions = []
  · rw [if_pos ((join_isEmpty parts).mpr none)] at written
    exact Or.inl ⟨none, written⟩
  · rw [if_neg fun empty => none ((join_isEmpty parts).mp empty)] at written
    exact Or.inr ⟨none, written⟩

theorem compilePath_composite {resource : String} {keys : List (String × KeyValue)}
    {action : Option String} {path : Text}
    (run : compilePath resource (some (.composite keys)) action = .ok path) :
    ∃ text, (ResourceId.composite keys).compile = .ok text ∧
      path = Uri.encodeResource (.single resource) ++ '(' :: text ++ ')' :: actionText action := by
  obtain ⟨selected, chosen, rfl⟩ := compilePath_eq_ok run
  obtain ⟨text, keyed, rfl⟩ := map_eq_ok_iff.mp chosen
  refine ⟨text, keyed, ?_⟩
  simp only [List.append_assoc, List.cons_append, List.nil_append]

/-- A compiled query has the structure of its description, whatever stands in the texts that are
encoded: the part before the first question mark is the query without options; a question mark is
there exactly when there are options; cut at the ampersands, the rest is one part for each option, in
order, with the key of the option before its first equals sign; and a composite key is cut at the
commas into its names and values. Only texts that are written as they are have to be free of the
marks. -/
theorem compile_structure {query : Query} {url : Text} (described : query.url = none)
    (run : query.compile.outcome = .ok url) (own : AllUnseparated query.verbatim)
    (names : ∀ name ∈ query.names, Avoids ['=', ','] name.toList) :
    query.withoutOptions.compile.outcome = .ok (before '?' url) ∧
    ('?' ∈ url ↔ query.effectiveOptions ≠ []) ∧
    (query.effectiveOptions ≠ [] → List.Forall₂ (fun option part =>
        option.compile.outcome = .ok part ∧ before '=' part = option.key.toList)
      query.effectiveOptions ((behind '?' url).splitOn '&')) ∧
    ∀ keys, query.id = some (.composite keys) → keys ≠ [] →
      ∃ resource text rest, query.resource = some resource ∧
        url = Uri.encodeResource (.single resource) ++ '(' :: text ++ ')' :: rest ∧
        (ResourceId.composite keys).compile = .ok text ∧
        List.Forall₂ (fun entry part => before '=' part = entry.1.toList ∧
          behind '=' part = ResourceId.keyText entry.2) keys (text.splitOn ',') := by
  obtain ⟨resource, path, texts, named, found, parts, shape⟩ := compile_shape described run
  rw [AllUnseparated, verbatim, List.forall_mem_append, List.forall_mem_append] at own
  obtain ⟨⟨actions, ids⟩, inOptions⟩ := own
  rw [Query.names, List.forall_mem_append] at names
  have plain := Options.parts_unseparated parts inOptions
  have whole : Unseparated (query.wholePath path) :=
    wholePath_unseparated (compilePath_unseparated ids actions found)
  have free : '?' ∉ query.wholePath path := fun member => whole _ member (by decide)
  have bare := compile_withoutOptions described named found
  refine ⟨?path, ?mark, ?parts, ?keys⟩
  case path =>
    rcases shape with ⟨_, rfl⟩ | ⟨_, rfl⟩
    · rw [before_of_not_mem free]
      exact bare
    · rw [before_append free]
      exact bare
  case mark =>
    rcases shape with ⟨none, rfl⟩ | ⟨several, rfl⟩
    · exact ⟨fun member => absurd member free, fun several => absurd none several⟩
    · exact ⟨fun _ => several, fun _ => List.mem_append_right _ (List.mem_cons_self ..)⟩
  case parts =>
    intro several
    rcases shape with ⟨none, _⟩ | ⟨_, rfl⟩
    · exact absurd none several
    · have nonempty : texts ≠ [] := by
        rintro rfl
        exact several (List.forall₂_nil_right_iff.mp parts)
      rw [behind_append free, splitOn_join nonempty fun text member ampersand =>
        plain text member _ ampersand (by decide)]
      exact Options.parts_keys parts names.2
  case keys =>
    intro keys identified nonempty
    rw [identified] at found
    obtain ⟨text, keyed, located⟩ := compilePath_composite found
    have entryNames : ∀ entry ∈ keys, Avoids ['=', ','] entry.1.toList := by
      intro entry member
      refine names.1 entry.1 ?_
      rw [identified]
      exact List.mem_map_of_mem member
    have split := ResourceId.compile_composite_parts nonempty entryNames keyed
    -- counts and options come behind the path, which is all that the key needs
    obtain ⟨behindPath, starts⟩ : ∃ rest, url = path ++ rest := by
      obtain ⟨ending, counted⟩ := query.exists_wholePath_append path
      rcases shape with ⟨_, rfl⟩ | ⟨_, rfl⟩
      · exact ⟨ending, counted⟩
      · exact ⟨ending ++ _, by rw [counted, List.append_assoc]⟩
    refine ⟨resource, text, actionText query.action ++ behindPath, named, ?_, keyed, split⟩
    rw [starts, located, List.append_assoc, List.cons_append]

/-- The separators in the resource, in the id and in the value that is compared are data. -/
theorem compile_structure_hostile :
    List.Forall₂ (fun (option : QueryOption) part =>
        option.compile.outcome = .ok part ∧ before '=' part = option.key.toList)
      [.filter (.ofProperty "R&D" (.value (.string "a&b?"))), .top 2]
      ((behind '?' "a%3Fb(k='%26%2C')?$filter=R%26D eq 'a%26b%3F'&$top=2".toList).splitOn '&') := by
  have run : (Query.compile ⟨some "a?b", some (.composite [("k", .value (.string "&,"))]), none, none,
      some [.filter (.ofProperty "R&D" (.value (.string "a&b?"))), .top 2]⟩).outcome =
      .ok "a%3Fb(k='%26%2C')?$filter=R%26D eq 'a%26b%3F'&$top=2".toList := rfl
  have own : AllUnseparated ["k"] := by
    intro text member
    obtain rfl := List.mem_singleton.mp member
    decide
  have names : ∀ name ∈ ["k"], Avoids ['=', ','] name.toList := by
    intro name member
    obtain rfl := List.mem_singleton.mp member
    decide
  exact (compile_structure rfl run own names).2.2.1 nofun

end Query

end OData
