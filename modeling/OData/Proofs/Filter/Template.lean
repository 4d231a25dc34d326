import Mathlib
import OData.Proofs.Filter.Verbatim
import OData.Proofs.Keyed
import OData.Proofs.Outcome

namespace OData

open Text

namespace TemplatePiece

/-- Whether the piece starts with the mark of placeholders. -/
def isMarked : TemplatePiece → Bool
  | .char c => c = '$'
  | .placeholder _ => true

def EndsName (rest : Text) : Prop := ∀ c ∈ rest.head?, c.isAlphanum = false

/-- The pieces of a template, in which the parameters have no say. Placeholders have names of
letters and digits, and behind a name, or behind a mark without a name, comes neither letter nor
digit. -/
structure IsCut (template : Text) (pieces : List TemplatePiece) : Prop where
  whole : pieces.flatMap text = template
  named : ∀ name, .placeholder name ∈ pieces → name ≠ [] ∧ ∀ c ∈ name, c.isAlphanum = true
  maximal : ∀ front piece rest, pieces = front ++ piece :: rest → piece.isMarked = true →
    EndsName (rest.flatMap text)

def FitsBefore (rest : Text) (piece : TemplatePiece) : Prop :=
  (∀ name, piece = .placeholder name → name ≠ [] ∧ ∀ c ∈ name, c.isAlphanum = true) ∧
    (piece.isMarked = true → EndsName rest)

theorem isCut_nil {template : Text} : IsCut template [] ↔ template = [] := by
  constructor
  · exact fun cut => cut.whole.symm
  · rintro rfl
    have none (front : List TemplatePiece) (piece rest) : [] ≠ front ++ piece :: rest :=
      (List.append_ne_nil_of_right_ne_nil front (List.cons_ne_nil piece rest)).symm
    exact ⟨rfl, nofun, fun front piece rest split => absurd split (none front piece rest)⟩

/-- Pieces are a cut if the first fits in front of what the others are a cut of. -/
theorem isCut_cons {template : Text} {piece : TemplatePiece} {pieces : List TemplatePiece} :
    IsCut template (piece :: pieces) ↔
      ∃ rest, template = piece.text ++ rest ∧ FitsBefore rest piece ∧ IsCut rest pieces := by
  constructor
  · rintro ⟨whole, named, maximal⟩
    refine ⟨pieces.flatMap text, whole.symm, ⟨?fits, ?ends⟩, rfl, ?inner, ?behind⟩
    case fits =>
      rintro name rfl
      exact named name (List.mem_cons_self ..)
    case ends => exact maximal [] piece pieces rfl
    case inner => exact fun name member => named name (List.mem_cons_of_mem _ member)
    case behind =>
      rintro front other rest rfl
      exact maximal (piece :: front) other rest rfl
  · rintro ⟨rest, rfl, ⟨fits, ends⟩, whole, named, maximal⟩
    refine ⟨?whole, ?named, ?maximal⟩
    case whole => rw [List.flatMap_cons, whole]
    case named =>
      intro name member
      rcases List.mem_cons.mp member with same | inner
      · exact fits name same.symm
      · exact named name inner
    case maximal =>
      intro front other behind split marked
      cases front with
      | nil =>
        obtain ⟨rfl, rfl⟩ := List.cons.inj split
        rw [whole]
        exact ends marked
      | cons first front =>
        obtain ⟨_, split⟩ := List.cons.inj split
        exact maximal front other behind split marked

theorem takeWhile_append {name rest : Text} (inside : ∀ c ∈ name, c.isAlphanum = true)
    (ends : EndsName rest) : (name ++ rest).takeWhile Char.isAlphanum = name := by
  have stop : rest.takeWhile Char.isAlphanum = [] := by
    cases rest with
    | nil => rfl
    | cons c rest => rw [List.takeWhile_cons, ends c rfl, if_neg Bool.false_ne_true]
  rw [List.takeWhile_append_of_pos inside, stop, List.append_nil]

theorem endsName_dropWhile (text : Text) : EndsName (text.dropWhile Char.isAlphanum) := by
  intro c first
  have stopped := List.head?_dropWhile_not Char.isAlphanum text
  rw [Option.mem_def.mp first] at stopped
  exact stopped

/-- There is one way to cut a template, and it is found from the left. -/
theorem isCut_iff {template : Text} {pieces : List TemplatePiece} :
    IsCut template pieces ↔ ofTemplate template = pieces := by
  constructor
  · intro cut
    induction pieces generalizing template with
    | nil =>
      rw [isCut_nil.mp cut, ofTemplate]
    | cons piece pieces ih =>
      obtain ⟨rest, rfl, ⟨fits, ends⟩, inner⟩ := isCut_cons.mp cut
      have later := ih inner
      cases piece with
      | char c =>
        have plain : ¬ (c = '$' ∧ rest.takeWhile Char.isAlphanum ≠ []) := by
          rintro ⟨rfl, named⟩
          exact named (takeWhile_append (List.forall_mem_nil _) (ends rfl))
        rw [text, List.singleton_append, ofTemplate]
        simp only [if_neg plain, later]
      | placeholder name =>
        obtain ⟨nonempty, inside⟩ := fits name rfl
        have taken := takeWhile_append inside (ends rfl)
        have dropped : (name ++ rest).dropWhile Char.isAlphanum = rest := by
          have both := List.takeWhile_append_dropWhile (p := Char.isAlphanum) (l := name ++ rest)
          rw [taken] at both
          exact List.append_cancel_left both
        rw [text, List.cons_append, ofTemplate]
        simp only [taken, dropped, later, ne_eq, nonempty, not_false_eq_true, and_self, if_true]
  · rintro rfl
    fun_induction ofTemplate template with
    | case1 => exact isCut_nil.mpr rfl
    | case2 c rest name placeholder ih =>
      obtain ⟨rfl, nonempty⟩ := placeholder
      refine isCut_cons.mpr ⟨rest.dropWhile Char.isAlphanum, ?_, ⟨?_, ?_⟩, ih⟩
      · exact congrArg ('$' :: ·) List.takeWhile_append_dropWhile.symm
      · rintro other ⟨⟩
        exact ⟨nonempty, fun c member => List.mem_takeWhile_imp member⟩
      · exact fun _ => endsName_dropWhile rest
    | case3 c rest name plain ih =>
      refine isCut_cons.mpr ⟨rest, rfl, ⟨nofun, fun marked => ?_⟩, ih⟩
      have isMark : c = '$' := of_decide_eq_true marked
      have nameless : rest.takeWhile Char.isAlphanum = [] := by
        by_contra named
        exact plain ⟨isMark, named⟩
      intro d first
      by_contra inName
      rw [Bool.not_eq_false] at inName
      obtain ⟨tail, rfl⟩ := List.head?_eq_some_iff.mp first
      rw [List.takeWhile_cons, if_pos inName] at nameless
      exact List.cons_ne_nil _ _ nameless

/-- The text that stands for the piece in the outcome. -/
def replaced (binding : Text → Option Text) : TemplatePiece → Text
  | .char c => [c]
  | .placeholder name => (binding name).getD ('$' :: name)

theorem substitute_eq_flatMap (binding : Text → Option Text) (template : Text) :
    substitute binding template = (ofTemplate template).flatMap (replaced binding) := rfl

/-- What a piece turns into among parameters that are compiled at a place. A placeholder turns into the
last parameter of its name, and every other piece stays. -/
inductive Renders (place : FilterPlace) (parameters : List (String × Filter)) :
    TemplatePiece → Text → Prop
  | char (c : Char) : Renders place parameters (.char c) [c]
  | bound {front rest : List (String × Filter)} {name : String} {filter : Filter} {term : Term} :
      parameters = front ++ (name, filter) :: rest → (∀ later ∈ rest, later.1 ≠ name) →
      filter.compileAt place none = .ok term →
      Renders place parameters (.placeholder name.toList) ('(' :: term.bare ++ [')'])
  | unbound {name : Text} : (∀ parameter ∈ parameters, parameter.1.toList ≠ name) →
      Renders place parameters (.placeholder name) ('$' :: name)

end TemplatePiece

/-- A parameter with the piece that its filter denotes. -/
def parameterTerm (path : List String) : String × Filter → String × Term :=
  Prod.map id fun filter => (filter.expressionAt path none).term

namespace Filter

variable {place : FilterPlace} {parameters : List (String × Filter)}

theorem eq_term_of_compileAt {filter : Filter} {term : Term}
    (run : filter.compileAt place none = .ok term) :
    term = (filter.expressionAt place.path none).term :=
  ((filter.compileAt_checks place none).eq_ok_iff.mp run).2.symm

/-- Parameters are compiled if each of them is, in their order and under their names. -/
theorem compileParameters_eq_ok {compiled : List (String × Term)} :
    compileParameters place parameters = .ok compiled ↔
      (∀ parameter ∈ parameters, ∃ term, parameter.2.compileAt place none = .ok term) ∧
        compiled = parameters.map (parameterTerm place.path) := by
  induction parameters generalizing compiled with
  | nil =>
    constructor
    · exact fun run => ⟨List.forall_mem_nil _, (Except.ok.inj run).symm⟩
    · rintro ⟨_, rfl⟩
      rfl
  | cons parameter parameters ih =>
    rw [compileParameters, bind_eq_ok_iff, List.forall_mem_cons]
    constructor
    · rintro ⟨term, first, run⟩
      obtain ⟨terms, others, run⟩ := bind_eq_ok_iff.mp run
      obtain ⟨all, rfl⟩ := ih.mp others
      obtain rfl := Except.ok.inj run
      refine ⟨⟨⟨term, first⟩, all⟩, ?_⟩
      rw [eq_term_of_compileAt first]
      rfl
    · rintro ⟨⟨⟨term, first⟩, all⟩, rfl⟩
      refine ⟨term, first, bind_eq_ok_iff.mpr ⟨_, ih.mpr ⟨all, rfl⟩, ?_⟩⟩
      rw [eq_term_of_compileAt first]
      rfl

/-- Parameters fail with the first of them that does. -/
theorem compileParameters_eq_error {error : Error} :
    compileParameters place parameters = .error error ↔
      ∃ front parameter rest, parameters = front ++ parameter :: rest ∧
        (∀ earlier ∈ front, ∃ term, earlier.2.compileAt place none = .ok term) ∧
        parameter.2.compileAt place none = .error error := by
  induction parameters with
  | nil =>
    constructor
    · nofun
    · rintro ⟨front, parameter, rest, split, _⟩
      exact absurd split.symm (List.append_ne_nil_of_right_ne_nil front (List.cons_ne_nil _ _))
  | cons parameter parameters ih =>
    have later (term : Term) : (do
          let terms ← compileParameters place parameters
          return (parameter.1, term) :: terms) = Except.error error ↔
        compileParameters place parameters = .error error := by
      rw [bind_eq_error_iff]
      exact or_iff_left fun ⟨_, _, run⟩ => nomatch run
    rw [compileParameters, bind_eq_error_iff, exists_first_cons, ← ih]
    simp only [later, exists_and_right]

end Filter

namespace TemplatePiece

/-- What a piece turns into is found among the compiled parameters. -/
theorem renders_iff {place : FilterPlace} {parameters : List (String × Filter)}
    (all : ∀ parameter ∈ parameters, ∃ term, parameter.2.compileAt place none = .ok term)
    {piece : TemplatePiece} {text : Text} :
    Renders place parameters piece text ↔
      text = piece.replaced (parameterBinding (parameters.map (parameterTerm place.path))) := by
  have binding (name : Text) : parameterBinding (parameters.map (parameterTerm place.path)) name =
      (parameters.reverse.lookup (String.ofList name)).map fun filter =>
        '(' :: (filter.expressionAt place.path none).term.bare ++ [')'] := by
    rw [parameterBinding, ← List.map_reverse, parameterTerm, Keyed.lookup_map, Option.map_map]
    rfl
  constructor
  · intro renders
    cases renders with
    | char c => rfl
    | bound split last found =>
      have own := Keyed.lookup_reverse_eq_some.mpr ⟨_, _, split, last⟩
      rw [replaced, binding, String.ofList_toList, own, Filter.eq_term_of_compileAt found]
      rfl
    | @unbound name absent =>
      have none : parameters.reverse.lookup (String.ofList name) = none := by
        refine Keyed.lookup_reverse_eq_none.mpr fun parameter member same => ?_
        exact absent parameter member (by rw [same, String.toList_ofList])
      rw [replaced, binding, none]
      rfl
  · rintro rfl
    cases piece with
    | char c => exact .char c
    | placeholder name =>
      rw [replaced, binding]
      cases found : parameters.reverse.lookup (String.ofList name) with
      | none =>
        refine .unbound fun parameter member same => ?_
        refine Keyed.lookup_reverse_eq_none.mp found parameter member ?_
        rw [← same, String.ofList_toList]
      | some filter =>
        obtain ⟨front, rest, split, last⟩ := Keyed.lookup_reverse_eq_some.mp found
        obtain ⟨term, compiled⟩ := all (String.ofList name, filter) (by simp [split])
        have bound := Renders.bound split last compiled
        rw [Filter.eq_term_of_compileAt compiled, String.toList_ofList] at bound
        exact bound

theorem forall₂_renders_iff {place : FilterPlace} {parameters : List (String × Filter)}
    (all : ∀ parameter ∈ parameters, ∃ term, parameter.2.compileAt place none = .ok term)
    {pieces : List TemplatePiece} {texts : List Text} :
    List.Forall₂ (Renders place parameters) pieces texts ↔
      texts = pieces.map (replaced (parameterBinding (parameters.map (parameterTerm place.path)))) := by
  induction pieces generalizing texts with
  | nil => exact List.forall₂_nil_left_iff
  | cons piece pieces ih =>
    rw [List.forall₂_cons_left_iff, List.map_cons]
    constructor
    · rintro ⟨text, others, renders, later, rfl⟩
      rw [(renders_iff all).mp renders, ih.mp later]
    · rintro rfl
      exact ⟨_, _, (renders_iff all).mpr rfl, ih.mpr rfl, rfl⟩

/-- What a placeholder can turn into, by its name. -/
theorem renders_placeholder {place : FilterPlace} {parameters : List (String × Filter)}
    {name text : Text} :
    Renders place parameters (.placeholder name) text ↔
      (∃ front key filter rest term, parameters = front ++ (key, filter) :: rest ∧
        key.toList = name ∧ (∀ later ∈ rest, later.1 ≠ key) ∧
        filter.compileAt place none = .ok term ∧ text = '(' :: term.bare ++ [')']) ∨
      (∀ parameter ∈ parameters, parameter.1.toList ≠ name) ∧ text = '$' :: name := by
  constructor
  · generalize asked : TemplatePiece.placeholder name = piece
    intro renders
    cases renders with
    | char c => cases asked
    | bound split last compiled =>
      obtain rfl := TemplatePiece.placeholder.inj asked
      exact Or.inl ⟨_, _, _, _, _, split, rfl, last, compiled, rfl⟩
    | unbound absent =>
      obtain rfl := TemplatePiece.placeholder.inj asked
      exact Or.inr ⟨absent, rfl⟩
  · rintro (⟨front, key, filter, rest, term, split, rfl, last, compiled, rfl⟩ | ⟨absent, rfl⟩)
    · exact .bound split last compiled
    · exact .unbound absent

/-- Filters with their numbers as names, the first one under `1`. -/
def numbered (filters : List Filter) : List (String × Filter) :=
  filters.mapIdx fun i filter => (String.ofList (ofNat (i + 1)), filter)

theorem getElem?_numbered (filters : List Filter) (i : Nat) :
    (numbered filters)[i]? = filters[i]?.map fun filter => (String.ofList (ofNat (i + 1)), filter) :=
  List.getElem?_mapIdx

/-- A number stands for the filter at its place, and for itself where there is none. -/
theorem renders_numbered {place : FilterPlace} {filters : List Filter} {k : Nat} {text : Text} :
    Renders place (numbered filters) (.placeholder (ofNat (k + 1))) text ↔
      (∃ filter term, filters[k]? = some filter ∧ filter.compileAt place none = .ok term ∧
        text = '(' :: term.bare ++ [')']) ∨
      filters[k]? = none ∧ text = '$' :: ofNat (k + 1) := by
  have sameNumber {i : Nat} {key : String} {filter : Filter}
      (found : (numbered filters)[i]? = some (key, filter)) :
      filters[i]? = some filter ∧ key = String.ofList (ofNat (i + 1)) := by
    rw [getElem?_numbered, Option.map_eq_some_iff] at found
    obtain ⟨_, atPlace, ⟨⟩⟩ := found
    exact ⟨atPlace, rfl⟩
  rw [renders_placeholder]
  constructor
  · rintro (⟨front, key, filter, rest, term, split, named, _, compiled, rfl⟩ | ⟨absent, rfl⟩)
    · have found : (numbered filters)[front.length]? = some (key, filter) := by
        rw [split, List.getElem?_append_right (Nat.le_refl _), Nat.sub_self, List.getElem?_cons_zero]
      obtain ⟨atPlace, rfl⟩ := sameNumber found
      rw [String.toList_ofList] at named
      have same : front.length = k := Nat.succ_injective (ofNat_injective named)
      exact Or.inl ⟨filter, term, by rw [← same, atPlace], compiled, rfl⟩
    · refine Or.inr ⟨?_, rfl⟩
      by_contra present
      obtain ⟨filter, atPlace⟩ := Option.ne_none_iff_exists'.mp present
      have found := getElem?_numbered filters k
      rw [atPlace, Option.map_some] at found
      exact absent _ (List.mem_of_getElem? found) String.toList_ofList
  · rintro (⟨filter, term, atPlace, compiled, rfl⟩ | ⟨beyond, rfl⟩)
    · have found := getElem?_numbered filters k
      rw [atPlace, Option.map_some] at found
      obtain ⟨short, entry⟩ := List.getElem?_eq_some_iff.mp found
      refine Or.inl ⟨(numbered filters).take k, _, filter, (numbered filters).drop (k + 1), term, ?_,
        String.toList_ofList, fun later member named => ?_, compiled, rfl⟩
      · rw [← entry, ← List.drop_eq_getElem_cons short, List.take_append_drop]
      · obtain ⟨i, behind⟩ := List.mem_iff_getElem?.mp member
        rw [List.getElem?_drop] at behind
        obtain ⟨_, key⟩ := @sameNumber _ later.1 later.2 behind
        rw [key] at named
        have numbers := ofNat_injective (String.ofList_injective named)
        omega
    · refine Or.inr ⟨fun parameter member named => ?_, rfl⟩
      obtain ⟨i, found⟩ := List.mem_iff_getElem?.mp member
      obtain ⟨atPlace, key⟩ := @sameNumber _ parameter.1 parameter.2 found
      rw [key, String.toList_ofList] at named
      have numbers := ofNat_injective named
      have same : i = k := by omega
      rw [same, beyond] at atPlace
      cases atPlace

end TemplatePiece

namespace FilterOperation

open TemplatePiece (IsCut Renders numbered)

/-- A template fails with the first of its parameters that does, whether the template has a place for
it or not. Otherwise it is cut from the left into characters and placeholders, and the outcome is what
the pieces turn into, one after another: a placeholder into the last parameter of exactly its name,
and everything else into itself. Parameters that come in a list go by their numbers. -/
theorem template_substituted (place : FilterPlace) (text : String)
    (parameters : List (String × Filter)) :
    (∀ error, (template text parameters).compileAt place = .error error ↔
      ∃ front parameter rest, parameters = front ++ parameter :: rest ∧
        (∀ earlier ∈ front, ∃ term, earlier.2.compileAt place.detached none = .ok term) ∧
        parameter.2.compileAt place.detached none = .error error) ∧
    (∀ term, (template text parameters).compileAt place = .ok term ↔
      (∀ parameter ∈ parameters, ∃ term, parameter.2.compileAt place.detached none = .ok term) ∧
        ∃ pieces texts, IsCut text.toList pieces ∧
          List.Forall₂ (Renders place.detached parameters) pieces texts ∧
          term = (Term.atom ('(' :: texts.flatten ++ [')'])).bind place.path .eq) ∧
    ∀ filters, positional text filters = template text (numbered filters) ∧
      ∀ k written, Renders place.detached (numbered filters) (.placeholder (ofNat (k + 1))) written ↔
        (∃ filter term, filters[k]? = some filter ∧
          filter.compileAt place.detached none = .ok term ∧ written = '(' :: term.bare ++ [')']) ∨
        filters[k]? = none ∧ written = '$' :: ofNat (k + 1) := by
  refine ⟨fun error => ?failure, fun term => ?success, fun filters => ⟨rfl, fun k written => ?numbers⟩⟩
  case failure =>
    rw [← Filter.compileParameters_eq_error, compileAt, bind_eq_error_iff]
    exact or_iff_left fun ⟨_, _, run⟩ => nomatch run
  case success =>
    rw [compileAt, bind_eq_ok_iff]
    have whole (pieces : List TemplatePiece) (binding : Text → Option Text)
        (cut : TemplatePiece.ofTemplate text.toList = pieces) :
        (pieces.map (TemplatePiece.replaced binding)).flatten = substitute binding text.toList := by
      rw [TemplatePiece.substitute_eq_flatMap, cut, List.flatMap_def]
    constructor
    · rintro ⟨compiled, run, written⟩
      obtain ⟨all, rfl⟩ := Filter.compileParameters_eq_ok.mp run
      refine ⟨all, _, _, TemplatePiece.isCut_iff.mpr rfl,
        (TemplatePiece.forall₂_renders_iff all).mpr rfl, ?_⟩
      rw [whole _ _ rfl]
      exact (Except.ok.inj written).symm
    · rintro ⟨all, pieces, texts, cut, renders, rfl⟩
      refine ⟨_, Filter.compileParameters_eq_ok.mpr ⟨all, rfl⟩, ?_⟩
      rw [(TemplatePiece.forall₂_renders_iff all).mp renders,
        whole pieces _ (TemplatePiece.isCut_iff.mp cut)]
      rfl
  case numbers => exact TemplatePiece.renders_numbered

end FilterOperation

/-- What a parameter brings looks like a placeholder, and a mark may stand in front of a placeholder. -/
example : substitute (fun name => if name = ['1'] then some "($10)".toList else none)
    "$1 $10 $ $$1é".toList = "($10) $10 $ $($10)é".toList := by cbv

end OData
