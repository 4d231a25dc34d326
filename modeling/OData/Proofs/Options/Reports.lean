import Mathlib
import OData.Proofs.Options.Items

namespace OData

open Text

/-- The pieces stand in the text one after another. -/
def Text.InOrder : List Text → Text → Prop
  | [], _ => True
  | piece :: rest, text => ∃ front behind, text = front ++ piece ++ behind ∧ InOrder rest behind

/-- The pieces stand in the texts in order, whatever is written between the texts. -/
def Text.InJoined (pieces texts : List Text) : Prop :=
  ∀ separator, InOrder pieces (join separator texts)

namespace Text.InOrder

variable {pieces others : List Text} {text other : Text}

theorem behind (inside : InOrder pieces text) (front : Text) : InOrder pieces (front ++ text) := by
  cases pieces with
  | nil => trivial
  | cons piece rest =>
    obtain ⟨before, after, rfl, later⟩ := inside
    refine ⟨front ++ before, after, ?_, later⟩
    simp only [List.append_assoc]

theorem append (first : InOrder pieces text) (second : InOrder others other) :
    InOrder (pieces ++ others) (text ++ other) := by
  induction pieces generalizing text with
  | nil => exact second.behind text
  | cons piece rest ih =>
    obtain ⟨front, after, rfl, later⟩ := first
    exact ⟨front, after ++ other, List.append_assoc .., ih later⟩

theorem before (inside : InOrder pieces text) (rest : Text) : InOrder pieces (text ++ rest) := by
  have nothing : InOrder [] rest := trivial
  have whole := inside.append nothing
  rwa [List.append_nil] at whole

theorem single (text : Text) : InOrder [text] text := ⟨[], [], by simp, trivial⟩

theorem cons (first : InOrder pieces text) {texts : List Text} (rest : InJoined others texts) :
    InJoined (pieces ++ others) (text :: texts) := by
  intro separator
  cases texts with
  | nil =>
    have nothing : InOrder others [] := rest separator
    have whole := first.append nothing
    rwa [List.append_nil] at whole
  | cons next texts => exact (first.before separator).append (rest separator)

end Text.InOrder

namespace QueryOption

/-- Whether a count on a navigation property keeps the option. -/
def isKept : QueryOption → Bool
  | .filter _ => true
  | _ => false

/-- Whether the option has the key of filters and is none. -/
def isDisguised : QueryOption → Bool
  | .custom name _ => name = "$filter"
  | _ => false

theorem key_eq_filter_iff {option : QueryOption} :
    option.key = "$filter" ↔ (option.isKept || option.isDisguised) = true := by
  cases option with
  | filter filter => exact iff_of_true rfl rfl
  | custom name value => simp [key, isKept, isDisguised]
  | parameter name value =>
    refine iff_of_false (fun same => ?_) Bool.false_ne_true
    have letters := congrArg String.toList same
    rw [key, String.toList_ofList] at letters
    exact absurd (List.cons.inj letters).1 (by decide)
  | expand _ | orderBy _ | top _ | skip _ | select _ | format _ | count _ =>
    exact iff_of_false (by rw [key]; decide) Bool.false_ne_true

end QueryOption

/-- A place in an expansion that there may be something to report about: the options of a count, or an
ordering that is written as text. -/
inductive ReportSite
  | count (path : String) (inner : Options)
  | ordering (text : String)

namespace ReportSite

/-- What is reported about a place. -/
def reports : ReportSite → List Deprecation
  | .count _ inner =>
    if inner.all fun option => option.isKept || option.isDisguised then []
    else [.expandCountOptions (Options.keys inner)]
  | .ordering text => if Text.contains "/$count".toList text.toList then [.orderByCountText] else []

/-- How a place is written: of a count only the options that it keeps. -/
def IsWritten : ReportSite → Text → Prop
  | .count path inner, text => ∃ options,
      List.Forall₂ (fun option written => option.compile.outcome = .ok written)
        (inner.filter QueryOption.isKept) options ∧
      text = Expand.withOptions (String.ofList (path.toList ++ "/$count".toList)) options
  | .ordering raw, text => text = raw.toList

end ReportSite

mutual

def OrderBy.reportSites : OrderBy → List ReportSite
  | .raw text => [.ordering text]
  | .list items => OrderBy.listReportSites items
  | .object _ _ => []

def OrderBy.listReportSites : List OrderBy → List ReportSite
  | [] => []
  | item :: rest => item.reportSites ++ OrderBy.listReportSites rest

end

mutual

/-- The places of an expansion, from the left to the right and those inside of an option before those
behind it. Nothing inside of a count is one. -/
def Expand.reportSites : Expand → List ReportSite
  | .property _ => []
  | .list expands => Expand.listReportSites expands
  | .object entries => Expand.entryReportSites entries

def Expand.listReportSites : List Expand → List ReportSite
  | [] => []
  | expand :: rest => expand.reportSites ++ Expand.listReportSites rest

def Expand.entryReportSites : List (String × List QueryOption) → List ReportSite
  | [] => []
  | (path, [.count inner]) :: rest => .count path inner :: Expand.entryReportSites rest
  | (_, options) :: rest => QueryOption.listReportSites options ++ Expand.entryReportSites rest

def QueryOption.listReportSites : List QueryOption → List ReportSite
  | [] => []
  | option :: rest => option.reportSites ++ QueryOption.listReportSites rest

def QueryOption.reportSites : QueryOption → List ReportSite
  | .expand expand => expand.reportSites
  | .orderBy ordering => ordering.reportSites
  | _ => []

end

/-- A compilation that reports what there is to report about its places, and whose result has the places
in their order. -/
def Visits {α : Type} (shows : List Text → α → Prop) (sites : List ReportSite)
    (compilation : Compilation α) : Prop :=
  ∀ value, compilation.outcome = .ok value →
    compilation.reports = sites.flatMap ReportSite.reports ∧
      ∃ texts, List.Forall₂ ReportSite.IsWritten sites texts ∧ shows texts value

namespace Visits

open Compilation (bind_eq_ok bind_reports map_eq_ok map_reports)

variable {α β : Type} {shows : List Text → α → Prop} {sites others : List ReportSite}

theorem fail (error : Error) : Visits shows sites (Compilation.fail error) := nofun

theorem lift (outcome : Except Error Text) : Visits InOrder [] (Compilation.lift outcome) :=
  fun _ _ => ⟨rfl, [], .nil, trivial⟩

theorem nil : Visits InJoined [] (pure []) := fun _ _ => ⟨rfl, [], .nil, fun _ => trivial⟩

theorem map {display : List Text → β → Prop} {write : α → β} {compilation : Compilation α}
    (visits : Visits shows sites compilation)
    (carries : ∀ texts value, shows texts value → display texts (write value)) :
    Visits display sites (write <$> compilation) := by
  intro result run
  obtain ⟨value, compiled, rfl⟩ := map_eq_ok.mp run
  obtain ⟨reports, texts, written, inside⟩ := visits value compiled
  rw [map_reports]
  exact ⟨reports, texts, written, carries texts value inside⟩

theorem joined {compilation : Compilation (List Text)} (visits : Visits InJoined sites compilation)
    (separator : Text) : Visits InOrder sites (join separator <$> compilation) :=
  visits.map fun _ _ inside => inside separator

theorem after {check : Except Error Unit} {compilation : Compilation α}
    (visits : Visits shows sites compilation) :
    Visits shows sites (Compilation.lift check >>= fun _ => compilation) := by
  intro value run
  obtain ⟨passed, checked, run⟩ := bind_eq_ok.mp run
  rw [bind_reports checked]
  exact visits value run

theorem cons {first : Compilation Text} {rest : Compilation (List Text)}
    (head : Visits InOrder sites first) (tail : Visits InJoined others rest) :
    Visits InJoined (sites ++ others) (do
      let text ← first
      let texts ← rest
      return text :: texts) := by
  intro result run
  obtain ⟨text, compiled, run⟩ := bind_eq_ok.mp run
  obtain ⟨texts, later, run⟩ := bind_eq_ok.mp run
  obtain rfl := Except.ok.inj run
  obtain ⟨reports, pieces, written, inside⟩ := head text compiled
  obtain ⟨otherReports, otherPieces, otherWritten, otherInside⟩ := tail texts later
  refine ⟨?reports, pieces ++ otherPieces, List.rel_append written otherWritten,
    inside.cons otherInside⟩
  have nothing : (pure (text :: texts) : Compilation (List Text)).reports = [] := rfl
  rw [bind_reports compiled, bind_reports later, nothing, List.append_nil, reports, otherReports,
    List.flatMap_append]

end Visits

namespace OrderBy

theorem compileItem_visits (ordering : OrderBy) :
    Visits InOrder ordering.reportSites (compileItem ordering) := by
  match ordering with
  | .raw text =>
    intro value run
    rw [compileItem] at run ⊢
    rw [reportSites, List.flatMap_singleton, ReportSite.reports]
    split at run
    case isTrue counted =>
      obtain rfl := Except.ok.inj run
      rw [if_pos counted, if_pos counted]
      exact ⟨rfl, [text.toList], .cons rfl .nil, .single _⟩
    case isFalse uncounted =>
      obtain rfl := Except.ok.inj run
      rw [if_neg uncounted, if_neg uncounted]
      exact ⟨rfl, [text.toList], .cons rfl .nil, .single _⟩
  | .list _ => exact .fail _
  | .object [] _ => exact .fail _
  | .object (_ :: _ :: _) _ => exact .fail _
  | .object [(property, key)] direction => exact .lift _

theorem compileItems_visits (items : List OrderBy) :
    Visits InJoined (listReportSites items) (compileItems items) := by
  induction items with
  | nil => exact .nil
  | cons item rest ih => exact (compileItem_visits item).cons ih

theorem compile_visits (ordering : OrderBy) : Visits InOrder ordering.reportSites ordering.compile := by
  match ordering with
  | .list [] => exact .fail _
  | .list (first :: others) => exact (compileItems_visits (first :: others)).joined [',']
  | .raw text => exact compileItem_visits _
  | .object entries direction => exact compileItem_visits _

end OrderBy

namespace Expand

/-- The compiled filters of a count are its compiled options, as far as it keeps them. -/
theorem compileFilters_kept {inner : Options} {texts : List Text}
    (run : compileFilters (countFilters inner) = .ok texts) :
    List.Forall₂ (fun option written => option.compile.outcome = .ok written)
      (inner.filter QueryOption.isKept) texts := by
  induction inner generalizing texts with
  | nil =>
    obtain rfl := Except.ok.inj run
    exact .nil
  | cons option rest ih =>
    cases option with
    | filter filter =>
      obtain ⟨text, compiled, run⟩ := bind_eq_ok_iff.mp run
      obtain ⟨others, later, run⟩ := bind_eq_ok_iff.mp run
      obtain rfl := Except.ok.inj run
      exact .cons (Compilation.map_eq_ok.mpr ⟨text, compiled, rfl⟩) (ih later)
    | expand _ | orderBy _ | top _ | skip _ | select _ | format _ | count _ | parameter _ _
    | custom _ _ => exact ih run

/-- What is reported goes by the keys, and only filters and options in their disguise have theirs. -/
theorem any_keys_ne_filter (inner : Options) :
    (Options.keys inner).any (· != "$filter") =
      !inner.all fun option => option.isKept || option.isDisguised := by
  rw [Options.keys, List.any_map, List.not_all_eq_any_not]
  refine congrArg inner.any (funext fun option => ?_)
  rw [Function.comp_apply, bne, Bool.not_inj_iff, Bool.eq_iff_iff, beq_iff_eq]
  exact QueryOption.key_eq_filter_iff

/-- A count reports and then compiles its filters, so its reports do not depend on these. -/
theorem compileCount_eq (path : String) (inner : Options) :
    compileCount path inner =
      ⟨(ReportSite.count path inner).reports,
        withOptions (String.ofList (path.toList ++ "/$count".toList)) <$>
          compileFilters (countFilters inner)⟩ := by
  rw [compileCount, any_keys_ne_filter, ReportSite.reports]
  cases inner.all fun option => option.isKept || option.isDisguised <;>
    cases compileFilters (countFilters inner) <;> rfl

theorem compileCount_visits (path : String) (inner : Options) :
    Visits InOrder [.count path inner] (compileCount path inner) := by
  rw [compileCount_eq]
  intro value run
  obtain ⟨options, compiled, rfl⟩ := map_eq_ok_iff.mp run
  exact ⟨(List.flatMap_singleton ..).symm, [_],
    .cons ⟨options, compileFilters_kept compiled, rfl⟩ .nil, .single _⟩

theorem withOptions_inOrder {pieces options : List Text} (inside : InJoined pieces options)
    (path : String) : InOrder pieces (withOptions path options) := by
  unfold withOptions
  split
  case isTrue empty =>
    obtain rfl := List.isEmpty_iff.mp empty
    have nothing : InOrder pieces [] := inside []
    have whole := nothing.behind (Uri.encodeResource (.single path))
    rwa [List.append_nil] at whole
  case isFalse =>
    have opened := (inside [';']).behind (Uri.encodeResource (.single path) ++ ['('])
    have closed := opened.before [')']
    simpa only [List.append_assoc, List.singleton_append, List.cons_append, List.nil_append] using closed

end Expand

theorem QueryOption.assign_inOrder {pieces : List Text} {text : Text} (inside : InOrder pieces text)
    (key : String) : InOrder pieces (assign key text) := by
  have whole := inside.behind (key.toList ++ ['='])
  rwa [List.append_assoc] at whole

mutual

theorem Expand.compile_visits : (expand : Expand) → Visits InOrder expand.reportSites expand.compile
  | .property _ => .lift _
  | .list [] => .fail _
  | .list (first :: others) => (Expand.compileList_visits (first :: others)).joined [',']
  | .object entries => (Expand.compileEntries_visits entries).joined [',']

theorem Expand.compileList_visits : (expands : List Expand) →
    Visits InJoined (Expand.listReportSites expands) (Expand.compileList expands)
  | [] => .nil
  | expand :: rest => expand.compile_visits.cons (Expand.compileList_visits rest)

theorem Expand.compileEntries_visits : (entries : List (String × List QueryOption)) →
    Visits InJoined (Expand.entryReportSites entries) (Expand.compileEntries entries)
  | [] => .nil
  | (path, options) :: rest => by
    have nested := QueryOption.compileNested_visits options
    have later := Expand.compileEntries_visits rest
    rw [Expand.compileEntries]
    refine Visits.after ?_
    split
    case h_1 inner => exact (Expand.compileCount_visits path inner).cons later
    case h_2 other =>
      rw [Expand.entryReportSites]
      · split
        · exact Visits.cons (.fail _) later
        · exact (nested.map fun _ _ inside => Expand.withOptions_inOrder inside path).cons later
      · exact other

theorem QueryOption.compileNested_visits : (options : List QueryOption) →
    Visits InJoined (QueryOption.listReportSites options) (QueryOption.compileNested options)
  | [] => .nil
  | option :: rest => by
    have head := option.compile_visits
    have later := QueryOption.compileNested_visits rest
    rw [QueryOption.compileNested]
    split
    case isTrue => exact head.cons later
    case isFalse => exact Visits.cons (.fail _) later

theorem QueryOption.compile_visits : (option : QueryOption) →
    Visits InOrder option.reportSites option.compile
  | .filter filter =>
    (Visits.lift filter.compile).map fun _ _ inside => QueryOption.assign_inOrder inside _
  | .expand expand =>
    expand.compile_visits.map fun _ _ inside => QueryOption.assign_inOrder inside _
  | .orderBy ordering =>
    ordering.compile_visits.map fun _ _ inside => QueryOption.assign_inOrder inside _
  | .top _ => .lift _
  | .skip _ => .lift _
  | .select select =>
    (Visits.lift select.compile).map fun _ _ inside => QueryOption.assign_inOrder inside _
  | .format _ => .lift _
  | .count _ => .fail _
  | .parameter _ _ => .lift _
  | .custom name value => by
    rw [QueryOption.compile]
    split
    · exact .fail _
    · exact .lift _

end

namespace ReportSite

variable {path : String} {inner : Options}

theorem reports_count_of_dropped (honest : ∀ option ∈ inner, option.isDisguised = false)
    (dropped : ∃ option ∈ inner, option.isKept = false) :
    (count path inner).reports = [.expandCountOptions (Options.keys inner)] := by
  refine if_neg fun all => ?_
  obtain ⟨option, member, lost⟩ := dropped
  have passed := List.all_eq_true.mp all option member
  rw [lost, honest option member] at passed
  cases passed

theorem reports_count_of_kept (kept : ∀ option ∈ inner, option.isKept = true) :
    (count path inner).reports = [] :=
  if_pos (List.all_eq_true.mpr fun option member => by rw [kept option member, Bool.true_or])

end ReportSite

/-- The reports of an accepted expansion are those about its places, in the order in which these stand in
the text, and of a count exactly the filters are written. So as long as nothing else in a count has the
key of filters, a count is reported, with all its keys, if something in it was dropped, and is not
reported if nothing was. -/
theorem Expand.compile_reports {expand : Expand} {text : Text}
    (run : expand.compile.outcome = .ok text) :
    expand.compile.reports = expand.reportSites.flatMap ReportSite.reports ∧
      (∃ texts, List.Forall₂ ReportSite.IsWritten expand.reportSites texts ∧ InOrder texts text) ∧
      ∀ front path inner rest, expand.reportSites = front ++ .count path inner :: rest →
        (∀ option ∈ inner, option.isDisguised = false) →
        ((∃ option ∈ inner, option.isKept = false) →
          expand.compile.reports = front.flatMap ReportSite.reports ++
            .expandCountOptions (Options.keys inner) :: rest.flatMap ReportSite.reports) ∧
        ((∀ option ∈ inner, option.isKept = true) →
          expand.compile.reports =
            front.flatMap ReportSite.reports ++ rest.flatMap ReportSite.reports) := by
  obtain ⟨reports, places⟩ := expand.compile_visits text run
  refine ⟨reports, places, ?_⟩
  intro front path inner rest sites honest
  rw [reports, sites, List.flatMap_append, List.flatMap_cons]
  refine ⟨fun dropped => ?_, fun kept => ?_⟩
  · rw [ReportSite.reports_count_of_dropped honest dropped, List.singleton_append]
  · rw [ReportSite.reports_count_of_kept kept, List.nil_append]

/-- A count inside of an expansion is reported before a count behind it. -/
theorem Expand.compile_reports_nested :
    (Expand.object [("a", [.expand (.object [("b", [.count [.top 1, .filter (.value (.bool true))]])]),
        .top 2]), ("c", [.count [.skip 3]])]).compile.outcome =
        .ok "a($expand=b/$count($filter=true);$top=2),c/$count".toList ∧
      (Expand.object [("a", [.expand (.object [("b", [.count
          [.top 1, .filter (.value (.bool true))]])]), .top 2]),
        ("c", [.count [.skip 3]])]).compile.reports =
        [.expandCountOptions ["$top", "$filter"], .expandCountOptions ["$skip"]] := by
  have run : (Expand.object [("a", [.expand (.object [("b", [.count
          [.top 1, .filter (.value (.bool true))]])]), .top 2]),
        ("c", [.count [.skip 3]])]).compile.outcome =
      .ok "a($expand=b/$count($filter=true);$top=2),c/$count".toList := rfl
  have honest : ∀ option ∈ [QueryOption.top 1, .filter (.value (.bool true))],
      option.isDisguised = false := by simp [QueryOption.isDisguised]
  have first := (compile_reports run).2.2 [] "b" _ [.count "c" [.skip 3]] rfl honest
  exact ⟨run, first.1 ⟨.top 1, List.mem_cons_self .., rfl⟩⟩

/-- A custom option in disguise is dropped, and nothing is reported. -/
theorem Expand.disguised_option_dropped :
    ¬ ∀ (expand : Expand) (text : Text) (path : String) (inner : Options),
      expand.compile.outcome = .ok text → .count path inner ∈ expand.reportSites →
        (∃ option ∈ inner, option.isKept = false) →
          .expandCountOptions (Options.keys inner) ∈ expand.compile.reports := by
  intro always
  have reported := always (.object [("a", [.count [.custom "$filter" (.text "x")]])])
    "a/$count".toList "a" [.custom "$filter" (.text "x")] rfl (List.mem_cons_self ..)
    ⟨.custom "$filter" (.text "x"), List.mem_cons_self .., rfl⟩
  exact List.not_mem_nil reported

end OData
