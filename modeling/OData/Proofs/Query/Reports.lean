import Mathlib
import OData.Proofs.Options.Reports
import OData.Query.Compile

namespace OData

/-- The reports of a part, and those that come later if the part passes. -/
def Compilation.thenReports {α : Type} (part : Compilation α) (own later : List Deprecation) :
    List Deprecation :=
  own ++ if part.outcome.isOk then later else []

namespace OrderBy

/-- What is reported about an ordering that is no list. -/
def itemReports : OrderBy → List Deprecation
  | .raw text => (ReportSite.ordering text).reports
  | .list _ | .object _ _ => []

def itemsReports : List OrderBy → List Deprecation
  | [] => []
  | item :: rest => (compileItem item).thenReports item.itemReports (itemsReports rest)

def reports : OrderBy → List Deprecation
  | .list items => itemsReports items
  | item => item.itemReports

end OrderBy

mutual

/-- What the compilation of an expansion reports. -/
def Expand.reports : Expand → List Deprecation
  | .property _ => []
  | .list items => Expand.listReports items
  | .object entries => Expand.entriesReports entries

def Expand.listReports : List Expand → List Deprecation
  | [] => []
  | expand :: rest => expand.compile.thenReports expand.reports (Expand.listReports rest)

def Expand.entriesReports : List (String × List QueryOption) → List Deprecation
  | [] => []
  | (path, options) :: rest =>
    if (checkExpandKey path).isOk then
      match options with
      | [.count inner] => (Expand.compileCount path inner).thenReports
          (ReportSite.count path inner).reports (Expand.entriesReports rest)
      | options =>
        if (Options.count? options).isSome then []
        else (QueryOption.compileNested options).thenReports (QueryOption.nestedReports options)
          (Expand.entriesReports rest)
    else []

/-- What the compilation of options on a navigation property reports. -/
def QueryOption.nestedReports : List QueryOption → List Deprecation
  | [] => []
  | option :: rest =>
    if option.isNestable then
      option.compile.thenReports option.reports (QueryOption.nestedReports rest)
    else []

def QueryOption.reports : QueryOption → List Deprecation
  | .expand expand => expand.reports
  | .orderBy ordering => ordering.reports
  | _ => []

end

def Options.reports : Options → List Deprecation
  | [] => []
  | option :: rest => option.compile.thenReports option.reports (Options.reports rest)

/-- What is reported about the options of a query, which are not looked at if a count is among them and
does not stand alone. -/
def Query.optionsReports (options : Options) : List Deprecation :=
  match Options.count? options with
  | none => Options.reports options
  | some inner => if 1 < options.length then [] else Options.reports inner

/-- What the compilation of a query reports. The options come behind the path. -/
def Query.reports (query : Query) : List Deprecation :=
  match query.url, query.resource, query.options with
  | some _, _, _ => [.url]
  | none, some resource, some options =>
    if (compilePath resource query.id query.action).isOk then optionsReports options else []
  | none, _, _ => []

namespace Compilation

variable {α β : Type}

/-- Parts that are compiled one after another report as they do alone, up to the first one that fails. -/
theorem cons_reports (first : Compilation α) (rest : Compilation (List α)) :
    (do let part ← first
        let parts ← rest
        return part :: parts).reports = first.thenReports first.reports rest.reports := by
  obtain ⟨reports, outcome⟩ := first
  obtain ⟨later, parts⟩ := rest
  cases outcome with
  | error error => exact (List.append_nil reports).symm
  | ok part =>
    cases parts with
    | error error => rfl
    | ok parts => exact congrArg (reports ++ ·) (List.append_nil later)

theorem thenReports_map (write : α → β) (part : Compilation α) (own later : List Deprecation) :
    (write <$> part).thenReports own later = part.thenReports own later := by
  obtain ⟨reports, outcome⟩ := part
  cases outcome <;> rfl

/-- Behind a check nothing is reported unless it passes. -/
theorem check_reports (check : Except Error Unit) (next : Compilation α) :
    (lift check >>= fun _ => next).reports = if check.isOk then next.reports else [] := by
  cases check <;> rfl

end Compilation

open Compilation (cons_reports thenReports_map check_reports map_reports)

namespace OrderBy

theorem compileItem_reports (item : OrderBy) : (compileItem item).reports = item.itemReports := by
  match item with
  | .raw text =>
    rw [compileItem, itemReports, ReportSite.reports]
    split <;> rfl
  | .list _ | .object [] _ | .object [_] _ | .object (_ :: _ :: _) _ => rfl

theorem compileItems_reports (items : List OrderBy) :
    (compileItems items).reports = itemsReports items := by
  induction items with
  | nil => rfl
  | cons item rest ih => rw [compileItems, cons_reports, ih, compileItem_reports, itemsReports]

theorem reports_compile (ordering : OrderBy) : ordering.compile.reports = ordering.reports := by
  match ordering with
  | .list [] => rfl
  | .list (first :: others) => exact (map_reports _ _).trans (compileItems_reports (first :: others))
  | .raw _ | .object _ _ => exact compileItem_reports _

end OrderBy

mutual

theorem Expand.reports_compile : (expand : Expand) → expand.compile.reports = expand.reports
  | .property _ => rfl
  | .list [] => rfl
  | .list (first :: others) =>
    (map_reports _ _).trans (Expand.listReports_compile (first :: others))
  | .object entries => (map_reports _ _).trans (Expand.entriesReports_compile entries)

theorem Expand.listReports_compile : (expands : List Expand) →
    (Expand.compileList expands).reports = Expand.listReports expands
  | [] => rfl
  | expand :: rest => by
    rw [Expand.compileList, cons_reports, expand.reports_compile, Expand.listReports_compile rest,
      Expand.listReports]

theorem Expand.entriesReports_compile : (entries : List (String × List QueryOption)) →
    (Expand.compileEntries entries).reports = Expand.entriesReports entries
  | [] => rfl
  | (path, options) :: rest => by
    have nested := QueryOption.nestedReports_compile options
    have later := Expand.entriesReports_compile rest
    by_cases counted : ∃ inner, options = [.count inner]
    · obtain ⟨inner, rfl⟩ := counted
      rw [Expand.compileEntries, check_reports, cons_reports, Expand.compileCount_eq, later,
        Expand.entriesReports, Expand.compileCount_eq]
    · rw [Expand.compileEntries, check_reports, Expand.entriesReports]
      · refine if_congr Iff.rfl ?_ rfl
        split
        case h_1 inner => exact (counted ⟨inner, rfl⟩).elim
        case h_2 =>
          split
          · rfl
          · rw [cons_reports, map_reports, thenReports_map, nested, later]
      · exact fun inner same => counted ⟨inner, same⟩

theorem QueryOption.nestedReports_compile : (options : List QueryOption) →
    (QueryOption.compileNested options).reports = QueryOption.nestedReports options
  | [] => rfl
  | option :: rest => by
    have head := option.reports_compile
    have later := QueryOption.nestedReports_compile rest
    rw [QueryOption.compileNested, QueryOption.nestedReports]
    split
    · rw [cons_reports, head, later]
    · rfl

theorem QueryOption.reports_compile : (option : QueryOption) → option.compile.reports = option.reports
  | .filter filter => map_reports _ _
  | .expand expand => (map_reports _ _).trans expand.reports_compile
  | .orderBy ordering => (map_reports _ _).trans ordering.reports_compile
  | .top _ | .skip _ | .format _ | .count _ | .parameter _ _ => rfl
  | .select select => map_reports _ _
  | .custom name value => by
    rw [QueryOption.compile]
    split <;> rfl

end

theorem Options.reports_compileList (options : Options) :
    (compileList options).reports = reports options := by
  induction options with
  | nil => rfl
  | cons option rest ih => rw [compileList, cons_reports, ih, option.reports_compile, reports]

theorem Options.reports_compile (options : Options) : (compile options).reports = reports options :=
  (map_reports _ _).trans (reports_compileList options)

namespace Query

theorem withOptions_reports (path : Text) (options : Options) :
    (withOptions path options).reports = Options.reports options := by
  have asMap : withOptions path options =
      (fun text => if text.isEmpty then path else path ++ '?' :: text) <$> Options.compile options := rfl
  rw [asMap, map_reports, Options.reports_compile]

theorem compileOptions_reports (path : Text) (options : Options) :
    (compileOptions path options).reports = optionsReports options := by
  rw [compileOptions, optionsReports]
  cases Options.count? options with
  | none => exact withOptions_reports ..
  | some inner =>
    dsimp only
    split
    · rfl
    · exact withOptions_reports ..

theorem reports_compile (query : Query) : query.compile.reports = query.reports := by
  obtain ⟨resource, id, action, url, options⟩ := query
  match url, resource, options with
  | some _, _, _ => rfl
  | none, none, _ => rfl
  | none, some resource, none =>
    have steps : compile { resource := some resource, id, action } =
        Compilation.lift (compilePath resource id action) >>= pure := rfl
    rw [steps]
    cases compilePath resource id action <;> rfl
  | none, some resource, some options =>
    have steps : compile { resource := some resource, id, action, options := some options } =
        Compilation.lift (compilePath resource id action) >>= fun path =>
          compileOptions path options := rfl
    have own : reports { resource := some resource, id, action, options := some options } =
        if (compilePath resource id action).isOk then optionsReports options else [] := rfl
    rw [steps, own]
    cases compilePath resource id action with
    | error error => rfl
    | ok path => exact compileOptions_reports path options

end Query

end OData
