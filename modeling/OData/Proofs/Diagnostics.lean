import Mathlib
import OData.Diagnostics
import OData.Proofs.Query.Reports

namespace OData

/-- Whether no report in front of a place has the key of the one there. -/
def isFirstReport (reports : List Deprecation) (placed : Deprecation × Nat) : Bool :=
  (reports.take placed.2).all fun earlier => earlier.key ≠ placed.1.key

/-- The reports whose key no earlier one has. -/
def firstReports (reports : List Deprecation) : List Deprecation :=
  (reports.zipIdx.filter (isFirstReport reports)).map Prod.fst

theorem firstReports_snoc (reports : List Deprecation) (report : Deprecation) :
    firstReports (reports ++ [report]) = firstReports reports ++
      if report.key ∈ reports.map Deprecation.key then [] else [report] := by
  have front : reports.zipIdx.filter (isFirstReport (reports ++ [report])) =
      reports.zipIdx.filter (isFirstReport reports) := by
    refine List.filter_congr fun placed member => ?_
    have before : placed.2 ≤ reports.length := (List.snd_lt_of_mem_zipIdx member).le
    rw [isFirstReport, List.take_append_of_le_length before, isFirstReport]
  have last : isFirstReport (reports ++ [report]) (report, reports.length) =
      !decide (report.key ∈ reports.map Deprecation.key) := by
    rw [isFirstReport, List.take_left, List.all_eq_not_any_not, Bool.not_inj_iff, Bool.eq_iff_iff]
    simp
  rw [firstReports, List.zipIdx_append, List.filter_append, List.map_append, front]
  refine congrArg (firstReports reports ++ ·) ?_
  by_cases seen : report.key ∈ reports.map Deprecation.key
  · simp [last, seen]
  · simp [last, seen]

theorem firstReports_sublist (reports : List Deprecation) : (firstReports reports).Sublist reports := by
  have kept : List.Sublist (reports.zipIdx.filter (isFirstReport reports)) reports.zipIdx :=
    List.filter_sublist
  have images := kept.map Prod.fst
  rwa [List.zipIdx_map_fst] at images

theorem mem_keys_firstReports (key : String) (reports : List Deprecation) :
    key ∈ (firstReports reports).map Deprecation.key ↔ key ∈ reports.map Deprecation.key := by
  induction reports using List.reverseRecOn with
  | nil => rfl
  | append_singleton reports report ih =>
    rw [firstReports_snoc, List.map_append, List.map_append, List.mem_append, List.mem_append, ih]
    split
    case isTrue seen =>
      constructor
      · exact fun member => Or.inl (member.resolve_right List.not_mem_nil)
      · rintro (member | same)
        · exact Or.inl member
        · obtain rfl := List.mem_singleton.mp same
          exact Or.inl seen
    case isFalse => rfl

theorem keys_firstReports_nodup (reports : List Deprecation) :
    ((firstReports reports).map Deprecation.key).Nodup := by
  induction reports using List.reverseRecOn with
  | nil => exact List.nodup_nil
  | append_singleton reports report ih =>
    rw [firstReports_snoc]
    split
    case isTrue => rwa [List.append_nil]
    case isFalse unseen =>
      rw [List.map_append, List.map_singleton, List.nodup_append]
      refine ⟨ih, List.nodup_singleton _, fun key member other isLast => ?_⟩
      obtain rfl := List.mem_singleton.mp isLast
      rintro rfl
      exact unseen ((mem_keys_firstReports _ reports).mp member)

namespace DiagnosticsSink

/-- Reports in two portions are delivered as they are at once. -/
theorem deliver_append (sink : DiagnosticsSink) (first second : List Deprecation) :
    sink.deliver (first ++ second) =
      ((sink.deliver first).1 ++ ((sink.deliver first).2.deliver second).1,
        ((sink.deliver first).2.deliver second).2) := by
  induction first generalizing sink with
  | nil => rfl
  | cons report rest ih =>
    simp only [List.cons_append, deliver, ih]
    split <;> rfl

theorem deliver_silent (reports : List Deprecation) : silent.deliver reports = ([], silent) := by
  induction reports with
  | nil => rfl
  | cons report rest ih =>
    simp only [deliver, receive, ih]
    rfl

theorem deliver_every (reports : List Deprecation) : every.deliver reports = (reports, every) := by
  induction reports with
  | nil => rfl
  | cons report rest ih => simp only [deliver, receive, ih, if_true]

/-- A sink that was fresh has logged the first report of each key, and it knows exactly the keys that were
reported to it. -/
theorem deliver_fresh (reports : List Deprecation) :
    ∃ seen, fresh.deliver reports = (firstReports reports, once seen) ∧
      ∀ key, key ∈ seen ↔ key ∈ reports.map Deprecation.key := by
  induction reports using List.reverseRecOn with
  | nil => exact ⟨[], rfl, fun _ => Iff.rfl⟩
  | append_singleton reports report ih =>
    obtain ⟨seen, delivered, known⟩ := ih
    rw [deliver_append, delivered, firstReports_snoc]
    by_cases old : report.key ∈ reports.map Deprecation.key
    · refine ⟨seen, ?_, fun key => ?_⟩
      · have kept : seen.contains report.key := List.contains_iff_mem.mpr ((known _).mpr old)
        simp only [deliver, receive, if_pos kept, if_pos old]
        rfl
      · rw [known, List.map_append, List.mem_append, List.map_singleton, List.mem_singleton]
        exact ⟨Or.inl, fun member => member.elim id fun same => same ▸ old⟩
    · refine ⟨report.key :: seen, ?_, fun key => ?_⟩
      · have unknown : ¬ seen.contains report.key := fun kept =>
          old ((known _).mp (List.contains_iff_mem.mp kept))
        simp only [deliver, receive, if_neg unknown, if_neg old]
        rfl
      · rw [List.mem_cons, known, List.map_append, List.mem_append, List.map_singleton,
          List.mem_singleton]
        exact or_comm

end DiagnosticsSink

/-- What a compilation comes to with a sink: what it logged, the sink after it, and its result. -/
structure Delivered (α : Type) where
  logged : List Deprecation
  sink : DiagnosticsSink
  outcome : Except Error α

namespace Compilation

variable {α β : Type}

/-- A compilation whose reports go to a sink. -/
def into (compilation : Compilation α) (sink : DiagnosticsSink) : Delivered α :=
  let (logged, last) := sink.deliver compilation.reports
  ⟨logged, last, compilation.outcome⟩

/-- The sink may be passed along, so that it has every report when it is made. -/
theorem into_bind (first : Compilation α) (next : α → Compilation β) (sink : DiagnosticsSink) :
    (first >>= next).into sink =
      match first.into sink with
      | ⟨logged, passed, .error error⟩ => ⟨logged, passed, .error error⟩
      | ⟨logged, passed, .ok value⟩ =>
        let last := (next value).into passed
        ⟨logged ++ last.logged, last.sink, last.outcome⟩ := by
  obtain ⟨reports, outcome⟩ := first
  cases outcome with
  | error error => rfl
  | ok value =>
    simp only [into, Bind.bind, bind, DiagnosticsSink.deliver_append]

end Compilation

/-- A call of the compiler. -/
inductive CompilerCall
  | query (description : Query)
  | permission (description : Permission)
  | filter (condition : Filter)
  | expand (expansion : Expand)
  | orderBy (ordering : OrderBy)
  | option (single : QueryOption)
  | options (whole : Options)

namespace CompilerCall

def compilation : CompilerCall → Compilation Text
  | query description => description.compile
  | permission description => .lift description.compile
  | filter condition => .lift condition.compile
  | expand expansion => expansion.compile
  | orderBy ordering => ordering.compile
  | option single => single.compile
  | options whole => Options.compile whole

/-- What a call reports, however it ends. -/
def reports : CompilerCall → List Deprecation
  | query description => description.reports
  | permission _ | filter _ => []
  | expand expansion => expansion.reports
  | orderBy ordering => ordering.reports
  | option single => single.reports
  | options whole => Options.reports whole

theorem reports_compilation (call : CompilerCall) : call.compilation.reports = call.reports := by
  cases call with
  | query description => exact description.reports_compile
  | permission _ | filter _ => rfl
  | expand expansion => exact expansion.reports_compile
  | orderBy ordering => exact ordering.reports_compile
  | option single => exact single.reports_compile
  | options whole => exact Options.reports_compile whole

variable {ι : Type} [DecidableEq ι]

/-- Calls one after another, each with the sink of the name beside it. -/
def play (sinks : ι → DiagnosticsSink) : List (ι × CompilerCall) → List (ι × Delivered Text)
  | [] => []
  | (name, call) :: rest =>
    let delivered := call.compilation.into (sinks name)
    (name, delivered) :: play (Function.update sinks name delivered.sink) rest

/-- What one sink has logged. -/
def loggedAt (name : ι) (record : List (ι × Delivered Text)) : List Deprecation :=
  (record.filter (·.1 = name)).flatMap (·.2.logged)

def warningsAt (name : ι) (record : List (ι × Delivered Text)) : List LogRecord :=
  (loggedAt name record).map Deprecation.log

/-- What is reported to one sink, also by calls that fail. -/
def reportsTo (name : ι) (calls : List (ι × CompilerCall)) : List Deprecation :=
  (calls.filter (·.1 = name)).flatMap (·.2.reports)

variable {name : ι}

/-- The calls that are given one sink come to what they come to without the others. -/
theorem filter_play (calls : List (ι × CompilerCall)) {sinks alone : ι → DiagnosticsSink}
    (same : alone name = sinks name) :
    (play sinks calls).filter (·.1 = name) = play alone (calls.filter (·.1 = name)) := by
  induction calls generalizing sinks alone with
  | nil => rfl
  | cons head rest ih =>
    obtain ⟨other, call⟩ := head
    by_cases own : other = name
    · subst own
      have next : Function.update alone other (call.compilation.into (alone other)).sink other =
          Function.update sinks other (call.compilation.into (sinks other)).sink other := by
        rw [Function.update_self, Function.update_self, same]
      simp only [play, List.filter_cons, decide_true, if_true]
      rw [ih next, same]
    · have next : alone name = Function.update sinks other
          (call.compilation.into (sinks other)).sink name := by
        rw [Function.update_of_ne (Ne.symm own), same]
      simp only [play, List.filter_cons, own, decide_false, Bool.false_eq_true, if_false]
      exact ih next

/-- Over a history a sink logs what it logs of all reports at once. -/
theorem loggedAt_play (sinks : ι → DiagnosticsSink) (calls : List (ι × CompilerCall)) :
    loggedAt name (play sinks calls) = ((sinks name).deliver (reportsTo name calls)).1 := by
  induction calls generalizing sinks with
  | nil => rfl
  | cons head rest ih =>
    obtain ⟨other, call⟩ := head
    have later := ih (Function.update sinks other (call.compilation.into (sinks other)).sink)
    simp only [loggedAt, reportsTo] at later
    by_cases own : other = name
    · subst own
      rw [Function.update_self] at later
      simp only [loggedAt, reportsTo, play, List.filter_cons, decide_true, if_true,
        List.flatMap_cons, later, DiagnosticsSink.deliver_append, ← reports_compilation]
      rfl
    · rw [Function.update_of_ne (Ne.symm own)] at later
      simp only [loggedAt, reportsTo, play, List.filter_cons, own, decide_false,
        Bool.false_eq_true, if_false, later]

/-- What is logged stays when the history goes on. -/
theorem loggedAt_play_append (name : ι) (sinks : ι → DiagnosticsSink)
    (front rest : List (ι × CompilerCall)) :
    ∃ later, loggedAt name (play sinks (front ++ rest)) = loggedAt name (play sinks front) ++ later := by
  rw [loggedAt_play, loggedAt_play, reportsTo, List.filter_append, List.flatMap_append,
    DiagnosticsSink.deliver_append]
  exact ⟨_, rfl⟩

theorem loggedAt_play_every (calls : List (ι × CompilerCall)) :
    loggedAt name (play (fun _ => .every) calls) = reportsTo name calls := by
  rw [loggedAt_play, DiagnosticsSink.deliver_every]

theorem loggedAt_play_fresh {sinks : ι → DiagnosticsSink} (unused : sinks name = .fresh)
    (calls : List (ι × CompilerCall)) :
    loggedAt name (play sinks calls) = firstReports (reportsTo name calls) := by
  obtain ⟨seen, delivered, _⟩ := DiagnosticsSink.deliver_fresh (reportsTo name calls)
  rw [loggedAt_play, unused, delivered]

theorem outcomes_play (sinks : ι → DiagnosticsSink) (calls : List (ι × CompilerCall)) :
    (play sinks calls).map (·.2.outcome) = calls.map (·.2.compilation.outcome) := by
  induction calls generalizing sinks with
  | nil => rfl
  | cons head rest ih => simp only [play, List.map_cons, ih, Compilation.into]

/-- A sink logs the first report of each key that its calls make, in their order and among what would be
logged without it. A report of a call counts, however the call ends. -/
structure LogsOnce (sinks : ι → DiagnosticsSink) (calls : List (ι × CompilerCall)) (name : ι) : Prop where
  warnings : warningsAt name (play sinks calls) = (firstReports (reportsTo name calls)).map Deprecation.log
  subsequence : (warningsAt name (play sinks calls)).Sublist
    (warningsAt name (play (fun _ => .every) calls))
  nodup : ((loggedAt name (play sinks calls)).map Deprecation.key).Nodup
  counted : ∀ front call rest, calls = front ++ (name, call) :: rest →
    ∀ report ∈ call.reports, ∃ later,
      loggedAt name (play sinks calls) =
        loggedAt name (play sinks (front ++ [(name, call)])) ++ later ∧
      report.key ∈ (loggedAt name (play sinks (front ++ [(name, call)]))).map Deprecation.key ∧
      report.key ∉ later.map Deprecation.key

theorem keys_loggedAt_nodup {sinks : ι → DiagnosticsSink} (unused : sinks name = .fresh)
    (calls : List (ι × CompilerCall)) :
    ((loggedAt name (play sinks calls)).map Deprecation.key).Nodup := by
  rw [loggedAt_play_fresh unused]
  exact keys_firstReports_nodup _

theorem logsOnce {sinks : ι → DiagnosticsSink} (unused : sinks name = .fresh)
    (calls : List (ι × CompilerCall)) : LogsOnce sinks calls name where
  warnings := by rw [warningsAt, loggedAt_play_fresh unused]
  subsequence := by
    rw [warningsAt, warningsAt, loggedAt_play_fresh unused, loggedAt_play_every]
    exact (firstReports_sublist _).map _
  nodup := keys_loggedAt_nodup unused calls
  counted := by
    rintro front call rest rfl report reported
    have known : report.key ∈
        (loggedAt name (play sinks (front ++ [(name, call)]))).map Deprecation.key := by
      rw [loggedAt_play_fresh unused, mem_keys_firstReports]
      have called : (name, call) ∈ (front ++ [(name, call)]).filter (·.1 = name) :=
        List.mem_filter.mpr ⟨List.mem_append_right _ (List.mem_singleton_self _), decide_eq_true rfl⟩
      exact List.mem_map_of_mem (List.mem_flatMap.mpr ⟨_, called, reported⟩)
    obtain ⟨later, split⟩ := loggedAt_play_append name sinks (front ++ [(name, call)]) rest
    rw [List.append_assoc, List.singleton_append] at split
    have once := keys_loggedAt_nodup unused (front ++ (name, call) :: rest)
    rw [split, List.map_append] at once
    exact ⟨later, split, known, List.disjoint_of_nodup_append once known⟩

/-- Over every history of calls that are given sinks by name: a sink that was fresh logs the first report
of each key; a sink that logs all has every report, and a silent one none; the calls with one sink log and
return what they do without the calls with others; and no sink has a part in what is returned. -/
theorem play_logs (sinks : ι → DiagnosticsSink) (calls : List (ι × CompilerCall)) :
    (∀ name, sinks name = .fresh → LogsOnce sinks calls name) ∧
    (∀ name, warningsAt name (play (fun _ => .every) calls) = (reportsTo name calls).map Deprecation.log) ∧
    (∀ name alone, alone name = sinks name →
      (play sinks calls).filter (·.1 = name) = play alone (calls.filter (·.1 = name))) ∧
    (∀ name, warningsAt name (play (fun _ => .silent) calls) = []) ∧
    (play sinks calls).map (·.2.outcome) = (play (fun _ => .silent) calls).map (·.2.outcome) := by
  refine ⟨fun name unused => logsOnce unused calls, fun name => ?_, fun name alone => filter_play calls,
    fun name => ?_, ?_⟩
  · rw [warningsAt, loggedAt_play_every]
  · rw [warningsAt, loggedAt_play, DiagnosticsSink.deliver_silent, List.map_nil]
  · rw [outcomes_play, outcomes_play]

/-- The list of orderings fails behind its first item, which is reported all the same. -/
theorem play_logs_failing :
    let nested := CompilerCall.orderBy (.list [.raw "a/$count", .list []])
    let ordered := CompilerCall.orderBy (.raw "b/$count desc")
    let located (url : String) := CompilerCall.query { url := some url }
    let calls := [(false, nested), (true, located "u"), (false, ordered), (false, located "v")]
    let sinks : Bool → DiagnosticsSink := fun _ => .fresh
    sinks false = .fresh ∧ nested.compilation.outcome = .error (.shape .orderByNested) ∧
      loggedAt false (play sinks calls) = [.orderByCountText, .url] ∧ LogsOnce sinks calls false :=
  ⟨rfl, rfl, rfl, (play_logs _ _).1 false rfl⟩

end CompilerCall

end OData
