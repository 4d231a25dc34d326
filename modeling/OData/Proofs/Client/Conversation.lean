import Mathlib
import OData.Client.Script
import OData.Proofs.Outcome

namespace OData

variable {ρ α β γ : Type}

namespace Exchange

theorem bind_done (conversation : Exchange ρ α) : conversation.bind .done = conversation := by
  induction conversation with
  | done value => rfl
  | note n next ih => rw [bind, ih]
  | send request next ih => rw [bind, funext ih]
  | wait delay next ih => rw [bind, ih]

theorem bind_assoc (first : Exchange ρ α) (second : α → Exchange ρ β) (third : β → Exchange ρ γ) :
    (first.bind second).bind third = first.bind fun value => (second value).bind third := by
  induction first with
  | done value => rfl
  | note n next ih => simp only [bind, ih]
  | send request next ih => simp only [bind, ih]
  | wait delay next ih => simp only [bind, ih]

instance : LawfulMonad (Exchange ρ) :=
  LawfulMonad.mk' _ bind_done (fun _ _ => rfl) bind_assoc

/-- A conversation in front of which the reports of a compilation are noted. -/
def announce (reports : List Deprecation) (next : Exchange ρ α) : Exchange ρ α :=
  reports.foldr (fun report next => .note (.deprecated report) next) next

/-- A compilation notes its reports, and then what follows goes by its outcome. -/
theorem ofCompilation_bind (compilation : Compilation α)
    (next : Except ClientError α → Exchange ρ β) :
    (ofCompilation compilation).bind next =
      announce compilation.reports (next (compilation.outcome.mapError .compile)) := by
  obtain ⟨reports, outcome⟩ := compilation
  induction reports with
  | nil => rfl
  | cons report reports ih => exact congrArg (Exchange.note (.deprecated report)) ih

end Exchange

/-- Two conversations that were played, the second one from where the first one ended. -/
def Played.andThen (first : Played ρ α) (second : Played ρ β) : Played ρ β :=
  { second with events := first.events ++ second.events }

/-- Where nothing more happens, only the value may be another one. -/
theorem Played.andThen_done (played : Played ρ α) (value : β) :
    played.andThen ⟨value, [], played.after⟩ = ⟨value, played.events, played.after⟩ := by
  rw [andThen, List.append_nil]

namespace Exchange

variable (script : Script) (start : Moment)

theorem play_bind (first : Exchange ρ α) (next : α → Exchange ρ β) :
    (first.bind next).play script start =
      (first.play script start).andThen
        ((next (first.play script start).value).play script (first.play script start).after) := by
  induction first generalizing start with
  | done value => rfl
  | note n rest ih =>
    have later := ih start
    simp only [bind, play, later, Played.andThen, List.cons_append]
  | send request rest ih =>
    have later := ih (script start.used).outcome
      ⟨start.clock + (script start.used).delay, start.used + 1⟩
    simp only [bind, play, later, Played.andThen, List.cons_append]
  | wait delay rest ih =>
    have later := ih { start with clock := start.clock + waitMillis delay }
    simp only [bind, play, later, Played.andThen, List.cons_append]

theorem play_announce (reports : List Deprecation) (next : Exchange ρ α) :
    (announce reports next).play script start =
      { next.play script start with
        events := reports.map (fun report => .noted (.deprecated report)) ++
          (next.play script start).events } := by
  induction reports with
  | nil => rfl
  | cons report reports ih =>
    have noted : (announce (report :: reports) next).play script start =
        { (announce reports next).play script start with
          events := .noted (.deprecated report) ::
            ((announce reports next).play script start).events } := rfl
    rw [noted, ih, List.map_cons, List.cons_append]

theorem play_ofCompilation (compilation : Compilation α) :
    (ofCompilation compilation : Exchange ρ _).play script start =
      ⟨compilation.outcome.mapError .compile,
        compilation.reports.map fun report => .noted (.deprecated report), start⟩ := by
  have noted : (ofCompilation compilation : Exchange ρ _) =
      announce compilation.reports (.done (compilation.outcome.mapError .compile)) := rfl
  rw [noted, play_announce, play, List.append_nil]

end Exchange

namespace Event

theorem requests_append (events more : List (Event ρ)) :
    requests (events ++ more) = requests events ++ requests more := List.filterMap_append

theorem requests_deprecated (reports : List Deprecation) :
    requests (reports.map fun report => (.noted (.deprecated report) : Event ρ)) = [] := by
  induction reports with
  | nil => rfl
  | cons report reports ih => exact ih

end Event

namespace Session

/-- What a conversation that may fail does on a script of replies. -/
def play (script : Script) (start : Moment) (session : Session ρ α) :
    Played ρ (Except ClientError α) :=
  Exchange.play script start session.run

variable {script : Script} {start : Moment}

theorem play_bind_ok {first : Session ρ α} {next : α → Session ρ β} {value : α}
    (passed : (first.play script start).value = .ok value) :
    (first >>= next).play script start = (first.play script start).andThen
      ((next value).play script (first.play script start).after) := by
  have whole := Exchange.play_bind script start first.run (ExceptT.bindCont next)
  unfold play at passed
  rw [passed] at whole
  exact whole

theorem play_bind_error {first : Session ρ α} {next : α → Session ρ β} {error : ClientError}
    (failed : (first.play script start).value = .error error) :
    (first >>= next).play script start =
      ⟨.error error, (first.play script start).events, (first.play script start).after⟩ := by
  have whole := Exchange.play_bind script start first.run (ExceptT.bindCont next)
  unfold play at failed
  rw [failed] at whole
  exact whole.trans ((first.play script start).andThen_done (Except.error error))

theorem play_map (write : α → β) (session : Session ρ α) :
    play script start (write <$> session) =
      { session.play script start with value := (session.play script start).value.map write } := by
  rw [map_eq_pure_bind]
  cases passed : (session.play script start).value with
  | error error => exact play_bind_error passed
  | ok value =>
    exact (play_bind_ok passed).trans
      ((session.play script start).andThen_done (Except.ok (write value)))

/-- An outcome that is looked at, be it a failure, decides what follows. -/
theorem play_lift_bind (session : Session ρ α) (next : Except ClientError α → Session ρ β) :
    play script start (ExceptT.lift session.run >>= next) = (session.play script start).andThen
      ((next (session.play script start).value).play script (session.play script start).after) := by
  have steps : (ExceptT.lift session.run >>= next).run =
      session.run.bind fun outcome => (next outcome).run := ExceptT.run_bind_lift _ _
  exact (congrArg (Exchange.play script start) steps).trans
    (Exchange.play_bind script start session.run fun outcome => (next outcome).run)

end Session

end OData
