import Mathlib
import OData.Deprecation

namespace OData

variable {ε α β γ : Type}

/-- A sequence returns what its second step returns for the result of the first. -/
theorem bind_eq_ok_iff {first : Except ε α} {next : α → Except ε β} {result : β} :
    first >>= next = .ok result ↔ ∃ value, first = .ok value ∧ next value = .ok result := by
  cases first with
  | error error => exact ⟨nofun, nofun⟩
  | ok value =>
    constructor
    · exact fun run => ⟨value, rfl, run⟩
    · rintro ⟨other, ⟨⟩, run⟩
      exact run

/-- A sequence fails with its first step, or with the second for the result of the first. -/
theorem bind_eq_error_iff {first : Except ε α} {next : α → Except ε β} {error : ε} :
    first >>= next = .error error ↔
      first = .error error ∨ ∃ value, first = .ok value ∧ next value = .error error := by
  cases first with
  | error other =>
    constructor
    · exact fun run => Or.inl (congrArg Except.error (Except.error.inj run))
    · rintro (run | ⟨value, ⟨⟩, _⟩)
      exact congrArg Except.error (Except.error.inj run)
  | ok value =>
    constructor
    · exact fun run => Or.inr ⟨value, rfl, run⟩
    · rintro (⟨⟨⟩⟩ | ⟨other, ⟨⟩, run⟩)
      exact run

/-- The first element that fails is the head, or it is the first behind a head that passes. -/
theorem exists_first_cons {passes fails : α → Prop} {head : α} {tail : List α} :
    (∃ front found rest, head :: tail = front ++ found :: rest ∧
        (∀ earlier ∈ front, passes earlier) ∧ fails found) ↔
      fails head ∨ passes head ∧ ∃ front found rest, tail = front ++ found :: rest ∧
        (∀ earlier ∈ front, passes earlier) ∧ fails found := by
  constructor
  · rintro ⟨front, found, rest, split, earlier, failed⟩
    cases front with
    | nil =>
      obtain ⟨rfl, _⟩ := List.cons.inj split
      exact Or.inl failed
    | cons first front =>
      obtain ⟨rfl, rfl⟩ := List.cons.inj split
      rw [List.forall_mem_cons] at earlier
      exact Or.inr ⟨earlier.1, front, found, rest, rfl, earlier.2, failed⟩
  · rintro (failed | ⟨passed, front, found, rest, rfl, earlier, failed⟩)
    · exact ⟨[], head, tail, rfl, List.forall_mem_nil _, failed⟩
    · exact ⟨head :: front, found, rest, rfl, List.forall_mem_cons.mpr ⟨passed, earlier⟩, failed⟩

theorem map_eq_ok_iff {write : α → β} {first : Except Error α} {result : β} :
    write <$> first = .ok result ↔ ∃ value, first = .ok value ∧ write value = result := by
  cases first with
  | error error => exact ⟨nofun, nofun⟩
  | ok value =>
    constructor
    · exact fun run => ⟨value, rfl, Except.ok.inj run⟩
    · rintro ⟨other, ⟨⟩, rfl⟩
      rfl

namespace Compilation

theorem bind_return (compilation : Compilation α) : compilation.bind pure = compilation := by
  obtain ⟨reports, outcome⟩ := compilation
  cases outcome with
  | error error => rfl
  | ok value =>
    have whole : reports ++ [] = reports := List.append_nil reports
    simp only [bind, pure, whole]

theorem bind_assoc (first : Compilation α) (second : α → Compilation β)
    (third : β → Compilation γ) :
    (first.bind second).bind third = first.bind fun value => (second value).bind third := by
  obtain ⟨reports, outcome⟩ := first
  cases outcome with
  | error error => rfl
  | ok value =>
    simp only [bind]
    cases (second value).outcome with
    | error error => rfl
    | ok other => simp only [List.append_assoc]

instance : LawfulMonad Compilation :=
  LawfulMonad.mk' _ bind_return (fun _ _ => rfl) bind_assoc

/-- What follows matters only for the value that is there. -/
theorem bind_congr {first : Compilation α} {next other : α → Compilation β}
    (same : ∀ value, first.outcome = .ok value → next value = other value) :
    first >>= next = first >>= other := by
  obtain ⟨reports, outcome⟩ := first
  cases outcome with
  | error error => rfl
  | ok value =>
    have later := same value rfl
    simp only [Bind.bind, bind, later]

/-- Whatever the compilation returns has the property. -/
def Yields (property : α → Prop) (compilation : Compilation α) : Prop :=
  ∀ value, compilation.outcome = .ok value → property value

theorem bind_eq_ok {first : Compilation α} {next : α → Compilation β} {result : β} :
    (first >>= next).outcome = .ok result ↔
      ∃ value, first.outcome = .ok value ∧ (next value).outcome = .ok result := by
  obtain ⟨reports, outcome⟩ := first
  have outcomes : (Compilation.mk reports outcome >>= next).outcome =
      outcome >>= fun value => (next value).outcome := by
    cases outcome <;> rfl
  rw [outcomes]
  exact bind_eq_ok_iff

theorem bind_reports {first : Compilation α} {next : α → Compilation β} {value : α}
    (run : first.outcome = .ok value) :
    (first >>= next).reports = first.reports ++ (next value).reports := by
  obtain ⟨reports, outcome⟩ := first
  cases run
  rfl

theorem map_reports (write : α → β) (compilation : Compilation α) :
    (write <$> compilation).reports = compilation.reports := by
  obtain ⟨reports, outcome⟩ := compilation
  cases outcome with
  | error error => rfl
  | ok value => exact List.append_nil reports

theorem map_eq_ok {write : α → β} {first : Compilation α} {result : β} :
    (write <$> first).outcome = .ok result ↔
      ∃ value, first.outcome = .ok value ∧ write value = result := by
  have asBind : write <$> first = first >>= fun value => Pure.pure (write value) := rfl
  rw [asBind, bind_eq_ok]
  constructor
  · rintro ⟨value, run, ⟨⟩⟩
    exact ⟨value, run, rfl⟩
  · rintro ⟨value, run, rfl⟩
    exact ⟨value, run, rfl⟩

variable {property : α → Prop} {goal : β → Prop}

theorem Yields.pure {value : α} (holds : property value) :
    Yields property (Pure.pure value : Compilation α) := by
  rintro other ⟨⟩
  exact holds

theorem Yields.fail (error : Error) : Yields property (fail error : Compilation α) := nofun

theorem Yields.bind {first : Compilation α} {next : α → Compilation β}
    (head : Yields property first) (tail : ∀ value, property value → Yields goal (next value)) :
    Yields goal (first >>= next) := by
  intro result run
  obtain ⟨value, passed, run⟩ := bind_eq_ok.mp run
  exact tail value (head value passed) result run

theorem Yields.map {write : α → β} {first : Compilation α} (head : Yields property first)
    (tail : ∀ value, property value → goal (write value)) : Yields goal (write <$> first) := by
  intro result run
  obtain ⟨value, passed, rfl⟩ := map_eq_ok.mp run
  exact tail value (head value passed)

end Compilation

end OData
