import Mathlib
import OData.Client.Retry
import OData.Proofs.Client.Conversation

namespace OData.RetryPolicy

open OData.Time

variable {ρ α : Type}

section Attempts

variable (policy : RetryPolicy) (computed : Nat → Duration)
  (operation : Exchange ρ (Except ClientError α)) (script : Script)

/-- The delay behind the failed attempt with an index: the one that the server asks for, as the policy or
else the error tells it, or else the one computed for the index. -/
def delayBehind (index : Nat) (error : ClientError) : Duration :=
  (policy.retryAfter.getD ClientError.retryAfter? error).getD (computed index)

/-- When the next attempt starts after the played attempt number `number`. -/
def resumption (number : Nat) (played : Played ρ (Except ClientError α)) : Moment :=
  match played.value with
  | .ok _ => played.after
  | .error error =>
    { played.after with
      clock := played.after.clock + waitMillis (policy.delayBehind computed (number - 1) error) }

/-- The attempt with an index, counted from attempt number `number` on, were no attempt the last
one. -/
def attemptAt (number : Nat) (start : Moment) : (index : Nat) → Played ρ (Except ClientError α)
  | 0 => operation.play script start
  | index + 1 =>
    attemptAt (number + 1) (policy.resumption computed number (operation.play script start)) index

/-- No attempt follows attempt number `number` if it has this outcome: it succeeds, or its error is
refused another one, or it is as many as there may be. -/
def IsLast (number : Nat) (outcome : Except ClientError α) : Prop :=
  (∃ value, outcome = .ok value) ∨
    (∃ error, outcome = .error error ∧
      policy.canRetry.getD ClientError.isTransient error = false) ∨
    number = max 1 policy.maxAttempts

/-- What is noted after the failed attempt number `number`, and then the wait. -/
def pauseEvents (number : Nat) : (outcome : Except ClientError α) → List (Event ρ)
  | .ok _ => []
  | .error error =>
    let delay := policy.delayBehind computed (number - 1) error
    .noted (.retrying number (max 1 policy.maxAttempts) delay error) ::
      ((if policy.observed then [.noted (.retryObserved number delay error)] else []) ++
        [.waited delay])

structure EndsAfter (number : Nat) (start : Moment) (last : Nat)
    (run : Played ρ (Except ClientError α)) : Prop where
  least : IsLeast {index | policy.IsLast (index + number)
    (policy.attemptAt computed operation script number start index).value} last
  value : run.value = (policy.attemptAt computed operation script number start last).value
  after : run.after = (policy.attemptAt computed operation script number start last).after
  events : run.events = (List.range last).flatMap (fun index =>
      (policy.attemptAt computed operation script number start index).events ++
        policy.pauseEvents computed (index + number)
          (policy.attemptAt computed operation script number start index).value) ++
    (policy.attemptAt computed operation script number start last).events

variable {policy computed operation script} {number : Nat} {start : Moment}

theorem allows_eq (policy : RetryPolicy) (error : ClientError) :
    policy.allows error = policy.canRetry.getD ClientError.isTransient error := by
  unfold allows
  cases policy.canRetry <;> rfl

theorem delayAfter_eq (policy : RetryPolicy) (computed : Nat → Duration) (error : ClientError)
    (number : Nat) :
    policy.delayAfter computed error number = policy.delayBehind computed (number - 1) error := by
  unfold delayAfter delayBehind serverDelay?
  cases policy.retryAfter <;> rfl

/-- An attempt starts when the wait behind the one before it is over. -/
theorem attemptAt_succ (number : Nat) (start : Moment) (index : Nat) :
    policy.attemptAt computed operation script number start (index + 1) =
      operation.play script (policy.resumption computed (index + number)
        (policy.attemptAt computed operation script number start index)) := by
  induction index generalizing number start with
  | zero =>
    rw [Nat.zero_add number]
    rfl
  | succ index ih =>
    have later := ih (number + 1) (policy.resumption computed number (operation.play script start))
    rw [attemptAt, later, attemptAt, Nat.add_right_comm, Nat.add_assoc]

theorem play_pause (error : ClientError) (next : Exchange ρ (Except ClientError α)) :
    (policy.pause computed number error next).play script start =
      let wait := waitMillis (policy.delayBehind computed (number - 1) error)
      let rest := next.play script { start with clock := start.clock + wait }
      { rest with events := policy.pauseEvents computed number (.error error : Except _ α) ++
          rest.events } := by
  by_cases observed : policy.observed
  · simp only [pause, delayAfter_eq, attempts, pauseEvents, observed, if_true, Exchange.play,
      List.cons_append, List.nil_append]
  · simp only [pause, delayAfter_eq, attempts, pauseEvents, observed, Bool.false_eq_true, if_false,
      Exchange.play, List.cons_append, List.nil_append]

theorem endsAfter_zero (isLast : policy.IsLast number (operation.play script start).value) :
    policy.EndsAfter computed operation script number start 0 (operation.play script start) where
  least := by
    refine ⟨?_, fun _ _ => Nat.zero_le _⟩
    rw [← Nat.zero_add number] at isLast
    exact isLast
  value := rfl
  after := rfl
  events := rfl

theorem EndsAfter.cons {error : ClientError} {last : Nat}
    {run : Played ρ (Except ClientError α)}
    (failed : (operation.play script start).value = .error error)
    (more : ¬ policy.IsLast number (operation.play script start).value)
    (rest : policy.EndsAfter computed operation script (number + 1)
      (policy.resumption computed number (operation.play script start)) last run) :
    policy.EndsAfter computed operation script number start (last + 1)
      ((operation.play script start).andThen
        { run with events := policy.pauseEvents computed number (.error error : Except _ α) ++
            run.events }) where
  least := by
    have shifted (index : Nat) :
        policy.IsLast (index + (number + 1)) (policy.attemptAt computed operation script (number + 1)
            (policy.resumption computed number (operation.play script start)) index).value ↔
          policy.IsLast (index + 1 + number)
            (policy.attemptAt computed operation script number start (index + 1)).value := by
      rw [Nat.add_right_comm index 1 number, attemptAt]
      rfl
    refine ⟨(shifted last).mp rest.least.1, fun index isLast => ?_⟩
    cases index with
    | zero => exact absurd isLast (by rwa [← Nat.zero_add number] at more)
    | succ index => exact Nat.succ_le_succ (rest.least.2 ((shifted index).mpr isLast))
  value := rest.value
  after := rest.after
  events := by
    have later := rest.events
    simp only [← Nat.add_assoc, Nat.add_right_comm _ number 1] at later
    rw [List.range_succ_eq_map, List.flatMap_cons, List.flatMap_map]
    simp only [Played.andThen, later, attemptAt, failed, Nat.zero_add, List.append_assoc]

/-- What follows the outcome of attempt number `number`, when it may be followed by `again`. -/
def followUp (policy : RetryPolicy) (computed : Nat → Duration) (number : Nat)
    (again : Exchange ρ (Except ClientError α)) :
    Except ClientError α → Exchange ρ (Except ClientError α)
  | .ok value => .done (.ok value)
  | .error error =>
    if policy.allows error then policy.pause computed number error again
    else .done (.error error)

theorem attemptsFrom_succ (left number : Nat) :
    policy.attemptsFrom computed operation (left + 1) number =
      operation.bind (policy.followUp computed number
        (policy.attemptsFrom computed operation left (number + 1))) := rfl

theorem followUp_of_isLast {outcome : Except ClientError α}
    (isLast : policy.IsLast number outcome) (less : number < policy.attempts)
    (again : Exchange ρ (Except ClientError α)) :
    policy.followUp computed number again outcome = .done outcome := by
  rcases isLast with ⟨value, rfl⟩ | ⟨error, rfl, refused⟩ | final
  · rfl
  · rw [followUp, allows_eq, refused, if_neg Bool.false_ne_true]
  · exact absurd final (Nat.ne_of_lt less)

theorem allows_of_not_isLast {outcome : Except ClientError α}
    (more : ¬ policy.IsLast number outcome) :
    ∃ error, outcome = .error error ∧ policy.allows error = true := by
  cases outcome with
  | ok value => exact absurd (Or.inl ⟨value, rfl⟩) more
  | error error =>
    refine ⟨error, rfl, ?_⟩
    by_contra refused
    rw [allows_eq] at refused
    exact more (Or.inr (Or.inl ⟨error, rfl, Bool.eq_false_iff.mpr refused⟩))

/-- The attempts from one number on, as many as may follow it: by induction on how many those are. -/
theorem attemptsFrom_endsAfter (left number : Nat) (start : Moment)
    (reaches : number + left = policy.attempts) :
    ∃ last, policy.EndsAfter computed operation script number start last
      ((policy.attemptsFrom computed operation left number).play script start) := by
  induction left generalizing number start with
  | zero => exact ⟨0, endsAfter_zero (Or.inr (Or.inr reaches))⟩
  | succ left ih =>
    rw [attemptsFrom_succ, Exchange.play_bind]
    by_cases isLast : policy.IsLast number (operation.play script start).value
    · have less : number < policy.attempts := by omega
      rw [followUp_of_isLast isLast less, Exchange.play, Played.andThen, List.append_nil]
      exact ⟨0, endsAfter_zero isLast⟩
    · obtain ⟨error, failed, allowed⟩ := allows_of_not_isLast isLast
      obtain ⟨last, rest⟩ := ih (number + 1)
        (policy.resumption computed number (operation.play script start)) (by omega)
      have behind := EndsAfter.cons failed isLast rest
      rw [resumption, failed] at behind
      rw [failed, followUp, if_pos allowed, play_pause]
      exact ⟨last + 1, behind⟩

theorem one_add_attempts (policy : RetryPolicy) : 1 + (policy.attempts - 1) = policy.attempts := by
  have positive : 1 ≤ policy.attempts := Nat.le_max_left ..
  omega

theorem runWith_endsAfter (policy : RetryPolicy) (computed : Nat → Duration)
    (operation : Exchange ρ (Except ClientError α)) (script : Script) (start : Moment) :
    ∃ last, policy.EndsAfter computed operation script 1 start last
      ((policy.runWith computed operation).play script start) :=
  attemptsFrom_endsAfter _ 1 start policy.one_add_attempts

/-- The attempts from number `attempt` on, with a counter that is a word of 32 bits and wraps. -/
def countedAttempts (policy : RetryPolicy) (computed : Nat → Duration)
    (operation : Exchange ρ (Except ClientError α)) (limit attempt : UInt32) :
    Exchange ρ (Except ClientError α) :=
  operation.bind fun outcome =>
    if attempt < limit then
      policy.followUp computed attempt.toNat
        (countedAttempts policy computed operation limit (attempt + 1)) outcome
    else .done outcome
termination_by limit.toNat - attempt.toNat
decreasing_by
  rename_i below
  have bound := limit.toNat_lt
  rw [UInt32.lt_iff_toNat_lt] at below
  rw [UInt32.toNat_add, UInt32.toNat_one, Nat.mod_eq_of_lt (by omega)]
  omega

/-- The counter stays below its limit before it is raised, so it never wraps. -/
theorem countedAttempts_eq (left : Nat) (attempt : UInt32) {limit : UInt32}
    (limited : limit.toNat = policy.attempts)
    (reaches : attempt.toNat + left = policy.attempts) :
    policy.countedAttempts computed operation limit attempt =
      policy.attemptsFrom computed operation left attempt.toNat := by
  have bound := limit.toNat_lt
  induction left generalizing attempt with
  | zero =>
    have final : ¬ attempt < limit := by
      rw [UInt32.lt_iff_toNat_lt]
      omega
    rw [countedAttempts, attemptsFrom]
    simp only [final, if_false]
    exact operation.bind_done
  | succ left ih =>
    have below : attempt < limit := by
      rw [UInt32.lt_iff_toNat_lt]
      omega
    have raised : (attempt + 1).toNat = attempt.toNat + 1 := by
      rw [UInt32.toNat_add, UInt32.toNat_one, Nat.mod_eq_of_lt (by omega)]
    have later := ih (attempt + 1) (by omega)
    rw [countedAttempts, attemptsFrom_succ]
    simp only [below, if_true, later, raised]

/-- A run makes attempts up to the first one that succeeds, is refused another, or is as many as there may
be, which is at least one. Its result is the outcome of that attempt. Between two attempts the failed
one is noted and shown to the observer, if there is one, with its error, its number and the delay,
and then there is one wait, of the delay that the server asks for or else of the one computed for as
many retries as there were before. A counter of 32 bits is enough to count the attempts. -/
theorem runWith_attempts (policy : RetryPolicy) (computed : Nat → Duration)
    (operation : Exchange ρ (Except ClientError α)) (script : Script) (start : Moment) :
    let attempt := policy.attemptAt computed operation script 1 start
    let run := (policy.runWith computed operation).play script start
    ∃ last, IsLeast {index | policy.IsLast (index + 1) (attempt index).value} last ∧
      last + 1 ≤ max 1 policy.maxAttempts ∧
      run.value = (attempt last).value ∧ run.after = (attempt last).after ∧
      run.events = (List.range last).flatMap (fun index => (attempt index).events ++
          policy.pauseEvents computed (index + 1) (attempt index).value) ++ (attempt last).events ∧
      (∀ index < last, ∃ error delay, (attempt index).value = .error error ∧
        policy.canRetry.getD ClientError.isTransient error = true ∧
        delay = (policy.retryAfter.getD ClientError.retryAfter? error).getD (computed index) ∧
        (policy.pauseEvents computed (index + 1) (attempt index).value : List (Event ρ)) =
          .noted (.retrying (index + 1) (max 1 policy.maxAttempts) delay error) ::
            ((if policy.observed then [.noted (.retryObserved (index + 1) delay error)] else []) ++
              [.waited delay]) ∧
        attempt (index + 1) = operation.play script { (attempt index).after with
          clock := (attempt index).after.clock + waitMillis delay }) ∧
      ∀ limit : UInt32, limit.toNat = max 1 policy.maxAttempts →
        policy.runWith computed operation =
          policy.countedAttempts computed operation limit 1 := by
  intro attempt run
  obtain ⟨last, ends⟩ := runWith_endsAfter policy computed operation script start
  have one := policy.one_add_attempts
  have granted : last ≤ policy.attempts - 1 :=
    ends.least.2 (Or.inr (Or.inr (by rw [Nat.add_comm, one]; rfl)))
  refine ⟨last, ends.least, ?_, ends.value, ends.after, ends.events, fun index before => ?_,
    fun limit limited => ?_⟩
  · show last + 1 ≤ policy.attempts
    omega
  · have more : ¬ policy.IsLast (index + 1) (attempt index).value := fun isLast =>
      absurd (ends.least.2 isLast) (Nat.not_le.mpr before)
    obtain ⟨error, failed, allowed⟩ := allows_of_not_isLast more
    rw [allows_eq] at allowed
    refine ⟨error, _, failed, allowed, rfl, ?_, ?_⟩
    · rw [failed]
      rfl
    · have next : attempt (index + 1) = _ := attemptAt_succ 1 start index
      rw [resumption, failed] at next
      exact next
  · exact (countedAttempts_eq (policy.attempts - 1) 1 limited one).symm

/-- Of four attempts three are made: the server is broken, then it is busy, for which the policy has a delay
of its own, and then it refuses what the policy does not try again. -/
theorem runWith_attempts_threeOfFour :
    let broken := ClientError.httpStatus 500 "" none
    let busy := ClientError.httpStatus 503 "" none
    let refused := ClientError.httpStatus 400 "" none
    let script : Script := fun used =>
      { outcome := .error (if used = 0 then broken else if used = 1 then busy else refused) }
    let policy : RetryPolicy := {
      maxAttempts := 4
      canRetry := some fun error => error.status? != some 400
      retryAfter := some fun error => if error.status? = some 503 then some (.ofSeconds 2) else none
      observed := true }
    let run := (policy.runWith (fun index => .ofMillis (100 + index)) (Exchange.ask ())).play script {}
    run.value = .error refused ∧ run.after = ⟨2100, 3⟩ ∧
      run.events = [.sent (), .noted (.retrying 1 4 (.ofMillis 100) broken),
        .noted (.retryObserved 1 (.ofMillis 100) broken), .waited (.ofMillis 100),
        .sent (), .noted (.retrying 2 4 (.ofSeconds 2) busy),
        .noted (.retryObserved 2 (.ofSeconds 2) busy), .waited (.ofSeconds 2), .sent ()] ∧
      policy.runWith (fun index => .ofMillis (100 + index)) (Exchange.ask ()) =
        policy.countedAttempts (fun index => .ofMillis (100 + index)) (Exchange.ask ()) 4 1 := by
  intro broken busy refused script policy run
  obtain ⟨last, least, _, value, after, events, _, counted⟩ :=
    policy.runWith_attempts (fun index => .ofMillis (100 + index)) (Exchange.ask ()) script {}
  have atMost : last ≤ 2 := least.2 (Or.inr (Or.inl ⟨refused, rfl, by decide⟩))
  have goesOn (index : Nat) (error : ClientError) (worth : error.status? ≠ some 400) (early : index < 3)
      (failed : (policy.attemptAt (fun index => .ofMillis (100 + index)) (Exchange.ask ()) script 1 {}
        index).value = .error error) : last ≠ index := by
    rintro rfl
    rcases least.1 with ⟨_, passed⟩ | ⟨_, also, rejected⟩ | final
    · cases failed.symm.trans passed
    · cases failed.symm.trans also
      exact worth (by simpa [policy] using rejected)
    · exact absurd (show last + 1 = 4 from final) (by omega)
  have first : last ≠ 0 := goesOn 0 broken (by decide) (by omega) rfl
  have second : last ≠ 1 := goesOn 1 busy (by decide) (by omega) rfl
  obtain rfl : last = 2 := by omega
  exact ⟨value, after.trans (by decide), events, counted 4 rfl⟩

end Attempts

end OData.RetryPolicy
