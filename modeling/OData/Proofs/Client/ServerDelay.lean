import Mathlib
import OData.Proofs.Client.Retry
import OData.Proofs.Text.Numeral

namespace OData

open OData.Time OData.Http

-- Powers of numbers are those of the core library, whatever else is in scope.
attribute [local instance (high)] instPowNat

theorem Text.eq_append_of_dropBeginning? {beginning text rest : Text}
    (dropped : dropBeginning? beginning text = some rest) : text = beginning ++ rest := by
  induction beginning generalizing text with
  | nil => exact Option.some.inj dropped
  | cons b beginning ih =>
    cases text with
    | nil => cases dropped
    | cons c text =>
      by_cases same : b = c
      · rw [dropBeginning?, if_pos same] at dropped
        rw [same, ih dropped, List.cons_append]
      · rw [dropBeginning?, if_neg same] at dropped
        cases dropped

namespace Time.HttpDate

variable {text : Text} {date : HttpDate}

theorem comma_mem_of_ofFixed? (read : ofFixed? text = some date) : ',' ∈ text := by
  unfold ofFixed? at read
  split at read
  · simp only [List.mem_cons, true_or, or_true]
  · cases read

theorem blank_mem_of_ofPlain? (read : ofPlain? text = some date) : ' ' ∈ text := by
  unfold ofPlain? at read
  split at read
  · simp only [List.mem_cons, true_or, or_true]
  · cases read

theorem comma_mem_of_ofLong? (read : ofLong? text = some date) : ',' ∈ text := by
  obtain ⟨⟨weekday, rest⟩, front, _⟩ := Option.bind_eq_some_iff.mp read
  obtain ⟨i, _, named⟩ := List.exists_of_findSome?_eq_some front
  obtain ⟨name, _, dropped⟩ := Option.bind_eq_some_iff.mp named
  obtain ⟨behind, dropped, _⟩ := Option.map_eq_some_iff.mp dropped
  rw [Text.eq_append_of_dropBeginning? dropped]
  simp

/-- In all three forms of a date there is a comma or a blank. -/
theorem comma_or_blank_mem_of_parse? {moment : Int} (read : parse? text = some moment) :
    ',' ∈ text ∨ ' ' ∈ text := by
  unfold parse? at read
  split at read
  case h_1 date found =>
    rcases Option.or_eq_some_iff.mp found with fixed | ⟨_, found⟩
    · exact Or.inl (comma_mem_of_ofFixed? fixed)
    · rcases Option.or_eq_some_iff.mp found with long | ⟨_, plain⟩
      · exact Or.inl (comma_mem_of_ofLong? long)
      · exact Or.inr (blank_mem_of_ofPlain? plain)
  case h_2 => cases read

/-- A numeral is no date. -/
theorem parse?_numeral (numeral : Numeral) : parse? numeral.text = none := by
  rw [Option.eq_none_iff_forall_ne_some]
  intro moment read
  rcases comma_or_blank_mem_of_parse? read with comma | blank
  · rcases Numeral.eq_sign_or_isDigit comma with same | same | decimal
    · exact absurd same (by decide)
    · exact absurd same (by decide)
    · exact absurd decimal (by decide)
  · exact absurd (Numeral.not_isUnicodeBlank blank) (by decide)

end Time.HttpDate

namespace Http

variable {now : SystemTime} {headers : Headers} {value : String} {text : Text}

theorem retryAfter?_of_isAllOf {numeral : Numeral} (whole : numeral.IsAllOf text) :
    retryAfter? now text = if 0 ≤ numeral.value ∧ numeral.value < 2 ^ (63 : Nat) then
      some (.ofSeconds numeral.value.toNat) else none := by
  have read := numeral.toInt?_trimmed whole
  simp only [retryAfter?, read]

theorem retryAfter?_of_not_isAllOf (other : ∀ numeral : Numeral, ¬ numeral.IsAllOf text) :
    retryAfter? now text = (HttpDate.parse? text.trimmed).bind fun date => now.until? date := by
  have unread := Numeral.toInt?_trimmed_eq_none other
  simp only [retryAfter?, unread]
  cases HttpDate.parse? text.trimmed <;> rfl

/-- The seconds that a text gives, if they are a signed word of 64 bits. -/
def wordSeconds? (text : Text) : Option Int :=
  (Text.toInt? text).filter fun seconds => -2 ^ (63 : Nat) ≤ seconds ∧ seconds < 2 ^ (63 : Nat)

/-- A number that is no word may be tried as a date all the same: it is none. -/
theorem retryAfter?_eq_words (now : SystemTime) (text : Text) :
    retryAfter? now text = match wordSeconds? text.trimmed with
      | some seconds => if 0 ≤ seconds then some (.ofSeconds seconds.toNat) else none
      | none => (HttpDate.parse? text.trimmed).bind fun date => now.until? date := by
  by_cases numbered : ∃ numeral : Numeral, numeral.IsAllOf text
  · obtain ⟨numeral, whole⟩ := numbered
    have undated : HttpDate.parse? text.trimmed = none := by
      rw [Numeral.isAllOf_iff.mp whole, HttpDate.parse?_numeral]
    rw [retryAfter?_of_isAllOf whole, wordSeconds?, numeral.toInt?_trimmed whole, undated,
      Option.filter_some]
    by_cases word : -2 ^ (63 : Nat) ≤ numeral.value ∧ numeral.value < 2 ^ (63 : Nat)
    · simp only [word, and_self, and_true, decide_true, if_true]
    · have beyond : ¬ (0 ≤ numeral.value ∧ numeral.value < 2 ^ (63 : Nat)) := by omega
      simp only [word, beyond, decide_false, if_false, Bool.false_eq_true, Option.bind_none]
  · have unnumbered := not_exists.mp numbered
    rw [retryAfter?_of_not_isAllOf unnumbered, wordSeconds?, Numeral.toInt?_trimmed_eq_none unnumbered]
    rfl

/-- The value that counts for the delay, if it can be read. -/
def AsksBy (headers : Headers) (value : String) : Prop :=
  headerValue? "retry-after" headers = some value ∧ isReadable value.toList

theorem retryAfterOf?_of_asksBy (asks : AsksBy headers value) :
    retryAfterOf? now headers = retryAfter? now value.toList := by
  rw [retryAfterOf?, asks.1, Option.bind_eq_bind, Option.bind_some, if_pos asks.2]

theorem retryAfterOf?_of_not_asksBy (silent : ∀ value, ¬ AsksBy headers value) :
    retryAfterOf? now headers = none := by
  rw [retryAfterOf?]
  cases first : headerValue? "retry-after" headers with
  | none => rfl
  | some value =>
    have garbled : ¬ isReadable value.toList := fun readable => silent value ⟨first, readable⟩
    rw [Option.bind_eq_bind, Option.bind_some, if_neg garbled]

/-- The wait after a response with these headers, where `computed` is the wait of a policy that is asked
for nothing. -/
structure WaitsAsAsked (now : SystemTime) (headers : Headers) (computed delay : Duration) : Prop where
  seconds : ∀ value, AsksBy headers value → ∀ numeral : Numeral, numeral.IsAllOf value.toList →
    ∀ n : Nat, numeral.value = n → n ≤ 2 ^ 63 - 1 → delay = .ofSeconds n
  outside : ∀ value, AsksBy headers value → ∀ numeral : Numeral, numeral.IsAllOf value.toList →
    numeral.value < 0 ∨ (2 ^ 63 - 1 : Nat) < numeral.value → delay = computed
  date : ∀ value, AsksBy headers value →
    ∀ seconds, HttpDate.parse? (Text.trimmed value.toList) = some seconds →
    delay = if now.nanos ≤ seconds * 1000000000 then ⟨(seconds * 1000000000 - now.nanos).toNat⟩
      else computed
  other : ∀ value, AsksBy headers value → (∀ numeral : Numeral, ¬ numeral.IsAllOf value.toList) →
    HttpDate.parse? (Text.trimmed value.toList) = none → delay = computed
  silent : (∀ value, ¬ AsksBy headers value) → delay = computed

theorem waitsAsAsked (now : SystemTime) (headers : Headers) (computed : Duration) :
    WaitsAsAsked now headers computed ((retryAfterOf? now headers).getD computed) where
  seconds := by
    intro value asks numeral whole n meant word
    have range : 0 ≤ numeral.value ∧ numeral.value < 2 ^ (63 : Nat) := by omega
    rw [retryAfterOf?_of_asksBy asks, retryAfter?_of_isAllOf whole, if_pos range, meant]
    rfl
  outside := by
    intro value asks numeral whole beyond
    have range : ¬ (0 ≤ numeral.value ∧ numeral.value < 2 ^ (63 : Nat)) := by omega
    rw [retryAfterOf?_of_asksBy asks, retryAfter?_of_isAllOf whole, if_neg range]
    rfl
  date := by
    intro value asks seconds read
    have unnumbered (numeral : Numeral) : ¬ numeral.IsAllOf value.toList := by
      intro whole
      rw [Numeral.isAllOf_iff.mp whole, HttpDate.parse?_numeral] at read
      cases read
    rw [retryAfterOf?_of_asksBy asks, retryAfter?_of_not_isAllOf unnumbered, read, Option.bind_some,
      SystemTime.until?]
    split <;> rfl
  other := by
    intro value asks unnumbered undated
    rw [retryAfterOf?_of_asksBy asks, retryAfter?_of_not_isAllOf unnumbered, undated]
    rfl
  silent := by
    intro silent
    rw [retryAfterOf?_of_not_asksBy silent]
    rfl

end Http

/-- On the clock a wait of seconds takes as many thousands of milliseconds, unless it is longer than what
the clock counts. -/
theorem waitMillis_ofSeconds {n : Nat} (counted : n < 2 ^ 63 - 1) :
    waitMillis (.ofSeconds n) = 1000 * n := by
  have nanos : (Duration.ofSeconds n).nanos = n * 1000000000 := rfl
  have short : n * 1000000000 < (2 ^ (63 : Nat) - 1) * 1000000000 := by omega
  rw [waitMillis, Duration.coveringMillis, nanos, if_pos short]
  omega

/-- The waits among events, in order. -/
def Event.waits {ρ : Type} (events : List (Event ρ)) : List Duration :=
  events.filterMap fun
    | .waited delay => some delay
    | _ => none

namespace RetryPolicy

variable {ρ α : Type} (policy : RetryPolicy) (computed : Nat → Duration)
  (operation : Exchange ρ (Except ClientError α)) (script : Script)

theorem waits_pauseEvents (number : Nat) (error : ClientError) :
    Event.waits (policy.pauseEvents computed number (.error error : Except _ α) : List (Event ρ)) =
      [policy.delayBehind computed (number - 1) error] := by
  rw [pauseEvents]
  cases policy.observed <;> rfl

/-- Under a policy that has no rule of its own for what servers ask for, there is one wait between a failed
attempt and the next one, which starts when it is over. After an attempt that ended with a response it is
the wait that the headers of the response ask for: a number of seconds is taken at its word, however long
the policy would wait at most, and what is no delay is passed over. -/
theorem runWith_waitsAsAsked (given : policy.retryAfter = none) (start : Moment) :
    let attempt := policy.attemptAt computed operation script 1 start
    ∃ last, policy.EndsAfter computed operation script 1 start last
        ((policy.runWith computed operation).play script start) ∧
      ∀ index < last, ∀ now status headers body,
        (attempt index).value = .error (.ofResponse now status headers body) →
        ∃ delay, WaitsAsAsked now headers (computed index) delay ∧
          Event.waits (policy.pauseEvents computed (index + 1) (attempt index).value : List (Event ρ)) =
            [delay] ∧
          attempt (index + 1) = operation.play script { (attempt index).after with
            clock := (attempt index).after.clock + waitMillis delay } := by
  intro attempt
  obtain ⟨last, ends⟩ := runWith_endsAfter policy computed operation script start
  refine ⟨last, ends, fun index _ now status headers body failed => ?_⟩
  have delay : policy.delayBehind computed index (.ofResponse now status headers body) =
      (retryAfterOf? now headers).getD (computed index) := by
    rw [delayBehind, given]
    rfl
  refine ⟨_, waitsAsAsked now headers (computed index), ?_, ?_⟩
  · rw [failed, waits_pauseEvents, Nat.add_sub_cancel, delay]
  · have next : attempt (index + 1) = _ := attemptAt_succ 1 start index
    rw [resumption, failed] at next
    rw [← delay]
    exact next

/-- The server is busy at first, and it asks for seven seconds, seventy times the computed delay. -/
theorem runWith_waitsAsAsked_sevenSeconds :
    let busy := ClientError.ofResponse ⟨0⟩ 503 [("Date", "today"), ("Retry-After", "  +007 ")] "busy"
    let script : Script := fun used =>
      { outcome := if used = 0 then .error busy else .ok .null }
    let policy : RetryPolicy := {}
    let attempt := policy.attemptAt (fun _ => .ofMillis 100) (Exchange.ask ()) script 1 {}
    policy.retryAfter = none ∧ ∃ delay,
      Event.waits (policy.pauseEvents (fun _ => .ofMillis 100) 1 (attempt 0).value : List (Event Unit)) =
        [delay] ∧
      delay = .ofSeconds 7 ∧ (attempt 1).after.clock = 7000 := by
  intro busy script policy attempt
  obtain ⟨last, ends, waits⟩ :=
    policy.runWith_waitsAsAsked (fun _ => .ofMillis 100) (Exchange.ask ()) script rfl {}
  have failed : (attempt 0).value = .error busy := rfl
  have goesOn : 0 < last := by
    refine Nat.pos_of_ne_zero fun ended => ?_
    subst ended
    rcases ends.least.1 with ⟨value, passed⟩ | ⟨error, refused, rejected⟩ | final
    · cases failed.symm.trans passed
    · cases failed.symm.trans refused
      exact absurd rejected (by decide)
    · exact absurd final (by decide)
  obtain ⟨delay, asked, wait, next⟩ := waits 0 goesOn _ _ _ _ failed
  have asks : AsksBy [("Date", "today"), ("Retry-After", "  +007 ")] "  +007 " := ⟨rfl, rfl⟩
  let numeral : Numeral := ⟨.plus, [0, 0, 7], List.cons_ne_nil _ _⟩
  have blank (n : Nat) : ∀ c ∈ List.replicate n ' ', isUnicodeBlank c := by
    intro c member
    rw [List.eq_of_mem_replicate member]
    rfl
  have whole : numeral.IsAllOf "  +007 ".toList := ⟨_, _, rfl, blank 2, blank 1⟩
  have seven := asked.seconds _ asks numeral whole 7 rfl (by omega)
  have again : attempt 1 = _ := next
  refine ⟨rfl, delay, wait, seven, ?_⟩
  rw [again, seven, waitMillis_ofSeconds (by omega)]
  rfl

end RetryPolicy

end OData
