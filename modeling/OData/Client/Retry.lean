import OData.Client.Backoff
import OData.Client.Exchange

namespace OData

open OData.Time

/-- When and how often a failed attempt is repeated. The three hooks replace the default answers:
which errors are worth another attempt, what delay the server asks for, and whether someone observes
the retries. -/
structure RetryPolicy where
  backoff : Backoff := {}
  maxAttempts : Nat := 3
  canRetry : Option (ClientError → Bool) := none
  retryAfter : Option (ClientError → Option Duration) := none
  observed : Bool := false

namespace RetryPolicy

def allows (policy : RetryPolicy) (error : ClientError) : Bool :=
  match policy.canRetry with
  | some canRetry => canRetry error
  | none => error.isTransient

/-- The delay that the server asks for. -/
def serverDelay? (policy : RetryPolicy) (error : ClientError) : Option Duration :=
  match policy.retryAfter with
  | some retryAfter => retryAfter error
  | none => error.retryAfter?

/-- The delay after the failed attempt number `attempt`, from one: the one that the server asks for,
or else what is computed for as many retries as there were before. -/
def delayAfter (policy : RetryPolicy) (computed : Nat → Duration) (error : ClientError)
    (attempt : Nat) : Duration :=
  (policy.serverDelay? error).getD (computed (attempt - 1))

/-- There is at least one attempt. -/
def attempts (policy : RetryPolicy) : Nat := max 1 policy.maxAttempts

variable {ρ α : Type}

def pause (policy : RetryPolicy) (computed : Nat → Duration) (attempt : Nat) (error : ClientError)
    (next : Exchange ρ α) : Exchange ρ α :=
  let delay := policy.delayAfter computed error attempt
  let again := Exchange.wait delay next
  .note (.retrying attempt policy.attempts delay error)
    (if policy.observed then .note (.retryObserved attempt delay error) again else again)

/-- The attempts from number `attempt` on, when `left` more may follow it. -/
def attemptsFrom (policy : RetryPolicy) (computed : Nat → Duration)
    (operation : Exchange ρ (Except ClientError α)) :
    (left attempt : Nat) → Exchange ρ (Except ClientError α)
  | 0, _ => operation
  | left + 1, attempt => operation.bind fun
    | .ok value => .done (.ok value)
    | .error error =>
      if policy.allows error then
        policy.pause computed attempt error
          (policy.attemptsFrom computed operation left (attempt + 1))
      else .done (.error error)

/-- The operation, repeated as the policy says, with computed delays of any kind: those of a backoff
with jitter are drawn anew for every run. The last outcome is the result. -/
def runWith (policy : RetryPolicy) (computed : Nat → Duration)
    (operation : Exchange ρ (Except ClientError α)) : Exchange ρ (Except ClientError α) :=
  policy.attemptsFrom computed operation (policy.attempts - 1) 1

def run (policy : RetryPolicy) (operation : Exchange ρ (Except ClientError α)) :
    Exchange ρ (Except ClientError α) :=
  policy.runWith policy.backoff.delay operation

/-- The policy as diagnostic text; of the hooks it only says whether they are there. -/
def debugText (policy : RetryPolicy) : Text :=
  let flag (b : Bool) : Text := (if b then "true" else "false").toList
  "RetryConfig \x7b backoff: ".toList ++ policy.backoff.debugText ++ ", max_attempts: ".toList ++
    Text.ofNat policy.maxAttempts ++ ", can_retry: ".toList ++ flag policy.canRetry.isSome ++
    ", on_retry: ".toList ++ flag policy.observed ++ ", retry_after: ".toList ++
    flag policy.retryAfter.isSome ++ " \x7d".toList

end RetryPolicy

/-- What a single request does about the policy of its client. -/
inductive RetryMode
  | inherit
  | disabled
  | replace (policy : RetryPolicy)

def RetryMode.resolve (mode : RetryMode) (inherited : Option RetryPolicy) : Option RetryPolicy :=
  match mode with
  | .inherit => inherited
  | .disabled => none
  | .replace policy => some policy

end OData
