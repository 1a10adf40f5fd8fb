/-
# Auth.Otp -- what login and step-up challenges share

Both kinds of challenge guard a one-time code with the counter of
`Theory.AttemptBudget` under one policy: ten wrong codes, then a minute of
cooldown.  A replacement challenge takes over the counter of the challenges it
cancels through `inheritedAttemptState`.

Times are microseconds, the resolution of the database clock.  Every operation
is one serializable transaction, so a history of a scope is a sequence of whole
transactions, each at the time of its `transaction_timestamp()`; one that is
refused before its commit changes nothing.
-/
import SiliconIam.Theory.AttemptBudget
import Mathlib.Data.List.MinMax

namespace SiliconIam.Auth.Otp

open SiliconIam.Theory.AttemptBudget

set_option autoImplicit false

def otpMaxFailedAttempts : Nat := 10
def otpCooldownSeconds : Nat := 60
def otpTtlSeconds : Nat := 600

/-- One second on the database clock. -/
def second : Nat := 1000000

def policy : Policy where
  max := otpMaxFailedAttempts
  cooldown := otpCooldownSeconds * second
  positive := by decide

def otpTtl : Nat := otpTtlSeconds * second

inductive ContactChannel where
  | email
  | phone
deriving DecidableEq

inductive ChallengeStatus where
  | pending
  | completed
  | expired
  | cancelled
deriving DecidableEq

inductive DeliveryStatus where
  | pending
  | delivered
  | failed
deriving DecidableEq

/-- An operation, and how long after the previous one it runs. -/
structure Timed (α : Type) where
  elapsed : Nat
  action : α

/-- What a verification answers.  Only `invalid` and `success` have compared the
presented code with anything; `invalid` says whether it started a cooldown. -/
inductive Verdict where
  | invalid (locked : Bool)
  | success
  | expired
  | rateLimited
  | unauthenticated
  | unknown
deriving DecidableEq

def Verdict.observation (now : Nat) : Verdict → Observation
  | .invalid locked => .wrong now locked
  | .success => .success now
  | .expired | .rateLimited | .unauthenticated | .unknown => .silent

/-! ## Carrying the counter over -/

/-- An active cooldown dominates any partial counter; otherwise the greatest
counter wins. -/
def inheritedAttemptState (states : List AttemptState) : AttemptState :=
  match (states.filterMap (·.cooldownUntil)).max? with
  | some cooldownUntil => { failedAttempts := 0, cooldownUntil := some cooldownUntil }
  | none =>
      { failedAttempts := (states.map (·.failedAttempts)).max?.getD 0, cooldownUntil := none }

theorem max?_replicate (n k : Nat) : (List.replicate (n + 1) k).max? = some k := by
  induction n with
  | zero => rfl
  | succ n ih =>
      simp

/-- Equal counters are inherited as they are: a running cooldown has already
reset the count. -/
theorem inheritedAttemptState_replicate {a : AttemptState} (bounded : Bounded policy a) (n : Nat) :
    inheritedAttemptState (List.replicate (n + 1) a) = a := by
  obtain ⟨failed, cooldown⟩ := a
  unfold inheritedAttemptState
  cases cooldown with
  | none =>
      have none_running :
          (List.replicate (n + 1) (AttemptState.mk failed none)).filterMap (·.cooldownUntil) = [] := by
        simp
      rw [none_running, List.map_replicate, max?_replicate]
      rfl
  | some c =>
      have reset : failed = 0 := bounded.reset (by simp)
      have running :
          (List.replicate (n + 1) (AttemptState.mk failed (some c))).filterMap (·.cooldownUntil) =
            List.replicate (n + 1) c := by
        simp
      rw [running, max?_replicate, reset]

end SiliconIam.Auth.Otp
