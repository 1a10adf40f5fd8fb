/-
# Postgres.RateLimit -- the two request limiters

`enforce` counts requests in windows aligned to the wall clock, one row of
`iam.rate_limit_buckets` a window; `enforce_burst_cooldown` keeps one row whose
interval starts with the first request.  Each is one upsert in a transaction of
its own, so a history of one scope is a sequence of upserts at their
transaction's time.  The model holds the rows of one scope digest and limit
name, keyed by `window_started_at`; other scopes have other keys.

Times are microseconds since 1970, as `timestamptz` counts them.  `request_count`
is an `integer`: an upsert that would store a larger number fails and leaves the
row as it was.
-/
import SiliconIam.Theory.Clocked
import Mathlib.Logic.Function.Basic

namespace SiliconIam.Postgres.RateLimit

open SiliconIam.Theory.Runs

set_option autoImplicit false

/-! ## Policies -/

/-- `std::time::Duration`. -/
structure Duration where
  secs : Nat
  subsecNanos : Nat
  subsec : subsecNanos < 1000000000
deriving DecidableEq

namespace Duration

def fromSecs (secs : Nat) : Duration where
  secs := secs
  subsecNanos := 0
  subsec := by decide

def isZero (d : Duration) : Bool := d.secs = 0 && d.subsecNanos = 0

/-- `self > other`. -/
def exceeds (d other : Duration) : Bool :=
  other.secs < d.secs || (d.secs = other.secs && other.subsecNanos < d.subsecNanos)

end Duration

/-- `NonZeroU32`. -/
structure NonZeroU32 where
  get : Nat
  nonzero : 0 < get
  bounded : get < 4294967296
deriving DecidableEq

def NonZeroU32.one : NonZeroU32 where
  get := 1
  nonzero := by decide
  bounded := by decide

def maxWindow : Duration := .fromSecs (24 * 3600)

inductive RateLimitPolicyError where
  | invalidWindow
  | invalidBlockDuration
deriving DecidableEq

/-- A policy as `RateLimitPolicy::new` builds it. -/
structure RateLimitPolicy where
  maximumRequests : NonZeroU32
  window : Duration
  blockFor : Duration
  window_valid : window.isZero = false ∧ window.exceeds maxWindow = false ∧ window.subsecNanos = 0
  block_valid : blockFor.isZero = false ∧ blockFor.exceeds window = false ∧ blockFor.subsecNanos = 0
deriving DecidableEq

def RateLimitPolicy.new (maximumRequests : NonZeroU32) (window blockFor : Duration) :
    Except RateLimitPolicyError RateLimitPolicy :=
  if w : window.isZero = false ∧ window.exceeds maxWindow = false ∧ window.subsecNanos = 0 then
    if b : blockFor.isZero = false ∧ blockFor.exceeds window = false ∧ blockFor.subsecNanos = 0 then
      .ok ⟨maximumRequests, window, blockFor, w, b⟩
    else .error .invalidBlockDuration
  else .error .invalidWindow

/-! ## Rows -/

/-- `interval '1 second'`. -/
def second : Nat := 1000000

/-- `interval '1 hour'`. -/
def hour : Nat := 3600 * second

/-- `iam.rate_limit_buckets`, the columns beside the key. -/
structure Bucket where
  requestCount : Nat
  blockedUntil : Option Nat
  expiresAt : Nat
  updatedAt : Nat
deriving DecidableEq

/-- The rows of one scope and limit name, by `window_started_at`. -/
abbrev Buckets := Nat → Option Bucket

/-- The largest `integer`. -/
def maxInteger : Nat := 2147483647

/-- What an `integer` expression yields; none when it is out of range. -/
def integer (n : Nat) : Option Nat := if n ≤ maxInteger then some n else none

/-- `blocked_until > transaction_timestamp()`, false where there is none. -/
def Bucket.blockedAt (b : Bucket) (now : Nat) : Bool :=
  match b.blockedUntil with
  | some until_ => now < until_
  | none => false

/-- `CEIL(EXTRACT(EPOCH FROM until - now))`. -/
def ceilSeconds (until_ now : Nat) : Int := -(((now : Int) - until_) / second)

structure ConsumptionRow where
  allowed : Bool
  requestCount : Nat
  retryAfterSeconds : Int
deriving DecidableEq

structure RateLimitState where
  remaining : Nat
deriving DecidableEq

inductive AppError where
  | rateLimited (limit remaining resetAfterSeconds retryAfterSeconds : Nat)
  | internal (category : String)
  | database
deriving DecidableEq

def durationSeconds (duration : Duration) : Except AppError Nat :=
  if duration.secs < 9223372036854775808 then .ok duration.secs else .error (.internal "rate_limit_policy")

/-- What both entry points make of the row their statement returns. -/
def answer (maximumRequests : Nat) (row : ConsumptionRow) : Except AppError RateLimitState :=
  if row.allowed then .ok { remaining := maximumRequests - row.requestCount }
  else
    let retryAfterSeconds := (max row.retryAfterSeconds 1).toNat
    .error (.rateLimited maximumRequests 0 retryAfterSeconds retryAfterSeconds)

/-! ## Fixed windows -/

/-- `date_bin(stride, now, '1970-01-01')`. -/
def dateBin (stride now : Nat) : Nat := now / stride * stride

section FixedWindow

variable (maximum window block : Nat)

/-- The bucket after the upsert of `enforce`; none when the database refuses it. -/
def consumeWindow (windowStartedAt now : Nat) : Option Bucket → Option Bucket
  | none =>
      some
        { requestCount := 1
          blockedUntil := none
          expiresAt := windowStartedAt + window * second + hour
          updatedAt := now }
  | some old =>
      (integer (old.requestCount + 1)).map fun requestCount =>
        { requestCount
          blockedUntil :=
            if old.blockedAt now then old.blockedUntil
            else if maximum < requestCount then
              some (max (windowStartedAt + window * second) (now + block * second))
            else none
          expiresAt := old.expiresAt
          updatedAt := now }

def windowRow (now : Nat) (consumed : Bucket) : ConsumptionRow where
  allowed := consumed.requestCount ≤ maximum &&
    match consumed.blockedUntil with
    | none => true
    | some until_ => until_ ≤ now
  requestCount := consumed.requestCount
  retryAfterSeconds :=
    match consumed.blockedUntil with
    | none => 0
    | some until_ => ceilSeconds until_ now

end FixedWindow

/-- One entry point's statement on the row under its key; a statement that the database
refuses leaves the table as it was. -/
def consume (maximum : Nat) (key : Nat) (upsert : Option Bucket → Option Bucket)
    (row : Bucket → ConsumptionRow) (buckets : Buckets) :
    Buckets × Except AppError RateLimitState :=
  match upsert (buckets key) with
  | none => (buckets, .error .database)
  | some bucket => (Function.update buckets key (some bucket), answer maximum (row bucket))

def enforce (policy : RateLimitPolicy) (now : Nat) (buckets : Buckets) :
    Buckets × Except AppError RateLimitState :=
  let maximumRequests := policy.maximumRequests.get
  match durationSeconds policy.window, durationSeconds policy.blockFor with
  | .error e, _ => (buckets, .error e)
  | .ok _, .error e => (buckets, .error e)
  | .ok windowSeconds, .ok blockSeconds =>
      let windowStartedAt := dateBin (windowSeconds * second) now
      consume maximumRequests windowStartedAt
        (consumeWindow maximumRequests windowSeconds blockSeconds windowStartedAt now)
        (windowRow maximumRequests now) buckets

/-! ## Bursts -/

section Burst

variable (maximum interval block : Nat)

/-- `blocked_until IS NOT NULL OR updated_at + interval <= transaction_timestamp()`. -/
def Bucket.restarts (interval : Nat) (old : Bucket) (now : Nat) : Bool :=
  old.blockedUntil.isSome || old.updatedAt + interval * second ≤ now

/-- The block that a first request starts. -/
def firstBlock (now : Nat) : Option Nat :=
  if maximum = 1 then some (now + block * second) else none

/-- The bucket after `BURST_COOLDOWN_CONSUMPTION_SQL`; none when the database refuses it.
Its columns choose by the same two conditions. -/
def consumeBurst (now : Nat) : Option Bucket → Option Bucket
  | none =>
      some
        { requestCount := 1
          blockedUntil := firstBlock maximum block now
          expiresAt := now + (interval + block) * second + hour
          updatedAt := now }
  | some old =>
      if old.blockedAt now then
        (integer (maximum + 1)).map fun requestCount =>
          { requestCount
            blockedUntil := old.blockedUntil
            expiresAt := now + (interval + block) * second + hour
            updatedAt := now }
      else if old.restarts interval now then
        some
          { requestCount := 1
            blockedUntil := firstBlock maximum block now
            expiresAt := now + (interval + block) * second + hour
            updatedAt := now }
      else
        (integer (old.requestCount + 1)).map fun counted =>
          { requestCount := min counted (maximum + 1)
            blockedUntil := if maximum ≤ counted then some (now + block * second) else none
            expiresAt := now + (interval + block) * second + hour
            updatedAt := old.updatedAt }

def burstRow (now : Nat) (consumed : Bucket) : ConsumptionRow where
  allowed := consumed.requestCount ≤ maximum
  requestCount := consumed.requestCount
  retryAfterSeconds :=
    if maximum < consumed.requestCount then
      match consumed.blockedUntil with
      | some until_ => max 1 (ceilSeconds until_ now)
      | none => 1
    else 0

end Burst

/-- The `window_started_at` of every burst bucket. -/
def epoch : Nat := 0

def enforceBurstCooldown (policy : RateLimitPolicy) (now : Nat) (buckets : Buckets) :
    Buckets × Except AppError RateLimitState :=
  let maximumRequests := policy.maximumRequests.get
  match durationSeconds policy.window, durationSeconds policy.blockFor with
  | .error e, _ => (buckets, .error e)
  | .ok _, .error e => (buckets, .error e)
  | .ok intervalSeconds, .ok blockSeconds =>
      consume maximumRequests epoch (consumeBurst maximumRequests intervalSeconds blockSeconds now)
        (burstRow maximumRequests now) buckets

/-! ## Histories -/

/-- `run_worker_ephemeral_maintenance` on these rows: some of the expired ones go. -/
def deleteExpired (now : Nat) (picked : List Nat) (buckets : Buckets) : Buckets :=
  fun key =>
    match buckets key with
    | some bucket => if bucket.expiresAt ≤ now && picked.contains key then none else some bucket
    | none => none

inductive Event where
  | request (now : Nat)
  | maintenance (now : Nat) (picked : List Nat)
deriving DecidableEq

def Event.time : Event → Nat
  | .request now => now
  | .maintenance now _ => now

/-- A request and what it was answered. -/
structure Entry where
  time : Nat
  result : Except AppError RateLimitState
deriving DecidableEq

def Entry.allowed (e : Entry) : Bool :=
  match e.result with
  | .ok _ => true
  | .error _ => false

/-- The wait a refused request was told. -/
def Entry.retryAfter (e : Entry) : Option Nat :=
  match e.result with
  | .error (.rateLimited _ _ _ retryAfterSeconds) => some retryAfterSeconds
  | _ => none

section Histories

variable (limiter : Nat → Buckets → Buckets × Except AppError RateLimitState)

def next (buckets : Buckets) : Event → Buckets
  | .request now => (limiter now buckets).1
  | .maintenance now picked => deleteExpired now picked buckets

def entries (buckets : Buckets) : Event → List Entry
  | .request now => [⟨now, (limiter now buckets).2⟩]
  | .maintenance _ _ => []

/-- The requests of a scope and their answers, from the first on. -/
def history (events : List Event) : List Entry :=
  given (next limiter) (entries limiter) (fun _ => none) events

end Histories

/-! ## What a policy fixes -/

namespace RateLimitPolicy

variable (policy : RateLimitPolicy)

/-- The window, and the block, in microseconds. -/
def windowLength : Nat := policy.window.secs * second

def blockLength : Nat := policy.blockFor.secs * second

theorem window_secs : 0 < policy.window.secs ∧ policy.window.secs ≤ 24 * 3600 := by
  obtain ⟨positive, short, whole⟩ := policy.window_valid
  simp only [Duration.isZero, whole, decide_true, Bool.and_true, decide_eq_false_iff_not] at positive
  have longest : maxWindow.secs = 24 * 3600 := rfl
  simp only [Duration.exceeds, Bool.or_eq_false_iff, decide_eq_false_iff_not, longest] at short
  omega

theorem block_secs : 0 < policy.blockFor.secs ∧ policy.blockFor.secs ≤ policy.window.secs := by
  obtain ⟨positive, short, whole⟩ := policy.block_valid
  simp only [Duration.isZero, whole, decide_true, Bool.and_true, decide_eq_false_iff_not] at positive
  simp only [Duration.exceeds, Bool.or_eq_false_iff, decide_eq_false_iff_not] at short
  omega

theorem windowLength_pos : 0 < policy.windowLength :=
  Nat.mul_pos policy.window_secs.1 (by decide)

theorem blockLength_pos : 0 < policy.blockLength :=
  Nat.mul_pos policy.block_secs.1 (by decide)

@[simp] theorem durationSeconds_window :
    durationSeconds policy.window = .ok policy.window.secs := by
  have := policy.window_secs
  rw [durationSeconds, if_pos (by omega)]

@[simp] theorem durationSeconds_block :
    durationSeconds policy.blockFor = .ok policy.blockFor.secs := by
  have := policy.window_secs
  have := policy.block_secs
  rw [durationSeconds, if_pos (by omega)]

end RateLimitPolicy

theorem enforce_eq (policy : RateLimitPolicy) (now : Nat) (buckets : Buckets) :
    enforce policy now buckets =
      consume policy.maximumRequests.get (dateBin policy.windowLength now)
        (consumeWindow policy.maximumRequests.get policy.window.secs policy.blockFor.secs
          (dateBin policy.windowLength now) now)
        (windowRow policy.maximumRequests.get now) buckets := by
  simp [enforce, RateLimitPolicy.windowLength]

theorem enforceBurstCooldown_eq (policy : RateLimitPolicy) (now : Nat) (buckets : Buckets) :
    enforceBurstCooldown policy now buckets =
      consume policy.maximumRequests.get epoch
        (consumeBurst policy.maximumRequests.get policy.window.secs policy.blockFor.secs now)
        (burstRow policy.maximumRequests.get now) buckets := by
  simp [enforceBurstCooldown]

/-- `retry` is the least number of seconds from `now` that reach `until_`. -/
def Reaches (now until_ retry : Nat) : Prop :=
  0 < retry ∧ until_ ≤ now + retry * second ∧ now + retry * second < until_ + second

theorem ceilSeconds_reaches {until_ now : Nat} (ahead : now < until_) :
    ∃ retry : Nat, ceilSeconds until_ now = retry ∧ Reaches now until_ retry := by
  have value : ceilSeconds until_ now = -(((now : Int) - until_) / 1000000) := rfl
  have positive : 0 < ceilSeconds until_ now := by omega
  obtain ⟨retry, same⟩ := Int.eq_ofNat_of_zero_le (Int.le_of_lt positive)
  have whole : second = 1000000 := rfl
  refine ⟨retry, same, ?_⟩
  rw [Reaches, whole]
  omega

end SiliconIam.Postgres.RateLimit
