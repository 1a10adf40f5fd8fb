/-
# Postgres.BurstCooldown -- the burst limiter as counting and blocking

A burst is counted from the request that starts it; the request that uses it up
starts the block, and the first request after the block, or after an interval
that was not used up, starts the next count.  `Phase` says that and `Step` lists
what a request may do to it; the row of `enforce_burst_cooldown` refines it
(`history_run`), and the promises of the limiter are read off runs of `Step`.

A deleted row stands for a phase that is over, so maintenance is no step.
-/
import SiliconIam.Postgres.RateLimit
import Mathlib.Data.List.Basic

namespace SiliconIam.Postgres.BurstCooldown

open SiliconIam.Theory.Runs SiliconIam.Theory.Clocked
open SiliconIam.Postgres.RateLimit

set_option autoImplicit false

/-! ## Phases -/

inductive Phase where
  | idle
  | counting (start used : Nat)
  | blocked (until_ : Nat)
deriving DecidableEq

section Policy

variable (policy : RateLimitPolicy)

/-- A request at this time starts a fresh count. -/
def Phase.over : Phase → Nat → Prop
  | .idle, _ => True
  | .counting start _, now => start + policy.windowLength ≤ now
  | .blocked until_, now => until_ ≤ now

/-- The phase after a request that is the `used`-th of the count begun at `start`. -/
def Phase.reached (start now used : Nat) : Phase :=
  if used = policy.maximumRequests.get then .blocked (now + policy.blockLength)
  else .counting start used

def allowedWith (used : Nat) : Except AppError RateLimitState :=
  .ok { remaining := policy.maximumRequests.get - used }

def refusedWith (retry : Nat) : Except AppError RateLimitState :=
  .error (.rateLimited policy.maximumRequests.get 0 retry retry)

inductive Step : Phase → Entry → Phase → Prop
  | begins {phase : Phase} {now : Nat} (over_ : phase.over policy now) :
      Step phase ⟨now, allowedWith policy 1⟩ (.reached policy now now 1)
  | counts {start used now : Nat} (within : now < start + policy.windowLength)
      (before : 0 < used) (room : used < policy.maximumRequests.get) :
      Step (.counting start used) ⟨now, allowedWith policy (used + 1)⟩
        (.reached policy start now (used + 1))
  | refuses {until_ now retry : Nat} (within : now < until_) (reaches : Reaches now until_ retry) :
      Step (.blocked until_) ⟨now, refusedWith policy retry⟩ (.blocked until_)
  /-- the refused request's count is no `integer` -/
  | overflows {until_ now : Nat} (within : now < until_)
      (large : maxInteger ≤ policy.maximumRequests.get) :
      Step (.blocked until_) ⟨now, .error .database⟩ (.blocked until_)
  /-- the next count is no `integer` -/
  | stuck {start used now : Nat} (within : now < start + policy.windowLength)
      (large : maxInteger < policy.maximumRequests.get) :
      Step (.counting start used) ⟨now, .error .database⟩ (.counting start used)

/-! ## The row refines the phase -/

/-- A row and the phase it stands for at a time. -/
def Stands (row : Option Bucket) (clock : Nat) : Phase → Prop
  | .idle => row = none
  | .counting start used =>
      (0 < used ∧ used < policy.maximumRequests.get ∧ start ≤ clock) ∧
      (row = none ∧ start + policy.windowLength ≤ clock ∨
        ∃ b, row = some b ∧ b.requestCount = used ∧ b.blockedUntil = none ∧ b.updatedAt = start ∧
          start + policy.windowLength ≤ b.expiresAt)
  | .blocked until_ =>
      until_ ≤ clock + policy.blockLength ∧
      (row = none ∧ until_ ≤ clock ∨
        ∃ b, row = some b ∧ b.blockedUntil = some until_ ∧ until_ ≤ b.expiresAt)

end Policy

variable {policy : RateLimitPolicy}

theorem Stands.waits {row : Option Bucket} {clock later : Nat} (le : clock ≤ later)
    {phase : Phase} (stands : Stands policy row clock phase) : Stands policy row later phase := by
  cases phase with
  | idle => exact stands
  | counting start used =>
      obtain ⟨before, room, past⟩ := stands.1
      refine ⟨⟨before, room, Nat.le_trans past le⟩, ?_⟩
      rcases stands.2 with ⟨gone, over_⟩ | held
      · exact .inl ⟨gone, Nat.le_trans over_ le⟩
      · exact .inr held
  | blocked until_ =>
      have near_ := stands.1
      refine ⟨by omega, ?_⟩
      rcases stands.2 with ⟨gone, over_⟩ | held
      · exact .inl ⟨gone, Nat.le_trans over_ le⟩
      · exact .inr held

/-- A row may go once it has expired. -/
theorem Stands.deleted {row : Option Bucket} {clock : Nat}
    (expired : ∀ b, row = some b → b.expiresAt ≤ clock) {phase : Phase}
    (stands : Stands policy row clock phase) : Stands policy none clock phase := by
  cases phase with
  | idle => rfl
  | counting start used =>
      refine ⟨stands.1, .inl ⟨rfl, ?_⟩⟩
      rcases stands.2 with ⟨-, over_⟩ | ⟨b, found, -, -, -, le⟩
      · exact over_
      · exact Nat.le_trans le (expired b found)
  | blocked until_ =>
      refine ⟨stands.1, .inl ⟨rfl, ?_⟩⟩
      rcases stands.2 with ⟨-, over_⟩ | ⟨b, found, -, le⟩
      · exact over_
      · exact Nat.le_trans le (expired b found)

/-- What a request at `now` makes of the row, and its answer. -/
def served (policy : RateLimitPolicy) (now : Nat) (row : Option Bucket) :
    Option Bucket × Except AppError RateLimitState :=
  match consumeBurst policy.maximumRequests.get policy.window.secs policy.blockFor.secs now row with
  | none => (row, .error .database)
  | some bucket =>
      (some bucket,
        answer policy.maximumRequests.get (burstRow policy.maximumRequests.get now bucket))

theorem enforceBurstCooldown_served (policy : RateLimitPolicy) (now : Nat) (buckets : Buckets) :
    enforceBurstCooldown policy now buckets =
      (Function.update buckets epoch (served policy now (buckets epoch)).1,
        (served policy now (buckets epoch)).2) := by
  rw [enforceBurstCooldown_eq, consume, served]
  cases consumeBurst policy.maximumRequests.get policy.window.secs policy.blockFor.secs now
      (buckets epoch) with
  | none => simp
  | some bucket => rfl

variable {until_ : Nat}

section Request

variable {now : Nat} {row : Option Bucket}

/-- The bucket that a fresh count leaves. -/
def freshBucket (policy : RateLimitPolicy) (now : Nat) : Bucket where
  requestCount := 1
  blockedUntil := firstBlock policy.maximumRequests.get policy.blockFor.secs now
  expiresAt := now + (policy.window.secs + policy.blockFor.secs) * second + hour
  updatedAt := now

theorem expiry (policy : RateLimitPolicy) :
    (policy.window.secs + policy.blockFor.secs) * second =
      policy.windowLength + policy.blockLength :=
  Nat.add_mul _ _ _

/-- A request within the limit is told what is left of it. -/
theorem answer_counted {b : Bucket} (room : b.requestCount ≤ policy.maximumRequests.get) :
    answer policy.maximumRequests.get (burstRow policy.maximumRequests.get now b) =
      allowedWith policy b.requestCount := by
  simp [answer, burstRow, room, allowedWith]

/-- One over the limit is told the time left of the block. -/
theorem answer_blocked (policy : RateLimitPolicy) {b : Bucket} (blocked : b.blockedUntil = some until_)
    (spent : policy.maximumRequests.get < b.requestCount) (ahead : now < until_) :
    ∃ retry, Reaches now until_ retry ∧
      answer policy.maximumRequests.get (burstRow policy.maximumRequests.get now b) =
        refusedWith policy retry := by
  obtain ⟨retry, least, reaches⟩ := ceilSeconds_reaches ahead
  refine ⟨retry, reaches, ?_⟩
  have positive := reaches.1
  have closed : ¬ b.requestCount ≤ policy.maximumRequests.get := by omega
  have larger : max (1 : Int) retry = retry := by omega
  have larger' : max (retry : Int) 1 = retry := by omega
  simp [answer, burstRow, spent, blocked, closed, least, larger, larger', refusedWith]

theorem fresh_stands (policy : RateLimitPolicy) (now : Nat) :
    Stands policy (some (freshBucket policy now)) now (.reached policy now now 1) := by
  have positive := policy.maximumRequests.nonzero
  rw [Phase.reached]
  split
  · rename_i one
    refine ⟨Nat.le_refl _, .inr ⟨_, rfl, ?_, ?_⟩⟩
    · simp [freshBucket, firstBlock, ← one, RateLimitPolicy.blockLength]
    · simp only [freshBucket, expiry]
      omega
  · rename_i more
    refine ⟨⟨Nat.one_pos, by omega, Nat.le_refl _⟩, .inr ⟨_, rfl, rfl, ?_, rfl, ?_⟩⟩
    · simp [freshBucket, firstBlock, Ne.symm more]
    · simp only [freshBucket, expiry]
      omega

theorem request_fresh (phase : Phase) (served_ : consumeBurst policy.maximumRequests.get policy.window.secs
      policy.blockFor.secs now row = some (freshBucket policy now))
    (over_ : phase.over policy now) :
    ∃ after_, Step policy phase ⟨now, (served policy now row).2⟩ after_ ∧
      Stands policy (served policy now row).1 now after_ := by
  have told : answer policy.maximumRequests.get
      (burstRow policy.maximumRequests.get now (freshBucket policy now)) = allowedWith policy 1 :=
    answer_counted policy.maximumRequests.nonzero
  simp only [served, served_, told]
  exact ⟨_, .begins over_, fresh_stands policy now⟩

theorem request_counts {b : Bucket} {start used : Nat}
    (legal : 0 < used ∧ used < policy.maximumRequests.get ∧ start ≤ now)
    (count : b.requestCount = used) (clear : b.blockedUntil = none) (since : b.updatedAt = start)
    (expires : start + policy.windowLength ≤ b.expiresAt)
    (within : now < start + policy.windowLength) :
    ∃ after_, Step policy (.counting start used) ⟨now, (served policy now (some b)).2⟩ after_ ∧
      Stands policy (served policy now (some b)).1 now after_ := by
  have open_ : b.blockedAt now = false := by simp [Bucket.blockedAt, clear]
  have stays : b.restarts policy.window.secs now = false := by
    simp only [Bucket.restarts, since, clear, Option.isSome_none, Bool.false_or,
      decide_eq_false_iff_not]
    exact Nat.not_le_of_lt within
  by_cases fits : used + 1 ≤ maxInteger
  · have smaller : min (used + 1) (policy.maximumRequests.get + 1) = used + 1 := by omega
    simp only [served, consumeBurst, open_, stays, count, integer, if_pos fits, Option.map_some,
      Bool.false_eq_true, if_false, smaller]
    rw [answer_counted (by simp only; omega)]
    refine ⟨_, .counts within legal.1 legal.2.1, ?_⟩
    by_cases spent : used + 1 = policy.maximumRequests.get
    · have reached : policy.maximumRequests.get ≤ used + 1 := by omega
      simp only [Phase.reached, if_pos spent, if_pos reached]
      refine ⟨Nat.le_refl _, .inr ⟨_, rfl, rfl, ?_⟩⟩
      simp only [expiry]
      omega
    · have room : ¬ policy.maximumRequests.get ≤ used + 1 := by omega
      simp only [Phase.reached, if_neg spent, if_neg room]
      refine ⟨⟨Nat.succ_pos _, by omega, legal.2.2⟩, .inr ⟨_, rfl, rfl, rfl, since, ?_⟩⟩
      simp only [expiry]
      omega
  · have stuck : served policy now (some b) = (some b, .error .database) := by
      simp [served, consumeBurst, open_, stays, count, integer, fits]
    rw [stuck]
    exact ⟨_, .stuck within (by omega), legal, .inr ⟨b, rfl, count, clear, since, expires⟩⟩

theorem request_refused {b : Bucket} (blocked : b.blockedUntil = some until_)
    (within : now < until_) (near_ : until_ ≤ now + policy.blockLength)
    (expires : until_ ≤ b.expiresAt) :
    ∃ after_, Step policy (.blocked until_) ⟨now, (served policy now (some b)).2⟩ after_ ∧
      Stands policy (served policy now (some b)).1 now after_ := by
  have running : b.blockedAt now = true := by simp [Bucket.blockedAt, blocked, within]
  by_cases fits : policy.maximumRequests.get + 1 ≤ maxInteger
  · simp only [served, consumeBurst, running, if_true, integer, if_pos fits, Option.map_some]
    obtain ⟨retry, reaches, told⟩ := answer_blocked policy
      (b := ⟨policy.maximumRequests.get + 1, b.blockedUntil,
        now + (policy.window.secs + policy.blockFor.secs) * second + hour, now⟩)
      blocked (Nat.lt_succ_self _) within
    rw [told]
    refine ⟨_, .refuses within reaches, near_, .inr ⟨_, rfl, blocked, ?_⟩⟩
    simp only [expiry]
    omega
  · have stuck : served policy now (some b) = (some b, .error .database) := by
      simp [served, consumeBurst, running, integer, fits]
    rw [stuck]
    exact ⟨_, .overflows within (by omega), near_, .inr ⟨b, rfl, blocked, expires⟩⟩

/-- Every request takes a step of the phase its row stands for. -/
theorem request_step {phase : Phase} (stands : Stands policy row now phase) :
    ∃ after_, Step policy phase ⟨now, (served policy now row).2⟩ after_ ∧
      Stands policy (served policy now row).1 now after_ := by
  cases phase with
  | idle =>
      rw [show row = none from stands]
      exact request_fresh _ rfl trivial
  | counting start used =>
      obtain ⟨legal, ⟨rfl, over_⟩ | ⟨b, rfl, count, clear, since, expires⟩⟩ := stands
      · exact request_fresh _ rfl over_
      · by_cases over_ : start + policy.windowLength ≤ now
        · have open_ : b.blockedAt now = false := by simp [Bucket.blockedAt, clear]
          have restarts : b.restarts policy.window.secs now = true := by
            simp only [Bucket.restarts, since, Bool.or_eq_true, decide_eq_true_eq]
            exact .inr over_
          refine request_fresh (.counting start used) ?_ over_
          simp [consumeBurst, open_, restarts, freshBucket]
        · exact request_counts legal count clear since expires (Nat.lt_of_not_le over_)
  | blocked until_ =>
      obtain ⟨near_, ⟨rfl, over_⟩ | ⟨b, rfl, blocked, expires⟩⟩ := stands
      · exact request_fresh _ rfl over_
      · by_cases over_ : until_ ≤ now
        · have open_ : b.blockedAt now = false := by simpa [Bucket.blockedAt, blocked] using over_
          refine request_fresh (.blocked until_) ?_ over_
          simp [consumeBurst, open_, Bucket.restarts, blocked, freshBucket]
        · exact request_refused blocked (Nat.lt_of_not_le over_) near_ expires

end Request

/-! ## Histories -/

/-- The table, the history and the clock. -/
structure Inv (policy : RateLimitPolicy) (buckets : Buckets) (h : List Entry) (clock : Nat) :
    Prop where
  past : ∀ e ∈ h, e.time ≤ clock
  ordered : h.Pairwise fun e later => e.time ≤ later.time
  run : ∃ phase, Run (Step policy) .idle h phase ∧ Stands policy (buckets epoch) clock phase

variable {h : List Entry}

theorem Inv.waits {buckets : Buckets} {clock later : Nat} (le : clock ≤ later)
    (inv : Inv policy buckets h clock) : Inv policy buckets h later where
  past := fun e mem => Nat.le_trans (inv.past e mem) le
  ordered := inv.ordered
  run := by
    obtain ⟨phase, run, stands⟩ := inv.run
    exact ⟨phase, run, stands.waits le⟩

theorem Inv.request {buckets : Buckets} {now : Nat}
    (inv : Inv policy buckets h now) :
    Inv policy (next (enforceBurstCooldown policy) buckets (.request now))
      (h ++ entries (enforceBurstCooldown policy) buckets (.request now)) now := by
  simp only [next, entries, enforceBurstCooldown_served]
  constructor
  · intro e mem
    rcases List.mem_append.mp mem with earlier | last
    · exact inv.past e earlier
    · exact Nat.le_of_eq (congrArg Entry.time (List.mem_singleton.mp last))
  · rw [List.pairwise_append]
    refine ⟨inv.ordered, List.pairwise_singleton _ _, fun e mem later last => ?_⟩
    rw [List.mem_singleton.mp last]
    exact inv.past e mem
  · obtain ⟨phase, run, stands⟩ := inv.run
    obtain ⟨after_, step, stands⟩ := request_step stands
    refine ⟨after_, run.append (.single step), ?_⟩
    exact stands

theorem Inv.maintenance {buckets : Buckets} {now : Nat} (picked : List Nat)
    (inv : Inv policy buckets h now) :
    Inv policy (deleteExpired now picked buckets) h now where
  past := inv.past
  ordered := inv.ordered
  run := by
    obtain ⟨phase, run, stands⟩ := inv.run
    refine ⟨phase, run, ?_⟩
    cases found : buckets epoch with
    | none => simpa [deleteExpired, found] using stands
    | some b =>
        by_cases gone : b.expiresAt ≤ now ∧ epoch ∈ picked
        · have none_ : deleteExpired now picked buckets epoch = none := by
            simp [deleteExpired, found, gone]
          rw [none_]
          exact stands.deleted fun other same => by
            rw [found] at same
            cases same
            exact gone.1
        · have stays : deleteExpired now picked buckets epoch = buckets epoch := by
            simp [deleteExpired, found, gone]
          rw [stays]
          exact stands

theorem Inv.init (policy : RateLimitPolicy) : Inv policy (fun _ => none) [] 0 where
  past := by simp
  ordered := .nil
  run := ⟨.idle, .nil _, rfl⟩

/-- Every history in time order is a run of the phases. -/
theorem history_run (policy : RateLimitPolicy) (events : List Event)
    (ordered : Ordered Event.time 0 events) :
    ((history (enforceBurstCooldown policy) events).Pairwise fun e later => e.time ≤ later.time) ∧
      ∃ phase, Run (Step policy) .idle (history (enforceBurstCooldown policy) events) phase := by
  have waits : ∀ s h clock later, clock ≤ later → Inv policy s h clock → Inv policy s h later :=
    fun _ _ _ _ le inv => inv.waits le
  have keeps : ∀ s h (a : Event), Inv policy s h a.time →
      Inv policy (next (enforceBurstCooldown policy) s a)
        (h ++ entries (enforceBurstCooldown policy) s a) a.time := by
    intro s h a inv
    cases a with
    | request now => exact inv.request
    | maintenance now picked =>
        simp only [entries, List.append_nil]
        exact inv.maintenance picked
  obtain ⟨last, inv⟩ := invariant waits keeps events _ _ _ (Inv.init policy) ordered
  obtain ⟨phase, run, -⟩ := inv.run
  exact ⟨inv.ordered, phase, run⟩

/-! ## What runs of the phases promise -/

/-- The request starts a count. -/
def fresh (policy : RateLimitPolicy) (e : Entry) : Prop := e.result = allowedWith policy 1

/-- The request is the last of its burst. -/
def usesUp (e : Entry) : Prop := e.result = .ok { remaining := 0 }

section Steps

variable {phase after_ : Phase} {e : Entry}

theorem Step.spends (step : Step policy phase e after_) (spent : usesUp e) :
    after_ = .blocked (e.time + policy.blockLength) := by
  have positive := policy.maximumRequests.nonzero
  cases step with
  | begins over_ =>
      have left_ : policy.maximumRequests.get - 1 = 0 := by
        simpa [usesUp, allowedWith] using spent
      rw [Phase.reached, if_pos (by omega)]
  | counts within before room =>
      rename_i start used now
      have left_ : policy.maximumRequests.get - (used + 1) = 0 := by
        simpa only [usesUp, allowedWith, Except.ok.injEq, RateLimitState.mk.injEq] using spent
      rw [Phase.reached, if_pos (by omega)]
  | refuses within reaches => cases spent
  | overflows within large => cases spent
  | stuck within large => cases spent

/-- A fresh count starts where the phase is over. -/
theorem Step.of_fresh (step : Step policy phase e after_) (starts : fresh policy e) :
    phase.over policy e.time ∧ after_ = .reached policy e.time e.time 1 := by
  cases step with
  | begins over_ => exact ⟨over_, rfl⟩
  | counts within before room =>
      rename_i start used now
      have same : policy.maximumRequests.get - (used + 1) = policy.maximumRequests.get - 1 := by
        simpa only [fresh, allowedWith, Except.ok.injEq, RateLimitState.mk.injEq] using starts
      omega
  | refuses within reaches => cases starts
  | overflows within large => cases starts
  | stuck within large => cases starts

/-- During a block a request is refused with the time left, or fails where the count that
stands for a refusal is no `integer`. -/
theorem Step.during_block (step : Step policy (.blocked until_) e after_)
    (early : e.time < until_) :
    after_ = .blocked until_ ∧ e.allowed = false ∧
      ((∃ retry, e.retryAfter = some retry ∧ Reaches e.time until_ retry) ∨
        e.result = .error .database ∧ maxInteger ≤ policy.maximumRequests.get) := by
  cases step with
  | begins over_ => exact absurd over_ (Nat.not_le_of_lt early)
  | refuses within reaches => exact ⟨rfl, rfl, .inl ⟨_, rfl, reaches⟩⟩
  | overflows within large => exact ⟨rfl, rfl, .inr ⟨rfl, large⟩⟩

theorem Step.past_block (step : Step policy (.blocked until_) e after_)
    (late : until_ ≤ e.time) : fresh policy e := by
  cases step with
  | begins over_ => rfl
  | refuses within reaches => exact absurd within (Nat.not_lt_of_le late)
  | overflows within large => exact absurd within (Nat.not_lt_of_le late)

/-- How much of the burst a phase has used. -/
def Phase.used (policy : RateLimitPolicy) : Phase → Nat
  | .idle => 0
  | .counting _ used => used
  | .blocked _ => policy.maximumRequests.get

theorem Phase.used_reached (start now n : Nat) :
    (Phase.reached policy start now n).used policy = n := by
  rw [Phase.reached]
  split
  · rename_i same
    exact same.symm
  · rfl

theorem Step.used_le (step : Step policy phase e after_)
    (before : phase.used policy ≤ policy.maximumRequests.get) :
    after_.used policy ≤ policy.maximumRequests.get := by
  have positive := policy.maximumRequests.nonzero
  cases step with
  | begins over_ =>
      rw [Phase.used_reached]
      exact positive
  | counts within before room =>
      rw [Phase.used_reached]
      exact room
  | refuses within reaches => exact before
  | overflows within large => exact before
  | stuck within large => exact before

/-- Every allowed request uses one, and only a fresh count gives any back. -/
theorem Step.used_of_not_fresh (step : Step policy phase e after_) (goes_on : ¬ fresh policy e) :
    after_.used policy = phase.used policy + [e].countP Entry.allowed := by
  cases step with
  | begins over_ => exact absurd rfl goes_on
  | counts within before room =>
      rw [Phase.used_reached]
      rfl
  | refuses within reaches => rfl
  | overflows within large => rfl
  | stuck within large => rfl

theorem Step.allowed_le_used (step : Step policy phase e after_) :
    [e].countP Entry.allowed ≤ after_.used policy := by
  cases step with
  | begins over_ =>
      rw [Phase.used_reached]
      exact Nat.le_refl _
  | counts within before room =>
      rw [Phase.used_reached]
      exact Nat.succ_le_succ (Nat.zero_le _)
  | refuses within reaches => exact Nat.zero_le _
  | overflows within large => exact Nat.zero_le _
  | stuck within large => exact Nat.zero_le _

end Steps

section Runs

variable {phase last : Phase}

/-- Cut a run at one of its entries. -/
theorem cut {before after_ : List Entry} {e : Entry}
    (run : Run (Step policy) phase (before ++ e :: after_) last) :
    ∃ met left_, Run (Step policy) phase before met ∧ Step policy met e left_ ∧
      Run (Step policy) left_ after_ last := by
  obtain ⟨met, first, rest⟩ := run.split
  cases rest with
  | cons step rest => exact ⟨met, _, first, step, rest⟩

theorem run_used_le (run : Run (Step policy) phase h last)
    (before : phase.used policy ≤ policy.maximumRequests.get) :
    last.used policy ≤ policy.maximumRequests.get :=
  run.invariant (fun _ _ _ le step => step.used_le le) before

/-- Along one count every allowed request uses one. -/
theorem run_used (run : Run (Step policy) phase h last)
    (one : ∀ e ∈ h, ¬ fresh policy e) :
    last.used policy = phase.used policy + h.countP Entry.allowed := by
  induction run with
  | nil phase => simp
  | cons step later ih =>
      rename_i a rest
      have here := step.used_of_not_fresh (one a (by simp))
      have there := ih fun e mem => one e (by simp [mem])
      have parts : (a :: rest).countP Entry.allowed =
          [a].countP Entry.allowed + rest.countP Entry.allowed := by
        rw [← List.countP_append, List.singleton_append]
      omega

/-- Nothing before the end of a block gets past it. -/
theorem run_blocked
    (run : Run (Step policy) (.blocked until_) h last) (early : ∀ e ∈ h, e.time < until_) :
    last = .blocked until_ := by
  induction h with
  | nil =>
      cases run
      rfl
  | cons a rest ih =>
      cases run with
      | cons step later =>
          rw [(step.during_block (early a (by simp))).1] at later
          exact ih later fun e mem => early e (by simp [mem])

theorem run_closed
    (run : Run (Step policy) (.blocked until_) h last)
    (ordered : h.Pairwise fun e later => e.time ≤ later.time) :
    ∀ e ∈ h, e.allowed = true → until_ ≤ e.time := by
  induction h with
  | nil => simp
  | cons a rest ih =>
      rw [List.pairwise_cons] at ordered
      cases run with
      | cons step later =>
          intro e mem yes
          by_cases early : a.time < until_
          · obtain ⟨stays, no, -⟩ := step.during_block early
            rw [stays] at later
            rcases List.mem_cons.mp mem with rfl | mem
            · rw [no] at yes
              cases yes
            · exact ih later ordered.2 e mem yes
          · have late := Nat.le_of_not_lt early
            rcases List.mem_cons.mp mem with rfl | mem
            · exact late
            · exact Nat.le_trans late (ordered.1 e mem)

/-- A block was started by the request that used the burst up, and nothing since then came
after its end. -/
theorem blocked_since
    (run : Run (Step policy) .idle h (.blocked until_)) :
    ∃ earlier spent between, h = earlier ++ spent :: between ∧ usesUp spent ∧
      until_ = spent.time + policy.blockLength ∧ ∀ e ∈ between, e.time < until_ := by
  induction h using List.reverseRecOn with
  | nil => cases run
  | append_singleton h a ih =>
      obtain ⟨met, left_, before, step, rest⟩ := cut run
      cases rest
      have started : ∀ start now n, a.result = allowedWith policy n → a.time = now →
          Phase.reached policy start now n = .blocked until_ →
          usesUp a ∧ until_ = a.time + policy.blockLength := by
        intro start now n told at_ reached
        rw [Phase.reached] at reached
        split at reached
        · rename_i all
          cases reached
          exact ⟨by rw [usesUp, told, allowedWith, all, Nat.sub_self], by rw [at_]⟩
        · cases reached
      generalize same : Phase.blocked until_ = reached at step
      cases step with
      | begins over_ =>
          obtain ⟨spent, ends⟩ := started _ _ _ rfl rfl same.symm
          exact ⟨h, _, [], rfl, spent, ends, by simp⟩
      | counts within before room =>
          obtain ⟨spent, ends⟩ := started _ _ _ rfl rfl same.symm
          exact ⟨h, _, [], rfl, spent, ends, by simp⟩
      | refuses within reaches =>
          cases same
          obtain ⟨earlier, spent, between, rfl, used, ends, early⟩ := ih before
          refine ⟨earlier, spent, between ++ [_], List.append_assoc _ _ _, used, ends, ?_⟩
          simpa [or_imp, forall_and] using ⟨early, within⟩
      | overflows within large =>
          cases same
          obtain ⟨earlier, spent, between, rfl, used, ends, early⟩ := ih before
          refine ⟨earlier, spent, between ++ [_], List.append_assoc _ _ _, used, ends, ?_⟩
          simpa [or_imp, forall_and] using ⟨early, within⟩
      | stuck within large => cases same

/-- The count begun at `start` is still open, or one of `seen` has used it up. -/
def Since (policy : RateLimitPolicy) (start : Nat) (seen : List Entry) (phase : Phase) : Prop :=
  (∃ used, phase = .counting start used) ∨
    ∃ spent ∈ seen, usesUp spent ∧ phase = .blocked (spent.time + policy.blockLength)

theorem Step.since {start : Nat} {seen : List Entry} {e : Entry} {after_ : Phase}
    (step : Step policy phase e after_) (goes_on : ¬ fresh policy e)
    (since : Since policy start seen phase) : Since policy start (seen ++ [e]) after_ := by
  cases step with
  | begins over_ => exact absurd rfl goes_on
  | counts within before room =>
      rename_i begun used now
      rw [Phase.reached]
      split
      · rename_i all
        refine .inr ⟨⟨now, allowedWith policy (used + 1)⟩, by simp, ?_, rfl⟩
        rw [usesUp, allowedWith, all, Nat.sub_self]
      · rcases since with ⟨n, same⟩ | ⟨spent, mem, used, same⟩
        · cases same
          exact .inl ⟨_, rfl⟩
        · cases same
  | refuses within reaches =>
      rcases since with ⟨n, same⟩ | ⟨spent, mem, used, same⟩
      · cases same
      · exact .inr ⟨spent, by simp [mem], used, same⟩
  | overflows within large =>
      rcases since with ⟨n, same⟩ | ⟨spent, mem, used, same⟩
      · cases same
      · exact .inr ⟨spent, by simp [mem], used, same⟩
  | stuck within large =>
      rcases since with ⟨n, same⟩ | ⟨spent, mem, used, same⟩
      · exact .inl ⟨n, same⟩
      · cases same

theorem Step.opens {e : Entry} {after_ : Phase} (step : Step policy phase e after_)
    (starts : fresh policy e) : Since policy e.time [e] after_ := by
  rw [(step.of_fresh starts).2, Phase.reached]
  split
  · rename_i all
    refine .inr ⟨e, by simp, ?_, rfl⟩
    rw [usesUp, starts, allowedWith, ← all]
  · exact .inl ⟨1, rfl⟩

theorem run_since {start : Nat} (run : Run (Step policy) phase h last)
    (one : ∀ e ∈ h, ¬ fresh policy e) :
    ∀ seen, Since policy start seen phase → Since policy start (seen ++ h) last := by
  induction run with
  | nil phase =>
      intro seen since
      simpa using since
  | cons step later ih =>
      rename_i a rest
      intro seen since
      have here := step.since (one a (by simp)) since
      have there := ih (fun e mem => one e (by simp [mem])) _ here
      simpa using there

end Runs

/-- **Bursts.** In every history in time order, with a count reaching from the request that
starts it to the next such request:
* a count allows at most the burst, and the next count starts only when the interval since its
  start or the block that its last request started is over;
* after the request that uses the burst up nothing is allowed until the whole block is over,
  and the first request after that is allowed and starts a count;
* every refusal falls into such a block and is told the least number of seconds that reach the
  end of it; a limit beyond the range of the counter fails instead of being refused. -/
theorem burst_limits (policy : RateLimitPolicy) (events : List Event)
    (ordered : Ordered Event.time 0 events) :
    (∀ before first rest after_,
      history (enforceBurstCooldown policy) events = before ++ first :: (rest ++ after_) →
      (∀ e ∈ rest, ¬ fresh policy e) →
      (first :: rest).countP Entry.allowed ≤ policy.maximumRequests.get) ∧
    (∀ before first between second after_,
      history (enforceBurstCooldown policy) events =
        before ++ first :: (between ++ second :: after_) →
      fresh policy first → fresh policy second → (∀ e ∈ between, ¬ fresh policy e) →
      first.time + policy.windowLength ≤ second.time ∨
        ∃ spent ∈ first :: between, usesUp spent ∧
          spent.time + policy.blockLength ≤ second.time) ∧
    (∀ before spent after_,
      history (enforceBurstCooldown policy) events = before ++ spent :: after_ → usesUp spent →
      ∀ e ∈ after_, e.allowed = true → spent.time + policy.blockLength ≤ e.time) ∧
    (∀ before spent between e after_,
      history (enforceBurstCooldown policy) events = before ++ spent :: (between ++ e :: after_) →
      usesUp spent → (∀ a ∈ between, a.time < spent.time + policy.blockLength) →
      (spent.time + policy.blockLength ≤ e.time → fresh policy e) ∧
      (e.time < spent.time + policy.blockLength →
        (∃ retry, e.retryAfter = some retry ∧
          Reaches e.time (spent.time + policy.blockLength) retry) ∨
        e.result = .error .database ∧ maxInteger ≤ policy.maximumRequests.get)) ∧
    ∀ before e after_ retry,
      history (enforceBurstCooldown policy) events = before ++ e :: after_ →
      e.retryAfter = some retry →
      ∃ earlier spent between, before = earlier ++ spent :: between ∧ usesUp spent ∧
        (∀ a ∈ between, a.time < spent.time + policy.blockLength) ∧
        e.time < spent.time + policy.blockLength := by
  obtain ⟨sorted, last, run⟩ := history_run policy events ordered
  generalize history (enforceBurstCooldown policy) events = h at sorted run
  refine ⟨?_, ?_, ?_, ?_, ?_⟩
  · rintro before first rest after_ rfl one
    obtain ⟨met, left_, past, step, rest_⟩ := cut run
    obtain ⟨stop, counted, -⟩ := rest_.split
    have bounded := step.used_le (run_used_le past (Nat.zero_le _))
    have total := run_used_le counted bounded
    have spends := run_used counted one
    have opens := step.allowed_le_used
    have parts : (first :: rest).countP Entry.allowed =
        [first].countP Entry.allowed + rest.countP Entry.allowed := by
      rw [← List.countP_append, List.singleton_append]
    omega
  · rintro before first between second after_ rfl begins begins' one
    obtain ⟨met, left_, past, step, rest⟩ := cut run
    obtain ⟨met', left', counted, step', -⟩ := cut rest
    have opened := step.opens begins
    have over_ := (step'.of_fresh begins').1
    rcases run_since counted one _ opened with ⟨used, same⟩ | ⟨spent, mem, uses, same⟩
    · rw [same] at over_
      exact .inl over_
    · rw [same] at over_
      exact .inr ⟨spent, by simpa using mem, uses, over_⟩
  · rintro before spent after_ rfl uses e mem yes
    obtain ⟨met, left_, past, step, rest⟩ := cut run
    rw [step.spends uses] at rest
    have later := (List.pairwise_cons.mp (List.pairwise_append.mp sorted).2.1).2
    exact run_closed rest later e mem yes
  · rintro before spent between e after_ rfl uses early
    obtain ⟨met, left_, past, step, rest⟩ := cut run
    rw [step.spends uses] at rest
    obtain ⟨met', left', waiting, step', -⟩ := cut rest
    rw [run_blocked waiting early] at step'
    exact ⟨step'.past_block, fun soon => (step'.during_block soon).2.2⟩
  · rintro before e after_ retry rfl told
    obtain ⟨met, left_, past, step, -⟩ := cut run
    cases step with
    | begins over_ => cases told
    | counts within before room => cases told
    | refuses within reaches =>
        obtain ⟨earlier, spent, between, cut_, uses, rfl, early⟩ := blocked_since past
        exact ⟨earlier, spent, between, cut_, uses, early, within⟩
    | overflows within large => cases told
    | stuck within large => cases told

/-- One request, then a second's block. -/
def onePerSecond : RateLimitPolicy where
  maximumRequests := .one
  window := .fromSecs 1
  blockFor := .fromSecs 1
  window_valid := by decide
  block_valid := by decide

def halfSeconds : List Event := [.request 0, .request 500000, .request 1000000]

theorem burst_limits_half_seconds :
    Ordered Event.time 0 halfSeconds ∧
      ∀ before spent after_,
        history (enforceBurstCooldown onePerSecond) halfSeconds = before ++ spent :: after_ →
        usesUp spent →
        ∀ e ∈ after_, e.allowed = true → spent.time + onePerSecond.blockLength ≤ e.time :=
  ⟨by decide, (burst_limits onePerSecond halfSeconds (by decide)).2.2.1⟩

/-- A refusal half a second into the block is told to wait for a second, and a request half a
second later is allowed. -/
theorem allowed_before_retry :
    Ordered Event.time 0 halfSeconds ∧
      ∃ e later retry,
        [e, later].Sublist (history (enforceBurstCooldown onePerSecond) halfSeconds) ∧
        e.retryAfter = some retry ∧ later.allowed = true ∧
        later.time < e.time + retry * second := by
  refine ⟨by decide, ⟨500000, .error (.rateLimited 1 0 1 1)⟩, ⟨1000000, .ok ⟨0⟩⟩, 1, ?_, rfl, rfl,
    by decide⟩
  have run : history (enforceBurstCooldown onePerSecond) halfSeconds =
      [⟨0, .ok ⟨0⟩⟩, ⟨500000, .error (.rateLimited 1 0 1 1)⟩, ⟨1000000, .ok ⟨0⟩⟩] := by
    decide +kernel
  rw [run]
  exact .cons _ (.refl _)

end SiliconIam.Postgres.BurstCooldown
