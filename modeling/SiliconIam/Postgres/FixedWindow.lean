/-
# Postgres.FixedWindow -- what the window limiter promises over a history

Each window has its row, so a history falls apart into the histories of its
windows.  `Kept` ties a row to the entries of its window: it counts them, and
its block is `deadline`, the later of the window's end and the block counted from
the first refusal.  `history_kept` carries it over every history in time order,
with maintenance deleting expired rows in between.

A block that reaches past the window's end stays in a row that no later request
reads (`refusal_crosses_window`).
-/
import SiliconIam.Postgres.RateLimit
import Mathlib.Data.List.Basic

namespace SiliconIam.Postgres.FixedWindow

open SiliconIam.Theory.Clocked
open SiliconIam.Postgres.RateLimit

set_option autoImplicit false

variable (policy : RateLimitPolicy)

/-! ## Entries of one window -/

def windowOf (now : Nat) : Nat := dateBin policy.windowLength now

def windowEnd (w : Nat) : Nat := w + policy.windowLength

theorem lt_windowEnd (now : Nat) : now < windowEnd policy (windowOf policy now) :=
  Nat.lt_div_mul_add policy.windowLength_pos

def within (w : Nat) (h : List Entry) : List Entry :=
  h.filter fun e => windowOf policy e.time = w

def refused (e : Entry) : Bool := e.retryAfter.isSome

/-- An entry whose statement was not refused by the database. -/
def counted (e : Entry) : Bool := e.allowed || refused e

theorem not_allowed_of_refused {e : Entry} (no : refused e = true) : e.allowed = false := by
  obtain ⟨time, result⟩ := e
  cases result with
  | ok state => simp [refused, Entry.retryAfter] at no
  | error e => rfl

/-- The end of the block that the entries of a window have started. -/
def deadline (w : Nat) (h : List Entry) : Option Nat :=
  (h.find? refused).map fun first => max (windowEnd policy w) (first.time + policy.blockLength)

/-- A refusal starts a block where none runs. -/
theorem deadline_append (w : Nat) (h : List Entry) {e : Entry} (told : refused e = true) :
    deadline policy w (h ++ [e]) =
      some ((deadline policy w h).getD (max (windowEnd policy w) (e.time + policy.blockLength))) := by
  -- for any end of a block: unfolding this one's arithmetic is slow
  have starts (ends : Entry → Nat) : ((h ++ [e]).find? refused).map ends =
      some (((h.find? refused).map ends).getD (ends e)) := by
    rw [List.find?_append]
    cases h.find? refused with
    | none => simp [told]
    | some first => simp
  exact starts _

/-- What the entries of a window look like. -/
structure Facts (w : Nat) (h : List Entry) : Prop where
  allowed : h.countP Entry.allowed = min (h.countP counted) policy.maximumRequests.get
  exhausted : (h.find? refused).isSome ↔ policy.maximumRequests.get < h.countP counted
  closed : h.Pairwise fun e later => refused e = true → later.allowed = false
  waits : ∀ e ∈ h, ∀ retry, e.retryAfter = some retry →
    ∃ first, h.find? refused = some first ∧ first.time ≤ e.time ∧
      Reaches e.time (max (windowEnd policy w) (first.time + policy.blockLength)) retry

/-- A row and the entries of its window. -/
structure Kept (w : Nat) (row : Option Bucket) (h : List Entry) : Prop where
  count : (row.map Bucket.requestCount).getD 0 = h.countP counted
  blocked : row.bind Bucket.blockedUntil = deadline policy w h
  facts : Facts policy w h

variable {policy}

theorem Kept.empty (w : Nat) : Kept policy w none [] where
  count := rfl
  blocked := rfl
  facts :=
    { allowed := by simp
      exhausted := by simp
      closed := .nil
      waits := by simp }

section Append

variable {w : Nat} {h : List Entry} {e : Entry}

/-- A request that the database refuses changes nothing. -/
theorem Facts.fail (facts : Facts policy w h) (silent : counted e = false) :
    Facts policy w (h ++ [e]) := by
  have quiet : e.allowed = false ∧ refused e = false := by simpa [counted] using silent
  have same : (h ++ [e]).find? refused = h.find? refused := by
    simp [List.find?_append, quiet.2]
  constructor
  · simp [List.countP_append, quiet.1, silent, facts.allowed]
  · simp [List.countP_append, same, silent, facts.exhausted]
  · rw [List.pairwise_append]
    refine ⟨facts.closed, List.pairwise_singleton _ _, fun a _ b mem _ => ?_⟩
    rw [List.mem_singleton.mp mem]
    exact quiet.1
  · intro a mem retry told
    rw [same]
    rcases List.mem_append.mp mem with earlier | last
    · exact facts.waits a earlier retry told
    · rw [List.mem_singleton.mp last] at told
      simp [refused, told] at quiet

theorem Facts.allow (facts : Facts policy w h) (yes : e.allowed = true)
    (room : h.countP counted < policy.maximumRequests.get) : Facts policy w (h ++ [e]) := by
  have open_ : h.find? refused = none := by
    have : ¬ (h.find? refused).isSome := fun some_ => by
      have := facts.exhausted.mp some_
      omega
    simpa using this
  have quiet : refused e = false := by
    by_contra no
    simp [not_allowed_of_refused (by simpa using no)] at yes
  have here : counted e = true := by simp [counted, yes]
  have same : (h ++ [e]).find? refused = none := by
    rw [List.find?_append, open_]
    simp [quiet]
  constructor
  · have := facts.allowed
    simp only [List.countP_append, List.countP_singleton, yes, here, if_true]
    omega
  · simp only [same, List.countP_append, List.countP_singleton, here, if_true]
    simp
    omega
  · rw [List.pairwise_append]
    refine ⟨facts.closed, List.pairwise_singleton _ _, fun a mem b _ no => ?_⟩
    exact absurd no (List.find?_eq_none.mp open_ a mem)
  · intro a mem retry told
    have no : refused a = true := by simp [refused, told]
    exact absurd no (List.find?_eq_none.mp same a mem)

theorem Facts.refuse (facts : Facts policy w h) {retry : Nat} (no : e.retryAfter = some retry)
    (spent : policy.maximumRequests.get ≤ h.countP counted)
    (latest : ∀ a ∈ h, a.time ≤ e.time)
    (reaches : ∀ until_, deadline policy w (h ++ [e]) = some until_ → Reaches e.time until_ retry) :
    Facts policy w (h ++ [e]) := by
  have told : refused e = true := by simp [refused, no]
  have here : counted e = true := by simp [counted, told]
  have quiet := not_allowed_of_refused told
  have found : ((h ++ [e]).find? refused).isSome := by
    simp [List.find?_append, told]
  constructor
  · have := facts.allowed
    simp only [List.countP_append, List.countP_singleton, quiet, here, if_true]
    simp
    omega
  · simp only [found, List.countP_append, List.countP_singleton, here, if_true, true_iff]
    omega
  · rw [List.pairwise_append]
    refine ⟨facts.closed, List.pairwise_singleton _ _, fun a _ b mem _ => ?_⟩
    rw [List.mem_singleton.mp mem]
    exact quiet
  · intro a mem told retry'
    rcases List.mem_append.mp mem with earlier | last
    · obtain ⟨first, at_, before, waits⟩ := facts.waits a earlier told retry'
      exact ⟨first, by rw [List.find?_append, at_]; rfl, before, waits⟩
    · obtain ⟨first, at_⟩ := Option.isSome_iff_exists.mp found
      rw [List.mem_singleton.mp last] at retry' ⊢
      have same : told = retry := by simpa [no] using retry'.symm
      refine ⟨first, at_, ?_, ?_⟩
      · rcases List.mem_append.mp (List.mem_of_find?_eq_some at_) with earlier | last
        · exact latest first earlier
        · exact Nat.le_of_eq (congrArg Entry.time (List.mem_singleton.mp last))
      · rw [same]
        exact reaches _ (by rw [deadline, at_]; rfl)

end Append

/-! ## One request -/

/-- What a request at `now` makes of its window's row, and its answer. -/
def served (policy : RateLimitPolicy) (w now : Nat) (row : Option Bucket) :
    Option Bucket × Except AppError RateLimitState :=
  match consumeWindow policy.maximumRequests.get policy.window.secs policy.blockFor.secs w now row
  with
  | none => (row, .error .database)
  | some bucket =>
      (some bucket,
        answer policy.maximumRequests.get (windowRow policy.maximumRequests.get now bucket))

theorem enforce_served (policy : RateLimitPolicy) (now : Nat) (buckets : Buckets) :
    enforce policy now buckets =
      (Function.update buckets (windowOf policy now)
          (served policy (windowOf policy now) now (buckets (windowOf policy now))).1,
        (served policy (windowOf policy now) now (buckets (windowOf policy now))).2) := by
  rw [enforce_eq, consume, served, windowOf]
  cases consumeWindow policy.maximumRequests.get policy.window.secs policy.blockFor.secs
      (dateBin policy.windowLength now) now (buckets (dateBin policy.windowLength now)) with
  | none => simp
  | some bucket => rfl

section Request

variable {w now : Nat} {row : Option Bucket} {h : List Entry}

variable {bucket : Bucket}

/-- A row without a block allows while there is room. -/
theorem answer_open (clear : bucket.blockedUntil = none)
    (room : bucket.requestCount ≤ policy.maximumRequests.get) :
    answer policy.maximumRequests.get (windowRow policy.maximumRequests.get now bucket) =
      .ok { remaining := policy.maximumRequests.get - bucket.requestCount } := by
  simp [answer, windowRow, clear, room]

/-- A row under a block tells the time left. -/
theorem answer_blocked (policy : RateLimitPolicy) {until_ : Nat} (blocked : bucket.blockedUntil = some until_)
    (ahead : now < until_) :
    ∃ retry, Reaches now until_ retry ∧
      answer policy.maximumRequests.get (windowRow policy.maximumRequests.get now bucket) =
        .error (.rateLimited policy.maximumRequests.get 0 retry retry) := by
  obtain ⟨retry, least, reaches⟩ := ceilSeconds_reaches ahead
  refine ⟨retry, reaches, ?_⟩
  have positive := reaches.1
  have closed : ¬ until_ ≤ now := by omega
  have larger : max (retry : Int) 1 = retry := by omega
  simp [answer, windowRow, blocked, closed, least, larger]

/-- The request is counted and finds room. -/
theorem Kept.admits (kept : Kept policy w row h) (free : row.bind Bucket.blockedUntil = none) (count : bucket.requestCount = h.countP counted + 1)
    (clear : bucket.blockedUntil = none)
    (room : bucket.requestCount ≤ policy.maximumRequests.get) :
    Kept policy w (some bucket) (h ++ [⟨now,
      answer policy.maximumRequests.get (windowRow policy.maximumRequests.get now bucket)⟩]) := by
  rw [answer_open clear room]
  constructor
  · simp [List.countP_append, counted, Entry.allowed, count]
  · have none_ : h.find? refused = none := by simpa [deadline, kept.blocked] using free
    simp [deadline, List.find?_append, none_, clear, refused, Entry.retryAfter]
  · apply kept.facts.allow rfl
    omega

/-- The request is counted and finds the window used up. -/
theorem Kept.refuses (kept : Kept policy w row h) (latest : ∀ e ∈ h, e.time ≤ now) (count : bucket.requestCount = h.countP counted + 1) {until_ : Nat}
    (blocked : bucket.blockedUntil = some until_) (ahead : now < until_)
    (spent : policy.maximumRequests.get < bucket.requestCount)
    (ends : until_ = (row.bind Bucket.blockedUntil).getD
      (max (windowEnd policy w) (now + policy.blockLength))) :
    Kept policy w (some bucket) (h ++ [⟨now,
      answer policy.maximumRequests.get (windowRow policy.maximumRequests.get now bucket)⟩]) := by
  obtain ⟨retry, reaches, told⟩ := answer_blocked policy blocked ahead
  rw [told]
  have same : deadline policy w (h ++ [⟨now,
      .error (.rateLimited policy.maximumRequests.get 0 retry retry)⟩]) = some until_ := by
    rw [deadline_append policy w h rfl, ends, kept.blocked]
  constructor
  · simp [List.countP_append, counted, refused, Entry.allowed, Entry.retryAfter, count]
  · rw [same]
    exact blocked
  · apply kept.facts.refuse rfl
    · omega
    · exact latest
    · intro other found
      rw [same] at found
      cases found
      exact reaches

theorem Kept.request (kept : Kept policy w row h) (here : windowOf policy now = w)
    (latest : ∀ e ∈ h, e.time ≤ now) :
    Kept policy w (served policy w now row).1 (h ++ [⟨now, (served policy w now row).2⟩]) := by
  have soon : now < windowEnd policy w := here ▸ lt_windowEnd policy now
  have least := policy.maximumRequests.nonzero
  cases row with
  | none =>
      -- the first request of a window
      have nothing : h.countP counted = 0 := by simpa using kept.count.symm
      exact kept.admits rfl (by simp [nothing]) rfl least
  | some old =>
      have count : old.requestCount = h.countP counted := by simpa using kept.count
      by_cases fits : old.requestCount + 1 ≤ maxInteger
      · simp only [served, consumeWindow, integer, if_pos fits, Option.map_some]
        cases running : old.blockedUntil with
        | some until_ =>
            -- a block of this window ends no earlier than the window
            have ends : deadline policy w h = some until_ := by rw [← kept.blocked]; exact running
            obtain ⟨first, found, value⟩ := Option.map_eq_some_iff.mp ends
            have spent := kept.facts.exhausted.mp (by simp [found])
            have ahead : now < until_ := by omega
            have still : old.blockedAt now = true := by simp [Bucket.blockedAt, running, ahead]
            rw [if_pos still]
            apply kept.refuses latest (by simp [count]) rfl ahead
            · simp only
              omega
            · simp [running]
        | none =>
            have clear : old.blockedAt now = false := by simp [Bucket.blockedAt, running]
            by_cases over_ : policy.maximumRequests.get < old.requestCount + 1
            · simp only [clear, Bool.false_eq_true, if_false, if_pos over_]
              apply kept.refuses latest (by simp [count]) rfl
              · have := policy.blockLength_pos
                simp only [RateLimitPolicy.blockLength] at this
                omega
              · exact over_
              · rw [Option.bind_some, running, Option.getD_none, windowEnd,
                  RateLimitPolicy.windowLength, RateLimitPolicy.blockLength]
            · simp only [clear, Bool.false_eq_true, if_false, if_neg over_]
              exact kept.admits (by simp [running]) (by simp [count]) rfl (by simpa using over_)
      · -- the count has reached the largest integer
        simp only [served, consumeWindow, integer, if_neg fits, Option.map_none]
        refine ⟨?_, ?_, kept.facts.fail rfl⟩
        · simp [List.countP_append, counted, refused, Entry.allowed, Entry.retryAfter, count]
        · rw [kept.blocked, deadline, deadline, List.find?_append]
          simp [refused, Entry.retryAfter]

/-- Rows expire an hour after their window. -/
theorem served_expires (after_ : (served policy w now row).1 = some bucket)
    (before : ∀ old, row = some old → old.expiresAt = windowEnd policy w + hour) :
    bucket.expiresAt = windowEnd policy w + hour := by
  cases row with
  | none =>
      cases after_
      rfl
  | some old =>
      have kept := before old rfl
      simp only [served, consumeWindow] at after_
      cases sum : integer (old.requestCount + 1) with
      | none =>
          simp only [sum, Option.map_none] at after_
          cases after_
          exact kept
      | some count =>
          simp only [sum, Option.map_some] at after_
          cases after_
          exact kept

end Request

/-! ## Histories -/

/-- The table, the history and the clock. -/
structure Inv (policy : RateLimitPolicy) (buckets : Buckets) (h : List Entry) (clock : Nat) :
    Prop where
  past : ∀ e ∈ h, e.time ≤ clock
  ordered : h.Pairwise fun e later => e.time ≤ later.time
  rows : ∀ w, clock < windowEnd policy w → Kept policy w (buckets w) (within policy w h)
  facts : ∀ w, Facts policy w (within policy w h)
  expires : ∀ w bucket, buckets w = some bucket → bucket.expiresAt = windowEnd policy w + hour

theorem Inv.waits {buckets : Buckets} {h : List Entry} {clock later : Nat} (le : clock ≤ later)
    (inv : Inv policy buckets h clock) : Inv policy buckets h later where
  past := fun e mem => Nat.le_trans (inv.past e mem) le
  ordered := inv.ordered
  rows := fun w soon => inv.rows w (Nat.lt_of_le_of_lt le soon)
  facts := inv.facts
  expires := inv.expires

theorem Inv.request {buckets : Buckets} {h : List Entry} {now : Nat}
    (inv : Inv policy buckets h now) :
    Inv policy (next (enforce policy) buckets (.request now))
      (h ++ entries (enforce policy) buckets (.request now)) now := by
  have kept := (inv.rows (windowOf policy now) (lt_windowEnd policy now)).request rfl
    fun e mem => inv.past e (List.mem_of_mem_filter mem)
  simp only [next, entries, enforce_served]
  have elsewhere : ∀ w, w ≠ windowOf policy now → ∀ result,
      within policy w (h ++ [⟨now, result⟩]) = within policy w h := by
    intro w other result
    simp [within, List.filter_append, Ne.symm other]
  have here : ∀ result, within policy (windowOf policy now) (h ++ [⟨now, result⟩]) =
      within policy (windowOf policy now) h ++ [⟨now, result⟩] := by
    intro result
    simp [within, List.filter_append]
  constructor
  · intro e mem
    rcases List.mem_append.mp mem with earlier | last
    · exact inv.past e earlier
    · exact Nat.le_of_eq (congrArg Entry.time (List.mem_singleton.mp last))
  · rw [List.pairwise_append]
    refine ⟨inv.ordered, List.pairwise_singleton _ _, fun e mem later last => ?_⟩
    rw [List.mem_singleton.mp last]
    exact inv.past e mem
  · intro w soon
    by_cases same : w = windowOf policy now
    · subst same
      rw [Function.update_self, here]
      exact kept
    · rw [Function.update_of_ne same, elsewhere w same]
      exact inv.rows w soon
  · intro w
    by_cases same : w = windowOf policy now
    · subst same
      rw [here]
      exact kept.facts
    · rw [elsewhere w same]
      exact inv.facts w
  · intro w bucket found
    by_cases same : w = windowOf policy now
    · subst same
      rw [Function.update_self] at found
      exact served_expires found fun old was => inv.expires _ old was
    · rw [Function.update_of_ne same] at found
      exact inv.expires w bucket found

/-- Maintenance leaves the rows of the windows that are not over. -/
theorem Inv.maintenance {buckets : Buckets} {h : List Entry} {now : Nat} (picked : List Nat)
    (inv : Inv policy buckets h now) :
    Inv policy (deleteExpired now picked buckets) h now where
  past := inv.past
  ordered := inv.ordered
  rows := by
    intro w soon
    have stays : deleteExpired now picked buckets w = buckets w := by
      cases found : buckets w with
      | none => simp [deleteExpired, found]
      | some bucket =>
          have late := inv.expires w bucket found
          have : ¬ bucket.expiresAt ≤ now := by omega
          simp [deleteExpired, found, this]
    rw [stays]
    exact inv.rows w soon
  facts := inv.facts
  expires := by
    intro w bucket found
    simp only [deleteExpired] at found
    split at found
    · rename_i old was
      split at found
      · cases found
      · cases found
        exact inv.expires w _ was
    · cases found

theorem Inv.init (policy : RateLimitPolicy) : Inv policy (fun _ => none) [] 0 where
  past := by simp
  ordered := .nil
  rows := fun w _ => Kept.empty w
  facts := fun w => (Kept.empty w).facts
  expires := by simp

theorem history_inv (policy : RateLimitPolicy) (events : List Event)
    (ordered : Ordered Event.time 0 events) :
    ∃ buckets last, Inv policy buckets (history (enforce policy) events) last := by
  have keeps : ∀ s h (a : Event), Inv policy s h a.time →
      Inv policy (next (enforce policy) s a) (h ++ entries (enforce policy) s a) a.time := by
    intro s h a inv
    cases a with
    | request now => exact inv.request
    | maintenance now picked =>
        simp only [entries, List.append_nil]
        exact inv.maintenance picked
  have waits : ∀ s h clock later, clock ≤ later → Inv policy s h clock → Inv policy s h later :=
    fun _ _ _ _ le inv => inv.waits le
  obtain ⟨last, inv⟩ := invariant waits keeps events _ _ _ (Inv.init policy) ordered
  exact ⟨_, last, by simpa [history] using inv⟩

/-- The rest of the window is the same window. -/
theorem windowOf_eq {now later : Nat} (le : now ≤ later)
    (soon : later < windowEnd policy (windowOf policy now)) :
    windowOf policy later = windowOf policy now := by
  have positive := policy.windowLength_pos
  have same : later / policy.windowLength = now / policy.windowLength := by
    apply Nat.le_antisymm
    · rw [Nat.div_le_iff_le_mul_add_pred positive, Nat.mul_comm]
      simp only [windowEnd, windowOf, dateBin] at soon
      omega
    · exact Nat.div_le_div_right le
  rw [windowOf, windowOf, dateBin, dateBin, same]

/-- A refusal closes its window: what is allowed later comes after the window's end. -/
theorem Inv.closed {buckets : Buckets} {h : List Entry} {clock : Nat}
    (inv : Inv policy buckets h clock) {e later : Entry} (order : [e, later].Sublist h)
    (no : refused e = true) (yes : later.allowed = true) :
    windowEnd policy (windowOf policy e.time) ≤ later.time := by
  have le := List.pairwise_iff_forall_sublist.mp inv.ordered order
  by_contra early
  have same := windowOf_eq le (Nat.lt_of_not_le early)
  have closed := (inv.facts (windowOf policy e.time)).closed
  rw [within, List.pairwise_filter] at closed
  have shut := List.pairwise_iff_forall_sublist.mp closed order (by simp) (by simp [same]) no
  rw [shut] at yes
  cases yes

/-- The first refusal of a window, which starts its block. -/
def firstRefusal (policy : RateLimitPolicy) (w : Nat) (h : List Entry) : Option Entry :=
  (within policy w h).find? refused

/-- **Windows.** In every history in time order at most the limit is allowed in a window;
after a refusal nothing is allowed until its window is over; and the wait told is the least
number of seconds that reach the later of the window's end and the end of the block that the
window's first refusal started, so that where that block ends with the window nothing is
allowed a whole second before the wait is over. -/
theorem window_limits (policy : RateLimitPolicy) (events : List Event)
    (ordered : Ordered Event.time 0 events) :
    (∀ w, (within policy w (history (enforce policy) events)).countP Entry.allowed ≤
      policy.maximumRequests.get) ∧
    (∀ e ∈ history (enforce policy) events, ∀ retry, e.retryAfter = some retry →
      ∃ first, firstRefusal policy (windowOf policy e.time) (history (enforce policy) events) =
          some first ∧
        first.time ≤ e.time ∧
        Reaches e.time (max (windowEnd policy (windowOf policy e.time))
          (first.time + policy.blockLength)) retry) ∧
    ∀ e later, [e, later].Sublist (history (enforce policy) events) → ∀ retry,
      e.retryAfter = some retry → later.allowed = true →
        windowEnd policy (windowOf policy e.time) ≤ later.time ∧
        ∀ first, firstRefusal policy (windowOf policy e.time) (history (enforce policy) events) =
            some first →
          first.time + policy.blockLength ≤ windowEnd policy (windowOf policy e.time) →
          e.time + retry * second < later.time + second := by
  obtain ⟨buckets, last, inv⟩ := history_inv policy events ordered
  have waits : ∀ e ∈ history (enforce policy) events, ∀ retry, e.retryAfter = some retry →
      ∃ first, firstRefusal policy (windowOf policy e.time) (history (enforce policy) events) =
          some first ∧
        first.time ≤ e.time ∧
        Reaches e.time (max (windowEnd policy (windowOf policy e.time))
          (first.time + policy.blockLength)) retry := by
    intro e mem retry told
    have here : e ∈ within policy (windowOf policy e.time) (history (enforce policy) events) := by
      simp [within, mem]
    exact (inv.facts (windowOf policy e.time)).waits e here retry told
  refine ⟨fun w => ?_, waits, ?_⟩
  · have counts := (inv.facts w).allowed
    omega
  · intro e later order retry told yes
    have no : refused e = true := by simp [refused, told]
    have over_ := inv.closed order no yes
    refine ⟨over_, fun first found short => ?_⟩
    have mem : e ∈ history (enforce policy) events := order.subset (by simp)
    obtain ⟨first', found', -, reaches⟩ := waits e mem retry told
    rw [found] at found'
    cases found'
    have tight := reaches.2.2
    omega

/-- One request a minute, and a minute's block. -/
def onePerMinute : RateLimitPolicy where
  maximumRequests := .one
  window := .fromSecs 60
  blockFor := .fromSecs 60
  window_valid := by decide
  block_valid := by decide

def twoAndNext : List Event := [.request 0, .request (1 * second), .request (60 * second)]

theorem window_limits_minute :
    Ordered Event.time 0 twoAndNext ∧
      (within onePerMinute 0 (history (enforce onePerMinute) twoAndNext)).countP Entry.allowed ≤
        1 :=
  ⟨by decide, (window_limits onePerMinute twoAndNext (by decide)).1 0⟩

/-- The second of two requests is told to wait for 60 seconds, and the first request of the
next minute is allowed a second before they have passed. -/
theorem refusal_crosses_window :
    Ordered Event.time 0 twoAndNext ∧
      ∃ e later retry, [e, later].Sublist (history (enforce onePerMinute) twoAndNext) ∧
        e.retryAfter = some retry ∧ later.allowed = true ∧
        later.time < e.time + retry * second := by
  refine ⟨by decide, ⟨1 * second, .error (.rateLimited 1 0 60 60)⟩, ⟨60 * second, .ok ⟨0⟩⟩, 60,
    ?_, rfl, rfl, by decide⟩
  have run : history (enforce onePerMinute) twoAndNext =
      [⟨0, .ok ⟨0⟩⟩, ⟨1 * second, .error (.rateLimited 1 0 60 60)⟩, ⟨60 * second, .ok ⟨0⟩⟩] := by
    decide +kernel
  rw [run]
  exact .cons _ (.refl _)

end SiliconIam.Postgres.FixedWindow
