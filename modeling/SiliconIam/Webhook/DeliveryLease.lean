/-
# Webhook.DeliveryLease -- one delivery under the lease protocol

A worker claims a delivery that is due or whose lease has run out, begins a
transport attempt while its lease runs, and records the outcome while the row
still names it as the owner.  Each of these is one transaction over the locked
row, so a history is a sequence of them, at the time of the transaction.

A worker is one process: its owner name is fresh at every start and it works on
a delivery for one claim at a time, until it has recorded the outcome, gave up
with an error or died (`abandon`).

`Inv` carries the module: attempt numbers only grow, and a claim that has not
begun its attempt yet is ahead of every recorded one.  The bound on attempts is
kept where `BeginsWithinCycle` holds: `claim` counts the attempt but does not
look at the bound, so a delivery whose workers keep dying is attempted again.
-/
import SiliconIam.Theory.Runs
import Mathlib.Logic.Function.Basic
import Mathlib.Data.List.Basic

namespace SiliconIam.Webhook.DeliveryLease

open SiliconIam.Theory.Runs

set_option autoImplicit false

/-! ## Rows -/

inductive DeliveryStatus where
  | pending
  | processing
  | delivered
  | deadLetter
  | cancelled
deriving DecidableEq

/-- `lease_owner` and `lease_expires_at`, which are set and cleared together. -/
structure Lease where
  owner : Nat
  expiresAt : Nat

/-- `iam.webhook_deliveries`. -/
structure Delivery where
  status : DeliveryStatus
  attemptCount : Nat
  cycleAttemptCount : Nat
  manualReplayCount : Nat
  nextAttemptAt : Nat
  lease : Option Lease
  deliveredAt : Option Nat
  deadLetteredAt : Option Nat
  lastHttpStatus : Option Nat
  lastErrorCode : Option String

/-- `iam.webhook_delivery_attempts`, which the attempt number identifies. -/
structure Attempt where
  number : Nat
  finishedAt : Option Nat
  httpStatus : Option Nat
  errorCode : Option String

/-- What a failed delivery reports. -/
structure WebhookError where
  code : String
  retryable : Bool
  httpStatus : Option Nat

/-- Where a worker is with its claim.  `cycleAttemptCount` is the value the claim
returned; the row may have moved on. -/
inductive Phase where
  | idle
  | claimed (cycleAttemptCount : Nat)
  | sending (cycleAttemptCount attempt : Nat)
  | reported (cycleAttemptCount : Nat) (error : WebhookError)

structure Settings where
  leaseDuration : Nat
  /-- The configuration refuses leases under twenty seconds. -/
  leasePositive : 0 < leaseDuration
  maxAttempts : Nat
  /-- `retry_delay_seconds` of this delivery: exponential, capped, jittered. -/
  retryDelay : Nat → Nat

/-! ## Operations on the row -/

namespace Delivery

def claimable (now : Nat) (d : Delivery) : Bool :=
  (d.status = .pending && d.nextAttemptAt ≤ now) ||
    (d.status = .processing && d.lease.any (·.expiresAt ≤ now))

/-- `status = 'processing' AND lease_owner = …`. -/
def holds (worker : Nat) (d : Delivery) : Bool :=
  d.status = .processing && d.lease.any (·.owner = worker)

/-- The lease has not run out. -/
def live (now : Nat) (d : Delivery) : Bool := d.lease.any (now < ·.expiresAt)

def claim (p : Settings) (now worker : Nat) (d : Delivery) : Delivery :=
  { d with
    status := .processing
    lease := some ⟨worker, now + p.leaseDuration⟩
    attemptCount := d.attemptCount + 1
    cycleAttemptCount := d.cycleAttemptCount + 1
    lastErrorCode := none }

def extendLease (p : Settings) (now worker : Nat) (d : Delivery) : Delivery :=
  { d with lease := some ⟨worker, now + p.leaseDuration⟩ }

def finishSuccess (now httpStatus : Nat) (d : Delivery) : Delivery :=
  { d with
    status := .delivered
    lease := none
    deliveredAt := some now
    lastHttpStatus := some httpStatus
    lastErrorCode := none }

def finishFailure (p : Settings) (now cycleAttemptCount : Nat) (error : WebhookError)
    (d : Delivery) : Delivery :=
  let deadLetter := p.maxAttempts ≤ cycleAttemptCount || !error.retryable
  { d with
    status := if deadLetter then .deadLetter else .pending
    lease := none
    nextAttemptAt := if deadLetter then d.nextAttemptAt else now + p.retryDelay cycleAttemptCount
    deadLetteredAt := if deadLetter then some now else none
    lastHttpStatus := error.httpStatus
    lastErrorCode := some error.code }

/-- A dead-letter replay starts a new cycle. -/
def reset (now : Nat) (d : Delivery) : Delivery :=
  { d with
    status := .pending
    cycleAttemptCount := 0
    manualReplayCount := d.manualReplayCount + 1
    nextAttemptAt := now
    lease := none
    deliveredAt := none
    deadLetteredAt := none
    lastHttpStatus := none
    lastErrorCode := none }

/-- The endpoint was withdrawn. -/
def cancel (d : Delivery) : Delivery := { d with status := .cancelled, lease := none }

end Delivery

/-- `UPDATE iam.webhook_delivery_attempts … WHERE id = …`. -/
def finishAttempt (now number : Nat) (httpStatus : Option Nat) (errorCode : Option String)
    (attempts : List Attempt) : List Attempt :=
  attempts.map fun a =>
    if a.number = number then { a with finishedAt := some now, httpStatus, errorCode } else a

/-! ## Histories -/

structure System where
  clock : Nat
  delivery : Delivery
  attempts : List Attempt
  workers : Nat → Phase

inductive Action where
  | claim (worker : Nat)
  | failPreparation (worker : Nat) (error : WebhookError)
  | beginAttempt (worker : Nat)
  | finishSuccess (worker httpStatus : Nat)
  | finishAttemptError (worker : Nat) (error : WebhookError)
  | finishFailure (worker : Nat)
  | abandon (worker : Nat)
  | replay
  | cancel

/-- An operation, and how long after the previous one it runs. -/
structure Event where
  elapsed : Nat
  action : Action

def System.settle (s : System) (worker : Nat) (phase : Phase) : System :=
  { s with workers := Function.update s.workers worker phase }

/-- `finish_failure`: the owner schedules a retry or gives the delivery up; for
anyone else the update matches no row. -/
def finishFailure (p : Settings) (s : System) (worker cycleAttemptCount : Nat)
    (error : WebhookError) : System :=
  if s.delivery.holds worker then
    { s.settle worker .idle with
      delivery := s.delivery.finishFailure p s.clock cycleAttemptCount error }
  else s.settle worker .idle

/-- One operation at the time `s.clock`. -/
def act (p : Settings) (s : System) : Action → System
  | .claim w =>
      match s.workers w with
      | .idle =>
          if s.delivery.claimable s.clock then
            { s.settle w (.claimed (s.delivery.cycleAttemptCount + 1)) with
              delivery := s.delivery.claim p s.clock w }
          else s
      | _ => s
  | .failPreparation w error =>
      match s.workers w with
      | .claimed cycle => finishFailure p s w cycle error
      | _ => s
  | .beginAttempt w =>
      match s.workers w with
      | .claimed cycle =>
          if s.delivery.holds w && s.delivery.live s.clock then
            { s.settle w (.sending cycle s.delivery.attemptCount) with
              delivery := s.delivery.extendLease p s.clock w
              attempts := ⟨s.delivery.attemptCount, none, none, none⟩ :: s.attempts }
          else s.settle w .idle
      | _ => s
  | .finishSuccess w httpStatus =>
      match s.workers w with
      | .sending _ attempt =>
          -- a lost lease rolls the attempt row back as well
          if s.delivery.holds w then
            { s.settle w .idle with
              delivery := s.delivery.finishSuccess s.clock httpStatus
              attempts := finishAttempt s.clock attempt (some httpStatus) none s.attempts }
          else s.settle w .idle
      | _ => s
  | .finishAttemptError w error =>
      match s.workers w with
      | .sending cycle attempt =>
          { s.settle w (.reported cycle error) with
            attempts :=
              finishAttempt s.clock attempt error.httpStatus (some error.code) s.attempts }
      | _ => s
  | .finishFailure w =>
      match s.workers w with
      | .reported cycle error => finishFailure p s w cycle error
      | _ => s
  | .abandon w => s.settle w .idle
  | .replay =>
      if s.delivery.status = .deadLetter then { s with delivery := s.delivery.reset s.clock } else s
  | .cancel =>
      if s.delivery.status = .pending || s.delivery.status = .processing then
        { s with delivery := s.delivery.cancel }
      else s

def next (p : Settings) (s : System) (e : Event) : System :=
  act p { s with clock := s.clock + e.elapsed } e.action

/-- A delivery as the expansion of its event inserts it. -/
def fresh (now : Nat) : System where
  clock := now
  delivery :=
    { status := .pending, attemptCount := 0, cycleAttemptCount := 0, manualReplayCount := 0
      nextAttemptAt := now, lease := none, deliveredAt := none, deadLetteredAt := none
      lastHttpStatus := none, lastErrorCode := none }
  attempts := []
  workers := fun _ => .idle

/-! ## What should hold -/

/-- Attempt numbers on record, newest first. -/
def System.numbers (s : System) : List Nat := s.attempts.map (·.number)

/-- The transport attempts begun in the current retry cycle: those numbered
after the last reset of `cycle_attempt_count`. -/
def System.attemptsThisCycle (s : System) : Nat :=
  s.numbers.countP (s.delivery.attemptCount - s.delivery.cycleAttemptCount < ·)

/-- The worker that records an outcome in this step, if it gets that far. -/
def finisher (s : System) : Action → Option Nat
  | .failPreparation w _ =>
      match s.workers w with
      | .claimed _ => some w
      | _ => none
  | .finishSuccess w _ =>
      match s.workers w with
      | .sending _ _ => some w
      | _ => none
  | .finishFailure w =>
      match s.workers w with
      | .reported _ _ => some w
      | _ => none
  | _ => none

/-- The step ends the processing of the delivery: delivered, dead-lettered or
back to pending. -/
def Settles (p : Settings) (s : System) (e : Event) : Prop :=
  e.action ≠ .cancel ∧ s.delivery.status = .processing ∧ (next p s e).delivery.status ≠ .processing

/-- Only the worker that the row names as the owner records the outcome. -/
def OutcomeByHolder (p : Settings) (s : System) (e : Event) : Prop :=
  Settles p s e → ∃ w, finisher s e.action = some w ∧ s.delivery.holds w = true

/-- The same, and its lease has not run out. -/
def OutcomeUnderLiveLease (p : Settings) (s : System) (e : Event) : Prop :=
  Settles p s e → ∃ w, finisher s e.action = some w ∧ s.delivery.holds w = true ∧
    s.delivery.live (s.clock + e.elapsed) = true

/-- A delivered delivery is never touched again. -/
def DeliveredStays (p : Settings) (s : System) (e : Event) : Prop :=
  s.delivery.status = .delivered → (next p s e).delivery = s.delivery

/-! ## Conditions on a step -/

/-- The owner records the outcome before its lease runs out. -/
def FinishesInTime (s : System) (e : Event) : Prop :=
  ∀ w, finisher s e.action = some w → s.delivery.holds w = true →
    s.delivery.live (s.clock + e.elapsed) = true

/-- The owner begins a transport attempt only under a claim that has not pushed
`cycle_attempt_count` past the bound. -/
def BeginsWithinCycle (p : Settings) (s : System) (e : Event) : Prop :=
  ∀ w, e.action = .beginAttempt w → s.delivery.holds w = true →
    s.delivery.live (s.clock + e.elapsed) = true → s.delivery.cycleAttemptCount ≤ p.maxAttempts

/-! ## What a step can do -/

/-- Every operation has one of these effects. -/
inductive Effect (p : Settings) (s : System) (a : Action) (t : System) : Prop
  | claimed (w : Nat) (taken : a = .claim w) (delivery : t.delivery = s.delivery.claim p s.clock w)
      (numbers : t.numbers = s.numbers)
      (workers : t.workers =
        Function.update s.workers w (.claimed (s.delivery.cycleAttemptCount + 1)))
      (claimable : s.delivery.claimable s.clock = true)
  | begun (w cycle attempt : Nat) (taken : a = .beginAttempt w) (ready : s.workers w = .claimed cycle)
      (holds : s.delivery.holds w = true) (live : s.delivery.live s.clock = true)
      (delivery : t.delivery = s.delivery.extendLease p s.clock w)
      (numbers : t.numbers = s.delivery.attemptCount :: s.numbers)
      (workers : t.workers = Function.update s.workers w (.sending cycle attempt))
  | settled (w : Nat) (finishes : finisher s a = some w) (holds : s.delivery.holds w = true)
      (status : t.delivery.status ≠ .processing)
      (attemptCount : t.delivery.attemptCount = s.delivery.attemptCount)
      (cycle : t.delivery.cycleAttemptCount = s.delivery.cycleAttemptCount)
      (numbers : t.numbers = s.numbers)
  | passed (w : Nat) (phase : Phase) (notClaimed : ∀ c, phase ≠ .claimed c)
      (delivery : t.delivery = s.delivery) (numbers : t.numbers = s.numbers)
      (workers : t.workers = s.workers ∨ t.workers = Function.update s.workers w phase)
      (lost : ∀ v, finisher s a = some v → s.delivery.holds v = false)
  | replayed (taken : a = .replay) (dead : s.delivery.status = .deadLetter)
      (delivery : t.delivery = s.delivery.reset s.clock) (numbers : t.numbers = s.numbers)
  | cancelled (taken : a = .cancel)
      (running : s.delivery.status = .pending ∨ s.delivery.status = .processing)
      (delivery : t.delivery = s.delivery.cancel) (numbers : t.numbers = s.numbers)

theorem finishAttempt_numbers (now number : Nat) (httpStatus : Option Nat)
    (errorCode : Option String) (attempts : List Attempt) :
    (finishAttempt now number httpStatus errorCode attempts).map (·.number) =
      attempts.map (·.number) := by
  rw [finishAttempt, List.map_map]
  refine List.map_congr_left fun a _ => ?_
  by_cases same : a.number = number <;> simp [same]

theorem finishFailure_status (p : Settings) (now cycle : Nat) (error : WebhookError) (d : Delivery) :
    (d.finishFailure p now cycle error).status ≠ .processing := by
  unfold Delivery.finishFailure
  dsimp only
  split <;> simp

variable {s : System}

theorem idle_effect {p : Settings} {a : Action} (silent : finisher s a = none) :
    Effect p s a s :=
  .passed 0 .idle (fun c => by simp) rfl rfl (.inl rfl) (fun v finishes => by
    rw [silent] at finishes; cases finishes)

theorem finishFailure_effect {p : Settings} {a : Action} {w : Nat}
    (finishes : finisher s a = some w) (cycle : Nat) (error : WebhookError) :
    Effect p s a (finishFailure p s w cycle error) := by
  unfold finishFailure
  by_cases holds : s.delivery.holds w = true
  · rw [if_pos holds]
    exact .settled w finishes holds (finishFailure_status p s.clock cycle error s.delivery) rfl rfl rfl
  · rw [if_neg holds]
    refine .passed w .idle (fun c => by simp) rfl rfl (.inr rfl) fun v same => ?_
    rw [finishes, Option.some.injEq] at same
    subst same
    simpa using holds

/-- **Inversion.** -/
theorem act_effect (p : Settings) (s : System) (a : Action) : Effect p s a (act p s a) := by
  cases a with
  | claim w =>
      cases phase : s.workers w with
      | idle =>
          simp only [act, phase]
          by_cases claimable : s.delivery.claimable s.clock = true
          · rw [if_pos claimable]
            exact .claimed w rfl rfl rfl rfl claimable
          · rw [if_neg claimable]
            exact idle_effect rfl
      | _ =>
          simp only [act, phase]
          exact idle_effect rfl
  | failPreparation w error =>
      cases phase : s.workers w with
      | claimed cycle =>
          have finishes : finisher s (.failPreparation w error) = some w := by simp [finisher, phase]
          simp only [act, phase]
          exact finishFailure_effect finishes cycle error
      | _ =>
          simp only [act, phase]
          exact idle_effect (by simp [finisher, phase])
  | beginAttempt w =>
      cases phase : s.workers w with
      | claimed cycle =>
          simp only [act, phase]
          by_cases ready : (s.delivery.holds w && s.delivery.live s.clock) = true
          · rw [if_pos ready]
            rw [Bool.and_eq_true] at ready
            exact .begun w cycle _ rfl phase ready.1 ready.2 rfl rfl rfl
          · rw [if_neg ready]
            exact .passed w .idle (fun c => by simp) rfl rfl (.inr rfl) (fun v finishes => by
              cases finishes)
      | _ =>
          simp only [act, phase]
          exact idle_effect rfl
  | finishSuccess w httpStatus =>
      cases phase : s.workers w with
      | sending cycle attempt =>
          have finishes : finisher s (.finishSuccess w httpStatus) = some w := by
            simp [finisher, phase]
          simp only [act, phase]
          by_cases holds : s.delivery.holds w = true
          · rw [if_pos holds]
            exact .settled w finishes holds (by simp [Delivery.finishSuccess]) rfl rfl
              (finishAttempt_numbers _ _ _ _ _)
          · rw [if_neg holds]
            refine .passed w .idle (fun c => by simp) rfl rfl (.inr rfl) fun v same => ?_
            rw [finishes, Option.some.injEq] at same
            subst same
            simpa using holds
      | _ =>
          simp only [act, phase]
          exact idle_effect (by simp [finisher, phase])
  | finishAttemptError w error =>
      cases phase : s.workers w with
      | sending cycle attempt =>
          simp only [act, phase]
          exact .passed w (.reported cycle error) (fun c => by simp) rfl
            (finishAttempt_numbers _ _ _ _ _) (.inr rfl) (fun v finishes => by cases finishes)
      | _ =>
          simp only [act, phase]
          exact idle_effect rfl
  | finishFailure w =>
      cases phase : s.workers w with
      | reported cycle error =>
          have finishes : finisher s (.finishFailure w) = some w := by simp [finisher, phase]
          simp only [act, phase]
          exact finishFailure_effect finishes cycle error
      | _ =>
          simp only [act, phase]
          exact idle_effect (by simp [finisher, phase])
  | abandon w =>
      exact .passed w .idle (fun c => by simp) rfl rfl (.inr rfl) (fun v finishes => by
        cases finishes)
  | replay =>
      unfold act
      by_cases dead : s.delivery.status = .deadLetter
      · simp only [dead, if_true]
        exact .replayed rfl dead rfl rfl
      · simp only [dead, if_false]
        exact idle_effect rfl
  | cancel =>
      unfold act
      dsimp only
      split
      · rename_i running
        exact .cancelled rfl (by simpa using running) rfl rfl
      · exact idle_effect rfl

/-! ## The invariant -/

/-- Attempt numbers grow, and the owner that has not begun its attempt is ahead of
all of them. -/
structure Inv (s : System) : Prop where
  cycle_le : s.delivery.cycleAttemptCount ≤ s.delivery.attemptCount
  descending : s.numbers.Pairwise (· > ·)
  bounded : ∀ n ∈ s.numbers, n ≤ s.delivery.attemptCount
  spent : s.attemptsThisCycle ≤ s.delivery.cycleAttemptCount
  ahead : ∀ w c, s.workers w = .claimed c → s.delivery.holds w = true →
    (∀ n ∈ s.numbers, n < s.delivery.attemptCount) ∧
      s.attemptsThisCycle < s.delivery.cycleAttemptCount

theorem inv_fresh (now : Nat) : Inv (fresh now) :=
  ⟨Nat.le_refl _, .nil, fun _ mem => (by cases mem), Nat.le_refl _, fun _ _ phase => by cases phase⟩

theorem holds_status {d : Delivery} {w : Nat} (holds : d.holds w = true) : d.status = .processing := by
  simp only [Delivery.holds, Bool.and_eq_true, decide_eq_true_eq] at holds
  exact holds.1

/-- The lease of a claim or an extension names one worker. -/
theorem owner_unique {d : Delivery} {l : Lease} {w : Nat} (lease : d.lease = some l)
    (holds : d.holds w = true) : w = l.owner := by
  simp only [Delivery.holds, lease, Option.any_some, Bool.and_eq_true, decide_eq_true_eq] at holds
  exact holds.2.symm

theorem attemptsThisCycle_congr {t : System} (numbers : t.numbers = s.numbers)
    (base : t.delivery.attemptCount - t.delivery.cycleAttemptCount =
      s.delivery.attemptCount - s.delivery.cycleAttemptCount) :
    t.attemptsThisCycle = s.attemptsThisCycle := by
  unfold System.attemptsThisCycle
  rw [numbers, base]

/-- A step that leaves the counters alone and makes nobody a claimant keeps the
invariant. -/
theorem Inv.of_same {t : System} (inv : Inv s) (numbers : t.numbers = s.numbers)
    (attemptCount : t.delivery.attemptCount = s.delivery.attemptCount)
    (cycle : t.delivery.cycleAttemptCount = s.delivery.cycleAttemptCount)
    (claimants : ∀ w c, t.workers w = .claimed c → t.delivery.holds w = true →
      s.workers w = .claimed c ∧ s.delivery.holds w = true) : Inv t := by
  have spent : t.attemptsThisCycle = s.attemptsThisCycle :=
    attemptsThisCycle_congr numbers (by rw [attemptCount, cycle])
  refine ⟨by rw [attemptCount, cycle]; exact inv.cycle_le, numbers ▸ inv.descending, ?_, ?_, ?_⟩
  · rw [numbers, attemptCount]
    exact inv.bounded
  · rw [spent, cycle]
    exact inv.spent
  · intro w c phase holds
    obtain ⟨phase, holds⟩ := claimants w c phase holds
    rw [numbers, attemptCount, spent, cycle]
    exact inv.ahead w c phase holds

theorem Inv.claimed {t : System} {p : Settings} {w : Nat} (inv : Inv s)
    (delivery : t.delivery = s.delivery.claim p s.clock w) (numbers : t.numbers = s.numbers) :
    Inv t ∧ t.attemptsThisCycle = s.attemptsThisCycle := by
  have cycle_le := inv.cycle_le
  have spent : t.attemptsThisCycle = s.attemptsThisCycle := by
    refine attemptsThisCycle_congr numbers ?_
    simp only [delivery, Delivery.claim]
    omega
  refine ⟨⟨?_, numbers ▸ inv.descending, ?_, ?_, ?_⟩, spent⟩
  · simp only [delivery, Delivery.claim]
    omega
  · intro n mem
    rw [numbers] at mem
    have below := inv.bounded n mem
    simp only [delivery, Delivery.claim]
    omega
  · have below := inv.spent
    simp only [delivery, Delivery.claim]
    omega
  · intro v c phase holds
    constructor
    · intro n mem
      rw [numbers] at mem
      have below := inv.bounded n mem
      simp only [delivery, Delivery.claim]
      omega
    · have below := inv.spent
      simp only [delivery, Delivery.claim]
      omega

/-- Beginning an attempt uses up one of the cycle's claims. -/
theorem Inv.begun {t : System} {p : Settings} {w cycle attempt : Nat} (inv : Inv s)
    (ready : s.workers w = .claimed cycle) (holds : s.delivery.holds w = true)
    (delivery : t.delivery = s.delivery.extendLease p s.clock w)
    (numbers : t.numbers = s.delivery.attemptCount :: s.numbers)
    (workers : t.workers = Function.update s.workers w (.sending cycle attempt)) :
    Inv t ∧ t.attemptsThisCycle = s.attemptsThisCycle + 1 := by
  obtain ⟨above, left_⟩ := inv.ahead w cycle ready holds
  have cycle_le := inv.cycle_le
  have spent : t.attemptsThisCycle = s.attemptsThisCycle + 1 := by
    have counts : s.delivery.attemptCount - s.delivery.cycleAttemptCount < s.delivery.attemptCount := by
      omega
    unfold System.attemptsThisCycle
    rw [numbers, delivery]
    exact List.countP_cons_of_pos (decide_eq_true counts)
  refine ⟨⟨?_, ?_, ?_, ?_, ?_⟩, spent⟩
  · rw [delivery]
    exact cycle_le
  · rw [numbers]
    exact .cons above inv.descending
  · intro n mem
    rw [numbers] at mem
    rw [delivery]
    rcases List.mem_cons.mp mem with rfl | old
    · exact Nat.le_refl _
    · exact inv.bounded n old
  · rw [spent, delivery]
    exact left_
  · intro v c phase held
    have same : v = w := owner_unique (l := ⟨w, s.clock + p.leaseDuration⟩) (by rw [delivery]; rfl) held
    rw [workers, same, Function.update_self] at phase
    cases phase

theorem Inv.replayed {t : System} (inv : Inv s)
    (delivery : t.delivery = s.delivery.reset s.clock) (numbers : t.numbers = s.numbers) :
    Inv t ∧ t.attemptsThisCycle = 0 := by
  have none_yet : t.attemptsThisCycle = 0 := by
    unfold System.attemptsThisCycle
    rw [numbers, delivery, List.countP_eq_zero]
    intro n mem
    have below := inv.bounded n mem
    intro later
    have later : s.delivery.attemptCount - 0 < n := of_decide_eq_true later
    omega
  refine ⟨⟨?_, numbers ▸ inv.descending, ?_, ?_, ?_⟩, none_yet⟩
  · rw [delivery]
    exact Nat.zero_le _
  · rw [numbers, delivery]
    exact inv.bounded
  · rw [none_yet]
    exact Nat.zero_le _
  · intro v c phase held
    have processing := holds_status held
    rw [delivery] at processing
    cases processing

/-- **One step keeps the invariant**, and adds an attempt to the cycle only by
beginning it. -/
theorem act_inv (p : Settings) (a : Action) (inv : Inv s) :
    Inv (act p s a) ∧
      ((act p s a).attemptsThisCycle ≤ s.attemptsThisCycle ∨
        ∃ w, a = .beginAttempt w ∧ s.delivery.holds w = true ∧ s.delivery.live s.clock = true ∧
          s.attemptsThisCycle < s.delivery.cycleAttemptCount ∧
          (act p s a).attemptsThisCycle = s.attemptsThisCycle + 1) := by
  cases act_effect p s a with
  | claimed w taken delivery numbers workers claimable =>
      obtain ⟨after, same⟩ := inv.claimed delivery numbers
      exact ⟨after, .inl (Nat.le_of_eq same)⟩
  | begun w cycle attempt taken ready holds live delivery numbers workers =>
      obtain ⟨after, more⟩ := inv.begun ready holds delivery numbers workers
      exact ⟨after, .inr ⟨w, taken, holds, live, (inv.ahead w cycle ready holds).2, more⟩⟩
  | settled w finishes holds status attemptCount cycle numbers =>
      refine ⟨inv.of_same numbers attemptCount cycle fun v c phase held => ?_, .inl ?_⟩
      · exact absurd (holds_status held) status
      · exact Nat.le_of_eq (attemptsThisCycle_congr numbers (by rw [attemptCount, cycle]))
  | passed w phase notClaimed delivery numbers workers lost =>
      refine ⟨inv.of_same numbers (by rw [delivery]) (by rw [delivery]) fun v c claimant held => ?_,
        .inl (Nat.le_of_eq (attemptsThisCycle_congr numbers (by rw [delivery])))⟩
      rw [delivery] at held
      rcases workers with same | moved
      · exact ⟨same ▸ claimant, held⟩
      · by_cases own : v = w
        · rw [moved, own, Function.update_self] at claimant
          exact absurd claimant (notClaimed c)
        · rw [moved, Function.update_of_ne own] at claimant
          exact ⟨claimant, held⟩
  | replayed taken dead delivery numbers =>
      obtain ⟨after, zero⟩ := inv.replayed delivery numbers
      exact ⟨after, .inl (zero ▸ Nat.zero_le _)⟩
  | cancelled taken running delivery numbers =>
      refine ⟨inv.of_same numbers (by rw [delivery]; rfl) (by rw [delivery]; rfl)
        fun v c phase held => ?_, .inl ?_⟩
      · have processing := holds_status held
        rw [delivery] at processing
        cases processing
      · exact Nat.le_of_eq (attemptsThisCycle_congr numbers (by rw [delivery]; rfl))

/-! ## The protocol over whole histories -/

theorem next_inv (p : Settings) (s : System) (e : Event) (inv : Inv s) : Inv (next p s e) :=
  (act_inv p e.action (s := { s with clock := s.clock + e.elapsed })
    ⟨inv.cycle_le, inv.descending, inv.bounded, inv.spent, inv.ahead⟩).1

theorem outcome_by_holder (p : Settings) (s : System) (e : Event) : OutcomeByHolder p s e := by
  rintro ⟨notCancel, processing, settled⟩
  unfold next at settled
  cases act_effect p { s with clock := s.clock + e.elapsed } e.action with
  | claimed w taken delivery => rw [delivery] at settled; exact absurd rfl settled
  | begun w cycle attempt taken ready holds live delivery =>
      rw [delivery] at settled
      exact absurd processing settled
  | settled w finishes holds => exact ⟨w, finishes, holds⟩
  | passed w phase notClaimed delivery =>
      rw [delivery] at settled
      exact absurd processing settled
  | replayed taken dead => rw [processing] at dead; cases dead
  | cancelled taken => exact absurd taken notCancel

/-- A worker that gets as far as its finish update, and is the owner, ends the
processing. -/
theorem settles_of_finisher {p : Settings} {e : Event} {w : Nat}
    (finishes : finisher s e.action = some w) (holds : s.delivery.holds w = true) :
    Settles p s e := by
  refine ⟨fun cancelled => ?_, holds_status holds, ?_⟩
  · rw [cancelled] at finishes
    cases finishes
  · cases act_effect p { s with clock := s.clock + e.elapsed } e.action with
    | claimed v taken =>
        rw [taken] at finishes
        cases finishes
    | begun v cycle attempt taken =>
        rw [taken] at finishes
        cases finishes
    | settled v finishes' holds' status => exact status
    | passed v phase notClaimed delivery numbers workers lost =>
        rw [lost w finishes] at holds
        cases holds
    | replayed taken dead => rw [holds_status holds] at dead; cases dead
    | cancelled taken =>
        rw [taken] at finishes
        cases finishes

/-- Finishing in time is what an outcome under a live lease takes. -/
theorem finishesInTime_iff (p : Settings) (s : System) (e : Event) :
    FinishesInTime s e ↔ OutcomeUnderLiveLease p s e := by
  constructor
  · intro inTime settles
    obtain ⟨w, finishes, holds⟩ := outcome_by_holder p s e settles
    exact ⟨w, finishes, holds, inTime w finishes holds⟩
  · intro underLease w finishes holds
    obtain ⟨-, -, -, live⟩ := underLease (settles_of_finisher finishes holds)
    exact live

/-- A delivery that is not waiting or processing is left alone by everything but a
replay. -/
theorem act_finished (p : Settings) {a : Action} (waiting : s.delivery.status ≠ .pending)
    (processing : s.delivery.status ≠ .processing) (notReplay : a ≠ .replay) :
    (act p s a).delivery = s.delivery := by
  have idle (w : Nat) : s.delivery.holds w = false := by simp [Delivery.holds, processing]
  cases act_effect p s a with
  | claimed w taken delivery numbers workers claimable =>
      simp [Delivery.claimable, waiting, processing] at claimable
  | begun w cycle attempt taken ready holds => rw [idle w] at holds; cases holds
  | settled w finishes holds => rw [idle w] at holds; cases holds
  | passed w phase notClaimed delivery => exact delivery
  | replayed taken => exact absurd taken notReplay
  | cancelled taken running => exact (running.elim waiting processing).elim

/-- A cancelled delivery is not even replayed. -/
theorem act_cancelled (p : Settings) (a : Action)
    (cancelled : s.delivery.status = .cancelled) : (act p s a).delivery = s.delivery := by
  by_cases replay : a = .replay
  · rw [replay]
    simp [act, cancelled]
  · exact act_finished p (by simp [cancelled]) (by simp [cancelled]) replay

theorem delivered_stays (p : Settings) (s : System) (e : Event) : DeliveredStays p s e := by
  intro delivered
  by_cases replay : e.action = .replay
  · unfold next
    rw [replay]
    simp [act, delivered]
  · exact act_finished p (s := { s with clock := s.clock + e.elapsed }) (by simp [delivered])
      (by simp [delivered]) replay

/-- A step whose attempt begins within the cycle stays within the bound. -/
theorem next_within (p : Settings) (s : System) (e : Event)
    (inv : Inv s ∧ s.attemptsThisCycle ≤ p.maxAttempts) (within : BeginsWithinCycle p s e) :
    Inv (next p s e) ∧ (next p s e).attemptsThisCycle ≤ p.maxAttempts := by
  obtain ⟨inv, bound⟩ := inv
  refine ⟨next_inv p s e inv, ?_⟩
  obtain ⟨-, kept | ⟨w, taken, holds, live, ahead, more⟩⟩ :=
    act_inv p e.action (s := { s with clock := s.clock + e.elapsed })
      ⟨inv.cycle_le, inv.descending, inv.bounded, inv.spent, inv.ahead⟩
  · exact Nat.le_trans kept bound
  · have cycle := within w taken holds live
    show (act p _ e.action).attemptsThisCycle ≤ _
    rw [more]
    exact Nat.le_trans ahead cycle

/-- **The delivery lease protocol.**  In every history the outcome is recorded by
the owner, a delivered delivery stays delivered and attempt numbers grow; the
owner's lease is still running exactly where it finishes in time; and a cycle
holds at most the bound of attempts where each begins within it. -/
theorem delivery_lease_protocol (p : Settings) (start : Nat) (events : List Event) :
    (AllSteps (next p) (OutcomeByHolder p) (fresh start) events ∧
        AllSteps (next p) (DeliveredStays p) (fresh start) events ∧
        (after (next p) (fresh start) events).numbers.Pairwise (· > ·)) ∧
      (AllSteps (next p) FinishesInTime (fresh start) events ↔
        AllSteps (next p) (OutcomeUnderLiveLease p) (fresh start) events) ∧
      (AllSteps (next p) (BeginsWithinCycle p) (fresh start) events →
        (after (next p) (fresh start) events).attemptsThisCycle ≤ p.maxAttempts) := by
  have everywhere {good : System → Event → Prop} (each : ∀ s e, good s e) :
      AllSteps (next p) good (fresh start) events :=
    allSteps_of_invariant (I := Inv) (next_inv p) (fun s e _ => each s e) events _ (inv_fresh start)
  refine ⟨⟨everywhere (outcome_by_holder p), everywhere (delivered_stays p), ?_⟩, ?_, ?_⟩
  · exact (after_of_invariant (next_inv p) events _ (inv_fresh start)).descending
  · exact allSteps_iff (I := Inv) (fun s e _ => finishesInTime_iff p s e)
      (fun s e inv _ => next_inv p s e inv) events _ (inv_fresh start)
  · intro within
    exact (AllSteps.after (next_within p) events _
      ⟨inv_fresh start, Nat.zero_le _⟩ within).2

/-- A worker that begins its attempt and dies, after the lease of its predecessor
has run out. -/
def dyingWorker (w : Nat) : List Event :=
  [⟨61, .claim w⟩, ⟨1, .beginAttempt w⟩, ⟨0, .abandon w⟩]

/-- Three attempts a cycle, leases of a minute. -/
def threeAttempts : Settings where
  leaseDuration := 60
  leasePositive := by decide
  maxAttempts := 3
  retryDelay := fun _ => 1

/-- Four workers that die while sending begin four attempts in one cycle, with a
bound of three. -/
theorem dying_workers_exceed_bound :
    (after (next threeAttempts) (fresh 0)
      (dyingWorker 0 ++ dyingWorker 1 ++ dyingWorker 2 ++ dyingWorker 3)).attemptsThisCycle = 4 := by
  decide

end SiliconIam.Webhook.DeliveryLease
