/-
# Worker.NotificationLease -- one notification job under the lease protocol

A worker claims a job that is due or whose lease has run out, renews the lease right
before it calls the provider, and records what the provider answered while the row
still names it as the owner.  Each of these is one statement on the locked row, so a
history is a sequence of them, at the time of the statement.

A worker is one process: its instance id is fresh at every start, and it waits for the
whole batch of a claim before it claims again.  A statement whose reply is lost is the
statement followed by `fail` or `abandon`.

`Inv` carries the module: attempts that are still open have numbers of their own, and
the one that the row names is the last.  The bound on sends is kept where
`SendsWithinBound` holds: only `recordFailure` looks at the bound, so a job whose
workers keep dying is sent again.
-/
import SiliconIam.Theory.Runs
import Mathlib.Data.List.Basic
import Mathlib.Data.List.Perm.Subperm
import Mathlib.Logic.Function.Basic

namespace SiliconIam.Worker.NotificationLease

open SiliconIam.Theory.Runs

set_option autoImplicit false

/-! ## Rows -/

inductive JobStatus where
  | pending
  | processing
  | sent
  | failed
  | cancelled
deriving DecidableEq

/-- `lease_owner` and `lease_expires_at`, which are set and cleared together. -/
structure Lease where
  owner : Nat
  expiresAt : Nat

/-- `iam.notification_jobs`, without what is sent to whom. -/
structure Job where
  status : JobStatus
  attemptCount : Nat
  availableAt : Nat
  lease : Option Lease
  providerMessageId : Option String
  lastErrorCode : Option String
  sentAt : Option Nat
  failedAt : Option Nat

inductive DeliveryError where
  | unavailable
  | rejected
deriving DecidableEq

/-- `provider_message_id`, or why nothing was delivered. -/
abbrev Delivered := Except DeliveryError String

/-- Where a worker is with its claim; the number is the attempt count that the claim
returned. -/
inductive Phase where
  | idle
  | claimed (attempt : Nat)
  | renewed (attempt : Nat)
  | sending (attempt : Nat)
  | reported (attempt : Nat) (result : Delivered)

structure Settings where
  leaseDuration : Nat
  maxAttempts : Nat
  /-- `retry_delay_seconds` of this job: exponential, capped, jittered. -/
  retryDelay : Nat → Nat

/-! ## Statements on the row -/

namespace Job

def claimable (now : Nat) (j : Job) : Bool :=
  (j.status = .pending && j.availableAt ≤ now) ||
    (j.status = .processing && j.lease.any (·.expiresAt ≤ now))

/-- `status = 'processing' AND lease_owner = …`. -/
def holds (worker : Nat) (j : Job) : Bool :=
  j.status = .processing && j.lease.any (·.owner = worker)

/-- The lease has not run out. -/
def live (now : Nat) (j : Job) : Bool := j.lease.any (now < ·.expiresAt)

def claim (p : Settings) (now worker : Nat) (j : Job) : Job :=
  { j with
    status := .processing
    lease := some ⟨worker, now + p.leaseDuration⟩
    attemptCount := j.attemptCount + 1
    lastErrorCode := none }

def renewLease (p : Settings) (now worker : Nat) (j : Job) : Job :=
  { j with lease := some ⟨worker, now + p.leaseDuration⟩ }

def recordSuccess (now : Nat) (messageId : String) (j : Job) : Job :=
  { j with
    status := .sent
    lease := none
    providerMessageId := some messageId
    lastErrorCode := none
    sentAt := some now }

def recordFailure (p : Settings) (now attempt : Nat) (error : DeliveryError) (j : Job) : Job :=
  let retryable := error = .unavailable && attempt < p.maxAttempts
  { j with
    status := if retryable then .pending else .failed
    lease := none
    availableAt := if retryable then now + p.retryDelay attempt else j.availableAt
    lastErrorCode := some <| match error with
      | .unavailable => "provider_unavailable"
      | .rejected => "notification_rejected"
    failedAt := if retryable then none else some now }

def record (p : Settings) (now attempt : Nat) (result : Delivered) (j : Job) : Job :=
  match result with
  | .ok messageId => j.recordSuccess now messageId
  | .error error => j.recordFailure p now attempt error

end Job

/-! ## Histories -/

/-- `sends` are the attempts for which the provider was called, newest first. -/
structure System where
  clock : Nat
  job : Job
  workers : Nat → Phase
  sends : List Nat

/-- `fail`: the delivery ends before the provider is called. -/
inductive Action where
  | claim (worker : Nat)
  | fail (worker : Nat) (error : DeliveryError)
  | renew (worker : Nat)
  | send (worker : Nat)
  | respond (worker : Nat) (result : Delivered)
  | record (worker : Nat)
  | abandon (worker : Nat)

/-- A statement or a call, and how long after the previous one it runs. -/
structure Event where
  elapsed : Nat
  action : Action

def System.settle (s : System) (worker : Nat) (phase : Phase) : System :=
  { s with workers := Function.update s.workers worker phase }

/-- One event at the time `s.clock`. -/
def act (p : Settings) (s : System) : Action → System
  | .claim w =>
      match s.workers w with
      | .idle =>
          if s.job.claimable s.clock then
            { s.settle w (.claimed (s.job.attemptCount + 1)) with
              job := s.job.claim p s.clock w }
          else s
      | _ => s
  | .fail w error =>
      match s.workers w with
      | .claimed attempt | .renewed attempt => s.settle w (.reported attempt (.error error))
      | _ => s
  | .renew w =>
      match s.workers w with
      | .claimed attempt =>
          if s.job.holds w && s.job.live s.clock then
            { s.settle w (.renewed attempt) with job := s.job.renewLease p s.clock w }
          else s.settle w (.reported attempt (.error .unavailable))
      | _ => s
  | .send w =>
      match s.workers w with
      | .renewed attempt => { s.settle w (.sending attempt) with sends := attempt :: s.sends }
      | _ => s
  | .respond w result =>
      match s.workers w with
      | .sending attempt => s.settle w (.reported attempt result)
      | _ => s
  | .record w =>
      match s.workers w with
      | .reported attempt result =>
          if s.job.holds w then
            { s.settle w .idle with job := s.job.record p s.clock attempt result }
          else s.settle w .idle
      | _ => s
  | .abandon w => s.settle w .idle

def next (p : Settings) (s : System) (e : Event) : System :=
  act p { s with clock := s.clock + e.elapsed } e.action

/-- A job as it is enqueued. -/
def fresh (now : Nat) : System where
  clock := now
  job :=
    { status := .pending, attemptCount := 0, availableAt := now, lease := none
      providerMessageId := none, lastErrorCode := none, sentAt := none, failedAt := none }
  workers := fun _ => .idle
  sends := []

/-! ## What should hold -/

/-- A step that calls the provider is a send by an attempt that has renewed its lease. -/
def SendsRenewed (p : Settings) (s : System) (e : Event) : Prop :=
  (next p s e).sends = s.sends ∨ ∃ w attempt, e.action = .send w ∧
    s.workers w = .renewed attempt ∧ (next p s e).sends = attempt :: s.sends

/-- An attempt has renewed its lease only by a statement that found the lease running,
held by its worker, and the attempt the last that was claimed. -/
def RenewsUnderLease (p : Settings) (s : System) (e : Event) : Prop :=
  ∀ w attempt, (next p s e).workers w = .renewed attempt → s.workers w = .renewed attempt ∨
    e.action = .renew w ∧ s.job.holds w = true ∧ s.job.live (s.clock + e.elapsed) = true ∧
      attempt = s.job.attemptCount

/-- The step ends the processing of the job: sent, failed or back to pending. -/
def Settles (p : Settings) (s : System) (e : Event) : Prop :=
  s.job.status = .processing ∧ (next p s e).job.status ≠ .processing

/-- An outcome is recorded by the attempt that the row names: its worker is the owner, and
no later attempt has been claimed. -/
def OutcomeByHolder (p : Settings) (s : System) (e : Event) : Prop :=
  Settles p s e → ∃ w attempt result, e.action = .record w ∧
    s.workers w = .reported attempt result ∧ s.job.holds w = true ∧ attempt = s.job.attemptCount

/-- An attempt that was overtaken by a later claim records nothing. -/
def OvertakenRecordsNothing (p : Settings) (s : System) (e : Event) : Prop :=
  ∀ w attempt result, e.action = .record w → s.workers w = .reported attempt result →
    attempt ≠ s.job.attemptCount → (next p s e).job = s.job

/-- The outcome is recorded while the lease of the attempt has not run out. -/
def OutcomeUnderLiveLease (p : Settings) (s : System) (e : Event) : Prop :=
  Settles p s e → s.job.live (s.clock + e.elapsed) = true

/-- A job that was sent or has failed is never touched again. -/
def TerminalStays (p : Settings) (s : System) (e : Event) : Prop :=
  s.job.status = .sent ∨ s.job.status = .failed → (next p s e).job = s.job

/-! ## Conditions on a step -/

/-- The owner records what its attempt has come to before its lease runs out. -/
def RecordsInTime (s : System) (e : Event) : Prop :=
  ∀ w attempt result, e.action = .record w → s.workers w = .reported attempt result →
    s.job.holds w = true → s.job.live (s.clock + e.elapsed) = true

/-- The provider is called only for attempts within the bound. -/
def SendsWithinBound (p : Settings) (s : System) (e : Event) : Prop :=
  ∀ w attempt, e.action = .send w → s.workers w = .renewed attempt → attempt ≤ p.maxAttempts

/-! ## What a step can do -/

namespace Phase

/-- The attempt that the worker is at. -/
def attempt : Phase → Option Nat
  | .idle => none
  | .claimed n | .renewed n | .sending n | .reported n _ => some n

/-- The attempt that the worker may still send. -/
def unsent : Phase → Option Nat
  | .claimed n | .renewed n => some n
  | _ => none

/-- `q` is at nothing that `phase` was not at. -/
def Within (phase q : Phase) : Prop :=
  (∀ n, q.attempt = some n → phase.attempt = some n) ∧
    ∀ n, q.unsent = some n → phase.unsent = some n

theorem within_refl (phase : Phase) : phase.Within phase := ⟨fun _ same => same, fun _ same => same⟩

theorem within_idle (phase : Phase) : phase.Within .idle := ⟨nofun, nofun⟩

/-- A worker that goes on with its attempt. -/
theorem within_reported {phase : Phase} {n : Nat} (at_ : phase.attempt = some n)
    (result : Delivered) : phase.Within (.reported n result) := ⟨fun _ same => at_.trans same, nofun⟩

end Phase

/-- Every event has one of these effects. -/
inductive Effect (p : Settings) (s : System) (a : Action) (t : System) : Prop
  | claimed (w : Nat) (taken : a = .claim w) (ready : s.workers w = .idle)
      (claimable : s.job.claimable s.clock = true) (job : t.job = s.job.claim p s.clock w)
      (workers : t.workers = Function.update s.workers w (.claimed (s.job.attemptCount + 1)))
      (sends : t.sends = s.sends)
  | renewed (w attempt : Nat) (taken : a = .renew w) (ready : s.workers w = .claimed attempt)
      (holds : s.job.holds w = true) (live : s.job.live s.clock = true)
      (job : t.job = s.job.renewLease p s.clock w)
      (workers : t.workers = Function.update s.workers w (.renewed attempt))
      (sends : t.sends = s.sends)
  | sent (w attempt : Nat) (taken : a = .send w) (ready : s.workers w = .renewed attempt)
      (job : t.job = s.job) (workers : t.workers = Function.update s.workers w (.sending attempt))
      (sends : t.sends = attempt :: s.sends)
  | recorded (w attempt : Nat) (result : Delivered) (taken : a = .record w)
      (ready : s.workers w = .reported attempt result) (holds : s.job.holds w = true)
      (status : t.job.status ≠ .processing) (attemptCount : t.job.attemptCount = s.job.attemptCount)
      (workers : t.workers = Function.update s.workers w .idle) (sends : t.sends = s.sends)
  | passed (w : Nat) (phase : Phase) (within : (s.workers w).Within phase)
      (waits : ∀ n, phase = .renewed n → s.workers w = .renewed n) (job : t.job = s.job)
      (workers : t.workers = Function.update s.workers w phase) (sends : t.sends = s.sends)
      (lost : ∀ n result, a = .record w → s.workers w = .reported n result →
        s.job.holds w = false)
      (other : ∀ v, a = .record v → v = w)

theorem record_status (p : Settings) (now attempt : Nat) (result : Delivered) (j : Job) :
    (j.record p now attempt result).status ≠ .processing := by
  cases result with
  | ok messageId => simp [Job.record, Job.recordSuccess]
  | error error =>
      simp only [Job.record, Job.recordFailure]
      split <;> simp

theorem record_attemptCount (p : Settings) (now attempt : Nat) (result : Delivered) (j : Job) :
    (j.record p now attempt result).attemptCount = j.attemptCount := by
  cases result <;> rfl

/-- An event that its worker is not ready for. -/
theorem idle_effect {p : Settings} {s : System} {a : Action} {w : Nat}
    (lost : ∀ n result, a = .record w → s.workers w ≠ .reported n result)
    (other : ∀ v, a = .record v → v = w) : Effect p s a s :=
  .passed w (s.workers w) (Phase.within_refl _) (fun _ same => same) rfl
    (Function.update_eq_self w s.workers).symm rfl
    (fun n result taken phase => absurd phase (lost n result taken)) other

/-- **Inversion.** -/
theorem act_effect (p : Settings) (s : System) (a : Action) : Effect p s a (act p s a) := by
  cases a with
  | claim w =>
      cases phase : s.workers w with
      | idle =>
          simp only [act, phase]
          by_cases claimable : s.job.claimable s.clock = true
          · rw [if_pos claimable]
            exact .claimed w rfl phase claimable rfl rfl rfl
          · rw [if_neg claimable]
            exact idle_effect (w := w) nofun nofun
      | _ =>
          simp only [act, phase]
          exact idle_effect (w := w) nofun nofun
  | fail w error =>
      cases phase : s.workers w with
      | claimed attempt =>
          simp only [act, phase]
          exact .passed w _ (Phase.within_reported (by rw [phase]; rfl) _) nofun rfl rfl rfl nofun nofun
      | renewed attempt =>
          simp only [act, phase]
          exact .passed w _ (Phase.within_reported (by rw [phase]; rfl) _) nofun rfl rfl rfl nofun nofun
      | _ =>
          simp only [act, phase]
          exact idle_effect (w := w) nofun nofun
  | renew w =>
      cases phase : s.workers w with
      | claimed attempt =>
          simp only [act, phase]
          by_cases ready : (s.job.holds w && s.job.live s.clock) = true
          · rw [if_pos ready]
            rw [Bool.and_eq_true] at ready
            exact .renewed w attempt rfl phase ready.1 ready.2 rfl rfl rfl
          · rw [if_neg ready]
            exact .passed w _ (Phase.within_reported (by rw [phase]; rfl) _) nofun rfl rfl rfl nofun nofun
      | _ =>
          simp only [act, phase]
          exact idle_effect (w := w) nofun nofun
  | send w =>
      cases phase : s.workers w with
      | renewed attempt =>
          simp only [act, phase]
          exact .sent w attempt rfl phase rfl rfl rfl
      | _ =>
          simp only [act, phase]
          exact idle_effect (w := w) nofun nofun
  | respond w result =>
      cases phase : s.workers w with
      | sending attempt =>
          simp only [act, phase]
          exact .passed w _ (Phase.within_reported (by rw [phase]; rfl) _) nofun rfl rfl rfl nofun nofun
      | _ =>
          simp only [act, phase]
          exact idle_effect (w := w) nofun nofun
  | record w =>
      have own : ∀ v, Action.record w = .record v → v = w := fun v same => (Action.record.inj same).symm
      cases phase : s.workers w with
      | reported attempt result =>
          simp only [act, phase]
          by_cases holds : s.job.holds w = true
          · rw [if_pos holds]
            exact .recorded w attempt result rfl phase holds (record_status p _ _ _ _)
              (record_attemptCount p _ _ _ _) rfl rfl
          · rw [if_neg holds]
            exact .passed w .idle (Phase.within_idle _) nofun rfl rfl rfl
              (fun _ _ _ _ => by simpa using holds) own
      | _ =>
          simp only [act, phase]
          refine idle_effect (w := w) (fun n result _ same => ?_) own
          rw [phase] at same
          cases same
  | abandon w => exact .passed w .idle (Phase.within_idle _) nofun rfl rfl rfl nofun nofun

/-! ## The invariant -/

/-- Open attempts have numbers of their own, and the one of the owner is the last. -/
structure Inv (s : System) : Prop where
  counted : ∀ w n, (s.workers w).attempt = some n → n ≤ s.job.attemptCount
  distinct : ∀ v w n, (s.workers v).attempt = some n → (s.workers w).attempt = some n → v = w
  current : ∀ w n, (s.workers w).attempt = some n → s.job.holds w = true → n = s.job.attemptCount
  unsent : ∀ w n, (s.workers w).unsent = some n → n ∉ s.sends
  numbered : ∀ w n, (s.workers w).attempt = some n → 0 < n
  sent : ∀ n ∈ s.sends, 0 < n ∧ n ≤ s.job.attemptCount
  once : s.sends.Nodup

theorem inv_fresh (now : Nat) : Inv (fresh now) :=
  ⟨nofun, nofun, nofun, nofun, nofun, nofun, .nil⟩

/-- What the other workers are at is as it was. -/
theorem update_cases {s t : System} {w v n : Nat} {phase : Phase} {f : Phase → Option Nat}
    (workers : t.workers = Function.update s.workers w phase) (at_ : f (t.workers v) = some n) :
    v = w ∧ f phase = some n ∨ v ≠ w ∧ f (s.workers v) = some n := by
  rw [workers] at at_
  by_cases own : v = w
  · subst own
    rw [Function.update_self] at at_
    exact .inl ⟨rfl, at_⟩
  · rw [Function.update_of_ne own] at at_
    exact .inr ⟨own, at_⟩

/-- A step that claims nothing and sends nothing. -/
theorem Inv.moved {s t : System} {w : Nat} {phase : Phase} (inv : Inv s)
    (workers : t.workers = Function.update s.workers w phase) (within : (s.workers w).Within phase)
    (attemptCount : t.job.attemptCount = s.job.attemptCount) (sends : t.sends = s.sends)
    (holds : ∀ v, t.job.holds v = true → s.job.holds v = true) : Inv t := by
  have attempts : ∀ v n, (t.workers v).attempt = some n → (s.workers v).attempt = some n := by
    intro v n at_
    rcases update_cases workers at_ with ⟨rfl, own⟩ | ⟨-, other⟩
    · exact within.1 n own
    · exact other
  have unsent : ∀ v n, (t.workers v).unsent = some n → (s.workers v).unsent = some n := by
    intro v n at_
    rcases update_cases workers at_ with ⟨rfl, own⟩ | ⟨-, other⟩
    · exact within.2 n own
    · exact other
  refine ⟨fun v n at_ => ?_, fun u v n first second => ?_, fun v n at_ held => ?_,
    fun v n at_ => ?_, fun v n at_ => inv.numbered v n (attempts v n at_), fun n mem => ?_, ?_⟩
  · rw [attemptCount]
    exact inv.counted v n (attempts v n at_)
  · exact inv.distinct u v n (attempts u n first) (attempts v n second)
  · rw [attemptCount]
    exact inv.current v n (attempts v n at_) (holds v held)
  · rw [sends]
    exact inv.unsent v n (unsent v n at_)
  · rw [sends] at mem
    rw [attemptCount]
    exact inv.sent n mem
  · rw [sends]
    exact inv.once

theorem owner_unique {j : Job} {l : Lease} {w : Nat} (lease : j.lease = some l)
    (holds : j.holds w = true) : w = l.owner := by
  simp only [Job.holds, lease, Option.any_some, Bool.and_eq_true, decide_eq_true_eq] at holds
  exact holds.2.symm

theorem holds_status {j : Job} {w : Nat} (holds : j.holds w = true) : j.status = .processing := by
  simp only [Job.holds, Bool.and_eq_true, decide_eq_true_eq] at holds
  exact holds.1

theorem Inv.claimed {s t : System} {p : Settings} {w : Nat} (inv : Inv s)
    (job : t.job = s.job.claim p s.clock w)
    (workers : t.workers = Function.update s.workers w (.claimed (s.job.attemptCount + 1)))
    (sends : t.sends = s.sends) : Inv t := by
  have count : t.job.attemptCount = s.job.attemptCount + 1 := by rw [job]; rfl
  have attempts : ∀ v n, (t.workers v).attempt = some n →
      v = w ∧ n = s.job.attemptCount + 1 ∨ v ≠ w ∧ (s.workers v).attempt = some n := by
    intro v n at_
    rcases update_cases workers at_ with ⟨own, same⟩ | other
    · exact .inl ⟨own, (Option.some.inj same).symm⟩
    · exact .inr other
  refine ⟨fun v n at_ => ?_, fun u v n first second => ?_, fun v n at_ held => ?_,
    fun v n at_ => ?_, fun v n at_ => ?_, fun n mem => ?_, ?_⟩
  · rcases attempts v n at_ with ⟨-, rfl⟩ | ⟨-, old⟩
    · omega
    · have below := inv.counted v n old
      omega
  · rcases attempts u n first with ⟨rfl, rfl⟩ | ⟨-, firstOld⟩
    · rcases attempts v _ second with ⟨rfl, -⟩ | ⟨-, old⟩
      · rfl
      · have below := inv.counted v _ old
        omega
    · rcases attempts v n second with ⟨-, rfl⟩ | ⟨-, secondOld⟩
      · have below := inv.counted u _ firstOld
        omega
      · exact inv.distinct u v n firstOld secondOld
  · obtain rfl : v = w := owner_unique (l := ⟨w, s.clock + p.leaseDuration⟩) (by rw [job]; rfl) held
    rcases attempts v n at_ with ⟨-, rfl⟩ | ⟨differs, -⟩
    · exact count.symm
    · exact absurd rfl differs
  · rw [sends]
    rcases update_cases workers at_ with ⟨-, same⟩ | ⟨-, old⟩
    · obtain rfl : s.job.attemptCount + 1 = n := Option.some.inj same
      intro mem
      have below := (inv.sent _ mem).2
      omega
    · exact inv.unsent v n old
  · rcases attempts v n at_ with ⟨-, rfl⟩ | ⟨-, old⟩
    · omega
    · exact inv.numbered v n old
  · rw [sends] at mem
    obtain ⟨pos, below⟩ := inv.sent n mem
    exact ⟨pos, by omega⟩
  · rw [sends]
    exact inv.once

theorem Inv.sends {s t : System} {w attempt : Nat} (inv : Inv s)
    (ready : s.workers w = .renewed attempt) (job : t.job = s.job)
    (workers : t.workers = Function.update s.workers w (.sending attempt))
    (sends : t.sends = attempt :: s.sends) : Inv t := by
  have at_ : (s.workers w).attempt = some attempt := by rw [ready]; rfl
  have attempts : ∀ v n, (t.workers v).attempt = some n → (s.workers v).attempt = some n := by
    intro v n moved
    rcases update_cases workers moved with ⟨rfl, own⟩ | ⟨-, other⟩
    · exact at_.trans own
    · exact other
  refine ⟨fun v n moved => ?_, fun u v n first second => ?_, fun v n moved held => ?_,
    fun v n moved => ?_, fun v n moved => inv.numbered v n (attempts v n moved), fun n mem => ?_, ?_⟩
  · rw [job]
    exact inv.counted v n (attempts v n moved)
  · exact inv.distinct u v n (attempts u n first) (attempts v n second)
  · rw [job] at held ⊢
    exact inv.current v n (attempts v n moved) held
  · rw [sends, List.mem_cons, not_or]
    rcases update_cases workers moved with ⟨-, own⟩ | ⟨differs, other⟩
    · cases own
    · refine ⟨fun same => differs ?_, inv.unsent v n other⟩
      have open_ : (s.workers v).attempt = some n := by
        cases phase : s.workers v <;> rw [phase] at other <;> first | exact other | cases other
      exact inv.distinct v w n open_ (same ▸ at_)
  · rw [sends] at mem
    rw [job]
    rcases List.mem_cons.mp mem with rfl | old
    · exact ⟨inv.numbered w n at_, inv.counted w n at_⟩
    · exact inv.sent n old
  · rw [sends]
    exact List.nodup_cons.mpr ⟨inv.unsent w attempt (by rw [ready]; rfl), inv.once⟩

/-- **One event keeps the invariant.** -/
theorem act_inv (p : Settings) {s : System} (a : Action) (inv : Inv s) : Inv (act p s a) := by
  cases act_effect p s a with
  | claimed w taken ready claimable job workers sends => exact inv.claimed job workers sends
  | renewed w attempt taken ready holds live job workers sends =>
      refine inv.moved workers ?_ (by rw [job]; rfl) sends fun v held => ?_
      · rw [ready]
        exact ⟨fun _ same => same, fun _ same => same⟩
      · obtain rfl : v = w := owner_unique (l := ⟨w, s.clock + p.leaseDuration⟩) (by rw [job]; rfl) held
        exact holds
  | sent w attempt taken ready job workers sends => exact inv.sends ready job workers sends
  | recorded w attempt result taken ready holds status attemptCount workers sends =>
      refine inv.moved workers (Phase.within_idle _) attemptCount sends fun v held => ?_
      exact absurd (holds_status held) status
  | passed w phase within waits job workers sends =>
      exact inv.moved workers within (by rw [job]) sends fun v held => by rwa [job] at held

theorem next_inv (p : Settings) (s : System) (e : Event) (inv : Inv s) : Inv (next p s e) :=
  act_inv p e.action (s := { s with clock := s.clock + e.elapsed })
    ⟨inv.counted, inv.distinct, inv.current, inv.unsent, inv.numbered, inv.sent, inv.once⟩

/-! ## The protocol over whole histories -/

theorem sends_renewed (p : Settings) (s : System) (e : Event) : SendsRenewed p s e := by
  cases act_effect p { s with clock := s.clock + e.elapsed } e.action with
  | sent w attempt taken ready job workers sends => exact .inr ⟨w, attempt, taken, ready, sends⟩
  | claimed w taken ready claimable job workers sends => exact .inl sends
  | renewed w attempt taken ready holds live job workers sends => exact .inl sends
  | recorded w attempt result taken ready holds status attemptCount workers sends => exact .inl sends
  | passed w phase within waits job workers sends => exact .inl sends

theorem renews_under_lease (p : Settings) (s : System) (e : Event) (inv : Inv s) :
    RenewsUnderLease p s e := by
  intro v n at_
  unfold next at at_
  have others {w : Nat} {phase : Phase}
      (workers : (act p { s with clock := s.clock + e.elapsed } e.action).workers =
        Function.update s.workers w phase) (notOwn : phase ≠ .renewed n) :
      s.workers v = .renewed n := by
    rw [workers] at at_
    by_cases own : v = w
    · rw [own, Function.update_self] at at_
      exact absurd at_ notOwn
    · rwa [Function.update_of_ne own] at at_
  cases act_effect p { s with clock := s.clock + e.elapsed } e.action with
  | claimed w taken ready claimable job workers => exact .inl (others workers nofun)
  | sent w attempt taken ready job workers => exact .inl (others workers nofun)
  | recorded w attempt result taken ready holds status attemptCount workers =>
      exact .inl (others workers nofun)
  | renewed w attempt taken ready holds live job workers =>
      by_cases own : v = w
      · subst own
        rw [workers, Function.update_self] at at_
        obtain rfl : attempt = n := Phase.renewed.inj at_
        have open_ : (s.workers v).attempt = some attempt := by
          rw [show s.workers v = .claimed attempt from ready]
          rfl
        exact .inr ⟨taken, holds, live, inv.current v attempt open_ holds⟩
      · rw [workers, Function.update_of_ne own] at at_
        exact .inl at_
  | passed w phase within waits job workers =>
      by_cases own : v = w
      · subst own
        rw [workers, Function.update_self] at at_
        exact .inl (waits n at_)
      · rw [workers, Function.update_of_ne own] at at_
        exact .inl at_

theorem outcome_by_holder (p : Settings) (s : System) (e : Event) (inv : Inv s) :
    OutcomeByHolder p s e := by
  rintro ⟨processing, settled⟩
  unfold next at settled
  cases act_effect p { s with clock := s.clock + e.elapsed } e.action with
  | claimed w taken ready claimable job =>
      rw [job] at settled
      exact absurd rfl settled
  | renewed w attempt taken ready holds live job =>
      rw [job] at settled
      exact absurd processing settled
  | sent w attempt taken ready job =>
      rw [job] at settled
      exact absurd processing settled
  | recorded w attempt result taken ready holds =>
      have open_ : (s.workers w).attempt = some attempt := by
        rw [show s.workers w = .reported attempt result from ready]
        rfl
      exact ⟨w, attempt, result, taken, ready, holds, inv.current w attempt open_ holds⟩
  | passed w phase within waits job =>
      rw [job] at settled
      exact absurd processing settled

theorem overtaken_records_nothing (p : Settings) (s : System) (e : Event) (inv : Inv s) :
    OvertakenRecordsNothing p s e := by
  intro w attempt result taken ready overtaken
  have open_ : (s.workers w).attempt = some attempt := by rw [ready]; rfl
  have lost : ¬ s.job.holds w = true := fun holds => overtaken (inv.current w attempt open_ holds)
  unfold next
  rw [taken]
  simp only [act, ready]
  rw [if_neg lost]
  rfl

/-- Recording in time is what an outcome under a live lease takes. -/
theorem recordsInTime_iff (p : Settings) (s : System) (e : Event) (inv : Inv s) :
    RecordsInTime s e ↔ OutcomeUnderLiveLease p s e := by
  constructor
  · intro inTime settles
    obtain ⟨w, attempt, result, taken, ready, holds, -⟩ := outcome_by_holder p s e inv settles
    exact inTime w attempt result taken ready holds
  · intro underLease w attempt result taken ready holds
    refine underLease ⟨holds_status holds, ?_⟩
    unfold next
    rw [taken]
    simp only [act, ready]
    rw [if_pos holds]
    exact record_status p _ _ _ _

theorem terminal_stays (p : Settings) (s : System) (e : Event) : TerminalStays p s e := by
  intro terminal
  have notPending : s.job.status ≠ .pending := by rcases terminal with h | h <;> simp [h]
  have notProcessing : s.job.status ≠ .processing := by rcases terminal with h | h <;> simp [h]
  have idle (w : Nat) : ¬ s.job.holds w = true := fun holds => notProcessing (holds_status holds)
  cases act_effect p { s with clock := s.clock + e.elapsed } e.action with
  | claimed w taken ready claimable => simp [Job.claimable, notPending, notProcessing] at claimable
  | renewed w attempt taken ready holds => exact absurd holds (idle w)
  | sent w attempt taken ready job => exact job
  | recorded w attempt result taken ready holds => exact absurd holds (idle w)
  | passed w phase within waits job => exact job

/-- A send within the bound adds an attempt within the bound. -/
theorem next_within (p : Settings) (s : System) (e : Event)
    (inv : Inv s ∧ ∀ n ∈ s.sends, n ≤ p.maxAttempts) (within : SendsWithinBound p s e) :
    Inv (next p s e) ∧ ∀ n ∈ (next p s e).sends, n ≤ p.maxAttempts := by
  refine ⟨next_inv p s e inv.1, fun n mem => ?_⟩
  rcases sends_renewed p s e with same | ⟨w, attempt, taken, ready, more⟩
  · rw [same] at mem
    exact inv.2 n mem
  · rw [more] at mem
    rcases List.mem_cons.mp mem with rfl | old
    · exact within w n taken ready
    · exact inv.2 n old

/-- Different attempts between one and the bound. -/
theorem Inv.sends_le {s : System} {bound : Nat} (inv : Inv s) (within : ∀ n ∈ s.sends, n ≤ bound) :
    s.sends.length ≤ bound := by
  have subset : s.sends ⊆ List.range' 1 bound := by
    intro n mem
    have pos := (inv.sent n mem).1
    have below := within n mem
    rw [List.mem_range'_1]
    omega
  have count := (List.Nodup.subperm inv.once subset).length_le
  rwa [List.length_range'] at count

/-- **The notification lease protocol.**  In every history the provider is called only by
attempts that have just renewed their lease, an outcome is recorded by the attempt that
the row names, overtaken attempts record nothing, and sent and failed are final; the lease
is still running exactly where the owner records in time; and there are at most
`maxAttempts` sends where each is within the bound. -/
theorem notification_lease_protocol (p : Settings) (start : Nat) (events : List Event) :
    (AllSteps (next p) (SendsRenewed p) (fresh start) events ∧
        AllSteps (next p) (RenewsUnderLease p) (fresh start) events ∧
        AllSteps (next p) (OutcomeByHolder p) (fresh start) events ∧
        AllSteps (next p) (OvertakenRecordsNothing p) (fresh start) events ∧
        AllSteps (next p) (TerminalStays p) (fresh start) events ∧
        (after (next p) (fresh start) events).sends.Nodup) ∧
      (AllSteps (next p) RecordsInTime (fresh start) events ↔
        AllSteps (next p) (OutcomeUnderLiveLease p) (fresh start) events) ∧
      (AllSteps (next p) (SendsWithinBound p) (fresh start) events →
        (after (next p) (fresh start) events).sends.length ≤ p.maxAttempts) := by
  have everywhere {good : System → Event → Prop} (each : ∀ s e, Inv s → good s e) :
      AllSteps (next p) good (fresh start) events :=
    allSteps_of_invariant (I := Inv) (next_inv p) each events _ (inv_fresh start)
  refine ⟨⟨everywhere fun s e _ => sends_renewed p s e, everywhere (renews_under_lease p),
    everywhere (outcome_by_holder p), everywhere (overtaken_records_nothing p),
    everywhere fun s e _ => terminal_stays p s e, ?_⟩, ?_, ?_⟩
  · exact (after_of_invariant (next_inv p) events _ (inv_fresh start)).once
  · exact allSteps_iff (I := Inv) (fun s e inv => recordsInTime_iff p s e inv)
      (fun s e inv _ => next_inv p s e inv) events _ (inv_fresh start)
  · intro within
    obtain ⟨inv, bound⟩ := AllSteps.after (next_within p) events _ ⟨inv_fresh start, nofun⟩ within
    exact inv.sends_le bound

/-- A worker that calls the provider and dies, after the lease of its predecessor has run
out. -/
def dyingWorker (w : Nat) : List Event :=
  [⟨61, .claim w⟩, ⟨1, .renew w⟩, ⟨0, .send w⟩, ⟨0, .abandon w⟩]

/-- Three attempts, leases of a minute. -/
def threeAttempts : Settings where
  leaseDuration := 60
  maxAttempts := 3
  retryDelay := fun _ => 1

/-- Four workers that die while sending call the provider four times, with a bound of
three. -/
theorem dying_workers_send_again :
    (after (next threeAttempts) (fresh 0)
      (dyingWorker 0 ++ dyingWorker 1 ++ dyingWorker 2 ++ dyingWorker 3)).sends = [4, 3, 2, 1] := by
  decide

end SiliconIam.Worker.NotificationLease
