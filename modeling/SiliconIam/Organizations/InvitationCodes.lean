/-
# Organizations.InvitationCodes -- the join codes of one invitation

An invitation is answered with a one-time code sent to its address.  Sending a new
code supersedes the current challenge and takes over its counter; a challenge becomes
usable when its delivery is confirmed, and one that the provider rejects is superseded
on the spot.  A join looks at the newest challenge only.

The windows of the budget are the challenges, and their lineage is the invitation
itself: it ends when the invitation expires, after which nothing is sent and no code
is compared.  `invitation_code_budget_iff` says which histories keep the budget,
`rejected_delivery_resets_budget` is one that does not.
-/
import SiliconIam.Auth.Otp

namespace SiliconIam.Organizations.InvitationCodes

open SiliconIam.Theory.Runs SiliconIam.Theory.AttemptBudget SiliconIam.Auth.Otp

set_option autoImplicit false

/-! ## Rows -/

/-- `iam.invitation_verification_challenges`; `attempts` is `failed_attempts` and
`cooldown_until`. -/
structure InvitationChallenge where
  id : Nat
  deliveryStatus : DeliveryStatus
  expiresAt : Nat
  consumed : Bool
  superseded : Bool
  attempts : AttemptState

inductive InvitationStatus where
  | pending
  | accepted
  | revoked
  | expired
deriving DecidableEq

/-- One bound invitation, its challenges newest first, and the time of the last
operation. -/
structure Invitation where
  clock : Nat
  status : InvitationStatus
  expiresAt : Nat
  challenges : List InvitationChallenge

def Invitation.issued (expiresAt : Nat) : Invitation where
  clock := 0
  status := .pending
  expiresAt := expiresAt
  challenges := []

namespace InvitationChallenge

/-- The rows of the unique index: at most one of an invitation. -/
def current (c : InvitationChallenge) : Bool := !c.consumed && !c.superseded

def supersede (c : InvitationChallenge) : InvitationChallenge :=
  if c.current then { c with superseded := true } else c

/-- `confirm_invitation_otp_delivery`, of the challenge's own columns. -/
def confirmDelivery (now : Nat) (c : InvitationChallenge) : InvitationChallenge :=
  if c.deliveryStatus = .pending && c.current && now < c.expiresAt &&
      c.attempts.failedAttempts < otpMaxFailedAttempts then
    { c with deliveryStatus := .delivered }
  else c

/-- `fail_invitation_otp_delivery`: also of a challenge that was superseded since. -/
def failDelivery (c : InvitationChallenge) : InvitationChallenge :=
  if c.deliveryStatus = .pending then
    { c with deliveryStatus := .failed, superseded := true }
  else c

/-- The challenge still admits a comparison. -/
def active (now : Nat) (c : InvitationChallenge) : Bool :=
  c.deliveryStatus = .delivered && now < c.expiresAt && c.current &&
    c.attempts.failedAttempts < otpMaxFailedAttempts

/-- `register_failed_attempt`. -/
def registerFailedAttempt (now : Nat) (c : InvitationChallenge) : InvitationChallenge :=
  if c.current && now < c.expiresAt && c.attempts.usable now then
    { c with attempts := c.attempts.fail policy now }
  else c

def consume (c : InvitationChallenge) : InvitationChallenge :=
  if c.current then { c with consumed := true } else c

end InvitationChallenge

/-- `WHERE id = …`. -/
def updateById (id : Nat) (f : InvitationChallenge → InvitationChallenge)
    (rows : List InvitationChallenge) : List InvitationChallenge :=
  rows.map fun c => if c.id = id then f c else c

namespace Invitation

/-- `status = 'pending' AND expires_at > transaction_timestamp()`. -/
def isOpen (now : Nat) (s : Invitation) : Bool := s.status = .pending && now < s.expiresAt

/-- What the superseded row returns. -/
def inherited (now : Nat) (rows : List InvitationChallenge) : AttemptState :=
  match rows.find? (·.current) with
  | some c => c.attempts.normalize now
  | none => .default

/-! ## Operations -/

/-- Phase A of `send_invitation_email_code`. -/
def sendCode (now : Nat) (s : Invitation) : List InvitationChallenge :=
  { id := s.challenges.length
    deliveryStatus := .pending
    expiresAt := min s.expiresAt (now + otpTtl)
    consumed := false
    superseded := false
    attempts := inherited now s.challenges } :: s.challenges.map (·.supersede)

/-- What a join answers.  Only `invalid`, `refused` and `joined` have compared the code;
`invalid` says whether it started a cooldown, and `refused` is a right code for an
invitation that cannot be completed any more. -/
inductive JoinAnswer where
  | notFound
  | gone
  | rateLimited
  | invalid (locked : Bool)
  | refused
  | joined
deriving DecidableEq

def JoinAnswer.observation (now : Nat) : JoinAnswer → Observation
  | .invalid locked => .wrong now locked
  | .joined => .success now
  | .notFound | .gone | .rateLimited | .refused => .silent

/-- `join_organization`.  `correct` is the answer of the digest comparison,
`completes` whether `complete_verified_organization_invitation` goes through; where it
does not, the transaction is rolled back. -/
def joinOrganization (now : Nat) (correct completes : Bool) (s : Invitation) :
    JoinAnswer × Invitation :=
  let unchanged := { s with clock := now }
  match s.challenges with
  | [] => (.notFound, unchanged)
  | challenge :: _ =>
      if !s.isOpen now || !challenge.active now then (.gone, unchanged)
      else if !challenge.attempts.usable now then (.rateLimited, unchanged)
      else if correct then
        if completes then
          (.joined, { unchanged with
            status := .accepted
            challenges := updateById challenge.id (·.consume) s.challenges })
        else (.refused, unchanged)
      else
        (.invalid (challenge.attempts.exhausts policy), { unchanged with
          challenges := updateById challenge.id (·.registerFailedAttempt now) s.challenges })

end Invitation

/-- `resolved` is the answer of the address lookup, `contactActive` whether the
destination is still an active verified address; a delivery of unknown outcome does
nothing. -/
inductive Action where
  | sendCode (resolved : Bool)
  | confirmDelivery (id : Nat) (contactActive : Bool)
  | failDelivery (id : Nat)
  | unknownDelivery (id : Nat)
  | join (correct completes : Bool)
  | revoke
  | expire

/-- One operation, and what is seen of it. -/
def exec (s : Invitation) (e : Timed Action) : Invitation × Observation :=
  let now := s.clock + e.elapsed
  let unchanged := { s with clock := now }
  match e.action with
  | .sendCode resolved =>
      if resolved && s.isOpen now then
        ({ unchanged with challenges := s.sendCode now }, .opened now s.expiresAt)
      else (unchanged, .silent)
  | .confirmDelivery id contactActive =>
      if contactActive && s.isOpen now then
        ({ unchanged with challenges := updateById id (·.confirmDelivery now) s.challenges }, .silent)
      else (unchanged, .silent)
  | .failDelivery id =>
      ({ unchanged with challenges := updateById id (·.failDelivery) s.challenges }, .silent)
  | .unknownDelivery _ => (unchanged, .silent)
  | .join correct completes =>
      let (answer, after) := s.joinOrganization now correct completes
      (after, answer.observation now)
  | .revoke =>
      if s.status = .pending then
        ({ unchanged with
          status := .revoked
          challenges := s.challenges.map (·.supersede) }, .silent)
      else (unchanged, .silent)
  | .expire =>
      if s.status = .pending && s.expiresAt ≤ now then
        ({ unchanged with status := .expired }, .silent)
      else (unchanged, .silent)

def next (s : Invitation) (e : Timed Action) : Invitation := (exec s e).1

/-! ## What should hold -/

/-- The failed attempts and the running cooldown the next code would start from. -/
def counter (now : Nat) (s : Invitation) : AttemptState := Invitation.inherited now s.challenges

/-- While the invitation is pending, nothing but a join changes the counter. -/
def KeepsCounter (s : Invitation) (e : Timed Action) : Prop :=
  match e.action with
  | .join _ _ => True
  | _ =>
      (next s e).status = .pending →
        counter (s.clock + e.elapsed) (next s e) = counter (s.clock + e.elapsed) s

/-- A rejected delivery of a pending invitation hits no current challenge that awaits
it, or one whose counter is at its start. -/
def RejectionSpares (s : Invitation) (e : Timed Action) : Prop :=
  match e.action with
  | .failDelivery id =>
      s.status = .pending →
        (∀ c ∈ s.challenges, c.id = id → c.deliveryStatus = .pending → c.current = false) ∨
          counter (s.clock + e.elapsed) s = .default
  | _ => True

/-! ## The window behind the rows -/

/-- The window of a current challenge lasts as long as the invitation. -/
inductive Shows (until_ : Nat) : InvitationChallenge → Option Window → Prop
  | closed {c : InvitationChallenge} (ended : c.current = false) : Shows until_ c none
  | live {c : InvitationChallenge} (current : c.current = true)
      (bounded : Bounded policy c.attempts) : Shows until_ c (some ⟨c.attempts, until_⟩)

/-- Only the newest challenge may be current. -/
inductive ShowsAll (until_ : Nat) : List InvitationChallenge → Option Window → Prop
  | nil : ShowsAll until_ [] none
  | cons {c : InvitationChallenge} {rest : List InvitationChallenge} {w : Option Window}
      (newest : Shows until_ c w) (older : ∀ d ∈ rest, d.current = false) :
      ShowsAll until_ (c :: rest) w

/-- What a challenge sent now inherits from a window. -/
def carriedFrom (now : Nat) : Option Window → AttemptState
  | some w => w.attempts.normalize now
  | none => .default

theorem carriedFrom_normalize (now : Nat) (w : Option Window) :
    (carriedFrom now w).normalize now = carriedFrom now w := by
  cases w with
  | none => rfl
  | some w => exact AttemptState.normalize_normalize now w.attempts

variable {now until_ : Nat} {rows : List InvitationChallenge} {w : Option Window}

/-- **The counter is what the window carries.** -/
theorem inherited_of_shows (shown : ShowsAll until_ rows w) :
    Invitation.inherited now rows = carriedFrom now w := by
  cases shown with
  | nil => rfl
  | @cons c rest w newest older =>
      unfold Invitation.inherited
      cases newest with
      | closed ended =>
          have none_current : (c :: rest).find? (·.current) = none := by
            rw [List.find?_eq_none]
            intro d mem
            rcases List.mem_cons.mp mem with rfl | old
            · simp [ended]
            · simp [older d old]
          rw [none_current]
          rfl
      | live current bounded =>
          rw [List.find?_cons_of_pos current]
          rfl

theorem ShowsAll.bounded (shown : ShowsAll until_ rows w) (now : Nat) :
    Bounded policy (carriedFrom now w) := by
  cases shown with
  | nil => exact bounded_default
  | cons newest older =>
      cases newest with
      | closed => exact bounded_default
      | live _ bounded => exact bounded.normalize now

/-- An update of one challenge, when it revives none. -/
theorem ShowsAll.update {id : Nat} {f : InvitationChallenge → InvitationChallenge}
    {c : InvitationChallenge} {rest : List InvitationChallenge}
    (ends : ∀ d, d.current = false → (f d).current = false)
    (older : ∀ d ∈ rest, d.current = false)
    (newest : Shows until_ (if c.id = id then f c else c) w) :
    ShowsAll until_ (updateById id f (c :: rest)) w := by
  refine .cons newest fun d mem => ?_
  obtain ⟨d', held, rfl⟩ := List.mem_map.mp mem
  split
  · exact ends d' (older d' held)
  · exact older d' held

/-! ## What each operation does to the window -/

theorem supersede_ends (c : InvitationChallenge) : c.supersede.current = false := by
  unfold InvitationChallenge.supersede
  split
  · simp [InvitationChallenge.current]
  · rename_i ended
    simpa using ended

theorem confirmDelivery_ends (now : Nat) (d : InvitationChallenge) (ended : d.current = false) :
    (d.confirmDelivery now).current = false := by
  simp [InvitationChallenge.confirmDelivery, ended]

theorem failDelivery_ends (d : InvitationChallenge) (ended : d.current = false) :
    d.failDelivery.current = false := by
  unfold InvitationChallenge.failDelivery
  split
  · simp [InvitationChallenge.current]
  · exact ended

theorem registerFailedAttempt_ends (now : Nat) (d : InvitationChallenge)
    (ended : d.current = false) : (d.registerFailedAttempt now).current = false := by
  simp [InvitationChallenge.registerFailedAttempt, ended]

variable {s : Invitation}

theorem sendCode_shows (now : Nat) (shown : ShowsAll s.expiresAt s.challenges w) :
    ShowsAll s.expiresAt (s.sendCode now) (some ⟨carriedFrom now w, s.expiresAt⟩) := by
  have bounded := shown.bounded now
  rw [← inherited_of_shows shown] at bounded ⊢
  refine .cons (.live rfl bounded) fun d mem => ?_
  obtain ⟨d', -, rfl⟩ := List.mem_map.mp mem
  exact supersede_ends d'

theorem Shows.confirmDelivery {c : InvitationChallenge} (shown : Shows until_ c w) :
    Shows until_ (c.confirmDelivery now) w := by
  unfold InvitationChallenge.confirmDelivery
  split
  · cases shown with
    | closed ended => exact .closed ended
    | live current bounded =>
        exact .live (c := { c with deliveryStatus := .delivered }) current bounded
  · exact shown

theorem confirm_shows {id : Nat} (shown : ShowsAll until_ rows w) :
    ShowsAll until_ (updateById id (·.confirmDelivery now) rows) w := by
  cases shown with
  | nil => exact .nil
  | @cons c rest w newest older =>
      refine .update (confirmDelivery_ends now) older ?_
      split
      · exact newest.confirmDelivery
      · exact newest

/-- A rejected delivery closes the window of the current challenge that awaited it, and
touches nothing else. -/
theorem failDelivery_shows (id : Nat) (shown : ShowsAll until_ rows w) :
    ((∀ c ∈ rows, c.id = id → c.deliveryStatus = .pending → c.current = false) ∧
        ShowsAll until_ (updateById id (·.failDelivery) rows) w) ∨
      (w.isSome = true ∧
        (∃ c ∈ rows, c.id = id ∧ c.deliveryStatus = .pending ∧ c.current = true) ∧
        ShowsAll until_ (updateById id (·.failDelivery) rows) none) := by
  cases shown with
  | nil => exact .inl ⟨fun c mem => (by cases mem), .nil⟩
  | @cons c rest w newest older =>
      by_cases hit : c.id = id ∧ c.deliveryStatus = .pending
      · obtain ⟨same, awaits⟩ := hit
        have failed : c.failDelivery.current = false := by
          simp [InvitationChallenge.failDelivery, awaits, InvitationChallenge.current]
        cases newest with
        | closed ended =>
            left
            refine ⟨fun d mem _ _ => ?_, .update failDelivery_ends older ?_⟩
            · rcases List.mem_cons.mp mem with rfl | old
              · exact ended
              · exact older d old
            · rw [if_pos same]
              exact .closed failed
        | live current bounded =>
            right
            refine ⟨rfl, ⟨c, List.mem_cons_self, same, awaits, current⟩,
              .update failDelivery_ends older ?_⟩
            rw [if_pos same]
            exact .closed failed
      · left
        refine ⟨fun d mem same awaits => ?_, .update failDelivery_ends older ?_⟩
        · rcases List.mem_cons.mp mem with rfl | old
          · exact absurd ⟨same, awaits⟩ hit
          · exact older d old
        · split
          · rename_i same
            have kept : c.failDelivery = c := by
              unfold InvitationChallenge.failDelivery
              rw [if_neg fun awaits => hit ⟨same, awaits⟩]
            rw [kept]
            exact newest
          · exact newest

/-- What a join does, seen at the window of a pending invitation: it compares nothing,
or changes nothing, or a code is judged against a usable counter. -/
theorem join_cases (now : Nat) (correct completes : Bool)
    (shown : ShowsAll s.expiresAt s.challenges w) :
    ((s.joinOrganization now correct completes).1.observation now = .silent ∧
        (s.joinOrganization now correct completes).2 = { s with clock := now }) ∨
      ∃ v, w = some v ∧ v.attempts.usable now = true ∧
        (((s.joinOrganization now correct completes).1 = .joined ∧
            (s.joinOrganization now correct completes).2.status = .accepted) ∨
          ((s.joinOrganization now correct completes).1 = .invalid (v.attempts.exhausts policy) ∧
            (s.joinOrganization now correct completes).2.expiresAt = s.expiresAt ∧
            ShowsAll s.expiresAt (s.joinOrganization now correct completes).2.challenges
              (some { v with attempts := v.attempts.fail policy now }))) := by
  obtain ⟨clock, status, expiresAt, challenges⟩ := s
  unfold Invitation.joinOrganization
  cases shown with
  | nil => exact .inl ⟨rfl, rfl⟩
  | @cons c rest w newest older =>
      dsimp only
      split
      · exact .inl ⟨rfl, rfl⟩
      rename_i admitted
      have active : c.active now = true := by
        simp only [Bool.or_eq_true, Bool.not_eq_true', not_or, Bool.not_eq_false] at admitted
        exact admitted.2
      simp only [InvitationChallenge.active, Bool.and_eq_true, decide_eq_true_eq] at active
      obtain ⟨⟨⟨-, unexpired⟩, current⟩, -⟩ := active
      split
      · exact .inl ⟨rfl, rfl⟩
      rename_i ready
      have usable : c.attempts.usable now = true := by simpa using ready
      cases newest with
      | closed ended =>
          rw [ended] at current
          cases current
      | live _ bounded =>
          cases correct with
          | true =>
              cases completes with
              | true => exact .inr ⟨_, rfl, usable, .inl ⟨rfl, rfl⟩⟩
              | false => exact .inl ⟨rfl, rfl⟩
          | false =>
              refine .inr ⟨_, rfl, usable, .inr ⟨rfl, rfl, ?_⟩⟩
              refine .update (registerFailedAttempt_ends now) older ?_
              simp only [InvitationChallenge.registerFailedAttempt, current, unexpired, usable,
                decide_true, Bool.and_self, if_true]
              exact .live (c := { c with attempts := _ }) current (bounded_fail c.attempts now)

theorem join_clock (now : Nat) (correct completes : Bool) (s : Invitation) :
    (s.joinOrganization now correct completes).2.clock = now := by
  unfold Invitation.joinOrganization
  repeat' split
  all_goals rfl

/-- No code of an invitation that is over is compared. -/
theorem join_of_ended (ended : s.status ≠ .pending) (now : Nat)
    (correct completes : Bool) :
    (s.joinOrganization now correct completes).2 = { s with clock := now } ∧
      (s.joinOrganization now correct completes).1.observation now = .silent := by
  unfold Invitation.joinOrganization
  split
  · exact ⟨rfl, rfl⟩
  · rw [if_pos (by simp [Invitation.isOpen, ended])]
    exact ⟨rfl, rfl⟩

/-! ## The invitation keeps the budget -/

/-- A window stands for the challenges of a pending invitation; one that is over sends
and compares nothing. -/
structure Sim (s : Invitation) (x : Scope) : Prop where
  clock : x.clock = s.clock
  shown : s.status = .pending → ShowsAll s.expiresAt s.challenges x.window

theorem sim_issued (expiresAt : Nat) : Sim (.issued expiresAt) ⟨0, none⟩ := ⟨rfl, fun _ => .nil⟩

theorem Sim.counter {x : Scope} (sim : Sim s x) (pending : s.status = .pending)
    (now : Nat) : counter now s = carriedFrom now x.window :=
  inherited_of_shows (sim.shown pending)

theorem open_matched {x : Scope} (later : x.clock ≤ now) :
    Step policy x (.opened now until_) ⟨now, some ⟨carriedFrom now x.window, until_⟩⟩ := by
  cases held : x.window with
  | none => exact .openFresh later (fun w current => by rw [held] at current; cases current)
  | some w => exact .openCarried later held

theorem pending_of_open {allowed : Bool} (granted : (allowed && s.isOpen now) = true) :
    s.status = .pending := by
  simp only [Invitation.isOpen, Bool.and_eq_true, decide_eq_true_eq] at granted
  exact granted.2.1

/-- **Every operation is a step of the counter**, unless a rejected delivery loses what
its challenge carries. -/
theorem exec_matched (s : Invitation) (e : Timed Action) (x : Scope) (sim : Sim s x)
    (spares : RejectionSpares s e) : ∃ y, Step policy x (exec s e).2 y ∧ Sim (exec s e).1 y := by
  obtain ⟨elapsed, action⟩ := e
  have later : x.clock ≤ s.clock + elapsed := sim.clock ▸ Nat.le_add_right _ _
  have idle : ∃ y, Step policy x .silent y ∧ Sim { s with clock := s.clock + elapsed } y :=
    ⟨_, .silent later, rfl, sim.shown⟩
  cases action with
  | sendCode resolved =>
      simp only [exec]
      split
      · rename_i granted
        have shown := sim.shown (pending_of_open granted)
        exact ⟨_, open_matched later, rfl, fun _ => sendCode_shows _ shown⟩
      · exact idle
  | confirmDelivery id contactActive =>
      simp only [exec]
      split
      · rename_i granted
        have shown := sim.shown (pending_of_open granted)
        exact ⟨_, .silent later, rfl, fun _ => confirm_shows shown⟩
      · exact idle
  | failDelivery id =>
      by_cases pending : s.status = .pending
      · rcases failDelivery_shows id (sim.shown pending) with
          ⟨-, kept⟩ | ⟨opened, ⟨c, mem, same, awaits, current⟩, lost⟩
        · exact ⟨_, .silent later, rfl, fun _ => kept⟩
        · obtain ⟨w, held⟩ := Option.isSome_iff_exists.mp opened
          refine ⟨⟨s.clock + elapsed, none⟩, .drop later held (.inr ?_), rfl, fun _ => lost⟩
          rcases spares pending with missed | fresh
          · rw [missed c mem same awaits] at current
            cases current
          · have carried := sim.counter pending (s.clock + elapsed)
            rw [held] at carried
            exact carried.symm.trans fresh
      · exact ⟨_, .silent later, rfl, fun ended => absurd ended pending⟩
  | unknownDelivery id => exact idle
  | join correct completes =>
      by_cases pending : s.status = .pending
      · rcases join_cases (s.clock + elapsed) correct completes (sim.shown pending) with
          ⟨silent, kept⟩ | ⟨w, held, usable, judged⟩
        · simp only [exec]
          rw [silent, kept]
          exact idle
        · rcases judged with ⟨answer, accepted⟩ | ⟨answer, expiresAt, shown⟩
          · refine ⟨⟨s.clock + elapsed, none⟩, ?_, (join_clock _ correct completes s).symm,
              fun pending => ?_⟩
            · simp only [exec]
              rw [answer]
              exact .success later held usable
            · exact absurd (accepted.symm.trans pending) (by decide)
          · refine ⟨⟨s.clock + elapsed,
              some { w with attempts := w.attempts.fail policy (s.clock + elapsed) }⟩, ?_,
              (join_clock (s.clock + elapsed) correct completes s).symm, fun _ => ?_⟩
            · simp only [exec]
              rw [answer]
              exact .wrong later held usable
            · simp only [exec]
              rw [expiresAt]
              exact shown
      · obtain ⟨kept, silent⟩ := join_of_ended pending (s.clock + elapsed) correct completes
        simp only [exec]
        rw [silent, kept]
        exact idle
  | revoke =>
      simp only [exec]
      split
      · exact ⟨_, .silent later, rfl, fun ended => by cases ended⟩
      · exact idle
  | expire =>
      simp only [exec]
      split
      · exact ⟨_, .silent later, rfl, fun ended => by cases ended⟩
      · exact idle

/-! ## When the counter is kept -/

/-- **An operation keeps the counter exactly when it is not a rejected delivery that
loses what its challenge carries.** -/
theorem keepsCounter_iff {x : Scope} (sim : Sim s x) (e : Timed Action) :
    KeepsCounter s e ↔ RejectionSpares s e := by
  obtain ⟨elapsed, action⟩ := e
  cases action with
  | join correct completes => exact Iff.rfl
  | unknownDelivery id => exact iff_of_true (fun _ => rfl) trivial
  | sendCode resolved =>
      refine iff_of_true (fun pending => ?_) trivial
      simp only [next, exec] at pending ⊢
      split at pending
      · rename_i granted
        rw [if_pos granted, sim.counter (pending_of_open granted)]
        have shown := sendCode_shows (s.clock + elapsed) (sim.shown pending)
        exact (inherited_of_shows shown).trans (carriedFrom_normalize _ _)
      · rename_i refused
        rw [if_neg refused]
        rfl
  | confirmDelivery id contactActive =>
      refine iff_of_true (fun pending => ?_) trivial
      simp only [next, exec] at pending ⊢
      split at pending
      · rename_i granted
        rw [if_pos granted, sim.counter (pending_of_open granted)]
        exact inherited_of_shows (confirm_shows (sim.shown pending))
      · rename_i refused
        rw [if_neg refused]
        rfl
  | failDelivery id =>
      refine forall_congr' fun pending => ?_
      have before := sim.counter pending (s.clock + elapsed)
      rcases failDelivery_shows id (sim.shown pending) with
        ⟨missed, kept⟩ | ⟨-, ⟨c, mem, same, awaits, current⟩, lost⟩
      · refine iff_of_true ?_ (.inl missed)
        rw [before]
        exact inherited_of_shows kept
      · have after : counter (s.clock + elapsed) (next s ⟨elapsed, .failDelivery id⟩) = .default :=
          inherited_of_shows lost
        rw [after]
        constructor
        · exact fun kept => .inr kept.symm
        · rintro (missed | fresh)
          · rw [missed c mem same awaits] at current
            cases current
          · exact fresh.symm
  | revoke =>
      refine iff_of_true (fun pending => ?_) trivial
      simp only [next, exec] at pending ⊢
      split at pending
      · cases pending
      · rename_i refused
        rw [if_neg refused]
        rfl
  | expire =>
      refine iff_of_true (fun pending => ?_) trivial
      simp only [next, exec] at pending ⊢
      split at pending
      · cases pending
      · rename_i refused
        rw [if_neg refused]
        rfl

/-- **The budget of an invitation's codes, exactly.**  A history keeps the budget, and
every code sent starts from the counter before it, if and only if every rejected
delivery of it spares a counter that is not at its start. -/
theorem invitation_code_budget_iff (expiresAt : Nat) (events : List (Timed Action)) :
    (keepsBudget policy .fresh (observations exec (.issued expiresAt) events) = true ∧
        AllSteps next KeepsCounter (.issued expiresAt) events) ↔
      AllSteps next RejectionSpares (.issued expiresAt) events :=
  budget_iff exec_matched (fun _ e _ sim => keepsCounter_iff sim e) (sim_issued expiresAt) events

/-- Nine wrong codes, a new code that the provider rejects, another that is delivered,
and nine wrong codes again: eighteen without a cooldown, in one minute of the two days
an invitation lasts. -/
def rejectionReset : List (Timed Action) :=
  [⟨0, .sendCode true⟩, ⟨second, .confirmDelivery 0 true⟩] ++
    List.replicate 9 ⟨second, .join false true⟩ ++
    [⟨second, .sendCode true⟩, ⟨second, .failDelivery 1⟩, ⟨second, .sendCode true⟩,
      ⟨second, .confirmDelivery 2 true⟩] ++
    List.replicate 9 ⟨second, .join false true⟩

/-- A rejected delivery hands out a fresh budget. -/
theorem rejected_delivery_resets_budget :
    keepsBudget policy .fresh
      (observations exec (.issued (48 * 3600 * second)) rejectionReset) = false := by
  decide

end SiliconIam.Organizations.InvitationCodes
