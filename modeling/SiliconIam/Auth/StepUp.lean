/-
# Auth.StepUp -- the step-up challenges of one session, action and resource

The same protocol as for login with one row per challenge, which holds the
counter itself.  A replacement inherits from every pending challenge, expired or
not, and every operation but a failed delivery needs the session to be current.

`otp_budget_iff` is the result for both kinds of scope.
-/
import SiliconIam.Auth.Login

namespace SiliconIam.Auth.StepUp

open SiliconIam.Theory.Runs SiliconIam.Theory.AttemptBudget SiliconIam.Auth.Otp

set_option autoImplicit false

/-! ## Rows -/

/-- `iam.step_up_challenges`; `attempts` is `attempt_count` and `cooldown_until`. -/
structure StepUpChallenge where
  id : Nat
  status : ChallengeStatus
  deliveryStatus : DeliveryStatus
  expiresAt : Nat
  attempts : AttemptState

/-- The challenges of one session, Carbon, purpose and resource, newest first,
and the time of the last operation. -/
structure StepUpScope where
  clock : Nat
  challenges : List StepUpChallenge

def StepUpScope.empty : StepUpScope where
  clock := 0
  challenges := []

namespace StepUpChallenge

def isPending (c : StepUpChallenge) : Bool := c.status = .pending

def awaitsDelivery (c : StepUpChallenge) : Bool := c.isPending && c.deliveryStatus = .pending

def cancel (c : StepUpChallenge) : StepUpChallenge :=
  if c.isPending then
    { c with
      status := .cancelled
      deliveryStatus := if c.deliveryStatus = .pending then .failed else c.deliveryStatus }
  else c

def confirmDelivery (now : Nat) (c : StepUpChallenge) : StepUpChallenge :=
  if c.awaitsDelivery && now < c.expiresAt then { c with deliveryStatus := .delivered } else c

def failDelivery (c : StepUpChallenge) : StepUpChallenge :=
  if c.awaitsDelivery then { c with status := .cancelled, deliveryStatus := .failed } else c

def active (now : Nat) (c : StepUpChallenge) : Bool :=
  now < c.expiresAt && c.deliveryStatus = .delivered

def coolingDown (now : Nat) (c : StepUpChallenge) : Bool :=
  c.isPending && now < c.expiresAt && !c.attempts.usable now

def complete (now : Nat) (c : StepUpChallenge) : StepUpChallenge :=
  if c.isPending && now < c.expiresAt then { c with status := .completed } else c

def recordFailure (now : Nat) (c : StepUpChallenge) : StepUpChallenge :=
  if c.isPending && now < c.expiresAt && c.attempts.usable now then
    { c with attempts := c.attempts.fail policy now }
  else c

end StepUpChallenge

/-- `WHERE id = …`. -/
def updateById (id : Nat) (f : StepUpChallenge → StepUpChallenge) (rows : List StepUpChallenge) :
    List StepUpChallenge :=
  rows.map fun c => if c.id = id then f c else c

/-! ## Operations -/

/-- What the rows returned by the cancelling update pass on. -/
def inheritedFrom (now : Nat) (rows : List StepUpChallenge) : AttemptState :=
  inheritedAttemptState ((rows.filter (·.isPending)).map (·.attempts.normalize now))

def createChallenge (now : Nat) (rows : List StepUpChallenge) : List StepUpChallenge :=
  { id := rows.length
    status := .pending
    deliveryStatus := .pending
    expiresAt := now + otpTtl
    attempts := inheritedFrom now rows } :: rows.map (·.cancel)

def confirmStepUpDelivery (now id : Nat) (rows : List StepUpChallenge) : List StepUpChallenge :=
  updateById id (·.confirmDelivery now) rows

def failStepUpDelivery (id : Nat) (rows : List StepUpChallenge) : List StepUpChallenge :=
  updateById id (·.failDelivery) rows

def verifyChallenge (now id : Nat) (correct : Bool) (rows : List StepUpChallenge) :
    Verdict × List StepUpChallenge :=
  match rows.find? (·.id = id) with
  | none => (.expired, rows)
  | some challenge =>
      if !challenge.isPending || !challenge.active now then (.expired, rows)
      else if challenge.coolingDown now then (.rateLimited, rows)
      else if correct then (.success, updateById id (·.complete now) rows)
      else
        (.invalid (challenge.attempts.exhausts policy), updateById id (·.recordFailure now) rows)

/-- `sessionCurrent` is the answer of the session lock: an active, unexpired
session at the epoch of its active Carbon. -/
inductive Action where
  | createChallenge (sessionCurrent : Bool)
  | confirmDelivery (id : Nat) (sessionCurrent : Bool)
  | failDelivery (id : Nat)
  | verifyChallenge (id : Nat) (sessionCurrent correct : Bool)

/-- One operation, and what is seen of it. -/
def exec (s : StepUpScope) (e : Timed Action) : StepUpScope × Observation :=
  let now := s.clock + e.elapsed
  match e.action with
  | .createChallenge sessionCurrent =>
      if sessionCurrent then
        (⟨now, createChallenge now s.challenges⟩, .opened now (now + otpTtl))
      else (⟨now, s.challenges⟩, .silent)
  | .confirmDelivery id sessionCurrent =>
      if sessionCurrent then (⟨now, confirmStepUpDelivery now id s.challenges⟩, .silent)
      else (⟨now, s.challenges⟩, .silent)
  | .failDelivery id => (⟨now, failStepUpDelivery id s.challenges⟩, .silent)
  | .verifyChallenge id sessionCurrent correct =>
      if sessionCurrent then
        let (verdict, rows) := verifyChallenge now id correct s.challenges
        (⟨now, rows⟩, verdict.observation now)
      else (⟨now, s.challenges⟩, Verdict.unauthenticated.observation now)

def next (s : StepUpScope) (e : Timed Action) : StepUpScope := (exec s e).1

/-! ## What should hold -/

/-- The failed attempts and the running cooldown of the scope: what the next
challenge would start from. -/
def counter (now : Nat) (s : StepUpScope) : AttemptState := inheritedFrom now s.challenges

/-- Replacing, delivering or failing to deliver a challenge neither resets the
failed attempts nor clears a running cooldown. -/
def KeepsCounter (s : StepUpScope) (e : Timed Action) : Prop :=
  match e.action with
  | .verifyChallenge _ _ _ => True
  | _ => counter (s.clock + e.elapsed) (exec s e).1 = counter (s.clock + e.elapsed) s

/-- A failed delivery hits no challenge that awaits it, or one at a time when
the counter is at its start. -/
def FailureSpares (s : StepUpScope) (e : Timed Action) : Prop :=
  match e.action with
  | .failDelivery id =>
      (∀ c ∈ s.challenges, c.id = id → c.awaitsDelivery = false) ∨
        counter (s.clock + e.elapsed) s = .default
  | _ => True

/-! ## The window behind the rows -/

/-- The window a challenge keeps open: only a pending one does. -/
inductive Shows : StepUpChallenge → Option Window → Prop
  | closed {c : StepUpChallenge} (ended : c.isPending = false) : Shows c none
  | live {c : StepUpChallenge} (pending : c.isPending = true) (bounded : Bounded policy c.attempts) :
      Shows c (some ⟨c.attempts, c.expiresAt⟩)

/-- Only the newest challenge may still be pending. -/
inductive ShowsAll : List StepUpChallenge → Option Window → Prop
  | nil : ShowsAll [] none
  | cons {c : StepUpChallenge} {rest : List StepUpChallenge} {w : Option Window}
      (newest : Shows c w) (older : ∀ d ∈ rest, d.isPending = false) : ShowsAll (c :: rest) w

/-- What a challenge created now inherits from a window. -/
def carriedFrom (now : Nat) : Option Window → AttemptState
  | some w => w.attempts.normalize now
  | none => .default

theorem older_filter {rest : List StepUpChallenge} (older : ∀ d ∈ rest, d.isPending = false) :
    rest.filter (·.isPending) = [] := by
  rw [List.filter_eq_nil_iff]
  intro d mem
  simp [older d mem]

variable {rows : List StepUpChallenge} {w : Option Window}

/-- **The counter is what the window carries.** -/
theorem counter_of_shows {now : Nat}
    (shown : ShowsAll rows w) : inheritedFrom now rows = carriedFrom now w := by
  cases shown with
  | nil => rfl
  | @cons c rest w newest older =>
      unfold inheritedFrom
      cases newest with
      | closed ended =>
          rw [List.filter_cons, ended, older_filter older]
          rfl
      | live pending bounded =>
          rw [List.filter_cons, pending, older_filter older]
          exact inheritedAttemptState_replicate (bounded.normalize now) 0

theorem ShowsAll.bounded
    (shown : ShowsAll rows w) (now : Nat) : Bounded policy (carriedFrom now w) := by
  cases shown with
  | nil => exact bounded_default
  | cons newest older =>
      cases newest with
      | closed => exact bounded_default
      | live _ bounded => exact bounded.normalize now

/-- An update of one challenge, when it ends what has ended. -/
theorem ShowsAll.update {id : Nat} {f : StepUpChallenge → StepUpChallenge} {c : StepUpChallenge}
    {rest : List StepUpChallenge}
    (ends : ∀ d, d.isPending = false → (f d).isPending = false)
    (older : ∀ d ∈ rest, d.isPending = false)
    (newest : Shows (if c.id = id then f c else c) w) :
    ShowsAll (updateById id f (c :: rest)) w := by
  refine .cons newest fun d mem => ?_
  obtain ⟨d', held, rfl⟩ := List.mem_map.mp mem
  split
  · exact ends d' (older d' held)
  · exact older d' held

/-! ## What each operation does to the window -/

theorem cancel_ends (c : StepUpChallenge) : c.cancel.isPending = false := by
  unfold StepUpChallenge.cancel
  split
  · rfl
  · rename_i ended
    simpa using ended

theorem confirmDelivery_ends (now : Nat) (d : StepUpChallenge) (ended : d.isPending = false) :
    (d.confirmDelivery now).isPending = false := by
  simp [StepUpChallenge.confirmDelivery, StepUpChallenge.awaitsDelivery, ended]

theorem failDelivery_ends (d : StepUpChallenge) (ended : d.isPending = false) :
    d.failDelivery.isPending = false := by
  simp [StepUpChallenge.failDelivery, StepUpChallenge.awaitsDelivery, ended]

theorem complete_ends (now : Nat) (d : StepUpChallenge) (ended : d.isPending = false) :
    (d.complete now).isPending = false := by
  simp [StepUpChallenge.complete, ended]

theorem recordFailure_ends (now : Nat) (d : StepUpChallenge) (ended : d.isPending = false) :
    (d.recordFailure now).isPending = false := by
  simp [StepUpChallenge.recordFailure, ended]

theorem createChallenge_shows {now : Nat}
    (shown : ShowsAll rows w) :
    ShowsAll (createChallenge now rows) (some ⟨carriedFrom now w, now + otpTtl⟩) := by
  have bounded := shown.bounded now
  rw [← counter_of_shows shown] at bounded ⊢
  refine .cons (.live rfl bounded) fun d mem => ?_
  obtain ⟨d', -, rfl⟩ := List.mem_map.mp mem
  exact cancel_ends d'

theorem Shows.confirmDelivery {now : Nat} {c : StepUpChallenge}
    (shown : Shows c w) : Shows (c.confirmDelivery now) w := by
  unfold StepUpChallenge.confirmDelivery
  split
  · cases shown with
    | closed ended => exact .closed ended
    | live pending bounded =>
        exact .live (c := { c with deliveryStatus := .delivered }) pending bounded
  · exact shown

theorem confirm_shows {now id : Nat}
    (shown : ShowsAll rows w) : ShowsAll (confirmStepUpDelivery now id rows) w := by
  cases shown with
  | nil => exact .nil
  | @cons c rest w newest older =>
      refine .update (confirmDelivery_ends now) older ?_
      split
      · exact newest.confirmDelivery
      · exact newest

/-- A failed delivery closes the window of the challenge that awaited it, and
touches nothing else. -/
theorem failDelivery_shows (id : Nat)
    (shown : ShowsAll rows w) :
    ((∀ c ∈ rows, c.id = id → c.awaitsDelivery = false) ∧ ShowsAll (failStepUpDelivery id rows) w) ∨
      (w.isSome = true ∧ (∃ c ∈ rows, c.id = id ∧ c.awaitsDelivery = true) ∧
        ShowsAll (failStepUpDelivery id rows) none) := by
  cases shown with
  | nil => exact .inl ⟨fun c mem => (by cases mem), .nil⟩
  | @cons c rest w newest older =>
      have oldMissed : ∀ d ∈ rest, d.awaitsDelivery = false := fun d mem => by
        simp [StepUpChallenge.awaitsDelivery, older d mem]
      by_cases hit : c.id = id ∧ c.awaitsDelivery = true
      · obtain ⟨same, awaits⟩ := hit
        right
        refine ⟨?_, ⟨c, List.mem_cons_self .., same, awaits⟩, .update failDelivery_ends older ?_⟩
        · cases newest with
          | live => rfl
          | closed ended => simp [StepUpChallenge.awaitsDelivery, ended] at awaits
        · rw [if_pos same]
          refine .closed ?_
          simp only [StepUpChallenge.failDelivery, awaits, if_true]
          rfl
      · left
        have missed : c.id = id → c.awaitsDelivery = false := fun same => by
          simpa [same] using hit
        refine ⟨fun d mem same => ?_, .update failDelivery_ends older ?_⟩
        · rcases List.mem_cons.mp mem with rfl | old
          · exact missed same
          · exact oldMissed d old
        · split
          · rename_i same
            simp only [StepUpChallenge.failDelivery, missed same]
            exact newest
          · exact newest

/-- What a verification does, seen at the window: it compares nothing, or a guess
is judged against a usable counter. -/
theorem verifyChallenge_cases (now id : Nat) (correct : Bool) (shown : ShowsAll rows w) :
    ((verifyChallenge now id correct rows).1.observation now = .silent ∧
        (verifyChallenge now id correct rows).2 = rows) ∨
      ∃ v, w = some v ∧ v.attempts.usable now = true ∧
        (((verifyChallenge now id correct rows).1 = .success ∧
            ShowsAll (verifyChallenge now id correct rows).2 none) ∨
          ((verifyChallenge now id correct rows).1 = .invalid (v.attempts.exhausts policy) ∧
            ShowsAll (verifyChallenge now id correct rows).2
              (some { v with attempts := v.attempts.fail policy now }))) := by
  unfold verifyChallenge
  cases found : rows.find? (·.id = id) with
  | none => exact .inl ⟨rfl, rfl⟩
  | some challenge =>
      dsimp only
      by_cases inactive : (!challenge.isPending || !challenge.active now) = true
      · rw [if_pos inactive]
        exact .inl ⟨rfl, rfl⟩
      rw [if_neg inactive]
      simp only [Bool.or_eq_true, Bool.not_eq_true', not_or, Bool.not_eq_false] at inactive
      obtain ⟨pending, active⟩ := inactive
      have current : now < challenge.expiresAt := by
        simp only [StepUpChallenge.active, Bool.and_eq_true, decide_eq_true_eq] at active
        exact active.1
      by_cases cooling : challenge.coolingDown now = true
      · rw [if_pos cooling]
        exact .inl ⟨rfl, rfl⟩
      rw [if_neg cooling]
      have usable : challenge.attempts.usable now = true := by
        simpa [StepUpChallenge.coolingDown, pending, current] using cooling
      have same : challenge.id = id := by simpa using List.find?_some found
      right
      cases shown with
      | nil => cases found
      | @cons c rest w newest older =>
          rcases List.mem_cons.mp (List.mem_of_find?_eq_some found) with rfl | old
          · cases newest with
            | closed ended => rw [ended] at pending; cases pending
            | live _ bounded =>
                refine ⟨_, rfl, usable, ?_⟩
                cases correct with
                | true =>
                    refine .inl ⟨rfl, .update (complete_ends now) older ?_⟩
                    rw [if_pos same]
                    refine .closed ?_
                    simp only [StepUpChallenge.complete, pending, current, decide_true,
                      Bool.and_self, if_true]
                    rfl
                | false =>
                    refine .inr ⟨rfl, .update (recordFailure_ends now) older ?_⟩
                    rw [if_pos same]
                    simp only [StepUpChallenge.recordFailure, pending, current, usable, decide_true,
                      Bool.and_self, if_true]
                    exact .live (c := { challenge with attempts := _ }) pending
                      (bounded_fail challenge.attempts now)
          · rw [older challenge old] at pending
            cases pending

/-! ## The scope keeps the budget -/

structure Sim (s : StepUpScope) (x : Scope) : Prop where
  clock : x.clock = s.clock
  shown : ShowsAll s.challenges x.window

theorem sim_empty : Sim .empty ⟨0, none⟩ := ⟨rfl, .nil⟩

theorem Sim.counter {s : StepUpScope} {x : Scope} (sim : Sim s x) (now : Nat) :
    counter now s = carriedFrom now x.window := counter_of_shows sim.shown

theorem open_matched {x : Scope} {now until_ : Nat} (later : x.clock ≤ now) :
    Step policy x (.opened now until_) ⟨now, some ⟨carriedFrom now x.window, until_⟩⟩ := by
  cases held : x.window with
  | none => exact .openFresh later (fun w current => by rw [held] at current; cases current)
  | some w => exact .openCarried later held

/-- **Every operation is a step of the counter**, unless a failed delivery loses
what its challenge carries. -/
theorem exec_matched (s : StepUpScope) (e : Timed Action) (x : Scope) (sim : Sim s x)
    (spares : FailureSpares s e) : ∃ y, Step policy x (exec s e).2 y ∧ Sim (exec s e).1 y := by
  obtain ⟨elapsed, action⟩ := e
  have later : x.clock ≤ s.clock + elapsed := sim.clock ▸ Nat.le_add_right _ _
  have idle : ∃ y, Step policy x .silent y ∧ Sim ⟨s.clock + elapsed, s.challenges⟩ y :=
    ⟨_, .silent later, rfl, sim.shown⟩
  cases action with
  | createChallenge sessionCurrent =>
      cases sessionCurrent with
      | false => exact idle
      | true => exact ⟨_, open_matched later, rfl, createChallenge_shows sim.shown⟩
  | confirmDelivery id sessionCurrent =>
      cases sessionCurrent with
      | false => exact idle
      | true => exact ⟨_, .silent later, rfl, confirm_shows sim.shown⟩
  | failDelivery id =>
      rcases failDelivery_shows id sim.shown with ⟨-, kept⟩ | ⟨opened, ⟨c, mem, same, awaits⟩, lost⟩
      · exact ⟨_, .silent later, rfl, kept⟩
      · obtain ⟨w, held⟩ := Option.isSome_iff_exists.mp opened
        refine ⟨⟨s.clock + elapsed, none⟩, .drop later held (.inr ?_), rfl, lost⟩
        rcases spares with missed | fresh
        · rw [missed c mem same] at awaits
          cases awaits
        · have carried := sim.counter (s.clock + elapsed)
          rw [held] at carried
          exact carried.symm.trans fresh
  | verifyChallenge id sessionCurrent correct =>
      cases sessionCurrent with
      | false => exact idle
      | true =>
          have cases := verifyChallenge_cases (s.clock + elapsed) id correct sim.shown
          simp only [exec, if_true]
          rcases cases with ⟨silent, kept⟩ | ⟨w, held, usable, judged⟩
          · rw [silent, kept]
            exact idle
          · rcases judged with ⟨verdict, shown⟩ | ⟨verdict, shown⟩
            · rw [verdict]
              exact ⟨_, .success later held usable, rfl, shown⟩
            · rw [verdict]
              exact ⟨_, .wrong later held usable, rfl, shown⟩

/-! ## When the counter is kept -/

theorem carriedFrom_normalize (now : Nat) (w : Option Window) :
    (carriedFrom now w).normalize now = carriedFrom now w := by
  cases w with
  | none => rfl
  | some w => exact AttemptState.normalize_normalize now w.attempts

/-- **An operation keeps the counter exactly when it is not a failed delivery
that loses what its challenge carries.** -/
theorem keepsCounter_iff {s : StepUpScope} {x : Scope} (sim : Sim s x) (e : Timed Action) :
    KeepsCounter s e ↔ FailureSpares s e := by
  obtain ⟨elapsed, action⟩ := e
  have before := sim.counter (s.clock + elapsed)
  cases action with
  | verifyChallenge id sessionCurrent correct => exact Iff.rfl
  | createChallenge sessionCurrent =>
      refine iff_of_true ?_ trivial
      cases sessionCurrent with
      | false => rfl
      | true =>
          have after : counter (s.clock + elapsed) (exec s ⟨elapsed, .createChallenge true⟩).1 =
              (carriedFrom (s.clock + elapsed) x.window).normalize (s.clock + elapsed) :=
            counter_of_shows (createChallenge_shows sim.shown)
          show counter _ _ = counter _ _
          rw [after, before, carriedFrom_normalize]
  | confirmDelivery id sessionCurrent =>
      refine iff_of_true ?_ trivial
      cases sessionCurrent with
      | false => rfl
      | true =>
          show counter _ _ = counter _ _
          rw [before]
          exact counter_of_shows (confirm_shows sim.shown)
  | failDelivery id =>
      show counter _ _ = counter _ _ ↔ _ ∨ _
      rcases failDelivery_shows id sim.shown with ⟨missed, kept⟩ | ⟨-, ⟨c, mem, same, awaits⟩, lost⟩
      · refine iff_of_true ?_ (.inl missed)
        rw [before]
        exact counter_of_shows kept
      · have after : counter (s.clock + elapsed) (exec s ⟨elapsed, .failDelivery id⟩).1 = .default :=
          counter_of_shows lost
        rw [after]
        constructor
        · exact fun kept => .inr kept.symm
        · rintro (missed | fresh)
          · rw [missed c mem same] at awaits
            cases awaits
          · exact fresh.symm

/-- **The step-up budget, exactly.** -/
theorem step_up_budget_iff (events : List (Timed Action)) :
    (keepsBudget policy .fresh (observations exec .empty events) = true ∧
        AllSteps next KeepsCounter .empty events) ↔
      AllSteps next FailureSpares .empty events :=
  budget_iff exec_matched (fun _ e _ sim => keepsCounter_iff sim e) sim_empty events

end SiliconIam.Auth.StepUp

namespace SiliconIam.Auth

open SiliconIam.Theory.Runs SiliconIam.Theory.AttemptBudget SiliconIam.Auth.Otp

/-- **The one-time-code budget, exactly, for both kinds of scope.**  A history
keeps the budget and loses no counter if and only if every failed delivery in it
hits a counter that is at its start. -/
theorem otp_budget_iff (login : List (Timed Login.Action)) (stepUp : List (Timed StepUp.Action)) :
    ((keepsBudget policy .fresh (observations Login.exec .empty login) = true ∧
          AllSteps Login.next Login.KeepsCounter .empty login) ↔
        AllSteps Login.next Login.FailureSpares .empty login) ∧
      ((keepsBudget policy .fresh (observations StepUp.exec .empty stepUp) = true ∧
          AllSteps StepUp.next StepUp.KeepsCounter .empty stepUp) ↔
        AllSteps StepUp.next StepUp.FailureSpares .empty stepUp) :=
  ⟨Login.login_budget_iff login, StepUp.step_up_budget_iff stepUp⟩

/-- Nine wrong codes, a replacement whose delivery fails, another replacement
that is delivered, and two more wrong codes: eleven without a cooldown. -/
def loginReset : List (Timed Login.Action) :=
  [⟨0, .createChallenge (.contact .email)⟩, ⟨second, .confirmDelivery 0⟩] ++
    List.replicate 9 ⟨second, .verifyChallenge 0 fun _ => false⟩ ++
    [⟨second, .createChallenge (.contact .email)⟩, ⟨second, .failDelivery 1⟩,
      ⟨second, .createChallenge (.contact .email)⟩, ⟨second, .confirmDelivery 2⟩] ++
    List.replicate 2 ⟨second, .verifyChallenge 2 fun _ => false⟩

def stepUpReset : List (Timed StepUp.Action) :=
  [⟨0, .createChallenge true⟩, ⟨second, .confirmDelivery 0 true⟩] ++
    List.replicate 9 ⟨second, .verifyChallenge 0 true false⟩ ++
    [⟨second, .createChallenge true⟩, ⟨second, .failDelivery 1⟩,
      ⟨second, .createChallenge true⟩, ⟨second, .confirmDelivery 2 true⟩] ++
    List.replicate 2 ⟨second, .verifyChallenge 2 true false⟩

/-- A failed delivery hands out a fresh budget. -/
theorem failed_delivery_resets_budget :
    keepsBudget policy .fresh (observations Login.exec .empty loginReset) = false ∧
      keepsBudget policy .fresh (observations StepUp.exec .empty stepUpReset) = false := by
  decide

end SiliconIam.Auth
