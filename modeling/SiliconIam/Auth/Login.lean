/-
# Auth.Login -- the login challenges of one Carbon

A Carbon has a list of challenges, newest first; each has one row per contact
with its own copy of the counter.  `createChallenge` cancels what is pending and
inherits its counter, the provider is called, and `confirmLoginDelivery` or
`failLoginDelivery` records what it answered; `verifyChallenge` judges a code.

The counter of the scope is what the next challenge would inherit (`counter`).
Every operation keeps the budget and every replacement keeps the counter, with
one exception that `FailureSpares` names: a failed delivery cancels its
challenge, and a cancelled challenge is inherited from no more, so what it
carried is gone.
-/
import SiliconIam.Auth.Otp

namespace SiliconIam.Auth.Login

open SiliconIam.Theory.Runs SiliconIam.Theory.AttemptBudget SiliconIam.Auth.Otp

set_option autoImplicit false

/-! ## Rows -/

/-- `iam.login_challenge_channels`. -/
structure LoginChannel where
  kind : ContactChannel
  attempts : AttemptState
  expiresAt : Nat
  consumedAt : Option Nat
  supersededAt : Option Nat

/-- `iam.login_challenges`, with its channels. -/
structure LoginChallenge where
  id : Nat
  status : ChallengeStatus
  deliveryStatus : DeliveryStatus
  expiresAt : Nat
  channels : List LoginChannel

/-- The challenges of one Carbon, newest first, and the time of the last
operation. -/
structure LoginScope where
  clock : Nat
  challenges : List LoginChallenge

def LoginScope.empty : LoginScope where
  clock := 0
  challenges := []

/-- A login by contact reaches that contact; one by handle reaches both. -/
inductive LoginIdentifier where
  | contact (channel : ContactChannel)
  | carbonId

def LoginIdentifier.contacts : LoginIdentifier → List ContactChannel
  | .contact channel => [channel]
  | .carbonId => [.email, .phone]

namespace LoginChannel

def open_ (c : LoginChannel) : Bool := c.consumedAt.isNone && c.supersededAt.isNone

def live (now : Nat) (c : LoginChannel) : Bool := c.open_ && now < c.expiresAt

def usable (now : Nat) (c : LoginChannel) : Bool := c.live now && c.attempts.usable now

def supersede (now : Nat) (c : LoginChannel) : LoginChannel :=
  if c.consumedAt.isNone then { c with supersededAt := some (c.supersededAt.getD now) } else c

def recordFailure (now : Nat) (c : LoginChannel) : LoginChannel :=
  if c.usable now then { c with attempts := c.attempts.fail policy now } else c

def consume (now : Nat) (c : LoginChannel) : LoginChannel :=
  if c.open_ then { c with consumedAt := some now } else c

end LoginChannel

namespace LoginChallenge

def isPending (c : LoginChallenge) : Bool := c.status = .pending

/-- Retired by a replacement. -/
def cancel (now : Nat) (c : LoginChallenge) : LoginChallenge :=
  if c.isPending then
    { c with
      status := .cancelled
      deliveryStatus := if c.deliveryStatus = .pending then .failed else c.deliveryStatus
      channels := c.channels.map (·.supersede now) }
  else c

def confirmDelivery (now : Nat) (c : LoginChallenge) : LoginChallenge :=
  if c.isPending && c.deliveryStatus = .pending && now < c.expiresAt && c.channels.any (·.live now) then
    { c with deliveryStatus := .delivered }
  else c

/-- The channels are retired whatever became of the challenge itself. -/
def failDelivery (now : Nat) (c : LoginChallenge) : LoginChallenge :=
  let c :=
    if c.isPending && c.deliveryStatus = .pending then
      { c with status := .cancelled, deliveryStatus := .failed }
    else c
  { c with channels := c.channels.map (·.supersede now) }

def active (now : Nat) (c : LoginChallenge) : Bool :=
  now < c.expiresAt && c.deliveryStatus = .delivered

def complete (now : Nat) (c : LoginChallenge) : LoginChallenge :=
  { c with
    status := if c.isPending then .completed else c.status
    channels := c.channels.map (·.consume now) }

def recordFailure (now : Nat) (c : LoginChallenge) : LoginChallenge :=
  { c with channels := c.channels.map (·.recordFailure now) }

end LoginChallenge

/-- `WHERE id = …`. -/
def updateById (id : Nat) (f : LoginChallenge → LoginChallenge) (rows : List LoginChallenge) :
    List LoginChallenge :=
  rows.map fun c => if c.id = id then f c else c

/-! ## Operations -/

/-- Retire every pending challenge and compute what its replacement inherits:
only channels that are still live count. -/
def supersedeLoginAttemptScope (now : Nat) (rows : List LoginChallenge) :
    AttemptState × List LoginChallenge :=
  let pending := rows.filter (·.isPending)
  if pending.isEmpty then (.default, rows)
  else
    let attemptRows :=
      ((pending.flatMap (·.channels)).filter (·.live now)).map (·.attempts.normalize now)
    (inheritedAttemptState attemptRows, rows.map (·.cancel now))

def createChallenge (now : Nat) (identifier : LoginIdentifier) (rows : List LoginChallenge) :
    List LoginChallenge :=
  let (attemptState, rows) := supersedeLoginAttemptScope now rows
  { id := rows.length
    status := .pending
    deliveryStatus := .pending
    expiresAt := now + otpTtl
    channels := identifier.contacts.map fun kind =>
      { kind, attempts := attemptState, expiresAt := now + otpTtl, consumedAt := none,
        supersededAt := none } } :: rows

def confirmLoginDelivery (now id : Nat) (rows : List LoginChallenge) : List LoginChallenge :=
  updateById id (·.confirmDelivery now) rows

def failLoginDelivery (now id : Nat) (rows : List LoginChallenge) : List LoginChallenge :=
  updateById id (·.failDelivery now) rows

/-- `matches_` says for which channel the presented code is the right one. -/
def verifyChallenge (now id : Nat) (matches_ : ContactChannel → Bool) (rows : List LoginChallenge) :
    Verdict × List LoginChallenge :=
  match rows.find? (·.id = id) with
  | none => (.unknown, rows)
  | some challenge =>
      if !challenge.isPending || !challenge.active now then (.expired, rows)
      else if challenge.channels.isEmpty then (.unauthenticated, rows)
      else if challenge.channels.any (fun c => c.usable now && matches_ c.kind) then
        (.success, updateById id (·.complete now) rows)
      else if challenge.channels.all (fun c => !c.usable now) then
        -- nothing was compared: every channel is cooling down or gone
        if challenge.channels.any (fun c => c.live now && !c.attempts.usable now) then
          (.rateLimited, rows)
        else (.expired, rows)
      else
        (.invalid (challenge.channels.any fun c => c.usable now && c.attempts.exhausts policy),
          updateById id (·.recordFailure now) rows)

inductive Action where
  | createChallenge (identifier : LoginIdentifier)
  | confirmDelivery (id : Nat)
  | failDelivery (id : Nat)
  | verifyChallenge (id : Nat) (matches_ : ContactChannel → Bool)

/-- One operation, and what is seen of it. -/
def exec (s : LoginScope) (e : Timed Action) : LoginScope × Observation :=
  let now := s.clock + e.elapsed
  match e.action with
  | .createChallenge identifier =>
      (⟨now, createChallenge now identifier s.challenges⟩, .opened now (now + otpTtl))
  | .confirmDelivery id => (⟨now, confirmLoginDelivery now id s.challenges⟩, .silent)
  | .failDelivery id => (⟨now, failLoginDelivery now id s.challenges⟩, .silent)
  | .verifyChallenge id matches_ =>
      let (verdict, rows) := verifyChallenge now id matches_ s.challenges
      (⟨now, rows⟩, verdict.observation now)

def next (s : LoginScope) (e : Timed Action) : LoginScope := (exec s e).1

/-! ## What should hold -/

/-- The failed attempts and the running cooldown of the scope: what the next
challenge would start from. -/
def counter (now : Nat) (s : LoginScope) : AttemptState :=
  (supersedeLoginAttemptScope now s.challenges).1

/-- Replacing, delivering or failing to deliver a challenge neither resets the
failed attempts nor clears a running cooldown. -/
def KeepsCounter (s : LoginScope) (e : Timed Action) : Prop :=
  match e.action with
  | .verifyChallenge _ _ => True
  | _ => counter (s.clock + e.elapsed) (exec s e).1 = counter (s.clock + e.elapsed) s

/-- A failed delivery hits no pending challenge, or one at a time when the
counter is at its start. -/
def FailureSpares (s : LoginScope) (e : Timed Action) : Prop :=
  match e.action with
  | .failDelivery id =>
      (∀ c ∈ s.challenges, c.id = id → c.isPending = false) ∨
        counter (s.clock + e.elapsed) s = .default
  | _ => True

/-! ## The window behind the rows -/

/-- A channel as `createChallenge` inserts it, perhaps superseded since. -/
def row (a : AttemptState) (expiresAt : Nat) (superseded : Option Nat) (kind : ContactChannel) :
    LoginChannel where
  kind := kind
  attempts := a
  expiresAt := expiresAt
  consumedAt := none
  supersededAt := superseded

/-- The window a challenge keeps open: only a pending one with live channels
does, and its channels agree on the counter. -/
inductive Shows : LoginChallenge → Option Window → Prop
  | closed {c : LoginChallenge} (ended : c.isPending = false) : Shows c none
  | live {c : LoginChallenge} {kinds : List ContactChannel} {a : AttemptState}
      (pending : c.isPending = true) (nonempty : kinds ≠ []) (bounded : Bounded policy a)
      (rows : c.channels = kinds.map (row a c.expiresAt none)) :
      Shows c (some ⟨a, c.expiresAt⟩)
  | orphaned {c : LoginChallenge} {kinds : List ContactChannel} {a : AttemptState} {t : Nat}
      (rows : c.channels = kinds.map (row a c.expiresAt (some t))) : Shows c none

/-- Only the newest challenge may still be pending. -/
inductive ShowsAll : List LoginChallenge → Option Window → Prop
  | nil : ShowsAll [] none
  | cons {c : LoginChallenge} {rest : List LoginChallenge} {w : Option Window} (newest : Shows c w)
      (older : ∀ d ∈ rest, d.isPending = false) : ShowsAll (c :: rest) w

/-- What a challenge created now inherits from a window. -/
def carriedFrom (now : Nat) : Option Window → AttemptState
  | some w => if now < w.expiresAt then w.attempts.normalize now else .default
  | none => .default

@[simp] theorem row_live (now expiresAt : Nat) (a : AttemptState) (kind : ContactChannel) :
    (row a expiresAt none kind).live now = decide (now < expiresAt) := rfl

@[simp] theorem row_orphaned (now expiresAt t : Nat) (a : AttemptState) (kind : ContactChannel) :
    (row a expiresAt (some t) kind).live now = false := rfl

theorem row_supersede (now expiresAt : Nat) (a : AttemptState) (superseded : Option Nat)
    (kind : ContactChannel) :
    (row a expiresAt superseded kind).supersede now =
      row a expiresAt (some (superseded.getD now)) kind := by
  simp [row, LoginChannel.supersede]

variable {now : Nat}

theorem row_recordFailure {expiresAt : Nat} {a : AttemptState} (kind : ContactChannel)
    (current : now < expiresAt) (usable : a.usable now = true) :
    (row a expiresAt none kind).recordFailure now = row (a.fail policy now) expiresAt none kind := by
  have usable : (row a expiresAt none kind).usable now = true := by
    simp only [LoginChannel.usable, row_live, current, decide_true, Bool.true_and]
    exact usable
  simp only [LoginChannel.recordFailure, usable, if_true]
  rfl

/-- What the live channels of one challenge pass on. -/
theorem inherited_rows {expiresAt : Nat} {a : AttemptState} {kinds : List ContactChannel}
    (bounded : Bounded policy a) (nonempty : kinds ≠ []) :
    inheritedAttemptState
        (((kinds.map (row a expiresAt none)).filter (·.live now)).map (·.attempts.normalize now)) =
      carriedFrom now (some ⟨a, expiresAt⟩) := by
  cases kinds with
  | nil => exact absurd rfl nonempty
  | cons kind kinds =>
      simp only [carriedFrom]
      by_cases current : now < expiresAt
      · have kept : ((kind :: kinds).map (row a expiresAt none)).filter (·.live now) =
            (kind :: kinds).map (row a expiresAt none) := by
          rw [List.filter_eq_self]
          intro c mem
          obtain ⟨k, -, rfl⟩ := List.mem_map.mp mem
          simp [current]
        have copies : ((kind :: kinds).map (row a expiresAt none)).map (·.attempts.normalize now) =
            List.replicate (kinds.length + 1) (a.normalize now) := by
          rw [List.map_map, List.eq_replicate_iff]
          refine ⟨by simp, fun b mem => ?_⟩
          obtain ⟨k, -, rfl⟩ := List.mem_map.mp mem
          rfl
        rw [kept, copies, if_pos current]
        exact inheritedAttemptState_replicate (bounded.normalize now) kinds.length
      · have dropped : ((kind :: kinds).map (row a expiresAt none)).filter (·.live now) = [] := by
          rw [List.filter_eq_nil_iff]
          intro c mem
          obtain ⟨k, -, rfl⟩ := List.mem_map.mp mem
          simp [current]
        rw [dropped, if_neg current]
        rfl

theorem orphaned_none_live {expiresAt t : Nat} {a : AttemptState}
    {kinds : List ContactChannel} :
    (kinds.map (row a expiresAt (some t))).filter (·.live now) = [] := by
  rw [List.filter_eq_nil_iff]
  intro c mem
  obtain ⟨k, -, rfl⟩ := List.mem_map.mp mem
  simp

theorem older_filter {rest : List LoginChallenge} (older : ∀ d ∈ rest, d.isPending = false) :
    rest.filter (·.isPending) = [] := by
  rw [List.filter_eq_nil_iff]
  intro d mem
  simp [older d mem]

variable {rows : List LoginChallenge} {w : Option Window}

/-- **The counter is what the window carries.** -/
theorem counter_of_shows
    (shown : ShowsAll rows w) : (supersedeLoginAttemptScope now rows).1 = carriedFrom now w := by
  cases shown with
  | nil => rfl
  | @cons c rest w newest older =>
      cases pending : c.isPending with
      | false =>
          have none_pending : (c :: rest).filter (·.isPending) = [] := by
            rw [List.filter_cons, pending, older_filter older]
            rfl
          cases newest with
          | live open_ => rw [open_] at pending; cases pending
          | closed => simp [supersedeLoginAttemptScope, none_pending, carriedFrom]
          | orphaned => simp [supersedeLoginAttemptScope, none_pending, carriedFrom]
      | true =>
          have one_pending : (c :: rest).filter (·.isPending) = [c] := by
            rw [List.filter_cons, pending, older_filter older]
            rfl
          have inherited : (supersedeLoginAttemptScope now (c :: rest)).1 =
              inheritedAttemptState ((c.channels.filter (·.live now)).map
                (·.attempts.normalize now)) := by
            simp [supersedeLoginAttemptScope, one_pending]
          rw [inherited]
          cases newest with
          | closed ended => rw [ended] at pending; cases pending
          | live _ nonempty bounded rows =>
              rw [rows]
              exact inherited_rows bounded nonempty
          | orphaned rows =>
              rw [rows, orphaned_none_live]
              rfl

theorem superseded_ended :
    ∀ d ∈ (supersedeLoginAttemptScope now rows).2, d.isPending = false := by
  intro d mem
  unfold supersedeLoginAttemptScope at mem
  by_cases quiet : (rows.filter (·.isPending)).isEmpty
  · simp only [quiet, if_true] at mem
    rw [List.isEmpty_iff, List.filter_eq_nil_iff] at quiet
    simpa using quiet d mem
  · simp only [quiet] at mem
    obtain ⟨c, -, rfl⟩ := List.mem_map.mp mem
    unfold LoginChallenge.cancel
    split
    · rfl
    · rename_i ended
      simpa using ended

/-! ## What each operation does to the window -/

theorem createChallenge_shows
    (shown : ShowsAll rows w) (bounded : Bounded policy (carriedFrom now w))
    (identifier : LoginIdentifier) :
    ShowsAll (createChallenge now identifier rows) (some ⟨carriedFrom now w, now + otpTtl⟩) := by
  rw [← counter_of_shows shown] at bounded ⊢
  refine .cons (.live rfl ?_ bounded rfl) superseded_ended
  cases identifier <;> simp [LoginIdentifier.contacts]

variable {c : LoginChallenge}

/-- An update of one challenge, when it ends what has ended. -/
theorem ShowsAll.update {id : Nat} {f : LoginChallenge → LoginChallenge}
    {rest : List LoginChallenge}
    (ends : ∀ d, d.isPending = false → (f d).isPending = false)
    (older : ∀ d ∈ rest, d.isPending = false)
    (newest : Shows (if c.id = id then f c else c) w) :
    ShowsAll (updateById id f (c :: rest)) w := by
  refine .cons newest fun d mem => ?_
  obtain ⟨d', held, rfl⟩ := List.mem_map.mp mem
  split
  · exact ends d' (older d' held)
  · exact older d' held

theorem Shows.confirmDelivery
    (shown : Shows c w) : Shows (c.confirmDelivery now) w := by
  unfold LoginChallenge.confirmDelivery
  split
  · cases shown with
    | closed ended => exact .closed ended
    | live pending nonempty bounded rows => exact .live pending nonempty bounded rows
    | orphaned rows => exact .orphaned rows
  · exact shown

theorem confirmDelivery_ends (now : Nat) (d : LoginChallenge) (ended : d.isPending = false) :
    (d.confirmDelivery now).isPending = false := by
  simp [LoginChallenge.confirmDelivery, ended]

theorem failDelivery_ends (now : Nat) (d : LoginChallenge) (ended : d.isPending = false) :
    (d.failDelivery now).isPending = false := by
  simp only [LoginChallenge.failDelivery, ended, Bool.false_and]
  exact ended

theorem failDelivery_expiresAt (now : Nat) (c : LoginChallenge) :
    (c.failDelivery now).expiresAt = c.expiresAt := by
  unfold LoginChallenge.failDelivery
  split <;> rfl

theorem failDelivery_channels (now : Nat) (c : LoginChallenge) :
    (c.failDelivery now).channels = c.channels.map (·.supersede now) := by
  unfold LoginChallenge.failDelivery
  split <;> rfl

theorem failDelivery_rows {kinds : List ContactChannel}
    {a : AttemptState} {superseded : Option Nat}
    (rows : c.channels = kinds.map (row a c.expiresAt superseded)) :
    (c.failDelivery now).channels =
      kinds.map (row a (c.failDelivery now).expiresAt (some (superseded.getD now))) := by
  rw [failDelivery_channels, failDelivery_expiresAt, rows, List.map_map]
  exact List.map_congr_left fun kind _ => row_supersede now c.expiresAt a superseded kind

/-- After a failed delivery no window is left. -/
theorem Shows.failDelivery
    (shown : Shows c w) : Shows (c.failDelivery now) none := by
  cases shown with
  | closed ended => exact .closed (failDelivery_ends now c ended)
  | live pending nonempty bounded rows => exact .orphaned (failDelivery_rows rows)
  | orphaned rows => exact .orphaned (failDelivery_rows rows)

theorem complete_ends (now : Nat) (d : LoginChallenge) (ended : d.isPending = false) :
    (d.complete now).isPending = false := by
  simp only [LoginChallenge.complete, ended]
  exact ended

theorem Shows.complete (now : Nat) (c : LoginChallenge) : Shows (c.complete now) none := by
  refine .closed ?_
  cases pending : c.isPending with
  | false => exact complete_ends now c pending
  | true =>
      simp only [LoginChallenge.complete, pending, if_true]
      rfl

theorem Shows.recordFailure {v : Window}
    (shown : Shows c (some v)) (current : now < v.expiresAt) (usable : v.attempts.usable now = true) :
    Shows (c.recordFailure now) (some { v with attempts := v.attempts.fail policy now }) := by
  cases shown with
  | @live kinds a pending nonempty bounded rows =>
      have recorded : (c.recordFailure now).channels =
          kinds.map (row (a.fail policy now) c.expiresAt none) := by
        show c.channels.map (·.recordFailure now) = _
        rw [rows, List.map_map]
        exact List.map_congr_left fun kind _ => row_recordFailure kind current usable
      exact .live (c := c.recordFailure now) pending nonempty (bounded_fail a now) recorded

/-- A pending challenge that is found is the newest. -/
theorem pending_is_newest {id : Nat}
    {challenge : LoginChallenge} (shown : ShowsAll rows w)
    (found : rows.find? (·.id = id) = some challenge) (pending : challenge.isPending = true) :
    ∃ rest, rows = challenge :: rest ∧ challenge.id = id ∧ Shows challenge w ∧
      ∀ d ∈ rest, d.isPending = false := by
  have same : challenge.id = id := by simpa using List.find?_some found
  cases shown with
  | nil => cases found
  | @cons c rest w newest older =>
      rcases List.mem_cons.mp (List.mem_of_find?_eq_some found) with rfl | old
      · exact ⟨rest, rfl, same, newest, older⟩
      · rw [older challenge old] at pending
        cases pending

theorem row_usable {expiresAt : Nat} (a : AttemptState) (kind : ContactChannel)
    (current : now < expiresAt) :
    (row a expiresAt none kind).usable now = a.usable now := by
  simp only [LoginChannel.usable, row_live, current, decide_true, Bool.true_and]
  rfl

/-- What a verification does, seen at the window: it compares nothing, or a guess
is judged against a usable counter. -/
theorem verifyChallenge_cases (now id : Nat) (matches_ : ContactChannel → Bool) (shown : ShowsAll rows w) :
    ((verifyChallenge now id matches_ rows).1.observation now = .silent ∧
        (verifyChallenge now id matches_ rows).2 = rows) ∨
      ∃ v, w = some v ∧ v.attempts.usable now = true ∧
        (((verifyChallenge now id matches_ rows).1 = .success ∧
            ShowsAll (verifyChallenge now id matches_ rows).2 none) ∨
          ((verifyChallenge now id matches_ rows).1 = .invalid (v.attempts.exhausts policy) ∧
            ShowsAll (verifyChallenge now id matches_ rows).2
              (some { v with attempts := v.attempts.fail policy now }))) := by
  unfold verifyChallenge
  cases found : rows.find? (·.id = id) with
  | none => exact .inl ⟨rfl, rfl⟩
  | some challenge =>
      dsimp only
      by_cases inactive : (!challenge.isPending || !challenge.active now) = true
      · rw [if_pos inactive]
        exact .inl ⟨rfl, rfl⟩
      rw [if_neg inactive]
      simp only [Bool.or_eq_true, Bool.not_eq_true', not_or, Bool.not_eq_false] at inactive
      obtain ⟨pending, active⟩ := inactive
      by_cases bare : challenge.channels.isEmpty = true
      · rw [if_pos bare]
        exact .inl ⟨rfl, rfl⟩
      rw [if_neg bare]
      obtain ⟨rest, rfl, same, newest, older⟩ := pending_is_newest shown found pending
      -- a channel that is not usable compares nothing
      have silent (idle : ∀ c ∈ challenge.channels, c.usable now = false) :
          challenge.channels.any (fun c => c.usable now && matches_ c.kind) = false ∧
            challenge.channels.all (fun c => !c.usable now) = true := by
        constructor
        · rw [List.any_eq_false]
          intro c mem
          simp [idle c mem]
        · rw [List.all_eq_true]
          intro c mem
          simp [idle c mem]
      cases newest with
      | closed ended => rw [ended] at pending; cases pending
      | @orphaned kinds a t rows =>
          obtain ⟨noMatch, idle⟩ := silent (by
            intro c mem
            rw [rows] at mem
            obtain ⟨k, -, rfl⟩ := List.mem_map.mp mem
            simp [LoginChannel.usable])
          left
          rw [if_neg (by simp [noMatch]), if_pos idle]
          split <;> exact ⟨rfl, rfl⟩
      | @live kinds a _ nonempty bounded rows =>
          have current : now < challenge.expiresAt := by
            simp only [LoginChallenge.active, Bool.and_eq_true, decide_eq_true_eq] at active
            exact active.1
          have counters : ∀ c ∈ challenge.channels,
              c.usable now = a.usable now ∧ c.attempts = a := by
            intro c mem
            rw [rows] at mem
            obtain ⟨k, -, rfl⟩ := List.mem_map.mp mem
            exact ⟨row_usable a k current, rfl⟩
          cases usable : a.usable now with
          | false =>
              obtain ⟨noMatch, idle⟩ := silent fun c mem => (counters c mem).1.trans usable
              left
              rw [if_neg (by simp [noMatch]), if_pos idle]
              split <;> exact ⟨rfl, rfl⟩
          | true =>
              right
              refine ⟨_, rfl, usable, ?_⟩
              by_cases correct : challenge.channels.any (fun c => c.usable now && matches_ c.kind) = true
              · rw [if_pos correct]
                refine .inl ⟨rfl, .update (complete_ends now) older ?_⟩
                rw [if_pos same]
                exact .complete now challenge
              · obtain ⟨c, mem⟩ : ∃ c, c ∈ challenge.channels := by
                  rw [rows]
                  obtain ⟨k, mem⟩ := List.exists_mem_of_ne_nil kinds nonempty
                  exact ⟨_, List.mem_map_of_mem mem⟩
                have busy : ¬ challenge.channels.all (fun c => !c.usable now) = true := by
                  rw [List.all_eq_true]
                  intro idle
                  simpa [(counters c mem).1, usable] using idle c mem
                have exhausted : challenge.channels.any
                    (fun c => c.usable now && c.attempts.exhausts policy) = a.exhausts policy := by
                  rw [Bool.eq_iff_iff, List.any_eq_true]
                  constructor
                  · rintro ⟨d, held, last⟩
                    simpa [(counters d held).1, (counters d held).2, usable] using last
                  · intro last
                    exact ⟨c, mem, by simp [(counters c mem).1, (counters c mem).2, usable, last]⟩
                rw [if_neg correct, if_neg busy]
                refine .inr ⟨by rw [exhausted], .update (fun d ended => ended) older ?_⟩
                rw [if_pos same]
                exact .recordFailure (.live pending nonempty bounded rows) current usable

/-! ## The scope keeps the budget -/

structure Sim (s : LoginScope) (x : Scope) : Prop where
  clock : x.clock = s.clock
  shown : ShowsAll s.challenges x.window

theorem sim_empty : Sim .empty ⟨0, none⟩ := ⟨rfl, .nil⟩

theorem Sim.counter {s : LoginScope} {x : Scope} (sim : Sim s x) (now : Nat) :
    counter now s = carriedFrom now x.window := counter_of_shows sim.shown

theorem ShowsAll.bounded
    (shown : ShowsAll rows w) (now : Nat) : Bounded policy (carriedFrom now w) := by
  cases shown with
  | nil => exact bounded_default
  | cons newest older =>
      cases newest with
      | closed => exact bounded_default
      | orphaned => exact bounded_default
      | live _ _ bounded _ =>
          unfold carriedFrom
          dsimp only
          split
          · exact bounded.normalize now
          · exact bounded_default

/-- A replacement opens a window with what the old one carries. -/
theorem open_matched {x : Scope} {until_ : Nat} (later : x.clock ≤ now) :
    Step policy x (.opened now until_) ⟨now, some ⟨carriedFrom now x.window, until_⟩⟩ := by
  cases held : x.window with
  | none => exact .openFresh later (fun w current => by rw [held] at current; cases current)
  | some w =>
      by_cases current : now < w.expiresAt
      · simp only [carriedFrom, if_pos current]
        exact .openCarried later held
      · simp only [carriedFrom, if_neg current]
        refine .openFresh later fun v same => ?_
        rw [held, Option.some.injEq] at same
        subst same
        exact Nat.not_lt.mp current

/-- A failed delivery hits the window's challenge only when the window carries
nothing. -/
theorem fail_matched {s : LoginScope} {x : Scope} {id : Nat} (sim : Sim s x)
    (later : x.clock ≤ now)
    (spares : (∀ c ∈ s.challenges, c.id = id → c.isPending = false) ∨ counter now s = .default) :
    ∃ y, Step policy x .silent y ∧ Sim ⟨now, failLoginDelivery now id s.challenges⟩ y := by
  obtain ⟨clock, shown⟩ := sim
  obtain ⟨at_, window⟩ := x
  obtain ⟨at_', challenges⟩ := s
  cases shown with
  | nil => exact ⟨_, .silent later, rfl, .nil⟩
  | @cons c rest w newest older =>
      by_cases same : c.id = id
      · have after : ShowsAll (failLoginDelivery now id (c :: rest)) none := by
          refine .update (failDelivery_ends now) older ?_
          rw [if_pos same]
          exact newest.failDelivery
        cases window with
        | none => exact ⟨_, .silent later, rfl, after⟩
        | some w =>
            refine ⟨⟨now, none⟩, .drop later rfl ?_, rfl, after⟩
            rcases spares with ended | idle
            · have ended := ended c (List.mem_cons_self ..) same
              cases newest with
              | live pending => rw [pending] at ended; cases ended
            · have carried : counter now ⟨at_', c :: rest⟩ = carriedFrom now (some w) :=
                counter_of_shows (.cons newest older)
              rw [carried] at idle
              simp only [carriedFrom] at idle
              by_cases current : now < w.expiresAt
              · rw [if_pos current] at idle
                exact .inr idle
              · exact .inl (Nat.not_lt.mp current)
      · refine ⟨_, .silent later, rfl, .update (failDelivery_ends now) older ?_⟩
        rw [if_neg same]
        exact newest

theorem confirm_shows {id : Nat}
    (shown : ShowsAll rows w) : ShowsAll (confirmLoginDelivery now id rows) w := by
  cases shown with
  | nil => exact .nil
  | @cons c rest w newest older =>
      refine .update (confirmDelivery_ends now) older ?_
      split
      · exact newest.confirmDelivery
      · exact newest

/-- **Every operation is a step of the counter**, unless a failed delivery loses
what its challenge carries. -/
theorem exec_matched (s : LoginScope) (e : Timed Action) (x : Scope) (sim : Sim s x)
    (spares : FailureSpares s e) : ∃ y, Step policy x (exec s e).2 y ∧ Sim (exec s e).1 y := by
  obtain ⟨elapsed, action⟩ := e
  have later : x.clock ≤ s.clock + elapsed := sim.clock ▸ Nat.le_add_right _ _
  cases action with
  | createChallenge identifier =>
      exact ⟨_, open_matched later, rfl,
        createChallenge_shows sim.shown (sim.shown.bounded _) identifier⟩
  | confirmDelivery id => exact ⟨_, .silent later, rfl, confirm_shows sim.shown⟩
  | failDelivery id => exact fail_matched sim later spares
  | verifyChallenge id matches_ =>
      have cases := verifyChallenge_cases (s.clock + elapsed) id matches_ sim.shown
      simp only [exec]
      rcases cases with ⟨silent, kept⟩ | ⟨w, held, usable, judged⟩
      · rw [silent, kept]
        exact ⟨_, .silent later, rfl, sim.shown⟩
      · rcases judged with ⟨verdict, shown⟩ | ⟨verdict, shown⟩
        · rw [verdict]
          exact ⟨_, .success later held usable, rfl, shown⟩
        · rw [verdict]
          exact ⟨_, .wrong later held usable, rfl, shown⟩

/-! ## When the counter is kept -/

theorem carriedFrom_normalize (now : Nat) (w : Option Window) :
    (carriedFrom now w).normalize now = carriedFrom now w := by
  cases w with
  | none => rfl
  | some w =>
      unfold carriedFrom
      dsimp only
      split
      · exact AttemptState.normalize_normalize now w.attempts
      · rfl

theorem carriedFrom_opened (now : Nat) (w : Option Window) :
    carriedFrom now (some ⟨carriedFrom now w, now + otpTtl⟩) = carriedFrom now w := by
  have current : now < now + otpTtl := Nat.lt_add_of_pos_right (by decide)
  show (if now < now + otpTtl then (carriedFrom now w).normalize now else .default) = _
  rw [if_pos current, carriedFrom_normalize]

/-- **An operation keeps the counter exactly when it is not a failed delivery
that loses what its challenge carries.** -/
theorem keepsCounter_iff {s : LoginScope} {x : Scope} (sim : Sim s x) (e : Timed Action) :
    KeepsCounter s e ↔ FailureSpares s e := by
  obtain ⟨elapsed, action⟩ := e
  cases action with
  | verifyChallenge id matches_ => exact Iff.rfl
  | createChallenge identifier =>
      refine iff_of_true ?_ trivial
      have shown := createChallenge_shows sim.shown (sim.shown.bounded (s.clock + elapsed)) identifier
      have after : counter (s.clock + elapsed) (exec s ⟨elapsed, .createChallenge identifier⟩).1 =
          carriedFrom (s.clock + elapsed)
            (some ⟨carriedFrom (s.clock + elapsed) x.window, s.clock + elapsed + otpTtl⟩) :=
        counter_of_shows shown
      show counter _ _ = counter _ _
      rw [after, sim.counter, carriedFrom_opened]
  | confirmDelivery id =>
      refine iff_of_true ?_ trivial
      have after : counter (s.clock + elapsed) (exec s ⟨elapsed, .confirmDelivery id⟩).1 =
          carriedFrom (s.clock + elapsed) x.window := counter_of_shows (confirm_shows sim.shown)
      show counter _ _ = counter _ _
      rw [after, sim.counter]
  | failDelivery id =>
      show counter _ _ = counter _ _ ↔ _ ∨ _
      obtain ⟨at_, challenges⟩ := s
      obtain ⟨-, shown⟩ := sim
      obtain ⟨at_', window⟩ := x
      cases shown with
      | nil => exact iff_of_true rfl (.inl fun c mem => by cases mem)
      | @cons c rest w newest older =>
          by_cases hit : c.id = id ∧ c.isPending = true
          · obtain ⟨same, pending⟩ := hit
            have lost : ShowsAll (failLoginDelivery (at_ + elapsed) id (c :: rest)) none := by
              refine .update (failDelivery_ends _) older ?_
              rw [if_pos same]
              exact newest.failDelivery
            have after : counter (at_ + elapsed) (exec ⟨at_, c :: rest⟩ ⟨elapsed, .failDelivery id⟩).1 =
                .default := counter_of_shows lost
            rw [after]
            constructor
            · exact fun kept => .inr kept.symm
            · rintro (ended | idle)
              · rw [ended c (List.mem_cons_self ..) same] at pending
                cases pending
              · exact idle.symm
          · have missed : ∀ d ∈ c :: rest, d.id = id → d.isPending = false := by
              intro d mem same
              rcases List.mem_cons.mp mem with rfl | old
              · simpa [same] using hit
              · exact older d old
            refine iff_of_true ?_ (.inl missed)
            have kept : ShowsAll (failLoginDelivery (at_ + elapsed) id (c :: rest)) window := by
              refine .update (failDelivery_ends _) older ?_
              split
              · rename_i same
                have ended := missed c (List.mem_cons_self ..) same
                cases newest with
                | live pending => rw [pending] at ended; cases ended
                | closed => exact .closed (failDelivery_ends _ c ended)
                | orphaned => exact .closed (failDelivery_ends _ c ended)
              · exact newest
            have after : counter (at_ + elapsed) (exec ⟨at_, c :: rest⟩ ⟨elapsed, .failDelivery id⟩).1 =
                carriedFrom (at_ + elapsed) window := counter_of_shows kept
            rw [after]
            exact (counter_of_shows (.cons newest older)).symm

/-- **The login budget, exactly.**  A history keeps the budget and loses no
counter if and only if every failed delivery in it spares the counter. -/
theorem login_budget_iff (events : List (Timed Action)) :
    (keepsBudget policy .fresh (observations exec .empty events) = true ∧
        AllSteps next KeepsCounter .empty events) ↔
      AllSteps next FailureSpares .empty events :=
  budget_iff exec_matched (fun _ e _ sim => keepsCounter_iff sim e) sim_empty events

end SiliconIam.Auth.Login
