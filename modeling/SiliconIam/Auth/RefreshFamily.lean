/-
# Auth.RefreshFamily -- one refresh family: rotation, replay and revocation

The rows of one first-party refresh family: its session, the family row, the
rotating refresh tokens and the access tokens of the session.  Every operation
is one transaction that locks or updates the session row, so a run of
operations is a sequence of whole transactions; a refused operation rolls back.

`rotateRefreshToken` consumes the presented token and links it to a replacement;
presenting a consumed token instead revokes the family, every token of it, every
access token of the session and the session (`revokeReplayedFamily`).

Two results carry the module.  `Inv` says that the tokens are one chain, newest
first, in which exactly the older ones are consumed (`Linked`); every step keeps
it (`step_inv`).  `Closed` says that rows only get closed: a family that left
`active` never returns to it and a revoked access token stays revoked
(`step_closes`).  A replay closes the whole family at once.
-/
import SiliconIam.Theory.Runs
import Mathlib.Data.List.Basic

namespace SiliconIam.Auth.RefreshFamily

open SiliconIam.Theory.Runs

set_option autoImplicit false

/-! ## Rows -/

inductive FamilyStatus where
  | active
  | revoked
  | compromised
  | expired
deriving DecidableEq

inductive SessionStatus where
  | active
  | revoked
  | expired
deriving DecidableEq

inductive PrincipalStatus where
  | active
  | suspended
  | deletionPending
  | deleted
deriving DecidableEq

/-- `iam.refresh_tokens`.  Identifiers, digests and times are numbers. -/
structure RefreshToken where
  id : Nat
  digest : Nat
  parent : Option Nat
  replacement : Option Nat
  expiresAt : Nat
  consumedAt : Option Nat
  revokedAt : Option Nat
deriving DecidableEq

/-- `iam.refresh_token_families`. -/
structure Family where
  status : FamilyStatus
  absoluteExpiresAt : Nat
  revokedAt : Option Nat
  compromisedAt : Option Nat
  revocationReason : Option String
deriving DecidableEq

/-- `iam.authentication_sessions`. -/
structure Session where
  status : SessionStatus
  authEpoch : Nat
  lastSeenAt : Nat
  idleExpiresAt : Nat
  absoluteExpiresAt : Nat
  revokedAt : Option Nat
  revocationReason : Option String
  version : Nat
deriving DecidableEq

/-- The columns of `iam.access_tokens` that authentication reads. -/
structure AccessToken where
  id : Nat
  digest : Nat
  subjectAuthEpoch : Nat
  expiresAt : Nat
  revokedAt : Option Nat
  revocationReason : Option String
deriving DecidableEq

structure Principal where
  status : PrincipalStatus
  authEpoch : Nat
deriving DecidableEq

/-- One family with its session.  `subjectResolves` is the subject part of the
lookup's joins: the Carbon is not deleted, or the Silicon, its membership and its
organization are all current. -/
structure State where
  principal : Principal
  subjectResolves : Bool
  session : Session
  family : Family
  tokens : List RefreshToken
  access : List AccessToken
  accessTtl : Nat
deriving DecidableEq

inductive AppError where
  | unauthenticated
  | internal (category : String)
deriving DecidableEq

inductive RefreshResult where
  | rotated (accessId refreshId : Nat)
  | replayRevoked
deriving DecidableEq

/-! ## Writes -/

/-- `COALESCE(stamp, now)`. -/
def coalesce (stamp : Option Nat) (now : Nat) : Option Nat := some (stamp.getD now)

def RefreshToken.revoke (now : Nat) (token : RefreshToken) : RefreshToken :=
  { token with revokedAt := coalesce token.revokedAt now }

def AccessToken.revoke (now : Nat) (reason : String) (token : AccessToken) : AccessToken :=
  { token with
    revokedAt := coalesce token.revokedAt now
    revocationReason := some (token.revocationReason.getD reason) }

/-- `UPDATE … WHERE status <> 'compromised'`. -/
def Family.compromise (now : Nat) (family : Family) : Family :=
  if family.status ≠ .compromised then
    { family with
      status := .compromised
      compromisedAt := coalesce family.compromisedAt now
      revocationReason := some "refresh_replay" }
  else family

/-- `UPDATE … WHERE status = 'active'`. -/
def Family.revoke (now : Nat) (reason : String) (family : Family) : Family :=
  if family.status = .active then
    { family with status := .revoked, revokedAt := some now, revocationReason := some reason }
  else family

def revokeReplayedFamily (s : State) (now : Nat) : State :=
  { s with
    family := s.family.compromise now
    tokens := s.tokens.map (RefreshToken.revoke now)
    access := s.access.map (AccessToken.revoke now "refresh_replay")
    session := { s.session with
      status := .revoked
      revokedAt := coalesce s.session.revokedAt now
      revocationReason := some "refresh_replay"
      version := s.session.version + 1 } }

def revokeSessionTokenAuthority (s : State) (now : Nat) (reason : String) : State :=
  { s with
    family := s.family.revoke now reason
    tokens := s.tokens.map (RefreshToken.revoke now)
    access := s.access.map (AccessToken.revoke now reason) }

/-- The identifiers and digests a rotation draws, one pair a token. -/
structure Fresh where
  accessId : Nat
  accessDigest : Nat
  refreshId : Nat
  refreshDigest : Nat
deriving DecidableEq

/-- The unique keys of `iam.access_tokens`. -/
def accessKeysFree (s : State) (fresh : Fresh) : Bool :=
  s.access.all fun token => token.id != fresh.accessId && token.digest != fresh.accessDigest

/-- The unique keys of `iam.refresh_tokens`, the parent link among them. -/
def refreshKeysFree (s : State) (fresh : Fresh) (parent : Nat) : Bool :=
  s.tokens.all fun token =>
    token.id != fresh.refreshId && token.digest != fresh.refreshDigest &&
      token.parent != some parent && token.replacement != some fresh.refreshId

def consume (now parent replacement : Nat) (token : RefreshToken) : RefreshToken :=
  if token.id = parent ∧ token.consumedAt = none ∧ token.replacement = none then
    { token with consumedAt := some now, replacement := some replacement }
  else token

/-- The rows the conditional parent update matches. -/
def consumable (parent : Nat) (tokens : List RefreshToken) : List RefreshToken :=
  tokens.filter fun token =>
    token.id = parent && token.consumedAt.isNone && token.replacement.isNone

def insertTokenPairWithId (s : State) (now parent : Nat) (fresh : Fresh) : Except AppError State :=
  if !accessKeysFree s fresh then .error (.internal "access_token_create")
  else if !refreshKeysFree s fresh parent then .error (.internal "refresh_token_create")
  else if (consumable parent s.tokens).length ≠ 1 then .error .unauthenticated
  else .ok { s with
    access :=
      { id := fresh.accessId
        digest := fresh.accessDigest
        subjectAuthEpoch := s.principal.authEpoch
        expiresAt := min (now + s.accessTtl) s.family.absoluteExpiresAt
        revokedAt := none
        revocationReason := none } :: s.access
    tokens :=
      { id := fresh.refreshId
        digest := fresh.refreshDigest
        parent := some parent
        replacement := none
        expiresAt := s.family.absoluteExpiresAt
        consumedAt := none
        revokedAt := none } :: s.tokens.map (consume now parent fresh.refreshId) }

/-- `SESSION_REFRESH_TOUCH_QUERY`: no row, no version, and the transaction fails. -/
def touchSession (s : State) (now : Nat) : Except AppError State :=
  if s.session.status = .active then
    .ok { s with session := { s.session with
      lastSeenAt := now
      idleExpiresAt := s.session.absoluteExpiresAt
      version := s.session.version + 1 } }
  else .error (.internal "session_refresh_touch")

/-- The `active` column of the lookup. -/
def rowActive (s : State) (now : Nat) (row : RefreshToken) : Bool :=
  row.revokedAt.isNone && now < row.expiresAt &&
    s.family.status = .active && now < s.family.absoluteExpiresAt &&
    s.session.status = .active && now < s.session.idleExpiresAt &&
    now < s.session.absoluteExpiresAt && s.principal.status = .active &&
    s.session.authEpoch = s.principal.authEpoch

/-- `rotate_refresh_token` on the row its digest selected. -/
def rotateRow (s : State) (now : Nat) (row : RefreshToken) (fresh : Fresh) :
    Except AppError (RefreshResult × State) :=
  if !s.subjectResolves then .error .unauthenticated
  else if row.consumedAt.isSome then .ok (.replayRevoked, revokeReplayedFamily s now)
  else if !rowActive s now row then .error .unauthenticated
  else do
    let inserted ← insertTokenPairWithId s now row.id fresh
    let touched ← touchSession inserted now
    pure (.rotated fresh.accessId fresh.refreshId, touched)

def rotateRefreshToken (s : State) (now : Nat) (supplied : List Nat) (fresh : Fresh) :
    Except AppError (RefreshResult × State) :=
  match s.tokens.find? fun token => supplied.contains token.digest with
  | none => .error .unauthenticated
  | some row => rotateRow s now row fresh

/-- `revoke_one` and, for this session, `revoke_all`: nothing unless the session is
active and unexpired. -/
def revokeOne (s : State) (now : Nat) (reason : String) : State :=
  if s.session.status = .active ∧ now < s.session.idleExpiresAt ∧
      now < s.session.absoluteExpiresAt then
    revokeSessionTokenAuthority
      { s with session := { s.session with
        status := .revoked
        revokedAt := some now
        revocationReason := some reason
        version := s.session.version + 1 } } now reason
  else s

/-! ## Events -/

/-- The operations on one family, and what the rest of the system may do to its
rows: another flow issues an access token for the session, or the principal's
status or epoch changes.  Removing the subject also deletes the principal and
ends the session; nothing undoes it. -/
inductive Event where
  | rotate (now : Nat) (supplied : List Nat) (fresh : Fresh)
  | revokeOne (now : Nat) (reason : String)
  | issueAccess (token : AccessToken)
  | principalStatus (status : PrincipalStatus)
  | bumpAuthEpoch
  | removeSubject (now : Nat) (reason : String)

def removeSubject (s : State) (now : Nat) (reason : String) : State :=
  { s with
    subjectResolves := false
    principal := { status := .deleted, authEpoch := s.principal.authEpoch + 1 }
    family := s.family.revoke now reason
    session :=
      if s.session.status = .active then
        { s.session with
          status := .revoked
          revokedAt := some now
          revocationReason := some reason
          version := s.session.version + 1 }
      else s.session
    access := s.access.map (AccessToken.revoke now reason) }

def exec (s : State) : Event → State
  | .rotate now supplied fresh =>
      match rotateRefreshToken s now supplied fresh with
      | .ok (_, committed) => committed
      | .error _ => s
  | .revokeOne now reason => revokeOne s now reason
  | .issueAccess token =>
      if s.access.all fun other => other.id != token.id then { s with access := token :: s.access }
      else s
  | .principalStatus status =>
      if s.principal.status = .deleted then s
      else { s with principal := { s.principal with status := status } }
  | .bumpAuthEpoch =>
      { s with principal := { s.principal with authEpoch := s.principal.authEpoch + 1 } }
  | .removeSubject now reason => removeSubject s now reason

abbrev Step (s : State) (event : Event) (t : State) : Prop := exec s event = t

/-- The state right after a login or a Silicon session was issued. -/
structure Issued (s : State) : Prop where
  token : ∃ token, s.tokens = [token] ∧ token.parent = none ∧ token.consumedAt = none ∧
    token.replacement = none
  resolves : s.subjectResolves = true

/-- The conditions of bearer authentication that concern the session and its
subject.  Application and membership conditions only narrow it further. -/
def accessActive (s : State) (now : Nat) (token : AccessToken) : Bool :=
  token.revokedAt.isNone && now < token.expiresAt && s.principal.status = .active &&
    s.principal.authEpoch = token.subjectAuthEpoch && s.session.status = .active &&
    now < s.session.idleExpiresAt && now < s.session.absoluteExpiresAt

/-! ## What one operation does -/

variable {s t : State} {now : Nat} {row : RefreshToken} {fresh : Fresh}

/-- Everything a committed rotation can be. -/
theorem rotateRow_cases
    {result : RefreshResult} (done : rotateRow s now row fresh = .ok (result, t)) :
    s.subjectResolves = true ∧
      ((row.consumedAt.isSome ∧ result = .replayRevoked ∧ t = revokeReplayedFamily s now) ∨
        (row.consumedAt = none ∧ result = .rotated fresh.accessId fresh.refreshId ∧
          rowActive s now row = true ∧
          ∃ inserted, insertTokenPairWithId s now row.id fresh = .ok inserted ∧
            touchSession inserted now = .ok t)) := by
  unfold rotateRow at done
  cases resolves : s.subjectResolves with
  | false => simp [resolves] at done
  | true =>
      refine ⟨rfl, ?_⟩
      simp only [resolves, Bool.not_true, Bool.false_eq_true, if_false] at done
      split at done
      · rename_i consumed
        simp only [Except.ok.injEq, Prod.mk.injEq] at done
        exact .inl ⟨consumed, done.1.symm, done.2.symm⟩
      · rename_i fresh'
        split at done
        · simp at done
        · rename_i active
          refine .inr ⟨by simpa using fresh', ?_⟩
          simp only [bind, Except.bind] at done
          split at done
          · simp at done
          · rename_i inserted own
            split at done
            · simp at done
            · rename_i touched after
              obtain ⟨rfl, rfl⟩ := done
              exact ⟨rfl, by simpa using active, inserted, own, after⟩

theorem rotateRefreshToken_cases {supplied : List Nat}
    {outcome : RefreshResult × State}
    (done : rotateRefreshToken s now supplied fresh = .ok outcome) :
    ∃ row ∈ s.tokens, supplied.contains row.digest = true ∧
      s.tokens.find? (fun token => supplied.contains token.digest) = some row ∧
      rotateRow s now row fresh = .ok outcome := by
  unfold rotateRefreshToken at done
  split at done
  · simp at done
  · rename_i row found
    exact ⟨row, List.mem_of_find?_eq_some found,
      List.find?_some (p := fun token : RefreshToken => supplied.contains token.digest) found, found, done⟩

theorem touchSession_eq_ok (done : touchSession s now = .ok t) :
    s.session.status = .active ∧ t.tokens = s.tokens ∧ t.family = s.family ∧
      t.principal = s.principal ∧ t.subjectResolves = s.subjectResolves ∧
      t.session.status = .active := by
  unfold touchSession at done
  split at done
  · rename_i active
    simp only [Except.ok.injEq] at done
    subst done
    exact ⟨active, rfl, rfl, rfl, rfl, active⟩
  · simp at done

theorem insertTokenPairWithId_eq_ok {parent : Nat}
    (done : insertTokenPairWithId s now parent fresh = .ok t) :
    refreshKeysFree s fresh parent = true ∧ t.family = s.family ∧ t.principal = s.principal ∧
      t.subjectResolves = s.subjectResolves ∧ t.session = s.session ∧
      ∃ token : RefreshToken, token.id = fresh.refreshId ∧ token.parent = some parent ∧
        token.consumedAt = none ∧ token.replacement = none ∧
        t.tokens = token :: s.tokens.map (consume now parent fresh.refreshId) := by
  unfold insertTokenPairWithId at done
  split at done
  · simp at done
  · split at done
    · simp at done
    · rename_i keys
      split at done
      · simp at done
      · simp only [Except.ok.injEq] at done
        subst done
        exact ⟨by simpa using keys, rfl, rfl, rfl, rfl, _, rfl, rfl, rfl, rfl, rfl⟩

/-! ## The chain -/

/-- `token` is the replacement of the first of `older`, which is consumed, and so
on down to the token the family was issued with. -/
def Linked : RefreshToken → List RefreshToken → Prop
  | token, [] => token.parent = none
  | token, previous :: older =>
      token.parent = some previous.id ∧ previous.replacement = some token.id ∧
        previous.consumedAt.isSome ∧ Linked previous older

/-- The family's tokens, newest first, are one chain with an unconsumed head. -/
structure Chain (tokens : List RefreshToken) : Prop where
  linked : ∃ head older, tokens = head :: older ∧ head.consumedAt = none ∧
    head.replacement = none ∧ Linked head older
  distinct : (tokens.map RefreshToken.id).Nodup

theorem Linked.consumed {head : RefreshToken} {older : List RefreshToken}
    (linked : Linked head older) : ∀ token ∈ older, token.consumedAt.isSome := by
  induction older generalizing head with
  | nil => simp
  | cons previous older ih =>
      intro token mem
      rcases List.mem_cons.mp mem with rfl | mem
      · exact linked.2.2.1
      · exact ih linked.2.2.2 token mem

/-- An update that keeps the four link columns keeps the chain. -/
theorem Linked.map {f : RefreshToken → RefreshToken} (id : ∀ t, (f t).id = t.id)
    (parent : ∀ t, (f t).parent = t.parent) (replacement : ∀ t, (f t).replacement = t.replacement)
    (consumed : ∀ t, (f t).consumedAt = t.consumedAt) {head : RefreshToken}
    {older : List RefreshToken} (linked : Linked head older) :
    Linked (f head) (older.map f) := by
  induction older generalizing head with
  | nil =>
      simp only [List.map_nil, Linked, parent] at linked ⊢
      exact linked
  | cons previous older ih =>
      obtain ⟨up, down, done, rest⟩ := linked
      exact ⟨by rw [parent, id, up], by rw [replacement, id, down], by rw [consumed]; exact done,
        ih rest⟩

variable {tokens : List RefreshToken}

theorem Chain.map {f : RefreshToken → RefreshToken} (id : ∀ t, (f t).id = t.id)
    (parent : ∀ t, (f t).parent = t.parent) (replacement : ∀ t, (f t).replacement = t.replacement)
    (consumed : ∀ t, (f t).consumedAt = t.consumedAt)
    (chain : Chain tokens) : Chain (tokens.map f) := by
  obtain ⟨head, older, rfl, unconsumed, unreplaced, linked⟩ := chain.linked
  refine ⟨⟨f head, older.map f, rfl, by rw [consumed, unconsumed], by rw [replacement, unreplaced],
    linked.map id parent replacement consumed⟩, ?_⟩
  have ids : ((head :: older).map f).map RefreshToken.id =
      (head :: older).map RefreshToken.id := by
    rw [List.map_map]
    exact List.map_congr_left fun t _ => id t
  rw [ids]
  exact chain.distinct

theorem Chain.revoke (chain : Chain tokens) (now : Nat) :
    Chain (tokens.map (RefreshToken.revoke now)) :=
  chain.map (f := RefreshToken.revoke now) (fun _ => rfl) (fun _ => rfl) (fun _ => rfl)
    fun _ => rfl

/-- The only unconsumed token of a chain is its head. -/
theorem Chain.unconsumed_eq (chain : Chain tokens)
    {a b : RefreshToken} (ma : a ∈ tokens) (mb : b ∈ tokens) (ca : a.consumedAt = none)
    (cb : b.consumedAt = none) : a = b := by
  obtain ⟨head, older, rfl, -, -, linked⟩ := chain.linked
  have isHead : ∀ t ∈ head :: older, t.consumedAt = none → t = head := by
    intro t mem unconsumed
    rcases List.mem_cons.mp mem with rfl | mem
    · rfl
    · have := linked.consumed t mem
      simp [unconsumed] at this
  rw [isHead a ma ca, isHead b mb cb]

/-- Rotating the head: the older tokens are untouched, because the parent update
only matches unconsumed rows. -/
theorem Chain.rotate (chain : Chain tokens)
    {token : RefreshToken} {replacement : Nat} (mem : row ∈ tokens)
    (unconsumed : row.consumedAt = none) (id : token.id = replacement)
    (parent : token.parent = some row.id) (consumed : token.consumedAt = none)
    (replaced : token.replacement = none)
    (freshId : ∀ t ∈ tokens, t.id ≠ replacement) :
    Chain (token :: tokens.map (consume now row.id replacement)) := by
  obtain ⟨head, older, rfl, headUnconsumed, headUnreplaced, linked⟩ := chain.linked
  have isHead : row = head := chain.unconsumed_eq mem List.mem_cons_self unconsumed headUnconsumed
  subst isHead
  have rest : older.map (consume now row.id replacement) = older := by
    refine (List.map_congr_left fun t inOlder => ?_).trans (List.map_id' older)
    have done := linked.consumed t inOlder
    simp only [consume, ite_eq_right_iff]
    rintro ⟨-, unset, -⟩
    simp [unset] at done
  have first : consume now row.id replacement row =
      { row with consumedAt := some now, replacement := some replacement } := by
    simp [consume, headUnconsumed, headUnreplaced]
  refine ⟨⟨token, _, rfl, consumed, replaced, ?_⟩, ?_⟩
  · rw [List.map_cons, rest, first]
    refine ⟨parent, by rw [id], rfl, ?_⟩
    cases older with
    | nil => exact linked
    | cons previous older => exact linked
  · have ids : ((row :: older).map (consume now row.id replacement)).map RefreshToken.id =
        (row :: older).map RefreshToken.id := by
      rw [List.map_cons, rest, first, List.map_cons, List.map_cons]
    rw [List.map_cons, List.nodup_cons, ids]
    refine ⟨?_, chain.distinct⟩
    rw [id]
    intro clash
    obtain ⟨t, inTokens, same⟩ := List.mem_map.mp clash
    exact freshId t inTokens same

/-! ## The invariant -/

structure Inv (s : State) : Prop where
  chain : Chain s.tokens
  removed : s.subjectResolves = false → s.principal.status = .deleted

theorem issued_inv (issued : Issued s) : Inv s := by
  obtain ⟨token, single, parent, consumed, replaced⟩ := issued.token
  refine ⟨⟨⟨token, [], single, consumed, replaced, parent⟩, by simp [single]⟩, fun gone => ?_⟩
  simp [issued.resolves] at gone

theorem rotate_inv
    {result : RefreshResult} (inv : Inv s) (mem : row ∈ s.tokens)
    (done : rotateRow s now row fresh = .ok (result, t)) : Inv t := by
  obtain ⟨resolves, ⟨-, -, rfl⟩ | ⟨unconsumed, -, -, inserted, own, after⟩⟩ := rotateRow_cases done
  · exact ⟨inv.chain.revoke now, inv.removed⟩
  · obtain ⟨keys, -, -, subject, -, token, id, parent, consumed, replaced, tokens⟩ :=
      insertTokenPairWithId_eq_ok own
    obtain ⟨-, sameTokens, -, -, sameSubject, -⟩ := touchSession_eq_ok after
    constructor
    · rw [sameTokens, tokens]
      apply inv.chain.rotate mem unconsumed id parent consumed replaced
      intro other inTokens clash
      have free := List.all_eq_true.mp keys other inTokens
      simp [clash] at free
    · intro gone
      rw [sameSubject, subject, resolves] at gone
      simp at gone

/-- **Every operation keeps the chain.** -/
theorem step_inv (s : State) (event : Event) (t : State) (inv : Inv s) (step : Step s event t) :
    Inv t := by
  subst step
  cases event with
  | rotate now supplied fresh =>
      simp only [exec]
      split
      · rename_i result committed done
        obtain ⟨row, mem, -, -, rotated⟩ := rotateRefreshToken_cases done
        exact rotate_inv inv mem rotated
      · exact inv
  | revokeOne now reason =>
      simp only [exec, revokeOne]
      split
      · exact ⟨inv.chain.revoke now, inv.removed⟩
      · exact inv
  | issueAccess token =>
      simp only [exec]
      split <;> exact ⟨inv.chain, inv.removed⟩
  | principalStatus status =>
      simp only [exec]
      split
      · exact inv
      · rename_i alive
        exact ⟨inv.chain, fun gone => absurd (inv.removed gone) alive⟩
  | bumpAuthEpoch => exact ⟨inv.chain, inv.removed⟩
  | removeSubject now reason => exact ⟨inv.chain, fun _ => rfl⟩

theorem run_inv {events : List Event} (issued : Issued s)
    (run : Run Step s events t) : Inv t :=
  run.invariant step_inv (issued_inv issued)

/-! ## Closed families stay closed -/

/-- Neither rotation nor authentication can succeed any more: the family and the
session left `active`, or the subject was removed. -/
def Ended (s : State) : Prop :=
  (s.family.status ≠ .active ∧ s.session.status ≠ .active) ∨
    (s.subjectResolves = false ∧ s.principal.status = .deleted)

theorem rotated_active
    {accessId refreshId : Nat}
    (done : rotateRow s now row fresh = .ok (.rotated accessId refreshId, t)) :
    s.subjectResolves = true ∧ s.family.status = .active := by
  obtain ⟨resolves, ⟨-, other, -⟩ | ⟨-, -, active, -⟩⟩ := rotateRow_cases done
  · simp at other
  · simp only [rowActive, Bool.and_eq_true, decide_eq_true_eq] at active
    exact ⟨resolves, active.1.1.1.1.1.1.2⟩

/-- Nothing rotates in an ended family. -/
theorem ended_no_rotation (ended : Ended s) {supplied : List Nat} {accessId refreshId : Nat} :
    rotateRefreshToken s now supplied fresh ≠ .ok (.rotated accessId refreshId, t) := by
  intro done
  obtain ⟨row, -, -, -, rotated⟩ := rotateRefreshToken_cases done
  obtain ⟨resolves, active⟩ := rotated_active rotated
  rcases ended with ⟨family, -⟩ | ⟨gone, -⟩
  · exact family active
  · simp [resolves] at gone

/-- No access token of an ended session authenticates. -/
theorem ended_no_access (ended : Ended s) (now : Nat) (token : AccessToken) :
    accessActive s now token = false := by
  rw [Bool.eq_false_iff]
  intro active
  simp only [accessActive, Bool.and_eq_true, decide_eq_true_eq] at active
  rcases ended with ⟨-, session⟩ | ⟨-, deleted⟩
  · exact session active.1.1.2
  · rw [deleted] at active
    exact absurd active.1.1.1.1.2 (by decide)

theorem compromise_not_active (now : Nat) (family : Family) :
    (family.compromise now).status ≠ .active := by
  unfold Family.compromise
  split
  · simp
  · rename_i compromised
    simp only [ne_eq, not_not] at compromised
    simp [compromised]

theorem step_ended (s : State) (event : Event) (t : State) (ended : Ended s)
    (step : Step s event t) : Ended t := by
  subst step
  cases event with
  | rotate now supplied fresh =>
      simp only [exec]
      split
      · rename_i result committed done
        obtain ⟨row, -, -, -, rotated⟩ := rotateRefreshToken_cases done
        obtain ⟨resolves, ⟨-, -, rfl⟩ | ⟨-, rfl, -, -⟩⟩ := rotateRow_cases rotated
        · exact .inl ⟨compromise_not_active now s.family, by simp [revokeReplayedFamily]⟩
        · exact absurd done (ended_no_rotation ended)
      · exact ended
  | revokeOne now reason =>
      simp only [exec, revokeOne]
      split
      · rename_i active
        rcases ended with ⟨-, session⟩ | gone
        · exact absurd active.1 session
        · exact .inr gone
      · exact ended
  | issueAccess token =>
      simp only [exec]
      split <;> exact ended
  | principalStatus status =>
      simp only [exec]
      split
      · exact ended
      · rename_i alive
        exact ended.imp id fun gone => absurd gone.2 alive
  | bumpAuthEpoch => exact ended
  | removeSubject now reason => exact .inr ⟨rfl, rfl⟩

theorem run_ended {events : List Event} (run : Run Step s events t)
    (ended : Ended s) : Ended t :=
  run.invariant step_ended ended

/-- Presenting a consumed token ends the family: by the replay revocation, or
because its subject is already gone. -/
theorem replay_ends (inv : Inv s) {supplied : List Nat}
    (presented : s.tokens.find? (fun token => supplied.contains token.digest) = some row)
    (consumed : row.consumedAt.isSome) : Ended (exec s (.rotate now supplied fresh)) := by
  simp only [exec, rotateRefreshToken, presented, rotateRow]
  cases resolves : s.subjectResolves with
  | false => exact .inr ⟨resolves, inv.removed resolves⟩
  | true =>
      simp only [Bool.not_true, Bool.false_eq_true, if_false, consumed, if_true]
      exact .inl ⟨compromise_not_active now s.family, by simp [revokeReplayedFamily]⟩

/-! ## The family over whole runs -/

/-- Neither consumed nor revoked. -/
def Live (token : RefreshToken) : Prop := token.consumedAt = none ∧ token.revokedAt = none

/-- **One chain, and a replay ends it.**  In every run from an issued session the
tokens are a single chain with at most one live token; and from a step that
presents a consumed token on, nothing of the family rotates and no access token
of the session is active, whatever runs afterwards. -/
theorem refresh_family_safe (start s : State) (events : List Event) (issued : Issued start)
    (run : Run Step start events s) :
    Chain s.tokens ∧
      (∀ a ∈ s.tokens, ∀ b ∈ s.tokens, Live a → Live b → a = b) ∧
      ∀ (now : Nat) (supplied : List Nat) (fresh : Fresh) (row : RefreshToken) (u : State)
        (later : List Event),
        s.tokens.find? (fun token => supplied.contains token.digest) = some row →
        row.consumedAt.isSome →
        Run Step (exec s (.rotate now supplied fresh)) later u →
        (∀ now' supplied' fresh' accessId refreshId v,
          rotateRefreshToken u now' supplied' fresh' ≠ .ok (.rotated accessId refreshId, v)) ∧
        ∀ now' token, accessActive u now' token = false := by
  have inv := run_inv issued run
  refine ⟨inv.chain, fun a ma b mb la lb => inv.chain.unconsumed_eq ma mb la.1 lb.1, ?_⟩
  intro now supplied fresh row u later presented consumed after
  have ended := run_ended after (replay_ends inv presented consumed)
  exact ⟨fun _ _ _ _ _ _ => ended_no_rotation ended, fun now' token => ended_no_access ended now' token⟩

/-! ## Poles -/

def issuedState : State where
  principal := { status := .active, authEpoch := 1 }
  subjectResolves := true
  session :=
    { status := .active, authEpoch := 1, lastSeenAt := 0, idleExpiresAt := 100
      absoluteExpiresAt := 100, revokedAt := none, revocationReason := none, version := 1 }
  family :=
    { status := .active, absoluteExpiresAt := 100, revokedAt := none, compromisedAt := none
      revocationReason := none }
  tokens :=
    [{ id := 0, digest := 10, parent := none, replacement := none, expiresAt := 100
       consumedAt := none, revokedAt := none }]
  access :=
    [{ id := 0, digest := 10, subjectAuthEpoch := 1, expiresAt := 15, revokedAt := none
       revocationReason := none }]
  accessTtl := 15

/-- The identifiers of the `n`th rotation. -/
def freshPair (n : Nat) : Fresh where
  accessId := n
  accessDigest := n + 10
  refreshId := n
  refreshDigest := n + 10

/-- Two rotations by the client, then the first token once more: the thief's
replay ends the family, and the client's current token is refused with it. -/
theorem refresh_family_safe_replay :
    let rotated := exec (exec issuedState (.rotate 1 [10] (freshPair 1))) (.rotate 2 [11] (freshPair 2))
    rotated.tokens.map RefreshToken.id = [2, 1, 0] ∧
      rotateRefreshToken (exec rotated (.rotate 3 [10] (freshPair 3))) 4 [12] (freshPair 4) ≠
        .ok (.rotated 4 4, rotated) := by
  intro rotated
  have issued : Issued issuedState := ⟨⟨_, rfl, rfl, rfl, rfl⟩, rfl⟩
  have run : Run Step issuedState
      [.rotate 1 [10] (freshPair 1), .rotate 2 [11] (freshPair 2)] rotated :=
    .cons rfl (.cons rfl (.nil _))
  obtain ⟨-, -, replay⟩ := refresh_family_safe issuedState rotated _ issued run
  refine ⟨by decide, ?_⟩
  exact (replay 3 [10] (freshPair 3) _ _ [] rfl (by decide) (.nil _)).1 _ _ _ _ _ _

end SiliconIam.Auth.RefreshFamily
