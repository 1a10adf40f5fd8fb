/-
# Auth.SessionRevocation -- who may end a session

The four ways a Carbon ends a session: it revokes one, logs out of the current one
or of all of them, or an application logs it out with an access token.  The rows and
what ending a session does to them are those of `Auth.SessionEnding`, the challenges
of a step-up those of `Auth.StepUp`; here they meet with the assertion that a passed
challenge leaves and a revocation consumes.

Every operation is one serializable transaction, so it is a function of the rows.
What the idempotency record says is an answer in the call (`Claim`), as are the
resources of a step-up that are no sessions.

Times are microseconds, as in `Auth.Otp`; so are the durations of the settings that a
login adds to the clock.
-/
import SiliconIam.Auth.EndedSessions
import SiliconIam.Auth.StepUp
import SiliconIam.Theory.Fallible
import SiliconIam.Theory.References

namespace SiliconIam.Auth.SessionRevocation

open SiliconIam.Theory SiliconIam.Theory.Fallible
open SiliconIam.Auth.Authority

set_option autoImplicit false

/-! ## Rows -/

inductive StepUpAction where
  | accountSessionRevoke
  | accountSessionsRevokeAll
  | applicationClientSecretRotate
  | applicationWebhookSecretRotate
  | applicationWebhookApprove
  | organizationTransferOwnership
  | organizationAuthorizationChange
  | organizationSsoChange
  | organizationSiliconWebhookRedirect
  | siliconRotateToken
  | platformAdminSsoEntitlement
  | platformAdminApplicationReview
deriving DecidableEq

/-- The challenges of one scope supersede each other. -/
structure Scope where
  session : Nat
  carbon : Nat
  purpose : StepUpAction
  resource : Nat
deriving DecidableEq

/-- `iam.step_up_assertions`; a challenge is named by its scope and its number there. -/
structure Assertion where
  id : Nat
  challengeScope : Scope
  challenge : Nat
  session : Nat
  carbon : Nat
  purpose : StepUpAction
  digest : Nat
  assuranceLevel : Nat
  expiresAt : Nat
  consumedAt : Option Nat
deriving DecidableEq

def Assertion.consume (now : Nat) (row : Assertion) : Assertion :=
  { row with consumedAt := some now }

/-- `createdAt` is the column of the session rows. -/
structure World where
  clock : Nat
  db : Db
  createdAt : Nat → Nat
  challenges : Scope → List StepUp.StepUpChallenge
  assertions : Table Assertion.id

/-- The rows of a committed transaction.  A session is created at its timestamp. -/
def World.withDb (w : World) (db : Db) : World :=
  { w with
    db := db
    createdAt := fun id =>
      if w.db.sessions.any fun session => session.id = id then w.createdAt id else w.clock }

/-! ## Answers -/

inductive Refusal where
  | unauthenticated
  | forbidden
  | notFound
  | stepUpRequired
  | preconditionFailed (code : String)
  | validation (field message : String)
  | rateLimited
  | conflict (code : String)
  | internal (category : String)
deriving DecidableEq

inductive Outcome where
  | fresh (status : Nat)
  | replay
deriving DecidableEq

/-- The answer of `idempotency::begin`. -/
inductive Claim where
  | acquired
  | replay
  | refused (refusal : Refusal)

/-- An operation runs for the first request under its key only. -/
def Claim.run (claim : Claim) (w : World) (operation : Except Refusal (Outcome × World)) :
    Except Refusal (Outcome × World) :=
  match claim with
  | .acquired => operation
  | .replay => .ok (.replay, w)
  | .refused refusal => .error refusal

/-- A Carbon's own token: of no application and no organization. -/
def carbonContext (access : AccessContext) : Except Refusal Nat :=
  if access.subject.kind = .carbon ∧ access.audience = "silicon-iam" ∧ access.client = none ∧
      access.organization = none ∧ access.membership = none ∧ "iam.self" ∈ access.scopes then
    .ok access.subject.id
  else .error .forbidden

/-- The principal is active and the session is current at its epoch. -/
def currentFor (now : Nat) (principal : Principal) (session : Session) : Bool :=
  principal.status = .active && session.live now && session.authEpoch = principal.authEpoch

/-- `lock_active_authority` and `lock_current_session`. -/
def currentAuthority (w : World) (carbon session : Nat) : Bool :=
  w.db.principals.any fun principal => principal.id = carbon && principal.kind = .carbon &&
    w.db.sessions.any fun row => row.id = session && row.subject = carbon &&
      row.subjectKind = .carbon && currentFor w.clock principal row

/-! ## Step-up -/

structure Expectation where
  session : Nat
  carbon : Nat
  action : StepUpAction
  resource : Nat

/-- A verified channel. -/
def requiredAssurance : Nat := 2

/-- Five minutes. -/
def assertionTtl : Nat := 300 * Otp.second

/-- The challenge of the assertion is completed, and agrees with it. -/
def challengeCompleted (w : World) (assertion : Assertion) : Bool :=
  assertion.challengeScope.session = assertion.session &&
    assertion.challengeScope.carbon = assertion.carbon &&
    assertion.challengeScope.purpose = assertion.purpose &&
    (w.challenges assertion.challengeScope).any fun c =>
      c.id = assertion.challenge && c.status = .completed

def consumable (w : World) (expected : Expectation) (digest : Nat) (assertion : Assertion) : Bool :=
  assertion.digest = digest && assertion.carbon = expected.carbon &&
    assertion.session = expected.session && assertion.purpose = expected.action &&
    requiredAssurance ≤ assertion.assuranceLevel && assertion.consumedAt.isNone &&
    w.clock < assertion.expiresAt && challengeCompleted w assertion &&
    assertion.challengeScope.resource = expected.resource

/-- `supplied` are the digests of the token under the keys there are. -/
def consume (w : World) (expected : Expectation) (supplied : List Nat) : Except Refusal World := do
  require (currentAuthority w expected.carbon expected.session = true)
    (.preconditionFailed "step_up_invalid")
  let assertion ← orElse
    (supplied.findSome? fun digest => w.assertions.find? (consumable w expected digest))
    (.preconditionFailed "step_up_invalid")
  return { w with
    assertions := w.assertions.update (fun row => row.id = assertion.id)
      (Assertion.consume w.clock) fun _ => rfl }

/-- `bound` is the check of a resource that is no session and no principal. -/
def validateResourceBinding (w : World) (principal : Nat) (action : StepUpAction) (resource : Nat)
    (bound : Except Refusal Unit) : Except Refusal Unit :=
  match action with
  | .accountSessionRevoke =>
      require (w.db.sessions.any (fun session => session.id = resource &&
        session.subject = principal && session.subjectKind = .carbon) = true) .notFound
  | .accountSessionsRevokeAll =>
      require (resource = principal)
        (.validation "resource_id" "must equal the current carbon_id for this action")
  | _ => bound

def World.setChallenges (w : World) (scope : Scope) (rows : List StepUp.StepUpChallenge) : World :=
  { w with challenges := fun other => if other = scope then rows else w.challenges other }

/-- `limit` is the answer of the rate limiter, `contact` that of the contact lookup. -/
def createChallenge (w : World) (access : AccessContext) (claim : Claim)
    (limit : Except Refusal Unit) (action : StepUpAction) (resource : Nat)
    (bound contact : Except Refusal Unit) : Except Refusal (Outcome × World) := do
  let principal ← carbonContext access
  claim.run w do
    limit
    require (currentAuthority w principal access.session = true) .unauthenticated
    validateResourceBinding w principal action resource bound
    contact
    let scope : Scope := ⟨access.session, principal, action, resource⟩
    return (.fresh 201,
      w.setChallenges scope (StepUp.createChallenge w.clock (w.challenges scope)))

/-- The session of a delivered challenge has to be current still. -/
def deliverable (w : World) (scope : Scope) : Bool :=
  w.db.sessions.any fun session => session.id = scope.session && session.subject = scope.carbon &&
    w.db.principals.any fun principal => principal.id = session.subject &&
      principal.kind = .carbon && currentFor w.clock principal session

def confirmDelivery (w : World) (scope : Scope) (challenge : Nat) : World :=
  if deliverable w scope then
    w.setChallenges scope (StepUp.confirmStepUpDelivery w.clock challenge (w.challenges scope))
  else w

def failDelivery (w : World) (scope : Scope) (challenge : Nat) : World :=
  w.setChallenges scope (StepUp.failStepUpDelivery challenge (w.challenges scope))

/-- `token_digest` is unique. -/
def insertAssertion (w : World) (row : Assertion) : Option World :=
  if w.assertions.any fun other => other.digest = row.digest then none
  else (w.assertions.insert row).map fun assertions => { w with assertions := assertions }

/-- Passing a challenge leaves an assertion of its session and purpose. -/
def passChallenge (w : World) (access : AccessContext) (principal : Nat) (scope : Scope)
    (challenge assertion digest : Nat) : Except Refusal (Outcome × World) := do
  let w ← orElse
    (insertAssertion w
      { id := assertion, challengeScope := scope, challenge := challenge
        session := access.session, carbon := principal, purpose := scope.purpose
        digest := digest, assuranceLevel := requiredAssurance
        expiresAt := w.clock + assertionTtl, consumedAt := none })
    (.internal "step_up_assertion_create")
  return (.fresh 200, w)

/-- `correct` is whether the code is the one of the challenge.  A challenge that is
gone or expired is answered without a commit. -/
def verifyChallenge (w : World) (access : AccessContext) (claim : Claim) (scope : Scope)
    (challenge : Nat) (correct : Bool) (assertion digest : Nat) :
    Except Refusal (Outcome × World) := do
  let principal ← carbonContext access
  claim.run w do
    require (currentAuthority w principal access.session = true) .unauthenticated
    if scope.session = access.session ∧ scope.carbon = principal then
      match StepUp.verifyChallenge w.clock challenge correct (w.challenges scope) with
      | (.success, rows) =>
          passChallenge (w.setChallenges scope rows) access principal scope challenge assertion digest
      | (.invalid _, rows) => .ok (.fresh 422, w.setChallenges scope rows)
      | (.rateLimited, _) => .error .rateLimited
      | (_, _) => .ok (.fresh 410, w)
    else .ok (.fresh 410, w)

/-! ## Maturity -/

/-- `SESSION_REVOCATION_MIN_AGE_SECONDS`. -/
def minAge : Nat := 12 * 60 * 60 * Otp.second

def mature (w : World) (session : Session) : Bool := w.createdAt session.id + minAge ≤ w.clock

/-- `MATURE_TARGET_SESSION_QUERY`. -/
def matureTarget (w : World) (principal target : Nat) : Option Bool :=
  (w.db.sessions.find? fun session => session.id = target && session.subject = principal).map
    (mature w)

/-- `MATURE_CURRENT_SESSION_QUERY`. -/
def matureCurrent (w : World) (principal current : Nat) : Option Bool :=
  (w.db.sessions.find? fun session => session.id = current && session.subject = principal &&
    w.db.principals.any fun subject => subject.id = session.subject &&
      subject.kind = session.subjectKind && currentFor w.clock subject session).map (mature w)

/-- The sessions that a logout of all of them ends besides the current one. -/
def otherActiveSessions (w : World) (principal current : Nat) : List Session :=
  w.db.sessions.rows.filter fun session => revocable w.clock principal session &&
    session.id != current

/-- `OTHER_ACTIVE_SESSIONS_MATURITY_QUERY`: `bool_and` of no rows is null. -/
def otherSessionsMature (w : World) (principal current : Nat) : Option Bool :=
  let others := otherActiveSessions w principal current
  if others = [] then none else some (others.all (mature w))

def requireMature (answer : Option Bool) (tooYoung : String) (missing : Refusal) :
    Except Refusal Unit :=
  match answer with
  | some true => .ok ()
  | some false => .error (.preconditionFailed tooYoung)
  | none => .error missing

def requireMatureCurrentSession (w : World) (principal current : Nat) : Except Refusal Unit :=
  requireMature (matureCurrent w principal current) "session_revocation_authority_too_young"
    .unauthenticated

def authorizeSessionRevocation (w : World) (principal current target : Nat) :
    Except Refusal Unit := do
  requireMature (matureTarget w principal target) "session_revocation_target_too_young" .notFound
  if current ≠ target then requireMatureCurrentSession w principal current else .ok ()

/-- Whether there are other sessions to end. -/
def authorizeAllSessionsLogout (w : World) (principal current : Nat) : Except Refusal Bool :=
  match otherSessionsMature w principal current with
  | none => .ok false
  | some false => .error (.preconditionFailed "session_revoke_all_target_too_young")
  | some true => do
      requireMatureCurrentSession w principal current
      return true

/-! ## Revocation -/

def revokeSession (w : World) (access : AccessContext) (claim : Claim)
    (stepUp : Option (List Nat)) (target : Nat) : Except Refusal (Outcome × World) := do
  let principal ← carbonContext access
  claim.run w do
    let supplied ← orElse stepUp .stepUpRequired
    let w ← consume w ⟨access.session, principal, .accountSessionRevoke, target⟩ supplied
    require (w.db.sessions.any (fun session => session.id = target &&
      session.subject = principal && session.subjectKind = .carbon) = true) .notFound
    authorizeSessionRevocation w principal access.session target
    return (.fresh 204, w.withDb (revokeOne w.db w.clock principal target "user_revoked"))

/-! ## Logout -/

inductive LogoutTrigger where
  | firstPartyCarbon
  | application (application accessToken : Nat)
deriving DecidableEq

inductive LogoutCredentialState where
  | active
  | replayOnly
deriving DecidableEq

inductive LogoutMode where
  | currentSession
  | allSessions
deriving DecidableEq

/-- Who logs out: the session of a browser cookie or of a bearer token, as
`LogoutAuthenticated` found it. -/
structure LogoutIdentity where
  principal : Nat
  session : Nat
  trigger : LogoutTrigger
  credentialState : LogoutCredentialState

structure LogoutCommand extends LogoutIdentity where
  claim : Claim
  stepUp : Option (List Nat)
  mode : LogoutMode

def validateLogoutTriggerMode : LogoutTrigger → LogoutMode → Except Refusal Unit
  | .application _ _, .allSessions => .error .forbidden
  | _, _ => .ok ()

/-- A token that is bound to an organization is good while the membership is. -/
def membershipHolds (db : Db) (token : AccessToken) : Bool :=
  match token.organization with
  | none => true
  | some organization => db.directory.memberships.any fun member =>
      member.organization = organization && token.membership = some member.id &&
        member.principal = token.subject && member.principalKind = token.subjectKind &&
        member.active && token.membershipAuthzEpoch = some member.authzEpoch &&
        activeOrganization db organization

/-- `APPLICATION_LOGOUT_AUTHORITY_QUERY`. -/
def applicationLogoutAuthority (w : World) (token session principal application : Nat) : Bool :=
  w.db.access.any fun row => row.id = token && row.tokenClass = .applicationAccess &&
    row.session = session && row.subject = principal && row.subjectKind = .carbon &&
    row.client = some application && row.unexpired w.clock && membershipHolds w.db row &&
    (w.db.sessions.any fun current => current.id = row.session && current.subject = row.subject &&
      current.subjectKind = row.subjectKind && current.authEpoch = row.subjectAuthEpoch &&
      current.live w.clock) &&
    (w.db.principals.any fun subject => subject.id = row.subject && subject.kind = .carbon &&
      subject.status = .active && subject.authEpoch = row.subjectAuthEpoch) &&
    w.db.directory.applications.any fun client => row.client = some client.id &&
      row.audienceApplication = some client.id && client.appId = row.audience && client.verified &&
      client.deletedAt.isNone &&
      w.db.principals.any fun holder => holder.id = client.id && holder.kind = .application &&
        holder.status = .active && row.clientAuthEpoch = some holder.authEpoch

/-- Whether all sessions are ended, and the state with the step-up consumed. -/
def authorizeLogoutScope (w : World) (command : LogoutCommand) : Except Refusal (Bool × World) :=
  match command.mode with
  | .currentSession => .ok (false, w)
  | .allSessions => do
      let others ← authorizeAllSessionsLogout w command.principal command.session
      if others then do
        let supplied ← orElse command.stepUp .stepUpRequired
        let w ← consume w ⟨command.session, command.principal, .accountSessionsRevokeAll,
          command.principal⟩ supplied
        return (true, w)
      else return (false, w)

def applicationAuthority (w : World) (command : LogoutCommand) : Except Refusal Unit :=
  match command.trigger with
  | .firstPartyCarbon => .ok ()
  | .application application token =>
      require (applicationLogoutAuthority w token command.session command.principal application =
        true) .forbidden

def executeLogout (w : World) (command : LogoutCommand) : Except Refusal World := do
  applicationAuthority w command
  let (all, w) ← authorizeLogoutScope w command
  return w.withDb (if all then revokeAll w.db w.clock command.principal
    else revokeOne w.db w.clock command.principal command.session "user_logout")

/-- A credential that is not active anymore only finds what was answered before. -/
def logout (w : World) (command : LogoutCommand) : Except Refusal (Outcome × World) := do
  validateLogoutTriggerMode command.trigger command.mode
  match command.credentialState, command.claim with
  | .replayOnly, .replay => .ok (.replay, w)
  | .replayOnly, .refused refusal => .error refusal
  | .replayOnly, .acquired => .error .unauthenticated
  | .active, claim => claim.run w do
      let w ← executeLogout w command
      return (.fresh 204, w)

/-! ## Runs -/

/-- The composite foreign keys: what is derived from a session is of its subject. -/
structure References (db : Db) : Prop where
  families : Table.Refers (fun family => (family.session, family.subject))
    (fun session => (session.id, session.subject)) db.families db.sessions
  tokens : Table.Refers RefreshToken.family Family.id db.tokens db.families
  access : Table.Refers (fun token => (token.session, token.subject))
    (fun session => (session.id, session.subject)) db.access db.sessions
  requests : Table.Refers (fun request => (request.session, request.subject))
    (fun session => (session.id, session.subject)) db.requests db.sessions
  codes : Table.Refers AuthorizationCode.request AuthorizationRequest.id db.codes db.requests
  consents : Table.Refers (fun consent => (consent.parentSession, consent.subject))
    (fun session => (session.id, session.subject)) db.consents db.sessions
  proofs : Table.Refers (fun proof => (proof.parentAccessToken, proof.subject))
    (fun token => (token.id, token.subject)) db.proofs db.access

/-- `other` is any other transaction, on rows that keep the foreign keys. -/
inductive Act where
  | login (principal : Nat) (fresh : Fresh)
  | siliconLogin (identity : SiliconLoginIdentity) (fresh : Fresh)
  | createChallenge (access : AccessContext) (claim : Claim) (limit : Except Refusal Unit)
      (action : StepUpAction) (resource : Nat) (bound contact : Except Refusal Unit)
  | confirmDelivery (scope : Scope) (challenge : Nat)
  | failDelivery (scope : Scope) (challenge : Nat)
  | verifyChallenge (access : AccessContext) (claim : Claim) (scope : Scope) (challenge : Nat)
      (correct : Bool) (assertion digest : Nat)
  | revokeSession (access : AccessContext) (claim : Claim) (stepUp : Option (List Nat))
      (target : Nat)
  | logout (command : LogoutCommand)
  | other (db : Db) (references : References db)

/-- An operation, and how long after the previous one it runs. -/
structure Event where
  elapsed : Nat
  act : Act

/-- One operation at the time `w.clock`. -/
def act (settings : SecuritySettings) (w : World) : Act → World
  | .login principal fresh =>
      w.withDb (Authority.committed w.db (issueLoginSession w.db settings w.clock principal fresh))
  | .siliconLogin identity fresh =>
      w.withDb (Authority.committed w.db (issueSiliconSession w.db settings w.clock identity fresh))
  | .createChallenge access claim limit action resource bound contact =>
      Fallible.committed w (createChallenge w access claim limit action resource bound contact)
  | .confirmDelivery scope challenge => confirmDelivery w scope challenge
  | .failDelivery scope challenge => failDelivery w scope challenge
  | .verifyChallenge access claim scope challenge correct assertion digest =>
      Fallible.committed w
        (verifyChallenge w access claim scope challenge correct assertion digest)
  | .revokeSession access claim stepUp target =>
      Fallible.committed w (revokeSession w access claim stepUp target)
  | .logout command => Fallible.committed w (logout w command)
  | .other db _ => w.withDb db

def World.advance (w : World) (elapsed : Nat) : World := { w with clock := w.clock + elapsed }

def next (settings : SecuritySettings) (w : World) (e : Event) : World :=
  act settings (w.advance e.elapsed) e.act

end SiliconIam.Auth.SessionRevocation
