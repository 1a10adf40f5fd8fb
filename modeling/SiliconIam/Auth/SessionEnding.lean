/-
# Auth.SessionEnding -- revocations and the authority system

The paths that end a session or revoke part of what was derived from one, the
retention job, and the system they form with the issuing and accepting
operations: `next` is the committed state after one operation, `accepted` the
credentials it accepted.

The ending paths revoke different rows.  `revokeSessionAuthority` reaches
everything of the session, a replayed refresh token only its own family and the
access tokens, the Silicon paths leave consents, codes and proofs alone, and a
raised epoch touches no row at all.
-/
import SiliconIam.Auth.SessionIssue

namespace SiliconIam.Auth.Authority

set_option autoImplicit false

/-! ## Revocation of one session -/

def familyOfSession (db : Db) (session family : Nat) : Bool :=
  db.families.any fun row => row.id = family && row.session = session

def revokeSessionTokenAuthority (db : Db) (now session : Nat) (reason : String) : Db :=
  { db with
    families := db.families.update
      (fun family => family.session = session && family.status = .active)
      (Family.revoke now reason) fun _ => rfl
    tokens := db.tokens.update (fun token => familyOfSession db session token.family)
      (RefreshToken.revoke now) (RefreshToken.revoke_id now)
    access := db.access.update (fun token => token.session = session)
      (AccessToken.revoke now reason) fun _ => rfl }

def requestOfSession (db : Db) (session request : Nat) : Bool :=
  db.requests.any fun row => row.id = request && row.session = session

def revokeSessionOauthAuthority (db : Db) (now session : Nat) : Db :=
  { db with
    codes := db.codes.update
      (fun code => requestOfSession db session code.request && code.consumedAt.isNone)
      (AuthorizationCode.consume now) fun _ => rfl
    requests := db.requests.update
      (fun request => request.session = session &&
        (request.status = .pending || request.status = .approved))
      (AuthorizationRequest.deny now) fun _ => rfl
    consents := db.consents.update
      (fun consent => consent.parentSession = session && consent.active)
      (Consent.revoke now) fun _ => rfl }

def accessOfSession (db : Db) (session token : Nat) : Bool :=
  db.access.any fun row => row.id = token && row.session = session

def revokeSessionOboAuthority (db : Db) (now session : Nat) : Db :=
  { db with
    proofs := db.proofs.update
      (fun proof => accessOfSession db session proof.parentAccessToken &&
        proof.consumedAt.isNone && proof.revokedAt.isNone)
      (OboProof.revoke now) fun _ => rfl }

def revokeSessionAuthority (db : Db) (now session : Nat) (reason : String) : Db :=
  let db := revokeSessionTokenAuthority db now session reason
  let db := revokeSessionOauthAuthority db now session
  revokeSessionOboAuthority db now session

/-- The sessions `revoke_one` and `revoke_all` may end: a Carbon's own live ones. -/
def revocable (now principal : Nat) (session : Session) : Bool :=
  session.subject = principal && session.subjectKind = .carbon && session.live now

def revokeOne (db : Db) (now principal session : Nat) (reason : String) : Db :=
  if db.sessions.any fun row => row.id = session && revocable now principal row then
    revokeSessionAuthority
      { db with
        sessions := db.sessions.update (fun row => row.id = session && revocable now principal row)
          (Session.revoke now reason) fun _ => rfl } now session reason
  else db

def revokeAll (db : Db) (now principal : Nat) : Db :=
  let revoked := (db.sessions.rows.filter (revocable now principal)).map Session.id
  revoked.foldl (fun db session => revokeSessionAuthority db now session "user_logout_all")
    { db with
      sessions := db.sessions.update (revocable now principal)
        (Session.revoke now "user_logout_all") fun _ => rfl }

/-! ## Silicons -/

def familyOfSubject (db : Db) (subject family : Nat) : Bool :=
  db.families.any fun row => row.id = family && row.subject = subject

def raiseAuthEpoch (principal : Principal) : Principal :=
  { principal with authEpoch := principal.authEpoch + 1 }

/-- `revoke_silicon_sessions` after the epoch was raised. -/
def rotateSiliconCredential (db : Db) (now silicon : Nat) : Db :=
  { db with
    principals := db.principals.update
      (fun principal =>
        principal.id = silicon && principal.kind = .silicon && principal.status = .active)
      raiseAuthEpoch fun _ => rfl
    sessions := db.sessions.update
      (fun session => session.subject = silicon && session.status = .active)
      (Session.revoke now "Silicon credential rotated") fun _ => rfl
    families := db.families.update
      (fun family => family.subject = silicon && family.status = .active)
      (Family.revoke now "Silicon credential rotated") fun _ => rfl
    tokens := db.tokens.update (fun token => familyOfSubject db silicon token.family)
      (RefreshToken.revoke now) (RefreshToken.revoke_id now)
    access := db.access.update
      (fun token => token.subject = silicon && token.revokedAt.isNone)
      (AccessToken.revokeUnrevoked now "Silicon credential rotated") fun _ => rfl }

/-- The removal of a Silicon: its families, its sessions and its access tokens, and
the principal is deleted. -/
def removeSilicon (db : Db) (now silicon : Nat) : Db :=
  { db with
    principals := db.principals.update
      (fun principal =>
        principal.id = silicon && principal.kind = .silicon && principal.status != .deleted)
      (fun principal => { raiseAuthEpoch principal with status := .deleted }) fun _ => rfl
    sessions := db.sessions.update
      (fun session => session.subject = silicon && session.status = .active)
      (Session.revoke now "Silicon removed") fun _ => rfl
    families := db.families.update
      (fun family => family.subject = silicon && family.status = .active)
      (Family.revoke now "Silicon removed") fun _ => rfl
    access := db.access.update
      (fun token => token.subject = silicon && token.revokedAt.isNone)
      (AccessToken.revokeUnrevoked now "Silicon removed") fun _ => rfl }

/-! ## Revocation by a client -/

def revokeAccessToken (db : Db) (now : Nat) (client : ApplicationIdentity) (supplied : List Nat) :
    Db :=
  { db with
    access := db.access.update
      (fun token => token.tokenClass = .applicationAccess && supplied.contains token.digest &&
        token.client = some client.application && token.revokedAt.isNone)
      (AccessToken.revokeUnrevoked now "client_revoked") fun _ => rfl }

/-- The family of the supplied refresh token, when it belongs to the client. -/
def clientFamily (db : Db) (client : ApplicationIdentity) (supplied : List Nat) : Option Family := do
  let token ← db.tokens.find? fun token =>
    token.purpose = .oauthRefreshToken && supplied.contains token.digest
  db.families.find? fun family =>
    family.id = token.family && family.client = some client.application

def revokeRefreshFamily (db : Db) (now : Nat) (client : ApplicationIdentity) (supplied : List Nat) :
    Db :=
  match clientFamily db client supplied with
  | none => db
  | some family =>
      if family.status = .active then
        { db with
          families := db.families.update (fun row => row.id = family.id && row.status = .active)
            (Family.revoke now "client_revoked") fun _ => rfl
          tokens := db.tokens.update (fun token => token.family = family.id)
            (RefreshToken.revoke now) (RefreshToken.revoke_id now)
          access := db.access.update
            (familyAccessToken family.id family.session client.application)
            (AccessToken.revoke now "client_revoked") fun _ => rfl }
      else db

/-! ## Administration and retention -/

def familyOfClient (db : Db) (application family : Nat) : Bool :=
  db.families.any fun row => row.id = family && row.client = some application

/-- Retiring an application closes its families with the access tokens issued to it
or for it, its consents and its proofs. -/
def revokeApplicationAuthority (db : Db) (now application : Nat) (reason : String) : Db :=
  { db with
    families := db.families.update
      (fun family => family.client = some application && family.status = .active)
      (Family.revoke now reason) fun _ => rfl
    tokens := db.tokens.update
      (fun token => familyOfClient db application token.family && token.revokedAt.isNone)
      (RefreshToken.revoke now) (RefreshToken.revoke_id now)
    access := db.access.update
      (fun token =>
        (token.client = some application || token.audienceApplication = some application) &&
          token.revokedAt.isNone)
      (AccessToken.revokeUnrevoked now reason) fun _ => rfl
    consents := db.consents.update
      (fun consent => consent.application = application && consent.active)
      (Consent.revoke now) fun _ => rfl
    proofs := db.proofs.update
      (fun proof =>
        (proof.issuerApplication = application || proof.audienceApplication = application) &&
          proof.consumedAt.isNone && proof.revokedAt.isNone)
      (OboProof.revoke now) fun _ => rfl }

/-- Rows picked from the tables. -/
structure Selection where
  sessions : Session → Bool
  access : AccessToken → Bool
  families : Family → Bool
  requests : AuthorizationRequest → Bool
  codes : AuthorizationCode → Bool
  consents : Consent → Bool
  proofs : OboProof → Bool

/-- Every other revocation: a reconfigured application, a withdrawn scope, a removed
membership.  They mark rows, and no families; which rows is their choice. -/
def close (db : Db) (now : Nat) (reason : String) (selection : Selection) : Db :=
  { db with
    sessions := db.sessions.update selection.sessions (Session.revoke now reason) fun _ => rfl
    access := db.access.update selection.access (AccessToken.revoke now reason) fun _ => rfl
    requests := db.requests.update
      (fun request => selection.requests request &&
        (request.status = .pending || request.status = .approved))
      (AuthorizationRequest.deny now) fun _ => rfl
    codes := db.codes.update selection.codes (AuthorizationCode.consume now) fun _ => rfl
    consents := db.consents.update selection.consents (Consent.revoke now) fun _ => rfl
    proofs := db.proofs.update (fun proof => selection.proofs proof && proof.revokedAt.isNone)
      (OboProof.revoke now) fun _ => rfl }

/-- The foreign keys with `ON DELETE RESTRICT` among the rows that are deleted. -/
def referencesHold (db : Db) : Bool :=
  db.access.all (fun token => db.sessions.any fun session => session.id = token.session) &&
    db.families.all (fun family => db.sessions.any fun session => session.id = family.session) &&
    db.requests.all (fun request => db.sessions.any fun session => session.id = request.session) &&
    db.consents.all (fun consent =>
      db.sessions.any fun session => session.id = consent.parentSession) &&
    db.proofs.all fun proof => db.access.any fun token => token.id = proof.parentAccessToken

def droppedFamily (db : Db) (selection : Selection) (id : Nat) : Bool :=
  db.families.any fun family => family.id = id && selection.families family

def droppedRequest (db : Db) (selection : Selection) (id : Nat) : Bool :=
  db.requests.any fun request => request.id = id && selection.requests request

/-- A family goes with its refresh tokens and unlinks its access tokens, a request
with its codes. -/
def purged (db : Db) (selection : Selection) : Db :=
  { db with
    sessions := db.sessions.restrict fun session => !selection.sessions session
    families := db.families.restrict fun family => !selection.families family
    tokens := db.tokens.restrict fun token => !droppedFamily db selection token.family
    access := (db.access.restrict fun token => !selection.access token).update
      (fun token => token.oauthRefreshFamily.any (droppedFamily db selection))
      (fun token => { token with oauthRefreshFamily := none }) fun _ => rfl
    requests := db.requests.restrict fun request => !selection.requests request
    codes := db.codes.restrict fun code => !droppedRequest db selection code.request
    proofs := db.proofs.restrict fun proof => !selection.proofs proof }

/-- The retention job.  A violated reference fails the whole statement. -/
def purge (db : Db) (selection : Selection) : Db :=
  if referencesHold (purged db selection) then purged db selection else db

/-- A suspension, an activation, a deletion: the status changes, and the epoch is
raised by as much as the path raises it. -/
def changePrincipal (db : Db) (id : Nat) (status : PrincipalStatus) (raise : Nat) : Db :=
  { db with
    principals := db.principals.update (fun principal => principal.id = id)
      (fun principal =>
        { principal with status := status, authEpoch := principal.authEpoch + raise })
      fun _ => rfl }

def createPrincipal (db : Db) (principal : Principal) : Option Db :=
  if unused db principal.id then
    (db.principals.insert principal).map fun principals =>
      { db with principals := principals, drawn := principal.id :: db.drawn }
  else none

/-! ## The system -/

inductive Action where
  | authenticate (now : Nat) (tokenClass : TokenClass) (supplied : List Nat)
  | rotateRefreshToken (now : Nat) (supplied : List Nat) (fresh : Fresh)
  | exchangeAuthorizationCode (now : Nat) (client : ApplicationIdentity) (supplied : List Nat)
      (fresh : Fresh)
  | exchangeRefreshToken (now : Nat) (client : ApplicationIdentity) (supplied : List Nat)
      (fresh : Fresh)
  | oboExchange (now : Nat) (client : ApplicationIdentity) (access : AccessContext)
      (request : OboExchangeRequest) (replayed : Option Nat) (fresh : Fresh)
  | oboVerify (now : Nat) (client : ApplicationIdentity) (supplied : List Nat)
      (request : OboVerifyRequest)
  | introspect (now : Nat) (client : ApplicationIdentity) (access : AccessContext)
      (orgContext : Option String)
  | introspectRefreshToken (now : Nat) (client : ApplicationIdentity) (supplied : List Nat)
      (orgContext : Option String)
  | issueLoginSession (now principal : Nat) (fresh : Fresh)
  | issueSiliconSession (now : Nat) (identity : SiliconLoginIdentity) (fresh : Fresh)
  | exchangeTestingActor (now : Nat) (client : ApplicationIdentity) (actorId : String)
      (fresh : Fresh)
  | issueForSelection (now : Nat) (access : AccessContext) (input : ShortLivedTokenRequest)
      (fresh : Fresh)
  | revokeOne (now principal session : Nat) (reason : String)
  | revokeAll (now principal : Nat)
  | rotateSiliconCredential (now silicon : Nat)
  | removeSilicon (now silicon : Nat)
  | revokeAccessToken (now : Nat) (client : ApplicationIdentity) (supplied : List Nat)
  | revokeRefreshFamily (now : Nat) (client : ApplicationIdentity) (supplied : List Nat)
  | revokeApplicationAuthority (now application : Nat) (reason : String)
  | close (now : Nat) (reason : String) (selection : Selection)
  | purge (now : Nat) (selection : Selection)
  | changePrincipal (now id : Nat) (status : PrincipalStatus) (raise : Nat)
  | createPrincipal (now : Nat) (principal : Principal)
  | configure (now : Nat) (directory : Directory)

def Action.now : Action → Nat
  | .authenticate now .. | .rotateRefreshToken now .. | .exchangeAuthorizationCode now ..
  | .exchangeRefreshToken now .. | .oboExchange now .. | .oboVerify now .. | .introspect now ..
  | .introspectRefreshToken now .. | .issueLoginSession now .. | .issueSiliconSession now ..
  | .exchangeTestingActor now .. | .issueForSelection now .. | .revokeOne now .. | .revokeAll now ..
  | .rotateSiliconCredential now .. | .removeSilicon now .. | .revokeAccessToken now ..
  | .revokeRefreshFamily now .. | .revokeApplicationAuthority now .. | .close now .. | .purge now ..
  | .changePrincipal now .. | .createPrincipal now .. | .configure now .. => now

/-- The state a transaction commits; an error rolls back. -/
def committed {ε α : Type} (db : Db) : Except ε (α × Db) → Db
  | .ok (_, db) => db
  | .error _ => db

def next (settings : SecuritySettings) (db : Db) : Action → Db
  | .authenticate .. => db
  | .rotateRefreshToken now supplied fresh =>
      committed db (rotateRefreshToken db settings now supplied fresh)
  | .exchangeAuthorizationCode now client supplied fresh =>
      committed db (exchangeAuthorizationCode db settings now client supplied fresh)
  | .exchangeRefreshToken now client supplied fresh =>
      committed db (exchangeRefreshToken db settings now client supplied fresh)
  | .oboExchange now client access request replayed fresh =>
      committed db (oboExchange db now client access request replayed fresh)
  | .oboVerify now client supplied request => committed db (oboVerify db now client supplied request)
  | .introspect .. => db
  | .introspectRefreshToken .. => db
  | .issueLoginSession now principal fresh =>
      committed db (issueLoginSession db settings now principal fresh)
  | .issueSiliconSession now identity fresh =>
      committed db (issueSiliconSession db settings now identity fresh)
  | .exchangeTestingActor now client actorId fresh =>
      committed db (exchangeTestingActor db settings now client actorId fresh)
  | .issueForSelection now access input fresh =>
      match issueForSelection db settings now access input fresh with
      | .ok db => db
      | .error _ => db
  | .revokeOne now principal session reason => revokeOne db now principal session reason
  | .revokeAll now principal => revokeAll db now principal
  | .rotateSiliconCredential now silicon => rotateSiliconCredential db now silicon
  | .removeSilicon now silicon => removeSilicon db now silicon
  | .revokeAccessToken now client supplied => revokeAccessToken db now client supplied
  | .revokeRefreshFamily now client supplied => revokeRefreshFamily db now client supplied
  | .revokeApplicationAuthority now application reason =>
      revokeApplicationAuthority db now application reason
  | .close now reason selection => close db now reason selection
  | .purge _ selection => purge db selection
  | .changePrincipal _ id status raise => changePrincipal db id status raise
  | .createPrincipal _ principal => (createPrincipal db principal).getD db
  | .configure _ directory => { db with directory := directory }

/-- The credentials an operation accepts: the one presented, and on a repeated
exchange the proof it returns once more. -/
def accepted (settings : SecuritySettings) (db : Db) : Action → List Credential
  | .authenticate now tokenClass supplied =>
      match authenticate db now tokenClass supplied with
      | some access => [.accessToken access.token]
      | none => []
  | .rotateRefreshToken now supplied fresh =>
      match rotateRefreshToken db settings now supplied fresh, refreshLookup db supplied with
      | .ok (.rotated _, _), some row => [.refreshToken row.token.id]
      | _, _ => []
  | .exchangeAuthorizationCode now client supplied fresh =>
      match exchangeAuthorizationCode db settings now client supplied fresh,
        authorizationCodeLookup db now client supplied with
      | .ok _, some row => [.authorizationCode row.code.id]
      | _, _ => []
  | .exchangeRefreshToken now client supplied fresh =>
      match exchangeRefreshToken db settings now client supplied fresh,
        refreshTokenCandidate db client supplied with
      | .ok (.issued _, _), some row => [.refreshToken row.token.id]
      | _, _ => []
  | .oboExchange now client access request replayed fresh =>
      match oboExchange db now client access request replayed fresh with
      | .ok _ => .accessToken access.token :: (replayed.map Credential.oboProof).toList
      | .error _ => []
  | .oboVerify now client supplied request =>
      match oboVerify db now client supplied request with
      | .ok (result, _) => [.oboProof result.proof.id, .accessToken result.proof.parentAccessToken]
      | .error _ => []
  | .introspect now client access orgContext =>
      match introspect db now client access orgContext with
      | some _ => [.accessToken access.token]
      | none => []
  | .introspectRefreshToken now client supplied orgContext =>
      match introspectRefreshToken db now client supplied orgContext,
        refreshTokenCandidate db client supplied with
      | some _, some row => [.refreshToken row.token.id]
      | _, _ => []
  | _ => []

end SiliconIam.Auth.Authority
