/-
# Auth.Issuance -- issuing and rotating tokens

Bearer authentication, the two refresh rotations and the code exchange, with the
rows they insert.  Each operation is one transaction at one instant `now`; an
error is a rollback.  A supplied secret is the list of its digests under the
retained keys, and identifiers are drawn by the caller (`Fresh`): a row under a
taken identifier or digest violates a unique key, and the operation fails.

`FOR SHARE` and `FOR UPDATE` on the session and the principal order every
exchange before or after each revocation, which is what lets a transaction be
one step.
-/
import SiliconIam.Auth.AuthorityChecks

namespace SiliconIam.Auth.Authority

open SiliconIam.Auth.RefreshFamily (AppError)

set_option autoImplicit false

inductive ApiError where
  | badRequest (code message : String)
  | forbidden (code : String)
  | conflict (code : String)
  | gone (code : String)
  | notFound
  | invalidClient
  | validation (field message : String)
  | internal (category : String)
deriving DecidableEq

structure SecuritySettings where
  accessTokenTtl : Nat
  refreshFamilyTtl : Nat
  authorizationCodeTtl : Nat
deriving DecidableEq

/-- What one operation draws; it uses the fields of the rows it inserts. -/
structure Fresh where
  session : Nat
  family : Nat
  access : Nat
  accessDigest : Nat
  refresh : Nat
  refreshDigest : Nat
  request : Nat
  consent : Nat
  code : Nat
  codeDigest : Nat
  proof : Nat
  proofDigest : Nat
deriving DecidableEq

/-! ## Inserts -/

/-- An identifier is drawn once in the life of the database. -/
def unused (db : Db) (id : Nat) : Bool := !db.drawn.contains id

def insertAccessToken (db : Db) (token : AccessToken) : Option Db :=
  if unused db token.id && db.access.all fun other => other.digest != token.digest then
    (db.access.insert token).map fun access =>
      { db with access := access, drawn := token.id :: db.drawn }
  else none

def insertRefreshToken (db : Db) (token : RefreshToken) : Option Db :=
  if unused db token.id && db.tokens.all fun other =>
      other.digest != token.digest && (other.parent.isNone || other.parent != token.parent) then
    (db.tokens.insert token).map fun tokens =>
      { db with tokens := tokens, drawn := token.id :: db.drawn }
  else none

def insertFamily (db : Db) (family : Family) : Option Db :=
  if unused db family.id then
    (db.families.insert family).map fun families =>
      { db with families := families, drawn := family.id :: db.drawn }
  else none

def insertSession (db : Db) (session : Session) : Option Db :=
  if unused db session.id then
    (db.sessions.insert session).map fun sessions =>
      { db with sessions := sessions, drawn := session.id :: db.drawn }
  else none

/-! ## Bearer authentication -/

structure ActorRef where
  kind : PrincipalKind
  id : Nat
deriving DecidableEq

structure AccessContext where
  token : Nat
  session : Nat
  subject : ActorRef
  client : Option Nat
  audienceApplication : Option Nat
  audience : String
  organization : Option Nat
  membership : Option Nat
  scopes : List String
  assuranceLevel : Nat
deriving DecidableEq

def findCandidate (db : Db) (tokenClass : TokenClass) (supplied : List Nat) : Option AccessToken :=
  db.access.find? fun token => supplied.contains token.digest && token.tokenClass = tokenClass

/-- The scopes an access token still has: a client's token keeps those its
application is approved for and the parent consent grants. -/
def effectiveScopes (db : Db) (token : AccessToken) : List String :=
  token.scopes.filter fun scope =>
    match token.client with
    | none => true
    | some client =>
        (lockedApplicationApprovedScopes db client).contains scope &&
          db.consents.any (fun consent => consent.covers token && consent.scopes.contains scope) &&
          applicationIamScopeAllowed db client scope

/-- A token bound to an organization needs its membership as it was. -/
def organizationCurrent (db : Db) (token : AccessToken) : Bool :=
  match token.organization with
  | none => true
  | some organization =>
      activeOrganization db organization &&
        db.directory.memberships.any fun membership =>
          membership.organization = organization && some membership.id = token.membership &&
            membership.principal = token.subject &&
            membership.principalKind = token.subjectKind && membership.active &&
            some membership.authzEpoch = token.membershipAuthzEpoch

/-- A client's token needs the client as it was and a consent under its session. -/
def clientCurrent (db : Db) (token : AccessToken) : Bool :=
  match token.client with
  | none => true
  | some client =>
      db.principals.any (fun principal =>
        principal.id = client && principal.kind = .application && principal.status = .active &&
          some principal.authEpoch = token.clientAuthEpoch) &&
        db.directory.applications.any fun application =>
          application.id = client && some application.id = token.audienceApplication &&
            application.appId = token.audience && application.current &&
            db.consents.any fun consent => consent.covers token

def audienceCurrent (db : Db) (token : AccessToken) : Bool :=
  match token.audienceApplication with
  | none => true
  | some audience =>
      db.principals.any fun principal =>
        principal.id = audience && principal.kind = .application && principal.status = .active

/-- The `WHERE` clause of `authenticate` over its session and subject rows. -/
def accessCurrent (db : Db) (now : Nat) (token : AccessToken) (session : Session)
    (subject : Principal) : Bool :=
  applicationPrivateTokenIsCurrent db token.id && token.unexpired now &&
    subject.status = .active && subject.authEpoch = token.subjectAuthEpoch && session.live now &&
    organizationCurrent db token && clientCurrent db token && audienceCurrent db token

def authenticate (db : Db) (now : Nat) (tokenClass : TokenClass) (supplied : List Nat) :
    Option AccessContext := do
  let token ← findCandidate db tokenClass supplied
  let session ← db.sessions.find? fun session =>
    session.id = token.session && session.subject = token.subject
  let subject ← db.principals.find? fun subject =>
    subject.id = token.subject && subject.kind = token.subjectKind
  if accessCurrent db now token session subject then
    pure
      { token := token.id
        session := token.session
        subject := { kind := token.subjectKind, id := token.subject }
        client := token.client
        audienceApplication := token.audienceApplication
        audience := token.audience
        organization := token.organization
        membership := token.membership
        scopes := effectiveScopes db token
        assuranceLevel := session.assuranceLevel }
  else none

/-! ## First-party tokens -/

structure TokenPairContext where
  principal : Nat
  subjectKind : PrincipalKind
  authEpoch : Nat
  publicId : String
  organization : Option Nat
  membership : Option Nat
  membershipAuthzEpoch : Option Nat
  session : Nat
  family : Nat
  parentRefreshToken : Option Nat
  refreshExpiresAt : Nat
deriving DecidableEq

structure TokenResponse where
  accessToken : Nat
  refreshToken : Nat
  expiresIn : Nat
  refreshExpiresAt : Nat
  actor : ActorRef
  publicId : String
  session : Nat
deriving DecidableEq

def pairTokenClass : PrincipalKind → Option TokenClass
  | .carbon => some .carbonAccess
  | .silicon => some .siliconAccess
  | .application => none

/-- The parent rows the conditional update matches: the consumed ones are not. -/
def consumable (db : Db) (parent : Nat) : Bool :=
  db.tokens.any fun token => token.id = parent && token.consumedAt.isNone && token.replacement.isNone

def consumeParent (db : Db) (now parent replacement : Nat) : Db :=
  { db with
    tokens := db.tokens.update (fun token => token.id = parent)
      (fun token => { token with consumedAt := some now, replacement := some replacement })
      fun _ => rfl }

def pairAccessToken (settings : SecuritySettings) (now : Nat) (context : TokenPairContext)
    (tokenClass : TokenClass) (fresh : Fresh) : AccessToken where
  id := fresh.access
  tokenClass := tokenClass
  digest := fresh.accessDigest
  session := context.session
  subject := context.principal
  subjectKind := context.subjectKind
  client := none
  audienceApplication := none
  audience := "silicon-iam"
  organization := context.organization
  membership := context.membership
  subjectAuthEpoch := context.authEpoch
  membershipAuthzEpoch := context.membershipAuthzEpoch
  clientAuthEpoch := none
  expiresAt := min (now + settings.accessTokenTtl) context.refreshExpiresAt
  revokedAt := none
  revocationReason := none
  oauthRefreshFamily := none
  scopes := ["iam.self"]

def freshRefreshToken (purpose : RefreshPurpose) (family : Nat) (parent : Option Nat)
    (expiresAt : Nat) (fresh : Fresh) : RefreshToken where
  id := fresh.refresh
  family := family
  purpose := purpose
  digest := fresh.refreshDigest
  parent := parent
  replacement := none
  expiresAt := expiresAt
  consumedAt := none
  revokedAt := none

def insertTokenPairWithId (db : Db) (settings : SecuritySettings) (now : Nat)
    (context : TokenPairContext) (fresh : Fresh) : Except AppError (TokenResponse × Db) :=
  match pairTokenClass context.subjectKind with
  | none => .error (.internal "iam_token_subject_kind")
  | some tokenClass =>
      let token := pairAccessToken settings now context tokenClass fresh
      match insertAccessToken db token with
      | none => .error (.internal "access_token_create")
      | some db =>
          match insertRefreshToken db
              (freshRefreshToken .refreshToken context.family context.parentRefreshToken
                context.refreshExpiresAt fresh) with
          | none => .error (.internal "refresh_token_create")
          | some db =>
              let response : TokenResponse :=
                { accessToken := fresh.access
                  refreshToken := fresh.refresh
                  expiresIn := token.expiresAt - now
                  refreshExpiresAt := context.refreshExpiresAt
                  actor := { kind := context.subjectKind, id := context.principal }
                  publicId := context.publicId
                  session := context.session }
              match context.parentRefreshToken with
              | none => .ok (response, db)
              | some parent =>
                  if consumable db parent then
                    .ok (response, consumeParent db now parent fresh.refresh)
                  else .error .unauthenticated

/-! ## Rotation -/

/-- The subject part of the rotation's joins: public identifier, organization,
membership and its epoch. -/
def refreshSubject (db : Db) (principal : Principal) :
    Option (String × Option Nat × Option Nat × Option Nat) :=
  match principal.kind with
  | .carbon => do
      let carbon ← liveCarbon db principal.id
      pure (carbon.carbonId, none, none, none)
  | .silicon => do
      let silicon ← db.directory.silicons.find? fun silicon =>
        silicon.id = principal.id && silicon.provisioned && silicon.deletedAt.isNone
      let (org, member) ← activeMembership db principal silicon.organization silicon.membership
      pure (silicon.globalSiliconId, some org.id, some member.id, some member.authzEpoch)
  | .application => none

structure RefreshLookupRow where
  token : RefreshToken
  family : Family
  session : Session
  principal : Principal
  publicId : String
  organization : Option Nat
  membership : Option Nat
  membershipAuthzEpoch : Option Nat
deriving DecidableEq

def refreshLookup (db : Db) (supplied : List Nat) : Option RefreshLookupRow := do
  let token ← db.tokens.find? fun token =>
    token.purpose = .refreshToken && supplied.contains token.digest
  let family ← db.families.find? fun family => family.id = token.family
  let session ← db.sessions.find? fun session =>
    session.id = family.session && session.subject = family.subject
  let principal ← db.principals.find? fun principal =>
    principal.id = session.subject && principal.kind = session.subjectKind
  let (publicId, organization, membership, membershipAuthzEpoch) ← refreshSubject db principal
  pure
    { token := token
      family := family
      session := session
      principal := principal
      publicId := publicId
      organization := organization
      membership := membership
      membershipAuthzEpoch := membershipAuthzEpoch }

/-- The `active` column. -/
def RefreshLookupRow.active (now : Nat) (row : RefreshLookupRow) : Bool :=
  row.token.revokedAt.isNone && now < row.token.expiresAt && row.family.status = .active &&
    now < row.family.absoluteExpiresAt && row.session.live now &&
    row.principal.status = .active && row.session.authEpoch = row.principal.authEpoch

/-- `revoke_replayed_family`: the family, its tokens, every access token of the
session and the session; nothing an application holds. -/
def revokeReplayedFamily (db : Db) (now : Nat) (row : RefreshLookupRow) : Db :=
  { db with
    families := db.families.update
      (fun family => family.id = row.family.id && family.status != .compromised)
      (Family.compromiseReplayed now) fun _ => rfl
    tokens := db.tokens.update (fun token => token.family = row.family.id)
      (RefreshToken.revoke now) (RefreshToken.revoke_id now)
    access := db.access.update (fun token => token.session = row.session.id)
      (AccessToken.revoke now "refresh_replay") fun _ => rfl
    sessions := db.sessions.update (fun session => session.id = row.session.id)
      (Session.revokeReplayed now) fun _ => rfl }

def touchSession (db : Db) (session : Nat) : Except AppError Db :=
  if db.sessions.any fun row => row.id = session && row.status = .active then
    .ok { db with
      sessions := db.sessions.update (fun row => row.id = session && row.status = .active)
        Session.touch fun _ => rfl }
  else .error (.internal "session_refresh_touch")

inductive RefreshResult where
  | rotated (response : TokenResponse)
  | replayRevoked
deriving DecidableEq

def RefreshLookupRow.pairContext (row : RefreshLookupRow) : TokenPairContext where
  principal := row.session.subject
  subjectKind := row.session.subjectKind
  authEpoch := row.principal.authEpoch
  publicId := row.publicId
  organization := row.organization
  membership := row.membership
  membershipAuthzEpoch := row.membershipAuthzEpoch
  session := row.session.id
  family := row.family.id
  parentRefreshToken := some row.token.id
  refreshExpiresAt := row.family.absoluteExpiresAt

def rotateRefreshToken (db : Db) (settings : SecuritySettings) (now : Nat) (supplied : List Nat)
    (fresh : Fresh) : Except AppError (RefreshResult × Db) :=
  match refreshLookup db supplied with
  | none => .error .unauthenticated
  | some row =>
      if row.token.consumedAt.isSome then .ok (.replayRevoked, revokeReplayedFamily db now row)
      else if !row.active now then .error .unauthenticated
      else
        match insertTokenPairWithId db settings now row.pairContext fresh with
        | .error error => .error error
        | .ok (response, inserted) =>
            match touchSession inserted row.session.id with
            | .error error => .error error
            | .ok touched => .ok (.rotated response, touched)

/-! ## Tokens of applications -/

structure TokenSubject where
  session : Nat
  principal : Nat
  subjectKind : PrincipalKind
  subjectAuthEpoch : Nat
  organization : Option Nat
  membership : Option Nat
  membershipAuthzEpoch : Option Nat
  consentGrant : Nat
  orgId : Option String
  subjectPublicId : String
deriving DecidableEq

structure AppTokenResponse where
  accessToken : Nat
  refreshToken : Nat
  expiresIn : Nat
  scope : List String
  actor : Option (ActorRef × String)
  orgId : Option String
deriving DecidableEq

def applicationAccessToken (settings : SecuritySettings) (now : Nat) (client : ApplicationIdentity)
    (subject : TokenSubject) (scopes : List String) (family : Nat) (fresh : Fresh) :
    AccessToken where
  id := fresh.access
  tokenClass := .applicationAccess
  digest := fresh.accessDigest
  session := subject.session
  subject := subject.principal
  subjectKind := subject.subjectKind
  client := some client.application
  audienceApplication := some client.application
  audience := client.appId
  organization := subject.organization
  membership := subject.membership
  subjectAuthEpoch := subject.subjectAuthEpoch
  membershipAuthzEpoch := subject.membershipAuthzEpoch
  clientAuthEpoch := some client.authEpoch
  expiresAt := now + settings.accessTokenTtl
  revokedAt := none
  revocationReason := none
  oauthRefreshFamily := some family
  scopes := scopes

/-- The family of the first exchange, with the scopes it was granted. -/
def issueFamily (db : Db) (settings : SecuritySettings) (now : Nat) (client : ApplicationIdentity)
    (subject : TokenSubject) (scopes : List String) (existingFamily : Option Nat) (fresh : Fresh) :
    Option (Nat × Db) :=
  match existingFamily with
  | some family => some (family, db)
  | none =>
      (insertFamily db
        { id := fresh.family
          session := subject.session
          subject := subject.principal
          client := some client.application
          consent := some subject.consentGrant
          status := .active
          absoluteExpiresAt := now + settings.refreshFamilyTtl
          revokedAt := none
          compromisedAt := none
          revocationReason := none
          scopes := scopes }).map fun db => (fresh.family, db)

def familyExpiry (db : Db) (family : Nat) : Nat :=
  match db.families.find? fun row => row.id = family with
  | some row => row.absoluteExpiresAt
  | none => 0

def issueTokens (db : Db) (settings : SecuritySettings) (now : Nat) (client : ApplicationIdentity)
    (subject : TokenSubject) (scopes : List String) (existingFamily parentRefresh : Option Nat)
    (fresh : Fresh) : Except ApiError (AppTokenResponse × Db) :=
  if subject.subjectKind = .application then .error (.internal "oauth_subject_kind")
  else
    match issueFamily db settings now client subject scopes existingFamily fresh with
    | none => .error (.internal "oauth_refresh_family_insert")
    | some (family, db) =>
        match insertAccessToken db
            (applicationAccessToken settings now client subject scopes family fresh) with
        | none => .error (.internal "oauth_access_insert")
        | some db =>
            match insertRefreshToken db
                (freshRefreshToken .oauthRefreshToken family parentRefresh (familyExpiry db family)
                  fresh) with
            | none => .error (.internal "oauth_refresh_insert")
            | some db =>
                let response : AppTokenResponse :=
                  { accessToken := fresh.access
                    refreshToken := fresh.refresh
                    expiresIn := settings.accessTokenTtl
                    scope := scopes
                    actor :=
                      if scopes.contains "self.identity.read" then
                        some ({ kind := subject.subjectKind, id := subject.principal },
                          subject.subjectPublicId)
                      else none
                    orgId := subject.orgId }
                match parentRefresh with
                | none => .ok (response, db)
                | some parent =>
                    if db.tokens.any fun token =>
                        token.id = parent && token.consumedAt.isNone && token.revokedAt.isNone then
                      .ok (response, consumeParent db now parent fresh.refresh)
                    else .error (.internal "oauth_refresh_consume_invariant")

/-! ## Code exchange -/

structure AuthorizationCodeRow where
  code : AuthorizationCode
  request : AuthorizationRequest
  consent : Consent
deriving DecidableEq

/-- `AUTHORIZATION_CODE_LOOKUP_QUERY`. -/
def authorizationCodeLookup (db : Db) (now : Nat) (client : ApplicationIdentity)
    (supplied : List Nat) : Option AuthorizationCodeRow := do
  let code ← db.codes.find? fun code =>
    supplied.contains code.digest && code.application = client.application &&
      code.consumedAt.isNone && now < code.expiresAt
  let request ← db.requests.find? fun request =>
    request.id = code.request && request.status = .approved
  let principal ← db.principals.find? fun principal =>
    principal.id = request.subject && principal.kind = request.subjectKind &&
      principal.status = .active
  let _ ← db.sessions.find? fun session =>
    session.id = request.session && session.subject = request.subject &&
      session.subjectKind = request.subjectKind && session.authEpoch = principal.authEpoch &&
      session.live now
  let consent ← db.consents.find? fun consent =>
    consent.application = request.application && consent.subject = request.subject &&
      consent.subjectKind = request.subjectKind && consent.organization = request.organization &&
      consent.membership = request.membership && consent.parentSession = request.session &&
      consent.active
  pure { code := code, request := request, consent := consent }

def AuthorizationCodeRow.binding (row : AuthorizationCodeRow) : SubjectBinding where
  session := row.request.session
  subject := row.request.subject
  subjectKind := row.request.subjectKind
  organization := row.request.organization
  membership := row.request.membership

/-- The requested scopes, when every one of them is still consented and approved. -/
def authorizedCodeExchangeScopes (db : Db) (client : ApplicationIdentity)
    (row : AuthorizationCodeRow) : Option (List String) :=
  let currentlyAuthorized := row.request.scopes.filter fun scope =>
    row.consent.scopes.contains scope &&
      (lockedApplicationApprovedScopes db client.application).contains scope
  if row.request.scopes = currentlyAuthorized then some row.request.scopes else none

def SubjectAuthority.tokenSubject (authority : SubjectAuthority) (binding : SubjectBinding)
    (consent : Nat) : TokenSubject where
  session := binding.session
  principal := binding.subject
  subjectKind := binding.subjectKind
  subjectAuthEpoch := authority.subjectAuthEpoch
  organization := binding.organization
  membership := binding.membership
  membershipAuthzEpoch := authority.membershipAuthzEpoch
  consentGrant := consent
  orgId := authority.orgId
  subjectPublicId := authority.subjectPublicId

def consumeCode (db : Db) (now : Nat) (row : AuthorizationCodeRow) : Db :=
  { db with
    codes := db.codes.update (fun code => code.id = row.code.id)
      (fun code => { code with consumedAt := some now }) fun _ => rfl
    requests := db.requests.update (fun request => request.id = row.request.id)
      (fun request => { request with status := .consumed }) fun _ => rfl }

def exchangeAuthorizationCode (db : Db) (settings : SecuritySettings) (now : Nat)
    (client : ApplicationIdentity) (supplied : List Nat) (fresh : Fresh) :
    Except ApiError (AppTokenResponse × Db) :=
  if !lockCurrentApplicationClient db client then
    .error (.badRequest "invalid_grant" "The short-lived token is invalid.")
  else
    match authorizationCodeLookup db now client supplied with
    | none => .error (.badRequest "invalid_grant" "The short-lived token is invalid.")
    | some row =>
        match lockCurrentApplicationOauthSubjectAuthority db now client.application row.consent.id
            row.binding with
        | none => .error (.badRequest "invalid_grant" "The authorization code is invalid.")
        | some authority =>
            match authorizedCodeExchangeScopes db client row with
            | none => .error (.badRequest "invalid_grant" "The authorization code is invalid.")
            | some scopes =>
                issueTokens (consumeCode db now row) settings now client
                  (authority.tokenSubject row.binding row.consent.id) scopes none none fresh

/-! ## Refresh by an application -/

structure RefreshCandidateRow where
  token : RefreshToken
  family : Family
  principal : Principal
  consent : Consent
deriving DecidableEq

/-- `REFRESH_TOKEN_CANDIDATE_QUERY`. -/
def refreshTokenCandidate (db : Db) (client : ApplicationIdentity) (supplied : List Nat) :
    Option RefreshCandidateRow := do
  let token ← db.tokens.find? fun token =>
    token.purpose = .oauthRefreshToken && supplied.contains token.digest
  let family ← db.families.find? fun family =>
    family.id = token.family && family.client = some client.application
  let principal ← db.principals.find? fun principal => principal.id = family.subject
  let consent ← db.consents.find? fun consent => some consent.id = family.consent
  pure { token := token, family := family, principal := principal, consent := consent }

def RefreshCandidateRow.binding (row : RefreshCandidateRow) : SubjectBinding where
  session := row.family.session
  subject := row.family.subject
  subjectKind := row.principal.kind
  organization := row.consent.organization
  membership := row.consent.membership

/-- `REFRESH_CREDENTIAL_LOCK_QUERY`: the candidate's rows once more, under lock. -/
def refreshCredentialLock (db : Db) (client : ApplicationIdentity) (row : RefreshCandidateRow) :
    Option (RefreshToken × Family) := do
  let token ← db.tokens.find? fun token => token.id = row.token.id && token.digest = row.token.digest
  let family ← db.families.find? fun family =>
    family.id = token.family && family.id = row.family.id &&
      family.client = some client.application && family.session = row.family.session &&
      family.subject = row.family.subject && family.consent = some row.consent.id
  pure (token, family)

/-- Unconsumed, unrevoked and unexpired, in an active unexpired family. -/
def refreshUsable (now : Nat) (token : RefreshToken) (family : Family) : Bool :=
  token.consumedAt.isNone && token.revokedAt.isNone && now < token.expiresAt &&
    family.status = .active && now < family.absoluteExpiresAt

/-- `OAUTH_REFRESH_FAMILY_ACCESS_REVOCATION_QUERY`. -/
def familyAccessToken (family session client : Nat) (token : AccessToken) : Bool :=
  token.oauthRefreshFamily = some family && token.session = session && token.client = some client

def compromiseRefreshFamily (db : Db) (now family session client : Nat) : Db :=
  if db.families.any fun row => row.id = family && row.status = .active then
    { db with
      families := db.families.update (fun row => row.id = family && row.status = .active)
        (Family.compromise now) fun _ => rfl
      tokens := db.tokens.update (fun token => token.family = family)
        (RefreshToken.revoke now) (RefreshToken.revoke_id now)
      access := db.access.update (familyAccessToken family session client)
        (AccessToken.revoke now "refresh_token_reuse") fun _ => rfl }
  else db

/-- `REFRESH_ISSUANCE_SCOPES_QUERY`. -/
def refreshIssuanceScopes (db : Db) (client : ApplicationIdentity) (row : RefreshCandidateRow) :
    List String :=
  row.family.scopes.filter fun scope =>
    row.consent.scopes.contains scope &&
      (lockedApplicationApprovedScopes db client.application).contains scope

inductive RefreshExchange where
  | issued (response : AppTokenResponse)
  | reuseDetected
deriving DecidableEq

def invalidRefreshGrant : ApiError := .badRequest "invalid_grant" "The refresh token is invalid."

def exchangeRefreshToken (db : Db) (settings : SecuritySettings) (now : Nat)
    (client : ApplicationIdentity) (supplied : List Nat) (fresh : Fresh) :
    Except ApiError (RefreshExchange × Db) :=
  match refreshTokenCandidate db client supplied with
  | none => .error invalidRefreshGrant
  | some candidate =>
      let applicationCurrent := lockCurrentApplicationClient db client
      let subjectAuthority := lockCurrentApplicationOauthSubjectAuthority db now client.application
        candidate.consent.id candidate.binding
      match refreshCredentialLock db client candidate with
      | none => .error invalidRefreshGrant
      | some (token, family) =>
          if token.consumedAt.isSome then
            .ok (.reuseDetected,
              compromiseRefreshFamily db now candidate.family.id candidate.family.session
                client.application)
          else if !refreshUsable now token family || !applicationCurrent then
            .error invalidRefreshGrant
          else
            match subjectAuthority with
            | none => .error invalidRefreshGrant
            | some authority =>
                let scopes := refreshIssuanceScopes db client candidate
                if scopes.isEmpty then .error invalidRefreshGrant
                else
                  match issueTokens db settings now client
                      (authority.tokenSubject candidate.binding candidate.consent.id) scopes
                      (some candidate.family.id) (some candidate.token.id) fresh with
                  | .error error => .error error
                  | .ok (response, issued) => .ok (.issued response, issued)

end SiliconIam.Auth.Authority
