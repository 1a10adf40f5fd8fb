/-
# Auth.SessionIssue -- sessions, consents and authorization codes

The operations that create sessions (the Carbon and Silicon logins and the login
of the testing plane) and the one that turns a session into an authorization
code: the organization selection, the consent it is recorded in and the request
with its code.

A consent belongs to one session (`consentUpsert` finds it by its session), its
scopes are replaced by every approval, and its selected memberships grow by union
while the application is public and are replaced while it is private.
-/
import SiliconIam.Auth.Delegation

namespace SiliconIam.Auth.Authority

open SiliconIam.Auth.RefreshFamily (AppError)

set_option autoImplicit false

/-! ## Logins -/

def newSession (now ttl : Nat) (subject : Nat) (kind : PrincipalKind) (authEpoch assurance : Nat)
    (fresh : Fresh) : Session where
  id := fresh.session
  subject := subject
  subjectKind := kind
  authEpoch := authEpoch
  assuranceLevel := assurance
  status := .active
  idleExpiresAt := now + ttl
  absoluteExpiresAt := now + ttl
  revokedAt := none
  revocationReason := none
  version := 1

/-- The session's foreign key: its subject exists under that kind. -/
def insertSubjectSession (db : Db) (session : Session) : Option Db :=
  if db.principals.any fun principal =>
      principal.id = session.subject && principal.kind = session.subjectKind then
    insertSession db session
  else none

def firstPartyFamily (session : Session) (fresh : Fresh) : Family where
  id := fresh.family
  session := session.id
  subject := session.subject
  client := none
  consent := none
  status := .active
  absoluteExpiresAt := session.absoluteExpiresAt
  revokedAt := none
  compromisedAt := none
  revocationReason := none
  scopes := []

/-- The rows a login commits: the session, its family and the first token pair. -/
def issueSession (db : Db) (settings : SecuritySettings) (now : Nat) (session : Session)
    (publicId : String) (organization membership membershipAuthzEpoch : Option Nat)
    (fresh : Fresh) : Except AppError (TokenResponse × Db) :=
  match insertSubjectSession db session with
  | none => .error (.internal "authentication_session_create")
  | some db =>
      match insertFamily db (firstPartyFamily session fresh) with
      | none => .error (.internal "refresh_family_create")
      | some db =>
          insertTokenPairWithId db settings now
            { principal := session.subject
              subjectKind := session.subjectKind
              authEpoch := session.authEpoch
              publicId := publicId
              organization := organization
              membership := membership
              membershipAuthzEpoch := membershipAuthzEpoch
              session := session.id
              family := fresh.family
              parentRefreshToken := none
              refreshExpiresAt := session.absoluteExpiresAt } fresh

def issueLoginSession (db : Db) (settings : SecuritySettings) (now principalId : Nat)
    (fresh : Fresh) : Except AppError (TokenResponse × Db) :=
  match activePrincipal db principalId .carbon with
  | none => .error .unauthenticated
  | some principal =>
      match liveCarbon db principal.id with
      | none => .error .unauthenticated
      | some carbon =>
          issueSession db settings now
            (newSession now settings.refreshFamilyTtl principal.id .carbon principal.authEpoch 1 fresh)
            carbon.carbonId none none none fresh

/-- What the Silicon credential lookup resolved, in the same transaction. -/
structure SiliconLoginIdentity where
  principal : Nat
  principalAuthEpoch : Nat
  organization : Nat
  membership : Nat
  membershipAuthzEpoch : Nat
  globalSiliconId : String
deriving DecidableEq

def issueSiliconSession (db : Db) (settings : SecuritySettings) (now : Nat)
    (identity : SiliconLoginIdentity) (fresh : Fresh) : Except AppError (TokenResponse × Db) :=
  issueSession db settings now
    (newSession now settings.refreshFamilyTtl identity.principal .silicon
      identity.principalAuthEpoch 2 fresh)
    identity.globalSiliconId (some identity.organization) (some identity.membership)
    (some identity.membershipAuthzEpoch) fresh

/-- The active memberships of a subject in active organizations. -/
def activeMemberships (db : Db) (subject : Nat) : List Membership :=
  db.directory.memberships.filter fun member =>
    member.principal = subject && member.active && activeOrganization db member.organization

/-- The actor a testing application may name: an active Carbon, or an active Silicon
whose own membership is active. -/
def testingActor (db : Db) (publicId : String) : Option (Principal × String) :=
  (db.principals.rows.find? fun principal =>
    principal.status = .active &&
      ((principal.kind = .carbon &&
          db.directory.carbons.any fun carbon =>
            carbon.id = principal.id && carbon.carbonId = publicId) ||
        (principal.kind = .silicon &&
          db.directory.silicons.any fun silicon =>
            silicon.id = principal.id && silicon.globalSiliconId = publicId &&
              silicon.provisioned &&
              (activeMemberships db principal.id).any fun member =>
                member.id = silicon.membership))).map fun principal => (principal, publicId)

def insertConsent (db : Db) (consent : Consent) : Option Db :=
  if unused db consent.id && db.consents.all fun other => other.grantKey != consent.grantKey then
    (db.consents.insert consent).map fun consents =>
      { db with consents := consents, drawn := consent.id :: db.drawn }
  else none

/-- `create_testing_actor_login` and the exchange around it. -/
def exchangeTestingActor (db : Db) (settings : SecuritySettings) (now : Nat)
    (client : ApplicationIdentity) (actorId : String) (fresh : Fresh) :
    Except ApiError (AppTokenResponse × Db) :=
  if !lockCurrentApplicationClient db client then
    .error (.badRequest "invalid_grant" "The test actor ID is invalid.")
  else
    match testingActor db actorId with
    | none => .error (.badRequest "invalid_grant" "The test actor ID is invalid.")
    | some (actor, publicId) =>
        let selected := (activeMemberships db actor.id).map Membership.id
        let scopes := lockedApplicationApprovedScopes db client.application
        let session := newSession now settings.refreshFamilyTtl actor.id actor.kind actor.authEpoch
          1 fresh
        match (insertSubjectSession db session).bind fun db =>
            insertConsent db
              { id := fresh.consent
                application := client.application
                subject := actor.id
                subjectKind := actor.kind
                organization := none
                membership := none
                parentSession := session.id
                selectedMemberships := selected
                active := true
                revokedAt := none
                scopes := scopes } with
        | none => .error (.internal "test_actor_login")
        | some db =>
            issueTokens db settings now client
              { session := session.id
                principal := actor.id
                subjectKind := actor.kind
                subjectAuthEpoch := actor.authEpoch
                organization := none
                membership := none
                membershipAuthzEpoch := none
                consentGrant := fresh.consent
                orgId := none
                subjectPublicId := publicId } scopes none none fresh

/-! ## Organization selection -/

/-- The session of the subject, live and of its current epoch. -/
def liveSubjectSession (db : Db) (now subject session : Nat) : Bool :=
  db.sessions.any fun row =>
    row.id = session && row.subject = subject && row.live now &&
      db.principals.any fun principal =>
        principal.id = row.subject && principal.status = .active &&
          principal.authEpoch = row.authEpoch

def lockLoginOrganizationSelection (db : Db) (now subject session : Nat) (orgIds : List String) :
    List Nat :=
  if liveSubjectSession db now subject session then
    (db.directory.memberships.filter fun member =>
      member.principal = subject && member.active &&
        db.directory.organizations.any fun org =>
          org.id = member.organization && org.active && orgIds.contains org.orgId).map Membership.id
  else []

def privateApplication (db : Db) (app : Nat) : Bool :=
  db.directory.applications.any fun application => application.id = app && application.isPrivate

/-- A private application only takes its own organization, and only from a subject
it allows. -/
def ownOrganizationOnly (db : Db) (app subject : Nat) (orgIds : List String) : Bool :=
  match orgIds with
  | [orgId] =>
      db.directory.applications.any fun application =>
        application.id = app &&
          db.directory.organizations.any fun org =>
            org.id = application.organization && org.orgId = orgId &&
              applicationAllowsSubject db application.id subject (some org.id)
  | _ => false

def onboardingScopes : List String := ["organizations.create", "organizations.join"]

def privateApplicationOrganizationRequired : ApiError :=
  .forbidden "private_application_organization_required"

def lockAccountLoginOrganizationSelection (db : Db) (now subject session : Nat)
    (orgIds : List String) (app : Nat) : Except ApiError (List Nat) :=
  if 1000 < orgIds.length then .error (.forbidden "organization_context_forbidden")
  else if privateApplication db app && !ownOrganizationOnly db app subject orgIds then
    .error privateApplicationOrganizationRequired
  else if !orgIds.isEmpty then .ok (lockLoginOrganizationSelection db now subject session orgIds)
  else if (currentApplication db app).isNone || (activePrincipal db app .application).isNone then
    .error (.forbidden "organization_context_forbidden")
  else if !(lockedApplicationApprovedScopes db app).any onboardingScopes.contains then
    .error (.forbidden "organization_context_forbidden")
  else if !(liveSubjectSession db now subject session && (liveCarbon db subject).isSome) then
    .error (.forbidden "organization_context_forbidden")
  else .ok []

/-! ## Consent and code -/

/-- What a code is minted for. -/
structure MintSubject where
  application : Nat
  session : Nat
  principal : Nat
  subjectKind : PrincipalKind
  organization : Option Nat
  membership : Option Nat
  selectedMemberships : List Nat
deriving DecidableEq

def authorizationRequestSeconds : Nat := 600

/-- `list_application_login_approved_scopes`. -/
def listApplicationLoginApprovedScopes (db : Db) (app : Nat) : List String :=
  match currentApplication db app with
  | none => []
  | some application =>
      if (activePrincipal db app .application).isSome then application.approvedScopes else []

def newRequest (now : Nat) (subject : MintSubject) (scopes : List String) (fresh : Fresh) :
    AuthorizationRequest where
  id := fresh.request
  application := subject.application
  session := subject.session
  subject := subject.principal
  subjectKind := subject.subjectKind
  organization := subject.organization
  membership := subject.membership
  status := .pending
  expiresAt := now + authorizationRequestSeconds
  decidedAt := none
  scopes := scopes

/-- The request's foreign key: the session of that subject exists. -/
def insertRequest (db : Db) (request : AuthorizationRequest) : Option Db :=
  if unused db request.id && db.sessions.any fun session =>
      session.id = request.session && session.subject = request.subject then
    (db.requests.insert request).map fun requests =>
      { db with requests := requests, drawn := request.id :: db.drawn }
  else none

/-- The conflict target of the upsert. -/
def Consent.forRequest (request : AuthorizationRequest) (consent : Consent) : Bool :=
  consent.application = request.application && consent.subject = request.subject &&
    consent.organization = request.organization && consent.parentSession = request.session

/-- What an approval writes to the consent of its request. -/
def Consent.approve (isPrivate : Bool) (request : AuthorizationRequest) (selected : List Nat)
    (consent : Consent) : Consent :=
  let kept := if consent.active then consent.selectedMemberships else []
  { consent with
    membership := request.membership
    active := true
    revokedAt := none
    selectedMemberships := if isPrivate then selected.dedup else (kept ++ selected).dedup
    scopes := request.scopes }

def newConsent (request : AuthorizationRequest) (fresh : Fresh) : Consent where
  id := fresh.consent
  application := request.application
  subject := request.subject
  subjectKind := request.subjectKind
  organization := request.organization
  membership := request.membership
  parentSession := request.session
  selectedMemberships := []
  active := true
  revokedAt := none
  scopes := []

/-- `OAUTH_CONSENT_UPSERT_QUERY` with the two updates after it. -/
def consentUpsert (db : Db) (request : AuthorizationRequest) (selected : List Nat) (fresh : Fresh) :
    Option Db :=
  let isPrivate := privateApplication db request.application
  if db.consents.any (Consent.forRequest request) then
    some { db with
      consents := db.consents.update (Consent.forRequest request)
        (Consent.approve isPrivate request selected) fun _ => rfl }
  else insertConsent db ((newConsent request fresh).approve isPrivate request selected)

def insertCode (db : Db) (code : AuthorizationCode) : Option Db :=
  if unused db code.id && db.codes.all fun other => other.digest != code.digest then
    (db.codes.insert code).map fun codes => { db with codes := codes, drawn := code.id :: db.drawn }
  else none

def newCode (settings : SecuritySettings) (now : Nat) (request : AuthorizationRequest)
    (fresh : Fresh) : AuthorizationCode where
  id := fresh.code
  request := request.id
  application := request.application
  digest := fresh.codeDigest
  expiresAt := now + settings.authorizationCodeTtl
  consumedAt := none

/-- `approve_request` on a request of this transaction, which is still pending. -/
def approveRequest (db : Db) (settings : SecuritySettings) (now : Nat)
    (request : AuthorizationRequest) (selected : List Nat) (fresh : Fresh) : Except ApiError Db :=
  match consentUpsert db request selected fresh with
  | none => .error (.internal "oauth_consent_grant_upsert")
  | some db =>
      let pending (row : AuthorizationRequest) : Bool :=
        row.id = request.id && row.status = .pending && now < row.expiresAt
      if db.requests.any pending then
        let db := { db with
          requests := db.requests.update pending
            (fun row => { row with status := .approved, decidedAt := some now }) fun _ => rfl }
        match insertCode db (newCode settings now request fresh) with
        | none => .error (.internal "authorization_code_insert")
        | some db => .ok db
      else .error (.conflict "authorization_request_already_decided")

def mintShortLivedToken (db : Db) (settings : SecuritySettings) (now : Nat) (subject : MintSubject)
    (scopes : List String) (fresh : Fresh) : Except ApiError Db :=
  let approved := listApplicationLoginApprovedScopes db subject.application
  let request := newRequest now subject (scopes.filter approved.contains) fresh
  match insertRequest db request with
  | none => .error (.internal "login_request_insert")
  | some db => approveRequest db settings now request subject.selectedMemberships fresh

/-- A request for a code: `scopes` is what the consent policy left of the caller's
choice. -/
structure ShortLivedTokenRequest where
  appId : String
  orgIds : List String
  scopes : List String
deriving DecidableEq

/-- An onboarding consent of a Carbon may name no organization. -/
def validateOrganizationSelection (actor : PrincipalKind) (scopes orgIds : List String) :
    Except ApiError Unit :=
  if 1000 < orgIds.length ||
      (orgIds.isEmpty && !(actor = .carbon && scopes.any onboardingScopes.contains)) then
    .error (.badRequest "organization_selection_required"
      "Select between 1 and 1000 organizations. Only a Carbon consenting to organizations.create or organizations.join may select none.")
  else .ok ()

def issueForSelection (db : Db) (settings : SecuritySettings) (now : Nat) (access : AccessContext)
    (input : ShortLivedTokenRequest) (fresh : Fresh) : Except ApiError Db :=
  if access.subject.kind = .application then .error (.forbidden "direct_iam_login_required")
  else
    match db.directory.applications.find? fun application =>
        application.appId = input.appId && application.current &&
          (activePrincipal db application.id .application).isSome &&
          applicationAllowsSubject db application.id access.subject.id none with
    | none => .error (.badRequest "invalid_request" "The application is unknown.")
    | some app =>
        match validateOrganizationSelection access.subject.kind input.scopes input.orgIds with
        | .error error => .error error
        | .ok () =>
            if !input.orgIds.Nodup then
              .error (.validation "org_ids" "must not contain duplicates")
            else
              match lockAccountLoginOrganizationSelection db now access.subject.id access.session
                  input.orgIds app.id with
              | .error error => .error error
              | .ok selected =>
                  if selected.length ≠ input.orgIds.length then
                    .error (.forbidden "organization_context_forbidden")
                  else
                    mintShortLivedToken db settings now
                      { application := app.id
                        session := access.session
                        principal := access.subject.id
                        subjectKind := access.subject.kind
                        organization := none
                        membership := none
                        selectedMemberships := selected } input.scopes fresh

end SiliconIam.Auth.Authority
