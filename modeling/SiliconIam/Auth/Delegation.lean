/-
# Auth.Delegation -- OBO proofs and introspection

The exchange of an application's access token for an OBO proof, the proof's
verification by its audience, and introspection.  Exchange and introspection
start from an `AccessContext` that bearer authentication returned in an earlier
transaction, so the context is an argument here and may be out of date: every
check below is on the rows of this transaction.

`getCurrentApplicationAuthorization` is the snapshot that introspection discloses
and that verification checks once more under lock; what it discloses beyond
identity, organization, epoch and scopes is left out.
-/
import SiliconIam.Auth.Issuance

namespace SiliconIam.Auth.Authority

set_option autoImplicit false

def activePrincipal (db : Db) (id : Nat) (kind : PrincipalKind) : Option Principal :=
  db.principals.find? fun principal =>
    principal.id = id && principal.kind = kind && principal.status = .active

def currentApplication (db : Db) (id : Nat) : Option Application :=
  db.directory.applications.find? fun application => application.id = id && application.current

/-- The token names this membership as it is now, or no organization at all. -/
def AccessToken.boundTo (organization membership epoch : Nat) (token : AccessToken) : Bool :=
  (token.organization = some organization && token.membership = some membership &&
      token.membershipAuthzEpoch = some epoch) ||
    (token.organization.isNone && token.membership.isNone && token.membershipAuthzEpoch.isNone)

/-! ## Exchange -/

/-- An exchange request.  `checks` is what the request's signature and metadata are
checked against: the endpoint's path and its metadata definition. -/
structure OboExchangeRequest where
  orgId : Option String
  audience : String
  endpointId : String
  metadata : String
  method : String
  bodySha256 : List UInt8
  signedAt : Nat
  checks : Endpoint → Except ApiError Unit

def signatureToleranceSeconds : Nat := 60

def signatureFresh (signedAt now : Nat) : Bool :=
  now ≤ signedAt + signatureToleranceSeconds && signedAt ≤ now + signatureToleranceSeconds

def resolveApplicationOboMemberships (db : Db) (context : DatabaseContext) (now : Nat)
    (tokenId subjectId : Nat) (orgId : Option String) : List (Nat × Nat) :=
  match db.access.find? fun token =>
      token.id = tokenId && token.subject = subjectId && token.client = context.application &&
        context.principal = context.application with
  | none => []
  | some token =>
      (db.directory.memberships.filterMap fun membership =>
        if membership.principal = token.subject && membership.principalKind = token.subjectKind &&
            membership.active &&
            (db.directory.organizations.any fun organization =>
              organization.id = membership.organization && organization.active &&
                (orgId.isNone || orgId = some organization.orgId)) &&
            applicationTokenAllowsMembership db context now token.id membership.id then
          some (membership.organization, membership.id)
        else none).take 2

def selectedMembership : List (Nat × Nat) → Except ApiError (Nat × Nat)
  | [membership] => .ok membership
  | [] => .error (.forbidden "obo_organization_not_authorized")
  | _ =>
      .error (.validation "org_id" "is required when more than one organization is authorized")

structure ExchangeAuthority where
  audienceApplication : Nat
  endpoint : Endpoint
  audienceAuthEpoch : Nat
  subjectAuthEpoch : Nat
  membershipAuthzEpoch : Nat
deriving DecidableEq

/-- The parent token of an exchange, with everything the query asks of its row. -/
def exchangeParent (db : Db) (context : DatabaseContext) (now : Nat) (tokenId : Nat)
    (issuer : Application) (issuerPrincipal subject : Principal) (member : Membership) :
    Option AccessToken :=
  db.access.find? fun parent =>
    parent.id = tokenId && parent.tokenClass = .applicationAccess &&
      applicationTokenAllowsMembership db context now parent.id member.id &&
      parent.client = some issuer.id && parent.audienceApplication = some issuer.id &&
      parent.audience = issuer.appId && parent.subject = subject.id &&
      parent.subjectKind = subject.kind &&
      parent.boundTo member.organization member.id member.authzEpoch &&
      parent.subjectAuthEpoch = subject.authEpoch &&
      parent.clientAuthEpoch = some issuerPrincipal.authEpoch && parent.unexpired now

def lockCurrentApplicationOboExchangeAuthority (db : Db) (context : DatabaseContext) (now : Nat)
    (client : ApplicationIdentity) (access : AccessContext) (organization membership : Nat)
    (audienceAppId endpointId : String) : Option ExchangeAuthority := do
  let org ← db.directory.organizations.find? fun org => org.id = organization && org.active
  let issuer ← currentApplication db client.application
  let issuerPrincipal ← db.principals.find? fun principal =>
    principal.id = issuer.id && principal.kind = .application && principal.status = .active &&
      principal.authEpoch = client.authEpoch
  let member ← db.directory.memberships.find? fun member =>
    member.organization = org.id && member.id = membership &&
      member.principal = access.subject.id && member.principalKind = access.subject.kind &&
      member.active
  let subject ← activePrincipal db member.principal member.principalKind
  let parent ← exchangeParent db context now access.token issuer issuerPrincipal subject member
  let _ ← currentSession db now subject parent.session
  let audience ← db.directory.applications.find? fun application =>
    application.appId = audienceAppId && application.current
  let audiencePrincipal ← activePrincipal db audience.id .application
  let endpoint ← db.directory.endpoints.find? fun endpoint =>
    endpoint.application = audience.id && endpoint.endpointId = endpointId && endpoint.active
  if applicationTokenAllowsExternalScope db context now parent.id audience.id endpoint.endpointId then
    pure
      { audienceApplication := audience.id
        endpoint := endpoint
        audienceAuthEpoch := audiencePrincipal.authEpoch
        subjectAuthEpoch := subject.authEpoch
        membershipAuthzEpoch := member.authzEpoch }
  else none

/-- `application_obo_exchange_replay_is_live`: the proof of a repeated exchange is
only returned while everything it stands on is current. -/
def exchangeReplayIsLive (db : Db) (context : DatabaseContext) (now : Nat)
    (proofId issuer organization : Nat) : Bool :=
  db.proofs.any fun proof =>
    proof.id = proofId && proof.issuerApplication = issuer && proof.organization = organization &&
      proof.consumedAt.isNone && proof.revokedAt.isNone && now < proof.expiresAt &&
      context.application = some proof.issuerApplication &&
      (currentApplication db proof.issuerApplication).isSome &&
      (currentApplication db proof.audienceApplication).isSome &&
      applicationTokenAllowsExternalScope db context now proof.parentAccessToken
        proof.audienceApplication proof.endpointId &&
      db.directory.endpoints.any (fun endpoint =>
        endpoint.application = proof.audienceApplication &&
          endpoint.endpointId = proof.endpointId && endpoint.path = proof.requestPath &&
          endpoint.version = proof.endpointVersion && endpoint.active) &&
      db.principals.any (fun audience =>
        audience.id = proof.audienceApplication && audience.kind = .application &&
          audience.status = .active && audience.authEpoch = proof.audienceAuthEpoch) &&
      db.principals.any fun issuerPrincipal =>
        issuerPrincipal.id = proof.issuerApplication && issuerPrincipal.kind = .application &&
          issuerPrincipal.status = .active && issuerPrincipal.authEpoch = proof.issuerAuthEpoch &&
          db.principals.any fun subject =>
            subject.id = proof.subject && subject.kind = proof.subjectKind &&
              subject.status = .active && subject.authEpoch = proof.subjectAuthEpoch &&
              db.directory.memberships.any fun membership =>
                membership.organization = proof.organization &&
                  membership.id = proof.membership && membership.principal = proof.subject &&
                  membership.principalKind = proof.subjectKind && membership.active &&
                  membership.authzEpoch = proof.membershipAuthzEpoch &&
                  db.access.any fun parent =>
                    parent.id = proof.parentAccessToken &&
                      parent.client = some proof.issuerApplication &&
                      parent.subjectAuthEpoch = subject.authEpoch &&
                      parent.boundTo proof.organization proof.membership membership.authzEpoch &&
                      applicationTokenAllowsMembership db context now parent.id membership.id &&
                      parent.clientAuthEpoch = some issuerPrincipal.authEpoch &&
                      parent.unexpired now &&
                      db.sessions.any fun session =>
                        session.id = parent.session && session.live now

structure OboProofResponse where
  proofId : Nat
  expiresAt : Nat
deriving DecidableEq

def newProof (now : Nat) (client : ApplicationIdentity) (access : AccessContext)
    (organization membership : Nat) (request : OboExchangeRequest) (authority : ExchangeAuthority)
    (fresh : Fresh) : OboProof where
  id := fresh.proof
  digest := fresh.proofDigest
  issuerApplication := client.application
  audienceApplication := authority.audienceApplication
  subject := access.subject.id
  subjectKind := access.subject.kind
  organization := organization
  membership := membership
  parentAccessToken := access.token
  endpointId := request.endpointId
  endpointVersion := authority.endpoint.version
  requestMetadata := request.metadata
  requestMethod := request.method
  requestPath := authority.endpoint.path
  requestBodySha256 := request.bodySha256
  requestSignedAt := request.signedAt
  subjectAuthEpoch := authority.subjectAuthEpoch
  membershipAuthzEpoch := authority.membershipAuthzEpoch
  issuerAuthEpoch := client.authEpoch
  audienceAuthEpoch := authority.audienceAuthEpoch
  expiresAt := now + authority.endpoint.ttlSeconds
  consumedAt := none
  revokedAt := none

def insertProof (db : Db) (proof : OboProof) : Option Db :=
  if unused db proof.id && db.proofs.all fun other => other.digest != proof.digest then
    (db.proofs.insert proof).map fun proofs =>
      { db with proofs := proofs, drawn := proof.id :: db.drawn }
  else none

/-- The settings after the subject's organization was selected, and after the
subject itself was installed. -/
def clientContext (client : ApplicationIdentity) (organization : Nat) : DatabaseContext where
  principal := some client.application
  organization := some organization
  application := some client.application

def subjectContext (client : ApplicationIdentity) (subject organization : Nat) :
    DatabaseContext where
  principal := some subject
  organization := some organization
  application := some client.application

/-- The transaction of `exchange` after the bearer was authenticated.  `replayed` is
the proof of the stored response when the idempotency key was used before. -/
def oboExchange (db : Db) (now : Nat) (client : ApplicationIdentity) (access : AccessContext)
    (request : OboExchangeRequest) (replayed : Option Nat) (fresh : Fresh) :
    Except ApiError (Option OboProofResponse × Db) :=
  if !signatureFresh request.signedAt now then .error .invalidClient
  else if access.client ≠ some client.application then
    .error (.forbidden "obo_subject_token_forbidden")
  else
    match selectedMembership
        (resolveApplicationOboMemberships db (clientContext client client.organization) now
          access.token access.subject.id request.orgId) with
    | .error error => .error error
    | .ok (organization, membership) =>
        match lockCurrentApplicationOboExchangeAuthority db (clientContext client organization) now
            client access organization membership request.audience request.endpointId with
        | none => .error .notFound
        | some authority =>
            match request.checks authority.endpoint with
            | .error error => .error error
            | .ok () =>
                match replayed with
                | some proofId =>
                    if exchangeReplayIsLive db
                        (subjectContext client access.subject.id organization) now proofId
                        client.application organization then
                      .ok (none, db)
                    else .error (.conflict "idempotency_response_expired")
                | none =>
                    let proof := newProof now client access organization membership request
                      authority fresh
                    match insertProof db proof with
                    | none => .error (.internal "obo_proof_insert")
                    | some db =>
                        .ok (some { proofId := proof.id, expiresAt := proof.expiresAt }, db)

/-! ## The authorization snapshot -/

structure ApplicationAuthorization where
  principal : Nat
  actorKind : PrincipalKind
  publicId : String
  organization : Nat
  orgId : String
  membership : Nat
  authorizationEpoch : Nat
  audience : String
  scopes : List String
deriving DecidableEq

def disclosureScopes : List String := ["self.identity.read", "self.membership.read", "self.tags.read"]

/-- The public identifier of a Carbon, or of a Silicon in this membership. -/
def publicIdentifier (db : Db) (subject : Principal) (organization membership : Nat) :
    Option String :=
  match subject.kind with
  | .carbon => (liveCarbon db subject.id).map Carbon.carbonId
  | .silicon =>
      (db.directory.silicons.find? fun silicon =>
        silicon.id = subject.id && silicon.organization = organization &&
          silicon.membership = membership && silicon.provisioned &&
          silicon.deletedAt.isNone).map Silicon.globalSiliconId
  | .application => none

/-- The rows the snapshot is built from. -/
structure AuthorizationRows where
  token : AccessToken
  subject : Principal
  session : Session
  member : Membership
  org : Organization
  issuer : Application
  issuerPrincipal : Principal
  audience : Application
  publicId : String
deriving DecidableEq

/-- The first lookup: the exact supplied chain. -/
def authorizationToken (db : Db) (context : DatabaseContext) (now : Nat)
    (tokenId subjectId organization membership : Nat) (audience : ApplicationIdentity)
    (proofId : Option Nat) : Option AccessToken :=
  db.access.find? fun token =>
    token.id = tokenId && token.subject = subjectId &&
      ((token.organization = some organization && token.membership = some membership) ||
        (token.organization.isNone && token.membership.isNone)) &&
      applicationTokenAllowsMembership db context now token.id membership &&
      token.tokenClass = .applicationAccess &&
      (proofId.isSome || token.client = some audience.application)

/-- The locking read of the whole chain. -/
def authorizationRows (db : Db) (now : Nat) (token : AccessToken) (organization membership : Nat)
    (audience : ApplicationIdentity) (proofId : Option Nat) : Option AuthorizationRows := do
  let subject ← db.principals.find? fun subject =>
    subject.id = token.subject && subject.kind = token.subjectKind && subject.status = .active &&
      subject.authEpoch = token.subjectAuthEpoch
  let session ← currentSession db now subject token.session
  let member ← db.directory.memberships.find? fun member =>
    member.id = membership && member.organization = organization &&
      member.principal = subject.id && member.principalKind = subject.kind && member.active &&
      (token.organization.isNone ||
        (token.membership = some member.id && token.organization = some member.organization &&
          token.membershipAuthzEpoch = some member.authzEpoch))
  let org ← db.directory.organizations.find? fun org => org.id = member.organization && org.active
  let issuer ← db.directory.applications.find? fun issuer =>
    some issuer.id = token.client && some issuer.id = token.audienceApplication &&
      issuer.appId = token.audience && issuer.current
  let issuerPrincipal ← db.principals.find? fun principal =>
    principal.id = issuer.id && principal.kind = .application && principal.status = .active &&
      some principal.authEpoch = token.clientAuthEpoch
  let audienceRow ← currentApplication db audience.application
  let _ ← db.principals.find? fun principal =>
    principal.id = audienceRow.id && principal.kind = .application && principal.status = .active &&
      principal.authEpoch = audience.authEpoch
  let publicId ← publicIdentifier db subject org.id member.id
  if token.unexpired now && (proofId.isSome || issuer.id = audienceRow.id) then
    pure
      { token := token
        subject := subject
        session := session
        member := member
        org := org
        issuer := issuer
        issuerPrincipal := issuerPrincipal
        audience := audienceRow
        publicId := publicId }
  else none

/-- The scopes of the locking read.  Across applications only the self disclosures
the issuer is approved for remain. -/
def snapshotScopes (db : Db) (rows : AuthorizationRows) (proofId : Option Nat) : List String :=
  rows.token.scopes.filter fun scope =>
    (lockedApplicationApprovedScopes db rows.audience.id).contains scope &&
      (proofId.isNone ||
        (disclosureScopes.contains scope && rows.issuer.approvedScopes.contains scope))

/-- The consent a proof's parent still needs. -/
def parentConsent (db : Db) (token : AccessToken) (membership : Nat) : Option Consent :=
  db.consents.find? fun consent =>
    consent.covers token && consent.selectedMemberships.contains membership

/-- The exact persisted proof, with its endpoint as it was. -/
def authorizationProof (db : Db) (context : DatabaseContext) (now : Nat) (rows : AuthorizationRows)
    (audience : ApplicationIdentity) (proofId : Nat) : Option OboProof :=
  db.proofs.find? fun proof =>
    proof.id = proofId && proof.parentAccessToken = rows.token.id &&
      proof.subject = rows.subject.id && proof.subjectKind = rows.subject.kind &&
      proof.organization = rows.org.id && proof.membership = rows.member.id &&
      proof.issuerApplication = rows.issuer.id && proof.audienceApplication = audience.application &&
      proof.subjectAuthEpoch = rows.subject.authEpoch &&
      proof.issuerAuthEpoch = rows.issuerPrincipal.authEpoch &&
      proof.membershipAuthzEpoch = rows.member.authzEpoch &&
      proof.audienceAuthEpoch = audience.authEpoch &&
      applicationTokenAllowsExternalScope db context now rows.token.id audience.application
        proof.endpointId &&
      proof.revokedAt.isNone && now < proof.expiresAt &&
      db.directory.endpoints.any fun endpoint =>
        endpoint.application = proof.audienceApplication &&
          endpoint.endpointId = proof.endpointId && endpoint.path = proof.requestPath &&
          endpoint.version = proof.endpointVersion && endpoint.active

def AuthorizationRows.snapshot (rows : AuthorizationRows) (scopes : List String) :
    ApplicationAuthorization where
  principal := rows.subject.id
  actorKind := rows.subject.kind
  publicId := rows.publicId
  organization := rows.org.id
  orgId := rows.org.orgId
  membership := rows.member.id
  authorizationEpoch := rows.member.authzEpoch
  audience := rows.audience.appId
  scopes := scopes

def getCurrentApplicationAuthorization (db : Db) (context : DatabaseContext) (now : Nat)
    (tokenId subjectId organization membership : Nat) (audience : ApplicationIdentity)
    (proofId : Option Nat) : Except ApiError (Option ApplicationAuthorization) :=
  match (authorizationToken db context now tokenId subjectId organization membership audience
      proofId).bind fun token =>
        authorizationRows db now token organization membership audience proofId with
  | none => .ok none
  | some rows =>
      match proofId with
      | none => .ok (some (rows.snapshot (snapshotScopes db rows none)))
      | some id =>
          match parentConsent db rows.token membership with
          | none => .ok none
          | some consent =>
              match authorizationProof db context now rows audience id with
              | none => .ok none
              | some proof =>
                  if proof.consumedAt.isSome then .error (.conflict "obo_proof_consumed")
                  else
                    .ok (some (rows.snapshot
                      (oboScope rows.audience proof.endpointId ::
                        (snapshotScopes db rows (some id)).filter fun scope =>
                          consent.scopes.contains scope)))

/-! ## Verification -/

structure OboVerifyRequest where
  method : String
  path : String
  bodySha256 : List UInt8
deriving DecidableEq

/-- `lookup_application_obo_proof`: only this audience's proofs, and only while the
endpoint is still registered under the proof's path. -/
def lookupApplicationOboProof (db : Db) (client : ApplicationIdentity) (supplied : List Nat) :
    Option OboProof :=
  db.proofs.find? fun proof =>
    supplied.contains proof.digest && proof.audienceApplication = client.application &&
      db.directory.applications.any (fun issuer => issuer.id = proof.issuerApplication) &&
      db.directory.endpoints.any fun endpoint =>
        endpoint.application = proof.audienceApplication &&
          endpoint.endpointId = proof.endpointId && endpoint.path = proof.requestPath

def requestBindingMatches (proof : OboProof) (request : OboVerifyRequest) : Bool :=
  proof.requestMethod = request.method && proof.requestPath = request.path &&
    proof.requestBodySha256 = request.bodySha256

structure CurrentProofContext where
  orgId : String
  subjectPublicId : String
  subjectAuthEpoch : Nat
  membershipAuthzEpoch : Nat
  issuerAuthEpoch : Nat
  audienceAuthEpoch : Nat
  parentActive : Bool
  endpointActive : Bool
deriving DecidableEq

/-- The `parent_active` column. -/
def parentActive (db : Db) (context : DatabaseContext) (now : Nat) (proof : OboProof)
    (subject issuer : Principal) (member : Membership) (audience : Nat) : Bool :=
  db.access.any fun parent =>
    parent.id = proof.parentAccessToken && parent.client = some proof.issuerApplication &&
      parent.subject = proof.subject && parent.subjectAuthEpoch = subject.authEpoch &&
      parent.boundTo proof.organization proof.membership member.authzEpoch &&
      parent.clientAuthEpoch = some issuer.authEpoch && parent.unexpired now &&
      applicationTokenAllowsMembership db context now parent.id proof.membership &&
      applicationTokenAllowsExternalScope db context now parent.id audience proof.endpointId &&
      db.sessions.any fun session => session.id = parent.session && session.live now

def applicationOboLoadCurrentContext (db : Db) (context : DatabaseContext) (now : Nat)
    (proof : OboProof) (audience : Nat) : Option CurrentProofContext := do
  let org ← db.directory.organizations.find? fun org => org.id = proof.organization && org.active
  let member ← db.directory.memberships.find? fun member =>
    member.organization = org.id && member.id = proof.membership &&
      member.principal = proof.subject && member.principalKind = proof.subjectKind && member.active
  let subject ← activePrincipal db member.principal member.principalKind
  let publicId ← publicIdentifier db subject org.id member.id
  let issuer ← currentApplication db proof.issuerApplication
  let issuerPrincipal ← activePrincipal db issuer.id .application
  let audienceRow ← currentApplication db audience
  let audiencePrincipal ← activePrincipal db audienceRow.id .application
  let endpoint ← db.directory.endpoints.find? fun endpoint =>
    endpoint.application = audienceRow.id && endpoint.endpointId = proof.endpointId
  pure
    { orgId := org.orgId
      subjectPublicId := publicId
      subjectAuthEpoch := subject.authEpoch
      membershipAuthzEpoch := member.authzEpoch
      issuerAuthEpoch := issuerPrincipal.authEpoch
      audienceAuthEpoch := audiencePrincipal.authEpoch
      parentActive := parentActive db context now proof subject issuerPrincipal member audience
      endpointActive :=
        endpoint.path = proof.requestPath && endpoint.version = proof.endpointVersion &&
          endpoint.active }

structure OboAccessResult where
  proof : OboProof
  audience : String
  authorization : ApplicationAuthorization
  subjectPublicId : String
  orgId : String
  consumedAt : Nat
deriving DecidableEq

/-- The epochs the proof was issued under, compared with the current ones. -/
def CurrentProofContext.matches (current : CurrentProofContext) (proof : OboProof) : Bool :=
  current.subjectAuthEpoch = proof.subjectAuthEpoch &&
    current.membershipAuthzEpoch = proof.membershipAuthzEpoch &&
    current.issuerAuthEpoch = proof.issuerAuthEpoch &&
    current.audienceAuthEpoch = proof.audienceAuthEpoch && current.parentActive

/-- The rows the conditional consumption matches. -/
def proofConsumable (now proofId : Nat) (proof : OboProof) : Bool :=
  proof.id = proofId && proof.consumedAt.isNone && proof.revokedAt.isNone && now < proof.expiresAt

def oboVerify (db : Db) (now : Nat) (client : ApplicationIdentity) (supplied : List Nat)
    (request : OboVerifyRequest) : Except ApiError (OboAccessResult × Db) :=
  match lookupApplicationOboProof db client supplied with
  | none => .error (.gone "obo_proof_invalid")
  | some proof =>
      if proof.consumedAt.isSome then .error (.conflict "obo_proof_consumed")
      else if proof.revokedAt.isSome || proof.expiresAt ≤ now then
        .error (.gone "obo_proof_expired")
      else if !requestBindingMatches proof request then
        .error (.forbidden "obo_request_binding_mismatch")
      else
        let context := subjectContext client proof.subject proof.organization
        match applicationOboLoadCurrentContext db context now proof client.application with
        | none => .error (.gone "obo_proof_revoked")
        | some current =>
            if !current.matches proof then .error (.gone "obo_proof_revoked")
            else if !current.endpointActive then .error (.forbidden "obo_authority_revoked")
            else
              match getCurrentApplicationAuthorization db context now proof.parentAccessToken
                  proof.subject proof.organization proof.membership client (some proof.id) with
              | .error error => .error error
              | .ok none => .error (.gone "obo_proof_revoked")
              | .ok (some authorization) =>
                  if authorization.authorizationEpoch ≠ proof.membershipAuthzEpoch then
                    .error (.gone "obo_proof_revoked")
                  else if db.proofs.any (proofConsumable now proof.id) then
                    .ok
                      ({ proof := proof
                         audience := client.appId
                         authorization := authorization
                         subjectPublicId := current.subjectPublicId
                         orgId := current.orgId
                         consumedAt := now },
                        { db with
                          proofs := db.proofs.update (proofConsumable now proof.id)
                            (fun proof => { proof with consumedAt := some now }) fun _ => rfl })
                  else .error (.gone "obo_proof_expired")

/-! ## Introspection -/

/-- An active answer; the inactive one is `none`. -/
structure Introspection where
  principal : Nat
  actorKind : Option PrincipalKind
  clientId : String
  orgId : Option String
  membership : Option Nat
  session : Nat
  scope : List String
  audience : String
  expiresAt : Nat
  authorizationEpoch : Nat
  authorization : Option ApplicationAuthorization
  authorizations : Option (List ApplicationAuthorization)
deriving DecidableEq

structure AccessIntrospectionMetadata where
  appId : String
  orgId : Option String
  expiresAt : Nat
  subjectAuthEpoch : Nat
  membershipAuthzEpoch : Option Nat
deriving DecidableEq

/-- The metadata query of access-token introspection. -/
def accessIntrospectionMetadata (db : Db) (now : Nat) (client : ApplicationIdentity)
    (access : AccessContext) : Option AccessIntrospectionMetadata := do
  let token ← db.access.find? fun token =>
    token.id = access.token && token.tokenClass = .applicationAccess &&
      token.client = some client.application &&
      token.audienceApplication = some client.application && token.audience = client.appId &&
      token.subject = access.subject.id && token.subjectKind = access.subject.kind &&
      token.session = access.session && token.organization = access.organization &&
      token.membership = access.membership && token.unexpired now
  let application ← db.directory.applications.find? fun application =>
    some application.id = token.client && some application.id = token.audienceApplication &&
      application.appId = token.audience && application.current
  let _ ← db.principals.find? fun principal =>
    principal.id = application.id && principal.kind = .application &&
      principal.status = .active && some principal.authEpoch = token.clientAuthEpoch
  let subject ← db.principals.find? fun subject =>
    subject.id = token.subject && subject.kind = token.subjectKind && subject.status = .active &&
      subject.authEpoch = token.subjectAuthEpoch
  let _ ← currentSession db now subject token.session
  if organizationCurrent db token then
    pure
      { appId := application.appId
        orgId :=
          (db.directory.organizations.find? fun org =>
            some org.id = token.organization && org.active).map Organization.orgId
        expiresAt := token.expiresAt
        subjectAuthEpoch := token.subjectAuthEpoch
        membershipAuthzEpoch := token.membershipAuthzEpoch }
  else none

/-- `current_subject_organization`. -/
def selectReachableOrganization (db : Db) (orgId : String) (subject : ActorRef) :
    Option (Nat × Nat) := do
  let org ← db.directory.organizations.find? fun org => org.orgId = orgId && org.active
  let member ← db.directory.memberships.find? fun member =>
    member.organization = org.id && member.principal = subject.id &&
      member.principalKind = subject.kind && member.active
  let _ ← activePrincipal db member.principal member.principalKind
  pure (org.id, member.id)

/-- The live bearer chain of `list_current_application_authorizations`. -/
def listedToken (db : Db) (now : Nat) (access : AccessContext) (client : ApplicationIdentity) :
    Option (AccessToken × Principal) := do
  let token ← db.access.find? fun token =>
    token.id = access.token && token.subject = access.subject.id &&
      token.tokenClass = .applicationAccess && token.organization.isNone &&
      token.membership.isNone && token.unexpired now &&
      token.client = some client.application &&
      token.audienceApplication = some client.application
  let subject ← db.principals.find? fun subject =>
    subject.id = token.subject && subject.kind = token.subjectKind && subject.status = .active &&
      subject.authEpoch = token.subjectAuthEpoch
  let _ ← currentSession db now subject token.session
  let audience ← db.directory.applications.find? fun application =>
    application.id = client.application && application.appId = token.audience &&
      application.current
  let _ ← db.principals.find? fun principal =>
    principal.id = audience.id && principal.kind = .application && principal.status = .active &&
      principal.authEpoch = client.authEpoch && some principal.authEpoch = token.clientAuthEpoch
  pure (token, subject)

/-- The token's scopes that are approved and consented now. -/
def listedScopes (db : Db) (client : ApplicationIdentity) (token : AccessToken) : List String :=
  token.scopes.filter fun scope =>
    (lockedApplicationApprovedScopes db client.application).contains scope &&
      db.consents.any fun consent => consent.covers token && consent.scopes.contains scope

/-- One snapshot for each membership the token reaches. -/
def listCurrentApplicationAuthorizations (db : Db) (context : DatabaseContext) (now : Nat)
    (access : AccessContext) (client : ApplicationIdentity) :
    Option (List ApplicationAuthorization) := do
  let (token, subject) ← listedToken db now access client
  pure (db.directory.memberships.filterMap fun member => do
    let org ← db.directory.organizations.find? fun org => org.id = member.organization && org.active
    let publicId ← publicIdentifier db subject org.id member.id
    if member.principal = subject.id && member.principalKind = subject.kind && member.active &&
        applicationTokenAllowsMembership db context now access.token member.id then
      pure
        { principal := subject.id
          actorKind := subject.kind
          publicId := publicId
          organization := org.id
          orgId := org.orgId
          membership := member.id
          authorizationEpoch := member.authzEpoch
          audience := client.appId
          scopes := listedScopes db client token }
    else none)

/-- The organization an introspection is about, from the binding or the header. -/
def introspectionSelection (db : Db) (access : AccessContext)
    (metadata : AccessIntrospectionMetadata) (orgContext : Option String) :
    Option (Option (Nat × Nat)) :=
  match access.organization, access.membership, orgContext with
  | some organization, some membership, none => some (some (organization, membership))
  | some organization, some membership, some orgId =>
      if metadata.orgId = some orgId then some (some (organization, membership)) else none
  | _, _, some orgId => (selectReachableOrganization db orgId access.subject).map some
  | _, _, none => some none

/-- The second transaction of `introspect_for_application`; `none` is inactive. -/
def introspect (db : Db) (now : Nat) (client : ApplicationIdentity) (access : AccessContext)
    (orgContext : Option String) : Option Introspection :=
  if access.client ≠ some client.application then none
  else if !lockCurrentApplicationClient db client then none
  else do
    let metadata ← accessIntrospectionMetadata db now client access
    let selection ← introspectionSelection db access metadata orgContext
    let answer (authorization : Option ApplicationAuthorization)
        (authorizations : Option (List ApplicationAuthorization)) : Introspection :=
      { principal := access.subject.id
        actorKind :=
          if access.scopes.contains "self.identity.read" then some access.subject.kind else none
        clientId := metadata.appId
        orgId := (authorization.map ApplicationAuthorization.orgId).or metadata.orgId
        membership := (authorization.map ApplicationAuthorization.membership).or access.membership
        session := access.session
        scope := access.scopes
        audience := access.audience
        expiresAt := metadata.expiresAt
        authorizationEpoch :=
          ((authorization.map ApplicationAuthorization.authorizationEpoch).or
            metadata.membershipAuthzEpoch).getD metadata.subjectAuthEpoch
        authorization := authorization
        authorizations := authorizations }
    match selection with
    | some (organization, membership) =>
        match getCurrentApplicationAuthorization db
            (subjectContext client access.subject.id organization) now access.token
            access.subject.id organization membership client none with
        | .ok (some authorization) => pure (answer (some authorization) none)
        | _ => none
    | none => do
        let authorizations ← listCurrentApplicationAuthorizations db
          { principal := some access.subject.id, organization := none
            application := some client.application } now access client
        pure (answer none (some authorizations))

/-- `refresh_family_scopes`. -/
def refreshFamilyScopes (db : Db) (row : RefreshCandidateRow) : List String :=
  match db.families.find? fun family =>
      family.id = row.family.id && family.consent = some row.consent.id &&
        family.status = .active with
  | none => []
  | some family =>
      family.scopes.filter fun scope =>
        db.consents.any (fun consent =>
          consent.id = row.consent.id && consent.active && consent.scopes.contains scope) &&
          (lockedApplicationApprovedScopes db row.consent.application).contains scope

/-- The organization filter: absent, the binding itself, or a selected membership of
an unbound token. -/
def organizationFilterMatches (db : Db) (row : RefreshCandidateRow) (authority : SubjectAuthority) :
    Option String → Bool
  | none => true
  | some requested =>
      match authority.orgId with
      | some bound => requested = bound
      | none =>
          match selectReachableOrganization db requested
              { kind := row.principal.kind, id := row.family.subject } with
          | none => false
          | some (_, membership) =>
              db.consents.any fun consent =>
                consent.id = row.consent.id && consent.active &&
                  consent.selectedMemberships.contains membership

def introspectRefreshToken (db : Db) (now : Nat) (client : ApplicationIdentity)
    (supplied : List Nat) (orgContext : Option String) : Option Introspection :=
  if !lockCurrentApplicationClient db client then none
  else do
    let candidate ← refreshTokenCandidate db client supplied
    let authority ← lockCurrentApplicationOauthSubjectAuthority db now client.application
      candidate.consent.id candidate.binding
    let (token, family) ← refreshCredentialLock db client candidate
    if organizationFilterMatches db candidate authority orgContext && refreshUsable now token family then
      let scopes := refreshFamilyScopes db candidate
      pure
        { principal := candidate.family.subject
          actorKind :=
            if scopes.contains "self.identity.read" then some candidate.principal.kind else none
          clientId := client.appId
          orgId := authority.orgId
          membership := candidate.consent.membership
          session := candidate.family.session
          scope := scopes
          audience := client.appId
          expiresAt :=
            min (min token.expiresAt family.absoluteExpiresAt)
              (min authority.sessionIdleExpiresAt authority.sessionAbsoluteExpiresAt)
          authorizationEpoch := authority.membershipAuthzEpoch.getD authority.subjectAuthEpoch
          authorization := none
          authorizations := none }
    else none

end SiliconIam.Auth.Authority
