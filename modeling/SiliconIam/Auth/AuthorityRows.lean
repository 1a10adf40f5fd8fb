/-
# Auth.AuthorityRows -- the rows behind every bearer credential

An authentication session and everything derived from it: first-party refresh
families and access tokens, authorization requests and codes, consents, the
refresh families and access tokens of applications, and OBO proofs.  The rows
that only narrow what a credential may do (Carbons, Silicons, organizations,
memberships, applications, endpoints) are the `Directory`.

Identifiers, digests and times are numbers; a digest stands for the pair of key
version and digest bytes.  A credential row names its session and never changes
that name, so "derived from" is a property of rows (`DerivedFrom`).
-/
import SiliconIam.Theory.Table
import SiliconIam.Auth.RefreshFamily

namespace SiliconIam.Auth.Authority

open SiliconIam.Theory
open SiliconIam.Auth.RefreshFamily (FamilyStatus SessionStatus coalesce)

set_option autoImplicit false

/-! ## Principals and the directory -/

inductive PrincipalKind where
  | carbon
  | silicon
  | application
deriving DecidableEq

inductive PrincipalStatus where
  | provisioning
  | active
  | suspended
  | deletionPending
  | deleted
deriving DecidableEq

structure Principal where
  id : Nat
  kind : PrincipalKind
  status : PrincipalStatus
  authEpoch : Nat
deriving DecidableEq

structure Carbon where
  id : Nat
  carbonId : String
  deletedAt : Option Nat
deriving DecidableEq

/-- `provisioned` is `provisioning_status = 'active'`. -/
structure Silicon where
  id : Nat
  organization : Nat
  membership : Nat
  globalSiliconId : String
  provisioned : Bool
  deletedAt : Option Nat
deriving DecidableEq

structure Organization where
  id : Nat
  orgId : String
  active : Bool
  trustedOrg : Bool
  allowedRestrictedIamScopes : List String
deriving DecidableEq

structure Membership where
  id : Nat
  organization : Nat
  principal : Nat
  principalKind : PrincipalKind
  active : Bool
  authzEpoch : Nat
deriving DecidableEq

/-- `approvedScopes` are the rows of `iam.application_approved_scopes` that are
not revoked, in the order of their names. -/
structure Application where
  id : Nat
  appId : String
  organization : Nat
  verified : Bool
  deletedAt : Option Nat
  isPrivate : Bool
  approvedScopes : List String
deriving DecidableEq

/-- `review_status = 'verified' AND deleted_at IS NULL`. -/
def Application.current (application : Application) : Bool :=
  application.verified && application.deletedAt.isNone

/-- `iam.application_obo_endpoints`; a JSON value stands as its text. -/
structure Endpoint where
  application : Nat
  endpointId : String
  path : String
  metadataDefinition : String
  version : Nat
  active : Bool
  ttlSeconds : Nat
deriving DecidableEq

structure Directory where
  carbons : List Carbon
  silicons : List Silicon
  organizations : List Organization
  memberships : List Membership
  applications : List Application
  endpoints : List Endpoint

/-! ## Sessions and their credentials -/

/-- `iam.authentication_sessions`. -/
structure Session where
  id : Nat
  subject : Nat
  subjectKind : PrincipalKind
  authEpoch : Nat
  assuranceLevel : Nat
  status : SessionStatus
  idleExpiresAt : Nat
  absoluteExpiresAt : Nat
  revokedAt : Option Nat
  revocationReason : Option String
  version : Nat
deriving DecidableEq

/-- The conjuncts on the session row that every acceptance query repeats. -/
def Session.live (now : Nat) (session : Session) : Bool :=
  session.status = .active && now < session.idleExpiresAt && now < session.absoluteExpiresAt

inductive TokenClass where
  | carbonAccess
  | siliconAccess
  | applicationAccess
deriving DecidableEq

/-- `iam.access_tokens` with the names of its scope rows. -/
structure AccessToken where
  id : Nat
  tokenClass : TokenClass
  digest : Nat
  session : Nat
  subject : Nat
  subjectKind : PrincipalKind
  client : Option Nat
  audienceApplication : Option Nat
  audience : String
  organization : Option Nat
  membership : Option Nat
  subjectAuthEpoch : Nat
  membershipAuthzEpoch : Option Nat
  clientAuthEpoch : Option Nat
  expiresAt : Nat
  revokedAt : Option Nat
  revocationReason : Option String
  oauthRefreshFamily : Option Nat
  scopes : List String
deriving DecidableEq

def AccessToken.unexpired (now : Nat) (token : AccessToken) : Bool :=
  token.revokedAt.isNone && now < token.expiresAt

/-- `iam.refresh_token_families` with its scope snapshot; `client` and `consent`
are only set on the families of applications. -/
structure Family where
  id : Nat
  session : Nat
  subject : Nat
  client : Option Nat
  consent : Option Nat
  status : FamilyStatus
  absoluteExpiresAt : Nat
  revokedAt : Option Nat
  compromisedAt : Option Nat
  revocationReason : Option String
  scopes : List String
deriving DecidableEq

/-- A refresh token is digested under the purpose of its kind, so a lookup under
one purpose never finds a token of the other. -/
inductive RefreshPurpose where
  | refreshToken
  | oauthRefreshToken
deriving DecidableEq

/-- `iam.refresh_tokens`. -/
structure RefreshToken where
  id : Nat
  family : Nat
  purpose : RefreshPurpose
  digest : Nat
  parent : Option Nat
  replacement : Option Nat
  expiresAt : Nat
  consumedAt : Option Nat
  revokedAt : Option Nat
deriving DecidableEq

inductive RequestStatus where
  | pending
  | approved
  | denied
  | consumed
  | expired
deriving DecidableEq

/-- `iam.oauth_authorization_requests` with the names of its scope rows. -/
structure AuthorizationRequest where
  id : Nat
  application : Nat
  session : Nat
  subject : Nat
  subjectKind : PrincipalKind
  organization : Option Nat
  membership : Option Nat
  status : RequestStatus
  expiresAt : Nat
  decidedAt : Option Nat
  scopes : List String
deriving DecidableEq

/-- `iam.oauth_authorization_codes`. -/
structure AuthorizationCode where
  id : Nat
  request : Nat
  application : Nat
  digest : Nat
  expiresAt : Nat
  consumedAt : Option Nat
deriving DecidableEq

/-- `iam.oauth_consent_grants`; `active` is `status = 'active'`. -/
structure Consent where
  id : Nat
  application : Nat
  subject : Nat
  subjectKind : PrincipalKind
  organization : Option Nat
  membership : Option Nat
  parentSession : Nat
  selectedMemberships : List Nat
  active : Bool
  revokedAt : Option Nat
  scopes : List String
deriving DecidableEq

/-- The unique key of `iam.oauth_consent_grants`. -/
def Consent.grantKey (consent : Consent) : Nat × Nat × Option Nat × Nat :=
  (consent.application, consent.subject, consent.organization, consent.parentSession)

/-- `iam.obo_proofs`. -/
structure OboProof where
  id : Nat
  digest : Nat
  issuerApplication : Nat
  audienceApplication : Nat
  subject : Nat
  subjectKind : PrincipalKind
  organization : Nat
  membership : Nat
  parentAccessToken : Nat
  endpointId : String
  endpointVersion : Nat
  requestMetadata : String
  requestMethod : String
  requestPath : String
  requestBodySha256 : List UInt8
  requestSignedAt : Nat
  subjectAuthEpoch : Nat
  membershipAuthzEpoch : Nat
  issuerAuthEpoch : Nat
  audienceAuthEpoch : Nat
  expiresAt : Nat
  consumedAt : Option Nat
  revokedAt : Option Nat
deriving DecidableEq

/-- `drawn` are the identifiers ever used: deleting a row does not let its
identifier be drawn again. -/
structure Db where
  directory : Directory
  principals : Table Principal.id
  sessions : Table Session.id
  access : Table AccessToken.id
  families : Table Family.id
  tokens : Table RefreshToken.id
  requests : Table AuthorizationRequest.id
  codes : Table AuthorizationCode.id
  consents : Table Consent.id
  proofs : Table OboProof.id
  drawn : List Nat

/-- A database with a directory and nothing else. -/
def Db.empty (directory : Directory) : Db where
  directory := directory
  principals := .empty _
  sessions := .empty _
  access := .empty _
  families := .empty _
  tokens := .empty _
  requests := .empty _
  codes := .empty _
  consents := .empty _
  proofs := .empty _
  drawn := []

/-! ## Credentials -/

inductive Credential where
  | accessToken (id : Nat)
  | refreshToken (id : Nat)
  | authorizationCode (id : Nat)
  | oboProof (id : Nat)
deriving DecidableEq

/-- The credential's row, and the rows it refers to, lead to this session. -/
def DerivedFrom (db : Db) (session : Nat) : Credential → Prop
  | .accessToken id => ∃ token ∈ db.access, token.id = id ∧ token.session = session
  | .refreshToken id => ∃ token ∈ db.tokens, token.id = id ∧
      ∃ family ∈ db.families, family.id = token.family ∧ family.session = session
  | .authorizationCode id => ∃ code ∈ db.codes, code.id = id ∧
      ∃ request ∈ db.requests, request.id = code.request ∧ request.session = session
  | .oboProof id => ∃ proof ∈ db.proofs, proof.id = id ∧
      ∃ token ∈ db.access, token.id = proof.parentAccessToken ∧ token.session = session

/-- A credential has at most one session. -/
theorem DerivedFrom.unique {db : Db} {credential : Credential} {a b : Nat}
    (first : DerivedFrom db a credential) (second : DerivedFrom db b credential) : a = b := by
  cases credential with
  | accessToken id =>
      obtain ⟨token, mem, own, rfl⟩ := first
      obtain ⟨other, otherMem, otherOwn, rfl⟩ := second
      rw [Table.unique mem otherMem (own.trans otherOwn.symm)]
  | refreshToken id =>
      obtain ⟨token, mem, own, family, familyMem, familyOwn, rfl⟩ := first
      obtain ⟨other, otherMem, otherOwn, otherFamily, otherFamilyMem, otherFamilyOwn, rfl⟩ := second
      obtain rfl := Table.unique mem otherMem (own.trans otherOwn.symm)
      rw [Table.unique familyMem otherFamilyMem (familyOwn.trans otherFamilyOwn.symm)]
  | authorizationCode id =>
      obtain ⟨code, mem, own, request, requestMem, requestOwn, rfl⟩ := first
      obtain ⟨other, otherMem, otherOwn, otherRequest, otherRequestMem, otherRequestOwn, rfl⟩ :=
        second
      obtain rfl := Table.unique mem otherMem (own.trans otherOwn.symm)
      rw [Table.unique requestMem otherRequestMem (requestOwn.trans otherRequestOwn.symm)]
  | oboProof id =>
      obtain ⟨proof, mem, own, token, tokenMem, tokenOwn, rfl⟩ := first
      obtain ⟨other, otherMem, otherOwn, otherToken, otherTokenMem, otherTokenOwn, rfl⟩ := second
      obtain rfl := Table.unique mem otherMem (own.trans otherOwn.symm)
      rw [Table.unique tokenMem otherTokenMem (tokenOwn.trans otherTokenOwn.symm)]

/-! ## Writes -/

def Session.revoke (now : Nat) (reason : String) (session : Session) : Session :=
  { session with
    status := .revoked
    revokedAt := some now
    revocationReason := some reason
    version := session.version + 1 }

/-- The replay revocation keeps an earlier stamp and overwrites the reason. -/
def Session.revokeReplayed (now : Nat) (session : Session) : Session :=
  { session with
    status := .revoked
    revokedAt := coalesce session.revokedAt now
    revocationReason := some "refresh_replay"
    version := session.version + 1 }

/-- `SESSION_REFRESH_TOUCH_QUERY`. -/
def Session.touch (session : Session) : Session :=
  { session with
    idleExpiresAt := session.absoluteExpiresAt
    version := session.version + 1 }

def AccessToken.revoke (now : Nat) (reason : String) (token : AccessToken) : AccessToken :=
  { token with
    revokedAt := coalesce token.revokedAt now
    revocationReason := some (token.revocationReason.getD reason) }

/-- The updates that only touch unrevoked rows overwrite the reason. -/
def AccessToken.revokeUnrevoked (now : Nat) (reason : String) (token : AccessToken) : AccessToken :=
  { token with revokedAt := some now, revocationReason := some reason }

def Family.revoke (now : Nat) (reason : String) (family : Family) : Family :=
  { family with status := .revoked, revokedAt := some now, revocationReason := some reason }

def Family.compromiseReplayed (now : Nat) (family : Family) : Family :=
  { family with
    status := .compromised
    compromisedAt := coalesce family.compromisedAt now
    revocationReason := some "refresh_replay" }

def Family.compromise (now : Nat) (family : Family) : Family :=
  { family with
    status := .compromised
    compromisedAt := some now
    revocationReason := some "refresh_token_reuse" }

def RefreshToken.revoke (now : Nat) (token : RefreshToken) : RefreshToken :=
  { token with revokedAt := coalesce token.revokedAt now }

@[simp] theorem RefreshToken.revoke_id (now : Nat) (token : RefreshToken) :
    (token.revoke now).id = token.id :=
  rfl

def AuthorizationCode.consume (now : Nat) (code : AuthorizationCode) : AuthorizationCode :=
  { code with consumedAt := coalesce code.consumedAt now }

def AuthorizationRequest.deny (now : Nat) (request : AuthorizationRequest) :
    AuthorizationRequest :=
  { request with status := .denied, decidedAt := coalesce request.decidedAt now }

def Consent.revoke (now : Nat) (consent : Consent) : Consent :=
  { consent with active := false, revokedAt := some now }

def OboProof.revoke (now : Nat) (proof : OboProof) : OboProof :=
  { proof with revokedAt := some now }

end SiliconIam.Auth.Authority
