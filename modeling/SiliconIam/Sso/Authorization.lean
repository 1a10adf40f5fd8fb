/-
# Sso.Authorization -- the browser flow

`authorize` opens an authorization transaction for the Carbon and the session that the
browser holds, against the one active connection of the organization, and reports it.
`callback` comes back with the provider's profile: it checks the correlation, locks what
the admission rests on, completes the authorization, links the provider's subject,
admits the Carbon with fixed defaults, and reports.

Both report on the authorization transaction at version 1.

`complete_sso_authorization` has two statements that PostgreSQL refuses: one selects a
whole row into a row variable, and one names a conflict target that is also an output
column.  They are steps of the completion that the server's `Plpgsql` lets through or not.
-/
import SiliconIam.Sso.Configuration

namespace SiliconIam.Sso

open SiliconIam.Theory
open SiliconIam.Theory.Fallible

set_option autoImplicit false

/-- A request of the browser session, whose Carbon the session names. -/
structure Browser where
  carbon : Nat
  session : Nat
deriving DecidableEq

/-- The Carbon and the session are in force. -/
def Directory.sessionInForce (directory : Directory) (browser : Browser) (now : Nat) : Prop :=
  ∃ principal ∈ directory.principals, principal.id = browser.carbon ∧ principal.kind = .carbon ∧
    principal.active = true ∧ ∃ session ∈ directory.sessions, session.id = browser.session ∧
      session.InForce principal now

instance (directory : Directory) (browser : Browser) (now : Nat) :
    Decidable (directory.sessionInForce browser now) :=
  inferInstanceAs (Decidable (∃ principal ∈ directory.principals, _))

/-! ## Start -/

/-- The secrets are drawn by `authorize`; their digests carry one key version. -/
structure AuthorizeCall where
  browser : Browser
  orgId : String
  transactionId : Nat
  digestKeyVersion : Nat
  stateDigest : Nat
  nonceDigest : Nat
  returnUri : String
  expiresAt : Nat
deriving DecidableEq

/-- The configuration of an organization that authorizations may be started for. -/
def Tables.openConfig (tables : Tables) (organization : Nat) : Option Config :=
  tables.configs.find? fun config =>
    config.organization = organization ∧ config.platformEnabled = true ∧
      config.status = .active ∧ config.providerOrganizationId ≠ none

def Tables.activeConnection (tables : Tables) (organization : Nat) : Option Connection :=
  tables.connections.find? fun connection =>
    connection.organization = organization ∧ connection.status = .active

def Directory.ssoOrganization (directory : Directory) (orgId : String) : Option Organization :=
  directory.organizations.find? fun organization =>
    organization.orgId = orgId ∧ organization.active = true ∧ organization.joinMethod = .sso

def AuthorizeCall.row (call : AuthorizeCall) (organization connection : Nat) : Authorization where
  id := call.transactionId
  organization := organization
  connection := connection
  carbon := call.browser.carbon
  session := call.browser.session
  digestKeyVersion := call.digestKeyVersion
  stateDigest := call.stateDigest
  nonceDigest := call.nonceDigest
  returnUri := call.returnUri
  status := .pending
  expiresAt := call.expiresAt
  consumedAt := none

/-- `begin_sso_authorization`. -/
def beginSsoAuthorization (now : Nat) (call : AuthorizeCall) (db : Database) :
    Except AppError Database := do
  require (0 < call.digestKeyVersion ∧ now < call.expiresAt ∧ call.expiresAt ≤ now + 600000)
    .database
  let organization ← orElse (db.directory.ssoOrganization call.orgId) .database
  let config ← orElse (db.openConfig organization.id) .database
  let connection ← orElse (db.activeConnection organization.id) .database
  require (db.directory.sessionInForce call.browser now) .database
  let cancelled := db.authorizations.update
    (fun row => row.organization = config.organization ∧ row.carbon = call.browser.carbon ∧
      row.session = call.browser.session ∧ row.status = .pending)
    Authorization.cancel Authorization.cancel_id
  let authorizations ← orElse (cancelled.insert (call.row organization.id connection.id)) .database
  checked { db.toTables with authorizations } .database

def authorizationEvent (id : Nat) (eventType : String) : OutboxEvent :=
  ⟨.ssoAuthorizationTransaction, id, 1, 1, eventType⟩

def authorize (now : Nat) (call : AuthorizeCall) (db : Database) : Except AppError Database := do
  let stored ← beginSsoAuthorization now call db
  enqueueOutbox stored (authorizationEvent call.transactionId "sso.authorization.started.v1")

/-! ## Callback -/

/-- One key version's digests of the returned state and nonce. -/
structure Correlation where
  keyVersion : Nat
  stateDigest : Nat
  nonceDigest : Nat
deriving DecidableEq

/-- One key version's blind index of the profile's normalized e-mail. -/
structure ContactDigest where
  keyVersion : Nat
  digest : Nat
deriving DecidableEq

structure Profile where
  subject : String
  organizationId : String
  connectionId : String
  emailDigests : List ContactDigest
deriving DecidableEq

structure CallbackCall where
  browser : Browser
  candidates : List Correlation
  profile : Profile
  newMembershipId : Nat
  newIdentityId : Nat
  /-- `decrypt_return_uri` and its policy let the stored URI through. -/
  returnAccepted : Bool
deriving DecidableEq

def Authorization.correlates (candidates : List Correlation) (row : Authorization) : Prop :=
  ⟨row.digestKeyVersion, row.stateDigest, row.nonceDigest⟩ ∈ candidates

instance (candidates : List Correlation) (row : Authorization) :
    Decidable (row.correlates candidates) :=
  inferInstanceAs (Decidable (_ ∈ _))

/-- The authorization is the caller's, pending, in time and correlated. -/
def Authorization.answers (call : CallbackCall) (now : Nat) (row : Authorization) : Prop :=
  row.carbon = call.browser.carbon ∧ row.session = call.browser.session ∧
    row.status = .pending ∧ now < row.expiresAt ∧ row.correlates call.candidates

instance (call : CallbackCall) (now : Nat) (row : Authorization) :
    Decidable (row.answers call now) :=
  inferInstanceAs (Decidable (_ ∧ _))

def candidatesValid (candidates : List Correlation) : Prop :=
  (1 ≤ candidates.length ∧ candidates.length ≤ 16) ∧
    (candidates.all fun candidate => decide (0 < candidate.keyVersion)) = true ∧
    (candidates.map Correlation.keyVersion).Nodup

instance (candidates : List Correlation) : Decidable (candidatesValid candidates) :=
  inferInstanceAs (Decidable (_ ∧ _))

def Directory.ssoInForce (directory : Directory) (organization : Nat) : Prop :=
  ∃ row ∈ directory.organizations,
    row.id = organization ∧ row.active = true ∧ row.joinMethod = .sso

instance (directory : Directory) (organization : Nat) :
    Decidable (directory.ssoInForce organization) :=
  inferInstanceAs (Decidable (∃ row ∈ directory.organizations, _))

/-- The configuration and the very connection of the authorization are in force. -/
def Tables.connectedBy (tables : Tables) (row : Authorization)
    (provider : Config → Connection → Prop) : Prop :=
  ∃ config ∈ tables.configs, config.organization = row.organization ∧
    config.platformEnabled = true ∧ config.status = .active ∧
    ∃ connection ∈ tables.connections, connection.organization = row.organization ∧
      connection.id = row.connection ∧ connection.status = .active ∧ provider config connection

instance (tables : Tables) (row : Authorization) (provider : Config → Connection → Prop)
    [∀ config connection, Decidable (provider config connection)] :
    Decidable (tables.connectedBy row provider) :=
  inferInstanceAs (Decidable (∃ config ∈ tables.configs, _))

/-- The profile names the provider organization and connection. -/
def Profile.matchesProvider (profile : Profile) (config : Config) (connection : Connection) : Prop :=
  config.providerOrganizationId = some profile.organizationId ∧
    connection.providerConnectionId = profile.connectionId

instance (profile : Profile) (config : Config) (connection : Connection) :
    Decidable (profile.matchesProvider config connection) :=
  inferInstanceAs (Decidable (_ ∧ _))

/-- `is_valid_sso_callback_correlation`. -/
def isValidSsoCallbackCorrelation (now : Nat) (call : CallbackCall) (tables : Tables) : Prop :=
  candidatesValid call.candidates ∧ ∃ row ∈ tables.authorizations,
    row.answers call now ∧ tables.directory.ssoInForce row.organization ∧
      (tables.connectedBy row fun config _ => config.providerOrganizationId ≠ none) ∧
      tables.directory.sessionInForce call.browser now

instance (now : Nat) (call : CallbackCall) (tables : Tables) :
    Decidable (isValidSsoCallbackCorrelation now call tables) :=
  inferInstanceAs (Decidable (_ ∧ ∃ row ∈ tables.authorizations, _))

inductive ActivationKind where
  | created
  | reactivated
  | unchanged
deriving DecidableEq

/-- What `lock_sso_membership_activation_state` answers. -/
structure ActivationState where
  organization : Nat
  membership : Option Nat
  prior : Option (MembershipStatus × Nat)
  kind : ActivationKind
deriving DecidableEq

def Directory.carbonMembership (directory : Directory) (organization carbon : Nat) :
    Option Membership :=
  directory.memberships.find? fun membership =>
    membership.organization = organization ∧ membership.principal = carbon ∧
      membership.principalKind = .carbon

def activationState (organization : Nat) : Option Membership → ActivationState
  | none => ⟨organization, none, none, .created⟩
  | some membership =>
      ⟨organization, some membership.id, some (membership.status, membership.version),
        if membership.status = .active then .unchanged else .reactivated⟩

def lockSsoMembershipActivationState (now : Nat) (call : CallbackCall) (tables : Tables) :
    Except AppError ActivationState := do
  require (lengthIn call.profile.organizationId 1 255 ∧ lengthIn call.profile.connectionId 1 255 ∧
    isValidSsoCallbackCorrelation now call tables) .database
  let row ← orElse
    (tables.authorizations.find? fun row =>
      row.answers call now ∧ tables.connectedBy row call.profile.matchesProvider) .database
  return activationState row.organization
    (tables.directory.carbonMembership row.organization call.browser.carbon)

/-- The contact is a verified e-mail of the Carbon under one of the digests. -/
def Directory.verifies (directory : Directory) (call : CallbackCall) (contact : Contact) : Bool :=
  contact.carbon = call.browser.carbon ∧ contact.email = true ∧ contact.active = true ∧
    contact.verified = true ∧ (directory.blindIndexes.any fun index =>
      index.contact = contact.id ∧
        ⟨index.keyVersion, index.digest⟩ ∈ call.profile.emailDigests) = true

/-- `ORDER BY is_primary DESC, created_at, id`. -/
def Contact.before (a b : Contact) : Prop :=
  (a.primary = true ∧ b.primary = false) ∨ (a.primary = b.primary ∧
    (a.createdAt < b.createdAt ∨ (a.createdAt = b.createdAt ∧ a.id ≤ b.id)))

instance (a b : Contact) : Decidable (a.before b) := inferInstanceAs (Decidable (_ ∨ _))

def Directory.verifiedContact (directory : Directory) (call : CallbackCall) : Option Contact :=
  ((directory.contacts.rows.filter (directory.verifies call)).insertionSort Contact.before).head?

/-- The update that reactivates a membership. -/
def Membership.reactivate (membership : Membership) : Membership :=
  { membership with
    status := .active
    orgRole := .member
    roleGrantedBy := none
    jobRole := ""
    authzEpoch := membership.authzEpoch + 1
    version := membership.version + 1 }

def Membership.admitted (id organization carbon : Nat) : Membership :=
  ⟨id, organization, carbon, .carbon, .active, .member, none, "", 1, 1⟩

def CarbonSettings.conservative (membership organization carbon : Nat) : CarbonSettings :=
  ⟨membership, organization, carbon, none, .internal, .notTrusted⟩

/-- What an admission takes away from the membership and sets. -/
def Directory.reset (directory : Directory) (now organization carbon membership : Nat) :
    Directory :=
  { directory with
    capabilityGrants := directory.capabilityGrants.update
      (fun grant => grant.organization = organization ∧ grant.grantee = membership ∧
        grant.revokedAt = none)
      (fun grant => { grant with revokedBy := some membership, revokedAt := some now })
      fun _ => rfl
    settings := directory.settings.upsert (.conservative membership organization carbon)
    tags := directory.tags.filter fun tag =>
      ¬ (tag.organization = organization ∧ tag.membership = membership)
    accessGrants := directory.accessGrants.update
      (fun grant => grant.organization = organization ∧ grant.carbonMembership = membership ∧
        grant.revokedAt = none)
      (fun grant => { grant with revokedBy := some membership, revokedAt := some now })
      fun _ => rfl }

/-- The columns that `complete_sso_authorization` returns, variables of its body. -/
def completionColumns : List String :=
  ["organization_id", "membership_id", "sso_identity_id", "membership_created", "config_version",
    "authorization_transaction_id", "return_uri_ciphertext", "return_uri_nonce",
    "return_uri_encryption_key_version"]

/-- `ON CONFLICT (column)` in a function that declares these variables. -/
def Plpgsql.conflictTarget (plpgsql : Plpgsql) (declared : List String) (column : String) :
    Except AppError Unit :=
  require (column ∉ declared ∨ plpgsql.variableConflict = .useColumn) .database

/-- The membership that the Carbon ends up with, and whether it is new. -/
def Directory.admitCarbon (plpgsql : Plpgsql) (directory : Directory) (now organization : Nat)
    (call : CallbackCall) : Except AppError (Nat × Bool × Directory) :=
  match directory.carbonMembership organization call.browser.carbon with
  | some membership =>
      if membership.status = .active then .ok (membership.id, false, directory)
      else do
        let memberships := directory.memberships.update (fun row => row.id = membership.id)
          Membership.reactivate fun _ => rfl
        -- the upsert of the settings
        plpgsql.conflictTarget completionColumns "membership_id"
        return (membership.id, false,
          Directory.reset { directory with memberships } now organization call.browser.carbon
            membership.id)
  | none => do
      let memberships ← orElse
        (directory.memberships.insert
          (.admitted call.newMembershipId organization call.browser.carbon)) .database
      plpgsql.conflictTarget completionColumns "membership_id"
      return (call.newMembershipId, true,
        Directory.reset { directory with memberships } now organization call.browser.carbon
          call.newMembershipId)

/-- The link between the provider's subject and the Carbon. -/
def linkIdentity (now : Nat) (call : CallbackCall) (row : Authorization) (contact : Nat)
    (identities : Table Identity.id) : Except AppError (Nat × Table Identity.id) :=
  match identities.find? fun identity => identity.connection = row.connection ∧
      identity.providerSubject = call.profile.subject with
  | some identity =>
      if identity.carbon ≠ call.browser.carbon then .error (.conflict "sso_identity_conflict")
      else .ok (identity.id, identities.update (fun other => other.id = identity.id)
        (fun other => { other with
          verifiedContact := contact, lastAuthenticatedAt := some now, revokedAt := none })
        fun _ => rfl)
  | none => do
      require ((identities.any fun identity => identity.connection = row.connection ∧
        identity.carbon = call.browser.carbon) = false) (.conflict "sso_identity_conflict")
      let linked ← orElse
        (identities.insert
          ⟨call.newIdentityId, row.organization, row.connection, call.profile.subject,
            call.browser.carbon, contact, some now, none⟩) .database
      return (call.newIdentityId, linked)

/-- `cardinality` between 1 and 16, positive and distinct key versions. -/
def contactDigestsValid (digests : List ContactDigest) : Prop :=
  (1 ≤ digests.length ∧ digests.length ≤ 16) ∧
    (digests.all fun digest => decide (0 < digest.keyVersion)) = true ∧
    (digests.map ContactDigest.keyVersion).Nodup

instance (digests : List ContactDigest) : Decidable (contactDigestsValid digests) :=
  inferInstanceAs (Decidable (_ ∧ _))

structure Completion where
  authorization : Nat
  organization : Nat
  membership : Nat
  identity : Nat
  membershipCreated : Bool
  configVersion : Nat
deriving DecidableEq

def Authorization.complete (now : Nat) (row : Authorization) : Authorization :=
  { row with status := .completed, consumedAt := some now }

/-- `complete_sso_authorization`. -/
def completeSsoAuthorization (plpgsql : Plpgsql) (now : Nat) (call : CallbackCall)
    (db : Database) : Except AppError (Completion × Database) := do
  require (lengthIn call.profile.organizationId 1 255 ∧ lengthIn call.profile.connectionId 1 255 ∧
    lengthIn call.profile.subject 1 512 ∧ contactDigestsValid call.profile.emailDigests) .database
  require (isValidSsoCallbackCorrelation now call db.toTables) .database
  let row ← orElse
    (db.authorizations.find? fun row =>
      row.answers call now ∧ db.directory.ssoInForce row.organization ∧
        db.connectedBy row call.profile.matchesProvider ∧
        db.directory.sessionInForce call.browser now) .database
  -- `SELECT authorization_transaction INTO authorization_record`
  require (plpgsql.spreadsRows = true) .database
  let config ← orElse (db.configs.get? row.organization) .database
  let contact ← orElse (db.directory.verifiedContact call) .forbidden
  let (membership, created, directory) ←
    db.directory.admitCarbon plpgsql now row.organization call
  let (identity, identities) ← linkIdentity now call row contact.id db.identities
  let authorizations := db.authorizations.update
    (fun other => other.id = row.id ∧ other.status = .pending)
    (Authorization.complete now) fun _ => rfl
  let stored ← checked { db.toTables with directory, identities, authorizations } .database
  return (⟨row.id, row.organization, membership, identity, created, config.version⟩, stored)

/-- The membership event of an admission. -/
def membershipEvent (membership : Membership) (kind : ActivationKind) :
    Except AppError OutboxEvent :=
  match kind with
  | .created => .ok ⟨.organizationMembership, membership.id, membership.version, 1,
      "organization.membership.created.v1"⟩
  | .reactivated => .ok ⟨.organizationMembership, membership.id, membership.version, 1,
      "organization.membership.reactivated.v1"⟩
  | .unchanged => .error (.internal "sso_membership_activation_kind")

def enqueueMembershipActivation (call : CallbackCall) (completion : Completion)
    (activation : ActivationState) (db : Database) : Except AppError Database := do
  let membership ← orElse
    (db.directory.memberships.find? fun row =>
      row.organization = completion.organization ∧ row.id = completion.membership ∧
        row.principal = call.browser.carbon ∧ row.principalKind = .carbon ∧
        row.status = .active) .database
  let event ← membershipEvent membership activation.kind
  enqueueOutbox db event

/-- The preflight is a transaction of its own, and the provider answers in between. -/
def callback (server : Server) (now : Nat) (call : CallbackCall) (db : Database) :
    Except AppError Database := do
  require (isValidSsoCallbackCorrelation now call db.toTables) .forbidden
  let activation ← lockSsoMembershipActivationState now call db.toTables
  let (completion, stored) ← completeSsoAuthorization server.plpgsql now call db
  require (activation.organization = completion.organization ∧
    (∀ membership, activation.membership = some membership → membership = completion.membership) ∧
    (completion.membershipCreated = true ↔ activation.kind = .created))
    (.internal "sso_membership_activation_state")
  require (call.returnAccepted = true) (.internal "sso_return_uri_policy")
  let reported ← enqueueOutbox stored
    (authorizationEvent completion.authorization "sso.authorization.completed.v1")
  if activation.kind = .unchanged then return reported
  else enqueueMembershipActivation call completion activation reported

end SiliconIam.Sso
