/-
# Sso.Rows -- the tables of an organization's single sign-on

An organization has one configuration row and any number of provider connections,
at most one of them active.  `Tables` holds both together with what hangs off them
(setup sessions, authorization transactions, linked identities, webhook receipts and
the outbox), and `Directory` holds the rows that other parts of the service own.

A `Database` is a `Tables` value that meets the declared constraints.  A transaction
computes the next tables and `commit` refuses them when a constraint fails, so every
database that is ever reached is one that PostgreSQL would accept.  The trigger on
configurations and connections counts the version up on every update of a row;
`Config.revise` and `Connection.revise` are the only updates.
-/
import SiliconIam.Theory.Fallible
import SiliconIam.Theory.Table

namespace SiliconIam.Sso

open SiliconIam.Theory

set_option autoImplicit false

/-! ## Rows of other parts -/

inductive JoinMethod where
  | invite
  | sso
deriving DecidableEq

structure Organization where
  id : Nat
  orgId : String
  active : Bool
  joinMethod : JoinMethod
deriving DecidableEq

inductive PrincipalKind where
  | carbon
  | silicon
deriving DecidableEq

structure Principal where
  id : Nat
  kind : PrincipalKind
  active : Bool
  authEpoch : Nat
deriving DecidableEq

structure AuthenticationSession where
  id : Nat
  subject : Nat
  subjectKind : PrincipalKind
  active : Bool
  idleExpiresAt : Nat
  absoluteExpiresAt : Nat
  subjectAuthEpoch : Nat
deriving DecidableEq

/-- The session is in force for the principal at `now`. -/
def AuthenticationSession.InForce (session : AuthenticationSession) (principal : Principal)
    (now : Nat) : Prop :=
  session.subject = principal.id ∧ session.subjectKind = .carbon ∧ session.active = true ∧
    now < session.idleExpiresAt ∧ now < session.absoluteExpiresAt ∧
    session.subjectAuthEpoch = principal.authEpoch

instance (session : AuthenticationSession) (principal : Principal) (now : Nat) :
    Decidable (session.InForce principal now) :=
  inferInstanceAs (Decidable (_ ∧ _))

inductive MembershipStatus where
  | active
  | suspended
  | removed
deriving DecidableEq

inductive OrgRole where
  | owner
  | admin
  | member
deriving DecidableEq

structure Membership where
  id : Nat
  organization : Nat
  principal : Nat
  principalKind : PrincipalKind
  status : MembershipStatus
  orgRole : OrgRole
  roleGrantedBy : Option Nat
  jobRole : String
  authzEpoch : Nat
  version : Nat
deriving DecidableEq

structure CapabilityGrant where
  id : Nat
  organization : Nat
  grantee : Nat
  revokedBy : Option Nat
  revokedAt : Option Nat
deriving DecidableEq

inductive TrustBoundary where
  | internal
  | external
deriving DecidableEq

inductive TrustLevel where
  | notTrusted
  | needsApproval
  | trusted
deriving DecidableEq

/-- `carbon_membership_settings`. -/
structure CarbonSettings where
  membership : Nat
  organization : Nat
  carbon : Nat
  firstSilicon : Option Nat
  defaultTrustBoundary : TrustBoundary
  defaultTrustLevel : TrustLevel
deriving DecidableEq

structure MembershipTag where
  organization : Nat
  membership : Nat
  tag : Nat
deriving DecidableEq

/-- `extra_silicon_access_grants`. -/
structure AccessGrant where
  id : Nat
  organization : Nat
  carbonMembership : Nat
  silicon : Nat
  revokedBy : Option Nat
  revokedAt : Option Nat
deriving DecidableEq

/-- `trust_rules`; the subject is a membership or a tag. -/
structure TrustRule where
  id : Nat
  organization : Nat
  subjectMembership : Option Nat
  archivedAt : Option Nat
deriving DecidableEq

structure Contact where
  id : Nat
  carbon : Nat
  email : Bool
  active : Bool
  verified : Bool
  primary : Bool
  createdAt : Nat
deriving DecidableEq

/-- `contact_blind_indexes`. -/
structure BlindIndex where
  contact : Nat
  keyVersion : Nat
  digest : Nat
deriving DecidableEq

structure Directory where
  organizations : Table Organization.id
  principals : Table Principal.id
  sessions : Table AuthenticationSession.id
  contacts : Table Contact.id
  blindIndexes : List BlindIndex
  memberships : Table Membership.id
  capabilityGrants : Table CapabilityGrant.id
  settings : Table CarbonSettings.membership
  tags : List MembershipTag
  accessGrants : Table AccessGrant.id
  trustRules : Table TrustRule.id

def Directory.empty : Directory :=
  ⟨.empty _, .empty _, .empty _, .empty _, [], .empty _, .empty _, .empty _, [], .empty _, .empty _⟩

/-! ## Configurations and connections -/

inductive ConfigStatus where
  | disabled
  | pending
  | active
  | error
deriving DecidableEq

structure Config where
  organization : Nat
  platformEnabled : Bool
  providerOrganizationId : Option String
  status : ConfigStatus
  lastErrorCode : Option String
  version : Nat
deriving DecidableEq

/-- `bump_aggregate_version` around an update. -/
def Config.revise (set : Config → Config) (config : Config) : Config :=
  { set config with organization := config.organization, version := config.version + 1 }

inductive ConnectionStatus where
  | pending
  | active
  | disabled
  | error
deriving DecidableEq

structure Connection where
  id : Nat
  organization : Nat
  providerConnectionId : String
  connectionType : Option String
  status : ConnectionStatus
  activatedAt : Option Nat
  disabledAt : Option Nat
  version : Nat
deriving DecidableEq

/-- `bump_aggregate_version` around an update; no statement moves a connection. -/
def Connection.revise (set : Connection → Connection) (connection : Connection) : Connection :=
  { set connection with
    id := connection.id
    organization := connection.organization
    providerConnectionId := connection.providerConnectionId
    version := connection.version + 1 }

/-! ## Setup sessions, authorizations, receipts -/

inductive SetupStatus where
  | created
  | opened
  | completed
  | expired
  | cancelled
deriving DecidableEq

structure SetupSession where
  id : Nat
  organization : Nat
  requestedBy : Nat
  status : SetupStatus
  expiresAt : Nat
deriving DecidableEq

inductive AuthorizationStatus where
  | pending
  | completed
  | expired
  | cancelled
deriving DecidableEq

/-- `sso_authorization_transactions`; the return URI is kept in clear. -/
structure Authorization where
  id : Nat
  organization : Nat
  connection : Nat
  carbon : Nat
  session : Nat
  digestKeyVersion : Nat
  stateDigest : Nat
  nonceDigest : Nat
  returnUri : String
  status : AuthorizationStatus
  expiresAt : Nat
  consumedAt : Option Nat
deriving DecidableEq

/-- `sso_identities`. -/
structure Identity where
  id : Nat
  organization : Nat
  connection : Nat
  providerSubject : String
  carbon : Nat
  verifiedContact : Nat
  lastAuthenticatedAt : Option Nat
  revokedAt : Option Nat
deriving DecidableEq

inductive ReceiptStatus where
  | processing
  | processed
  | ignored
deriving DecidableEq

/-- A row of `external_webhook_receipts` whose provider is `workos`. -/
structure Receipt where
  providerEventId : String
  payloadDigest : Nat
  signatureVerifiedAt : Nat
  status : ReceiptStatus
  processedAt : Option Nat
  attemptCount : Nat
deriving DecidableEq

/-! ## The outbox -/

inductive Aggregate where
  | organizationSsoConfig
  | ssoConnection
  | ssoAuthorizationTransaction
  | organizationMembership
deriving DecidableEq

structure OutboxEvent where
  aggregate : Aggregate
  aggregateId : Nat
  aggregateVersion : Nat
  eventOrdinal : Nat
  eventType : String
deriving DecidableEq

/-- `UNIQUE (aggregate_type, aggregate_id, aggregate_version, event_ordinal)`. -/
def OutboxEvent.identity (event : OutboxEvent) : Aggregate × Nat × Nat × Nat :=
  (event.aggregate, event.aggregateId, event.aggregateVersion, event.eventOrdinal)

/-! ## The database -/

structure Tables where
  directory : Directory
  configs : Table Config.organization
  connections : Table Connection.id
  setupSessions : Table SetupSession.id
  authorizations : Table Authorization.id
  identities : Table Identity.id
  receipts : Table Receipt.providerEventId
  outbox : Table OutboxEvent.identity

/-- `organization_sso_configs`. -/
structure ConfigConstraints (configs : Table Config.organization) : Prop where
  activeRequirements : ∀ config ∈ configs, config.status = .active →
    config.platformEnabled = true ∧ config.providerOrganizationId ≠ none
  providers : ∀ a ∈ configs, ∀ b ∈ configs, a.providerOrganizationId ≠ none →
    a.providerOrganizationId = b.providerOrganizationId → a = b

/-- `sso_connections`. -/
structure ConnectionConstraints (configs : Table Config.organization)
    (connections : Table Connection.id) : Prop where
  configured : ∀ connection ∈ connections, ∃ config ∈ configs,
    config.organization = connection.organization
  providers : ∀ a ∈ connections, ∀ b ∈ connections,
    a.providerConnectionId = b.providerConnectionId → a = b
  oneActive : ∀ a ∈ connections, ∀ b ∈ connections, a.organization = b.organization →
    a.status = .active → b.status = .active → a = b
  timestamps : ∀ connection ∈ connections,
    (connection.status = .active → connection.activatedAt ≠ none) ∧
      (connection.status = .disabled → connection.disabledAt ≠ none)

/-- `sso_authorization_transactions`. -/
structure AuthorizationConstraints (connections : Table Connection.id)
    (authorizations : Table Authorization.id) : Prop where
  connected : ∀ row ∈ authorizations, ∃ connection ∈ connections,
    connection.id = row.connection ∧ connection.organization = row.organization
  states : ∀ a ∈ authorizations, ∀ b ∈ authorizations, a.stateDigest = b.stateDigest → a = b
  completion : ∀ row ∈ authorizations, row.status = .completed ↔ row.consumedAt ≠ none

/-- `sso_identities`. -/
structure IdentityConstraints (connections : Table Connection.id)
    (identities : Table Identity.id) : Prop where
  connected : ∀ row ∈ identities, ∃ connection ∈ connections,
    connection.id = row.connection ∧ connection.organization = row.organization
  subjects : ∀ a ∈ identities, ∀ b ∈ identities, a.connection = b.connection →
    a.providerSubject = b.providerSubject → a = b
  carbons : ∀ a ∈ identities, ∀ b ∈ identities, a.connection = b.connection →
    a.carbon = b.carbon → a = b

structure Constraints (tables : Tables) : Prop where
  configs : ConfigConstraints tables.configs
  connections : ConnectionConstraints tables.configs tables.connections
  authorizations : AuthorizationConstraints tables.connections tables.authorizations
  identities : IdentityConstraints tables.connections tables.identities
  setups : ∀ setup ∈ tables.setupSessions, ∃ config ∈ tables.configs,
    config.organization = setup.organization
  receipts : ∀ receipt ∈ tables.receipts, receipt.status = .processed → receipt.processedAt ≠ none

instance (configs : Table Config.organization) : Decidable (ConfigConstraints configs) :=
  decidable_of_iff (_ ∧ _) ⟨fun ⟨a, b⟩ => ⟨a, b⟩, fun ⟨a, b⟩ => ⟨a, b⟩⟩

instance (configs : Table Config.organization) (connections : Table Connection.id) :
    Decidable (ConnectionConstraints configs connections) :=
  decidable_of_iff (_ ∧ _ ∧ _ ∧ _)
    ⟨fun ⟨a, b, c, d⟩ => ⟨a, b, c, d⟩, fun ⟨a, b, c, d⟩ => ⟨a, b, c, d⟩⟩

instance (connections : Table Connection.id) (authorizations : Table Authorization.id) :
    Decidable (AuthorizationConstraints connections authorizations) :=
  decidable_of_iff (_ ∧ _ ∧ _) ⟨fun ⟨a, b, c⟩ => ⟨a, b, c⟩, fun ⟨a, b, c⟩ => ⟨a, b, c⟩⟩

instance (connections : Table Connection.id) (identities : Table Identity.id) :
    Decidable (IdentityConstraints connections identities) :=
  decidable_of_iff (_ ∧ _ ∧ _) ⟨fun ⟨a, b, c⟩ => ⟨a, b, c⟩, fun ⟨a, b, c⟩ => ⟨a, b, c⟩⟩

instance (tables : Tables) : Decidable (Constraints tables) :=
  decidable_of_iff (_ ∧ _ ∧ _ ∧ _ ∧ _ ∧ _)
    ⟨fun ⟨a, b, c, d, e, f⟩ => ⟨a, b, c, d, e, f⟩, fun ⟨a, b, c, d, e, f⟩ => ⟨a, b, c, d, e, f⟩⟩

structure Database extends Tables where
  valid : Constraints toTables

def Tables.empty : Tables :=
  ⟨.empty, .empty _, .empty _, .empty _, .empty _, .empty _, .empty _, .empty _⟩

def Database.empty : Database := ⟨.empty, by decide⟩

end SiliconIam.Sso
