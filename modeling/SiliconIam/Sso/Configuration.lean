/-
# Sso.Configuration -- setup, disable, entitlement

The three operations that an owner or the platform runs on an organization's SSO
configuration, and what every SSO transaction shares: how it begins, how its tables
are checked, how it reports to the outbox.

`beginScoped` runs a query (`SELECT set_config(...)`) before the handler gets the
transaction, so a `setIsolation` that follows it is refused unless the server's default
level already is the one asked for.

Every operation answers `Except AppError Database`; an error rolls back.  Capability,
step-up and provider checks are answers of the call, and replays of a stored response
are not repeated here.
-/
import SiliconIam.Sso.Rows
import Mathlib.Data.List.Sort

namespace SiliconIam.Sso

open SiliconIam.Theory
open SiliconIam.Theory.Fallible

set_option autoImplicit false

inductive AppError where
  | unauthenticated
  | forbidden
  | notFound
  | validation (field : String)
  | conflict (code : String)
  | preconditionFailed (code : String)
  | internal (category : String)
deriving DecidableEq

/-- `support::database`: whatever PostgreSQL reported. -/
def AppError.database : AppError := .internal "sso_database"

/-! ## Transactions -/

inductive Isolation where
  | readCommitted
  | repeatableRead
  | serializable
deriving DecidableEq

/-- `plpgsql.variable_conflict`: what a name is that is a variable and a column. -/
inductive VariableConflict where
  | error
  | useVariable
  | useColumn
deriving DecidableEq

/-- How PL/pgSQL takes two kinds of statements.  `spreadsRows`: `SELECT t INTO r` for a row `t`
and a row variable `r` sets each field of `r` to that of `t`. -/
structure Plpgsql where
  spreadsRows : Bool
  variableConflict : VariableConflict
deriving DecidableEq

/-- PostgreSQL sets the fields of a row variable to the columns of the query, and a whole row
is one column; the default of `variable_conflict` is `error`. -/
def Plpgsql.postgres : Plpgsql := ⟨false, .error⟩

/-- `defaultIsolation` is the setting `default_transaction_isolation`. -/
structure Server where
  defaultIsolation : Isolation
  plpgsql : Plpgsql

def Server.postgres (defaultIsolation : Isolation) : Server := ⟨defaultIsolation, .postgres⟩

/-- `queried`: the transaction has taken its first snapshot. -/
structure Session where
  isolation : Isolation
  queried : Bool

def Session.start (server : Server) : Session := ⟨server.defaultIsolation, false⟩

def Session.query (session : Session) : Session := { session with queried := true }

/-- `SET TRANSACTION ISOLATION LEVEL`: an error when it would change the level of a
transaction that has run a query. -/
def Session.setIsolation (session : Session) (level : Isolation) : Except AppError Session :=
  if session.queried ∧ session.isolation ≠ level then .error .database
  else .ok { session with isolation := level }

/-- `context::begin_scoped`. -/
def beginScoped (server : Server) : Session := (Session.start server).query

def beginSerializable (server : Server) : Except AppError Session :=
  (beginScoped server).setIsolation .serializable

theorem beginSerializable_ok {server : Server} :
    (∃ session, beginSerializable server = .ok session) ↔
      server.defaultIsolation = .serializable := by
  unfold beginSerializable Session.setIsolation
  by_cases same : server.defaultIsolation = .serializable
  · simp [beginScoped, Session.start, Session.query, same]
  · simp [beginScoped, Session.start, Session.query, same]

/-- The tables after the statements of a transaction, if they meet the constraints. -/
def checked (tables : Tables) (violation : AppError) : Except AppError Database :=
  if valid : Constraints tables then .ok ⟨tables, valid⟩ else .error violation

theorem checked_ok {tables : Tables} {violation : AppError} {db : Database} :
    checked tables violation = .ok db ↔ db.toTables = tables := by
  unfold checked
  split
  · constructor
    · intro same
      rw [← Except.ok.inj same]
    · rintro rfl
      rfl
  · rename_i invalid
    simp only [reduceCtorEq, false_iff]
    rintro rfl
    exact invalid db.valid

theorem Constraints.withOutbox {tables : Tables} (valid : Constraints tables)
    (outbox : Table OutboxEvent.identity) : Constraints { tables with outbox } :=
  ⟨valid.configs, valid.connections, valid.authorizations, valid.identities, valid.setups,
    valid.receipts⟩

/-- `events::enqueue_outbox`. -/
def enqueueOutbox (db : Database) (event : OutboxEvent) : Except AppError Database := do
  let outbox ← orElse (db.outbox.insert event) .database
  return ⟨{ db.toTables with outbox }, db.valid.withOutbox outbox⟩

def enqueueAll (db : Database) (events : List OutboxEvent) : Except AppError Database :=
  events.foldlM enqueueOutbox db

def lengthIn (value : String) (least most : Nat) : Prop := least ≤ value.length ∧ value.length ≤ most

instance (value : String) (least most : Nat) : Decidable (lengthIn value least most) :=
  inferInstanceAs (Decidable (_ ∧ _))

/-! ## Access -/

def Directory.organizationOf (directory : Directory) (orgId : String) : Option Organization :=
  directory.organizations.find? fun organization =>
    organization.orgId = orgId ∧ organization.active = true

/-- `resolve_organization_access`: an active membership of an active organization. -/
def Directory.access (directory : Directory) (principal : Nat) (orgId : String) :
    Option (Organization × Membership) := do
  let organization ← directory.organizationOf orgId
  let membership ← directory.memberships.find? fun membership =>
    membership.organization = organization.id ∧ membership.principal = principal ∧
      membership.status = .active
  return (organization, membership)

/-- A call of one owner operation: who calls, and how the checks that read other tables
answer. -/
structure OwnerCall where
  principal : Nat
  orgId : String
  manages : Bool
  steppedUp : Bool
deriving DecidableEq

/-- `support::begin_organization` with `serializable`, then `require_manage`. -/
def beginOrganization (server : Server) (call : OwnerCall) (db : Database) :
    Except AppError (Organization × Membership) := do
  let _ ← beginSerializable server
  let access ← orElse (db.directory.access call.principal call.orgId) .notFound
  require (call.manages = true) .forbidden
  return access

/-! ## Setup links -/

/-- The second transaction of `create_setup_link`; the provider has answered
`providerOrganizationId`. -/
structure SetupCompletion where
  owner : OwnerCall
  providerOrganizationId : String
  sessionId : Nat
  expiresAt : Nat
deriving DecidableEq

def Config.setUp (providerOrganizationId : String) : Config → Config :=
  Config.revise fun config =>
    { config with
      providerOrganizationId := some providerOrganizationId
      status := if config.status = .active then .active else .pending
      lastErrorCode := none }

theorem Config.setUp_organization (provider : String) (config : Config) :
    (config.setUp provider).organization = config.organization := rfl

def setUpConfigs (configs : Table Config.organization) (organization : Nat)
    (providerOrganizationId : String) : Table Config.organization :=
  configs.update (fun row => row.organization = organization ∧ row.platformEnabled = true)
    (Config.setUp providerOrganizationId) (Config.setUp_organization providerOrganizationId)

def configEvent (config : Config) (eventType : String) : OutboxEvent :=
  ⟨.organizationSsoConfig, config.organization, config.version, 1, eventType⟩

def createSetupLink (server : Server) (now : Nat) (call : SetupCompletion) (db : Database) :
    Except AppError Database := do
  let (organization, membership) ← beginOrganization server call.owner db
  let config ← orElse
    (db.configs.find? fun config =>
      config.organization = organization.id ∧ config.platformEnabled = true)
    (.conflict "sso_entitlement_required")
  let configs := setUpConfigs db.configs organization.id call.providerOrganizationId
  let renamed ← checked { db.toTables with configs }
    (.conflict "sso_provider_organization_conflict")
  require (now < call.expiresAt) .database
  let setupSessions ← orElse
    (db.setupSessions.insert
      ⟨call.sessionId, organization.id, membership.id, .created, call.expiresAt⟩) .database
  let stored ← checked { renamed.toTables with setupSessions } .database
  enqueueOutbox stored
    (configEvent (config.setUp call.providerOrganizationId) "sso.setup_link.created.v1")

/-! ## Disable -/

structure DisableCall where
  owner : OwnerCall
  expectedVersion : Nat
deriving DecidableEq

def Config.disable : Config → Config :=
  Config.revise fun config => { config with status := .disabled, lastErrorCode := none }

def Connection.disable (now : Nat) : Connection → Connection :=
  Connection.revise fun connection =>
    { connection with status := .disabled, disabledAt := some now }

theorem Config.disable_organization (config : Config) :
    config.disable.organization = config.organization := rfl

theorem Connection.disable_id (now : Nat) (connection : Connection) :
    (connection.disable now).id = connection.id := rfl

def connectionEvent (id version : Nat) (eventType : String) : OutboxEvent :=
  ⟨.ssoConnection, id, version, 1, eventType⟩

/-- `ORDER BY id`. -/
def inOrder (connections : List Connection) : List Connection :=
  connections.insertionSort fun a b => a.id ≤ b.id

/-- `status <> 'disabled'`. -/
def Connection.usable (organization : Nat) (connection : Connection) : Bool :=
  connection.organization = organization ∧ connection.status ≠ .disabled

def SetupSession.cancel (setup : SetupSession) : SetupSession := { setup with status := .cancelled }

def Authorization.cancel (row : Authorization) : Authorization := { row with status := .cancelled }

theorem SetupSession.cancel_id (setup : SetupSession) : setup.cancel.id = setup.id := rfl

theorem Authorization.cancel_id (row : Authorization) : row.cancel.id = row.id := rfl

/-- The four updates of a disable. -/
def Tables.disabled (tables : Tables) (now organization version : Nat) : Tables :=
  { tables with
    configs := tables.configs.update
      (fun row => row.organization = organization ∧ row.version = version)
      Config.disable Config.disable_organization
    connections := tables.connections.update (Connection.usable organization)
      (Connection.disable now) (Connection.disable_id now)
    setupSessions := tables.setupSessions.update
      (fun setup => setup.organization = organization ∧
        (setup.status = .created ∨ setup.status = .opened))
      SetupSession.cancel SetupSession.cancel_id
    authorizations := tables.authorizations.update
      (fun row => row.organization = organization ∧ row.status = .pending)
      Authorization.cancel Authorization.cancel_id }

def disable (server : Server) (now : Nat) (call : DisableCall) (db : Database) :
    Except AppError Database := do
  let (organization, _) ← beginOrganization server call.owner db
  require (call.owner.steppedUp = true) (.preconditionFailed "step_up_invalid")
  require (organization.joinMethod ≠ .sso) (.conflict "sso_join_method_active")
  let config ← orElse
    (db.configs.find? fun config =>
      config.organization = organization.id ∧ config.version = call.expectedVersion)
    (.preconditionFailed "etag_mismatch")
  let connections := inOrder (db.connections.rows.filter (Connection.usable organization.id))
  let stored ← checked (db.disabled now organization.id call.expectedVersion) .database
  enqueueAll stored
    (configEvent config.disable "sso.configuration.disabled.v1" ::
      connections.map fun connection =>
        connectionEvent connection.id (connection.version + 1) "sso.connection.deactivated.v1")

/-! ## Entitlement -/

structure EntitlementCall where
  /-- `has_platform_capability(…, 'organizations.sso_feature')`. -/
  permitted : Bool
  steppedUp : Bool
  orgId : String
  expectedVersion : Nat
  enabled : Bool
deriving DecidableEq

/-- The new status of an existing configuration. -/
def entitledStatus (db : Database) (enabled : Bool) (config : Config) : ConfigStatus :=
  if enabled = false then .disabled
  else if config.providerOrganizationId ≠ none ∧
      (db.connections.any fun connection =>
        connection.organization = config.organization ∧ connection.status = .active) = true then
    .active
  else .pending

def Config.entitle (enabled : Bool) (status : ConfigStatus) : Config → Config :=
  Config.revise fun config =>
    { config with platformEnabled := enabled, status := status, lastErrorCode := none }

theorem Config.entitle_organization (enabled : Bool) (status : ConfigStatus) (config : Config) :
    (config.entitle enabled status).organization = config.organization := rfl

def Config.initial (organization : Nat) (enabled : Bool) : Config :=
  ⟨organization, enabled, none, if enabled then .pending else .disabled, none, 1⟩

def entitledConfigs (configs : Table Config.organization) (organization : Nat) (enabled : Bool)
    (status : ConfigStatus) : Table Config.organization :=
  configs.update (fun row => row.organization = organization) (Config.entitle enabled status)
    (Config.entitle_organization enabled status)

/-- `replace_organization_sso_entitlement`: the row it leaves. -/
def replaceOrganizationSsoEntitlement (organization : Organization) (call : EntitlementCall)
    (db : Database) : Except AppError (Config × Database) :=
  match db.configs.get? organization.id with
  | none => do
      require (call.expectedVersion = 1) (.preconditionFailed "etag_mismatch")
      let config := Config.initial organization.id call.enabled
      let configs ← orElse (db.configs.insert config) .database
      let stored ← checked { db.toTables with configs } .database
      return (config, stored)
  | some config => do
      require (config.version = call.expectedVersion) (.preconditionFailed "etag_mismatch")
      let status := entitledStatus db call.enabled config
      let configs := entitledConfigs db.configs organization.id call.enabled status
      let stored ← checked { db.toTables with configs } .database
      return (config.entitle call.enabled status, stored)

def replaceEntitlement (server : Server) (call : EntitlementCall) (db : Database) :
    Except AppError Database := do
  let _ ← beginSerializable server
  require (call.permitted = true) .forbidden
  require (0 < call.expectedVersion) (.preconditionFailed "etag_invalid")
  let organization ← orElse (db.directory.organizationOf call.orgId) .notFound
  require (call.steppedUp = true) (.preconditionFailed "step_up_invalid")
  let (config, stored) ← replaceOrganizationSsoEntitlement organization call db
  enqueueOutbox stored (configEvent config "sso.entitlement.replaced.v1")

end SiliconIam.Sso
