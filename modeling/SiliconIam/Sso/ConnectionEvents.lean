/-
# Sso.ConnectionEvents -- the provider's connection events

`receive` checks a delivery (signature, age, shape) and hands a connection event to
`applyWorkosConnectionEvent`, which keeps one receipt for each event id: a repeated
delivery changes nothing, one with other content is refused.  An activation switches
the other connections of the organization off in the same transaction and answers one
row for each connection it changed; `receive` reports every changed row.

`deactivate` sets the configuration to pending whatever connection the event names.
-/
import SiliconIam.Sso.Configuration

namespace SiliconIam.Sso

open SiliconIam.Theory
open SiliconIam.Theory.Fallible

set_option autoImplicit false

inductive Transition where
  | activated
  | deactivated
  | deleted
deriving DecidableEq

/-- The outbox event of a transition. -/
def Transition.eventType : Transition → String
  | .activated => "sso.connection.activated.v1"
  | .deactivated => "sso.connection.deactivated.v1"
  | .deleted => "sso.connection.deleted.v1"

/-- `transition`: the event names that are applied. -/
def transitionOf (name : String) : Option Transition :=
  if name = "connection.activated" then some .activated
  else if name = "connection.deactivated" then some .deactivated
  else if name = "connection.deleted" then some .deleted
  else none

/-- `WorkOsConnectionData`. -/
structure ConnectionData where
  object : String
  id : String
  organizationId : String
  connectionType : Option String
  state : Option String
deriving DecidableEq

/-- A request at the webhook route: the parsed envelope and the digest of its body.
`data` is the event's object where it has the shape of a connection. -/
structure Delivery where
  signatureValid : Bool
  issuedAt : Nat
  receivedAt : Nat
  id : String
  event : String
  data : Option ConnectionData
  payloadDigest : Nat
  newConnectionId : Nat
deriving DecidableEq

def webhookToleranceMilliseconds : Nat := 300000

/-- `verify_webhook`. -/
def Delivery.verified (delivery : Delivery) : Prop :=
  delivery.signatureValid = true ∧
    delivery.issuedAt ≤ delivery.receivedAt + webhookToleranceMilliseconds ∧
    delivery.receivedAt ≤ delivery.issuedAt + webhookToleranceMilliseconds

instance (delivery : Delivery) : Decidable delivery.verified :=
  inferInstanceAs (Decidable (_ ∧ _))

def providerIdCharacter (c : Char) : Bool := (c.isAlphanum && c.toNat < 128) || c = '_'

/-- `validate_provider_id`; the characters it lets through are one byte each. -/
def providerIdValid (value stem : String) (maximum : Nat) : Prop :=
  stem.toList <+: value.toList ∧ stem.length < value.length ∧ value.length ≤ maximum ∧
    value.toList.all providerIdCharacter = true

instance (value stem : String) (maximum : Nat) : Decidable (providerIdValid value stem maximum) :=
  inferInstanceAs (Decidable (_ ∧ _))

def Transition.stateMatches (transition : Transition) (state : Option String) : Prop :=
  match transition with
  | .activated => state = some "active"
  | .deactivated => state = some "inactive"
  | .deleted => True

instance (transition : Transition) (state : Option String) :
    Decidable (transition.stateMatches state) := by
  cases transition <;> unfold Transition.stateMatches <;> infer_instance

/-- `connection_type` is absent or 1 to 100 bytes. -/
def connectionTypeValid (value : Option String) : Prop :=
  ∀ text, value = some text → text ≠ "" ∧ text.utf8ByteSize ≤ 100

instance (value : Option String) : Decidable (connectionTypeValid value) :=
  match value with
  | none => .isTrue fun _ absent => by cases absent
  | some text => decidable_of_iff (text ≠ "" ∧ text.utf8ByteSize ≤ 100)
      ⟨fun ok _ same => Option.some.inj same ▸ ok, fun all => all text rfl⟩

def validateConnectionData (data : ConnectionData) (transition : Transition) :
    Except AppError Unit := do
  require (data.object = "connection") (.validation "data.object")
  require (providerIdValid data.id "conn_" 255) (.validation "provider_id")
  require (providerIdValid data.organizationId "org_" 255) (.validation "provider_id")
  require (connectionTypeValid data.connectionType) (.validation "data.connection_type")
  require (transition.stateMatches data.state) (.validation "data.state")
  return ()

/-! ## The database function -/

/-- The arguments of `apply_workos_connection_event`. -/
structure ConnectionEvent where
  providerEventId : String
  transition : Transition
  providerOrganizationId : String
  newConnectionId : Nat
  providerConnectionId : String
  connectionType : Option String
  payloadDigest : Nat
  signatureTimestamp : Nat

/-- Between five minutes ago and a minute ahead. -/
def timestampAccepted (now signatureTimestamp : Nat) : Prop :=
  now ≤ signatureTimestamp + 300000 ∧ signatureTimestamp ≤ now + 60000

instance (now signatureTimestamp : Nat) : Decidable (timestampAccepted now signatureTimestamp) :=
  inferInstanceAs (Decidable (_ ∧ _))

def ConnectionEvent.accepted (event : ConnectionEvent) (now : Nat) : Prop :=
  lengthIn event.providerEventId 1 512 ∧ lengthIn event.providerOrganizationId 1 255 ∧
    lengthIn event.providerConnectionId 1 255 ∧
    (event.connectionType.all fun text => text.length ≤ 100) = true ∧
    timestampAccepted now event.signatureTimestamp

instance (event : ConnectionEvent) (now : Nat) : Decidable (event.accepted now) :=
  inferInstanceAs (Decidable (_ ∧ _))

/-- A row of the answer. -/
structure TransitionRow where
  organization : Nat
  connection : Option Nat
  connectionVersion : Option Nat
  changed : Bool
  status : ConnectionStatus
deriving DecidableEq

/-- The active organization whose configuration holds this provider organization. -/
def Tables.knownOrganization (tables : Tables) (providerOrganizationId : String) : Option Config :=
  tables.configs.find? fun config =>
    config.providerOrganizationId = some providerOrganizationId ∧
      (tables.directory.organizations.any fun organization =>
        organization.id = config.organization ∧ organization.active = true) = true

/-- The connection is active, of this organization, and not the one the event names. -/
def Connection.displacedBy (organization : Nat) (providerConnectionId : String)
    (connection : Connection) : Bool :=
  connection.organization = organization ∧
    connection.providerConnectionId ≠ providerConnectionId ∧ connection.status = .active

def Connection.displace (now : Nat) : Connection → Connection :=
  Connection.revise fun connection =>
    { connection with status := .disabled, disabledAt := some now, activatedAt := none }

def Connection.activate (now : Nat) (connectionType : Option String) : Connection → Connection :=
  Connection.revise fun connection =>
    { connection with
      connectionType
      status := .active
      activatedAt := some (connection.activatedAt.getD now)
      disabledAt := none }

def Connection.deactivate (now : Nat) (connectionType : Option String) :
    Connection → Connection :=
  Connection.revise fun connection =>
    { connection with
      connectionType := connectionType.or connection.connectionType
      status := .disabled
      activatedAt := none
      disabledAt := some (connection.disabledAt.getD now) }

theorem Connection.displace_id (now : Nat) (connection : Connection) :
    (connection.displace now).id = connection.id := rfl

theorem Connection.activate_id (now : Nat) (connectionType : Option String)
    (connection : Connection) : (connection.activate now connectionType).id = connection.id := rfl

theorem Connection.deactivate_id (now : Nat) (connectionType : Option String)
    (connection : Connection) : (connection.deactivate now connectionType).id = connection.id := rfl

/-- An activation changes a connection that is not active or of another type. -/
def Connection.activationChanges (connectionType : Option String) (connection : Connection) :
    Bool :=
  connection.connectionType ≠ connectionType ∨ connection.status ≠ .active

def Connection.deactivationChanges (transition : Transition) (connectionType : Option String)
    (connection : Connection) : Bool :=
  transition = .deleted ∨ connection.status ≠ .disabled ∨
    (connectionType ≠ none ∧ connection.connectionType ≠ connectionType)

def Config.settle (status : ConfigStatus) : Config → Config :=
  Config.revise fun config => { config with status := status, lastErrorCode := none }

theorem Config.settle_organization (status : ConfigStatus) (config : Config) :
    (config.settle status).organization = config.organization := rfl

/-- The status an event leaves, under the entitlement. -/
def Config.statusAfter (status : ConfigStatus) (config : Config) : ConfigStatus :=
  if config.platformEnabled then status else .disabled

/-- The `UPDATE` of the configuration, which skips a row that already is as wanted. -/
def settleConfig (configs : Table Config.organization) (organization : Nat)
    (status : ConfigStatus) : Table Config.organization :=
  configs.update
    (fun config => config.organization = organization ∧
      (config.status ≠ config.statusAfter status ∨ config.lastErrorCode ≠ none))
    (fun config => config.settle (config.statusAfter status))
    fun config => Config.settle_organization (config.statusAfter status) config

/-- What one event did to the connections: the answer rows still lack their versions. -/
structure Effect where
  connections : Table Connection.id
  target : Option Nat
  targetChanged : Bool
  displaced : List Nat

/-- The connections after the others were switched off. -/
def displacedConnections (now organization : Nat) (provider : String)
    (connections : Table Connection.id) : Table Connection.id :=
  connections.update (Connection.displacedBy organization provider) (Connection.displace now)
    (Connection.displace_id now)

def displacedIds (organization : Nat) (provider : String) (connections : Table Connection.id) :
    List Nat :=
  (inOrder (connections.rows.filter (Connection.displacedBy organization provider))).map
    Connection.id

/-- The connection that an activation creates. -/
def newConnection (now organization : Nat) (event : ConnectionEvent) : Connection :=
  ⟨event.newConnectionId, organization, event.providerConnectionId, event.connectionType, .active,
    some now, none, 1⟩

def activateTarget (now : Nat) (connectionType : Option String) (target : Nat)
    (connections : Table Connection.id) : Table Connection.id :=
  connections.update (fun row => row.id = target ∧ row.activationChanges connectionType = true)
    (Connection.activate now connectionType) (Connection.activate_id now connectionType)

/-- The branch of `connection.activated`. -/
def activate (now : Nat) (event : ConnectionEvent) (organization : Nat) (tables : Tables) :
    Except AppError Effect :=
  match (displacedConnections now organization event.providerConnectionId
      tables.connections).find? fun row =>
        row.providerConnectionId = event.providerConnectionId with
  | some target =>
      if target.organization ≠ organization then .error .database
      else .ok
        ⟨activateTarget now event.connectionType target.id
          (displacedConnections now organization event.providerConnectionId tables.connections),
          some target.id, target.activationChanges event.connectionType,
          displacedIds organization event.providerConnectionId tables.connections⟩
  | none => do
      let connections ← orElse
        ((displacedConnections now organization event.providerConnectionId
          tables.connections).insert (newConnection now organization event)) .database
      return ⟨connections, some event.newConnectionId, true,
        displacedIds organization event.providerConnectionId tables.connections⟩

def deactivateTarget (now : Nat) (transition : Transition) (connectionType : Option String)
    (target : Nat) (connections : Table Connection.id) : Table Connection.id :=
  connections.update
    (fun row => row.id = target ∧ row.deactivationChanges transition connectionType = true)
    (Connection.deactivate now connectionType) (Connection.deactivate_id now connectionType)

/-- The branch of `connection.deactivated` and `connection.deleted`. -/
def deactivate (now : Nat) (event : ConnectionEvent) (organization : Nat) (tables : Tables) :
    Effect :=
  match tables.connections.find? fun row => row.organization = organization ∧
      row.providerConnectionId = event.providerConnectionId with
  | some target =>
      ⟨deactivateTarget now event.transition event.connectionType target.id tables.connections,
        some target.id,
        target.deactivationChanges event.transition event.connectionType, []⟩
  | none => ⟨tables.connections, none, false, []⟩

/-- What an event sets a configuration to, under the entitlement, and its connection. -/
def Transition.configStatus : Transition → ConfigStatus
  | .activated => .active
  | .deactivated | .deleted => .pending

def Transition.connectionStatus : Transition → ConnectionStatus
  | .activated => .active
  | .deactivated | .deleted => .disabled

def transitionEffect (now : Nat) (event : ConnectionEvent) (organization : Nat)
    (tables : Tables) : Except AppError Effect :=
  match event.transition with
  | .activated => activate now event organization tables
  | .deactivated | .deleted => .ok (deactivate now event organization tables)

/-- The answer: the target first, unless an activation left it as it was and switched
others off, then each connection that was switched off. -/
def Effect.rows (effect : Effect) (organization : Nat) (transition : Transition) :
    List TransitionRow :=
  let version (id : Nat) : Option Nat :=
    (effect.connections.get? id).map Connection.version
  let target : TransitionRow :=
    ⟨organization, effect.target, effect.target.bind version, effect.targetChanged,
      transition.connectionStatus⟩
  let displaced := effect.displaced.map fun id =>
    (⟨organization, some id, version id, true, .disabled⟩ : TransitionRow)
  if effect.targetChanged = true ∨ effect.displaced = [] then target :: displaced else displaced

/-- The answer to a repeated delivery. -/
def replayRows (tables : Tables) (event : ConnectionEvent) : List TransitionRow :=
  (tables.configs.rows.filter fun config =>
      config.providerOrganizationId = some event.providerOrganizationId).map fun config =>
    let connection := tables.connections.find? fun row =>
      row.organization = config.organization ∧
        row.providerConnectionId = event.providerConnectionId
    ⟨config.organization, connection.map Connection.id, connection.map Connection.version, false,
      (connection.map Connection.status).getD event.transition.connectionStatus⟩

def ConnectionEvent.receipt (event : ConnectionEvent) (status : ReceiptStatus) (now : Nat) :
    Receipt :=
  ⟨event.providerEventId, event.payloadDigest, event.signatureTimestamp, status, some now, 1⟩

/-- The receipt is inserted first and closed last; nothing reads it in between.  An event
for an unknown organization answers no row. -/
def applyWorkosConnectionEvent (now : Nat) (event : ConnectionEvent) (db : Database) :
    Except AppError (List TransitionRow × Database) := do
  require (event.accepted now) .database
  match db.receipts.get? event.providerEventId with
  | some receipt =>
      require (receipt.payloadDigest = event.payloadDigest) .database
      return (replayRows db.toTables event, db)
  | none =>
      match db.knownOrganization event.providerOrganizationId with
      | none => do
          let receipts ← orElse (db.receipts.insert (event.receipt .ignored now)) .database
          let stored ← checked { db.toTables with receipts } .database
          return ([], stored)
      | some config =>
          let effect ← transitionEffect now event config.organization db.toTables
          let receipts ← orElse (db.receipts.insert (event.receipt .processed now)) .database
          let stored ← checked
            { db.toTables with
              connections := effect.connections
              configs := settleConfig db.configs config.organization event.transition.configStatus
              receipts } .database
          return (effect.rows config.organization event.transition, stored)

/-! ## The handler -/

/-- `emitted_transition`. -/
def emittedTransition (incoming : Transition) (status : ConnectionStatus) :
    Except AppError Transition :=
  match incoming, status with
  | .activated, .active => .ok .activated
  | .activated, .disabled | .deactivated, .disabled => .ok .deactivated
  | .deleted, .disabled => .ok .deleted
  | _, _ => .error (.internal "workos_connection_transition_status")

def transitionEvent (incoming : Transition) (row : TransitionRow) : Except AppError OutboxEvent := do
  let emitted ← emittedTransition incoming row.status
  let id ← orElse row.connection (.internal "workos_connection_transition_target")
  let version ← orElse row.connectionVersion (.internal "workos_connection_transition_version")
  return connectionEvent id version emitted.eventType

/-- `record_connection_transitions`. -/
def recordConnectionTransitions (incoming : Transition) (rows : List TransitionRow)
    (db : Database) : Except AppError Database :=
  (rows.filter (·.changed)).foldlM
    (fun db row => do enqueueOutbox db (← transitionEvent incoming row)) db

def Delivery.connectionEvent (delivery : Delivery) (transition : Transition)
    (data : ConnectionData) : ConnectionEvent where
  providerEventId := delivery.id
  transition := transition
  providerOrganizationId := data.organizationId
  newConnectionId := delivery.newConnectionId
  providerConnectionId := data.id
  connectionType := data.connectionType
  payloadDigest := delivery.payloadDigest
  signatureTimestamp := delivery.issuedAt

/-- `record_ignored_workos_event`. -/
def recordIgnoredWorkosEvent (now : Nat) (delivery : Delivery) (db : Database) :
    Except AppError Database := do
  require (lengthIn delivery.id 1 512 ∧ timestampAccepted now delivery.issuedAt) .database
  match db.receipts.get? delivery.id with
  | some receipt =>
      require (receipt.payloadDigest = delivery.payloadDigest ∧
        receipt.signatureVerifiedAt = delivery.issuedAt) (.conflict "workos_event_conflict")
      return db
  | none =>
      let receipts ← orElse
        (db.receipts.insert
          ⟨delivery.id, delivery.payloadDigest, delivery.issuedAt, .ignored, some now, 1⟩) .database
      checked { db.toTables with receipts } .database

def receive (server : Server) (now : Nat) (delivery : Delivery) (db : Database) :
    Except AppError Database := do
  require delivery.verified .unauthenticated
  require (providerIdValid delivery.id "event_" 512) (.validation "provider_id")
  let _ ← beginSerializable server
  match transitionOf delivery.event with
  | none => recordIgnoredWorkosEvent now delivery db
  | some transition =>
      let data ← orElse delivery.data (.validation "data")
      validateConnectionData data transition
      let (rows, stored) ← applyWorkosConnectionEvent now
        (delivery.connectionEvent transition data) db
      require (rows ≠ []) (.conflict "workos_event_unknown_organization")
      recordConnectionTransitions transition rows stored

end SiliconIam.Sso
