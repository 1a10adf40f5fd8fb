/-
# Sso.Bookkeeping -- operations that their own bookkeeping defeats

`Action.Ready` is what an operation needs of the caller, the versions and the rows.
A ready operation that runs alone commits, in every reachable state, with two
exceptions (`ready_commits`):

* a serializable one is refused on a server whose default isolation level is another,
  because `beginScoped` queries before the level is set;
* a callback is refused always: PostgreSQL does not run its completion
  (`completeSsoAuthorization_postgres`), and where a server did, its report would repeat
  the identity of the report that `authorize` made (`completion_repeats`).
-/
import SiliconIam.Sso.Validity

namespace SiliconIam.Sso

open SiliconIam.Theory
open SiliconIam.Theory.Fallible
open SiliconIam.Theory.Runs

set_option autoImplicit false

variable {server : Server} {now : Nat} {db : Database}

/-! ## Preconditions -/

structure AuthorizeCall.Ready (now : Nat) (call : AuthorizeCall) (db : Database) : Prop where
  opening : ∃ organization config connection,
    Opening now call db.toTables organization config connection
  unused : ∀ row ∈ db.authorizations, row.id ≠ call.transactionId
  secret : ∀ row ∈ db.authorizations, row.stateDigest ≠ call.stateDigest

/-- The provider's subject and the Carbon are linked to each other or both unlinked. -/
def linkable (call : CallbackCall) (connection : Nat) (identities : Table Identity.id) : Prop :=
  (∃ identity ∈ identities, identity.connection = connection ∧
    identity.providerSubject = call.profile.subject ∧ identity.carbon = call.browser.carbon) ∨
  ∀ identity ∈ identities, identity.connection = connection →
    identity.providerSubject ≠ call.profile.subject ∧ identity.carbon ≠ call.browser.carbon

instance (call : CallbackCall) (connection : Nat) (identities : Table Identity.id) :
    Decidable (linkable call connection identities) :=
  inferInstanceAs (Decidable (_ ∨ _))

structure CallbackCall.Ready (now : Nat) (call : CallbackCall) (db : Database) : Prop where
  candidates : candidatesValid call.candidates
  profile : lengthIn call.profile.organizationId 1 255 ∧ lengthIn call.profile.connectionId 1 255 ∧
    lengthIn call.profile.subject 1 512 ∧ contactDigestsValid call.profile.emailDigests
  session : db.directory.sessionInForce call.browser now
  authorization : ∃ row ∈ db.authorizations, row.answers call now ∧
    db.directory.ssoInForce row.organization ∧ db.connectedBy row call.profile.matchesProvider ∧
    linkable call row.connection db.identities
  verified : ∃ contact ∈ db.directory.contacts, db.directory.verifies call contact = true
  newMembership : ∀ row ∈ db.directory.memberships, row.id ≠ call.newMembershipId
  newIdentity : ∀ row ∈ db.identities, row.id ≠ call.newIdentityId
  returned : call.returnAccepted = true

structure SetupCompletion.Ready (now : Nat) (call : SetupCompletion) (db : Database) : Prop where
  manages : call.owner.manages = true
  inTime : now < call.expiresAt
  access : ∃ organization membership config,
    db.directory.access call.owner.principal call.owner.orgId = some (organization, membership) ∧
    db.entitledConfig organization.id config ∧
    ∀ other ∈ db.configs, other.providerOrganizationId = some call.providerOrganizationId →
      other.organization = organization.id
  unused : ∀ setup ∈ db.setupSessions, setup.id ≠ call.sessionId

structure DisableCall.Ready (call : DisableCall) (db : Database) : Prop where
  manages : call.owner.manages = true
  steppedUp : call.owner.steppedUp = true
  access : ∃ organization membership config,
    db.directory.access call.owner.principal call.owner.orgId = some (organization, membership) ∧
    organization.joinMethod ≠ .sso ∧ config ∈ db.configs ∧
    config.organization = organization.id ∧ config.version = call.expectedVersion

structure EntitlementCall.Ready (call : EntitlementCall) (db : Database) : Prop where
  permitted : call.permitted = true
  positive : 0 < call.expectedVersion
  steppedUp : call.steppedUp = true
  version : ∃ organization, db.directory.organizationOf call.orgId = some organization ∧
    call.expectedVersion = ((db.configs.get? organization.id).map Config.version).getD 1

/-- A connection event that is new, for a known organization, about a connection of that
organization or a new one. -/
structure Delivery.Fresh (now : Nat) (delivery : Delivery) (db : Database)
    (transition : Transition) (data : ConnectionData) (config : Config) : Prop where
  verified : delivery.verified
  identified : providerIdValid delivery.id "event_" 512
  announces : delivery.Announces transition data
  timely : timestampAccepted now delivery.issuedAt
  fresh : db.receipts.get? delivery.id = none
  known : db.knownOrganization data.organizationId = some config
  owned : transition = .activated → ∀ connection ∈ db.connections,
    connection.providerConnectionId = data.id → connection.organization = config.organization
  unused : transition = .activated →
    ∀ connection ∈ db.connections, connection.id ≠ delivery.newConnectionId

/-- A connection event that was received before, still for a known configuration. -/
structure Delivery.Repeated (now : Nat) (delivery : Delivery) (db : Database)
    (transition : Transition) (data : ConnectionData) : Prop where
  verified : delivery.verified
  identified : providerIdValid delivery.id "event_" 512
  announces : delivery.Announces transition data
  timely : timestampAccepted now delivery.issuedAt
  received : ∃ receipt, db.receipts.get? delivery.id = some receipt ∧
    receipt.payloadDigest = delivery.payloadDigest
  known : ∃ config ∈ db.configs, config.providerOrganizationId = some data.organizationId

def Action.Ready (db : Database) : Action → Prop
  | .environment _ => False
  | .authorize now call => call.Ready now db
  | .callback now call => call.Ready now db
  | .createSetupLink now call => call.Ready now db
  | .disable _ call => call.Ready db
  | .replaceEntitlement call => call.Ready db
  | .receive now delivery => ∃ transition data,
      (∃ config, delivery.Fresh now db transition data config) ∨
        delivery.Repeated now db transition data

/-! ## What the shape of an event promises -/

theorem length_le_utf8ByteSize (text : String) : text.length ≤ text.utf8ByteSize := by
  induction text using String.push_induction with
  | empty => simp
  | push text c ih =>
      have := c.utf8Size_pos
      rw [String.utf8ByteSize_push, String.length_push]
      omega

theorem length_of_providerIdValid {value stem : String} {maximum : Nat}
    (valid : providerIdValid value stem maximum) : lengthIn value 1 maximum := by
  obtain ⟨-, long, short, -⟩ := valid
  exact ⟨by omega, short⟩

variable {data : ConnectionData} {transition : Transition}

theorem validateConnectionData_ok
    (shape : validateConnectionData data transition = .ok ()) :
    providerIdValid data.id "conn_" 255 ∧ providerIdValid data.organizationId "org_" 255 ∧
      connectionTypeValid data.connectionType := by
  obtain ⟨_, -, shape⟩ := bind_ok.mp shape
  obtain ⟨_, id, shape⟩ := bind_ok.mp shape
  obtain ⟨_, organization, shape⟩ := bind_ok.mp shape
  obtain ⟨_, type, -⟩ := bind_ok.mp shape
  exact ⟨require_ok.mp id, require_ok.mp organization, require_ok.mp type⟩

/-- The checks of the database function are implied by those of the handler, but for the
time. -/
theorem accepted_of_shape {delivery : Delivery}
    (identified : providerIdValid delivery.id "event_" 512)
    (shape : validateConnectionData data transition = .ok ())
    (timely : timestampAccepted now delivery.issuedAt) :
    (delivery.connectionEvent transition data).accepted now := by
  obtain ⟨id, organization, type⟩ := validateConnectionData_ok shape
  refine ⟨length_of_providerIdValid identified, length_of_providerIdValid organization,
    length_of_providerIdValid id, ?_, timely⟩
  show (data.connectionType.all fun text => decide (text.length ≤ 100)) = true
  cases given : data.connectionType with
  | none => rfl
  | some text =>
      have bytes := (type text given).2
      have characters := length_le_utf8ByteSize text
      exact decide_eq_true (Nat.le_trans characters bytes)

/-! ## Ready operations commit -/

section Commit

variable (booked : Booked db)

include booked

theorem authorize_commits {call : AuthorizeCall} (ready : call.Ready now db) :
    ∃ db', authorize now call db = .ok db' := by
  obtain ⟨organization, config, connection, opening⟩ := ready.opening
  obtain ⟨mem, holds⟩ := Table.find?_spec opening.connected
  have free : ∀ row ∈ cancelledFor db.authorizations config.organization call.browser,
      row.id ≠ (call.row organization.id connection.id).id := by
    intro row held same
    obtain ⟨old, oldMem, kept⟩ := (cancelled_ids _ _).2 row held
    exact ready.unused old oldMem (kept.trans same)
  obtain ⟨authorizations, inserted⟩ := Table.insert_of_free free
  have valid := valid_opened mem (of_decide_eq_true holds).1 ready.secret inserted
  obtain ⟨db', stored, tables, reported⟩ := (plan_opened inserted).commits booked valid
  exact ⟨db', authorize_ok.mpr
    ⟨organization, config, connection, authorizations, stored, opening, inserted, tables,
      reported⟩⟩

theorem createSetupLink_commits {call : SetupCompletion} (ready : call.Ready now db)
    (serializable : server.defaultIsolation = .serializable) :
    ∃ db', createSetupLink server now call db = .ok db' := by
  obtain ⟨organization, membership, config, access, entitled, free⟩ := ready.access
  have renamed := valid_setUp db free
  let setup : SetupSession :=
    ⟨call.sessionId, organization.id, membership.id, .created, call.expiresAt⟩
  have unused : ∀ other ∈ db.setupSessions, other.id ≠ setup.id := ready.unused
  obtain ⟨setupSessions, inserted⟩ := Table.insert_of_free unused
  obtain ⟨revised, found⟩ := setUp_revised entitled call.providerOrganizationId
  have configured : ∃ config ∈ setUpConfigs db.configs organization.id
      call.providerOrganizationId, config.organization = organization.id := by
    obtain ⟨mem, owner⟩ := Table.get?_eq_some.mp found
    exact ⟨_, mem, owner.trans entitled.2.1⟩
  have valid := renamed.withSetup inserted configured
  have plan : Plan db
      { db.toTables with
        configs := setUpConfigs db.configs organization.id call.providerOrganizationId
        setupSessions }
      [configEvent (config.setUp call.providerOrganizationId) "sso.setup_link.created.v1"] :=
    plan_of_config rfl revised found rfl rfl
  obtain ⟨db', stored, tables, reported⟩ := plan.commits booked valid
  exact ⟨db', createSetupLink_ok.mpr
    ⟨serializable, ready.manages, ready.inTime, organization, membership, config, access, entitled,
      ⟨_, renamed⟩, stored, setupSessions, rfl, inserted, tables, reported⟩⟩

theorem disable_commits {call : DisableCall} (ready : call.Ready db)
    (serializable : server.defaultIsolation = .serializable) :
    ∃ db', disable server now call db = .ok db' := by
  obtain ⟨organization, membership, config, access, join, mem, owner, version⟩ := ready.access
  have plan := plan_disabled now mem owner version
  obtain ⟨db', stored, tables, reported⟩ := plan.commits booked (valid_disabled db now _ _)
  exact ⟨db', disable_ok.mpr
    ⟨serializable, ready.manages, ready.steppedUp, organization, membership, config, access, join,
      mem, owner, version, stored, tables, reported⟩⟩

theorem replaceEntitlement_commits {call : EntitlementCall} (ready : call.Ready db)
    (serializable : server.defaultIsolation = .serializable) :
    ∃ db', replaceEntitlement server call db = .ok db' := by
  obtain ⟨organization, found, version⟩ := ready.version
  have entitled : ∃ config tables, Entitled call organization.id db config tables := by
    cases current : db.configs.get? organization.id with
    | none =>
        rw [current] at version
        have unused : ∀ other ∈ db.configs, other.organization ≠
            (Config.initial organization.id call.enabled).organization :=
          Table.get?_eq_none.mp current
        obtain ⟨configs, inserted⟩ := Table.insert_of_free unused
        exact ⟨_, _, .created current version inserted⟩
    | some config =>
        rw [current] at version
        exact ⟨_, _, .replaced current version.symm⟩
  obtain ⟨config, tables, entitled⟩ := entitled
  obtain ⟨db', stored, rfl, reported⟩ :=
    (plan_entitled entitled).commits booked (valid_entitled entitled)
  exact ⟨db', replaceEntitlement_ok.mpr
    ⟨serializable, ready.permitted, ready.positive, ready.steppedUp, organization, config, found,
      stored, entitled, reported⟩⟩

theorem fresh_commits {delivery : Delivery}
    {config : Config} (ready : delivery.Fresh now db transition data config)
    (serializable : server.defaultIsolation = .serializable) :
    ∃ db', receive server now delivery db = .ok db' := by
  let event := delivery.connectionEvent transition data
  obtain ⟨mem, holds⟩ := Table.find?_spec ready.known
  have provider := (of_decide_eq_true holds).1
  have ran : ∃ effect, transitionEffect now event config.organization db.toTables = .ok effect := by
    unfold transitionEffect
    cases kind : event.transition with
    | activated =>
        exact activate_succeeds (ready.owned kind) (ready.unused kind)
    | deactivated => exact ⟨_, rfl⟩
    | deleted => exact ⟨_, rfl⟩
  obtain ⟨effect, ran⟩ := ran
  have unused : ∀ other ∈ db.receipts, other.providerEventId ≠
      (event.receipt .processed now).providerEventId := Table.get?_eq_none.mp ready.fresh
  obtain ⟨receipts, inserted⟩ := Table.insert_of_free unused
  have applying : Applying now delivery db transition data config effect receipts :=
    ⟨ready.announces, accepted_of_shape ready.identified ready.announces.shape ready.timely,
      ready.fresh, ready.known, ran, inserted⟩
  have transitioned := transitionEffect_spec ran
  have valid := valid_applied mem (by rw [provider]; exact Option.some_ne_none _) transitioned
    inserted
  obtain ⟨db', stored, tables, reported⟩ := (plan_applied receipts transitioned).commits booked valid
  exact ⟨db', receive_applies ready.verified ready.identified serializable applying tables
    reported⟩

omit booked in
theorem repeated_commits {delivery : Delivery}
    (ready : delivery.Repeated now db transition data)
    (serializable : server.defaultIsolation = .serializable) :
    receive server now delivery db = .ok db := by
  obtain ⟨receipt, found, same⟩ := ready.received
  obtain ⟨config, mem, provider⟩ := ready.known
  obtain ⟨session, began⟩ := beginSerializable_ok.mpr serializable
  let event := delivery.connectionEvent transition data
  have listed : replayRows db.toTables event ≠ [] := by
    intro empty
    have selected : config ∈ db.configs.rows.filter fun config =>
        config.providerOrganizationId = some event.providerOrganizationId :=
      List.mem_filter.mpr ⟨mem, decide_eq_true provider⟩
    rw [List.map_eq_nil_iff.mp empty] at selected
    cases selected
  have replayed : applyWorkosConnectionEvent now event db =
      .ok (replayRows db.toTables event, db) := by
    unfold applyWorkosConnectionEvent
    refine bind_ok.mpr ⟨⟨⟩, require_ok.mpr
      (accepted_of_shape ready.identified ready.announces.shape ready.timely), ?_⟩
    have found : db.receipts.get? event.providerEventId = some receipt := found
    rw [found]
    exact bind_ok.mpr ⟨⟨⟩, require_ok.mpr same, rfl⟩
  have silent : recordConnectionTransitions transition (replayRows db.toTables event) db =
      .ok db := by
    have unchanged : (replayRows db.toTables event).filter (·.changed) = [] := by
      refine List.filter_eq_nil_iff.mpr fun row mem => ?_
      obtain ⟨config, -, rfl⟩ := List.mem_map.mp mem
      exact Bool.false_ne_true
    rw [recordConnectionTransitions, unchanged]
    rfl
  unfold receive
  refine bind_ok.mpr ⟨⟨⟩, require_ok.mpr ready.verified, ?_⟩
  refine bind_ok.mpr ⟨⟨⟩, require_ok.mpr ready.identified, bind_ok.mpr ⟨session, began, ?_⟩⟩
  rw [ready.announces.named]
  refine bind_ok.mpr ⟨data, orElse_ok.mpr ready.announces.given, ?_⟩
  refine bind_ok.mpr ⟨(), ready.announces.shape, bind_ok.mpr ⟨_, replayed, ?_⟩⟩
  exact bind_ok.mpr ⟨⟨⟩, require_ok.mpr listed, silent⟩

end Commit

/-! ## The condition -/

/-- What a ready operation still needs. -/
def Action.commitsOn (server : Server) : Action → Prop
  | .environment _ | .authorize _ _ => True
  | .callback _ _ => False
  | .createSetupLink _ _ | .disable _ _ | .replaceEntitlement _ | .receive _ _ =>
      server.defaultIsolation = .serializable

theorem ready_commits {action : Action} (booked : Booked db) (ready : action.Ready db) :
    (∃ db', action.run server db = .ok db') ↔ action.commitsOn server := by
  cases action with
  | environment directory => exact absurd ready id
  | authorize now call => exact ⟨fun _ => trivial, fun _ => authorize_commits booked ready⟩
  | callback now call =>
      exact ⟨fun ⟨db', done⟩ => callback_never booked done, fun never => never.elim⟩
  | createSetupLink now call =>
      exact ⟨fun ⟨_, done⟩ => (createSetupLink_ok.mp done).1, createSetupLink_commits booked ready⟩
  | disable now call =>
      exact ⟨fun ⟨_, done⟩ => (disable_ok.mp done).1, disable_commits booked ready⟩
  | replaceEntitlement call =>
      exact ⟨fun ⟨_, done⟩ => (replaceEntitlement_ok.mp done).1,
        replaceEntitlement_commits booked ready⟩
  | receive now delivery =>
      refine ⟨fun ⟨_, done⟩ => (receive_spec done).2.1, fun serializable => ?_⟩
      obtain ⟨transition, data, ⟨config, fresh⟩ | again⟩ := ready
      · exact fresh_commits booked fresh serializable
      · exact ⟨db, repeated_commits again serializable⟩

/-- The report of a completion has the identity of the report of the start. -/
theorem completion_repeats (booked : Booked db) {row : Authorization}
    (mem : row ∈ db.authorizations) :
    ∃ old ∈ db.outbox,
      old.identity = (authorizationEvent row.id "sso.authorization.completed.v1").identity := by
  obtain ⟨event, held, identity⟩ := booked.started row mem
  exact ⟨event, held, identity⟩

/-- In every reachable state, a ready operation that runs alone commits exactly when it is
not a callback and, if it asks for serializable isolation, the server's default already is
that level. -/
theorem sso_operations_commit (server : Server) (actions : List Action) :
    (∀ action : Action, action.Ready (after (next server) .empty actions) →
      ((∃ db', action.run server (after (next server) .empty actions) = .ok db') ↔
        action.commitsOn server)) ∧
    (∀ row ∈ (after (next server) .empty actions).authorizations,
      ∃ old ∈ (after (next server) .empty actions).outbox, old.identity =
        (authorizationEvent row.id "sso.authorization.completed.v1").identity) ∧
    ((∃ session, beginSerializable server = .ok session) ↔
      server.defaultIsolation = .serializable) := by
  have booked := booked_after server actions
  exact ⟨fun action ready => ready_commits booked ready,
    fun row mem => completion_repeats booked mem, beginSerializable_ok⟩

/-! ## Two ready operations that are refused -/

/-- One organization with its owner, who has a session and a verified e-mail. -/
def exampleDirectory (joinMethod : JoinMethod) : Directory where
  organizations := ⟨[⟨1, "acme", true, joinMethod⟩], by simp⟩
  principals := ⟨[⟨2, .carbon, true, 1⟩], by simp⟩
  sessions := ⟨[⟨3, 2, .carbon, true, 1000000, 1000000, 1⟩], by simp⟩
  contacts := ⟨[⟨4, 2, true, true, true, true, 0⟩], by simp⟩
  blindIndexes := [⟨4, 1, 44⟩]
  memberships := ⟨[⟨5, 1, 2, .carbon, .active, .owner, none, "", 1, 1⟩], by simp⟩
  capabilityGrants := .empty _
  settings := .empty _
  tags := []
  accessGrants := .empty _
  trustRules := .empty _

def exampleEntitlement : EntitlementCall := ⟨true, true, "acme", 1, true⟩

def exampleActivation : Delivery :=
  ⟨true, 20, 20, "event_1", "connection.activated",
    some ⟨"connection", "conn_1", "org_1", none, some "active"⟩, 77, 7⟩

/-- The organization is entitled, set up and connected, and its owner starts a sign-on. -/
def exampleRun : List Action :=
  [.environment (exampleDirectory .invite), .replaceEntitlement exampleEntitlement,
    .createSetupLink 10 ⟨⟨2, "acme", true, true⟩, "org_1", 6, 300010⟩, .receive 20 exampleActivation,
    .environment (exampleDirectory .sso),
    .authorize 30 ⟨⟨2, 3⟩, "acme", 8, 1, 81, 82, "https://acme.example/", 600000⟩]

def exampleCallback : CallbackCall :=
  ⟨⟨2, 3⟩, [⟨1, 81, 82⟩], ⟨"subject", "org_1", "conn_1", [⟨1, 44⟩]⟩, 9, 10, true⟩

/-- A first entitlement on a server with PostgreSQL's default level, and the callback of a
sign-on that was started a moment ago: were the row that its completion selects spread over
the record, the completion would go through, but not its report. -/
theorem ready_operations_refused :
    ((Action.replaceEntitlement exampleEntitlement).Ready
        (after (next (.postgres .readCommitted)) .empty
          [.environment (exampleDirectory .invite)]) ∧
      ∀ db', (Action.replaceEntitlement exampleEntitlement).run (.postgres .readCommitted)
        (after (next (.postgres .readCommitted)) .empty
          [.environment (exampleDirectory .invite)]) ≠ .ok db') ∧
    (Action.callback 40 exampleCallback).Ready
        (after (next (.postgres .serializable)) .empty exampleRun) ∧
      (completeSsoAuthorization ⟨true, .error⟩ 40 exampleCallback
        (after (next (.postgres .serializable)) .empty exampleRun)).toOption.isSome = true ∧
      ∀ plpgsql db', (Action.callback 40 exampleCallback).run ⟨.serializable, plpgsql⟩
        (after (next (.postgres .serializable)) .empty exampleRun) ≠ .ok db' := by
  refine ⟨⟨⟨rfl, by decide, rfl, ⟨1, "acme", true, .invite⟩, ?_, ?_⟩, ?_⟩, ?_, ?_, ?_⟩
  · decide +kernel
  · decide +kernel
  · intro db' done
    have := (replaceEntitlement_ok.mp done).1
    cases this
  · refine ⟨?_, ?_, ?_, ?_, ?_, ?_, ?_, rfl⟩ <;> decide +kernel
  · decide +kernel
  · exact fun plpgsql db' => callback_never (booked_after _ _)

end SiliconIam.Sso
