/-
# Sso.Effects -- what a committed operation did

One lemma for each operation takes a committed transaction apart: the checks that held,
the tables that were written, the events that were reported.  The rest of the
development reads the operations through these only.
-/
import SiliconIam.Sso.Authorization
import SiliconIam.Sso.ConnectionEvents
import SiliconIam.Theory.Versioned

namespace SiliconIam.Sso

open SiliconIam.Theory
open SiliconIam.Theory.Fallible

set_option autoImplicit false

variable {server : Server} {now : Nat} {db db' : Database}

/-! ## The outbox -/

/-- The tables are those of `db` but for the reports `events`, in order, at the front of
the outbox. -/
structure Reports (db db' : Database) (events : List OutboxEvent) : Prop where
  tables : db'.toTables = { db.toTables with outbox := db'.outbox }
  outbox : db'.outbox.rows = events.reverse ++ db.outbox.rows

theorem enqueueOutbox_spec {event : OutboxEvent} (done : enqueueOutbox db event = .ok db') :
    Reports db db' [event] := by
  obtain ⟨outbox, inserted, done⟩ := bind_ok.mp done
  obtain rfl := return_ok.mp done
  have inserted := orElse_ok.mp inserted
  unfold Table.insert at inserted
  split at inserted
  · obtain rfl := Option.some.inj inserted
    exact ⟨rfl, rfl⟩
  · cases inserted

theorem Reports.refl (db : Database) : Reports db db [] := ⟨rfl, rfl⟩

theorem Reports.trans {middle : Database} {first second : List OutboxEvent}
    (a : Reports db middle first) (b : Reports middle db' second) :
    Reports db db' (first ++ second) where
  tables := by rw [b.tables, a.tables]
  outbox := by rw [b.outbox, a.outbox, List.reverse_append, List.append_assoc]

theorem enqueueAll_cons {event : OutboxEvent} {events : List OutboxEvent} :
    enqueueAll db (event :: events) = (enqueueOutbox db event).bind (enqueueAll · events) :=
  List.foldlM_cons

theorem enqueueAll_spec {events : List OutboxEvent} (done : enqueueAll db events = .ok db') :
    Reports db db' events := by
  induction events generalizing db with
  | nil =>
      obtain rfl : db = db' := Except.ok.inj done
      exact .refl db
  | cons event rest ih =>
      obtain ⟨middle, first, later⟩ := bind_ok.mp done
      exact (enqueueOutbox_spec first).trans (ih later)

theorem enqueueOutbox_eq {event : OutboxEvent} :
    enqueueOutbox db event = enqueueAll db [event] := by
  rw [enqueueAll_cons]
  cases enqueueOutbox db event with
  | error e => rfl
  | ok next => rfl

/-- Reports that nothing has made yet go through. -/
theorem enqueueAll_of_fresh {events : List OutboxEvent}
    (distinct : (events.map OutboxEvent.identity).Nodup)
    (fresh : ∀ event ∈ events, ∀ old ∈ db.outbox, old.identity ≠ event.identity) :
    ∃ db', enqueueAll db events = .ok db' := by
  induction events generalizing db with
  | nil => exact ⟨db, rfl⟩
  | cons event rest ih =>
      obtain ⟨apart, distinct⟩ := List.nodup_cons.mp distinct
      obtain ⟨outbox, inserted⟩ := Table.insert_of_free (fresh event List.mem_cons_self)
      have first : enqueueOutbox db event =
          .ok ⟨{ db.toTables with outbox }, db.valid.withOutbox outbox⟩ := by
        unfold enqueueOutbox
        rw [inserted]
        rfl
      rw [enqueueAll_cons, first]
      refine ih distinct fun later listed old held same => ?_
      rcases ((Table.insert_spec inserted).2 old).mp held with rfl | held
      · exact apart (List.mem_map.mpr ⟨later, listed, same.symm⟩)
      · exact fresh later (List.mem_cons_of_mem _ listed) old held same

/-- An event whose identity is taken is refused. -/
theorem enqueueOutbox_taken {event old : OutboxEvent} (held : old ∈ db.outbox)
    (same : old.identity = event.identity) : enqueueOutbox db event ≠ .ok db' := by
  intro done
  obtain ⟨outbox, inserted, -⟩ := bind_ok.mp done
  exact (Table.insert_spec (orElse_ok.mp inserted)).1 old held same

/-! ## Owner operations -/

theorem beginOrganization_ok {call : OwnerCall} {access : Organization × Membership} :
    beginOrganization server call db = .ok access ↔
      server.defaultIsolation = .serializable ∧
        db.directory.access call.principal call.orgId = some access ∧ call.manages = true := by
  constructor
  · intro done
    obtain ⟨session, began, done⟩ := bind_ok.mp done
    obtain ⟨found, resolved, done⟩ := bind_ok.mp done
    obtain ⟨_, manages, done⟩ := bind_ok.mp done
    obtain rfl := return_ok.mp done
    exact ⟨beginSerializable_ok.mp ⟨session, began⟩, orElse_ok.mp resolved,
      require_ok.mp manages⟩
  · rintro ⟨serializable, resolved, manages⟩
    obtain ⟨session, began⟩ := beginSerializable_ok.mpr serializable
    refine bind_ok.mpr ⟨session, began, bind_ok.mpr ⟨access, orElse_ok.mpr resolved, ?_⟩⟩
    exact bind_ok.mpr ⟨⟨⟩, require_ok.mpr manages, rfl⟩

/-- The configuration a setup completes for. -/
def Tables.entitledConfig (tables : Tables) (organization : Nat) (config : Config) : Prop :=
  config ∈ tables.configs ∧ config.organization = organization ∧ config.platformEnabled = true

theorem createSetupLink_ok {call : SetupCompletion} :
    createSetupLink server now call db = .ok db' ↔
      server.defaultIsolation = .serializable ∧ call.owner.manages = true ∧
        now < call.expiresAt ∧ ∃ organization membership config,
        db.directory.access call.owner.principal call.owner.orgId =
          some (organization, membership) ∧
        db.entitledConfig organization.id config ∧
        ∃ renamed stored : Database, ∃ setupSessions,
          renamed.toTables = { db.toTables with
            configs := setUpConfigs db.configs organization.id call.providerOrganizationId } ∧
          db.setupSessions.insert
            ⟨call.sessionId, organization.id, membership.id, .created, call.expiresAt⟩ =
              some setupSessions ∧
          stored.toTables = { renamed.toTables with setupSessions } ∧
          enqueueAll stored [configEvent (config.setUp call.providerOrganizationId)
            "sso.setup_link.created.v1"] = .ok db' := by
  constructor
  · intro done
    obtain ⟨⟨organization, membership⟩, began, done⟩ := bind_ok.mp done
    obtain ⟨serializable, access, manages⟩ := beginOrganization_ok.mp began
    obtain ⟨config, found, done⟩ := bind_ok.mp done
    obtain ⟨mem, holds⟩ := Table.find?_spec (orElse_ok.mp found)
    obtain ⟨renamed, first, done⟩ := bind_ok.mp done
    obtain ⟨_, inTime, done⟩ := bind_ok.mp done
    obtain ⟨setupSessions, inserted, done⟩ := bind_ok.mp done
    obtain ⟨stored, second, done⟩ := bind_ok.mp done
    rw [enqueueOutbox_eq] at done
    exact ⟨serializable, manages, require_ok.mp inTime, organization, membership, config, access,
      ⟨mem, of_decide_eq_true holds⟩, renamed, stored, setupSessions, checked_ok.mp first,
      orElse_ok.mp inserted, checked_ok.mp second, done⟩
  · rintro ⟨serializable, manages, inTime, organization, membership, config, access,
      ⟨mem, owner, enabled⟩, renamed, stored, setupSessions, first, inserted, second, done⟩
    refine bind_ok.mpr ⟨(organization, membership),
      beginOrganization_ok.mpr ⟨serializable, access, manages⟩, ?_⟩
    refine bind_ok.mpr ⟨config, orElse_ok.mpr ?_, ?_⟩
    · refine Table.find?_eq_some_of_key mem (decide_eq_true ⟨owner, enabled⟩) fun other _ holds => ?_
      exact (of_decide_eq_true holds).1.trans owner.symm
    refine bind_ok.mpr ⟨renamed, checked_ok.mpr first, bind_ok.mpr ⟨⟨⟩, require_ok.mpr inTime, ?_⟩⟩
    refine bind_ok.mpr ⟨setupSessions, orElse_ok.mpr inserted, ?_⟩
    refine bind_ok.mpr ⟨stored, checked_ok.mpr second, ?_⟩
    rwa [enqueueOutbox_eq]

/-- The connections that a disable switches off. -/
def Tables.usableConnections (tables : Tables) (organization : Nat) : List Connection :=
  inOrder (tables.connections.rows.filter (Connection.usable organization))

def disableEvents (config : Config) (connections : List Connection) : List OutboxEvent :=
  configEvent config.disable "sso.configuration.disabled.v1" ::
    connections.map fun connection =>
      connectionEvent connection.id (connection.version + 1) "sso.connection.deactivated.v1"

theorem disable_ok {call : DisableCall} :
    disable server now call db = .ok db' ↔
      server.defaultIsolation = .serializable ∧ call.owner.manages = true ∧
        call.owner.steppedUp = true ∧ ∃ organization membership config,
        db.directory.access call.owner.principal call.owner.orgId =
          some (organization, membership) ∧
        organization.joinMethod ≠ .sso ∧ config ∈ db.configs ∧
        config.organization = organization.id ∧ config.version = call.expectedVersion ∧
        ∃ stored : Database,
          stored.toTables = db.disabled now organization.id call.expectedVersion ∧
          enqueueAll stored (disableEvents config (db.usableConnections organization.id)) =
            .ok db' := by
  constructor
  · intro done
    obtain ⟨⟨organization, membership⟩, began, done⟩ := bind_ok.mp done
    obtain ⟨serializable, access, manages⟩ := beginOrganization_ok.mp began
    obtain ⟨_, steppedUp, done⟩ := bind_ok.mp done
    obtain ⟨_, join, done⟩ := bind_ok.mp done
    obtain ⟨config, found, done⟩ := bind_ok.mp done
    obtain ⟨mem, holds⟩ := Table.find?_spec (orElse_ok.mp found)
    obtain ⟨owner, version⟩ := of_decide_eq_true holds
    obtain ⟨stored, ran, done⟩ := bind_ok.mp done
    exact ⟨serializable, manages, require_ok.mp steppedUp, organization, membership, config,
      access, require_ok.mp join, mem, owner, version, stored, checked_ok.mp ran, done⟩
  · rintro ⟨serializable, manages, steppedUp, organization, membership, config, access, join, mem,
      owner, version, stored, ran, done⟩
    refine bind_ok.mpr ⟨(organization, membership),
      beginOrganization_ok.mpr ⟨serializable, access, manages⟩, ?_⟩
    refine bind_ok.mpr ⟨⟨⟩, require_ok.mpr steppedUp, bind_ok.mpr ⟨⟨⟩, require_ok.mpr join, ?_⟩⟩
    refine bind_ok.mpr ⟨config, orElse_ok.mpr ?_, ?_⟩
    · refine Table.find?_eq_some_of_key mem (decide_eq_true ⟨owner, version⟩) fun other _ holds => ?_
      exact (of_decide_eq_true holds).1.trans owner.symm
    exact bind_ok.mpr ⟨stored, checked_ok.mpr ran, done⟩

/-- The row that an entitlement replacement leaves, and the tables around it. -/
inductive Entitled (call : EntitlementCall) (organization : Nat) (db : Database) :
    Config → Tables → Prop
  | created {configs : Table Config.organization}
      (absent : db.configs.get? organization = none) (first : call.expectedVersion = 1)
      (inserted : db.configs.insert (.initial organization call.enabled) = some configs) :
      Entitled call organization db (.initial organization call.enabled)
        { db.toTables with configs }
  | replaced {config : Config} (found : db.configs.get? organization = some config)
      (version : config.version = call.expectedVersion) :
      Entitled call organization db
        (config.entitle call.enabled (entitledStatus db call.enabled config))
        { db.toTables with
          configs := entitledConfigs db.configs organization call.enabled
            (entitledStatus db call.enabled config) }

theorem replaceOrganizationSsoEntitlement_ok {call : EntitlementCall} {organization : Organization}
    {config : Config} :
    replaceOrganizationSsoEntitlement organization call db = .ok (config, db') ↔
      ∃ tables, Entitled call organization.id db config tables ∧ db'.toTables = tables := by
  unfold replaceOrganizationSsoEntitlement
  constructor
  · intro done
    split at done
    · rename_i absent
      obtain ⟨_, first, done⟩ := bind_ok.mp done
      obtain ⟨configs, inserted, done⟩ := bind_ok.mp done
      obtain ⟨stored, ran, done⟩ := bind_ok.mp done
      obtain ⟨rfl, rfl⟩ := Prod.mk.inj (return_ok.mp done)
      exact ⟨_, .created absent (require_ok.mp first) (orElse_ok.mp inserted), checked_ok.mp ran⟩
    · rename_i old found
      obtain ⟨_, version, done⟩ := bind_ok.mp done
      obtain ⟨stored, ran, done⟩ := bind_ok.mp done
      obtain ⟨rfl, rfl⟩ := Prod.mk.inj (return_ok.mp done)
      exact ⟨_, .replaced found (require_ok.mp version), checked_ok.mp ran⟩
  · rintro ⟨tables, entitled, ran⟩
    cases entitled with
    | created absent first inserted =>
        rw [absent]
        refine bind_ok.mpr ⟨⟨⟩, require_ok.mpr first, bind_ok.mpr ⟨_, orElse_ok.mpr inserted, ?_⟩⟩
        exact bind_ok.mpr ⟨db', checked_ok.mpr ran, rfl⟩
    | replaced found version =>
        rw [found]
        refine bind_ok.mpr ⟨⟨⟩, require_ok.mpr version, ?_⟩
        exact bind_ok.mpr ⟨db', checked_ok.mpr ran, rfl⟩

theorem replaceEntitlement_ok {call : EntitlementCall} :
    replaceEntitlement server call db = .ok db' ↔
      server.defaultIsolation = .serializable ∧ call.permitted = true ∧
        0 < call.expectedVersion ∧ call.steppedUp = true ∧ ∃ organization config,
        db.directory.organizationOf call.orgId = some organization ∧
        ∃ stored : Database, Entitled call organization.id db config stored.toTables ∧
          enqueueAll stored [configEvent config "sso.entitlement.replaced.v1"] = .ok db' := by
  constructor
  · intro done
    obtain ⟨session, began, done⟩ := bind_ok.mp done
    obtain ⟨_, permitted, done⟩ := bind_ok.mp done
    obtain ⟨_, positive, done⟩ := bind_ok.mp done
    obtain ⟨organization, found, done⟩ := bind_ok.mp done
    obtain ⟨_, steppedUp, done⟩ := bind_ok.mp done
    obtain ⟨⟨config, stored⟩, ran, done⟩ := bind_ok.mp done
    obtain ⟨tables, entitled, rfl⟩ := replaceOrganizationSsoEntitlement_ok.mp ran
    have reported := enqueueOutbox_eq.symm.trans done
    exact ⟨beginSerializable_ok.mp ⟨session, began⟩, require_ok.mp permitted,
      require_ok.mp positive, require_ok.mp steppedUp, organization, config,
      orElse_ok.mp found, stored, entitled, reported⟩
  · rintro ⟨serializable, permitted, positive, steppedUp, organization, config, found, stored,
      entitled, done⟩
    obtain ⟨session, began⟩ := beginSerializable_ok.mpr serializable
    refine bind_ok.mpr ⟨session, began, bind_ok.mpr ⟨⟨⟩, require_ok.mpr permitted, ?_⟩⟩
    refine bind_ok.mpr ⟨⟨⟩, require_ok.mpr positive, ?_⟩
    refine bind_ok.mpr ⟨organization, orElse_ok.mpr found, ?_⟩
    refine bind_ok.mpr ⟨⟨⟩, require_ok.mpr steppedUp, bind_ok.mpr ⟨(config, stored), ?_, ?_⟩⟩
    · exact replaceOrganizationSsoEntitlement_ok.mpr ⟨_, entitled, rfl⟩
    · exact enqueueOutbox_eq.trans done

/-! ## Authorizations -/

/-- `begin_sso_authorization` found what it joins. -/
structure Opening (now : Nat) (call : AuthorizeCall) (tables : Tables)
    (organization : Organization) (config : Config) (connection : Connection) : Prop where
  keyVersion : 0 < call.digestKeyVersion
  inTime : now < call.expiresAt ∧ call.expiresAt ≤ now + 600000
  found : tables.directory.ssoOrganization call.orgId = some organization
  opened : tables.openConfig organization.id = some config
  connected : tables.activeConnection organization.id = some connection
  inForce : tables.directory.sessionInForce call.browser now

/-- The caller's earlier authorizations are cancelled. -/
def cancelledFor (authorizations : Table Authorization.id) (organization : Nat)
    (browser : Browser) : Table Authorization.id :=
  authorizations.update
    (fun row => row.organization = organization ∧ row.carbon = browser.carbon ∧
      row.session = browser.session ∧ row.status = .pending)
    Authorization.cancel Authorization.cancel_id

theorem authorize_ok {call : AuthorizeCall} :
    authorize now call db = .ok db' ↔
      ∃ organization config connection authorizations, ∃ stored : Database,
        Opening now call db.toTables organization config connection ∧
        (cancelledFor db.authorizations config.organization call.browser).insert
          (call.row organization.id connection.id) = some authorizations ∧
        stored.toTables = { db.toTables with authorizations } ∧
        enqueueAll stored [authorizationEvent call.transactionId
          "sso.authorization.started.v1"] = .ok db' := by
  constructor
  · intro done
    obtain ⟨stored, began, done⟩ := bind_ok.mp done
    obtain ⟨_, input, began⟩ := bind_ok.mp began
    obtain ⟨organization, found, began⟩ := bind_ok.mp began
    obtain ⟨config, opened, began⟩ := bind_ok.mp began
    obtain ⟨connection, connected, began⟩ := bind_ok.mp began
    obtain ⟨_, session, began⟩ := bind_ok.mp began
    obtain ⟨authorizations, inserted, ran⟩ := bind_ok.mp began
    obtain ⟨keyVersion, inTime⟩ := require_ok.mp input
    rw [enqueueOutbox_eq] at done
    exact ⟨organization, config, connection, authorizations, stored,
      ⟨keyVersion, inTime, orElse_ok.mp found, orElse_ok.mp opened, orElse_ok.mp connected,
        require_ok.mp session⟩, orElse_ok.mp inserted, checked_ok.mp ran, done⟩
  · rintro ⟨organization, config, connection, authorizations, stored, opening, inserted, ran, done⟩
    refine bind_ok.mpr ⟨stored, ?_, by rwa [enqueueOutbox_eq]⟩
    refine bind_ok.mpr ⟨⟨⟩, require_ok.mpr ⟨opening.keyVersion, opening.inTime⟩, ?_⟩
    refine bind_ok.mpr ⟨organization, orElse_ok.mpr opening.found, ?_⟩
    refine bind_ok.mpr ⟨config, orElse_ok.mpr opening.opened, ?_⟩
    refine bind_ok.mpr ⟨connection, orElse_ok.mpr opening.connected, ?_⟩
    refine bind_ok.mpr ⟨⟨⟩, require_ok.mpr opening.inForce, ?_⟩
    exact bind_ok.mpr ⟨authorizations, orElse_ok.mpr inserted, checked_ok.mpr ran⟩

/-- PostgreSQL completes no authorization. -/
theorem completeSsoAuthorization_postgres {call : CallbackCall} {result : Completion × Database} :
    completeSsoAuthorization .postgres now call db ≠ .ok result := by
  intro done
  obtain ⟨_, -, done⟩ := bind_ok.mp done
  obtain ⟨_, -, done⟩ := bind_ok.mp done
  obtain ⟨row, -, done⟩ := bind_ok.mp done
  obtain ⟨_, spreads, -⟩ := bind_ok.mp done
  exact Bool.false_ne_true (require_ok.mp spreads)

/-- A completion is of an authorization that exists, and writes no event. -/
theorem completeSsoAuthorization_spec {plpgsql : Plpgsql} {call : CallbackCall}
    {completion : Completion} {stored : Database}
    (done : completeSsoAuthorization plpgsql now call db = .ok (completion, stored)) :
    (∃ row ∈ db.authorizations, row.id = completion.authorization) ∧
      stored.outbox = db.outbox := by
  obtain ⟨_, -, done⟩ := bind_ok.mp done
  obtain ⟨_, -, done⟩ := bind_ok.mp done
  obtain ⟨row, found, done⟩ := bind_ok.mp done
  obtain ⟨_, -, done⟩ := bind_ok.mp done
  obtain ⟨config, -, done⟩ := bind_ok.mp done
  obtain ⟨contact, -, done⟩ := bind_ok.mp done
  obtain ⟨⟨membership, created, directory⟩, -, done⟩ := bind_ok.mp done
  obtain ⟨⟨identity, identities⟩, -, done⟩ := bind_ok.mp done
  obtain ⟨stored', ran, done⟩ := bind_ok.mp done
  obtain ⟨rfl, rfl⟩ := Prod.mk.inj (return_ok.mp done)
  refine ⟨⟨row, (Table.find?_spec (orElse_ok.mp found)).1, rfl⟩, ?_⟩
  rw [checked_ok.mp ran]

/-- A callback reports on an authorization that exists, at version 1, while the outbox is
what it was before. -/
theorem callback_reports {call : CallbackCall} (done : callback server now call db = .ok db') :
    ∃ row ∈ db.authorizations, ∃ stored reported : Database, stored.outbox = db.outbox ∧
      enqueueOutbox stored (authorizationEvent row.id "sso.authorization.completed.v1") =
        .ok reported := by
  obtain ⟨_, -, done⟩ := bind_ok.mp done
  obtain ⟨activation, -, done⟩ := bind_ok.mp done
  obtain ⟨⟨completion, stored⟩, completed, done⟩ := bind_ok.mp done
  obtain ⟨_, -, done⟩ := bind_ok.mp done
  obtain ⟨_, -, done⟩ := bind_ok.mp done
  obtain ⟨reported, enqueued, -⟩ := bind_ok.mp done
  obtain ⟨⟨row, mem, same⟩, outbox⟩ := completeSsoAuthorization_spec completed
  exact ⟨row, mem, stored, reported, outbox, same ▸ enqueued⟩

end SiliconIam.Sso
