/-
# Sso.Plans -- every operation follows a plan

The committed operations, one by one: what each writes and reports is a `Plan`, and
`Action.run` puts the six together with the changes that other parts make to their own
rows.  A callback is the exception: it reports on the authorization at the version that
the start has reported at, so `callback_never` holds of every booked database, whatever
the server makes of the completion, and what is reached by any run is booked
(`booked_after`).
-/
import SiliconIam.Sso.Reports
import SiliconIam.Theory.Runs

namespace SiliconIam.Sso

open SiliconIam.Theory
open SiliconIam.Theory.Runs
open SiliconIam.Theory.Versioned

set_option autoImplicit false

variable {server : Server} {now : Nat} {db db' : Database} {tables : Tables}

/-! ## Reports of one kind -/

theorem reportsOn_configEvent (aggregate : Aggregate) (config : Config) (eventType : String) :
    reportsOn aggregate [configEvent config eventType] =
      if aggregate = .organizationSsoConfig then [(config.organization, config.version)] else [] := by
  cases aggregate <;> rfl

theorem reportsOn_connectionEvents {β : Type} (aggregate : Aggregate) (items : List β)
    (id version : β → Nat) (eventType : String) :
    reportsOn aggregate (items.map fun item => connectionEvent (id item) (version item) eventType) =
      if aggregate = .ssoConnection then items.map fun item => (id item, version item) else [] := by
  induction items with
  | nil => split <;> rfl
  | cons item rest ih =>
      rw [List.map_cons, ← List.singleton_append, reportsOn_append, ih]
      cases aggregate <;> rfl

theorem reportsOn_effect (aggregate : Aggregate) (effect : Effect) (transition : Transition) :
    reportsOn aggregate (effect.events transition) =
      if aggregate = .ssoConnection then
        effect.changed.map fun id => (id, versionOf effect.connections id) else [] := by
  rw [Effect.events, reportsOn_append, reportsOn_connectionEvents, reportsOn_connectionEvents,
    Effect.changed, List.map_append]
  split
  · rfl
  · rfl

theorem map_fst_pairs (ids : List Nat) (version : Nat → Nat) :
    (ids.map fun id => (id, version id)).map Prod.fst = ids := by
  rw [List.map_map]
  exact List.map_id _

/-! ## The owner's and the platform's operations -/

variable {config : Config}

/-- One report on a configuration that was just written; nothing else is versioned. -/
theorem plan_of_config {eventType : String}
    (outbox : tables.outbox = db.outbox)
    (revised : Revised Config.version db.configs tables.configs [config.organization])
    (found : tables.configs.get? config.organization = some config)
    (connections : tables.connections = db.connections)
    (authorizations : tables.authorizations = db.authorizations) :
    Plan db tables [configEvent config eventType] where
  outbox := outbox
  ordinals := List.forall_mem_singleton.mpr rfl
  kinds := List.forall_mem_singleton.mpr fun same => by cases same
  apart := List.nodup_singleton _
  configs := ⟨_, revised, .refl _⟩
  configVersions := List.forall_mem_singleton.mpr ⟨config, found, rfl⟩
  connections := connections ▸ .refl _
  connectionVersions := List.forall_mem_nil _
  started := List.forall_mem_nil _
  kept old mem := ⟨old, authorizations ▸ mem, rfl⟩
  opened row mem := .inl ⟨row, authorizations ▸ mem, rfl⟩

variable {organization : Nat}

theorem setUp_revised
    (entitled : db.entitledConfig organization config) (provider : String) :
    Revised Config.version db.configs (setUpConfigs db.configs organization provider)
        [config.organization] ∧
      (setUpConfigs db.configs organization provider).get? config.organization =
        some (config.setUp provider) := by
  obtain ⟨mem, owner, enabled⟩ := entitled
  have picked : decide (config.organization = organization ∧ config.platformEnabled = true) =
      true := decide_eq_true ⟨owner, enabled⟩
  constructor
  · have revised : Revised Config.version db.configs _ _ := Revised.updateOne
      (fun row => row.organization = organization ∧ row.platformEnabled = true)
      (Config.setUp provider) (Config.setUp_organization provider) (fun _ => rfl) mem
      fun other _ holds => (of_decide_eq_true holds).1.trans owner.symm
    rw [if_pos picked] at revised
    exact revised
  · exact Table.get?_picked (Config.setUp_organization provider) (Table.get?_of_mem mem) picked

theorem entitled_revised {call : EntitlementCall}
    (entitled : Entitled call organization db config tables) :
    Revised Config.version db.configs tables.configs [config.organization] ∧
      tables.configs.get? config.organization = some config := by
  cases entitled with
  | @created configs absent first inserted =>
      refine ⟨Revised.insert inserted rfl, ?_⟩
      rw [Table.get?_insert inserted, if_pos rfl]
  | @replaced old found version =>
      obtain ⟨mem, owner⟩ := Table.get?_eq_some.mp found
      have picked : decide (old.organization = organization) = true := decide_eq_true owner
      constructor
      · have revised : Revised Config.version db.configs _ _ := Revised.updateOne
          (fun row => row.organization = organization)
          (Config.entitle call.enabled (entitledStatus db call.enabled old))
          (Config.entitle_organization call.enabled _) (fun _ => rfl) mem fun other _ holds => (of_decide_eq_true holds).trans owner.symm
        rw [if_pos picked] at revised
        exact revised
      · exact Table.get?_picked (Config.entitle_organization call.enabled _)
          (Table.get?_of_mem mem) picked

theorem plan_entitled {call : EntitlementCall}
    (entitled : Entitled call organization db config tables) :
    Plan db tables [configEvent config "sso.entitlement.replaced.v1"] := by
  obtain ⟨revised, found⟩ := entitled_revised entitled
  cases entitled with
  | created => exact plan_of_config rfl revised found rfl rfl
  | replaced => exact plan_of_config rfl revised found rfl rfl

theorem usable_revised (db : Database) (now organization version : Nat) :
    Revised Connection.version db.connections (db.disabled now organization version).connections
      ((db.usableConnections organization).map Connection.id) :=
  (Revised.update db.connections (Connection.usable organization) (Connection.disable now)
    (Connection.disable_id now) fun _ => rfl).perm (inOrder_ids_perm _).symm

theorem mem_usableConnections {connection : Connection} :
    connection ∈ db.usableConnections organization ↔
      connection ∈ db.connections ∧ connection.organization = organization ∧
        connection.status ≠ .disabled := by
  rw [Tables.usableConnections, mem_inOrder, List.mem_filter, Table.mem_rows, Connection.usable,
    decide_eq_true_iff]

theorem disabled_config (now : Nat) {version : Nat} (mem : config ∈ db.configs)
    (owner : config.organization = organization) (current : config.version = version) :
    Revised Config.version db.configs (db.disabled now organization version).configs
        [config.organization] ∧
      (db.disabled now organization version).configs.get? config.organization =
        some config.disable := by
  have picked : decide (config.organization = organization ∧ config.version = version) = true :=
    decide_eq_true ⟨owner, current⟩
  constructor
  · have revised : Revised Config.version db.configs _ _ := Revised.updateOne
      (fun row => row.organization = organization ∧ row.version = version) Config.disable
      Config.disable_organization (fun _ => rfl) mem
      fun other _ holds => (of_decide_eq_true holds).1.trans owner.symm
    rw [if_pos picked] at revised
    exact revised
  · exact Table.get?_picked Config.disable_organization (Table.get?_of_mem mem) picked

theorem reportsOn_disable (aggregate : Aggregate) (config : Config)
    (connections : List Connection) :
    reportsOn aggregate (disableEvents config connections) =
      (if aggregate = .organizationSsoConfig then
        [(config.organization, config.version + 1)] else []) ++
      if aggregate = .ssoConnection then
        connections.map fun connection => (connection.id, connection.version + 1) else [] := by
  rw [disableEvents, ← List.singleton_append, reportsOn_append, reportsOn_configEvent,
    reportsOn_connectionEvents]
  rfl

/-- Cancelled authorizations keep their ids. -/
theorem cancelled_ids (p : Authorization → Bool) (authorizations : Table Authorization.id) :
    (∀ old ∈ authorizations,
      ∃ row ∈ authorizations.update p Authorization.cancel Authorization.cancel_id,
        row.id = old.id) ∧
    ∀ row ∈ authorizations.update p Authorization.cancel Authorization.cancel_id,
      ∃ old ∈ authorizations, old.id = row.id := by
  constructor
  · intro old mem
    refine ⟨_, Table.mem_update_of_mem _ mem, ?_⟩
    split <;> rfl
  · intro row mem
    obtain ⟨old, held, rfl⟩ := Table.mem_update.mp mem
    refine ⟨old, held, ?_⟩
    split <;> rfl

theorem plan_disabled (now : Nat) {version : Nat} (mem : config ∈ db.configs)
    (owner : config.organization = organization) (current : config.version = version) :
    Plan db (db.disabled now organization version)
      (disableEvents config (db.usableConnections organization)) := by
  obtain ⟨revised, found⟩ := disabled_config now mem owner current
  have connections := usable_revised db now organization version
  refine ⟨rfl, ?_, ?_, ?_, ⟨_, revised, ?_⟩, ?_, ?_, ?_, ?_, (cancelled_ids _ _).1,
    fun row mem => .inl ((cancelled_ids _ _).2 row mem)⟩
  · simp [disableEvents, configEvent, connectionEvent]
  · simp [disableEvents, configEvent, connectionEvent]
  · rw [disableEvents, List.map_cons, List.nodup_cons, List.map_map]
    constructor
    · simp [configEvent, connectionEvent]
    · refine List.Nodup.of_map Prod.snd ?_
      rw [List.map_map]
      exact connections.distinct
  · rw [reportsOn_disable]
    exact .refl _
  · rw [reportsOn_disable]
    exact List.forall_mem_singleton.mpr ⟨_, found, rfl⟩
  · rw [reportsOn_disable]
    have ids : ((db.usableConnections organization).map fun connection =>
        (connection.id, connection.version + 1)).map Prod.fst =
          (db.usableConnections organization).map Connection.id := List.map_map
    show Revised _ _ _ (((db.usableConnections organization).map _).map Prod.fst)
    rw [ids]
    exact connections
  · rw [reportsOn_disable]
    intro entry listed
    obtain ⟨connection, usable, rfl⟩ := List.mem_map.mp listed
    obtain ⟨row, found, counted⟩ :=
      connections.written connection.id (List.mem_map.mpr ⟨connection, usable, rfl⟩)
    rw [Table.get?_of_mem (mem_usableConnections.mp usable).1] at counted
    exact ⟨row, found, counted.symm⟩
  · rw [reportsOn_disable]
    exact List.forall_mem_nil _

/-! ## Connection events -/

theorem settled_revised (db : Database) (organization : Nat) (status : ConfigStatus) :
    ∃ changed, Revised Config.version db.configs (settleConfig db.configs organization status)
      changed :=
  ⟨_, Revised.update db.configs _ (fun config => config.settle (config.statusAfter status))
    (fun config => Config.settle_organization (config.statusAfter status) config) fun _ => rfl⟩

theorem effect_identities (effect : Effect) (transition : Transition) :
    ((effect.events transition).map fun event => (event.aggregate, event.aggregateId)) =
      effect.changed.map fun id => (.ssoConnection, id) := by
  rw [Effect.events, Effect.changed, List.map_append, List.map_append, List.map_map, List.map_map]
  rfl

/-- A transaction that reports nothing and leaves the versioned rows alone. -/
theorem plan_silent (outbox : tables.outbox = db.outbox) (configs : tables.configs = db.configs)
    (connections : tables.connections = db.connections)
    (authorizations : tables.authorizations = db.authorizations) : Plan db tables [] where
  outbox := outbox
  ordinals := List.forall_mem_nil _
  kinds := List.forall_mem_nil _
  apart := List.nodup_nil
  configs := ⟨[], configs ▸ .refl _, .refl _⟩
  configVersions := List.forall_mem_nil _
  connections := connections ▸ .refl _
  connectionVersions := List.forall_mem_nil _
  started := List.forall_mem_nil _
  kept old mem := ⟨old, authorizations ▸ mem, rfl⟩
  opened row mem := .inl ⟨row, authorizations ▸ mem, rfl⟩

theorem plan_applied {event : ConnectionEvent} {effect : Effect}
    (receipts : Table Receipt.providerEventId)
    (ran : Transitioned now organization event db.toTables effect) :
    Plan db (appliedTables event organization db.toTables effect receipts)
      (effect.events event.transition) := by
  have revised := ran.revised
  obtain ⟨settled, configs⟩ := settled_revised db organization event.transition.configStatus
  refine ⟨rfl, ?_, ?_, ?_, ⟨settled, configs, ?_⟩, ?_, ?_, ?_, ?_, fun old mem => ⟨old, mem, rfl⟩,
    fun row mem => .inl ⟨row, mem, rfl⟩⟩
  · intro report listed
    rcases List.mem_append.mp listed with target | displaced
    · obtain ⟨id, -, rfl⟩ := List.mem_map.mp target
      rfl
    · obtain ⟨id, -, rfl⟩ := List.mem_map.mp displaced
      rfl
  · intro report listed
    rcases List.mem_append.mp listed with target | displaced
    · obtain ⟨id, -, rfl⟩ := List.mem_map.mp target
      exact fun same => by cases same
    · obtain ⟨id, -, rfl⟩ := List.mem_map.mp displaced
      exact fun same => by cases same
  · rw [effect_identities]
    refine List.Nodup.of_map Prod.snd ?_
    rw [List.map_map]
    exact (List.map_id effect.changed).symm ▸ revised.distinct
  · rw [reportsOn_effect]
    exact List.nil_sublist _
  · rw [reportsOn_effect]
    exact List.forall_mem_nil _
  · rw [reportsOn_effect, if_pos rfl, map_fst_pairs]
    exact revised
  · rw [reportsOn_effect, if_pos rfl]
    intro entry listed
    obtain ⟨id, changed, rfl⟩ := List.mem_map.mp listed
    obtain ⟨connection, found, -⟩ := revised.written id changed
    exact ⟨connection, found, versionOf_eq found⟩
  · rw [reportsOn_effect]
    exact List.forall_mem_nil _

theorem receive_plan {delivery : Delivery} (done : receive server now delivery db = .ok db') :
    db' = db ∨ ∃ tables events, Plan db tables events ∧ Commits tables events db' := by
  obtain ⟨-, -, received⟩ := receive_spec done
  cases received with
  | replay _ _ unchanged => exact .inl unchanged
  | @ignored receipts _ _ _ stored =>
      have plan : Plan db { db.toTables with receipts } [] := plan_silent rfl rfl rfl rfl
      exact .inr ⟨_, [], plan, db', stored, rfl⟩
  | @applied transition data config effect receipts stored applying tables reported =>
      exact .inr ⟨_, _, plan_applied receipts (transitionEffect_spec applying.ran), stored, tables,
        reported⟩

/-! ## The browser flow -/

theorem plan_opened {call : AuthorizeCall} {connection owner : Nat}
    {authorizations : Table Authorization.id}
    (inserted : (cancelledFor db.authorizations owner call.browser).insert
      (call.row organization connection) = some authorizations) :
    Plan db { db.toTables with authorizations }
      [authorizationEvent call.transactionId "sso.authorization.started.v1"] := by
  obtain ⟨free, listed⟩ := Table.insert_spec inserted
  have cancelled := cancelled_ids
    (fun row => row.organization = owner ∧ row.carbon = call.browser.carbon ∧
      row.session = call.browser.session ∧ row.status = .pending) db.authorizations
  refine ⟨rfl, List.forall_mem_singleton.mpr rfl,
    List.forall_mem_singleton.mpr (fun same => by cases same), List.nodup_singleton _,
    ⟨[], .refl _, .refl _⟩, List.forall_mem_nil _, .refl _, List.forall_mem_nil _,
    List.forall_mem_singleton.mpr ⟨rfl, ?_, ?_⟩, ?_, ?_⟩
  · intro old mem same
    obtain ⟨row, held, kept⟩ := cancelled.1 old mem
    exact free row held (kept.trans same)
  · exact ⟨_, (listed _).mpr (.inl rfl), rfl⟩
  · intro old mem
    obtain ⟨row, held, kept⟩ := cancelled.1 old mem
    exact ⟨row, (listed row).mpr (.inr held), kept⟩
  · intro row mem
    rcases (listed row).mp mem with rfl | held
    · exact .inr (List.mem_singleton.mpr rfl)
    · exact .inl (cancelled.2 row held)

/-- The report of a callback is always taken, also where its completion goes through. -/
theorem callback_never {call : CallbackCall} (booked : Booked db) :
    callback server now call db ≠ .ok db' := by
  intro done
  obtain ⟨row, mem, stored, reported, outbox, enqueued⟩ := callback_reports done
  obtain ⟨event, held, identity⟩ := booked.started row mem
  exact enqueueOutbox_taken (outbox ▸ held) identity enqueued

/-! ## Runs -/

/-- The six operations, each with the time of its transaction, and what the other parts of
the service do to their own rows. -/
inductive Action where
  | environment (directory : Directory)
  | authorize (now : Nat) (call : AuthorizeCall)
  | callback (now : Nat) (call : CallbackCall)
  | createSetupLink (now : Nat) (call : SetupCompletion)
  | disable (now : Nat) (call : DisableCall)
  | replaceEntitlement (call : EntitlementCall)
  | receive (now : Nat) (delivery : Delivery)

theorem Constraints.withDirectory {tables : Tables} (valid : Constraints tables)
    (directory : Directory) : Constraints { tables with directory } :=
  ⟨valid.configs, valid.connections, valid.authorizations, valid.identities, valid.setups,
    valid.receipts⟩

def Action.run (server : Server) (db : Database) : Action → Except AppError Database
  | .environment directory =>
      .ok ⟨{ db.toTables with directory }, db.valid.withDirectory directory⟩
  | .authorize now call => Sso.authorize now call db
  | .callback now call => Sso.callback server now call db
  | .createSetupLink now call => Sso.createSetupLink server now call db
  | .disable now call => Sso.disable server now call db
  | .replaceEntitlement call => Sso.replaceEntitlement server call db
  | .receive now delivery => Sso.receive server now delivery db

/-- A refused transaction is rolled back. -/
def next (server : Server) (db : Database) (action : Action) : Database :=
  match action.run server db with
  | .ok db' => db'
  | .error _ => db

theorem run_plan {action : Action} (booked : Booked db) (done : action.run server db = .ok db') :
    db' = db ∨ ∃ tables events, Plan db tables events ∧ Commits tables events db' := by
  cases action with
  | environment directory =>
      have plan : Plan db { db.toTables with directory } [] := plan_silent rfl rfl rfl rfl
      exact .inr ⟨_, [], plan, _, rfl, done⟩
  | authorize now call =>
      obtain ⟨organization, config, connection, authorizations, stored, -, inserted, tables,
        reported⟩ := authorize_ok.mp done
      exact .inr ⟨_, _, plan_opened inserted, stored, tables, reported⟩
  | callback now call => exact absurd done (callback_never booked)
  | createSetupLink now call =>
      obtain ⟨-, -, -, organization, membership, config, -, entitled, renamed, stored,
        setupSessions, renames, -, tables, reported⟩ := createSetupLink_ok.mp done
      obtain ⟨revised, found⟩ := setUp_revised entitled call.providerOrganizationId
      rw [renames] at tables
      refine .inr ⟨_, _, plan_of_config ?_ ?_ ?_ ?_ ?_, stored, tables, reported⟩
      · rfl
      · exact revised
      · exact found
      · rfl
      · rfl
  | disable now call =>
      obtain ⟨-, -, -, organization, membership, config, -, -, mem, owner, version, stored, tables,
        reported⟩ := disable_ok.mp done
      exact .inr ⟨_, _, plan_disabled now mem owner version, stored, tables, reported⟩
  | replaceEntitlement call =>
      obtain ⟨-, -, -, -, organization, config, -, stored, entitled, reported⟩ :=
        replaceEntitlement_ok.mp done
      exact .inr ⟨_, _, plan_entitled entitled, stored, rfl, reported⟩
  | receive now delivery => exact receive_plan done

theorem booked_next (booked : Booked db) (action : Action) : Booked (next server db action) := by
  unfold next
  split
  · rename_i db' done
    rcases run_plan booked done with rfl | ⟨tables, events, plan, commits⟩
    · exact booked
    · exact plan.booked booked commits
  · exact booked

/-- Whatever happens, in whatever order. -/
theorem booked_after (server : Server) (actions : List Action) :
    Booked (after (next server) .empty actions) := by
  have keeps : ∀ db action, Booked db → Booked (next server db action) :=
    fun _ action booked => booked_next booked action
  exact after_of_invariant keeps actions _ booked_empty

end SiliconIam.Sso
