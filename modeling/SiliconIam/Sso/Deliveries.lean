/-
# Sso.Deliveries -- what a delivered event comes to

A new connection event for a known organization (`Delivery.Due`) is applied when the
server's isolation level, the database's own tolerance and the owner of the named
connection let it through (`Delivery.Admissible`).  An activation takes the place of the
connection that was active; a deactivation or deletion leaves every connection but the
named one alone, yet takes the configuration out of force all the same.

`connections_agree` puts this together with the repetitions, the reports and the
agreement of the configuration over whole runs.
-/
import SiliconIam.Sso.Agreement

namespace SiliconIam.Sso

open SiliconIam.Theory
open SiliconIam.Theory.Fallible
open SiliconIam.Theory.Runs

set_option autoImplicit false

variable {server : Server} {now : Nat} {db db' : Database}

/-! ## New events -/

/-- A new event for a known organization; the id drawn for a connection is not in use. -/
structure Delivery.Due (delivery : Delivery) (db : Database) (transition : Transition)
    (data : ConnectionData) (config : Config) : Prop where
  verified : delivery.verified
  identified : providerIdValid delivery.id "event_" 512
  announces : delivery.Announces transition data
  fresh : db.receipts.get? delivery.id = none
  known : db.knownOrganization data.organizationId = some config
  unused : transition = .activated →
    ∀ connection ∈ db.connections, connection.id ≠ delivery.newConnectionId

structure Delivery.Admissible (server : Server) (now : Nat) (delivery : Delivery) (db : Database)
    (transition : Transition) (data : ConnectionData) (config : Config) : Prop where
  serializable : server.defaultIsolation = .serializable
  timely : timestampAccepted now delivery.issuedAt
  owned : transition = .activated → ∀ connection ∈ db.connections,
    connection.providerConnectionId = data.id → connection.organization = config.organization

/-- The event has its receipt, and the named connection is as it says. -/
structure Delivery.Applied (now : Nat) (delivery : Delivery) (transition : Transition)
    (data : ConnectionData) (config : Config) (db' : Database) : Prop where
  receipt : db'.receipts.get? delivery.id =
    some ((delivery.connectionEvent transition data).receipt .processed now)
  up : transition = .activated → ∃ connection ∈ db'.connections,
    connection.organization = config.organization ∧ connection.providerConnectionId = data.id ∧
      connection.status = .active
  down : transition ≠ .activated → ∀ connection ∈ db'.connections,
    connection.organization = config.organization → connection.providerConnectionId = data.id →
      connection.status ≠ .active

variable {delivery : Delivery} {transition : Transition} {data : ConnectionData} {config : Config}

theorem Delivery.Due.commits (booked : Booked db) (due : delivery.Due db transition data config)
    (admissible : delivery.Admissible server now db transition data config) :
    ∃ db', receive server now delivery db = .ok db' :=
  fresh_commits booked ⟨due.verified, due.identified, due.announces, admissible.timely, due.fresh,
    due.known, admissible.owned, due.unused⟩ admissible.serializable

/-- A new event that goes through is applied, as what it announces. -/
theorem Delivery.Due.applying (due : delivery.Due db transition data config)
    (done : receive server now delivery db = .ok db') :
    ∃ effect receipts,
      Applying now delivery db transition data config effect receipts ∧
        db'.toTables = { appliedTables (delivery.connectionEvent transition data)
          config.organization db.toTables effect receipts with outbox := db'.outbox } := by
  obtain ⟨-, -, received⟩ := receive_spec done
  cases received with
  | replay found same unchanged =>
      rw [due.fresh] at found
      cases found
  | ignored other fresh inserted stored =>
      rw [due.announces.named] at other
      cases other
  | applied applying tables reported =>
      obtain rfl := Option.some.inj (due.announces.named.symm.trans applying.announces.named)
      obtain rfl := Option.some.inj (due.announces.given.symm.trans applying.announces.given)
      obtain rfl := Option.some.inj (due.known.symm.trans applying.known)
      have written := (enqueueAll_spec reported).tables
      rw [tables] at written
      exact ⟨_, _, applying, written⟩

variable {receipts : Table Receipt.providerEventId}

theorem Applying.admissible {effect : Effect}
    (applying : Applying now delivery db transition data config effect receipts)
    (serializable : server.defaultIsolation = .serializable) :
    delivery.Admissible server now db transition data config where
  serializable := serializable
  timely := applying.accepted.2.2.2.2
  owned up connection mem named := by
    subst up
    by_contra foreign
    refine activate_refused mem named (fun other held same => ?_) foreign applying.ran
    exact db.valid.connections.providers other held connection mem (same.trans named.symm)

theorem Applying.applied {effect : Effect}
    (applying : Applying now delivery db transition data config effect receipts)
    (tables : db'.toTables = { appliedTables (delivery.connectionEvent transition data)
      config.organization db.toTables effect receipts with outbox := db'.outbox }) :
    delivery.Applied now transition data config db' where
  receipt := by
    rw [tables]
    show receipts.get? delivery.id = _
    rw [Table.get?_insert applying.inserted]
    exact if_pos rfl
  up up := by
    rw [tables]
    cases transitionEffect_spec applying.ran with
    | on _ ran => exact ran.named
    | off down _ => exact absurd up down
  down down connection mem owner named active := by
    rw [tables] at mem
    cases transitionEffect_spec applying.ran with
    | on up _ => exact down up
    | off _ ran =>
        exact ((ran.mem db.valid.connections.providers active).mp mem).2 ⟨owner, named⟩

theorem Delivery.Due.applied_iff (booked : Booked db)
    (due : delivery.Due db transition data config) :
    (∃ db', receive server now delivery db = .ok db' ∧
      delivery.Applied now transition data config db') ↔
        delivery.Admissible server now db transition data config := by
  constructor
  · rintro ⟨db', done, -⟩
    obtain ⟨effect, receipts, applying, -⟩ := due.applying done
    exact applying.admissible (receive_spec done).2.1
  · intro admissible
    obtain ⟨db', done⟩ := due.commits booked admissible
    obtain ⟨effect, receipts, applying, tables⟩ := due.applying done
    exact ⟨db', done, applying.applied tables⟩

/-! ## The other connections -/

/-- The next database, whether the event went through or not. -/
theorem next_receive (booked : Booked db) (due : delivery.Due db transition data config) :
    (delivery.Admissible server now db transition data config ∧ ∃ effect receipts,
      Applying now delivery db transition data config effect receipts ∧
        (next server db (.receive now delivery)).configs =
          settleConfig db.configs config.organization transition.configStatus ∧
        (next server db (.receive now delivery)).connections = effect.connections) ∨
    (¬ delivery.Admissible server now db transition data config ∧
      next server db (.receive now delivery) = db) := by
  unfold next
  cases done : (Action.receive now delivery).run server db with
  | ok db' =>
      obtain ⟨effect, receipts, applying, tables⟩ := due.applying done
      refine .inl ⟨applying.admissible (receive_spec done).2.1, effect, receipts, applying, ?_, ?_⟩
      · show db'.configs = _
        rw [tables]
        rfl
      · show db'.connections = _
        rw [tables]
        rfl
  | error refusal =>
      refine .inr ⟨fun admissible => ?_, rfl⟩
      obtain ⟨db', committed⟩ := due.commits booked admissible
      have clash := committed.symm.trans done
      cases clash

/-- An active connection that the event does not name stays, but for an activation in its
organization. -/
theorem kept_iff (booked : Booked db) (due : delivery.Due db transition data config)
    {connection : Connection} (mem : connection ∈ db.connections)
    (active : connection.status = .active) (unnamed : connection.providerConnectionId ≠ data.id) :
    connection ∈ (next server db (.receive now delivery)).connections ↔
      ¬ (transition = .activated ∧ connection.organization = config.organization ∧
        delivery.Admissible server now db transition data config) := by
  rcases next_receive booked due with ⟨admissible, effect, receipts, applying, -, connections⟩ |
    ⟨refused, same⟩
  · rw [connections]
    cases transitionEffect_spec applying.ran with
    | on up ran =>
        by_cases here : connection.organization = config.organization
        · refine iff_of_false (fun kept => ?_) (not_not.mpr ⟨up, here, admissible⟩)
          obtain ⟨other, held, owner, named, otherActive⟩ := ran.named
          obtain ⟨valid⟩ : Nonempty (ConnectionConstraints
              (next server db (.receive now delivery)).configs effect.connections) :=
            ⟨connections ▸ (next server db (.receive now delivery)).valid.connections⟩
          have same := valid.oneActive connection kept other held (here.trans owner.symm) active
            otherActive
          exact unnamed (same ▸ named)
        · exact iff_of_true ((ran.elsewhere here).mpr mem) fun all => here all.2.1
    | off down ran =>
        refine iff_of_true ?_ fun all => down all.1
        exact (ran.mem db.valid.connections.providers active).mpr
          ⟨mem, fun both => unnamed both.2⟩
  · rw [same]
    exact iff_of_true mem fun all => refused all.2.2

/-- A configuration in force stays in force, but for a dormant event in its organization. -/
theorem inForce_iff (booked : Booked db) (due : delivery.Due db transition data config)
    {row : Config} (mem : row ∈ db.configs) (active : row.status = .active) :
    (∃ row' ∈ (next server db (.receive now delivery)).configs,
      row'.organization = row.organization ∧ row'.status = .active) ↔
      ¬ (transition ≠ .activated ∧ row.organization = config.organization ∧
        delivery.Admissible server now db transition data config) := by
  rcases next_receive booked due with ⟨admissible, effect, receipts, -, configs, -⟩ |
    ⟨refused, same⟩
  · have enabled := (db.valid.configs.activeRequirements row mem active).1
    have settled : (if decide (row.organization = config.organization ∧
        (row.status ≠ row.statusAfter transition.configStatus ∨ row.lastErrorCode ≠ none)) then
          row.settle (row.statusAfter transition.configStatus) else row) ∈
        settleConfig db.configs config.organization transition.configStatus :=
      Table.mem_update_of_mem _ mem
    rw [configs]
    constructor
    · rintro ⟨row', held, owner, still⟩ ⟨down, here, -⟩
      obtain ⟨old, oldMem, sameOwner, -, -, status⟩ := mem_settleConfig held
      obtain rfl := Table.unique oldMem mem (sameOwner.symm.trans owner)
      rw [if_pos here, Config.statusAfter, if_pos enabled] at status
      rw [status] at still
      cases transition with
      | activated => exact down rfl
      | deactivated => cases still
      | deleted => cases still
    · intro allowed
      refine ⟨_, settled, ?_, ?_⟩
      · split <;> rfl
      · obtain ⟨old, oldMem, sameOwner, -, -, status⟩ := mem_settleConfig settled
        rw [status]
        have sameRow : old.organization = row.organization := by
          rw [← sameOwner]
          split <;> rfl
        obtain rfl := Table.unique oldMem mem sameRow
        split
        · rename_i here
          rw [Config.statusAfter, if_pos enabled]
          cases transition with
          | activated => rfl
          | deactivated => exact absurd ⟨(by simp), here, admissible⟩ allowed
          | deleted => exact absurd ⟨(by simp), here, admissible⟩ allowed
        · exact active
  · rw [same]
    exact iff_of_true ⟨row, mem, rfl, active⟩ fun all => refused all.2.2

/-! ## Events that go astray -/

/-- A new deactivation or deletion that is applied to an organization in whose entitlement
another connection is active. -/
def Action.Stray (server : Server) (db : Database) : Action → Prop
  | .receive now delivery => ∃ transition data config, delivery.Due db transition data config ∧
      delivery.Admissible server now db transition data config ∧ transition ≠ .activated ∧
      config.platformEnabled = true ∧
      ConnectedBesides db.connections config.organization data.id
  | _ => False

variable {action : Action}

theorem Moved.settled (moved : Moved db db' action)
    (provided : Provided db.configs db.connections) (settled : Settled db.configs db.connections)
    (straight : ∀ now delivery transition data config effect receipts,
      action = .receive now delivery →
      Applying now delivery db transition data config effect receipts →
      transition ≠ .activated → config.platformEnabled = true →
        ¬ ConnectedBesides db.connections config.organization data.id) :
    Settled db'.configs db'.connections := by
  cases moved with
  | still configs connections => rwa [configs, connections]
  | setUp configs connections =>
      rw [configs, connections]
      exact settled.setUp _ _
  | entitled entitled configs connections =>
      rw [configs, connections]
      exact settled.entitle provided entitled
  | disabled mem owner current configs connections =>
      rw [configs, connections]
      exact settled.disable mem owner current
  | @applied now delivery transition data config effect receipts received applying configs
      connections =>
      rw [configs, connections]
      refine settled.applied db.valid.connections.providers (transitionEffect_spec applying.ran) ?_
      intro down row held owner enabled
      obtain ⟨mem, -⟩ := Table.find?_spec applying.known
      obtain rfl := Table.unique held mem owner
      exact straight now delivery transition data row effect receipts received applying down enabled

/-- An applied event is due. -/
theorem Applying.due {effect : Effect}
    (applying : Applying now delivery db transition data config effect receipts)
    (done : receive server now delivery db = .ok db') (down : transition ≠ .activated) :
    delivery.Due db transition data config := by
  have identified : providerIdValid delivery.id "event_" 512 := by
    obtain ⟨_, -, done⟩ := bind_ok.mp done
    obtain ⟨_, identified, -⟩ := bind_ok.mp done
    exact require_ok.mp identified
  exact ⟨(receive_spec done).1, identified, applying.announces, applying.fresh, applying.known,
    fun up => absurd up down⟩

theorem straight_of_not_stray (done : action.run server db = .ok db')
    (straight : ¬ action.Stray server db) :
    ∀ now delivery transition data config effect receipts, action = .receive now delivery →
      Applying now delivery db transition data config effect receipts →
      transition ≠ .activated → config.platformEnabled = true →
        ¬ ConnectedBesides db.connections config.organization data.id := by
  rintro now delivery transition data config effect receipts rfl applying down enabled besides
  have serializable := (receive_spec done).2.1
  exact straight ⟨transition, data, config, applying.due done down,
    applying.admissible serializable, down, enabled, besides⟩

/-- Everything that holds along a run in which no event goes astray. -/
structure InOrder (s : Watched) : Prop where
  booked : Booked s.db
  grounded : Grounded s
  settled : Settled s.db.configs s.db.connections

theorem watch_db (server : Server) (s : Watched) (action : Action) :
    (watch server s action).db = next server s.db action := by
  unfold watch next
  cases action.run server s.db with
  | ok db' => rfl
  | error refusal => rfl

variable {s : Watched}

theorem booked_watch (booked : Booked s.db) (action : Action) :
    Booked (watch server s action).db := by
  rw [watch_db]
  exact booked_next booked action

theorem settled_watch (inOrder : InOrder s)
    (straight : ¬ action.Stray server s.db) :
    Settled (watch server s action).db.configs (watch server s action).db.connections := by
  rw [watch_db, next]
  cases done : action.run server s.db with
  | ok db' =>
      exact (run_moved inOrder.booked done).settled inOrder.grounded.provided inOrder.settled
        (straight_of_not_stray done straight)
  | error refusal => exact inOrder.settled

/-- A stray event leaves a configuration that is not active over an active connection. -/
theorem unsettled_of_stray (booked : Booked s.db)
    (stray : action.Stray server s.db) :
    ¬ Settled (watch server s action).db.configs (watch server s action).db.connections := by
  cases action with
  | receive now delivery =>
      obtain ⟨transition, data, config, due, admissible, down, enabled, besides⟩ := stray
      rw [watch_db]
      rcases next_receive booked due with ⟨-, effect, receipts, applying, configs, connections⟩ |
        ⟨refused, -⟩
      · intro settled
        rw [configs, connections] at settled
        obtain ⟨mem, -⟩ := Table.find?_spec applying.known
        have written := Table.mem_update_of_mem (p := fun row =>
          row.organization = config.organization ∧
            (row.status ≠ row.statusAfter transition.configStatus ∨ row.lastErrorCode ≠ none))
          (fun row => Config.settle_organization (row.statusAfter transition.configStatus) row) mem
        obtain ⟨old, held, owner, same, -, status⟩ := mem_settleConfig written
        have ownerSame : old.organization = config.organization := by
          rw [← owner]
          split <;> rfl
        obtain rfl := Table.unique held mem ownerSame
        have agrees := settled _ written
        rw [status, same, owner, if_pos rfl, Config.statusAfter, if_pos enabled] at agrees
        cases transitionEffect_spec applying.ran with
        | on up _ => exact down up
        | off _ ran =>
            have connected := (ran.connected s.db.valid.connections.providers old.organization).mpr
              (by rw [if_pos rfl]; exact besides)
            have active := agrees.mpr ⟨enabled, connected⟩
            cases transition with
            | activated => exact down rfl
            | deactivated => cases active
            | deleted => cases active
      · exact absurd admissible refused
  | environment directory => exact absurd stray id
  | authorize now call => exact absurd stray id
  | callback now call => exact absurd stray id
  | createSetupLink now call => exact absurd stray id
  | disable now call => exact absurd stray id
  | replaceEntitlement call => exact absurd stray id

theorem agrees_watch_iff (inOrder : InOrder s) (action : Action) :
    Agrees (watch server s action) ↔ ¬ action.Stray server s.db := by
  rw [agrees_iff_settled (grounded_watch inOrder.booked inOrder.grounded action)]
  constructor
  · exact fun settled stray => unsettled_of_stray inOrder.booked stray settled
  · exact settled_watch inOrder

theorem inOrder_watch (inOrder : InOrder s)
    (agrees : Agrees (watch server s action)) : InOrder (watch server s action) := by
  have grounded : Grounded (watch server s action) :=
    grounded_watch inOrder.booked inOrder.grounded action
  exact ⟨booked_watch inOrder.booked action, grounded, (agrees_iff_settled grounded).mp agrees⟩

theorem inOrder_start : InOrder .start where
  booked := booked_empty
  grounded := ⟨fun _ mem => absurd mem List.not_mem_nil, fun _ marked => by cases marked⟩
  settled _ mem := absurd mem List.not_mem_nil

/-! ## Reports -/

/-- A connection that the step changed is at its next version, and the outbox holds exactly
one report at that version. -/
def Chronicled (db db' : Database) : Prop :=
  ∀ id, db'.connections.get? id ≠ db.connections.get? id → ∃ row,
    db'.connections.get? id = some row ∧
      row.version = Versioned.next Connection.version (db.connections.get? id) ∧
      (reportsOn .ssoConnection db'.outbox.rows).count (id, row.version) = 1

theorem Plan.chronicled {tables : Tables} {events : List OutboxEvent}
    (plan : Plan db tables events) (booked : Booked db) (done : Commits tables events db') :
    Chronicled db db' := by
  intro id changed
  have connections : db'.connections = tables.connections := by rw [done.written]
  rw [connections] at changed ⊢
  have listed : id ∈ (reportsOn .ssoConnection events).map Prod.fst := by
    by_contra absent
    exact changed (plan.connections.same id absent)
  obtain ⟨row, found, counted⟩ := plan.connections.written id listed
  refine ⟨row, found, counted, ?_⟩
  have unreported : (id, row.version) ∉ reportsOn .ssoConnection db.outbox.rows :=
    plan.connections.fresh booked.connections listed found
  have reported : (id, row.version) ∈ reportsOn .ssoConnection events := by
    obtain ⟨⟨_, version⟩, entry, rfl⟩ := List.mem_map.mp listed
    obtain ⟨current, held, same⟩ := plan.connectionVersions _ entry
    obtain rfl := Option.some.inj (held.symm.trans found)
    exact same ▸ entry
  have distinct : (reportsOn .ssoConnection events).Nodup :=
    List.Nodup.of_map Prod.fst plan.connections.distinct
  have outbox : db'.outbox.rows = events.reverse ++ db.outbox.rows := by
    rw [done.outbox, plan.outbox]
  have reversed : (reportsOn .ssoConnection events.reverse).Perm
      (reportsOn .ssoConnection events) :=
    (events.reverse_perm.filter _).map _
  rw [outbox, reportsOn_append, List.count_append, reversed.count_eq,
    List.count_eq_one_of_mem distinct reported, List.count_eq_zero.mpr unreported]

theorem chronicled_next (booked : Booked db) (action : Action) :
    Chronicled db (next server db action) := by
  unfold next
  split
  · rename_i db' done
    rcases run_plan booked done with rfl | ⟨tables, events, plan, commits⟩
    · exact fun id changed => absurd rfl changed
    · exact plan.chronicled booked commits
  · exact fun id changed => absurd rfl changed

/-! ## Receipts -/

/-- A delivery whose id has a receipt changes nothing; with other content it is refused. -/
theorem receive_again {receipt : Receipt} (found : db.receipts.get? delivery.id = some receipt) :
    next server db (.receive now delivery) = db ∧
      (receipt.payloadDigest ≠ delivery.payloadDigest →
        ∀ db', receive server now delivery db ≠ .ok db') := by
  have replayed : ∀ db', receive server now delivery db = .ok db' →
      db' = db ∧ receipt.payloadDigest = delivery.payloadDigest := by
    intro db' done
    obtain ⟨-, -, received⟩ := receive_spec done
    cases received with
    | replay old same unchanged =>
        obtain rfl := Option.some.inj (old.symm.trans found)
        exact ⟨unchanged, same⟩
    | ignored other fresh inserted stored =>
        rw [fresh] at found
        cases found
    | applied applying tables reported =>
        rw [applying.fresh] at found
        cases found
  constructor
  · unfold next
    cases done : (Action.receive now delivery).run server db with
    | ok db' => exact (replayed db' done).1
    | error refusal => rfl
  · exact fun differs db' done => differs (replayed db' done).2

/-- The event that a step applies. -/
def Action.applied (server : Server) (db : Database) : Action → List String
  | .receive now delivery =>
      match Sso.receive server now delivery db with
      | .ok _ =>
          if db.receipts.get? delivery.id = none ∧ transitionOf delivery.event ≠ none then
            [delivery.id] else []
      | .error _ => []
  | _ => []

/-- Receipts stay. -/
theorem run_receipts (booked : Booked db) (done : action.run server db = .ok db')
    {id : String} (held : db.receipts.get? id ≠ none) : db'.receipts.get? id ≠ none := by
  have inserted {receipt : Receipt} {receipts : Table Receipt.providerEventId}
      (into : db.receipts.insert receipt = some receipts) : receipts.get? id ≠ none := by
    rw [Table.get?_insert into]
    split
    · exact Option.some_ne_none _
    · exact held
  cases action with
  | environment directory =>
      obtain rfl := Except.ok.inj done
      exact held
  | authorize now call =>
      obtain ⟨organization, config, connection, authorizations, stored, -, -, tables,
        reported⟩ := authorize_ok.mp done
      rw [(enqueueAll_spec reported).tables, tables]
      exact held
  | callback now call => exact absurd done (callback_never booked)
  | createSetupLink now call =>
      obtain ⟨-, -, -, organization, membership, config, -, -, renamed, stored, setupSessions,
        renames, -, tables, reported⟩ := createSetupLink_ok.mp done
      rw [(enqueueAll_spec reported).tables, tables, renames]
      exact held
  | disable now call =>
      obtain ⟨-, -, -, organization, membership, config, -, -, -, -, -, stored, tables,
        reported⟩ := disable_ok.mp done
      rw [(enqueueAll_spec reported).tables, tables]
      exact held
  | replaceEntitlement call =>
      obtain ⟨-, -, -, -, organization, config, -, stored, entitled, reported⟩ :=
        replaceEntitlement_ok.mp done
      have kept : stored.receipts = db.receipts := by
        cases tables : stored.toTables
        rw [tables] at entitled
        cases entitled with
        | created => rfl
        | replaced => rfl
      rw [(enqueueAll_spec reported).tables]
      show stored.receipts.get? id ≠ none
      rw [kept]
      exact held
  | receive now delivery =>
      obtain ⟨-, -, received⟩ := receive_spec done
      cases received with
      | replay found same unchanged => exact unchanged ▸ held
      | ignored other fresh into stored =>
          rw [stored]
          exact inserted into
      | applied applying tables reported =>
          rw [(enqueueAll_spec reported).tables, tables]
          exact inserted applying.inserted

theorem receipts_watch (booked : Booked s.db) {id : String}
    (held : s.db.receipts.get? id ≠ none) : (watch server s action).db.receipts.get? id ≠ none := by
  rw [watch_db, next]
  cases done : action.run server s.db with
  | ok db' => exact run_receipts booked done held
  | error refusal => exact held

theorem applied_spec {id : String} (listed : id ∈ action.applied server db) :
    db.receipts.get? id = none ∧ ∃ now delivery db', action = .receive now delivery ∧
      delivery.id = id ∧ transitionOf delivery.event ≠ none ∧
      receive server now delivery db = .ok db' := by
  cases action with
  | receive now delivery =>
      simp only [Action.applied] at listed
      split at listed
      · rename_i db' done
        split at listed
        · rename_i new
          obtain rfl := List.mem_singleton.mp listed
          exact ⟨new.1, now, delivery, db', rfl, rfl, new.2, done⟩
        · cases listed
      · cases listed
  | environment directory => cases listed
  | authorize now call => cases listed
  | callback now call => cases listed
  | createSetupLink now call => cases listed
  | disable now call => cases listed
  | replaceEntitlement call => cases listed

theorem applied_nodup (server : Server) (db : Database) (action : Action) :
    (action.applied server db).Nodup := by
  unfold Action.applied
  split
  · split
    · split <;> simp
    · exact List.nodup_nil
  · exact List.nodup_nil

theorem applied_received {id : String}
    (listed : id ∈ action.applied server s.db) :
    (watch server s action).db.receipts.get? id ≠ none := by
  obtain ⟨fresh, now, delivery, db', rfl, rfl, announced, done⟩ := applied_spec listed
  have stepped : (watch server s (.receive now delivery)).db = db' := by
    rw [watch_db, next]
    show (match receive server now delivery s.db with
      | .ok db' => db'
      | .error _ => s.db) = db'
    rw [done]
  rw [stepped]
  obtain ⟨-, -, received⟩ := receive_spec done
  cases received with
  | replay found same unchanged =>
      rw [fresh] at found
      cases found
  | ignored other fresh inserted stored => exact absurd other announced
  | @applied transition data config effect receipts stored applying tables reported =>
      rw [(enqueueAll_spec reported).tables, tables]
      show receipts.get? delivery.id ≠ none
      rw [Table.get?_insert applying.inserted]
      exact ne_of_eq_of_ne (if_pos rfl) (Option.some_ne_none _)

/-- No event is applied twice. -/
theorem applied_once (server : Server) (actions : List Action) (id : String) :
    (given (watch server) (fun s action => action.applied server s.db) .start actions).count id ≤
      1 := by
  have stays : ∀ s action, (Booked s.db ∧ s.db.receipts.get? id ≠ none) →
      Booked (watch server s action).db ∧ (watch server s action).db.receipts.get? id ≠ none :=
    fun s action barred => ⟨booked_watch barred.1 action, receipts_watch barred.1 barred.2⟩
  have keeps : ∀ s action, Booked s.db → Booked (watch server s action).db :=
    fun s action booked => booked_watch booked action
  refine count_given_le_one keeps stays ?_ ?_ ?_ actions _ booked_empty
  · exact fun s action barred listed => barred.2 (applied_spec listed).1
  · exact fun s action => applied_nodup server s.db action
  · exact fun s action booked listed => ⟨booked_watch booked action, applied_received listed⟩

/-! ## The whole -/

/-- What a step does, whatever went before. -/
structure Conforms (server : Server) (s : Watched) (action : Action) : Prop where
  applied : ∀ now delivery, action = .receive now delivery → ∀ transition data config,
    delivery.Due s.db transition data config →
    ((∃ db', action.run server s.db = .ok db' ∧
        delivery.Applied now transition data config db') ↔
      delivery.Admissible server now s.db transition data config)
  kept : ∀ now delivery, action = .receive now delivery → ∀ transition data config,
    delivery.Due s.db transition data config → ∀ connection ∈ s.db.connections,
    connection.status = .active → connection.providerConnectionId ≠ data.id →
    (connection ∈ (watch server s action).db.connections ↔
      ¬ (transition = .activated ∧ connection.organization = config.organization ∧
        delivery.Admissible server now s.db transition data config))
  inForce : ∀ now delivery, action = .receive now delivery → ∀ transition data config,
    delivery.Due s.db transition data config → ∀ row ∈ s.db.configs, row.status = .active →
    ((∃ row' ∈ (watch server s action).db.configs,
        row'.organization = row.organization ∧ row'.status = .active) ↔
      ¬ (transition ≠ .activated ∧ row.organization = config.organization ∧
        delivery.Admissible server now s.db transition data config))
  repeated : ∀ now delivery, action = .receive now delivery → ∀ receipt,
    s.db.receipts.get? delivery.id = some receipt → (watch server s action).db = s.db ∧
      (receipt.payloadDigest ≠ delivery.payloadDigest →
        ∀ db', action.run server s.db ≠ .ok db')
  chronicled : Chronicled s.db (watch server s action).db

theorem conforms (server : Server) (booked : Booked s.db) (action : Action) :
    Conforms server s action where
  applied := by
    rintro now delivery rfl transition data config due
    exact due.applied_iff booked
  kept := by
    rintro now delivery rfl transition data config due connection mem active unnamed
    rw [watch_db]
    exact kept_iff booked due mem active unnamed
  inForce := by
    rintro now delivery rfl transition data config due row mem active
    rw [watch_db]
    exact inForce_iff booked due mem active
  repeated := by
    rintro now delivery rfl receipt found
    rw [watch_db]
    exact receive_again found
  chronicled := by
    rw [watch_db]
    exact chronicled_next booked action

/-- In every run the configuration agrees with the connections after every step exactly if no
step is a stray deactivation or deletion; and every step of every run applies, keeps, repeats
and reports as `Conforms` says. -/
theorem connections_agree (server : Server) (actions : List Action) :
    (AllSteps (watch server) (fun s action => Agrees (watch server s action)) .start actions ↔
      AllSteps (watch server) (fun s action => ¬ action.Stray server s.db) .start actions) ∧
    AllSteps (watch server) (Conforms server) .start actions ∧
    ∀ id, (given (watch server) (fun s action => action.applied server s.db) .start
      actions).count id ≤ 1 := by
  refine ⟨?_, ?_, applied_once server actions⟩
  · have agree : ∀ s action, InOrder s →
        (Agrees (watch server s action) ↔ ¬ action.Stray server s.db) :=
      fun s action inOrder => agrees_watch_iff inOrder action
    have keeps : ∀ s action, InOrder s → Agrees (watch server s action) →
        InOrder (watch server s action) := fun s action inOrder agrees =>
      inOrder_watch inOrder agrees
    exact allSteps_iff agree keeps actions _ inOrder_start
  · have keeps : ∀ s action, Booked s.db → Booked (watch server s action).db :=
      fun s action booked => booked_watch booked action
    exact allSteps_of_invariant keeps (fun s action booked => conforms server booked action)
      actions _ booked_empty

/-! ## A deactivation of another connection -/

/-- The organization is entitled, set up and connected. -/
def connectedRun : List Action :=
  [.environment (exampleDirectory .invite), .replaceEntitlement exampleEntitlement,
    .createSetupLink 10 ⟨⟨2, "acme", true, true⟩, "org_1", 6, 300010⟩, .receive 20 exampleActivation]

/-- The provider deactivates a connection that was never the active one. -/
def strayDeactivation : Delivery :=
  ⟨true, 30, 30, "event_2", "connection.deactivated",
    some ⟨"connection", "conn_2", "org_1", none, some "inactive"⟩, 78, 8⟩

/-- Signed ninety seconds ahead of the database, which the handler's tolerance admits. -/
def earlyDeactivation : Delivery :=
  { strayDeactivation with id := "event_3", issuedAt := 90030 }

instance (connections : Table Connection.id) (organization : Nat) :
    Decidable (Connected connections organization) :=
  inferInstanceAs (Decidable (∃ connection ∈ connections, _))

instance (s : Watched) : Decidable (Agrees s) :=
  inferInstanceAs (Decidable (∀ config ∈ s.db.configs, _))

/-- The configuration goes out of force though its connection stays active; and an event that
the handler takes for timely is refused by the database. -/
theorem stray_deactivation_disagrees :
    Agrees (after (watch (.postgres .serializable)) .start connectedRun) ∧
    ¬ Agrees (after (watch (.postgres .serializable)) .start
      (connectedRun ++ [.receive 30 strayDeactivation])) ∧
    (∃ connection ∈ (after (watch (.postgres .serializable)) .start
      (connectedRun ++ [.receive 30 strayDeactivation])).db.connections,
      connection.providerConnectionId = "conn_1" ∧ connection.status = .active) ∧
    earlyDeactivation.verified ∧
    ((Action.receive 30 earlyDeactivation).run (.postgres .serializable)
      (after (watch (.postgres .serializable)) .start connectedRun).db).toOption.isSome = false := by
  refine ⟨?_, ?_, ?_, ?_, ?_⟩ <;> decide +kernel

end SiliconIam.Sso
