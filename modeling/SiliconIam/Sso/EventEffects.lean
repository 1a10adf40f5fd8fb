/-
# Sso.EventEffects -- what a connection event did

An event writes the connections `Effect.changed`, each once: the connection it names, if
there is something to change, and the ones an activation switches off.  `receive` reports
exactly these, at the versions they reached (`record_effect`).
-/
import SiliconIam.Sso.Effects

namespace SiliconIam.Sso

open SiliconIam.Theory
open SiliconIam.Theory.Fallible
open SiliconIam.Theory.Versioned

set_option autoImplicit false

variable {server : Server} {now organization : Nat} {db db' : Database} {tables : Tables}
  {event : ConnectionEvent} {effect : Effect}

variable {connection : Connection}

theorem mem_inOrder {connections : List Connection} :
    connection ∈ inOrder connections ↔ connection ∈ connections :=
  (List.perm_insertionSort _ connections).mem_iff

theorem inOrder_ids_perm (connections : List Connection) :
    ((inOrder connections).map Connection.id).Perm (connections.map Connection.id) :=
  (List.perm_insertionSort _ connections).map Connection.id

/-- The named connection, where the event changed it. -/
def Effect.targets (effect : Effect) : List Nat :=
  if effect.targetChanged then effect.target.toList else []

def Effect.changed (effect : Effect) : List Nat := effect.targets ++ effect.displaced

/-! ## Activation -/

inductive Activation (now organization : Nat) (event : ConnectionEvent) (tables : Tables) :
    Effect → Prop
  | existing {target : Connection}
      (mem : target ∈ displacedConnections now organization event.providerConnectionId
        tables.connections)
      (named : target.providerConnectionId = event.providerConnectionId)
      (owner : target.organization = organization) :
      Activation now organization event tables
        ⟨activateTarget now event.connectionType target.id
          (displacedConnections now organization event.providerConnectionId tables.connections),
          some target.id, target.activationChanges event.connectionType,
          displacedIds organization event.providerConnectionId tables.connections⟩
  | created {connections : Table Connection.id}
      (absent : ∀ row ∈ tables.connections, row.providerConnectionId ≠ event.providerConnectionId)
      (inserted : (displacedConnections now organization event.providerConnectionId
        tables.connections).insert (newConnection now organization event) = some connections) :
      Activation now organization event tables
        ⟨connections, some event.newConnectionId, true,
          displacedIds organization event.providerConnectionId tables.connections⟩

variable {connections : Table Connection.id}

theorem mem_displacedConnections {provider : String} :
    connection ∈ displacedConnections now organization provider connections ↔
      ∃ old ∈ connections, connection =
        if old.displacedBy organization provider then old.displace now else old :=
  Table.mem_update

/-- The displaced connections keep who they are. -/
theorem of_mem_displaced {now organization : Nat} {provider : String}
    (mem : connection ∈ displacedConnections now organization provider connections) :
    ∃ old ∈ connections, old.id = connection.id ∧ old.organization = connection.organization ∧
      old.providerConnectionId = connection.providerConnectionId := by
  obtain ⟨old, held, rfl⟩ := mem_displacedConnections.mp mem
  refine ⟨old, held, ?_⟩
  split
  · exact ⟨rfl, rfl, rfl⟩
  · exact ⟨rfl, rfl, rfl⟩

theorem displaced_of_mem (now organization : Nat) (provider : String) {old : Connection} (mem : old ∈ connections) :
    ∃ row ∈ displacedConnections now organization provider connections,
      old.id = row.id ∧ old.organization = row.organization ∧
        old.providerConnectionId = row.providerConnectionId := by
  refine ⟨_, mem_displacedConnections.mpr ⟨old, mem, rfl⟩, ?_⟩
  split
  · exact ⟨rfl, rfl, rfl⟩
  · exact ⟨rfl, rfl, rfl⟩

theorem activate_spec (done : activate now event organization tables = .ok effect) :
    Activation now organization event tables effect := by
  unfold activate at done
  split at done
  · rename_i target found
    obtain ⟨mem, named⟩ := Table.find?_spec found
    obtain ⟨owner, done⟩ := unless_ok.mp done
    obtain rfl := Except.ok.inj done
    exact .existing mem (of_decide_eq_true named) (not_not.mp owner)
  · rename_i absent
    obtain ⟨connections, inserted, done⟩ := bind_ok.mp done
    obtain rfl := return_ok.mp done
    refine .created (fun old mem same => ?_) (orElse_ok.mp inserted)
    obtain ⟨row, held, -, -, kept⟩ :=
      displaced_of_mem now organization event.providerConnectionId mem
    exact List.find?_eq_none.mp absent row held (decide_eq_true (kept.symm.trans same))

/-- An activation is refused only for a connection of another organization. -/
theorem activate_succeeds
    (owner : ∀ row ∈ tables.connections, row.providerConnectionId = event.providerConnectionId →
      row.organization = organization)
    (unused : ∀ row ∈ tables.connections, row.id ≠ event.newConnectionId) :
    ∃ effect, activate now event organization tables = .ok effect := by
  unfold activate
  split
  · rename_i target found
    obtain ⟨mem, named⟩ := Table.find?_spec found
    obtain ⟨old, held, -, sameOwner, sameName⟩ := of_mem_displaced mem
    have owned := owner old held (sameName.trans (of_decide_eq_true named))
    rw [if_neg (not_not.mpr (sameOwner.symm.trans owned))]
    exact ⟨_, rfl⟩
  · have free : ∀ row ∈ displacedConnections now organization event.providerConnectionId
        tables.connections, row.id ≠ (newConnection now organization event).id := by
      intro row mem same
      obtain ⟨old, held, sameId, -⟩ := of_mem_displaced mem
      exact unused old held (sameId.trans same)
    obtain ⟨connections, inserted⟩ := Table.insert_of_free free
    exact ⟨_, bind_ok.mpr ⟨connections, orElse_ok.mpr inserted, rfl⟩⟩

theorem activate_refused {row : Connection} (mem : row ∈ tables.connections)
    (named : row.providerConnectionId = event.providerConnectionId)
    (only : ∀ other ∈ tables.connections,
      other.providerConnectionId = event.providerConnectionId → other = row)
    (foreign : row.organization ≠ organization) :
    activate now event organization tables ≠ .ok effect := by
  intro done
  cases activate_spec done with
  | existing held same owner =>
      obtain ⟨old, oldMem, -, sameOwner, sameName⟩ := of_mem_displaced held
      obtain rfl := only old oldMem (sameName.trans same)
      exact foreign (sameOwner.trans owner)
  | created absent _ => exact absent row mem named

theorem displaced_revised (now organization : Nat) (provider : String) (connections : Table Connection.id) :
    Revised Connection.version connections
      (displacedConnections now organization provider connections)
      (displacedIds organization provider connections) :=
  (Revised.update connections _ _ (Connection.displace_id now) fun _ => rfl).perm (inOrder_ids_perm _).symm

theorem not_displaced {provider : String}
    {row : Connection} (mem : row ∈ displacedConnections now organization provider connections)
    (named : row.providerConnectionId = provider) :
    row.id ∉ displacedIds organization provider connections := by
  intro listed
  obtain ⟨gone, goneMem, same⟩ := List.mem_map.mp listed
  obtain ⟨held, displaced⟩ := List.mem_filter.mp (mem_inOrder.mp goneMem)
  obtain ⟨old, oldMem, sameId, -, sameName⟩ := of_mem_displaced mem
  obtain rfl := Table.unique held oldMem (same.trans sameId.symm)
  exact (of_decide_eq_true displaced).2.1 (sameName.trans named)

/-- The target is written where its event changes it. -/
theorem updateTarget_revised {target : Connection} (mem : target ∈ connections)
    (changes : Connection → Bool) {write : Connection → Connection}
    (keeps : ∀ row, (write row).id = row.id) (steps : ∀ row, (write row).version = row.version + 1) :
    Revised Connection.version connections
      (connections.update (fun row => row.id = target.id ∧ changes row = true) write keeps)
      (if changes target then [target.id] else []) := by
  have revised : Revised Connection.version connections _ _ := Revised.updateOne
    (fun row => row.id = target.id ∧ changes row = true) write keeps steps mem
    fun other _ holds => (of_decide_eq_true holds).1
  have picked : decide (target.id = target.id ∧ changes target = true) = changes target := by simp
  rw [picked] at revised
  exact revised

theorem activateTarget_revised {target : Connection}
    (mem : target ∈ connections) (now : Nat) (connectionType : Option String) :
    Revised Connection.version connections
      (activateTarget now connectionType target.id connections)
      (if target.activationChanges connectionType then [target.id] else []) :=
  updateTarget_revised mem (·.activationChanges connectionType)
    (Connection.activate_id now connectionType) fun _ => rfl

theorem deactivateTarget_revised {target : Connection}
    (mem : target ∈ connections) (now : Nat) (transition : Transition) (connectionType : Option String) :
    Revised Connection.version connections
      (deactivateTarget now transition connectionType target.id connections)
      (if target.deactivationChanges transition connectionType then [target.id] else []) :=
  updateTarget_revised mem (·.deactivationChanges transition connectionType)
    (Connection.deactivate_id now connectionType) fun _ => rfl

theorem Activation.revised (ran : Activation now organization event tables effect) :
    Revised Connection.version tables.connections effect.connections effect.changed := by
  have first := displaced_revised now organization event.providerConnectionId tables.connections
  cases ran with
  | @existing target mem named owner =>
      have second := activateTarget_revised mem now event.connectionType
      refine ((first.trans second ?_).perm List.perm_append_comm).perm (.of_eq ?_)
      · intro id listed changed
        split at changed
        · obtain rfl := List.mem_singleton.mp changed
          exact not_displaced mem named listed
        · cases changed
      · simp [Effect.changed, Effect.targets]
  | @created connections absent inserted =>
      have second : Revised Connection.version _ connections _ := Revised.insert inserted rfl
      refine (first.trans second ?_).perm List.perm_append_comm
      intro id listed target
      obtain rfl := List.mem_singleton.mp target
      obtain ⟨gone, goneMem, same⟩ := List.mem_map.mp listed
      obtain ⟨held, -⟩ := List.mem_filter.mp (mem_inOrder.mp goneMem)
      obtain ⟨row, rowMem, sameId, -⟩ :=
        displaced_of_mem now organization event.providerConnectionId held
      exact (Table.insert_spec inserted).1 row rowMem (sameId.symm.trans same)

/-! ## Deactivation and deletion -/

inductive Deactivation (now organization : Nat) (event : ConnectionEvent) (tables : Tables) :
    Effect → Prop
  | existing {target : Connection} (mem : target ∈ tables.connections)
      (named : target.providerConnectionId = event.providerConnectionId)
      (owner : target.organization = organization) :
      Deactivation now organization event tables
        ⟨deactivateTarget now event.transition event.connectionType target.id tables.connections,
          some target.id, target.deactivationChanges event.transition event.connectionType, []⟩
  | unknown
      (absent : ∀ row ∈ tables.connections, row.organization = organization →
        row.providerConnectionId ≠ event.providerConnectionId) :
      Deactivation now organization event tables ⟨tables.connections, none, false, []⟩

theorem deactivate_spec :
    Deactivation now organization event tables (deactivate now event organization tables) := by
  unfold deactivate
  split
  · rename_i target found
    obtain ⟨mem, holds⟩ := Table.find?_spec found
    obtain ⟨owner, named⟩ := of_decide_eq_true holds
    exact .existing mem named owner
  · rename_i absent
    exact .unknown fun row mem owner named =>
      List.find?_eq_none.mp absent row mem (decide_eq_true ⟨owner, named⟩)

theorem Deactivation.revised (ran : Deactivation now organization event tables effect) :
    Revised Connection.version tables.connections effect.connections effect.changed := by
  cases ran with
  | existing mem named owner =>
      refine (deactivateTarget_revised mem now event.transition event.connectionType).perm
        (.of_eq ?_)
      simp [Effect.changed, Effect.targets]
  | unknown absent => exact .refl _

/-- Either branch. -/
inductive Transitioned (now organization : Nat) (event : ConnectionEvent) (tables : Tables)
    (effect : Effect) : Prop
  | on (up : event.transition = .activated) (ran : Activation now organization event tables effect)
  | off (down : event.transition ≠ .activated)
      (ran : Deactivation now organization event tables effect)

theorem transitionEffect_spec
    (done : transitionEffect now event organization tables = .ok effect) :
    Transitioned now organization event tables effect := by
  unfold transitionEffect at done
  split at done
  · rename_i up
    exact .on up (activate_spec done)
  all_goals
    rename_i down
    obtain rfl := Except.ok.inj done
    exact .off (by simp [down]) deactivate_spec

theorem Transitioned.revised (ran : Transitioned now organization event tables effect) :
    Revised Connection.version tables.connections effect.connections effect.changed := by
  cases ran with
  | on up ran => exact ran.revised
  | off down ran => exact ran.revised

/-- The target that changed is there, and only an activation switches others off. -/
theorem Transitioned.shape (ran : Transitioned now organization event tables effect) :
    (effect.targetChanged = true → effect.target ≠ none) ∧
      (event.transition ≠ .activated → effect.displaced = []) := by
  cases ran with
  | on up ran => cases ran <;> exact ⟨fun _ => Option.some_ne_none _, fun down => absurd up down⟩
  | off down ran =>
      cases ran with
      | existing => exact ⟨fun _ => Option.some_ne_none _, fun _ => rfl⟩
      | unknown => exact ⟨fun changed => Bool.noConfusion changed, fun _ => rfl⟩

/-! ## Reports -/

def versionOf (connections : Table Connection.id) (id : Nat) : Nat :=
  ((connections.get? id).map Connection.version).getD 0

theorem versionOf_eq {connections : Table Connection.id} {id : Nat}
    (found : connections.get? id = some connection) :
    versionOf connections id = connection.version := by
  rw [versionOf, found]
  rfl

/-- The reports of an event: the target's transition and one deactivation for each
connection that was switched off. -/
def Effect.events (effect : Effect) (transition : Transition) : List OutboxEvent :=
  (effect.targets.map fun id =>
    connectionEvent id (versionOf effect.connections id) transition.eventType) ++
  effect.displaced.map fun id =>
    connectionEvent id (versionOf effect.connections id) Transition.deactivated.eventType

/-- Rows that report one by one, reported together. -/
theorem recordRows_eq {incoming : Transition} {ids : List Nat} (row : Nat → TransitionRow)
    (report : Nat → OutboxEvent)
    (each : ∀ id ∈ ids, transitionEvent incoming (row id) = .ok (report id)) (db : Database) :
    (ids.map row).foldlM (fun db row => do enqueueOutbox db (← transitionEvent incoming row)) db =
      enqueueAll db (ids.map report) := by
  induction ids generalizing db with
  | nil => rfl
  | cons id rest ih =>
      rw [List.map_cons, List.map_cons, List.foldlM_cons, enqueueAll_cons,
        each id List.mem_cons_self]
      show (enqueueOutbox db (report id)).bind _ = (enqueueOutbox db (report id)).bind _
      congr 1
      funext next
      exact ih (fun later listed => each later (List.mem_cons_of_mem _ listed)) next

theorem enqueueAll_append (first second : List OutboxEvent) (db : Database) :
    enqueueAll db (first ++ second) = (enqueueAll db first).bind (enqueueAll · second) :=
  List.foldlM_append

/-- The answer row of the target. -/
def Effect.targetRow (effect : Effect) (organization : Nat) (transition : Transition)
    (changed : Bool) (target : Option Nat) : TransitionRow :=
  ⟨organization, target,
    target.bind fun id => (effect.connections.get? id).map Connection.version, changed,
    transition.connectionStatus⟩

def Effect.displacedRow (effect : Effect) (organization id : Nat) : TransitionRow :=
  ⟨organization, some id, (effect.connections.get? id).map Connection.version, true, .disabled⟩

theorem Effect.rows_eq (effect : Effect) (organization : Nat) (transition : Transition) :
    effect.rows organization transition =
      if effect.targetChanged = true ∨ effect.displaced = [] then
        effect.targetRow organization transition effect.targetChanged effect.target ::
          effect.displaced.map (effect.displacedRow organization)
      else effect.displaced.map (effect.displacedRow organization) := rfl

/-- The rows that are marked as changed: the changed target and those switched off. -/
theorem Effect.changedRows (effect : Effect) (organization : Nat) (transition : Transition)
    (targeted : effect.targetChanged = true → effect.target ≠ none) :
    (effect.rows organization transition).filter (·.changed) =
      (effect.targets.map fun id =>
        effect.targetRow organization transition true (some id)) ++
      effect.displaced.map (effect.displacedRow organization) := by
  have kept : (effect.displaced.map (effect.displacedRow organization)).filter (·.changed) =
      effect.displaced.map (effect.displacedRow organization) := by
    refine List.filter_eq_self.mpr fun row listed => ?_
    obtain ⟨id, -, rfl⟩ := List.mem_map.mp listed
    rfl
  rw [Effect.rows_eq, Effect.targets]
  cases changed : effect.targetChanged with
  | true =>
      cases target : effect.target with
      | none => exact absurd target (targeted changed)
      | some id =>
          rw [if_pos (.inl rfl), List.filter_cons_of_pos rfl, kept]
          rfl
  | false =>
      split
      · rw [List.filter_cons_of_neg (by simp [Effect.targetRow]), kept]
        rfl
      · rw [kept]
        rfl

theorem rows_ne_nil (effect : Effect) (organization : Nat) (transition : Transition) :
    effect.rows organization transition ≠ [] := by
  rw [Effect.rows_eq]
  split
  · exact List.cons_ne_nil _ _
  · rename_i none
    exact fun empty => none (.inr (List.map_eq_nil_iff.mp empty))

theorem emittedTransition_target (transition : Transition) :
    emittedTransition transition transition.connectionStatus = .ok transition := by
  cases transition <;> rfl

/-- What `receive` reports of an effect. -/
theorem record_effect (ran : Transitioned now organization event tables effect) (db : Database) :
    recordConnectionTransitions event.transition (effect.rows organization event.transition) db =
      enqueueAll db (effect.events event.transition) := by
  have written := ran.revised.written
  unfold recordConnectionTransitions Effect.events
  rw [Effect.changedRows effect organization event.transition ran.shape.1, List.foldlM_append,
    enqueueAll_append]
  have targets : ∀ id ∈ effect.targets, transitionEvent event.transition
      (effect.targetRow organization event.transition true (some id)) =
        .ok (connectionEvent id (versionOf effect.connections id) event.transition.eventType) := by
    intro id listed
    obtain ⟨connection, found, -⟩ := written id (List.mem_append_left _ listed)
    rw [versionOf_eq found]
    simp only [transitionEvent, Effect.targetRow, emittedTransition_target, Option.bind_some,
      found, Option.map_some]
    rfl
  have displaced : ∀ id ∈ effect.displaced, transitionEvent event.transition
      (effect.displacedRow organization id) = .ok (connectionEvent id
        (versionOf effect.connections id) Transition.deactivated.eventType) := by
    intro id listed
    obtain ⟨connection, found, -⟩ := written id (List.mem_append_right _ listed)
    have up : event.transition = .activated := by
      by_contra down
      rw [ran.shape.2 down] at listed
      cases listed
    rw [versionOf_eq found]
    simp only [transitionEvent, Effect.displacedRow, up, found, Option.map_some]
    rfl
  rw [recordRows_eq _ _ targets]
  show (enqueueAll db _).bind _ = (enqueueAll db _).bind _
  congr 1
  funext next
  exact recordRows_eq _ _ displaced next

/-! ## Deliveries -/

/-- The delivery names a transition, in the shape of a connection event. -/
structure Delivery.Announces (delivery : Delivery) (transition : Transition)
    (data : ConnectionData) : Prop where
  named : transitionOf delivery.event = some transition
  given : delivery.data = some data
  shape : validateConnectionData data transition = .ok ()

/-- The tables after an event was applied. -/
def appliedTables (event : ConnectionEvent) (organization : Nat) (tables : Tables)
    (effect : Effect) (receipts : Table Receipt.providerEventId) : Tables :=
  { tables with
    connections := effect.connections
    configs := settleConfig tables.configs organization event.transition.configStatus
    receipts }

/-- A fresh event that goes through to its organization. -/
structure Applying (now : Nat) (delivery : Delivery) (db : Database) (transition : Transition)
    (data : ConnectionData) (config : Config) (effect : Effect)
    (receipts : Table Receipt.providerEventId) : Prop where
  announces : delivery.Announces transition data
  accepted : (delivery.connectionEvent transition data).accepted now
  fresh : db.receipts.get? delivery.id = none
  known : db.knownOrganization data.organizationId = some config
  ran : transitionEffect now (delivery.connectionEvent transition data) config.organization
    db.toTables = .ok effect
  inserted : db.receipts.insert
    ((delivery.connectionEvent transition data).receipt .processed now) = some receipts

inductive Receiving (now : Nat) (delivery : Delivery) (db db' : Database) : Prop
  | replay {receipt : Receipt} (found : db.receipts.get? delivery.id = some receipt)
      (same : receipt.payloadDigest = delivery.payloadDigest) (unchanged : db' = db)
  | ignored {receipts : Table Receipt.providerEventId}
      (other : transitionOf delivery.event = none)
      (fresh : db.receipts.get? delivery.id = none)
      (inserted : db.receipts.insert
        ⟨delivery.id, delivery.payloadDigest, delivery.issuedAt, .ignored, some now, 1⟩ =
          some receipts)
      (stored : db'.toTables = { db.toTables with receipts })
  | applied {transition : Transition} {data : ConnectionData} {config : Config} {effect : Effect}
      {receipts : Table Receipt.providerEventId} {stored : Database}
      (applying : Applying now delivery db transition data config effect receipts)
      (tables : stored.toTables = appliedTables (delivery.connectionEvent transition data)
        config.organization db.toTables effect receipts)
      (reported : enqueueAll stored (effect.events transition) = .ok db')

theorem receive_replayed {rows : List TransitionRow} {transition : Transition}
    (unchanged : ∀ row ∈ rows, row.changed = false)
    (done : recordConnectionTransitions transition rows db = .ok db') : db' = db := by
  have none_changed : rows.filter (·.changed) = [] := by
    refine List.filter_eq_nil_iff.mpr fun row listed => ?_
    simp [unchanged row listed]
  rw [recordConnectionTransitions, none_changed] at done
  exact (Except.ok.inj done).symm

theorem receive_spec {delivery : Delivery} (done : receive server now delivery db = .ok db') :
    delivery.verified ∧ server.defaultIsolation = .serializable ∧
      Receiving now delivery db db' := by
  obtain ⟨_, verified, done⟩ := bind_ok.mp done
  obtain ⟨_, -, done⟩ := bind_ok.mp done
  obtain ⟨session, began, done⟩ := bind_ok.mp done
  refine ⟨require_ok.mp verified, beginSerializable_ok.mp ⟨session, began⟩, ?_⟩
  split at done
  · rename_i other
    obtain ⟨_, -, done⟩ := bind_ok.mp done
    split at done
    · rename_i receipt found
      obtain ⟨_, same, done⟩ := bind_ok.mp done
      exact .replay found (require_ok.mp same).1 (return_ok.mp done).symm
    · rename_i fresh
      obtain ⟨receipts, inserted, done⟩ := bind_ok.mp done
      exact .ignored other fresh (orElse_ok.mp inserted) (checked_ok.mp done)
  · rename_i transition named
    obtain ⟨data, given, done⟩ := bind_ok.mp done
    obtain ⟨_, shape, done⟩ := bind_ok.mp done
    obtain ⟨⟨rows, stored⟩, applied, done⟩ := bind_ok.mp done
    obtain ⟨_, some_row, done⟩ := bind_ok.mp done
    obtain ⟨_, accepted, applied⟩ := bind_ok.mp applied
    split at applied
    · rename_i receipt found
      obtain ⟨_, same, applied⟩ := bind_ok.mp applied
      obtain ⟨rfl, rfl⟩ := Prod.mk.inj (return_ok.mp applied)
      refine .replay found (require_ok.mp same) (receive_replayed (fun row listed => ?_) done)
      obtain ⟨config, -, rfl⟩ := List.mem_map.mp listed
      rfl
    · rename_i fresh
      split at applied
      · obtain ⟨_, -, applied⟩ := bind_ok.mp applied
        obtain ⟨_, -, applied⟩ := bind_ok.mp applied
        obtain ⟨rfl, rfl⟩ := Prod.mk.inj (return_ok.mp applied)
        exact absurd rfl (require_ok.mp some_row)
      · rename_i config known
        obtain ⟨effect, ran, applied⟩ := bind_ok.mp applied
        obtain ⟨receipts, inserted, applied⟩ := bind_ok.mp applied
        obtain ⟨next, tables, applied⟩ := bind_ok.mp applied
        obtain ⟨rfl, rfl⟩ := Prod.mk.inj (return_ok.mp applied)
        have reported := (record_effect (transitionEffect_spec ran) next).symm.trans done
        exact .applied ⟨⟨named, orElse_ok.mp given, shape⟩, require_ok.mp accepted, fresh, known,
          ran, orElse_ok.mp inserted⟩ (checked_ok.mp tables) reported

/-- What an event needs to go through, besides a database that takes its writes. -/
theorem receive_applies {delivery : Delivery} {transition : Transition} {data : ConnectionData}
    {config : Config} {effect : Effect} {receipts : Table Receipt.providerEventId}
    {stored : Database} (verified : delivery.verified)
    (identified : providerIdValid delivery.id "event_" 512)
    (serializable : server.defaultIsolation = .serializable)
    (applying : Applying now delivery db transition data config effect receipts)
    (tables : stored.toTables = appliedTables (delivery.connectionEvent transition data)
      config.organization db.toTables effect receipts)
    (reported : enqueueAll stored (effect.events transition) = .ok db') :
    receive server now delivery db = .ok db' := by
  obtain ⟨session, began⟩ := beginSerializable_ok.mpr serializable
  refine bind_ok.mpr ⟨⟨⟩, require_ok.mpr verified, ?_⟩
  refine bind_ok.mpr ⟨⟨⟩, require_ok.mpr identified, bind_ok.mpr ⟨session, began, ?_⟩⟩
  rw [applying.announces.named]
  refine bind_ok.mpr ⟨data, orElse_ok.mpr applying.announces.given, ?_⟩
  refine bind_ok.mpr ⟨(), applying.announces.shape, ?_⟩
  have applied : applyWorkosConnectionEvent now (delivery.connectionEvent transition data) db =
      .ok (effect.rows config.organization transition, stored) := by
    refine bind_ok.mpr ⟨⟨⟩, require_ok.mpr applying.accepted, ?_⟩
    have fresh : db.receipts.get?
        (delivery.connectionEvent transition data).providerEventId = none := applying.fresh
    have known : db.knownOrganization
        (delivery.connectionEvent transition data).providerOrganizationId = some config :=
      applying.known
    rw [fresh, known]
    refine bind_ok.mpr ⟨effect, applying.ran, ?_⟩
    refine bind_ok.mpr ⟨receipts, orElse_ok.mpr applying.inserted, ?_⟩
    exact bind_ok.mpr ⟨stored, checked_ok.mpr tables, rfl⟩
  refine bind_ok.mpr ⟨_, applied, bind_ok.mpr ⟨⟨⟩, ?_, ?_⟩⟩
  · exact require_ok.mpr (rows_ne_nil effect config.organization transition)
  · exact (record_effect (transitionEffect_spec applying.ran) stored).trans reported

end SiliconIam.Sso
