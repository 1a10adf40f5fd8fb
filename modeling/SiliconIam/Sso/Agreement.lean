/-
# Sso.Agreement -- the configuration agrees with the connections

A configuration should be active exactly when the entitlement is on, a provider
organization is set, a connection is active and the owner has not disabled it since the
last activation (`Agrees`, over `Watched`, which remembers the disables).

Two facts hold in every reachable state and reduce this to the entitlement and the
connections: a connection implies a provider organization, and a withdrawn organization
has no active connection (`Grounded`).  Of all operations only one breaks the agreement:
a deactivation or deletion that names another connection than the active one
(`Action.Stray`), since it sets the configuration to pending without looking.
-/
import SiliconIam.Sso.Bookkeeping

namespace SiliconIam.Sso

open SiliconIam.Theory

set_option autoImplicit false

variable {server : Server} {now : Nat} {db db' : Database}

/-! ## What is watched -/

/-- `withdrawn`: the owner has disabled the organization's SSO since the last activation. -/
structure Watched where
  db : Database
  withdrawn : Nat → Bool

def Watched.start : Watched := ⟨.empty, fun _ => false⟩

/-- The organization that a disable is about. -/
def Action.disables (db : Database) : Action → Option Nat
  | .disable _ call =>
      (db.directory.access call.owner.principal call.owner.orgId).map fun access => access.1.id
  | _ => none

/-- The organization that a new activation is about. -/
def Action.activates (db : Database) : Action → Option Nat
  | .receive _ delivery =>
      if db.receipts.get? delivery.id = none ∧ transitionOf delivery.event = some .activated then
        (delivery.data.bind fun data => db.knownOrganization data.organizationId).map
          Config.organization
      else none
  | _ => none

def mark (value : Bool) (withdrawn : Nat → Bool) : Option Nat → Nat → Bool
  | none => withdrawn
  | some organization => Function.update withdrawn organization value

def watch (server : Server) (s : Watched) (action : Action) : Watched :=
  match action.run server s.db with
  | .ok db' =>
      ⟨db', mark false (mark true s.withdrawn (action.disables s.db)) (action.activates s.db)⟩
  | .error _ => s

/-- The organization has an active connection. -/
def Connected (connections : Table Connection.id) (organization : Nat) : Prop :=
  ∃ connection ∈ connections, connection.organization = organization ∧
    connection.status = .active

def Agrees (s : Watched) : Prop :=
  ∀ config ∈ s.db.configs, config.status = .active ↔
    config.platformEnabled = true ∧ config.providerOrganizationId ≠ none ∧
      Connected s.db.connections config.organization ∧ s.withdrawn config.organization = false

/-! ## What holds in every run -/

/-- Facts of every reachable state. -/
structure Grounded (s : Watched) : Prop where
  provided : ∀ connection ∈ s.db.connections, ∀ config ∈ s.db.configs,
    config.organization = connection.organization → config.providerOrganizationId ≠ none
  withdrawn : ∀ organization, s.withdrawn organization = true →
    ¬ Connected s.db.connections organization

/-- The configurations follow the entitlement and the connections. -/
def Settled (configs : Table Config.organization) (connections : Table Connection.id) : Prop :=
  ∀ config ∈ configs, config.status = .active ↔
    config.platformEnabled = true ∧ Connected connections config.organization

theorem agrees_iff_settled {s : Watched} (grounded : Grounded s) :
    Agrees s ↔ Settled s.db.configs s.db.connections := by
  have reduced (config : Config) (mem : config ∈ s.db.configs) :
      (config.platformEnabled = true ∧ config.providerOrganizationId ≠ none ∧
        Connected s.db.connections config.organization ∧
          s.withdrawn config.organization = false) ↔
      config.platformEnabled = true ∧ Connected s.db.connections config.organization := by
    constructor
    · rintro ⟨enabled, -, connected, -⟩
      exact ⟨enabled, connected⟩
    · rintro ⟨enabled, connected⟩
      refine ⟨enabled, ?_, connected, ?_⟩
      · obtain ⟨connection, held, owner, -⟩ := connected
        exact grounded.provided connection held config mem owner.symm
      · cases withdrawn : s.withdrawn config.organization with
        | false => rfl
        | true => exact absurd connected (grounded.withdrawn _ withdrawn)
  constructor
  · intro agrees config mem
    rw [agrees config mem, reduced config mem]
  · intro settled config mem
    rw [settled config mem, reduced config mem]

/-! ## The status of a configuration -/

section Settled

variable {configs configs' : Table Config.organization} {connections connections' :
  Table Connection.id}

theorem Settled.update {p : Config → Bool} {set : Config → Config}
    (settled : Settled configs connections)
    (keeps : ∀ config, (set config).organization = config.organization)
    (picked : ∀ config ∈ configs, p config = true → ((set config).status = .active ↔
      (set config).platformEnabled = true ∧ Connected connections' config.organization))
    (left : ∀ config ∈ configs, ¬ p config = true →
      (Connected connections' config.organization ↔ Connected connections config.organization)) :
    Settled (configs.update p set keeps) connections' := by
  intro config mem
  obtain ⟨old, held, rfl⟩ := Table.mem_update.mp mem
  split
  · rename_i chosen
    rw [keeps old]
    exact picked old held chosen
  · rename_i unchosen
    rw [left old held unchosen]
    exact settled old held

theorem Settled.setUp (settled : Settled configs connections) (organization : Nat)
    (provider : String) : Settled (setUpConfigs configs organization provider) connections := by
  refine settled.update (Config.setUp_organization provider) (fun config mem _ => ?_)
    fun _ _ _ => Iff.rfl
  rw [show (config.setUp provider).platformEnabled = config.platformEnabled from rfl,
    ← settled config mem]
  show (if config.status = .active then ConfigStatus.active else .pending) = .active ↔ _
  split
  · rename_i active
    exact iff_of_true rfl active
  · rename_i inactive
    exact iff_of_false (by simp) inactive

theorem Settled.entitle (settled : Settled db.configs db.connections)
    (provided : ∀ connection ∈ db.connections, ∀ config ∈ db.configs,
      config.organization = connection.organization → config.providerOrganizationId ≠ none)
    {call : EntitlementCall} {organization : Nat} {config : Config} {tables : Tables}
    (entitled : Entitled call organization db config tables) :
    Settled tables.configs tables.connections := by
  cases entitled with
  | @created configs absent first inserted =>
      intro row mem
      rcases ((Table.insert_spec inserted).2 row).mp mem with rfl | old
      · have unconnected : ¬ Connected db.connections organization := by
          rintro ⟨connection, held, owner, -⟩
          obtain ⟨other, otherMem, same⟩ := db.valid.connections.configured connection held
          exact Table.get?_eq_none.mp absent other otherMem (same.trans owner)
        refine iff_of_false ?_ fun both => unconnected both.2
        show (if call.enabled then ConfigStatus.pending else .disabled) ≠ .active
        split <;> exact fun same => by cases same
      · exact settled row old
  | @replaced old found version =>
      obtain ⟨mem, owner⟩ := Table.get?_eq_some.mp found
      refine settled.update (Config.entitle_organization call.enabled _)
        (fun row held picked => ?_) fun _ _ _ => Iff.rfl
      obtain rfl := Table.unique held mem ((of_decide_eq_true picked).trans owner.symm)
      show entitledStatus db call.enabled row = .active ↔
        call.enabled = true ∧ Connected db.connections row.organization
      unfold entitledStatus
      have connected : (db.connections.any fun connection => connection.organization =
          row.organization ∧ connection.status = .active) = true ↔
            Connected db.connections row.organization := by
        rw [Table.any_eq_true]
        constructor
        · rintro ⟨connection, mem, holds⟩
          exact ⟨connection, mem, of_decide_eq_true holds⟩
        · rintro ⟨connection, mem, holds⟩
          exact ⟨connection, mem, decide_eq_true holds⟩
      split
      · rename_i disabled
        simp [disabled]
      · rename_i enabled
        split
        · rename_i both
          exact iff_of_true rfl ⟨by simpa using enabled, connected.mp both.2⟩
        · rename_i neither
          refine iff_of_false (by simp) fun ⟨_, connects⟩ =>
            neither ⟨?_, connected.mpr connects⟩
          obtain ⟨connection, held, same, -⟩ := connects
          exact provided connection held row mem same.symm

variable {connection : Connection}

theorem mem_disabledConnections {organization version : Nat} :
    connection ∈ (db.disabled now organization version).connections ↔
      ∃ old ∈ db.connections, connection =
        if old.usable organization then old.disable now else old :=
  Table.Updated.mem rfl

/-- A disable leaves no connection of the organization active, and the others as they were. -/
theorem disabled_connected (db : Database) (now organization version other : Nat) :
    Connected (db.disabled now organization version).connections other ↔
      other ≠ organization ∧ Connected db.connections other := by
  constructor
  · rintro ⟨connection, mem, owner, active⟩
    obtain ⟨old, held, rfl⟩ := mem_disabledConnections.mp mem
    split at active
    · cases active
    · rename_i unusable
      rw [if_neg unusable] at owner
      refine ⟨fun here => unusable (decide_eq_true ⟨owner.trans here, ?_⟩), old, held, owner, active⟩
      rw [active]
      exact fun same => by cases same
  · rintro ⟨elsewhere, connection, mem, owner, active⟩
    have unusable : ¬ connection.usable organization = true := fun usable =>
      elsewhere (owner.symm.trans (of_decide_eq_true usable).1)
    refine ⟨connection, mem_disabledConnections.mpr ⟨connection, mem, ?_⟩, owner, active⟩
    rw [if_neg unusable]

theorem Settled.disable (settled : Settled db.configs db.connections) {organization version : Nat}
    {config : Config} (mem : config ∈ db.configs) (owner : config.organization = organization)
    (current : config.version = version) :
    Settled (db.disabled now organization version).configs
      (db.disabled now organization version).connections := by
  refine settled.update Config.disable_organization (fun row held picked => ?_)
    fun row held unpicked => ?_
  · rw [disabled_connected]
    refine iff_of_false (fun active => by cases active) fun both => both.2.1 ?_
    exact (of_decide_eq_true picked).1
  · rw [disabled_connected]
    refine and_iff_right fun here => unpicked (decide_eq_true ⟨here, ?_⟩)
    rw [Table.unique held mem (here.trans owner.symm), current]

/-! ## Connection events -/

/-- Another connection than the named one is active. -/
def ConnectedBesides (connections : Table Connection.id) (organization : Nat)
    (provider : String) : Prop :=
  ∃ connection ∈ connections, connection.organization = organization ∧
    connection.providerConnectionId ≠ provider ∧ connection.status = .active

variable {organization : Nat} {event : ConnectionEvent} {effect : Effect} {tables : Tables}

theorem mem_activateTarget {connectionType : Option String} {target : Nat}
    {connections : Table Connection.id} :
    connection ∈ activateTarget now connectionType target connections ↔
      ∃ old ∈ connections, connection =
        if decide (old.id = target ∧ old.activationChanges connectionType = true) then
          old.activate now connectionType else old :=
  Table.Updated.mem rfl

theorem mem_deactivateTarget {transition : Transition} {connectionType : Option String}
    {target : Nat} {connections : Table Connection.id} :
    connection ∈ deactivateTarget now transition connectionType target connections ↔
      ∃ old ∈ connections, connection =
        if decide (old.id = target ∧
            old.deactivationChanges transition connectionType = true) then
          old.deactivate now connectionType else old :=
  Table.Updated.mem rfl

/-- The connections of other organizations are as they were. -/
theorem mem_displaced_elsewhere (now : Nat) (provider : String) {connections : Table Connection.id} (elsewhere : connection.organization ≠ organization) :
    connection ∈ displacedConnections now organization provider connections ↔
      connection ∈ connections := by
  have updated : Table.Updated (Connection.displacedBy organization provider)
      (Connection.displace now) connections
      (displacedConnections now organization provider connections) := rfl
  refine updated.elsewhere (q := fun row => row.organization ≠ organization) ?_ connection elsewhere
  intro row _ picked
  have owner := (of_decide_eq_true picked).1
  exact ⟨not_not.mpr owner, not_not.mpr owner⟩

theorem Activation.elsewhere (ran : Activation now organization event tables effect) (elsewhere : connection.organization ≠ organization) :
    connection ∈ effect.connections ↔ connection ∈ tables.connections := by
  cases ran with
  | @existing target mem named owner =>
      let displaced :=
        displacedConnections now organization event.providerConnectionId tables.connections
      have updated : Table.Updated
          (fun row => row.id = target.id ∧ row.activationChanges event.connectionType = true)
          (Connection.activate now event.connectionType) displaced
          (activateTarget now event.connectionType target.id displaced) := rfl
      have before : connection ∈ displaced ↔ connection ∈ tables.connections :=
        mem_displaced_elsewhere _ _ elsewhere
      refine (updated.elsewhere (q := fun row => row.organization ≠ organization) ?_
        connection elsewhere).trans before
      intro row held picked
      obtain rfl := Table.unique held mem (of_decide_eq_true picked).1
      exact ⟨not_not.mpr owner, not_not.mpr owner⟩
  | created absent inserted =>
      rw [(Table.insert_spec inserted).2 connection, mem_displaced_elsewhere _ _ elsewhere]
      refine or_iff_right ?_
      rintro rfl
      exact elsewhere rfl

/-- The named connection is the active one afterwards. -/
theorem Activation.named (ran : Activation now organization event tables effect) :
    ∃ connection ∈ effect.connections, connection.organization = organization ∧
      connection.providerConnectionId = event.providerConnectionId ∧
      connection.status = .active := by
  cases ran with
  | @existing target mem named owner =>
      refine ⟨_, mem_activateTarget.mpr ⟨target, mem, rfl⟩, ?_⟩
      split
      · exact ⟨owner, named, rfl⟩
      · rename_i settled
        have changes : ¬ target.activationChanges event.connectionType = true :=
          fun changes => settled (decide_eq_true ⟨rfl, changes⟩)
        have same := not_or.mp (mt decide_eq_true changes)
        exact ⟨owner, named, not_not.mp same.2⟩
  | created absent inserted =>
      exact ⟨_, ((Table.insert_spec inserted).2 _).mpr (.inl rfl), rfl, rfl, rfl⟩

theorem Activation.connected (ran : Activation now organization event tables effect)
    (other : Nat) : Connected effect.connections other ↔
      other = organization ∨ Connected tables.connections other := by
  by_cases here : other = organization
  · subst here
    obtain ⟨connection, mem, owner, -, active⟩ := ran.named
    exact iff_of_true ⟨connection, mem, owner, active⟩ (.inl rfl)
  · rw [or_iff_right here]
    constructor
    · rintro ⟨connection, mem, rfl, active⟩
      exact ⟨connection, (ran.elsewhere here).mp mem, rfl, active⟩
    · rintro ⟨connection, mem, rfl, active⟩
      exact ⟨connection, (ran.elsewhere here).mpr mem, rfl, active⟩

/-- A dormant event takes the named connection out and leaves every other. -/
theorem Deactivation.mem (ran : Deactivation now organization event tables effect)
    (providers : ∀ a ∈ tables.connections, ∀ b ∈ tables.connections,
      a.providerConnectionId = b.providerConnectionId → a = b)
    (active : connection.status = .active) :
    connection ∈ effect.connections ↔ connection ∈ tables.connections ∧
      ¬ (connection.organization = organization ∧
        connection.providerConnectionId = event.providerConnectionId) := by
  cases ran with
  | @existing target mem named owner =>
      rw [mem_deactivateTarget]
      constructor
      · rintro ⟨old, held, rfl⟩
        split at active
        · cases active
        · rename_i unpicked
          rw [if_neg unpicked]
          refine ⟨held, fun ⟨_, same⟩ => unpicked (decide_eq_true ⟨?_, ?_⟩)⟩
          · rw [providers old held target mem (same.trans named.symm)]
          · refine decide_eq_true (.inr (.inl ?_))
            rw [active]
            exact fun same => by cases same
      · rintro ⟨held, other⟩
        refine ⟨connection, held, ?_⟩
        rw [if_neg]
        intro picked
        obtain rfl := Table.unique held mem (of_decide_eq_true picked).1
        exact other ⟨owner, named⟩
  | unknown absent =>
      refine (and_iff_left_of_imp fun mem same => ?_).symm
      exact absent connection mem same.1 same.2

theorem Deactivation.connected (ran : Deactivation now organization event tables effect)
    (providers : ∀ a ∈ tables.connections, ∀ b ∈ tables.connections,
      a.providerConnectionId = b.providerConnectionId → a = b) (other : Nat) :
    Connected effect.connections other ↔
      if other = organization then
        ConnectedBesides tables.connections organization event.providerConnectionId
      else Connected tables.connections other := by
  split
  · rename_i here
    subst here
    constructor
    · rintro ⟨connection, mem, owner, active⟩
      obtain ⟨held, unnamed⟩ := (ran.mem providers active).mp mem
      exact ⟨connection, held, owner, fun named => unnamed ⟨owner, named⟩, active⟩
    · rintro ⟨connection, held, owner, unnamed, active⟩
      exact ⟨connection, (ran.mem providers active).mpr ⟨held, fun both => unnamed both.2⟩, owner,
        active⟩
  · rename_i elsewhere
    constructor
    · rintro ⟨connection, mem, owner, active⟩
      exact ⟨connection, ((ran.mem providers active).mp mem).1, owner, active⟩
    · rintro ⟨connection, held, owner, active⟩
      refine ⟨connection, (ran.mem providers active).mpr ⟨held, fun both => ?_⟩, owner, active⟩
      exact elsewhere (owner.symm.trans both.1)

/-- The configuration of the organization is as the event leaves it, the others as before. -/
theorem mem_settleConfig {configs : Table Config.organization} {status : ConfigStatus}
    {config : Config} (mem : config ∈ settleConfig configs organization status) :
    ∃ old ∈ configs, config.organization = old.organization ∧
      config.platformEnabled = old.platformEnabled ∧
      config.providerOrganizationId = old.providerOrganizationId ∧
      config.status =
        if old.organization = organization then old.statusAfter status else old.status := by
  obtain ⟨old, held, rfl⟩ := Table.mem_update.mp mem
  refine ⟨old, held, ?_⟩
  by_cases here : old.organization = organization
  · split
    · exact ⟨rfl, rfl, rfl, rfl⟩
    · rename_i unpicked
      refine ⟨rfl, rfl, rfl, ?_⟩
      by_contra other
      exact unpicked (decide_eq_true ⟨here, .inl other⟩)
  · rw [if_neg here, if_neg fun picked => here (of_decide_eq_true picked).1]
    exact ⟨rfl, rfl, rfl, rfl⟩

/-- After an event the configuration follows the connections, unless the event is dormant and
another connection than the named one is active. -/
theorem Settled.applied (settled : Settled tables.configs tables.connections)
    (providers : ∀ a ∈ tables.connections, ∀ b ∈ tables.connections,
      a.providerConnectionId = b.providerConnectionId → a = b)
    (ran : Transitioned now organization event tables effect)
    (astray : event.transition ≠ .activated → ∀ config ∈ tables.configs,
      config.organization = organization → config.platformEnabled = true →
        ¬ ConnectedBesides tables.connections organization event.providerConnectionId) :
    Settled (settleConfig tables.configs organization event.transition.configStatus)
      effect.connections := by
  intro config mem
  obtain ⟨old, held, owner, enabled, -, status⟩ := mem_settleConfig mem
  rw [status, enabled, owner]
  cases ran with
  | on up ran =>
      rw [ran.connected, up]
      split
      · rename_i here
        rw [Config.statusAfter, show Transition.activated.configStatus = .active from rfl]
        cases old.platformEnabled <;> simp [here]
      · rename_i elsewhere
        rw [or_iff_right elsewhere]
        exact settled old held
  | off down ran =>
      rw [ran.connected providers]
      split
      · rename_i here
        have pending : event.transition.configStatus = .pending := by
          cases kind : event.transition with
          | activated => exact absurd kind down
          | deactivated => rfl
          | deleted => rfl
        have inactive : old.statusAfter event.transition.configStatus ≠ .active := by
          rw [pending, Config.statusAfter]
          split <;> exact fun same => by cases same
        exact iff_of_false inactive fun both => astray down old held here both.1 both.2
      · exact settled old held

end Settled

/-! ## Steps -/

/-- What a committed step did to the configurations and the connections, and whom it marks. -/
inductive Moved (db db' : Database) (action : Action) : Prop
  | still (configs : db'.configs = db.configs) (connections : db'.connections = db.connections)
      (disables : action.disables db = none) (activates : action.activates db = none)
  | setUp {organization : Nat} {provider : String}
      (configs : db'.configs = setUpConfigs db.configs organization provider)
      (connections : db'.connections = db.connections)
      (disables : action.disables db = none) (activates : action.activates db = none)
  | entitled {call : EntitlementCall} {organization : Nat} {config : Config} {tables : Tables}
      (entitled : Entitled call organization db config tables)
      (configs : db'.configs = tables.configs) (connections : db'.connections = tables.connections)
      (disables : action.disables db = none) (activates : action.activates db = none)
  | disabled {now organization version : Nat} {config : Config} (mem : config ∈ db.configs)
      (owner : config.organization = organization) (current : config.version = version)
      (configs : db'.configs = (db.disabled now organization version).configs)
      (connections : db'.connections = (db.disabled now organization version).connections)
      (disables : action.disables db = some organization) (activates : action.activates db = none)
  | applied {now : Nat} {delivery : Delivery} {transition : Transition} {data : ConnectionData}
      {config : Config} {effect : Effect} {receipts : Table Receipt.providerEventId}
      (received : action = .receive now delivery)
      (applying : Applying now delivery db transition data config effect receipts)
      (configs : db'.configs = settleConfig db.configs config.organization transition.configStatus)
      (connections : db'.connections = effect.connections)
      (disables : action.disables db = none)
      (activates : action.activates db =
        if transition = .activated then some config.organization else none)

theorem applying_activates {delivery : Delivery} {transition : Transition} {data : ConnectionData}
    {config : Config} {effect : Effect} {receipts : Table Receipt.providerEventId}
    (applying : Applying now delivery db transition data config effect receipts) :
    (Action.receive now delivery).activates db =
      if transition = .activated then some config.organization else none := by
  show (if db.receipts.get? delivery.id = none ∧ transitionOf delivery.event = some .activated then
      (delivery.data.bind fun data => db.knownOrganization data.organizationId).map
        Config.organization else none) = _
  by_cases up : transition = .activated
  · rw [if_pos up, if_pos ⟨applying.fresh, up ▸ applying.announces.named⟩,
      applying.announces.given]
    show (db.knownOrganization data.organizationId).map Config.organization = _
    rw [applying.known, Option.map_some]
  · rw [if_neg up, if_neg]
    rintro ⟨-, named⟩
    exact up (Option.some.inj (applying.announces.named.symm.trans named))

theorem run_moved {action : Action} (booked : Booked db)
    (done : action.run server db = .ok db') : Moved db db' action := by
  cases action with
  | environment directory =>
      obtain rfl := Except.ok.inj done
      exact .still rfl rfl rfl rfl
  | authorize now call =>
      obtain ⟨organization, config, connection, authorizations, stored, -, -, tables,
        reported⟩ := authorize_ok.mp done
      have written := (enqueueAll_spec reported).tables
      rw [tables] at written
      exact .still (by rw [written]) (by rw [written]) rfl rfl
  | callback now call => exact absurd done (callback_never booked)
  | createSetupLink now call =>
      obtain ⟨-, -, -, organization, membership, config, -, entitled, renamed, stored,
        setupSessions, renames, -, tables, reported⟩ := createSetupLink_ok.mp done
      have written := (enqueueAll_spec reported).tables
      rw [tables, renames] at written
      exact .setUp (by rw [written]) (by rw [written]) rfl rfl
  | disable now call =>
      obtain ⟨-, -, -, organization, membership, config, access, -, mem, owner, version, stored,
        tables, reported⟩ := disable_ok.mp done
      have written := (enqueueAll_spec reported).tables
      rw [tables] at written
      have disables : (Action.disable now call).disables db = some organization.id := by
        show (db.directory.access call.owner.principal call.owner.orgId).map _ = _
        rw [access, Option.map_some]
      exact .disabled mem owner version (by rw [written]) (by rw [written]) disables rfl
  | replaceEntitlement call =>
      obtain ⟨-, -, -, -, organization, config, -, stored, entitled, reported⟩ :=
        replaceEntitlement_ok.mp done
      have written := (enqueueAll_spec reported).tables
      exact .entitled entitled (by rw [written]) (by rw [written]) rfl rfl
  | receive now delivery =>
      obtain ⟨-, -, received⟩ := receive_spec done
      cases received with
      | replay found same unchanged =>
          subst unchanged
          refine .still rfl rfl rfl (if_neg ?_)
          rw [found]
          exact fun both => by cases both.1
      | ignored other fresh inserted stored =>
          refine .still (by rw [stored]) (by rw [stored]) rfl (if_neg ?_)
          rw [other]
          exact fun both => by cases both.2
      | applied applying tables reported =>
          have written := (enqueueAll_spec reported).tables
          rw [tables] at written
          exact .applied rfl applying (by rw [written]; rfl) (by rw [written]; rfl) rfl
            (applying_activates applying)

/-! ## Grounded -/

/-- An organization with a connection has a provider organization. -/
def Provided (configs : Table Config.organization) (connections : Table Connection.id) : Prop :=
  ∀ connection ∈ connections, ∀ config ∈ configs,
    config.organization = connection.organization → config.providerOrganizationId ≠ none

/-- Updates of a configuration that do not take its provider organization away. -/
theorem Provided.update {configs : Table Config.organization} {connections : Table Connection.id}
    (provided : Provided configs connections) (p : Config → Bool) {set : Config → Config}
    (keeps : ∀ config, (set config).organization = config.organization)
    (sets : ∀ config, config.providerOrganizationId ≠ none →
      (set config).providerOrganizationId ≠ none) :
    Provided (configs.update p set keeps) connections := by
  intro connection held config mem owner
  obtain ⟨old, oldMem, rfl⟩ := Table.mem_update.mp mem
  split at owner
  · rename_i picked
    rw [if_pos picked]
    exact sets old (provided connection held old oldMem ((keeps old).symm.trans owner))
  · rename_i unpicked
    rw [if_neg unpicked]
    exact provided connection held old oldMem owner

/-- Every connection belongs to an organization that had one before. -/
theorem Provided.connections {configs : Table Config.organization}
    {connections connections' : Table Connection.id} (provided : Provided configs connections)
    (from_ : ∀ connection ∈ connections', ∃ old ∈ connections,
      old.organization = connection.organization) : Provided configs connections' := by
  intro connection mem config held owner
  obtain ⟨old, oldMem, same⟩ := from_ connection mem
  exact provided old oldMem config held (owner.trans same.symm)

theorem Transitioned.owners {now organization : Nat} {event : ConnectionEvent} {tables : Tables}
    {effect : Effect} (ran : Transitioned now organization event tables effect) :
    ∀ connection ∈ effect.connections, connection.organization = organization ∨
      ∃ old ∈ tables.connections, old.organization = connection.organization := by
  intro connection mem
  by_cases here : connection.organization = organization
  · exact .inl here
  · refine .inr ?_
    cases ran with
    | on up ran => exact ⟨connection, (ran.elsewhere here).mp mem, rfl⟩
    | off down ran =>
        cases ran with
        | existing =>
            obtain ⟨old, held, rfl⟩ := mem_deactivateTarget.mp mem
            refine ⟨old, held, ?_⟩
            split <;> rfl
        | unknown => exact ⟨connection, mem, rfl⟩

theorem Moved.provided {action : Action} (moved : Moved db db' action)
    (provided : Provided db.configs db.connections) : Provided db'.configs db'.connections := by
  cases moved with
  | still configs connections => rwa [configs, connections]
  | @setUp organization provider configs connections =>
      rw [configs, connections]
      exact provided.update _ (Config.setUp_organization provider) fun _ _ => Option.some_ne_none _
  | entitled entitled configs connections =>
      rw [configs, connections]
      cases entitled with
      | created absent first inserted =>
          intro connection held config mem owner
          rcases ((Table.insert_spec inserted).2 config).mp mem with rfl | old
          · obtain ⟨other, otherMem, same⟩ := db.valid.connections.configured connection held
            exact absurd (same.trans owner.symm) (Table.get?_eq_none.mp absent other otherMem)
          · exact provided connection held config old owner
      | replaced found version =>
          exact provided.update _ (Config.entitle_organization _ _) fun _ known => known
  | disabled mem owner current configs connections =>
      rw [configs, connections]
      refine (provided.update _ Config.disable_organization fun _ known => known).connections ?_
      intro connection mem
      obtain ⟨old, held, rfl⟩ := mem_disabledConnections.mp mem
      refine ⟨old, held, ?_⟩
      split <;> rfl
  | @applied now delivery transition data config effect receipts received applying configs
      connections =>
      rw [configs, connections]
      obtain ⟨configMem, holds⟩ := Table.find?_spec applying.known
      have provider := (of_decide_eq_true holds).1
      intro connection mem row rowMem owner
      obtain ⟨old, oldMem, sameOwner, -, sameProvider, -⟩ := mem_settleConfig rowMem
      rw [sameProvider]
      rcases (transitionEffect_spec applying.ran).owners connection mem with here | ⟨before, held, same⟩
      · rw [Table.unique oldMem configMem (sameOwner.symm.trans (owner.trans here)), provider]
        exact Option.some_ne_none _
      · exact provided before held old oldMem (sameOwner.symm.trans (owner.trans same.symm))

theorem mark_elsewhere {value : Bool} {withdrawn : Nat → Bool} {marked organization : Nat}
    (elsewhere : organization ≠ marked) :
    mark value withdrawn (some marked) organization = withdrawn organization :=
  Function.update_of_ne elsewhere _ _

theorem mark_here (value : Bool) (withdrawn : Nat → Bool) (marked : Nat) :
    mark value withdrawn (some marked) marked = value :=
  Function.update_self _ _ _

/-- The withdrawn organizations have no active connection. -/
def Withdrawn (withdrawn : Nat → Bool) (connections : Table Connection.id) : Prop :=
  ∀ organization, withdrawn organization = true → ¬ Connected connections organization

theorem Moved.withdrawn {action : Action} {withdrawn : Nat → Bool} (moved : Moved db db' action)
    (inactive : Withdrawn withdrawn db.connections) :
    Withdrawn (mark false (mark true withdrawn (action.disables db)) (action.activates db))
      db'.connections := by
  intro other marked
  cases moved with
  | still configs connections disables activates =>
      rw [disables, activates] at marked
      rw [connections]
      exact inactive other marked
  | setUp configs connections disables activates =>
      rw [disables, activates] at marked
      rw [connections]
      exact inactive other marked
  | entitled entitled configs connections disables activates =>
      rw [disables, activates] at marked
      rw [connections]
      cases entitled with
      | created => exact inactive other marked
      | replaced => exact inactive other marked
  | @disabled now organization version config mem owner current configs connections disables
      activates =>
      rw [disables, activates] at marked
      rw [connections, disabled_connected]
      rintro ⟨elsewhere, connected⟩
      rw [mark, mark_elsewhere elsewhere] at marked
      exact inactive other marked connected
  | @applied now delivery transition data config effect receipts received applying configs
      connections disables activates =>
      rw [disables, activates] at marked
      rw [connections]
      cases transitionEffect_spec applying.ran with
      | on up ran =>
          have up : transition = .activated := up
          rw [if_pos up] at marked
          by_cases here : other = config.organization
          · rw [here, mark_here] at marked
            cases marked
          · rw [mark_elsewhere here] at marked
            rw [ran.connected, or_iff_right here]
            exact inactive other marked
      | off down ran =>
          have down : transition ≠ .activated := down
          rw [if_neg down] at marked
          rw [ran.connected db.valid.connections.providers]
          intro connected
          refine inactive other marked ?_
          split at connected
          · rename_i here
            obtain ⟨connection, held, owner, -, active⟩ := connected
            exact ⟨connection, held, owner.trans here.symm, active⟩
          · exact connected

theorem grounded_watch {s : Watched} (booked : Booked s.db) (grounded : Grounded s)
    (action : Action) : Grounded (watch server s action) := by
  unfold watch
  split
  · rename_i db' done
    have moved := run_moved booked done
    exact ⟨moved.provided grounded.provided, moved.withdrawn grounded.withdrawn⟩
  · exact grounded

end SiliconIam.Sso
