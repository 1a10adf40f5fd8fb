/-
# Sso.Validity -- writes that the constraints take

For every operation, the tables it writes meet the constraints again once the
operation's own preconditions hold: switching a connection off needs nothing, putting
one in force needs that no other of the organization is, and a configuration may take a
provider organization that no other configuration holds.
-/
import SiliconIam.Sso.Plans

namespace SiliconIam.Sso

open SiliconIam.Theory

set_option autoImplicit false

variable {now : Nat} {db : Database} {tables : Tables}
  {configs configs' : Table Config.organization} {connections connections' : Table Connection.id}

/-! ## References -/

/-- Every configuration is still there. -/
def ConfigsKept (configs configs' : Table Config.organization) : Prop :=
  ∀ config ∈ configs, ∃ config' ∈ configs', config'.organization = config.organization

/-- Every connection is still there, in its organization. -/
def ConnectionsKept (connections connections' : Table Connection.id) : Prop :=
  ∀ connection ∈ connections, ∃ connection' ∈ connections',
    connection'.id = connection.id ∧ connection'.organization = connection.organization

theorem ConnectionsKept.refl (connections : Table Connection.id) :
    ConnectionsKept connections connections :=
  fun connection mem => ⟨connection, mem, rfl, rfl⟩

theorem ConnectionsKept.trans {middle : Table Connection.id}
    (first : ConnectionsKept connections middle) (second : ConnectionsKept middle connections') :
    ConnectionsKept connections connections' := by
  intro connection mem
  obtain ⟨between, held, sameId, sameOwner⟩ := first connection mem
  obtain ⟨last, lastMem, nextId, nextOwner⟩ := second between held
  exact ⟨last, lastMem, nextId.trans sameId, nextOwner.trans sameOwner⟩

theorem configsKept_update {p : Config → Bool} {set : Config → Config}
    (keeps : ∀ config, (set config).organization = config.organization) :
    ConfigsKept configs (configs.update p set keeps) := by
  intro config mem
  refine ⟨_, Table.mem_update_of_mem keeps mem, ?_⟩
  split
  · exact keeps config
  · rfl

theorem configsKept_insert {config : Config} (inserted : configs.insert config = some configs') :
    ConfigsKept configs configs' :=
  fun old mem => ⟨old, ((Table.insert_spec inserted).2 old).mpr (.inr mem), rfl⟩

theorem connectionsKept_update {p : Connection → Bool} {set : Connection → Connection}
    (keeps : ∀ connection, (set connection).id = connection.id)
    (owner : ∀ connection, (set connection).organization = connection.organization) :
    ConnectionsKept connections (connections.update p set keeps) := by
  intro connection mem
  refine ⟨_, Table.mem_update_of_mem keeps mem, ?_⟩
  split
  · exact ⟨keeps connection, owner connection⟩
  · exact ⟨rfl, rfl⟩

theorem connectionsKept_insert {connection : Connection}
    (inserted : connections.insert connection = some connections') :
    ConnectionsKept connections connections' :=
  fun old mem => ⟨old, ((Table.insert_spec inserted).2 old).mpr (.inr mem), rfl, rfl⟩

variable {authorizations : Table Authorization.id}

theorem AuthorizationConstraints.kept
    (valid : AuthorizationConstraints connections authorizations)
    (kept : ConnectionsKept connections connections') :
    AuthorizationConstraints connections' authorizations where
  connected row mem := by
    obtain ⟨connection, held, sameId, sameOwner⟩ := valid.connected row mem
    obtain ⟨connection', held', keptId, keptOwner⟩ := kept connection held
    exact ⟨connection', held', keptId.trans sameId, keptOwner.trans sameOwner⟩
  states := valid.states
  completion := valid.completion

theorem IdentityConstraints.kept {identities : Table Identity.id}
    (valid : IdentityConstraints connections identities)
    (kept : ConnectionsKept connections connections') :
    IdentityConstraints connections' identities where
  connected row mem := by
    obtain ⟨connection, held, sameId, sameOwner⟩ := valid.connected row mem
    obtain ⟨connection', held', keptId, keptOwner⟩ := kept connection held
    exact ⟨connection', held', keptId.trans sameId, keptOwner.trans sameOwner⟩
  subjects := valid.subjects
  carbons := valid.carbons

theorem ConnectionConstraints.kept (valid : ConnectionConstraints configs connections)
    (kept : ConfigsKept configs configs') : ConnectionConstraints configs' connections where
  configured connection mem := by
    obtain ⟨config, held, owner⟩ := valid.configured connection mem
    obtain ⟨config', held', same⟩ := kept config held
    exact ⟨config', held', same.trans owner⟩
  providers := valid.providers
  oneActive := valid.oneActive
  timestamps := valid.timestamps

/-- The rest of the database under written configurations and connections. -/
theorem Constraints.rewritten (valid : Constraints tables)
    (configsKept : ConfigsKept tables.configs configs')
    (connectionsKept : ConnectionsKept tables.connections connections')
    (configsValid : ConfigConstraints configs')
    (connectionsValid : ConnectionConstraints configs' connections') :
    Constraints { tables with configs := configs', connections := connections' } where
  configs := configsValid
  connections := connectionsValid
  authorizations := valid.authorizations.kept connectionsKept
  identities := valid.identities.kept connectionsKept
  setups setup mem := by
    obtain ⟨config, held, owner⟩ := valid.setups setup mem
    obtain ⟨config', held', same⟩ := configsKept config held
    exact ⟨config', held', same.trans owner⟩
  receipts := valid.receipts

/-! ## Configurations -/

/-- An update that keeps the provider organization and leaves a valid status. -/
theorem ConfigConstraints.update {p : Config → Bool} {set : Config → Config}
    (valid : ConfigConstraints configs)
    (keeps : ∀ config, (set config).organization = config.organization)
    (provider : ∀ config, (set config).providerOrganizationId = config.providerOrganizationId)
    (active : ∀ config ∈ configs, p config = true → (set config).status = .active →
      (set config).platformEnabled = true ∧ config.providerOrganizationId ≠ none) :
    ConfigConstraints (configs.update p set keeps) where
  activeRequirements := by
    intro config mem status
    obtain ⟨old, held, rfl⟩ := Table.mem_update.mp mem
    split at status
    · rename_i picked
      rw [if_pos picked, provider]
      exact active old held picked status
    · rename_i unpicked
      rw [if_neg unpicked]
      exact valid.activeRequirements old held status
  providers := by
    intro a aMem b bMem some same
    obtain ⟨c, cHeld, rfl⟩ := Table.mem_update.mp aMem
    obtain ⟨d, dHeld, rfl⟩ := Table.mem_update.mp bMem
    have kept (config : Config) : (if p config then set config else config).providerOrganizationId =
        config.providerOrganizationId := by
      split
      · exact provider config
      · rfl
    rw [kept] at some same
    rw [kept] at same
    rw [valid.providers c cHeld d dHeld some same]

variable {organization : Nat}

theorem ConfigConstraints.setUp (valid : ConfigConstraints configs)
    {provider : String} (free : ∀ config ∈ configs,
      config.providerOrganizationId = some provider → config.organization = organization) :
    ConfigConstraints (setUpConfigs configs organization provider) where
  activeRequirements := by
    intro config mem status
    obtain ⟨old, held, rfl⟩ := Table.mem_update.mp mem
    split at status
    · rename_i picked
      rw [if_pos picked]
      exact ⟨(of_decide_eq_true picked).2, Option.some_ne_none _⟩
    · rename_i unpicked
      rw [if_neg unpicked]
      exact valid.activeRequirements old held status
  providers := by
    intro a aMem b bMem some same
    obtain ⟨c, cHeld, rfl⟩ := Table.mem_update.mp aMem
    obtain ⟨d, dHeld, rfl⟩ := Table.mem_update.mp bMem
    split at same <;> split at same
    · rename_i first second
      have owners := (of_decide_eq_true first).1.trans (of_decide_eq_true second).1.symm
      rw [Table.unique cHeld dHeld owners]
    · rename_i first second
      have owner := free d dHeld same.symm
      have owners := (of_decide_eq_true first).1.trans owner.symm
      obtain rfl := Table.unique cHeld dHeld owners
      exact absurd first second
    · rename_i first second
      have owner := free c cHeld same
      have owners := owner.trans (of_decide_eq_true second).1.symm
      obtain rfl := Table.unique cHeld dHeld owners
      exact absurd second first
    · rename_i first second
      rw [if_neg first] at some
      rw [if_neg first, if_neg second]
      exact valid.providers c cHeld d dHeld some same

theorem ConfigConstraints.insert {config : Config} (valid : ConfigConstraints configs)
    (inserted : configs.insert config = some configs') (status : config.status ≠ .active)
    (provider : config.providerOrganizationId = none) : ConfigConstraints configs' where
  activeRequirements a mem active := by
    rcases ((Table.insert_spec inserted).2 a).mp mem with rfl | old
    · exact absurd active status
    · exact valid.activeRequirements a old active
  providers a aMem b bMem some same := by
    rcases ((Table.insert_spec inserted).2 a).mp aMem with rfl | aOld
    · exact absurd provider some
    · rcases ((Table.insert_spec inserted).2 b).mp bMem with rfl | bOld
      · exact absurd (same.trans provider) some
      · exact valid.providers a aOld b bOld some same

/-! ## Connections -/

/-- Any connections may be switched off. -/
theorem ConnectionConstraints.off {p : Connection → Bool} {set : Connection → Connection}
    (valid : ConnectionConstraints configs connections)
    (keeps : ∀ connection, (set connection).id = connection.id)
    (owner : ∀ connection, (set connection).organization = connection.organization)
    (provider : ∀ connection,
      (set connection).providerConnectionId = connection.providerConnectionId)
    (off : ∀ connection,
      (set connection).status = .disabled ∧ (set connection).disabledAt ≠ none) :
    ConnectionConstraints configs (connections.update p set keeps) where
  configured connection mem := by
    obtain ⟨old, held, rfl⟩ := Table.mem_update.mp mem
    obtain ⟨config, configMem, same⟩ := valid.configured old held
    refine ⟨config, configMem, ?_⟩
    split
    · exact same.trans (owner old).symm
    · exact same
  providers a aMem b bMem same := by
    obtain ⟨c, cHeld, rfl⟩ := Table.mem_update.mp aMem
    obtain ⟨d, dHeld, rfl⟩ := Table.mem_update.mp bMem
    have kept (connection : Connection) :
        (if p connection then set connection else connection).providerConnectionId =
          connection.providerConnectionId := by
      split
      · exact provider connection
      · rfl
    rw [kept, kept] at same
    rw [valid.providers c cHeld d dHeld same]
  oneActive a aMem b bMem same aActive bActive := by
    obtain ⟨c, cHeld, rfl⟩ := Table.mem_update.mp aMem
    obtain ⟨d, dHeld, rfl⟩ := Table.mem_update.mp bMem
    split at aActive
    · rw [(off c).1] at aActive
      cases aActive
    · split at bActive
      · rw [(off d).1] at bActive
        cases bActive
      · rename_i cLeft dLeft
        rw [if_neg cLeft, if_neg dLeft] at *
        exact valid.oneActive c cHeld d dHeld same aActive bActive
  timestamps connection mem := by
    obtain ⟨old, held, rfl⟩ := Table.mem_update.mp mem
    split
    · refine ⟨fun active => ?_, fun _ => (off old).2⟩
      rw [(off old).1] at active
      cases active
    · exact valid.timestamps old held

/-- A connection may go in force where no other of its organization is. -/
theorem ConnectionConstraints.on {target : Connection} {connectionType : Option String}
    (valid : ConnectionConstraints configs connections) (mem : target ∈ connections)
    (alone : ∀ other ∈ connections, other.organization = target.organization →
      other.status = .active → other = target) :
    ConnectionConstraints configs
      (activateTarget now connectionType target.id connections) where
  configured connection listed := by
    obtain ⟨old, held, rfl⟩ := Table.mem_update.mp listed
    obtain ⟨config, configMem, same⟩ := valid.configured old held
    refine ⟨config, configMem, ?_⟩
    split
    · exact same
    · exact same
  providers a aMem b bMem same := by
    obtain ⟨c, cHeld, rfl⟩ := Table.mem_update.mp aMem
    obtain ⟨d, dHeld, rfl⟩ := Table.mem_update.mp bMem
    have kept (connection : Connection) (picked : Prop) [Decidable picked] :
        (if picked then connection.activate now connectionType
          else connection).providerConnectionId = connection.providerConnectionId := by
      split <;> rfl
    rw [kept, kept] at same
    rw [valid.providers c cHeld d dHeld same]
  oneActive a aMem b bMem same aActive bActive := by
    have settled (row : Connection)
        (listed : row ∈ activateTarget now connectionType target.id connections)
        (active : row.status = .active) (owner : row.organization = target.organization) :
        row.id = target.id := by
      obtain ⟨old, held, rfl⟩ := Table.mem_update.mp listed
      split at active
      · rename_i picked
        rw [if_pos picked]
        exact (of_decide_eq_true picked).1
      · rename_i unpicked
        rw [if_neg unpicked] at owner ⊢
        rw [alone old held owner active]
    have ids : a.id = b.id := by
      by_cases here : a.organization = target.organization
      · rw [settled a aMem aActive here, settled b bMem bActive (same.symm.trans here)]
      · obtain ⟨c, cHeld, rfl⟩ := Table.mem_update.mp aMem
        obtain ⟨d, dHeld, rfl⟩ := Table.mem_update.mp bMem
        split at aActive
        · rename_i picked
          have sameId := (of_decide_eq_true picked).1
          obtain rfl := Table.unique cHeld mem sameId
          rw [if_pos picked] at here
          exact absurd rfl here
        · split at bActive
          · rename_i picked
            have sameId := (of_decide_eq_true picked).1
            obtain rfl := Table.unique dHeld mem sameId
            rw [if_pos picked] at same
            exact absurd same here
          · rename_i cLeft dLeft
            rw [if_neg cLeft, if_neg dLeft] at *
            rw [valid.oneActive c cHeld d dHeld same aActive bActive]
    exact Table.unique aMem bMem ids
  timestamps connection listed := by
    obtain ⟨old, held, rfl⟩ := Table.mem_update.mp listed
    split
    · exact ⟨fun _ => Option.some_ne_none _, fun off => (by cases off)⟩
    · exact valid.timestamps old held

variable {event : ConnectionEvent}

theorem ConnectionConstraints.create
    (valid : ConnectionConstraints configs connections)
    (inserted : connections.insert (newConnection now organization event) = some connections')
    (configured : ∃ config ∈ configs, config.organization = organization)
    (unnamed : ∀ other ∈ connections,
      other.providerConnectionId ≠ event.providerConnectionId)
    (alone : ∀ other ∈ connections, other.organization = organization →
      other.status ≠ .active) :
    ConnectionConstraints configs connections' := by
  have listed := (Table.insert_spec inserted).2
  refine ⟨?_, ?_, ?_, ?_⟩
  · intro connection mem
    rcases (listed connection).mp mem with rfl | old
    · exact configured
    · exact valid.configured connection old
  · intro a aMem b bMem same
    rcases (listed a).mp aMem with rfl | aOld
    · rcases (listed b).mp bMem with rfl | bOld
      · rfl
      · exact absurd same.symm (unnamed b bOld)
    · rcases (listed b).mp bMem with rfl | bOld
      · exact absurd same (unnamed a aOld)
      · exact valid.providers a aOld b bOld same
  · intro a aMem b bMem same aActive bActive
    rcases (listed a).mp aMem with rfl | aOld
    · rcases (listed b).mp bMem with rfl | bOld
      · rfl
      · exact absurd bActive (alone b bOld same.symm)
    · rcases (listed b).mp bMem with rfl | bOld
      · exact absurd aActive (alone a aOld same)
      · exact valid.oneActive a aOld b bOld same aActive bActive
  · intro connection mem
    rcases (listed connection).mp mem with rfl | old
    · exact ⟨fun _ => Option.some_ne_none _, fun off => (by cases off)⟩
    · exact valid.timestamps connection old

/-! ## The operations -/

theorem valid_setUp (db : Database) {provider : String}
    (free : ∀ config ∈ db.configs,
      config.providerOrganizationId = some provider → config.organization = organization) :
    Constraints { db.toTables with configs := setUpConfigs db.configs organization provider } := by
  have kept : ConfigsKept db.configs (setUpConfigs db.configs organization provider) :=
    configsKept_update (Config.setUp_organization provider)
  exact db.valid.rewritten kept (.refl _) (db.valid.configs.setUp free)
    (db.valid.connections.kept kept)

theorem Constraints.withSetup {setup : SetupSession} {setupSessions : Table SetupSession.id}
    (valid : Constraints tables) (inserted : tables.setupSessions.insert setup = some setupSessions)
    (configured : ∃ config ∈ tables.configs, config.organization = setup.organization) :
    Constraints { tables with setupSessions } where
  configs := valid.configs
  connections := valid.connections
  authorizations := valid.authorizations
  identities := valid.identities
  setups other mem := by
    rcases ((Table.insert_spec inserted).2 other).mp mem with rfl | old
    · exact configured
    · exact valid.setups other old
  receipts := valid.receipts

theorem disable_off (now : Nat) (connection : Connection) :
    (connection.disable now).status = .disabled ∧ (connection.disable now).disabledAt ≠ none :=
  ⟨rfl, Option.some_ne_none _⟩

theorem displace_off (now : Nat) (connection : Connection) :
    (connection.displace now).status = .disabled ∧ (connection.displace now).disabledAt ≠ none :=
  ⟨rfl, Option.some_ne_none _⟩

theorem deactivate_off (now : Nat) (connectionType : Option String) (connection : Connection) :
    (connection.deactivate now connectionType).status = .disabled ∧
      (connection.deactivate now connectionType).disabledAt ≠ none :=
  ⟨rfl, Option.some_ne_none _⟩

theorem AuthorizationConstraints.cancelled {p : Authorization → Bool}
    (valid : AuthorizationConstraints connections authorizations)
    (pending : ∀ row, p row = true → row.status = .pending) :
    AuthorizationConstraints connections
      (authorizations.update p Authorization.cancel Authorization.cancel_id) where
  connected row mem := by
    obtain ⟨old, held, rfl⟩ := Table.mem_update.mp mem
    split
    · exact valid.connected old held
    · exact valid.connected old held
  states a aMem b bMem same := by
    obtain ⟨c, cHeld, rfl⟩ := Table.mem_update.mp aMem
    obtain ⟨d, dHeld, rfl⟩ := Table.mem_update.mp bMem
    have kept (row : Authorization) :
        (if p row then row.cancel else row).stateDigest = row.stateDigest := by
      split <;> rfl
    rw [kept, kept] at same
    rw [valid.states c cHeld d dHeld same]
  completion row mem := by
    obtain ⟨old, held, rfl⟩ := Table.mem_update.mp mem
    split
    · rename_i picked
      have consumed := valid.completion old held
      rw [pending old picked] at consumed
      constructor
      · intro completed
        cases completed
      · intro some
        have := consumed.mpr some
        cases this
    · exact valid.completion old held

theorem valid_disabled (db : Database) (now organization version : Nat) :
    Constraints (db.disabled now organization version) := by
  have configsKept : ConfigsKept db.configs (db.disabled now organization version).configs :=
    configsKept_update Config.disable_organization
  have connectionsKept :
      ConnectionsKept db.connections (db.disabled now organization version).connections :=
    connectionsKept_update (Connection.disable_id now) fun _ => rfl
  have connections := db.valid.connections.off (p := Connection.usable organization)
    (Connection.disable_id now) (fun _ => rfl) (fun _ => rfl) (disable_off now)
  have configs := db.valid.configs.update
    (p := fun row => row.organization = organization ∧ row.version = version)
    Config.disable_organization (fun _ => rfl) fun _ _ _ active => (by cases active)
  have rewritten := db.valid.rewritten configsKept connectionsKept configs
    (connections.kept configsKept)
  refine ⟨rewritten.configs, rewritten.connections, ?_, rewritten.identities, ?_,
    rewritten.receipts⟩
  · exact rewritten.authorizations.cancelled fun row picked => (of_decide_eq_true picked).2
  · intro setup mem
    have mem : setup ∈ db.setupSessions.update _ _ SetupSession.cancel_id := mem
    obtain ⟨old, held, rfl⟩ := Table.mem_update.mp mem
    have known := rewritten.setups old held
    split
    · exact known
    · exact known

theorem valid_entitled {call : EntitlementCall} {config : Config}
    (entitled : Entitled call organization db config tables) : Constraints tables := by
  cases entitled with
  | @created configs absent first inserted =>
      have kept := configsKept_insert inserted
      have status : (Config.initial organization call.enabled).status ≠ .active := by
        show (if call.enabled then ConfigStatus.pending else .disabled) ≠ .active
        split <;> exact fun same => by cases same
      exact db.valid.rewritten kept (.refl _) (db.valid.configs.insert inserted status rfl)
        (db.valid.connections.kept kept)
  | @replaced old found version =>
      obtain ⟨mem, owner⟩ := Table.get?_eq_some.mp found
      have keeps := Config.entitle_organization call.enabled (entitledStatus db call.enabled old)
      have kept : ConfigsKept db.configs (entitledConfigs db.configs organization call.enabled
          (entitledStatus db call.enabled old)) := configsKept_update keeps
      refine db.valid.rewritten kept (.refl _) ?_ (db.valid.connections.kept kept)
      refine db.valid.configs.update keeps (fun _ => rfl) fun config held picked active => ?_
      obtain rfl := Table.unique held mem ((of_decide_eq_true picked).trans owner.symm)
      have status : entitledStatus db call.enabled config = .active := active
      unfold entitledStatus at status
      split at status
      · cases status
      · rename_i enabled
        split at status
        · rename_i inForce
          refine ⟨?_, inForce.1⟩
          show call.enabled = true
          simpa using enabled
        · cases status

/-- After the others were switched off, only the named connection may be in force. -/
theorem displaced_active {provider : String} {connection : Connection}
    (mem : connection ∈ displacedConnections now organization provider connections)
    (owner : connection.organization = organization) (active : connection.status = .active) :
    connection.providerConnectionId = provider := by
  obtain ⟨old, held, rfl⟩ := mem_displacedConnections.mp mem
  split at active
  · cases active
  · rename_i kept
    rw [if_neg kept] at owner ⊢
    by_contra other
    exact kept (decide_eq_true ⟨owner, other, active⟩)

theorem valid_effect {effect : Effect}
    (valid : ConnectionConstraints configs tables.connections)
    (configured : ∃ config ∈ configs, config.organization = organization)
    (ran : Transitioned now organization event tables effect) :
    ConnectionConstraints configs effect.connections := by
  cases ran with
  | off down ran =>
      cases ran with
      | existing mem named owner =>
          exact valid.off (Connection.deactivate_id now event.connectionType) (fun _ => rfl)
            (fun _ => rfl) (deactivate_off now event.connectionType)
      | unknown absent => exact valid
  | on up ran =>
      have displaced := valid.off
        (p := Connection.displacedBy organization event.providerConnectionId)
        (Connection.displace_id now) (fun _ => rfl) (fun _ => rfl) (displace_off now)
      cases ran with
      | existing mem named owner =>
          refine displaced.on mem fun other held sameOwner active => ?_
          have same := displaced_active held (sameOwner.trans owner) active
          exact displaced.providers other held _ mem (same.trans named.symm)
      | created absent inserted =>
          have unnamed : ∀ other ∈ displacedConnections now organization
              event.providerConnectionId tables.connections,
              other.providerConnectionId ≠ event.providerConnectionId := by
            intro other held same
            obtain ⟨old, oldMem, -, -, sameName⟩ := of_mem_displaced held
            exact absent old oldMem (sameName.trans same)
          refine displaced.create inserted configured unnamed fun other held owner active => ?_
          exact unnamed other held (displaced_active held owner active)

theorem effect_kept {effect : Effect}
    (ran : Transitioned now organization event tables effect) :
    ConnectionsKept tables.connections effect.connections := by
  have displaced : ConnectionsKept tables.connections (displacedConnections now organization
      event.providerConnectionId tables.connections) :=
    connectionsKept_update (Connection.displace_id now) fun _ => rfl
  cases ran with
  | off down ran =>
      cases ran with
      | existing =>
          exact connectionsKept_update (Connection.deactivate_id now event.connectionType)
            fun _ => rfl
      | unknown => exact .refl _
  | on up ran =>
      cases ran with
      | existing =>
          exact displaced.trans (connectionsKept_update
            (Connection.activate_id now event.connectionType) fun _ => rfl)
      | created absent inserted => exact displaced.trans (connectionsKept_insert inserted)

theorem valid_applied {config : Config} {effect : Effect}
    {receipts : Table Receipt.providerEventId} (mem : config ∈ db.configs)
    (provider : config.providerOrganizationId ≠ none)
    (ran : Transitioned now config.organization event db.toTables effect)
    (inserted : db.receipts.insert (event.receipt .processed now) = some receipts) :
    Constraints (appliedTables event config.organization db.toTables effect receipts) := by
  have keeps (row : Config) := Config.settle_organization
    (row.statusAfter event.transition.configStatus) row
  have configsKept : ConfigsKept db.configs
      (settleConfig db.configs config.organization event.transition.configStatus) :=
    configsKept_update keeps
  have configs : ConfigConstraints
      (settleConfig db.configs config.organization event.transition.configStatus) := by
    refine db.valid.configs.update keeps (fun _ => rfl) fun row held picked active => ?_
    obtain rfl := Table.unique held mem (of_decide_eq_true picked).1
    have status : row.statusAfter event.transition.configStatus = .active := active
    unfold Config.statusAfter at status
    split at status
    · rename_i enabled
      exact ⟨enabled, provider⟩
    · cases status
  have rewritten := db.valid.rewritten configsKept (effect_kept ran) configs
    ((valid_effect db.valid.connections ⟨config, mem, rfl⟩ ran).kept configsKept)
  refine ⟨rewritten.configs, rewritten.connections, rewritten.authorizations,
    rewritten.identities, rewritten.setups, ?_⟩
  intro receipt listed processed
  rcases ((Table.insert_spec inserted).2 receipt).mp listed with rfl | old
  · exact Option.some_ne_none _
  · exact db.valid.receipts receipt old processed

theorem valid_opened {call : AuthorizeCall} {owner : Nat} {connection : Connection} (mem : connection ∈ db.connections)
    (connected : connection.organization = organization)
    (secret : ∀ row ∈ db.authorizations, row.stateDigest ≠ call.stateDigest)
    (inserted : (cancelledFor db.authorizations owner call.browser).insert
      (call.row organization connection.id) = some authorizations) :
    Constraints { db.toTables with authorizations } := by
  have cancelled : AuthorizationConstraints db.connections
      (cancelledFor db.authorizations owner call.browser) :=
    db.valid.authorizations.cancelled fun row picked => (of_decide_eq_true picked).2.2.2
  have listed := (Table.insert_spec inserted).2
  have fresh : ∀ row ∈ cancelledFor db.authorizations owner call.browser,
      row.stateDigest ≠ call.stateDigest := by
    intro row held same
    obtain ⟨old, oldMem, rfl⟩ := Table.mem_update.mp held
    split at same
    · exact secret old oldMem same
    · exact secret old oldMem same
  refine ⟨db.valid.configs, db.valid.connections, ⟨?_, ?_, ?_⟩, db.valid.identities,
    db.valid.setups, db.valid.receipts⟩
  · intro row held
    rcases (listed row).mp held with rfl | old
    · exact ⟨connection, mem, rfl, connected⟩
    · exact cancelled.connected row old
  · intro a aMem b bMem same
    rcases (listed a).mp aMem with rfl | aOld
    · rcases (listed b).mp bMem with rfl | bOld
      · rfl
      · exact absurd same.symm (fresh b bOld)
    · rcases (listed b).mp bMem with rfl | bOld
      · exact absurd same (fresh a aOld)
      · exact cancelled.states a aOld b bOld same
  · intro row held
    rcases (listed row).mp held with rfl | old
    · constructor
      · intro completed
        cases completed
      · intro some
        exact absurd rfl some
    · exact cancelled.completion row old

end SiliconIam.Sso
