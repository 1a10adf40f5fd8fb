/-
# Applications.ManagementOutline -- what an open management request knows

`claims` reads the work of every request off its handler: it is `Proper`.  `At` is what
an open transaction knows, by how far its claim has come (`Facts`): the key has no
operation of this actor, the row it replays is locked, the row it owns is free or locked.

Commits of others keep it (`At.stable`), because what they write they have locked
(`Footprint`): the key, the index entry and the id of a new operation, the row of an open
one, the application of a pending one.
-/
import SiliconIam.Applications.ManagementCommits

namespace SiliconIam.Applications.Honeycomb

open SiliconIam.Theory

set_option autoImplicit false

abbrev Transaction := Transactions.Transaction Db Write Lock Memory Request

/-! ## What each handler may do -/

/-- The view of a transaction that has written at most the row of its operation. -/
structure Base (db view : Db) (row : StoredOperation) : Prop where
  own : row ∈ view.operations
  old : ∀ a ∈ view.operations, a.id ≠ row.id → a ∈ db.operations
  applications : view.applications = db.applications

/-- What an activation has found before it applies its configuration. -/
structure Accepted (platform : Platform) (db : Db) (held : List Lock) (binding : Binding)
    (input : ActivationRequest) : Prop where
  locked : .application input.desired.application ∈ held
  current : ∀ a ∈ db.applications, a.id = input.desired.application →
    a.configurationRevision ≤ input.desired.configurationRevision
  pending : ∀ id ∈ input.configurationOperations, ∃ row ∈ db.operations, row.id = id ∧
    Adoptable platform binding input.desired row

/-- A request that claims an operation. -/
structure Claims (platform : Platform) (request : Request) (permitted : Bool) (ticket : Ticket)
    (target : Nat) (statements : List Statement)
    (work : Memory → StoredOperation → Db → Option Work) : Prop where
  program : program platform request = claimed permitted ticket statements work
  reading : ∀ s ∈ statements, (∃ organization, s = readApplication target organization) ∨
    ∃ call input applied, request = .activate call input applied ∧
      s = accept platform ticket input
  working : ∀ db view held m row w, Base db view row → row.id = ticket.operation →
    row.binding = ticket.binding →
    (∀ a, m.application = some a → a.id = target ∧ a ∈ db.applications) →
    (m.accepted = true → ∃ call input applied, request = .activate call input applied ∧
      Accepted platform db held ticket.binding input) →
    work m row view = some w → Proper platform db ticket row w

section Handlers

variable {platform : Platform} {db view : Db} {ticket : Ticket} {row : StoredOperation}

/-- Work that leaves the other operations alone. -/
theorem Proper.alone {work : Work} (others : work.others = []) (completes : work.completes = [])
    (completed : work.completed = true) (redacted : work.response.redact.Public)
    (application : ∀ a, work.application = some a →
      ∃ old ∈ db.applications, a = { old with version := a.version })
    (kind : ticket.binding.kind ≠ .configure) : Proper platform db ticket row work where
  others := fun o mem => by
    rw [others] at mem
    exact absurd mem List.not_mem_nil
  application := by
    intro a written old mem named
    obtain ⟨known, knownMem, same⟩ := application a written
    rw [same] at named ⊢
    rw [Table.unique mem knownMem named]
  unconfigured := fun _ => application
  starts := fun unfinished => by
    rw [completed] at unfinished
    cases unfinished
  redacted := redacted
  pending := fun same => absurd same kind
  completes := fun id mem => by
    rw [completes] at mem
    exact absurd mem List.not_mem_nil

theorem public_answer (fields : List (String × Value)) (appSecret key : Option Nat) :
    (plainFields fields ++ appSecret.toList.map (fun secret => ("app_secret", Field.secret secret)) ++
      key.toList.map fun key => ("key", Field.secret key) : Response).redact.Public := by
  refine Response.public_redact fun field mem secret same => ?_
  rcases List.mem_append.mp mem with first | mem
  · rcases List.mem_append.mp first with plain | mem
    · exact absurd same (Response.public_plainFields fields field plain secret)
    · obtain ⟨_, -, rfl⟩ := List.mem_map.mp mem
      exact .inl rfl
  · obtain ⟨_, -, rfl⟩ := List.mem_map.mp mem
    exact .inr rfl

theorem public_secret (fields : List (String × Value)) (secret : Option Nat) :
    (plainFields fields ++ secret.toList.map fun secret => ("app_secret", Field.secret secret) :
      Response).redact.Public := by
  simpa using public_answer fields secret none

theorem applyConfiguration_spec {input : AcceptedConfiguration} {applied : Applied}
    {existing : Option ManagedApplication} {app : ManagedApplication}
    (done : applyConfiguration input applied existing db = some app) :
    app.id = input.application ∧ app.configurationRevision = input.configurationRevision ∧
      (input.visibilityPublic = false → app.reviewStatus ≠ .underReview) ∧
      (existing = none → ∀ old ∈ db.applications, old.id ≠ input.application) := by
  unfold applyConfiguration at done
  simp only [Option.bind_eq_bind, Option.bind_eq_some_iff, Option.guard_eq_some'] at done
  obtain ⟨_, -, _, fresh, _, -, same⟩ := done
  obtain rfl := Option.some.inj same
  refine ⟨rfl, rfl, fun hidden => ?_, fun none old mem same => ?_⟩
  · simp only [configuredStatus, hidden]
    split <;> simp
  · have taken : db.applications.any (fun a => a.id = input.application) = true :=
      Table.any_eq_true.mpr ⟨old, mem, decide_eq_true same⟩
    rw [fresh none] at taken
    cases taken

variable {m : Memory} {w : Work}

/-- A configuration is answered as pending, or it is applied. -/
theorem configure_proper {input : AcceptedConfiguration} {applied : Applied} {secret : Nat} (applications : view.applications = db.applications)
    (known : ∀ a, m.application = some a → a.id = input.application ∧ a ∈ db.applications)
    (done : configure platform input applied secret m row view = some w) :
    Proper platform db ticket row w := by
  have configured : ∀ secret app existing, input.visibilityPublic = false →
      applyConfiguration input applied existing view = some app →
      (∀ old ∈ db.applications, old.id = input.application →
        old.configurationRevision ≤ input.configurationRevision) →
      Proper platform db ticket row (configuredWork input secret app) := by
    intro secret app existing hidden applied older
    obtain ⟨id, revision, shown, -⟩ := applyConfiguration_spec applied
    refine ⟨fun o mem => absurd mem List.not_mem_nil, ?_, fun plain => (by cases plain),
      fun unfinished => (by cases unfinished), public_secret _ _, fun _ state => ?_,
      fun id mem => absurd mem List.not_mem_nil⟩
    · intro a same old mem named
      obtain rfl : app = a := Option.some.inj same
      rw [revision]
      exact older old mem (named.trans id)
    · have accepted : (configuredWork input secret app).response.status = "accepted" := by
        simp [configuredWork, Response.status, Response.get, plainFields, shown hidden]
      rw [accepted] at state
      exact absurd state (by decide)
  unfold configure at done
  split at done
  · rename_i existing found
    obtain ⟨named, mem⟩ := known existing found
    simp only [Option.bind_eq_bind, Option.bind_eq_some_iff, Option.guard_eq_some'] at done
    obtain ⟨current, read, _, higher, _, -, done⟩ := done
    obtain ⟨currentMem, same⟩ := Table.find?_spec read
    rw [applications] at currentMem
    split at done
    · obtain rfl := Option.some.inj done
      refine ⟨fun o mem => absurd mem List.not_mem_nil, fun a written => (by cases written),
        fun _ a written => (by cases written), fun unfinished => (by cases unfinished),
        (Response.public_plainFields _).redact, ?_, fun id mem => absurd mem List.not_mem_nil⟩
      intro _ _
      exact ⟨rfl, rfl, input.toDesired, rfl, by simp [pendingWork, pendingResponse, Response.get,
        plainFields, configurationDigest]⟩
    · rename_i hidden
      obtain ⟨app, applied, rfl⟩ := Option.map_eq_some_iff.mp done
      refine configured none app _ (by simpa using hidden) applied fun old oldMem id => ?_
      obtain rfl := Table.unique oldMem currentMem
        (id.trans (named.symm.trans (of_decide_eq_true same).symm))
      exact Nat.le_of_lt higher
  · simp only [Option.bind_eq_bind, Option.bind_eq_some_iff, Option.guard_eq_some'] at done
    obtain ⟨_, -, _, hidden, done⟩ := done
    obtain ⟨app, applied, rfl⟩ := Option.map_eq_some_iff.mp done
    obtain ⟨-, -, -, fresh⟩ := applyConfiguration_spec applied
    refine configured (some secret) app none hidden applied fun old mem id => ?_
    exact absurd id (fresh rfl old (applications ▸ mem))

theorem activate_proper {input : ActivationRequest} {applied : Applied} {held : List Lock} (base : Base db view row) (own : row.binding = ticket.binding)
    (kind : ticket.binding.kind = .publicationActivation)
    (accepted : m.accepted = true → Accepted platform db held ticket.binding input)
    (done : activate platform ticket.binding input applied m row view = some w) :
    Proper platform db ticket row w := by
  unfold activate at done
  simp only [Option.bind_eq_bind, Option.bind_eq_some_iff, Option.guard_eq_some'] at done
  obtain ⟨_, checked, current, read, app, done, _, -, same⟩ := done
  obtain rfl := Option.some.inj same
  obtain ⟨id, revision, -⟩ := applyConfiguration_spec done
  have accepted := accepted checked
  -- A pending configuration is another operation, and one that was checked.
  have pending : ∀ old ∈ view.operations, old.id ∈ input.configurationOperations →
      pendingConfiguration platform ticket.binding input.desired old →
      old ∈ db.operations ∧ old.id ≠ row.id ∧
        Adoptable platform ticket.binding input.desired old := by
    intro old mem listed waiting
    have differs : old.id ≠ row.id := by
      intro same
      obtain rfl := Table.unique mem base.own same
      have configure := waiting.2.2.1
      rw [own, kind] at configure
      cases configure
    have oldMem := base.old old mem differs
    obtain ⟨other, otherMem, named, adoptable⟩ := accepted.pending old.id listed
    obtain rfl := Table.unique otherMem oldMem named
    exact ⟨oldMem, differs, adoptable⟩
  refine ⟨fun o mem => ?_, fun a same old mem named => ?_, nofun, nofun,
    (Response.public_plainFields _).redact, fun same => ?_, fun other listed => ?_⟩
  · obtain ⟨old, listed, rfl⟩ := List.mem_map.mp mem
    obtain ⟨oldMem, holds⟩ := List.mem_filter.mp listed
    obtain ⟨named, waiting⟩ := of_decide_eq_true holds
    obtain ⟨held, differs, adoptable⟩ := pending old oldMem named waiting
    refine ⟨old, held, rfl, differs, ?_⟩
    exact .adopted input.desired rfl (List.mem_map.mpr ⟨old, listed, rfl⟩) adoptable
  · obtain rfl : app = a := Option.some.inj same
    rw [revision]
    exact accepted.current old mem (named.trans id)
  · rw [kind] at same
    cases same
  · obtain ⟨old, mem, rfl⟩ := List.mem_map.mp listed
    refine ⟨rfl, rfl, Response.public_plainFields _, kind, ⟨_, List.mem_map.mpr ⟨old, mem, rfl⟩, rfl⟩,
      input.desired, rfl, rfl, app, rfl, id, revision⟩

/-- An operation on the application, which keeps its configuration. -/
theorem revise_proper {expected : Nat} {permitted : Bool} {fields : Nat → List (String × Value)}
    {secret : Option Nat} (kind : ticket.binding.kind ≠ .configure)
    (known : ∀ a, m.application = some a → a ∈ db.applications)
    (done : revise expected permitted fields secret m row view = some w) :
    Proper platform db ticket row w := by
  unfold revise at done
  simp only [Option.bind_eq_bind, Option.bind_eq_some_iff, Option.guard_eq_some'] at done
  obtain ⟨app, found, _, -, same⟩ := done
  obtain rfl := Option.some.inj same
  refine .alone rfl rfl rfl (public_secret _ _) (fun a same => ?_) kind
  obtain rfl := Option.some.inj same
  exact ⟨app, known app found, rfl⟩

/-- Work that only answers. -/
theorem Proper.answer {work : Work} (others : work.others = []) (completes : work.completes = [])
    (completed : work.completed = true) (redacted : work.response.redact.Public)
    (application : work.application = none) (kind : ticket.binding.kind ≠ .configure) :
    Proper platform db ticket row work := by
  refine .alone others completes completed redacted (fun a same => ?_) kind
  rw [application] at same
  cases same

theorem plan_proper {service : Nat} {input : PlanRequest}
    (kind : ticket.binding.kind ≠ .configure)
    (done : plan platform service input m row view = some w) : Proper platform db ticket row w := by
  unfold plan at done
  simp only [Option.bind_eq_bind, Option.bind_eq_some_iff, Option.guard_eq_some'] at done
  obtain ⟨app, -, _, -, done⟩ := done
  split at done
  · simp only [Option.bind_eq_some_iff, Option.guard_eq_some'] at done
    obtain ⟨_, -, same⟩ := done
    obtain rfl := Option.some.inj same
    exact .answer rfl rfl rfl (Response.public_plainFields _).redact rfl kind
  · simp only [Option.bind_eq_some_iff, Option.guard_eq_some'] at done
    obtain ⟨_, -, _, -, same⟩ := done
    obtain rfl := Option.some.inj same
    exact .answer rfl rfl rfl (Response.public_plainFields _).redact rfl kind

theorem decidePublication_proper {service : Nat} {input : DecisionRequest}
    (kind : ticket.binding.kind ≠ .configure)
    (done : decidePublication service input m row view = some w) :
    Proper platform db ticket row w := by
  unfold decidePublication at done
  simp only [Option.bind_eq_bind, Option.bind_eq_some_iff, Option.guard_eq_some'] at done
  obtain ⟨app, -, _, -, _, -, _, -, same⟩ := done
  obtain rfl := Option.some.inj same
  exact .answer rfl rfl rfl (Response.public_plainFields _).redact rfl kind

theorem configureBundle_proper {operation : Nat} {revision : Option Nat} {effective : String} (kind : ticket.binding.kind ≠ .configure)
    (done : configureBundle operation revision effective m row view = some w) :
    Proper platform db ticket row w := by
  obtain ⟨revision, -, rfl⟩ := Option.map_eq_some_iff.mp done
  exact .answer rfl rfl rfl (Response.public_plainFields _).redact rfl kind

theorem startTesting_proper {snapshot : Option (List (String × Value))}
    (kind : ticket.binding.kind ≠ .configure)
    (inside : ticket.binding.resource.environment ≠ none)
    (done : startTesting snapshot m row view = some w) : Proper platform db ticket row w := by
  obtain ⟨snapshot, -, rfl⟩ := Option.map_eq_some_iff.mp done
  refine ⟨fun o mem => absurd mem List.not_mem_nil, nofun, nofun,
    fun _ => ⟨inside, Response.public_plainFields _⟩, (Response.public_plainFields _).redact,
    fun same => absurd same kind, fun id mem => absurd mem List.not_mem_nil⟩

theorem finishTesting_proper {result : Option TestingResult}
    (base : Base db view row) (kind : ticket.binding.kind ≠ .configure)
    (done : finishTesting platform ticket result m row view = some w) :
    Proper platform db ticket row w := by
  unfold finishTesting at done
  simp only [Option.bind_eq_bind, Option.bind_eq_some_iff] at done
  obtain ⟨result, -, same⟩ := done
  obtain rfl := Option.some.inj same
  refine ⟨fun o mem => ?_, nofun, nofun, nofun,
    public_answer _ _ _, fun same => absurd same kind, fun id mem => absurd mem List.not_mem_nil⟩
  cases purges : result.purge with
  | none =>
      rw [purges] at mem
      exact absurd mem List.not_mem_nil
  | some environment =>
      rw [purges] at mem
      obtain ⟨old, listed, rfl⟩ := List.mem_map.mp mem
      obtain ⟨oldMem, holds⟩ := List.mem_filter.mp listed
      obtain ⟨differs, -, within, -⟩ := of_decide_eq_true holds
      exact ⟨old, base.old old oldMem differs, rfl, differs, .purged environment rfl within⟩

theorem testingResource_environment (environment : Nat) (app : Option Nat) :
    (testingResource environment app).environment = some environment := by
  cases app <;> rfl

/-- Every request but a foreign write claims an operation. -/
theorem claims (platform : Platform) (request : Request) :
    (∃ row, request = .writeApplication row) ∨ ∃ permitted ticket target statements work,
      Claims platform request permitted ticket target statements work := by
  have single : ∀ (request : Request) (ticket : Ticket) (target : Nat) (organization : Option Nat),
      ∀ s ∈ [readApplication target organization],
        (∃ organization, s = readApplication target organization) ∨
          ∃ call input applied, request = .activate call input applied ∧
            s = accept platform ticket input := by
    intro request ticket target organization s mem
    exact .inl ⟨organization, List.mem_singleton.mp mem⟩
  cases request with
  | configure call input applied secret =>
      refine .inr ⟨_, _, input.application, _, _, rfl, single _ _ _ _, ?_⟩
      intro db view held m row w base _ own known _ done
      exact configure_proper base.applications known done
  | plan call input =>
      refine .inr ⟨_, _, input.desired.application, _, _, rfl, single _ _ _ _, ?_⟩
      intro db view held m row w base _ own known _ done
      exact plan_proper (by simp [Call.ticket]) done
  | decide call input =>
      refine .inr ⟨_, _, input.application, _, _, rfl, single _ _ _ _, ?_⟩
      intro db view held m row w base _ own known _ done
      exact decidePublication_proper (by simp [Call.ticket]) done
  | activate call input applied =>
      refine .inr ⟨_, _, input.desired.application, _, _, rfl, fun s mem => ?_, ?_⟩
      · rcases List.mem_cons.mp mem with rfl | mem
        · exact .inl ⟨none, rfl⟩
        · exact .inr ⟨call, input, applied, rfl, List.mem_singleton.mp mem⟩
      · intro db view held m row w base _ own _ accepted done
        have checks : m.accepted = true → Accepted platform db held (call.ticket input.operation
            .publicationActivation (.application input.desired.application)).binding input := by
          intro checked
          obtain ⟨_, _, _, same, holds⟩ := accepted checked
          cases same
          exact holds
        exact activate_proper base own rfl checks done
  | rotate call input secret credentialVersion =>
      refine .inr ⟨_, _, input.application, _, _, rfl, single _ _ _ _, ?_⟩
      intro db view held m row w base _ own known _ done
      exact revise_proper (by simp [Call.ticket]) (fun a found => (known a found).2) done
  | rotateWebhookSecret call input version =>
      refine .inr ⟨_, _, input.application, _, _, rfl, single _ _ _ _, ?_⟩
      intro db view held m row w base _ own known _ done
      exact revise_proper (by simp [Call.ticket]) (fun a found => (known a found).2) done
  | scopeDecision call input decision scopes =>
      refine .inr ⟨_, _, input.application, _, _, rfl, single _ _ _ _, ?_⟩
      intro db view held m row w base _ own known _ done
      exact revise_proper (by simp [Call.ticket]) (fun a found => (known a found).2) done
  | webhookApproval call input pendingEndpoint =>
      refine .inr ⟨_, _, input.application, _, _, rfl, single _ _ _ _, ?_⟩
      intro db view held m row w base _ own known _ done
      exact revise_proper (by simp [Call.ticket]) (fun a found => (known a found).2) done
  | configureBundle call operation bundle revision effective =>
      refine .inr ⟨_, _, 0, [], _, rfl, fun s mem => absurd mem List.not_mem_nil, ?_⟩
      intro db view held m row w base _ own known _ done
      exact configureBundle_proper (by simp [Call.ticket]) done
  | startTesting call operation environment app kind snapshot =>
      refine .inr ⟨_, _, 0, [], _, rfl, fun s mem => absurd mem List.not_mem_nil, ?_⟩
      intro db view held m row w base _ own known _ done
      refine startTesting_proper (by simp [Call.ticket]) ?_ done
      simp [Call.ticket, testingResource_environment]
  | finishTesting call operation environment app kind result =>
      refine .inr ⟨_, _, 0, [], _, rfl, fun s mem => absurd mem List.not_mem_nil, ?_⟩
      intro db view held m row w base _ own known _ done
      exact finishTesting_proper base (by simp [Call.ticket]) done
  | writeApplication row => exact .inl ⟨row, rfl⟩

end Handlers

/-! ## What an open transaction knows -/

/-- How far the claim of a transaction has come. -/
inductive Facts (platform : Platform) (db : Db) (ticket : Ticket) (t : Transaction) : Prop
  | unclaimed (claim : t.memory.claim = .unclaimed) (pending : t.pending = [])
  | locked (claim : t.memory.claim = .locked) (pending : t.pending = [])
      (key : .key ticket.binding.service ticket.binding.idempotencyDigest ∈ t.held)
  | missing (claim : t.memory.claim = .missing) (pending : t.pending = [])
      (key : .key ticket.binding.service ticket.binding.idempotencyDigest ∈ t.held)
      (absent : ∀ other ∈ db.operations, other.binding.service = ticket.binding.service →
        other.binding.idempotencyDigest = ticket.binding.idempotencyDigest →
        other.binding.actor ≠ ticket.binding.actor)
  | conflict (claim : t.memory.claim = .conflict) (pending : t.pending = [])
      (key : .key ticket.binding.service ticket.binding.idempotencyDigest ∈ t.held)
      (apart : ∀ row ∈ db.operations, row.id = ticket.operation → row.binding ≠ ticket.binding)
  | replay (row : StoredOperation) (response : Response)
      (claim : t.memory.claim = .replay row response) (pending : t.pending = [])
      (mem : row ∈ db.operations) (locked : .operation row.id ∈ t.held)
      (completed : row.completed = true) (named : row.id = ticket.operation)
      (binding : row.binding = ticket.binding) (replay : row.replay ticket.claimedAt = some response)
  | acquired (row : StoredOperation) (claim : t.memory.claim = .acquired row)
      (owned : Owned db ticket t.held row t.pending)
  | refused (claim : t.memory.claim = .finished)
      (pending : t.pending = [.receipt (ticket.receipt .conflict)])
      (key : .key ticket.binding.service ticket.binding.idempotencyDigest ∈ t.held)
      (apart : ∀ row ∈ db.operations, row.id = ticket.operation → row.binding ≠ ticket.binding)
  | replayed (row : StoredOperation) (response : Response) (claim : t.memory.claim = .finished)
      (pending : t.pending = [.receipt (ticket.receipt (.replayed response))])
      (mem : row ∈ db.operations) (locked : .operation row.id ∈ t.held)
      (completed : row.completed = true) (named : row.id = ticket.operation)
      (binding : row.binding = ticket.binding) (replay : row.replay ticket.claimedAt = some response)
  | worked (row : StoredOperation) (base : List Write) (view : Db) (work : Work)
      (claim : t.memory.claim = .finished) (owned : Owned db ticket t.held row base)
      (proper : Proper platform db ticket row work) (entered : Entered db t.held row)
      (locked : ∀ l ∈ work.locks row, l ∈ t.held)
      (pending : t.pending = base ++ work.writes ticket row view)

/-- What the statements between the claim and the work have read. -/
structure Reads (platform : Platform) (db : Db) (ticket : Ticket) (target : Nat) (t : Transaction) :
    Prop where
  application : ∀ a, t.memory.application = some a →
    a.id = target ∧ a ∈ db.applications ∧ .application a.id ∈ t.held
  accepted : t.memory.accepted = true → ∃ call input applied,
    t.request = .activate call input applied ∧ Accepted platform db t.held ticket.binding input

/-- A foreign write of an application: it keeps the revision that is there. -/
inductive Writing (db : Db) (t : Transaction) (row : ManagedApplication) : Prop
  | before (rest : t.rest = [writeApplication row]) (pending : t.pending = [])
  | after (a : ManagedApplication) (pending : t.pending = [.application a])
      (locked : .application a.id ∈ t.held)
      (kept : ∀ old ∈ db.applications, old.id = a.id →
        old.configurationRevision ≤ a.configurationRevision) (rest : t.rest = [])

inductive At (platform : Platform) (db : Db) (t : Transaction) : Prop
  | claimed (permitted : Bool) (ticket : Ticket) (target : Nat) (statements : List Statement)
      (work : Memory → StoredOperation → Db → Option Work)
      (claims : Claims platform t.request permitted ticket target statements work)
      (rest : t.rest <:+ program platform t.request)
      (ending : t.rest = [] → t.memory.claim = .finished)
      (reads : Reads platform db ticket target t) (facts : Facts platform db ticket t)
  | writing (row : ManagedApplication) (writing : Writing db t row)

/-! ## What others see of a commit -/

/-- The locks behind a row that is written, by where the row comes from. -/
inductive Origin (db : Db) (held : List Lock) (row : StoredOperation) : Prop
  | born (fresh : ∀ other ∈ db.operations, other.id ≠ row.id)
      (key : .key row.binding.service row.binding.idempotencyDigest ∈ held)
      (index : .index row.binding.service row.environment row.binding.idempotencyDigest ∈ held)
  | owned (old : StoredOperation) (mem : old ∈ db.operations) (named : old.id = row.id)
      (binding : old.binding = row.binding) (unfinished : old.completed = false)
      (index : old.environment = row.environment ∨
        .index row.binding.service row.environment row.binding.idempotencyDigest ∈ held)
  | touched (old : StoredOperation) (mem : old ∈ db.operations) (named : old.id = row.id)
      (binding : old.binding = row.binding) (environment : old.environment = row.environment)
      (guarded : old.environment ≠ none ∨ ∃ app, old.binding.resource = .application app ∧
        .application app ∈ held)

/-- What a transaction that is about to commit has locked of what it writes. -/
structure Footprint (db : Db) (held : List Lock) (pending : List Write) : Prop where
  operations : ∀ row, .operation row ∈ pending →
    .operation row.id ∈ held ∧ Origin db held row
  applications : ∀ a, .application a ∈ pending → .application a.id ∈ held

section Stability

variable {platform : Platform} {db : Db} {t u : Transaction} {ticket : Ticket}

/-- Pending writes that touch neither operations nor applications. -/
theorem Footprint.untouched {held : List Lock} {pending : List Write}
    (operations : ∀ row, .operation row ∉ pending)
    (applications : ∀ a, .application a ∉ pending) : Footprint db held pending where
  operations := fun row mem => absurd mem (operations row)
  applications := fun a mem => absurd mem (applications a)

theorem Owned.origin {held : List Lock} {row : StoredOperation} {base : List Write}
    (owned : Owned db ticket held row base) {next : StoredOperation} (named : next.id = row.id)
    (binding : next.binding = row.binding)
    (index : row.environment = next.environment ∨
      .index next.binding.service next.environment next.binding.idempotencyDigest ∈ held) :
    Origin db held next := by
  cases owned with
  | found mem _ _ unfinished => exact .owned row mem named.symm binding.symm unfinished index
  | inserted same unclaimed _ key free =>
      subst same
      refine .born (fun other mem => ?_) ?_ ?_
      · rw [named]
        exact unclaimed.fresh other mem
      · rw [binding]
        exact key
      · rcases index with same | index
        · rw [← same, binding]
          exact free
        · exact index

/-- A finished transaction writes what it has locked. -/
theorem At.footprint (at_ : At platform db u) (done : u.rest = []) :
    Footprint db u.held u.pending := by
  cases at_ with
  | writing row writing =>
      cases writing with
      | before rest =>
          rw [rest] at done
          exact absurd done (List.cons_ne_nil _ _)
      | after a pending locked =>
          rw [pending]
          refine ⟨fun row mem => by simp at mem, fun other mem => ?_⟩
          obtain rfl : other = a := by simpa using mem
          exact locked
  | claimed permitted ticket target statements work claims rest ending reads facts =>
      have finished := ending done
      cases facts with
      | unclaimed claim => rw [claim] at finished; cases finished
      | locked claim => rw [claim] at finished; cases finished
      | missing claim => rw [claim] at finished; cases finished
      | conflict claim => rw [claim] at finished; cases finished
      | replay row response claim => rw [claim] at finished; cases finished
      | acquired row claim => rw [claim] at finished; cases finished
      | refused claim pending =>
          rw [pending]
          exact .untouched (by simp) (by simp)
      | replayed row response claim pending =>
          rw [pending]
          exact .untouched (by simp) (by simp)
      | worked row base view work claim owned proper entered locked pending =>
          rw [pending]
          refine ⟨fun next mem => ?_, fun a mem => ?_⟩
          · rcases List.mem_append.mp mem with first | later
            · rw [owned.mem_base first]
              exact ⟨owned.locked, owned.origin rfl rfl (.inl rfl)⟩
            · rcases Work.mem_writes_operation.mp later with listed | rfl
              · obtain ⟨old, oldMem, named, -, touched⟩ := proper.others next listed
                obtain ⟨id, binding, environment⟩ := touched.same
                refine ⟨locked _ (Work.mem_locks_other listed),
                  .touched old oldMem named binding.symm environment.symm ?_⟩
                · cases touched with
                  | purged env _ within => exact .inl (by rw [within]; simp)
                  | adopted desired requested completed adoptable =>
                      obtain ⟨-, -, -, -, -, other, same, -, a, written, target, -⟩ :=
                        proper.completes old.id completed
                      obtain rfl : other = desired := Option.some.inj (same.symm.trans requested)
                      refine .inr ⟨_, adoptable.pending.2.2.2.1, ?_⟩
                      rw [← target]
                      exact locked _ (Work.mem_locks_application written)
              · refine ⟨by rw [Work.row_id]; exact owned.locked,
                  owned.origin (Work.row_id _ _ _) (Work.row_binding _ _ _) ?_⟩
                rw [Work.row_environment, Work.row_binding]
                exact entered.imp id And.left
          · rcases List.mem_append.mp mem with first | later
            · exact absurd first owned.base_application
            · have written := Work.mem_writes_application.mp later
              exact locked _ (Work.mem_locks_application written)

namespace Footprint

variable {held others : List Lock} {pending : List Write}

theorem mem_of_mem (foot : Footprint db others pending) (apart : ∀ k ∈ held, k ∉ others)
    {row : StoredOperation} (mem : row ∈ db.operations) (locked : .operation row.id ∈ held) :
    row ∈ ((engine platform).view db pending).operations := by
  refine mem_operations _ mem fun next listed same => ?_
  exact apart _ locked (same ▸ (foot.operations next listed).1)

theorem application_of_mem (foot : Footprint db others pending) (apart : ∀ k ∈ held, k ∉ others)
    {a : ManagedApplication} (mem : a ∈ db.applications) (locked : .application a.id ∈ held) :
    a ∈ ((engine platform).view db pending).applications := by
  refine mem_applications _ mem fun next listed same => ?_
  exact apart _ locked (same ▸ foot.applications next listed)

theorem of_application_mem (foot : Footprint db others pending) (apart : ∀ k ∈ held, k ∉ others)
    {a : ManagedApplication} (mem : a ∈ ((engine platform).view db pending).applications)
    (locked : .application a.id ∈ held) : a ∈ db.applications := by
  rcases of_mem_applications _ mem with written | old
  · exact absurd (foot.applications a written) (apart _ locked)
  · exact old

/-- A row after the commit of others: one that was there, or one whose id was new. -/
theorem before (foot : Footprint db others pending) {next : StoredOperation}
    (mem : next ∈ ((engine platform).view db pending).operations) :
    (∃ old ∈ db.operations, old.id = next.id ∧ old.binding = next.binding ∧
      (old.environment = next.environment ∨ .index next.binding.service next.environment
        next.binding.idempotencyDigest ∈ others)) ∨
    .operation next.id ∈ others ∧
      .key next.binding.service next.binding.idempotencyDigest ∈ others ∧
      .index next.binding.service next.environment next.binding.idempotencyDigest ∈ others := by
  rcases of_mem_operations _ mem with written | ⟨old, -⟩
  · obtain ⟨locked, origin⟩ := foot.operations next written
    cases origin with
    | born fresh key index => exact .inr ⟨locked, key, index⟩
    | owned old oldMem named binding unfinished index =>
        exact .inl ⟨old, oldMem, named, binding, index⟩
    | touched old oldMem named binding environment =>
        exact .inl ⟨old, oldMem, named, binding, .inl environment⟩
  · exact .inl ⟨next, old, rfl, rfl, .inl rfl⟩

theorem absent (foot : Footprint db others pending) (apart : ∀ k ∈ held, k ∉ others)
    {service key actor : Nat} (locked : .key service key ∈ held)
    (absent : ∀ other ∈ db.operations, other.binding.service = service →
      other.binding.idempotencyDigest = key → other.binding.actor ≠ actor) :
    ∀ other ∈ ((engine platform).view db pending).operations, other.binding.service = service →
      other.binding.idempotencyDigest = key → other.binding.actor ≠ actor := by
  rintro other mem rfl rfl
  rcases foot.before mem with ⟨old, oldMem, -, binding, -⟩ | ⟨-, taken, -⟩
  · rw [← binding]
    exact absent old oldMem (by rw [binding]) (by rw [binding])
  · exact absurd taken (apart _ locked)

theorem differs (foot : Footprint db others pending) (apart : ∀ k ∈ held, k ∉ others)
    (locked : .key ticket.binding.service ticket.binding.idempotencyDigest ∈ held)
    (differs : ∀ row ∈ db.operations, row.id = ticket.operation → row.binding ≠ ticket.binding) :
    ∀ row ∈ ((engine platform).view db pending).operations, row.id = ticket.operation →
      row.binding ≠ ticket.binding := by
  intro row mem same binding
  rcases foot.before mem with ⟨old, oldMem, named, kept, -⟩ | ⟨-, taken, -⟩
  · exact differs old oldMem (named.trans same) (kept.trans binding)
  · rw [binding] at taken
    exact apart _ locked taken

theorem unclaimed (foot : Footprint db others pending) (apart : ∀ k ∈ held, k ∉ others)
    (unclaimed : Unclaimed db ticket) (locked : .operation ticket.operation ∈ held)
    (key : .key ticket.binding.service ticket.binding.idempotencyDigest ∈ held)
    (index : .index ticket.binding.service none ticket.binding.idempotencyDigest ∈ held) :
    Unclaimed ((engine platform).view db pending) ticket where
  fresh := by
    intro other mem same
    rcases foot.before mem with ⟨old, oldMem, named, -⟩ | ⟨taken, -⟩
    · exact unclaimed.fresh old oldMem (named.trans same)
    · exact apart _ locked (same ▸ taken)
  keys := by
    rintro other mem ⟨service, digest, compared⟩
    rcases foot.before mem with ⟨old, oldMem, -, binding, environment⟩ | ⟨-, taken, -⟩
    · refine unclaimed.keys old oldMem ?_
      rw [SameKey, binding]
      refine ⟨service, digest, compared.imp id fun outside => ?_⟩
      rcases environment with same | taken
      · exact same.trans outside
      · rw [service, digest, outside] at taken
        exact absurd taken (apart _ index)
    · rw [service, digest] at taken
      exact apart _ key taken

theorem entered (foot : Footprint db others pending) (apart : ∀ k ∈ held, k ∉ others)
    {row : StoredOperation} (entered : Entered db held row) :
    Entered ((engine platform).view db pending) held row := by
  rcases entered with inside | ⟨index, free⟩
  · exact .inl inside
  · refine .inr ⟨index, fun other mem differs service digest environment => ?_⟩
    rcases foot.before mem with ⟨old, oldMem, named, binding, same | taken⟩ | ⟨-, -, taken⟩
    · exact free old oldMem (named ▸ differs) (binding ▸ service) (binding ▸ digest)
        (same.trans environment)
    · rw [service, digest, environment] at taken
      exact apart _ index taken
    · rw [service, digest, environment] at taken
      exact apart _ index taken

theorem owned (foot : Footprint db others pending) (apart : ∀ k ∈ held, k ∉ others)
    {row : StoredOperation} {base : List Write} (owned : Owned db ticket held row base) :
    Owned ((engine platform).view db pending) ticket held row base := by
  cases owned with
  | found mem named binding unfinished locked =>
      exact .found (foot.mem_of_mem apart mem locked) named binding unfinished locked
  | inserted same unclaimed locked key index =>
      have id : Lock.operation ticket.operation ∈ held := by
        subst same
        exact locked
      exact .inserted same (foot.unclaimed apart unclaimed id key index) locked key index

theorem proper (foot : Footprint db others pending) (apart : ∀ k ∈ held, k ∉ others)
    {row : StoredOperation} {work : Work} (proper : Proper platform db ticket row work)
    (locked : ∀ l ∈ work.locks row, l ∈ held) :
    Proper platform ((engine platform).view db pending) ticket row work :=
  { proper with
    others := by
      intro o listed
      obtain ⟨old, mem, named, differs, touched⟩ := proper.others o listed
      refine ⟨old, foot.mem_of_mem apart mem ?_, named, differs, touched⟩
      rw [named]
      exact locked _ (Work.mem_locks_other listed)
    application := by
      intro a written old mem named
      have guarded := locked _ (Work.mem_locks_application written)
      exact proper.application a written old
        (foot.of_application_mem apart mem (named ▸ guarded)) named
    unconfigured := by
      intro unconfigured a written
      obtain ⟨old, mem, same⟩ := proper.unconfigured unconfigured a written
      have guarded := locked _ (Work.mem_locks_application written)
      refine ⟨old, foot.application_of_mem apart mem ?_, same⟩
      rw [same] at guarded
      exact guarded }

/-- What is pending stays pending: only an activation of the application completes it. -/
theorem adoptable (foot : Footprint db others pending) (sound : Sound platform db)
    (apart : ∀ k ∈ held, k ∉ others) {binding : Binding} {desired : Desired}
    (locked : .application desired.application ∈ held) {row : StoredOperation}
    (mem : row ∈ db.operations) (adoptable : Adoptable platform binding desired row) :
    row ∈ ((engine platform).view db pending).operations := by
  refine mem_operations _ mem fun next listed same => ?_
  obtain ⟨-, origin⟩ := foot.operations next listed
  have resource := adoptable.pending.2.2.2.1
  cases origin with
  | born fresh => exact fresh row mem same.symm
  | owned old oldMem named _ unfinished =>
      obtain rfl := Table.unique oldMem mem (named.trans same)
      rw [adoptable.completed] at unfinished
      cases unfinished
  | touched old oldMem named _ _ guarded =>
      obtain rfl := Table.unique oldMem mem (named.trans same)
      rcases guarded with inside | ⟨app, other, taken⟩
      · refine inside ?_
        rw [sound.environments old oldMem, resource]
        rfl
      · obtain rfl : desired.application = app := Resource.application.inj (resource.symm.trans other)
        exact apart _ locked taken

theorem accepted (foot : Footprint db others pending) (sound : Sound platform db)
    (apart : ∀ k ∈ held, k ∉ others) {binding : Binding} {input : ActivationRequest}
    (accepted : Accepted platform db held binding input) :
    Accepted platform ((engine platform).view db pending) held binding input where
  locked := accepted.locked
  current := by
    intro a mem named
    exact accepted.current a
      (foot.of_application_mem apart mem (named ▸ accepted.locked)) named
  pending := by
    intro id listed
    obtain ⟨row, mem, named, adoptable⟩ := accepted.pending id listed
    exact ⟨row, foot.adoptable sound apart accepted.locked mem adoptable, named, adoptable⟩

end Footprint

/-- The commits of others change nothing that the transaction knows. -/
theorem At.stable (sound : Sound platform db) (tAt : At platform db t) (uAt : At platform db u)
    (done : u.rest = []) (compatible : (engine platform).Compatible t u) :
    At platform ((engine platform).view db u.pending) t := by
  have foot := uAt.footprint done
  have apart : ∀ k ∈ t.held, k ∉ u.held := fun k mine => compatible.excluded mine (decide_eq_true rfl)
  cases tAt with
  | writing row writing =>
      refine .writing row ?_
      cases writing with
      | before rest pending => exact .before rest pending
      | after a pending locked kept finished =>
          refine .after a pending locked (fun old mem named => ?_) finished
          exact kept old (foot.of_application_mem apart mem (named ▸ locked)) named
  | claimed permitted ticket target statements work claims rest ending reads facts =>
      refine .claimed permitted ticket target statements work claims rest ending ?_ ?_
      · refine ⟨fun a found => ?_, fun checked => ?_⟩
        · obtain ⟨named, mem, locked⟩ := reads.application a found
          exact ⟨named, foot.application_of_mem apart mem locked, locked⟩
        · obtain ⟨call, input, applied, request, accepted⟩ := reads.accepted checked
          exact ⟨call, input, applied, request, foot.accepted sound apart accepted⟩
      · cases facts with
        | unclaimed claim pending => exact .unclaimed claim pending
        | locked claim pending key => exact .locked claim pending key
        | missing claim pending key absent =>
            exact .missing claim pending key (foot.absent apart key absent)
        | conflict claim pending key differs =>
            exact .conflict claim pending key (foot.differs apart key differs)
        | replay row response claim pending mem locked completed named binding replay =>
            exact .replay row response claim pending (foot.mem_of_mem apart mem locked) locked
              completed named binding replay
        | acquired row claim owned => exact .acquired row claim (foot.owned apart owned)
        | refused claim pending key differs =>
            exact .refused claim pending key (foot.differs apart key differs)
        | replayed row response claim pending mem locked completed named binding replay =>
            exact .replayed row response claim pending (foot.mem_of_mem apart mem locked) locked
              completed named binding replay
        | worked row base view work claim owned proper entered locked pending =>
            exact .worked row base view work claim (foot.owned apart owned)
              (foot.proper apart proper locked) (foot.entered apart entered) locked pending

end Stability

end SiliconIam.Applications.Honeycomb
