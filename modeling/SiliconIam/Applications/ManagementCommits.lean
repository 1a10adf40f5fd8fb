/-
# Applications.ManagementCommits -- what a transaction brings about when it commits

A transaction owns the row of its operation (`Owned`): it has found it open and locked
it, or inserted it under an id and a key that are free.  `Proper` is what its work may
do to other rows.  `Sound.commit` puts the two together: the database after the commit
is sound.
-/
import SiliconIam.Applications.ManagementInvariants

namespace SiliconIam.Applications.Honeycomb

open SiliconIam.Theory SiliconIam.Theory.Transactions

set_option autoImplicit false

/-! ## The tables after some writes -/

section Views

variable {platform : Platform} {db : Db}

theorem of_mem_operations {row : StoredOperation} (ws : List Write)
    (mem : row ∈ ((engine platform).view db ws).operations) :
    .operation row ∈ ws ∨
      (row ∈ db.operations ∧ ∀ other, .operation other ∈ ws → other.id ≠ row.id) := by
  have step (db : Db) (write : Write) (mem : row ∈ (db.apply write).operations) :
      write = .operation row ∨
        (row ∈ db.operations ∧ ∀ other, write = .operation other → other.id ≠ row.id) := by
    cases write with
    | operation written =>
        rcases Table.mem_upsert.mp mem with rfl | ⟨old, differs⟩
        · exact .inl rfl
        · refine .inr ⟨old, fun other same => ?_⟩
          obtain rfl := Write.operation.inj same
          exact differs.symm
    | _ => exact .inr ⟨mem, fun _ same => nomatch same⟩
  rcases Engine.view_origin (P := fun later : Db => row ∈ later.operations) step mem with
    ⟨write, written, rfl⟩ | ⟨held, left⟩
  · exact .inl written
  · exact .inr ⟨held, fun other listed same => left _ listed other rfl same⟩

theorem mem_operations {row : StoredOperation} (ws : List Write) (mem : row ∈ db.operations)
    (apart : ∀ other, .operation other ∈ ws → other.id ≠ row.id) :
    row ∈ ((engine platform).view db ws).operations := by
  refine Engine.view_induction (P := fun later : Db => row ∈ later.operations) mem ?_
  intro later write listed held
  cases write with
  | operation written => exact Table.mem_upsert.mpr (.inr ⟨held, (apart written listed).symm⟩)
  | _ => exact held

/-- No id is lost. -/
theorem kept_operations (ws : List Write) :
    Table.Kept db.operations ((engine platform).view db ws).operations := by
  refine Engine.view_induction (P := fun later : Db => Table.Kept db.operations later.operations) (.refl _) ?_
  intro later write _ held
  cases write with
  | operation written => exact held.trans (.upsert _ written)
  | _ => exact held

theorem of_mem_applications {row : ManagedApplication} (ws : List Write) :
    row ∈ ((engine platform).view db ws).applications →
      .application row ∈ ws ∨ row ∈ db.applications := by
  refine Engine.view_induction (P := fun later : Db => row ∈ later.applications →
    .application row ∈ ws ∨ row ∈ db.applications) .inr ?_
  intro later write listed known mem
  cases write with
  | application written =>
      rcases Table.mem_upsert.mp mem with rfl | ⟨old, -⟩
      · exact .inl listed
      · exact known old
  | _ => exact known mem

theorem mem_applications {row : ManagedApplication} (ws : List Write) (mem : row ∈ db.applications)
    (apart : ∀ other, .application other ∈ ws → other.id ≠ row.id) :
    row ∈ ((engine platform).view db ws).applications := by
  refine Engine.view_induction (P := fun later : Db => row ∈ later.applications) mem ?_
  intro later write listed held
  cases write with
  | application written => exact Table.mem_upsert.mpr (.inr ⟨held, (apart written listed).symm⟩)
  | _ => exact held

theorem kept_applications (ws : List Write) :
    Table.Kept db.applications ((engine platform).view db ws).applications := by
  refine Engine.view_induction (P := fun later : Db => Table.Kept db.applications later.applications) (.refl _) ?_
  intro later write _ held
  cases write with
  | application written => exact held.trans (.upsert _ written)
  | _ => exact held

def receiptsOf (ws : List Write) : List Receipt :=
  ws.filterMap fun write =>
    match write with
    | .receipt receipt => some receipt
    | _ => none

theorem view_receipts (ws : List Write) :
    ∀ {db : Db}, ((engine platform).view db ws).receipts = db.receipts ++ receiptsOf ws := by
  induction ws with
  | nil =>
      intro db
      rw [Engine.view_nil, receiptsOf, List.filterMap_nil, List.append_nil]
  | cons write rest ih =>
      intro db
      rw [Engine.view_cons, ih]
      cases write with
      | receipt receipt =>
          show (db.receipts ++ [receipt]) ++ receiptsOf rest = db.receipts ++ receipt :: receiptsOf rest
          rw [List.append_assoc, List.singleton_append]
      | _ => rfl

/-- The payloads of events stay without secrets. -/
theorem view_events {ws : List Write} (shown : ∀ event ∈ db.events, event.payload.Public)
    (written : ∀ event, .event event ∈ ws → event.payload.Public) :
    ∀ event ∈ ((engine platform).view db ws).events, event.payload.Public := by
  refine Engine.view_induction (P := fun db : Db => ∀ event ∈ db.events, event.payload.Public) shown ?_
  intro db write mem shown event held
  cases write with
  | event added =>
      rcases List.mem_append.mp held with old | new
      · exact shown event old
      · obtain rfl := List.mem_singleton.mp new
        exact written event mem
  | purgeEvents service environment =>
      obtain ⟨old, oldMem, rfl⟩ := List.mem_map.mp held
      split
      · exact Response.public_plainFields _
      · exact shown old oldMem
  | _ => exact shown event held

end Views

/-! ## Owning the operation -/

/-- The id and the key of a request are free. -/
structure Unclaimed (db : Db) (ticket : Ticket) : Prop where
  fresh : ∀ other ∈ db.operations, other.id ≠ ticket.operation
  keys : ∀ other ∈ db.operations, ¬ SameKey other ticket.fresh

/-- The transaction owns the row of its operation; `base` is what it has written for it. -/
inductive Owned (db : Db) (ticket : Ticket) (held : List Lock) (row : StoredOperation) :
    List Write → Prop
  | found (mem : row ∈ db.operations) (named : row.id = ticket.operation)
      (binding : row.binding = ticket.binding) (unfinished : row.completed = false)
      (locked : .operation row.id ∈ held) : Owned db ticket held row []
  | inserted (same : row = ticket.fresh) (unclaimed : Unclaimed db ticket)
      (locked : .operation row.id ∈ held)
      (key : .key ticket.binding.service ticket.binding.idempotencyDigest ∈ held)
      (index : .index ticket.binding.service none ticket.binding.idempotencyDigest ∈ held) :
      Owned db ticket held row [.operation row]

/-- The environment that the row enters has no other operation of its key. -/
def Entered (db : Db) (held : List Lock) (row : StoredOperation) : Prop :=
  row.environment = row.binding.resource.environment ∨
    .index row.binding.service row.binding.resource.environment row.binding.idempotencyDigest ∈
        held ∧
      ∀ other ∈ db.operations, other.id ≠ row.id →
        other.binding.service = row.binding.service →
        other.binding.idempotencyDigest = row.binding.idempotencyDigest →
        other.environment ≠ row.binding.resource.environment

/-- A pending configuration of exactly this digest. -/
structure Adoptable (platform : Platform) (binding : Binding) (desired : Desired)
    (old : StoredOperation) : Prop where
  pending : pendingConfiguration platform binding desired old
  digest : old.result.get "configuration_digest" =
    some (.plain (.digest (platform.sha256 desired)))
  completed : old.completed = true

inductive Touched (platform : Platform) (ticket : Ticket) (work : Work) (old : StoredOperation) :
    StoredOperation → Prop
  | adopted (desired : Desired) (requested : work.requested = some desired)
      (listed : old.id ∈ work.completes) (adoptable : Adoptable platform ticket.binding desired old) :
      Touched platform ticket work old (old.adopt work.response work.revision)
  | purged (environment : Nat) (purges : work.purges = some environment)
      (within : old.environment = some environment) :
      Touched platform ticket work old (old.purge ticket.completedAt environment)

/-- What the work of an operation may do. -/
structure Proper (platform : Platform) (db : Db) (ticket : Ticket) (row : StoredOperation)
    (work : Work) : Prop where
  others : ∀ o ∈ work.others, ∃ old ∈ db.operations, old.id = o.id ∧ old.id ≠ row.id ∧
    Touched platform ticket work old o
  application : ∀ a, work.application = some a → ∀ old ∈ db.applications, old.id = a.id →
    old.configurationRevision ≤ a.configurationRevision
  unconfigured : work.configured = false → ∀ a, work.application = some a →
    ∃ old ∈ db.applications, a = { old with version := a.version }
  starts : work.completed = false →
    ticket.binding.resource.environment ≠ none ∧ work.response.Public
  redacted : work.response.redact.Public
  pending : ticket.binding.kind = .configure → work.response.status = "pending" →
    work.application = none ∧ work.secret = false ∧ ∃ asked, work.requested = some asked ∧
      work.response.get "configuration_digest" = some (.plain (.digest (platform.sha256 asked)))
  completes : ∀ id ∈ work.completes, work.purges = none ∧ work.completed = true ∧
    work.response.Public ∧ ticket.binding.kind = .publicationActivation ∧
    (∃ o ∈ work.others, o.id = id) ∧
    ∃ desired, work.requested = some desired ∧ work.configured = true ∧
      ∃ a, work.application = some a ∧ a.id = desired.application ∧
        a.configurationRevision = desired.configurationRevision

section Commit

variable {platform : Platform} {db view : Db} {ticket : Ticket} {held : List Lock}
variable {row : StoredOperation} {base : List Write} {work : Work}

namespace Owned

theorem named (owned : Owned db ticket held row base) : row.id = ticket.operation := by
  cases owned with
  | found mem named => exact named
  | inserted same => rw [same, Ticket.fresh]

theorem binding (owned : Owned db ticket held row base) : row.binding = ticket.binding := by
  cases owned with
  | found mem named binding => exact binding
  | inserted same => rw [same, Ticket.fresh]

theorem locked (owned : Owned db ticket held row base) : .operation row.id ∈ held := by
  cases owned with
  | found mem named binding unfinished locked => exact locked
  | inserted same unclaimed locked => exact locked

/-- The only row of its id that is there is itself. -/
theorem unique (owned : Owned db ticket held row base) {other : StoredOperation}
    (mem : other ∈ db.operations) (same : other.id = row.id) : row ∈ db.operations ∧ other = row := by
  cases owned with
  | found rowMem => exact ⟨rowMem, Table.unique mem rowMem same⟩
  | inserted equal unclaimed =>
      refine absurd ?_ (unclaimed.fresh other mem)
      rw [same, equal, Ticket.fresh]

theorem mem_base (owned : Owned db ticket held row base) {other : StoredOperation}
    (listed : .operation other ∈ base) : other = row := by
  cases owned with
  | found => exact absurd listed List.not_mem_nil
  | inserted => exact Write.operation.inj (List.mem_singleton.mp listed)

theorem base_receipts (owned : Owned db ticket held row base) : receiptsOf base = [] := by
  cases owned <;> rfl

theorem base_application (owned : Owned db ticket held row base) {a : ManagedApplication} :
    .application a ∉ base := by
  cases owned <;> simp

theorem base_event (owned : Owned db ticket held row base) {event : ManagementEvent} :
    .event event ∉ base := by
  cases owned <;> simp

/-- No other operation has a key that is compared with that of the row. -/
theorem apart (owned : Owned db ticket held row base) (sound : Sound platform db)
    (entered : Entered db held row) {other : StoredOperation} (mem : other ∈ db.operations)
    (differs : other.id ≠ row.id) : ¬ SameKey other row.enter := by
  rintro ⟨service, key, compared⟩
  rcases compared with actor | environment
  · cases owned with
    | found rowMem =>
        exact differs (by rw [sound.keyed other mem row rowMem ⟨service, key, .inl actor⟩])
    | inserted same unclaimed =>
        subst same
        exact unclaimed.keys other mem ⟨service, key, .inl actor⟩
  · rcases entered with inside | ⟨-, free⟩
    · have compared : SameKey other row := ⟨service, key, .inr (environment.trans inside.symm)⟩
      cases owned with
      | found rowMem => exact differs (by rw [sound.keyed other mem row rowMem compared])
      | inserted same unclaimed =>
          subst same
          exact unclaimed.keys other mem compared
    · exact free other mem differs service key environment

/-- The operation has not been completed. -/
theorem unfinished (owned : Owned db ticket held row base) (sound : Sound platform db) {c : Receipt}
    (mem : c ∈ db.receipts) (same : c.operation = row.id) {s : Response} :
    c.answer ≠ .completed s := by
  intro completed
  obtain ⟨known, knownMem, named, -⟩ := sound.known c mem (by rw [completed]; simp)
  obtain ⟨rowMem, rfl⟩ := owned.unique knownMem (named.trans same)
  cases owned with
  | found _ _ _ unfinished =>
      rw [sound.completed c mem s completed known rowMem named] at unfinished
      cases unfinished
  | inserted equal unclaimed =>
      exact unclaimed.fresh known knownMem (by rw [equal, Ticket.fresh])

end Owned

namespace Work

theorem row_id (work : Work) (ticket : Ticket) (row : StoredOperation) :
    (work.row ticket row).id = row.id := by
  unfold Work.row
  split <;> rfl

theorem row_binding (work : Work) (ticket : Ticket) (row : StoredOperation) :
    (work.row ticket row).binding = row.binding := by
  unfold Work.row
  split <;> rfl

theorem row_environment (work : Work) (ticket : Ticket) (row : StoredOperation) :
    (work.row ticket row).environment = row.binding.resource.environment := by
  unfold Work.row
  split <;> rfl

theorem event_cases (work : Work) (row : StoredOperation) (view : Db) :
    work.event row view = [] ∨
      work.event row view = [.event (completionEvent row.enter work.response work.revision)] := by
  unfold Work.event
  dsimp only
  split
  · exact .inr rfl
  · exact .inl rfl

/-- The writes before the row of the operation. -/
def before (work : Work) (row : StoredOperation) : List Write :=
  work.application.toList.map .application ++ work.plan.toList.map .plan ++
    work.others.map .operation ++ work.purges.toList.map (.purgeEvents row.binding.service)

theorem writes_eq (work : Work) (ticket : Ticket) (row : StoredOperation) (view : Db) :
    work.writes ticket row view = work.before row ++ [.operation (work.row ticket row)] ++
      work.event row view ++ [.receipt (work.receipt ticket row)] := by
  simp only [writes, before, List.append_assoc]

theorem mem_before_operation {o : StoredOperation} :
    .operation o ∈ work.before row ↔ o ∈ work.others := by
  simp [before]

theorem mem_writes_application {a : ManagedApplication} :
    .application a ∈ work.writes ticket row view ↔ work.application = some a := by
  rw [writes_eq]
  rcases work.event_cases row view with none | some
  · rw [none]
    simp [before, eq_comm]
  · rw [some]
    simp [before, eq_comm]

theorem mem_writes_operation {o : StoredOperation} :
    .operation o ∈ work.writes ticket row view ↔
      o ∈ work.others ∨ o = work.row ticket row := by
  rw [writes_eq]
  rcases work.event_cases row view with none | some
  · rw [none]
    simp [before]
  · rw [some]
    simp [before]

theorem mem_writes_event {event : ManagementEvent} (listed : .event event ∈ work.writes ticket row view) :
    event.payload = work.response.redact := by
  rw [writes_eq] at listed
  rcases work.event_cases row view with none | some
  · rw [none] at listed
    simp [before] at listed
  · rw [some] at listed
    obtain rfl : event = _ := by simpa [before] using listed
    rfl

theorem mem_locks_other {o : StoredOperation} (listed : o ∈ work.others) :
    .operation o.id ∈ work.locks row := by
  refine List.mem_append_left _ (List.mem_append_right _ ?_)
  exact List.mem_map.mpr ⟨o, listed, rfl⟩

theorem mem_locks_application {a : ManagedApplication} (written : work.application = some a) :
    .application a.id ∈ work.locks row := by
  simp [locks, written]

theorem receipts_writes : receiptsOf (work.writes ticket row view) = [work.receipt ticket row] := by
  rw [writes_eq]
  rcases work.event_cases row view with none | some
  · rw [none]
    simp [receiptsOf, before]
  · rw [some]
    simp [receiptsOf, before]

end Work

/-- What follows the row of the operation writes no operation. -/
theorem view_committed :
    ((engine platform).view db (base ++ work.writes ticket row view)).operations =
      ((engine platform).view db (base ++ work.before row)).operations.upsert
        (work.row ticket row) := by
  rw [Work.writes_eq, ← List.append_assoc, ← List.append_assoc, ← List.append_assoc,
    Engine.view_append, Engine.view_append, Engine.view_append]
  rcases work.event_cases row view with none | some
  · rw [none]
    rfl
  · rw [some]
    rfl

variable {a : StoredOperation}

/-- The operations after a commit. -/
theorem of_mem_committed (owned : Owned db ticket held row base)
    (mem : a ∈ ((engine platform).view db (base ++ work.writes ticket row view)).operations) :
    a = work.row ticket row ∨ a.id ≠ row.id ∧ (a ∈ work.others ∨
      a ∈ db.operations ∧ ∀ o ∈ work.others, o.id ≠ a.id) := by
  have own : a ∈ ((engine platform).view db
      (base ++ work.before row)).operations.upsert (work.row ticket row) := by
    rwa [view_committed] at mem
  rcases Table.mem_upsert.mp own with rfl | ⟨earlier, differs⟩
  · exact .inl rfl
  · rw [Work.row_id] at differs
    refine .inr ⟨differs, ?_⟩
    rcases of_mem_operations _ earlier with written | ⟨old, apart⟩
    · rcases List.mem_append.mp written with first | later
      · exact absurd (by rw [owned.mem_base first]) differs
      · exact .inl (Work.mem_before_operation.mp later)
    · refine .inr ⟨old, fun o listed => ?_⟩
      exact apart o (List.mem_append_right _ (Work.mem_before_operation.mpr listed))

theorem mem_committed_own :
    work.row ticket row ∈
      ((engine platform).view db (base ++ work.writes ticket row view)).operations := by
  rw [view_committed]
  exact Table.mem_upsert.mpr (.inl rfl)

/-- Where a row after a commit comes from. -/
inductive Source (platform : Platform) (db : Db) (ticket : Ticket) (row : StoredOperation)
    (work : Work) (a : StoredOperation) : Prop
  | own (same : a = work.row ticket row)
  | touched (old : StoredOperation) (mem : old ∈ db.operations) (named : old.id = a.id)
      (differs : a.id ≠ row.id) (touched : Touched platform ticket work old a)
  | kept (mem : a ∈ db.operations) (differs : a.id ≠ row.id)

theorem source (owned : Owned db ticket held row base)
    (proper : Proper platform db ticket row work)
    (mem : a ∈ ((engine platform).view db (base ++ work.writes ticket row view)).operations) :
    Source platform db ticket row work a := by
  rcases of_mem_committed owned mem with rfl | ⟨differs, listed | ⟨old, -⟩⟩
  · exact .own rfl
  · obtain ⟨old, oldMem, named, -, touched⟩ := proper.others a listed
    exact .touched old oldMem named differs touched
  · exact .kept old differs

theorem Touched.same {old : StoredOperation} (touched : Touched platform ticket work old a) :
    a.id = old.id ∧ a.binding = old.binding ∧ a.environment = old.environment := by
  cases touched <;> exact ⟨rfl, rfl, rfl⟩

/-- A row from before keeps its id, its binding and its environment. -/
theorem Source.before (source : Source platform db ticket row work a) :
    a = work.row ticket row ∨ ∃ old ∈ db.operations, old.id = a.id ∧ a.id ≠ row.id ∧
      old.binding = a.binding ∧ old.environment = a.environment := by
  cases source with
  | own same => exact .inl same
  | touched old mem named differs touched =>
      obtain ⟨-, binding, environment⟩ := touched.same
      exact .inr ⟨old, mem, named, differs, binding.symm, environment.symm⟩
  | kept mem differs => exact .inr ⟨a, mem, rfl, differs, rfl, rfl⟩

/-! ## The receipt of a commit -/

/-- A pending operation that is adopted was asked for with this digest. -/
theorem Adoptable.asked (sound : Sound platform db) {binding : Binding} {desired : Desired}
    {old : StoredOperation} (adoptable : Adoptable platform binding desired old)
    (mem : old ∈ db.operations) :
    ∃ c ∈ db.receipts, c.operation = old.id ∧ c.Asked platform (platform.sha256 desired) ∧
      ∃ s, c.answer = .completed s ∧ s.status = "pending" := by
  obtain ⟨-, -, kind, resource, state, -⟩ := adoptable.pending
  obtain ⟨c, held, s, named, answered, stands⟩ := sound.standing old mem adoptable.completed
  have own : old.binding = c.binding := sound.binding held (by rw [answered]; simp) mem named.symm
  cases stands with
  | same result status stored =>
      obtain ⟨before, after, split⟩ := List.append_of_mem held
      obtain ⟨digest, asked, shown⟩ := (sound.lawful before c after split).pending s answered
        (own ▸ kind) (status.symm.trans state)
      have same := adoptable.digest
      rw [result, Response.get_redact s (by decide) (by decide), shown] at same
      obtain rfl : digest = platform.sha256 desired := by simpa using same
      exact ⟨c, held, named, asked, s, answered, status.symm.trans state⟩
  | adopted activation t _ _ _ _ _ accepted =>
      rw [accepted] at state
      exact absurd state (by decide)
  | purged purge environment _ _ within =>
      rw [sound.environments old mem, resource] at within
      cases within

theorem receipt_lawful (sound : Sound platform db) (owned : Owned db ticket held row base)
    (proper : Proper platform db ticket row work) (entered : Entered db held row) :
    Lawful platform db.receipts (work.receipt ticket row) where
  bound := by
    intro _ c mem answered same
    obtain ⟨known, knownMem, named, binding⟩ := sound.known c mem answered
    obtain ⟨-, rfl⟩ := owned.unique knownMem (named.trans same)
    exact binding.symm
  keyed := by
    intro _ c mem answered service key compared
    by_contra differs
    obtain ⟨other, otherMem, named, binding⟩ := sound.known c mem answered
    refine owned.apart sound entered otherMem (fun same => differs (named.symm.trans same)) ?_
    rw [SameKey, binding, sound.environments other otherMem, binding]
    exact ⟨service, key, compared⟩
  refused := by
    intro refused
    simp only [Work.receipt] at refused
    split at refused <;> cases refused
  once := by
    intro _ c mem same changed
    rcases changed with started | ⟨s, completed⟩
    · exact started
    · exact absurd completed (owned.unfinished sound mem same)
  starts := by
    intro started
    have open_ : work.completed = false := by
      cases completed : work.completed with
      | false => rfl
      | true => simp [Work.receipt, completed] at started
    rw [Work.receipt, owned.binding]
    exact (proper.starts open_).1
  replays := by
    intro r replayed
    simp only [Work.receipt] at replayed
    split at replayed <;> cases replayed
  pending := by
    intro r answered kind state
    have completed : work.completed = true := by
      by_contra open_
      simp [Work.receipt, open_] at answered
    obtain rfl : work.response = r := by simpa [Work.receipt, completed] using answered
    obtain ⟨unwritten, -, asked, requested, shown⟩ :=
      proper.pending (by rw [← owned.binding]; exact kind) state
    refine ⟨platform.sha256 asked, ⟨kind, by simp [Work.receipt, unwritten],
      ⟨_, answered, state⟩, asked, requested, rfl⟩, shown⟩
  completes := by
    intro id listed
    obtain ⟨purges, completed, -, kind, ⟨o, oMem, rfl⟩, desired, requested, configured, a, written,
      target, revision⟩ := proper.completes id listed
    obtain ⟨old, oldMem, named, -, touched⟩ := proper.others o oMem
    refine ⟨by rw [Work.receipt, owned.binding]; exact kind, desired, requested, ?_, ?_⟩
    · simp [Work.receipt, configured, written, target, revision]
    · cases touched with
      | adopted other same listed adoptable =>
          obtain rfl : other = desired := Option.some.inj (same.symm.trans requested)
          obtain ⟨c, held, owner, asked, -⟩ := adoptable.asked sound oldMem
          exact ⟨c, held, owner, asked⟩
      | purged environment same => rw [purges] at same; cases same

/-! ## The database after a commit -/

/-- The row of the operation, once its work is done. -/
theorem own_stands (receipts : List Receipt) (completed : work.completed = true) :
    (work.row ticket row).state = work.response.status ∧
      (work.receipt ticket row).answer = .completed work.response ∧
      Stands receipts (work.row ticket row) (work.receipt ticket row) work.response := by
  have same : work.row ticket row =
      complete row.enter ticket.completedAt work.response work.secret work.revision := by
    rw [Work.row, if_pos completed]
  refine ⟨by rw [same]; rfl, by simp [Work.receipt, completed], ?_⟩
  rw [same]
  refine .same rfl rfl ?_
  cases secret : work.secret with
  | false => exact .inl ⟨rfl, rfl⟩
  | true => exact .inr ⟨rfl, rfl⟩

/-- A row that another operation's work has changed. -/
theorem Touched.stands (row : StoredOperation) (sound : Sound platform db)
    (proper : Proper platform db ticket row work) {old : StoredOperation}
    (mem : old ∈ db.operations) (touched : Touched platform ticket work old a)
    (completed : a.completed = true) :
    ∃ c ∈ db.receipts, ∃ s, c.operation = old.id ∧ c.answer = .completed s ∧
      Stands (db.receipts ++ [work.receipt ticket row]) a c s := by
  have last : work.receipt ticket row ∈ db.receipts ++ [work.receipt ticket row] :=
    List.mem_append_right _ (List.mem_singleton_self _)
  cases touched with
  | adopted desired requested listed adoptable =>
      obtain ⟨c, held, named, asked, s, answered, status⟩ := adoptable.asked sound mem
      obtain ⟨-, -, kind, resource, state, -⟩ := adoptable.pending
      obtain ⟨-, done, -⟩ := proper.completes old.id listed
      refine ⟨c, held, s, named, answered, .adopted _ work.response last listed status ?_ rfl rfl ?_⟩
      · simp [Work.receipt, done]
      · exact sound.unstored old mem (by rw [resource]; rfl) kind state
  | purged environment purges within =>
      obtain ⟨c, held, s, named, answered, -⟩ := sound.standing old mem completed
      exact ⟨c, held, s, named, answered, .purged _ environment last purges within rfl⟩

/-- The commit of an operation. -/
theorem Sound.commit (sound : Sound platform db) (owned : Owned db ticket held row base)
    (proper : Proper platform db ticket row work) (entered : Entered db held row) :
    Sound platform ((engine platform).view db (base ++ work.writes ticket row view)) := by
  have receipts : ((engine platform).view db (base ++ work.writes ticket row view)).receipts =
      db.receipts ++ [work.receipt ticket row] := by
    rw [view_receipts, receiptsOf, List.filterMap_append]
    have none := owned.base_receipts
    have some : receiptsOf (work.writes ticket row view) = [work.receipt ticket row] :=
      Work.receipts_writes
    rw [receiptsOf] at none some
    rw [none, some, List.nil_append]
  have grown : ∀ c ∈ db.receipts, c ∈ db.receipts ++ [work.receipt ticket row] :=
    fun c => List.mem_append_left _
  have last : work.receipt ticket row ∈ db.receipts ++ [work.receipt ticket row] :=
    List.mem_append_right _ (List.mem_singleton_self _)
  constructor
  case lawful =>
    rw [receipts]
    exact lawful_append sound.lawful (receipt_lawful sound owned proper entered)
  case known =>
    intro c mem answered
    rw [receipts] at mem
    rcases List.mem_append.mp mem with old | new
    · obtain ⟨known, knownMem, named, binding⟩ := sound.known c old answered
      have kept : Table.Kept db.operations
          ((engine platform).view db (base ++ work.writes ticket row view)).operations :=
        kept_operations _
      obtain ⟨a, aMem, same⟩ := kept known knownMem
      refine ⟨a, aMem, same.trans named, ?_⟩
      rcases (source owned proper aMem).before with rfl | ⟨origin, originMem, id, -, kept, -⟩
      · rw [Work.row_id] at same
        obtain ⟨-, rfl⟩ := owned.unique knownMem same.symm
        rw [Work.row_binding, binding]
      · rw [← kept, Table.unique originMem knownMem (id.trans same), binding]
    · obtain rfl := List.mem_singleton.mp new
      refine ⟨_, mem_committed_own, ?_, ?_⟩
      · exact Work.row_id work ticket row
      · exact Work.row_binding work ticket row
  case keyed =>
    intro a aMem b bMem compared
    have asEntered : ∀ other : StoredOperation, SameKey other (work.row ticket row) →
        SameKey other row.enter := by
      intro other compared
      rw [SameKey, Work.row_binding, Work.row_environment] at compared
      exact compared
    rcases (source owned proper aMem).before with rfl | ⟨old, oldMem, named, differs, binding, env⟩
    · rcases (source owned proper bMem).before with
        rfl | ⟨other, otherMem, otherNamed, otherDiffers, otherBinding, otherEnv⟩
      · rfl
      · refine absurd (asEntered other ?_)
          (owned.apart sound entered otherMem (otherNamed ▸ otherDiffers))
        obtain ⟨service, key, compared⟩ := compared
        rw [SameKey, otherBinding, otherEnv]
        exact ⟨service.symm, key.symm, compared.imp Eq.symm Eq.symm⟩
    · rcases (source owned proper bMem).before with
        rfl | ⟨other, otherMem, otherNamed, otherDiffers, otherBinding, otherEnv⟩
      · refine absurd (asEntered old ?_) (owned.apart sound entered oldMem (named ▸ differs))
        rw [SameKey, binding, env]
        exact compared
      · have same : old = other := by
          refine sound.keyed old oldMem other otherMem ?_
          rw [SameKey, binding, env, otherBinding, otherEnv]
          exact compared
        exact Table.unique aMem bMem (named.symm.trans (same ▸ otherNamed))
  case environments =>
    intro a mem
    rcases (source owned proper mem).before with rfl | ⟨old, oldMem, -, -, binding, environment⟩
    · rw [Work.row_environment, Work.row_binding]
    · rw [← binding, ← environment]
      exact sound.environments old oldMem
  case completed =>
    intro c mem s answered a aMem named
    rw [receipts] at mem
    rcases List.mem_append.mp mem with older | new
    · cases source owned proper aMem with
      | own same =>
          subst same
          rw [Work.row_id] at named
          exact absurd answered (owned.unfinished sound older named.symm)
      | touched old oldMem same _ touched =>
          have done := sound.completed c older s answered old oldMem (same.trans named)
          cases touched with
          | adopted => rfl
          | purged => exact done
      | kept held => exact sound.completed c older s answered a held named
    · obtain rfl := List.mem_singleton.mp new
      have done : work.completed = true := by
        by_contra unfinished
        simp [Work.receipt, unfinished] at answered
      cases source owned proper aMem with
      | own same => rw [same, Work.row, if_pos done]; rfl
      | touched _ _ _ differs => exact absurd named differs
      | kept _ differs => exact absurd named differs
  case standing =>
    intro a mem completed
    rw [receipts]
    cases source owned proper mem with
    | own same =>
        subst same
        have done : work.completed = true := by
          by_contra unfinished
          rw [Work.row, if_neg unfinished] at completed
          cases owned with
          | found _ _ _ open_ => exact absurd (open_.symm.trans completed) (by decide)
          | inserted fresh => subst fresh; cases completed
        obtain ⟨-, answered, stands⟩ := own_stands _ done
        exact ⟨_, last, _, (Work.row_id work ticket row).symm, answered, stands⟩
    | touched old oldMem named _ touched =>
        obtain ⟨c, held, s, owner, answered, stands⟩ :=
          touched.stands row sound proper oldMem completed
        exact ⟨c, grown c held, s, owner.trans named, answered, stands⟩
    | kept held =>
        obtain ⟨c, cMem, s, named, answered, stands⟩ := sound.standing a held completed
        exact ⟨c, grown c cMem, s, named, answered, stands.mono grown⟩
  case unfinished =>
    intro a mem unfinished outside
    cases source owned proper mem with
    | own same =>
        subst same
        rw [Work.row_binding, owned.binding] at outside
        have open_ : work.completed = false := by
          by_contra done
          rw [Work.row, if_pos (by simpa using done)] at unfinished
          cases unfinished
        exact absurd outside (proper.starts open_).1
    | touched old oldMem _ _ touched =>
        cases touched with
        | adopted => cases unfinished
        | purged environment _ within =>
            rw [sound.environments old oldMem] at within
            exact absurd (within.symm.trans outside) (by simp)
    | kept held => exact sound.unfinished a held unfinished outside
  case unstored =>
    intro a mem outside kind state
    cases source owned proper mem with
    | own same =>
        subst same
        rw [Work.row_binding, owned.binding] at outside kind
        have done : work.completed = true := by
          by_contra unfinished
          exact (proper.starts (by simpa using unfinished)).1 outside
        rw [Work.row, if_pos done] at state ⊢
        obtain ⟨-, secret, -⟩ := proper.pending kind state
        simp [complete, secret]
    | touched old oldMem _ _ touched =>
        cases touched with
        | adopted => exact absurd (show "accepted" = "pending" from state) (by decide)
        | purged environment _ within =>
            rw [sound.environments old oldMem] at within
            exact absurd (within.symm.trans outside) (by simp)
    | kept held => exact sound.unstored a held outside kind state
  case results =>
    intro a mem
    cases source owned proper mem with
    | own same =>
        subst same
        unfold Work.row
        split
        · exact proper.redacted
        · rename_i unfinished
          exact (proper.starts (by simpa using unfinished)).2
    | touched old oldMem _ _ touched =>
        cases touched with
        | adopted desired _ listed => exact (proper.completes old.id listed).2.2.1.set _ _
        | purged => exact Response.public_plainFields _
    | kept held => exact sound.results a held
  case events =>
    refine view_events sound.events fun event listed => ?_
    rcases List.mem_append.mp listed with first | later
    · exact absurd first owned.base_event
    · rw [Work.mem_writes_event later]
      exact proper.redacted

end Commit

end SiliconIam.Applications.Honeycomb
