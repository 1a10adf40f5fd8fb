/-
# Postgres.ClaimLocks -- what open transactions keep

Advisory locks are exclusive.  A claim that is past locking has the lock of every
candidate, and what it has looked at selects no visible record.  Together these
say that a claim is alone with its slots: whoever holds an uncommitted record
under one of my candidates would hold my lock (`Transactions.writer_eq`), so
nothing a claim has looked at can appear before it inserts.
-/
import SiliconIam.Postgres.ClaimRows

namespace SiliconIam.Postgres.Idempotency

open SiliconIam.Theory

set_option autoImplicit false

variable {D : Deployment}

namespace Transaction

def lockOf (t : Transaction D) (candidate : DigestCandidate) : Int :=
  advisoryLockId D.sha256 t.request.route candidate

/-- The locks of a claim: taken, or still to take. -/
def Locked (t : Transaction D) : Prop :=
  ∀ candidate ∈ t.candidates,
    match t.phase with
    | .locking rest => t.lockOf candidate ∈ t.held ∨ t.lockOf candidate ∈ rest
    | .looking _ _ | .granted _ => t.lockOf candidate ∈ t.held
    | .answered _ => True

def finds (t : Transaction D) (candidate : DigestCandidate) (stored : Stored) : Prop :=
  matchesCandidate t.request.route candidate stored.row

end Transaction

structure TransactionOk (s : State D) (t : Transaction D) : Prop where
  pod : t.pod ∈ s.pods
  formed : (∀ answer, t.phase ≠ .answered answer) →
    validateRoute t.request.route = .ok () ∧ t.candidates = t.expected
  locked : t.kind = .claim → t.Locked
  split : ∀ seen rest, t.phase = .looking seen rest → seen ++ rest = t.candidates
  looked : ∀ seen rest, t.phase = .looking seen rest → ∀ candidate ∈ seen,
    ∀ stored ∈ s.records, stored.insertedBy = none → t.finds candidate stored →
      t.kind = .lookup ∧ stored.row.id ∉ t.beganWith
  began : ∀ id ∈ t.beganWith, (∃ grant ∈ s.grants, grant.record = id) ∧
    ∀ stored ∈ s.records, stored.row.id = id → stored.insertedBy = none

structure Transactions (s : State D) : Prop where
  each : ∀ t ∈ s.running, TransactionOk s t
  numbers : ∀ t ∈ s.running, ∀ u ∈ s.running, t.number = u.number → t = u
  exclusive : ∀ t ∈ s.running, ∀ u ∈ s.running, ∀ lock ∈ t.held, lock ∈ u.held →
    t.number = u.number
  writers : ∀ stored ∈ s.records, ∀ number, stored.insertedBy = some number →
    ∃ u ∈ s.running, u.number = number ∧ u.kind = .claim ∧ u.phase = .granted stored.row.id ∧
      ∃ candidate ∈ u.candidates, u.finds candidate stored

theorem Transactions.initial : Transactions (State.initial D) where
  each := by rintro _ ⟨⟩
  numbers := by rintro _ ⟨⟩
  exclusive := by rintro _ ⟨⟩
  writers := by rintro _ ⟨⟩

/-- Past locking: looking or granted. -/
def Phase.PastLocking : Phase → Prop
  | .looking _ _ | .granted _ => True
  | .locking _ | .answered _ => False

variable {t : Transaction D}

theorem Transaction.Locked.held (locked : t.Locked)
    (past : t.phase.PastLocking) {candidate : DigestCandidate} (mem : candidate ∈ t.candidates) :
    t.lockOf candidate ∈ t.held := by
  have own := locked candidate mem
  cases phase : t.phase <;> rw [phase] at own past
  · exact past.elim
  · exact own
  · exact own
  · exact past.elim

/-- One row has one lock, whichever candidate finds it. -/
theorem lock_eq_of_finds {u : Transaction D} {a b : DigestCandidate} {stored : Stored}
    (left : t.finds a stored) (right : u.finds b stored) : t.lockOf a = u.lockOf b := by
  simp only [Transaction.finds, matchesCandidate, decide_eq_true_eq] at left right
  obtain ⟨-, aCaller, aRoute, aKey⟩ := left
  obtain ⟨-, bCaller, bRoute, bKey⟩ := right
  simp only [Transaction.lockOf, advisoryLockId, ← aCaller, ← bCaller, ← aRoute, ← bRoute,
    ← aKey, ← bKey]

variable {s : State D}

/-- **A claim past locking is alone**: an uncommitted record that one of its
candidates selects is its own. -/
theorem Transactions.writer_eq (inv : Transactions s)
    (running : t ∈ s.running) (claim : t.kind = .claim) (past : t.phase.PastLocking)
    {candidate : DigestCandidate} (mem : candidate ∈ t.candidates) {stored : Stored}
    (inTable : stored ∈ s.records) (found : t.finds candidate stored) {number : Nat}
    (uncommitted : stored.insertedBy = some number) :
    t.number = number ∧ t.phase = .granted stored.row.id := by
  obtain ⟨u, uRunning, rfl, uClaim, uPhase, other, otherMem, otherFound⟩ :=
    inv.writers stored inTable number uncommitted
  have mine := ((inv.each t running).locked claim).held past mem
  have theirs : u.lockOf other ∈ u.held :=
    ((inv.each u uRunning).locked uClaim).held (by rw [uPhase]; trivial) otherMem
  rw [← lock_eq_of_finds found otherFound] at theirs
  have same := inv.exclusive t running u uRunning _ mine theirs
  have eq : t = u := inv.numbers t running u uRunning same
  exact ⟨same, eq ▸ uPhase⟩

/-! ## Changes of the table -/

/-- Two stored rows that statements of other transactions cannot tell apart by key. -/
structure SameKey (new old : Stored) : Prop where
  id : new.row.id = old.row.id
  insertedBy : new.insertedBy = old.insertedBy
  finds : ∀ route candidate,
    matchesCandidate route candidate new.row = matchesCandidate route candidate old.row

theorem SameKey.refl (stored : Stored) : SameKey stored stored := ⟨rfl, rfl, fun _ _ => rfl⟩

/-- The table changes only in columns that are not keys, or loses rows. -/
structure Shrinks (s s' : State D) : Prop where
  records : ∀ new ∈ s'.records, ∃ old ∈ s.records, SameKey new old
  grants : ∀ grant ∈ s.grants, ∃ grant' ∈ s'.grants, grant'.record = grant.record

theorem Shrinks.of_same {s' : State D} (records : s'.records = s.records)
    (grants : s'.grants = s.grants) : Shrinks s s' where
  records := fun new mem => ⟨new, records ▸ mem, .refl new⟩
  grants := fun grant mem => ⟨grant, grants ▸ mem, rfl⟩

theorem TransactionOk.shrinks {s' : State D} (ok : TransactionOk s t)
    (shrinks : Shrinks s s') (pod : t.pod ∈ s'.pods) : TransactionOk s' t where
  pod := pod
  formed := ok.formed
  locked := ok.locked
  split := ok.split
  looked := by
    intro seen rest phase candidate mem new inTable committed found
    obtain ⟨old, held, same⟩ := shrinks.records new inTable
    rw [same.id]
    apply ok.looked seen rest phase candidate mem old held
    · rw [← same.insertedBy]
      exact committed
    · unfold Transaction.finds
      rw [← same.finds]
      exact found
  began := by
    intro id mem
    obtain ⟨⟨grant, granted, record⟩, committed⟩ := ok.began id mem
    refine ⟨?_, ?_⟩
    · obtain ⟨grant', held, same⟩ := shrinks.grants grant granted
      exact ⟨grant', held, same.trans record⟩
    · intro new inTable sameId
      obtain ⟨old, held, same⟩ := shrinks.records new inTable
      rw [same.insertedBy]
      exact committed old held (same.id ▸ sameId)

theorem Transactions.shrinks {s' : State D} (inv : Transactions s) (shrinks : Shrinks s s')
    (running : s'.running = s.running) (pods : ∀ t ∈ s.running, t.pod ∈ s'.pods) :
    Transactions s' where
  each := by
    rw [running]
    exact fun t mem => (inv.each t mem).shrinks shrinks (pods t mem)
  numbers := by rw [running]; exact inv.numbers
  exclusive := by rw [running]; exact inv.exclusive
  writers := by
    rw [running]
    intro new inTable number uncommitted
    obtain ⟨old, held, same⟩ := shrinks.records new inTable
    obtain ⟨u, mem, owner, claim, phase, candidate, own, found⟩ :=
      inv.writers old held number (same.insertedBy ▸ uncommitted)
    refine ⟨u, mem, owner, claim, same.id ▸ phase, candidate, own, ?_⟩
    unfold Transaction.finds
    rw [same.finds]
    exact found

theorem Shrinks.withdraw (s : State D) (deleted : Stored → Bool) :
    Shrinks s (s.withdraw deleted) where
  records := fun new mem => ⟨new, (mem_withdraw.mp mem).1, .refl new⟩
  grants := by
    intro grant mem
    refine ⟨_, List.mem_map.mpr ⟨grant, mem, rfl⟩, ?_⟩
    split <;> rfl

theorem Shrinks.completed (s : State D) (pod : Pod D) (transactionTimestamp : Nat)
    {stored : Stored} (mem : stored ∈ s.records) (nonce : Nonce) (response : ReplayResponse)
    (ttl : OneTimeResponseReplayTtl) :
    Shrinks s (s.completed pod transactionTimestamp stored nonce response ttl) := by
  unfold State.completed
  split
  · exact .of_same rfl rfl
  rename_i row ok
  obtain ⟨-, body, -, rfl⟩ := completeWithReplayTtl_eq_ok ok
  refine ⟨?_, fun grant held => ⟨grant, held, rfl⟩⟩
  exact Keyed.forall_put ⟨stored, mem, rfl, rfl, fun _ _ => rfl⟩
    fun old held => ⟨old, held, .refl old⟩

/-! ## Changes of one transaction -/

theorem State.heldByOther_eq_false {number : Nat} {lock : Int} :
    s.heldByOther number lock = false ↔
      ∀ other ∈ s.running, other.number ≠ number → lock ∉ other.held := by
  simp [State.heldByOther]

/-- A transaction moves on; a grant, once there, stays. -/
theorem Transactions.put (inv : Transactions s) {new : Transaction D}
    (running : t ∈ s.running) (number : new.number = t.number) (ok : TransactionOk s new)
    (held : ∀ lock ∈ new.held, lock ∈ t.held ∨ s.heldByOther t.number lock = false)
    (granted : ∀ id, t.phase = .granted id → new = t) : Transactions (s.put new) where
  each := by
    apply Keyed.forall_put
    · exact ok.shrinks (.of_same rfl rfl) ok.pod
    · exact fun u mem => (inv.each u mem).shrinks (.of_same rfl rfl) (inv.each u mem).pod
  numbers := Keyed.put_injective inv.numbers running number number
  exclusive := by
    have apart : ∀ u ∈ s.running, u.number ≠ new.number → ∀ lock ∈ new.held, lock ∉ u.held := by
      intro u mem other lock mine theirs
      rcases held lock mine with before | free
      · exact other ((inv.exclusive t running u mem lock before theirs).symm.trans number.symm)
      · exact State.heldByOther_eq_false.mp free u mem (number ▸ other) theirs
    intro a aIn b bIn lock aHolds bHolds
    rcases Keyed.mem_put aIn with rfl | ⟨aMem, aOther⟩
    · rcases Keyed.mem_put bIn with rfl | ⟨bMem, bOther⟩
      · rfl
      · exact absurd bHolds (apart b bMem bOther lock aHolds)
    · rcases Keyed.mem_put bIn with rfl | ⟨bMem, bOther⟩
      · exact absurd aHolds (apart a aMem aOther lock bHolds)
      · exact inv.exclusive a aMem b bMem lock aHolds bHolds
  writers := by
    intro stored inTable writer uncommitted
    obtain ⟨u, mem, owner, claim, phase, found⟩ := inv.writers stored inTable writer uncommitted
    by_cases same : u.number = new.number
    · have eq : u = t := inv.numbers u mem t running (same.trans number)
      subst eq
      obtain rfl := granted _ phase
      exact ⟨new, Keyed.mem_put_self mem rfl, owner, claim, phase, found⟩
    · exact ⟨u, Keyed.mem_put_of_ne mem same, owner, claim, phase, found⟩

theorem Transactions.begin (inv : Transactions s) {new : Transaction D}
    (fresh : ∀ u ∈ s.running, u.number ≠ new.number) (ok : TransactionOk s new)
    (held : new.held = []) : Transactions { s with running := new :: s.running } where
  each := by
    intro u mem
    rcases List.mem_cons.mp mem with rfl | mem
    · exact ok.shrinks (.of_same rfl rfl) ok.pod
    · exact (inv.each u mem).shrinks (.of_same rfl rfl) (inv.each u mem).pod
  numbers := by
    intro a aIn b bIn same
    rcases List.mem_cons.mp aIn with rfl | aMem
    · rcases List.mem_cons.mp bIn with rfl | bMem
      · rfl
      · exact absurd same.symm (fresh b bMem)
    · rcases List.mem_cons.mp bIn with rfl | bMem
      · exact absurd same (fresh a aMem)
      · exact inv.numbers a aMem b bMem same
  exclusive := by
    intro a aIn b bIn lock aHolds bHolds
    rcases List.mem_cons.mp aIn with rfl | aMem
    · rw [held] at aHolds
      cases aHolds
    · rcases List.mem_cons.mp bIn with rfl | bMem
      · rw [held] at bHolds
        cases bHolds
      · exact inv.exclusive a aMem b bMem lock aHolds bHolds
  writers := by
    intro stored inTable number uncommitted
    obtain ⟨u, mem, rest⟩ := inv.writers stored inTable number uncommitted
    exact ⟨u, List.mem_cons_of_mem _ mem, rest⟩

/-- A transaction with no uncommitted rows ends. -/
theorem Transactions.finish (inv : Transactions s) {number : Nat}
    (none : ∀ stored ∈ s.records, stored.insertedBy ≠ some number) :
    Transactions (s.finish number) where
  each := fun t mem => (inv.each t (Keyed.mem_drop.mp mem).1).shrinks (.of_same rfl rfl)
    (inv.each t (Keyed.mem_drop.mp mem).1).pod
  numbers := fun a aIn b bIn =>
    inv.numbers a (Keyed.mem_drop.mp aIn).1 b (Keyed.mem_drop.mp bIn).1
  exclusive := fun a aIn b bIn =>
    inv.exclusive a (Keyed.mem_drop.mp aIn).1 b (Keyed.mem_drop.mp bIn).1
  writers := by
    intro stored inTable writer uncommitted
    obtain ⟨u, mem, rfl, rest⟩ := inv.writers stored inTable writer uncommitted
    have other : u.number ≠ number := fun same => none stored inTable (same ▸ uncommitted)
    exact ⟨u, Keyed.mem_drop.mpr ⟨mem, other⟩, rfl, rest⟩

/-! ## Insertion and commit -/

/-- A new row, by a transaction that was granted it. -/
theorem Transactions.addRow (inv : Transactions s) {new : Stored} {grant : Grant}
    {u : Transaction D} (writer : u ∈ s.running) (claim : u.kind = .claim)
    (granted : u.phase = .granted new.row.id) (insertedBy : new.insertedBy = some u.number)
    {c : DigestCandidate} (own : c ∈ u.candidates) (found : u.finds c new)
    (fresh : ∀ old ∈ s.grants, old.record ≠ new.row.id) :
    Transactions { s with records := new :: s.records, grants := grant :: s.grants } where
  each := by
    intro t mem
    have ok := inv.each t mem
    refine ⟨ok.pod, ok.formed, ok.locked, ok.split, ?_, ?_⟩
    · intro seen rest phase other inSeen stored inTable committed
      rcases List.mem_cons.mp inTable with rfl | held
      · rw [insertedBy] at committed
        cases committed
      · exact ok.looked seen rest phase other inSeen stored held committed
    · intro id known
      obtain ⟨⟨issued, held, record⟩, committed⟩ := ok.began id known
      refine ⟨⟨issued, List.mem_cons_of_mem _ held, record⟩, ?_⟩
      intro stored inTable same
      rcases List.mem_cons.mp inTable with rfl | inTable
      · exact absurd (record.trans same.symm) (fresh issued held)
      · exact committed stored inTable same
  numbers := inv.numbers
  exclusive := inv.exclusive
  writers := by
    intro stored inTable number uncommitted
    rcases List.mem_cons.mp inTable with rfl | held
    · rw [insertedBy, Option.some.injEq] at uncommitted
      exact ⟨u, writer, uncommitted, claim, granted, c, own, found⟩
    · exact inv.writers stored held number uncommitted

/-- **Commit.**  A row that becomes visible is not one that another transaction
missed: a claim that looked its candidate up would hold its writer's lock, and a
lookup began before it. -/
theorem Transactions.publish (inv : Transactions s) (number : Nat) :
    Transactions (s.publish number) where
  each := by
    intro t mem
    have ok := inv.each t mem
    refine ⟨ok.pod, ok.formed, ok.locked, ok.split, ?_, ?_⟩
    · intro seen rest phase candidate inSeen new inTable committed found
      obtain ⟨old, held, rfl⟩ := List.mem_map.mp inTable
      by_cases published : old.insertedBy = some number
      · rw [if_pos published] at found ⊢
        have inCandidates : candidate ∈ t.candidates := by
          rw [← ok.split seen rest phase]
          exact List.mem_append_left _ inSeen
        have past : t.phase.PastLocking := by
          rw [phase]
          trivial
        refine ⟨?_, fun known => ?_⟩
        · cases kind : t.kind with
          | lookup => rfl
          | claim =>
              have granted := (inv.writer_eq mem kind past inCandidates held found published).2
              rw [phase] at granted
              cases granted
        · have committed := (ok.began _ known).2 old held rfl
          rw [published] at committed
          cases committed
      · rw [if_neg published] at committed found ⊢
        exact ok.looked seen rest phase candidate inSeen old held committed found
    · intro id known
      refine ⟨(ok.began id known).1, fun new inTable same => ?_⟩
      obtain ⟨old, held, rfl⟩ := List.mem_map.mp inTable
      by_cases published : old.insertedBy = some number
      · rw [if_pos published]
      · rw [if_neg published] at same ⊢
        exact (ok.began id known).2 old held same
  numbers := inv.numbers
  exclusive := inv.exclusive
  writers := by
    intro new inTable writer uncommitted
    obtain ⟨old, held, rfl⟩ := List.mem_map.mp inTable
    by_cases published : old.insertedBy = some number
    · rw [if_pos published] at uncommitted
      cases uncommitted
    · rw [if_neg published] at uncommitted ⊢
      exact inv.writers old held writer uncommitted

theorem publish_insertedBy {number : Nat} :
    ∀ stored ∈ (s.publish number).records, stored.insertedBy ≠ some number := by
  intro stored inTable
  obtain ⟨old, held, rfl⟩ := List.mem_map.mp inTable
  by_cases published : old.insertedBy = some number
  · rw [if_pos published]
    exact fun same => by cases same
  · rw [if_neg published]
    exact published

end SiliconIam.Postgres.Idempotency
