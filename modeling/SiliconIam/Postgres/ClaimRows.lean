/-
# Postgres.ClaimRows -- what the table of reservations keeps

`Rows` says that every record is keyed by its owner's request, under a version
that every running pod reads, that no two records have one slot, and that the
grants which were neither cancelled nor rolled back are the records.  Each way a
statement can change the table keeps it: start of a pod, insertion, completion,
deletion, commit.

Versions stay readable for two reasons.  A running pod reads what the others write
by assumption (`Compatible`); a pod that starts later reads it because
reconciliation refuses to start it otherwise (`Rows.start`).
-/
import SiliconIam.Postgres.ClaimLookup

namespace SiliconIam.Postgres.Idempotency

open SiliconIam.Theory
open SiliconIam.Postgres.KeyMetadata

set_option autoImplicit false

variable {D : Deployment}

/-- Every running pod can read what any running pod writes. -/
def Compatible (s : State D) : Prop :=
  ∀ writer ∈ s.pods, ∀ reader ∈ s.pods,
    writer.crypto.tokenPeppers.currentVersion ∈ reader.crypto.tokenPeppers.versions ∧
      writer.crypto.encryption.encryptionKeys.currentVersion ∈
        reader.crypto.encryption.encryptionKeys.versions

/-! ## Rows -/

/-- A pepper version that the database requires and every running pod has. -/
def TokenServed (s : State D) (version : Int16) : Prop :=
  Required s.tokenVersions version ∧
    ∀ pod ∈ s.pods, version ∈ pod.crypto.tokenPeppers.versions

def EncryptionServed (s : State D) (version : Int16) : Prop :=
  Required s.encryptionVersions version ∧
    ∀ pod ∈ s.pods, version ∈ pod.crypto.encryption.encryptionKeys.versions

structure Served (s : State D) (row : Record) : Prop where
  token : TokenServed s row.digestKeyVersion
  response : ∀ body, row.response = some body → EncryptionServed s body.keyVersion

structure Current (s : State D) (pod : Pod D) : Prop where
  token : Required s.tokenVersions pod.crypto.tokenPeppers.currentVersion
  encryption : Required s.encryptionVersions pod.crypto.encryption.encryptionKeys.currentVersion

structure Rows (s : State D) : Prop where
  faithful : ∀ stored ∈ s.records, Faithful D stored
  settled : ∀ stored ∈ s.records, Settled D stored
  served : ∀ stored ∈ s.records, Served s stored.row
  current : ∀ pod ∈ s.pods, Current s pod
  slots : ∀ a ∈ s.records, ∀ b ∈ s.records, a.origin.slot = b.origin.slot → a = b
  ids : ∀ a ∈ s.records, ∀ b ∈ s.records, a.row.id = b.row.id → a = b
  issued : ∀ stored ∈ s.records, ∃ grant ∈ s.grants, grant.record = stored.row.id
  live : ∀ grant ∈ s.grants, grant.released = false →
    ∃ stored ∈ s.records, stored.row.id = grant.record ∧ stored.origin.slot = grant.slot
  distinct : s.grants.Pairwise fun a b => a.record ≠ b.record

/-- At most one grant of a slot is neither cancelled nor rolled back. -/
def AtMostOneGrant (s : State D) : Prop :=
  s.grants.Pairwise fun a b => a.slot = b.slot → a.released = true ∨ b.released = true

variable {s : State D}

theorem Rows.atMostOneGrant (rows : Rows s) : AtMostOneGrant s := by
  apply rows.distinct.imp_of_mem
  intro a b aIn bIn apart slot
  by_contra both
  simp only [not_or, Bool.not_eq_true] at both
  obtain ⟨x, xIn, xId, xSlot⟩ := rows.live a aIn both.1
  obtain ⟨y, yIn, yId, ySlot⟩ := rows.live b bIn both.2
  have same : x = y := rows.slots x xIn y yIn (by rw [xSlot, ySlot, slot])
  apply apart
  rw [← xId, ← yId, same]

theorem Rows.initial : Rows (State.initial D) where
  faithful := by rintro _ ⟨⟩
  settled := by rintro _ ⟨⟩
  served := by rintro _ ⟨⟩
  current := by rintro _ ⟨⟩
  slots := by rintro _ ⟨⟩
  ids := by rintro _ ⟨⟩
  issued := by rintro _ ⟨⟩
  live := by rintro _ ⟨⟩
  distinct := .nil

/-- Steps that leave the table alone and keep versions served. -/
theorem Rows.of_same {s' : State D} (rows : Rows s) (records : s'.records = s.records)
    (grants : s'.grants = s.grants)
    (token : ∀ version, TokenServed s version → TokenServed s' version)
    (encryption : ∀ version, EncryptionServed s version → EncryptionServed s' version)
    (current : ∀ pod ∈ s'.pods, Current s' pod) : Rows s' where
  faithful := by rw [records]; exact rows.faithful
  settled := by rw [records]; exact rows.settled
  served := by
    rw [records]
    intro stored mem
    have served := rows.served stored mem
    exact ⟨token _ served.token, fun body kept => encryption _ (served.response body kept)⟩
  current := current
  slots := by rw [records]; exact rows.slots
  ids := by rw [records]; exact rows.ids
  issued := by rw [records, grants]; exact rows.issued
  live := by rw [records, grants]; exact rows.live
  distinct := by rw [grants]; exact rows.distinct

theorem served_start {before after : Metadata} {current : Int16} {localVersions : List Int16}
    (reconciled : Reconciled before after current localVersions) {version : Int16}
    (required : Required before version) : Required after version ∧ version ∈ localVersions :=
  ⟨reconciled.keeps version required, reconciled.holds version required⟩

/-- **What startup enforces.** -/
theorem Rows.start (rows : Rows s) (pod : Pod D) : Rows (s.start pod) := by
  unfold State.start
  simp only
  split
  · exact rows
  split
  · rename_i tokenVersions encryptionVersions tokenOk encryptionOk
    have token := reconciled tokenOk
    have encryption := reconciled encryptionOk
    refine rows.of_same ?_ ?_ ?_ ?_ ?_
    · rfl
    · rfl
    · rintro version ⟨required, held⟩
      obtain ⟨still, own⟩ := served_start token required
      refine ⟨still, ?_⟩
      rintro other mem
      rcases List.mem_cons.mp mem with rfl | mem
      · exact own
      · exact held other mem
    · rintro version ⟨required, held⟩
      obtain ⟨still, own⟩ := served_start encryption required
      refine ⟨still, ?_⟩
      rintro other mem
      rcases List.mem_cons.mp mem with rfl | mem
      · exact own
      · exact held other mem
    · intro other mem
      rcases List.mem_cons.mp mem with rfl | mem
      · exact ⟨token.current, encryption.current⟩
      · exact ⟨token.keeps _ (rows.current other mem).token,
          encryption.keeps _ (rows.current other mem).encryption⟩
  · exact rows

/-- Metadata that keeps every required version, and no new pods. -/
theorem Rows.of_versions {s' : State D} (rows : Rows s) (records : s'.records = s.records)
    (grants : s'.grants = s.grants) (pods : ∀ pod ∈ s'.pods, pod ∈ s.pods)
    (token : ∀ version, Required s.tokenVersions version → Required s'.tokenVersions version)
    (encryption : ∀ version, Required s.encryptionVersions version →
      Required s'.encryptionVersions version) : Rows s' :=
  rows.of_same records grants
    (fun version served => ⟨token version served.1, fun pod mem => served.2 pod (pods pod mem)⟩)
    (fun version served =>
      ⟨encryption version served.1, fun pod mem => served.2 pod (pods pod mem)⟩)
    (fun pod mem => ⟨token _ (rows.current pod (pods pod mem)).token,
      encryption _ (rows.current pod (pods pod mem)).encryption⟩)

theorem mem_withdraw {deleted : Stored → Bool} {stored : Stored} :
    stored ∈ (s.withdraw deleted).records ↔ stored ∈ s.records ∧ deleted stored = false := by
  simp [State.withdraw]

theorem withdraw_grant {deleted : Stored → Bool} {grant : Grant}
    (mem : grant ∈ (s.withdraw deleted).grants) :
    ∃ before ∈ s.grants, grant.record = before.record ∧ grant.slot = before.slot ∧
      (grant.released = false → before.released = false ∧
        ∀ stored ∈ s.records, deleted stored = true → stored.row.id ≠ before.record) := by
  obtain ⟨before, held, rfl⟩ := List.mem_map.mp mem
  refine ⟨before, held, ?_⟩
  split
  · exact ⟨rfl, rfl, fun live => by cases live⟩
  · rename_i none
    refine ⟨rfl, rfl, fun live => ⟨live, fun stored inTable gone same => none ?_⟩⟩
    exact List.any_eq_true.mpr ⟨stored, inTable, by simp [gone, same]⟩

/-- Deleting rows releases exactly the grants they came from. -/
theorem Rows.withdraw (rows : Rows s) (deleted : Stored → Bool) :
    Rows (s.withdraw deleted) where
  faithful := fun stored mem => rows.faithful stored (mem_withdraw.mp mem).1
  settled := fun stored mem => rows.settled stored (mem_withdraw.mp mem).1
  served := fun stored mem => by
    have served := rows.served stored (mem_withdraw.mp mem).1
    exact ⟨served.token, served.response⟩
  current := fun pod mem => ⟨(rows.current pod mem).token, (rows.current pod mem).encryption⟩
  slots := fun a aIn b bIn => rows.slots a (mem_withdraw.mp aIn).1 b (mem_withdraw.mp bIn).1
  ids := fun a aIn b bIn => rows.ids a (mem_withdraw.mp aIn).1 b (mem_withdraw.mp bIn).1
  issued := by
    intro stored mem
    obtain ⟨grant, held, same⟩ := rows.issued stored (mem_withdraw.mp mem).1
    refine ⟨_, List.mem_map.mpr ⟨grant, held, rfl⟩, ?_⟩
    split <;> exact same
  live := by
    intro grant mem open'
    obtain ⟨before, held, record, slot, unreleased⟩ := withdraw_grant mem
    obtain ⟨live, kept⟩ := unreleased open'
    obtain ⟨stored, inTable, sameId, sameSlot⟩ := rows.live before held live
    refine ⟨stored, mem_withdraw.mpr ⟨inTable, ?_⟩, sameId.trans record.symm,
      sameSlot.trans slot.symm⟩
    by_contra gone
    exact kept stored inTable (by simpa using gone) sameId
  distinct := by
    refine List.pairwise_map.mpr (rows.distinct.imp fun apart => ?_)
    split <;> split <;> exact apart

theorem Rows.publish (rows : Rows s) (number : Nat) : Rows (s.publish number) := by
  have before : ∀ stored ∈ (s.publish number).records, ∃ old ∈ s.records,
      stored = (if old.insertedBy = some number then { old with insertedBy := none } else old) ∧
        stored.row = old.row ∧ stored.origin = old.origin ∧
        stored.completion = old.completion := by
    intro stored mem
    obtain ⟨old, held, rfl⟩ := List.mem_map.mp mem
    refine ⟨old, held, rfl, ?_⟩
    split <;> exact ⟨rfl, rfl, rfl⟩
  constructor
  · intro stored mem
    obtain ⟨old, held, -, row, origin, -⟩ := before stored mem
    obtain ⟨h1, h2, h3, h4, h5⟩ := rows.faithful old held
    constructor <;> rw [origin] <;> (try rw [row]) <;> assumption
  · intro stored mem
    obtain ⟨old, held, -, row, -, completion⟩ := before stored mem
    obtain ⟨expiresAt, stage⟩ := rows.settled old held
    constructor
    · rw [row]
      exact expiresAt
    · rw [completion, row]
      exact stage
  · intro stored mem
    obtain ⟨old, held, -, row, -, -⟩ := before stored mem
    rw [row]
    exact ⟨(rows.served old held).token, (rows.served old held).response⟩
  · exact fun pod mem => ⟨(rows.current pod mem).token, (rows.current pod mem).encryption⟩
  · intro a aIn b bIn same
    obtain ⟨x, xIn, aEq, -, aOrigin, -⟩ := before a aIn
    obtain ⟨y, yIn, bEq, -, bOrigin, -⟩ := before b bIn
    rw [aOrigin, bOrigin] at same
    rw [aEq, bEq, rows.slots x xIn y yIn same]
  · intro a aIn b bIn same
    obtain ⟨x, xIn, aEq, aRow, -, -⟩ := before a aIn
    obtain ⟨y, yIn, bEq, bRow, -, -⟩ := before b bIn
    rw [aRow, bRow] at same
    rw [aEq, bEq, rows.ids x xIn y yIn same]
  · intro stored mem
    obtain ⟨old, held, -, row, -, -⟩ := before stored mem
    rw [row]
    exact rows.issued old held
  · intro grant mem open'
    obtain ⟨old, held, sameId, sameSlot⟩ := rows.live grant mem open'
    refine ⟨_, List.mem_map.mpr ⟨old, held, rfl⟩, ?_⟩
    split <;> exact ⟨sameId, sameSlot⟩
  · exact rows.distinct

/-- Rewriting one row, its identity kept. -/
theorem Rows.replace (rows : Rows s) {stored new : Stored}
    (mem : stored ∈ s.records) (id : new.row.id = stored.row.id)
    (origin : new.origin = stored.origin) (faithful : Faithful D new) (settled : Settled D new)
    (served : Served s new.row) :
    Rows { s with records := Keyed.put (fun stored => stored.row.id) s.records new } := by
  constructor
  · exact Keyed.forall_put faithful rows.faithful
  · exact Keyed.forall_put settled rows.settled
  · exact Keyed.forall_put ⟨served.token, served.response⟩ fun old held =>
      ⟨(rows.served old held).token, (rows.served old held).response⟩
  · exact fun pod held => ⟨(rows.current pod held).token, (rows.current pod held).encryption⟩
  · exact Keyed.put_injective rows.slots mem id (by rw [origin])
  · exact Keyed.put_injective rows.ids mem id id
  · refine Keyed.forall_put ?_ rows.issued
    rw [id]
    exact rows.issued stored mem
  · intro grant held open'
    obtain ⟨old, inTable, sameId, sameSlot⟩ := rows.live grant held open'
    by_cases own : old.row.id = new.row.id
    · have eq : old = stored := rows.ids old inTable stored mem (own.trans id)
      refine ⟨new, Keyed.mem_put_self inTable own, own ▸ sameId, ?_⟩
      rw [origin, ← eq]
      exact sameSlot
    · exact ⟨old, Keyed.mem_put_of_ne inTable own, sameId, sameSlot⟩
  · exact rows.distinct

/-- Completion keeps the table in order: a pod seals under a version all pods read. -/
theorem Rows.completed (rows : Rows s) (compatible : Compatible s) {pod : Pod D}
    (running : pod ∈ s.pods) {stored : Stored} (mem : stored ∈ s.records)
    (transactionTimestamp : Nat) (nonce : Nonce) (response : ReplayResponse)
    (ttl : OneTimeResponseReplayTtl) :
    Rows (s.completed pod transactionTimestamp stored nonce response ttl) := by
  unfold State.completed
  split
  · exact rows
  rename_i row ok
  obtain ⟨-, body, made, rfl⟩ := completeWithReplayTtl_eq_ok ok
  have old := rows.settled stored mem
  have served := rows.served stored mem
  refine rows.replace mem rfl rfl ?_ ⟨old.expiresAt, ?_⟩ ⟨served.token, ?_⟩
  · obtain ⟨h1, h2, h3, h4, h5⟩ := rows.faithful stored mem
    exact ⟨h1, h2, h3, h4, h5⟩
  · refine ⟨rfl, rfl, rfl, ⟨pod, nonce, body, made, rfl⟩, ?_⟩
    by_cases secret : stored.row.containsOneTimeSecret
    · simp only [secret, if_true]
      exact Nat.min_le_left _ _
    · simp only [secret, Bool.false_eq_true, if_false]
      exact old.expiresAt
  · rintro _ ⟨⟩
    rw [EncryptionServed, (encrypt_fields made).1]
    exact ⟨(rows.current pod running).encryption,
      fun reader readerIn => (compatible pod running reader readerIn).2⟩

/-- A reservation of a slot that no record has. -/
theorem Rows.insert (rows : Rows s) {new : Stored} {grant : Grant}
    (running : List (Transaction D))
    (record : grant.record = new.row.id) (slot : grant.slot = new.origin.slot)
    (fresh : ∀ old ∈ s.grants, old.record ≠ grant.record)
    (free : ∀ old ∈ s.records, old.origin.slot ≠ new.origin.slot)
    (faithful : Faithful D new) (settled : Settled D new) (served : Served s new.row) :
    Rows { s with running := running, records := new :: s.records, grants := grant :: s.grants } := by
  have unissued : ∀ old ∈ s.records, old.row.id ≠ new.row.id := by
    intro old mem same
    obtain ⟨issued, held, issuedId⟩ := rows.issued old mem
    exact fresh issued held (by rw [issuedId, same, record])
  constructor
  · exact List.forall_mem_cons.mpr ⟨faithful, rows.faithful⟩
  · exact List.forall_mem_cons.mpr ⟨settled, rows.settled⟩
  · exact List.forall_mem_cons.mpr ⟨⟨served.token, served.response⟩, fun old held =>
      ⟨(rows.served old held).token, (rows.served old held).response⟩⟩
  · exact fun pod held => ⟨(rows.current pod held).token, (rows.current pod held).encryption⟩
  · intro a aIn b bIn same
    rcases List.mem_cons.mp aIn with rfl | aHeld
    · rcases List.mem_cons.mp bIn with rfl | bHeld
      · rfl
      · exact absurd same.symm (free b bHeld)
    · rcases List.mem_cons.mp bIn with rfl | bHeld
      · exact absurd same (free a aHeld)
      · exact rows.slots a aHeld b bHeld same
  · intro a aIn b bIn same
    rcases List.mem_cons.mp aIn with rfl | aHeld
    · rcases List.mem_cons.mp bIn with rfl | bHeld
      · rfl
      · exact absurd same.symm (unissued b bHeld)
    · rcases List.mem_cons.mp bIn with rfl | bHeld
      · exact absurd same (unissued a aHeld)
      · exact rows.ids a aHeld b bHeld same
  · intro stored mem
    rcases List.mem_cons.mp mem with rfl | mem
    · exact ⟨grant, List.mem_cons_self, record⟩
    · obtain ⟨issued, held, same⟩ := rows.issued stored mem
      exact ⟨issued, List.mem_cons_of_mem _ held, same⟩
  · intro other mem open'
    rcases List.mem_cons.mp mem with rfl | mem
    · exact ⟨new, List.mem_cons_self, record.symm, slot.symm⟩
    · obtain ⟨stored, held, same⟩ := rows.live other mem open'
      exact ⟨stored, List.mem_cons_of_mem _ held, same⟩
  · exact List.pairwise_cons.mpr ⟨fun old held => (fresh old held).symm, rows.distinct⟩

end SiliconIam.Postgres.Idempotency
