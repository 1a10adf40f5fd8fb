/-
# Postgres.ClaimSafety -- requests take effect once

Every step keeps `Rows` and `Transactions` (`Inv.act`), and every answer given
along the way is right (`Inv.rightAnswers`): a visible record of the request's own
slot decides it, and what is replayed is a completed record of one of the
request's spellings, still in its window when the transaction began.  Completed
responses never change (`keeps_act`).  `requests_take_effect_once` collects these
over runs.
-/
import SiliconIam.Postgres.ClaimLocks

namespace SiliconIam.Postgres.Idempotency

open SiliconIam.Theory
open SiliconIam.Theory.Runs
open SiliconIam.Theory.Hex (Bytes ascii)
open SiliconIam.Domain (Id)
open SiliconIam.Crypto
open SiliconIam.Postgres.KeyMetadata

set_option autoImplicit false

variable {D : Deployment}

structure Inv (s : State D) : Prop where
  rows : Rows s
  transactions : Transactions s

/-! ## One transaction -/

variable {s : State D}

theorem TransactionOk.begin (inv : Inv s) {pod : Pod D} (running : pod ∈ s.pods)
    (number : Nat) (kind : Kind) (request : IdempotencyRequest)
    (translated legacy : Option (Bytes × Bytes)) :
    TransactionOk s (s.beginTransaction number pod kind request translated legacy) := by
  have began : ∀ id ∈ s.committed.map (fun stored => stored.row.id),
      (∃ grant ∈ s.grants, grant.record = id) ∧
        ∀ stored ∈ s.records, stored.row.id = id → stored.insertedBy = none := by
    intro id known
    obtain ⟨stored, visible, rfl⟩ := List.mem_map.mp known
    simp only [State.committed, List.mem_filter, decide_eq_true_eq] at visible
    refine ⟨inv.rows.issued stored visible.1, fun other inTable same => ?_⟩
    rw [inv.rows.ids other inTable stored visible.1 same]
    exact visible.2
  unfold State.beginTransaction
  cases made : claimCandidates D.mac D.plane pod.crypto.tokenPeppers request translated legacy with
  | error error =>
      refine ⟨running, fun none => absurd rfl (none _), fun _ _ mem => (by cases mem), ?_, ?_, began⟩
      · intro seen rest phase
        cases phase
      · intro seen rest phase
        cases phase
  | ok candidates =>
      obtain ⟨route, candidatesEq⟩ := claimCandidates_expected made
      cases kind with
      | claim =>
          refine ⟨running, fun _ => ⟨route, candidatesEq⟩, fun _ candidate mem => ?_, ?_, ?_, began⟩
          · exact .inr (mem_rotationLocks.mpr ⟨candidate, mem, rfl⟩)
          · intro seen rest phase
            cases phase
          · intro seen rest phase
            cases phase
      | lookup =>
          refine ⟨running, fun _ => ⟨route, candidatesEq⟩, fun kind => (by cases kind), ?_, ?_, began⟩
          · intro seen rest phase
            cases phase
            rfl
          · intro seen rest phase candidate mem
            cases phase
            cases mem

variable {t : Transaction D}

theorem TransactionOk.lockStep (ok : TransactionOk s t) :
    TransactionOk s (s.lockStep t) := by
  unfold State.lockStep
  split
  · rename_i lock rest phase
    split
    · exact ok
    refine ⟨ok.pod, fun _ => ok.formed fun answer => by simp [phase], fun kind candidate mem => ?_,
      ?_, ?_, ok.began⟩
    · -- the lock just taken moves from the remaining ones to the held ones
      have before := ok.locked kind candidate mem
      rw [phase] at before
      rcases before with held | rest
      · exact .inl (List.mem_cons_of_mem _ held)
      · rcases List.mem_cons.mp rest with taken | rest
        · exact .inl (List.mem_cons.mpr (.inl taken))
        · exact .inr rest
    · intro seen left phase
      cases phase
    · intro seen left phase
      cases phase
  · rename_i phase
    refine ⟨ok.pod, fun _ => ok.formed fun answer => by simp [phase], fun kind candidate mem => ?_,
      ?_, ?_, ok.began⟩
    · have before := ok.locked kind candidate mem
      rw [phase] at before
      rcases before with held | rest
      · exact held
      · cases rest
    · intro seen rest phase
      cases phase
      rfl
    · intro seen rest phase candidate mem
      cases phase
      cases mem
  · exact ok

theorem lockStep_held :
    (s.lockStep t).number = t.number ∧
      (∀ lock ∈ (s.lockStep t).held, lock ∈ t.held ∨ s.heldByOther t.number lock = false) ∧
      ∀ id, t.phase = .granted id → s.lockStep t = t := by
  unfold State.lockStep
  split
  · rename_i lock rest phase
    split
    · exact ⟨rfl, fun lock held => .inl held, fun _ _ => rfl⟩
    · rename_i free
      refine ⟨rfl, fun other held => ?_, fun id granted => by simp [phase] at granted⟩
      rcases List.mem_cons.mp held with rfl | held
      · exact .inr (by simpa using free)
      · exact .inl held
  · rename_i phase
    exact ⟨rfl, fun lock held => .inl held, fun id granted => by simp [phase] at granted⟩
  · exact ⟨rfl, fun lock held => .inl held, fun _ _ => rfl⟩

/-- An answered transaction has nothing left to keep. -/
theorem TransactionOk.answered (ok : TransactionOk s t)
    (answer : Answer) : TransactionOk s { t with phase := .answered answer } where
  pod := ok.pod
  formed := fun none => absurd rfl (none answer)
  locked := fun _ _ _ => trivial
  split := fun _ _ phase => by cases phase
  looked := fun _ _ phase => by cases phase
  began := ok.began

theorem TransactionOk.look (ok : TransactionOk s t) :
    TransactionOk s { t with phase := s.lookPhase t } := by
  unfold State.lookPhase
  split
  · rename_i seen candidate rest phase
    have whole := ok.split _ _ phase
    split
    · exact ok.answered _
    · rename_i none
      refine ⟨ok.pod, fun _ => ok.formed fun answer => by simp [phase],
        fun kind other mem => ?_, ?_, ?_, ok.began⟩
      · exact (ok.locked kind).held (by rw [phase]; trivial) mem
      · rintro _ _ ⟨⟩
        rw [List.append_assoc]
        exact whole
      · rintro _ _ ⟨⟩ other mem stored inTable committed found
        rcases List.mem_append.mp mem with before | last
        · exact ok.looked _ _ phase other before stored inTable committed found
        · rw [List.mem_singleton.mp last] at found
          have visible : stored ∈ s.committed := by simp [State.committed, inTable, committed]
          exact absurd found (List.find?_eq_none.mp none stored visible)
  · rename_i seen phase
    split
    · exact ok.answered _
    · rw [← phase]
      exact ok
  · exact ok

/-! ## Whose records a claim can meet -/

variable {stored : Stored}

/-- A record of the request's own slot is found by one of its own candidates. -/
theorem own_candidate (ideal : D.Ideal) (rows : Rows s)
    (pod : t.pod ∈ s.pods) (inTable : stored ∈ s.records)
    (slot : stored.origin.slot = t.request.slot) :
    stored.row.digestKeyVersion ∈ t.pod.crypto.tokenPeppers.versions ∧
      t.finds (D.candidate t.request.key.bytes (t.request.callerScope, t.request.requestPayload)
        stored.row.digestKeyVersion) stored := by
  refine ⟨(rows.served stored inTable).token.2 _ pod, ?_⟩
  exact (matches_iff ideal (rows.faithful stored inTable) _ _ _ _).mpr ⟨rfl, slot⟩

variable {seen : List DigestCandidate}

/-- **A claim that has looked everything up meets no record at all**: no visible
one, since it looked, and no uncommitted one, since it has the locks. -/
theorem finds_nothing (transactions : Transactions s)
    (running : t ∈ s.running) (claim : t.kind = .claim)
    (phase : t.phase = .looking seen []) {candidate : DigestCandidate}
    (mem : candidate ∈ t.candidates) (inTable : stored ∈ s.records) :
    ¬ t.finds candidate stored := by
  intro found
  have ok := transactions.each t running
  have whole := ok.split _ _ phase
  rw [List.append_nil] at whole
  cases writer : stored.insertedBy with
  | none =>
      have isLookup := (ok.looked _ _ phase candidate (whole ▸ mem) stored inTable writer found).1
      rw [claim] at isLookup
      cases isLookup
  | some number =>
      have past : t.phase.PastLocking := by
        rw [phase]
        trivial
      have granted := (transactions.writer_eq running claim past mem inTable found writer).2
      rw [phase] at granted
      cases granted

theorem slot_free (ideal : D.Ideal) (inv : Inv s)
    (running : t ∈ s.running) (claim : t.kind = .claim)
    (phase : t.phase = .looking seen []) (inTable : stored ∈ s.records) :
    stored.origin.slot ≠ t.request.slot := by
  intro slot
  have ok := inv.transactions.each t running
  obtain ⟨held, found⟩ := own_candidate ideal inv.rows ok.pod inTable slot
  have formed := (ok.formed fun answer => by simp [phase]).2
  refine finds_nothing inv.transactions running claim phase ?_ inTable found
  rw [formed]
  exact Transaction.mem_expected.mpr ⟨_, t.own_spelling, _, held, rfl⟩

/-! ## Insertion -/

theorem mayInsert_iff {record : Id} :
    s.mayInsert t record = true ↔ t.kind = .claim ∧ (∃ seen, t.phase = .looking seen []) ∧
      ∀ grant ∈ s.grants, grant.record ≠ record := by
  unfold State.mayInsert
  simp only [Bool.and_eq_true, decide_eq_true_eq, List.all_eq_true, ne_eq, and_assoc]
  refine and_congr_right fun _ => and_congr_left fun _ => ?_
  split
  · rename_i seen phase
    simp [phase]
  · rename_i other
    simp only [Bool.false_eq_true, false_iff, not_exists]
    exact fun seen phase => other seen phase

/-- The candidate an insertion stores. -/
def Transaction.own (t : Transaction D) : DigestCandidate :=
  D.candidate t.request.key.bytes (t.request.callerScope, t.request.requestPayload)
    t.pod.crypto.tokenPeppers.currentVersion

theorem own_mem (t : Transaction D) : t.own ∈ t.expected := by
  obtain ⟨key, -, retained⟩ := t.pod.crypto.tokenPeppers.current_ok
  exact Transaction.mem_expected.mpr
    ⟨_, t.own_spelling, _, Keyring.mem_versions.mpr ⟨key, retained⟩, rfl⟩

/-- An insertion never meets a row: it inserts, or the version is unknown to the database. -/
theorem insertion_cases (transactions : Transactions s)
    (running : t ∈ s.running) (claim : t.kind = .claim)
    (phase : t.phase = .looking seen []) (record : Id) :
    s.insertion t record = .inserted (reservation record t.request t.own t.startedAt) ∨
      s.insertion t record = .decided (.refused (.internal "database_operation")) := by
  have formed := ((transactions.each t running).formed fun answer => by simp [phase]).2
  have none : s.records.find? (fun stored => matchesCandidate t.request.route t.own stored.row) =
      none := by
    rw [List.find?_eq_none]
    intro stored inTable
    exact finds_nothing transactions running claim phase (formed ▸ own_mem t) inTable
  have current : currentCandidate D.mac D.plane t.pod.crypto.tokenPeppers t.request t.candidates =
      .ok t.own := by
    rw [formed]
    exact currentCandidate_eq
  unfold State.insertion
  simp only [current, none]
  split
  · exact .inl rfl
  · exact .inr rfl

theorem Inv.insert (ideal : D.Ideal) (inv : Inv s) (compatible : Compatible s) (running : t ∈ s.running) {record : Id}
    (may : s.mayInsert t record = true) : Inv (s.insert t record) := by
  obtain ⟨claim, ⟨seen, phase⟩, fresh⟩ := mayInsert_iff.mp may
  have ok := inv.transactions.each t running
  have formed := ok.formed fun answer => by simp [phase]
  have idle : ∀ id, t.phase = .granted id → False := fun id granted => by simp [phase] at granted
  unfold State.insert
  rcases insertion_cases inv.transactions running claim phase record with inserted | decided
  · simp only [inserted]
    have moved : Transactions (s.put { t with phase := .granted record }) := by
      refine inv.transactions.put running rfl ?_ (fun lock held => .inl held)
        fun id granted => (idle id granted).elim
      refine ⟨ok.pod, fun _ => formed, fun kind candidate mem => ?_, ?_, ?_, ok.began⟩
      · exact (ok.locked kind).held (by rw [phase]; trivial) mem
      · rintro _ _ ⟨⟩
      · rintro _ _ ⟨⟩
    constructor
    · refine inv.rows.insert _ rfl rfl fresh ?_ ?_ ?_ ?_
      · exact fun old inTable => slot_free ideal inv running claim phase inTable
      · exact ⟨formed.1, rfl, rfl, rfl, rfl⟩
      · exact ⟨rfl, rfl, rfl⟩
      · refine ⟨⟨(inv.rows.current _ ok.pod).token, fun reader readerIn => ?_⟩, ?_⟩
        · exact (compatible _ ok.pod reader readerIn).1
        · rintro _ ⟨⟩
    · have mem : { t with phase := .granted record } ∈
          (s.put { t with phase := .granted record }).running := Keyed.mem_put_self running rfl
      refine moved.addRow mem claim rfl rfl (c := t.own) ?_ ?_ fresh
      · show t.own ∈ t.candidates
        rw [formed.2]
        exact own_mem t
      · simp [Transaction.finds, matchesCandidate, reservation]
  · simp only [decided]
    constructor
    · exact inv.rows.of_versions rfl rfl (fun _ mem => mem) (fun _ required => required)
        fun _ required => required
    · exact inv.transactions.put running rfl (ok.answered _) (fun lock held => .inl held)
        fun id granted => (idle id granted).elim

/-! ## Steps -/

/-- Steps that touch neither the table nor a transaction. -/
theorem Inv.quiet {s' : State D} (inv : Inv s) (records : s'.records = s.records)
    (grants : s'.grants = s.grants) (running : s'.running = s.running)
    (pods : ∀ pod ∈ s'.pods, pod ∈ s.pods) (kept : ∀ t ∈ s.running, t.pod ∈ s'.pods)
    (token : ∀ version, Required s.tokenVersions version → Required s'.tokenVersions version)
    (encryption : ∀ version, Required s.encryptionVersions version →
      Required s'.encryptionVersions version) : Inv s' where
  rows := inv.rows.of_versions records grants pods token encryption
  transactions := inv.transactions.shrinks (.of_same records grants) running kept

/-- A transaction moves on and the table stays. -/
theorem Inv.put (inv : Inv s) {new : Transaction D} (running : t ∈ s.running)
    (number : new.number = t.number) (ok : TransactionOk s new)
    (held : ∀ lock ∈ new.held, lock ∈ t.held ∨ s.heldByOther t.number lock = false)
    (granted : ∀ id, t.phase = .granted id → new = t) : Inv (s.put new) where
  rows := inv.rows.of_versions rfl rfl (fun _ mem => mem) (fun _ required => required)
    fun _ required => required
  transactions := inv.transactions.put running number ok held granted

theorem Inv.withdraw (inv : Inv s) (deleted : Stored → Bool) :
    Inv (s.withdraw deleted) where
  rows := inv.rows.withdraw deleted
  transactions := inv.transactions.shrinks (.withdraw s deleted) rfl
    fun t mem => (inv.transactions.each t mem).pod

theorem Inv.completed (inv : Inv s) (compatible : Compatible s) {pod : Pod D}
    (running : pod ∈ s.pods) (mem : stored ∈ s.records)
    (transactionTimestamp : Nat) (nonce : Nonce) (response : ReplayResponse)
    (ttl : OneTimeResponseReplayTtl) :
    Inv (s.completed pod transactionTimestamp stored nonce response ttl) := by
  have same : (s.completed pod transactionTimestamp stored nonce response ttl).running =
      s.running ∧
      (s.completed pod transactionTimestamp stored nonce response ttl).pods = s.pods := by
    unfold State.completed
    split <;> exact ⟨rfl, rfl⟩
  refine ⟨inv.rows.completed compatible running mem _ _ _ _, ?_⟩
  apply inv.transactions.shrinks (.completed s pod _ mem _ _ _) same.1
  intro t inRunning
  rw [same.2]
  exact (inv.transactions.each t inRunning).pod

theorem Inv.finish (inv : Inv s) {number : Nat}
    (none : ∀ stored ∈ s.records, stored.insertedBy ≠ some number) : Inv (s.finish number) where
  rows := inv.rows.of_versions rfl rfl (fun _ mem => mem) (fun _ required => required)
    fun _ required => required
  transactions := inv.transactions.finish none

theorem Inv.start (inv : Inv s) (pod : Pod D) : Inv (s.start pod) := by
  refine ⟨inv.rows.start pod, ?_⟩
  have kept := fun t (mem : t ∈ s.running) => (inv.transactions.each t mem).pod
  unfold State.start
  simp only
  split
  · exact inv.transactions
  split
  · exact inv.transactions.shrinks (.of_same rfl rfl) rfl
      fun t mem => List.mem_cons_of_mem _ (kept t mem)
  · exact inv.transactions

theorem record_mem {id : Id} {writer : Option Nat}
    (found : s.record id writer = some stored) :
    stored ∈ s.records ∧ stored.row.id = id ∧ stored.insertedBy = writer := by
  refine ⟨List.mem_of_find?_eq_some found, ?_⟩
  simpa using List.find?_some found

/-- **Every step keeps the invariant** while the running pods read each other's versions. -/
theorem Inv.act (ideal : D.Ideal) (inv : Inv s) (compatible : Compatible s)
    (a : Action D) : Inv (s.act a) := by
  have kept := fun t (mem : t ∈ s.running) => (inv.transactions.each t mem).pod
  cases a with
  | tick duration =>
      exact inv.quiet rfl rfl rfl (fun _ mem => mem) kept (fun _ r => r) fun _ r => r
  | start pod => exact inv.start pod
  | stop name =>
      simp only [State.act]
      split
      · exact inv
      · rename_i idle
        refine inv.quiet rfl rfl rfl (fun _ mem => (Keyed.mem_drop.mp mem).1) ?_ (fun _ r => r)
          fun _ r => r
        intro t mem
        refine Keyed.mem_drop.mpr ⟨kept t mem, fun named => idle ?_⟩
        exact List.any_eq_true.mpr ⟨t, mem, by simpa using named⟩
  | activateToken expected new =>
      simp only [State.act]
      split
      · rename_i versions ok
        exact inv.quiet rfl rfl rfl (fun _ mem => mem) kept (fun _ r => activate_keeps ok r)
          fun _ r => r
      · exact inv
  | activateEncryption expected new =>
      simp only [State.act]
      split
      · rename_i versions ok
        exact inv.quiet rfl rfl rfl (fun _ mem => mem) kept (fun _ r => r)
          fun _ r => activate_keeps ok r
      · exact inv
  | begin number name kind request translated legacy =>
      simp only [State.act]
      split
      · rename_i pod running fresh
        have opened := TransactionOk.begin inv (Keyed.mem_of_get running) number kind request
          translated legacy
        have fields : (s.beginTransaction number pod kind request translated legacy).number =
            number ∧
            (s.beginTransaction number pod kind request translated legacy).held = [] := by
          unfold State.beginTransaction
          split <;> exact ⟨rfl, rfl⟩
        constructor
        · exact inv.rows.of_versions rfl rfl (fun _ mem => mem) (fun _ r => r) fun _ r => r
        · apply inv.transactions.begin _ opened fields.2
          rw [fields.1]
          exact Keyed.get_eq_none.mp fresh
      · exact inv
  | lock number =>
      simp only [State.act]
      split
      · rename_i t found
        have mem : t ∈ s.running := Keyed.mem_of_get found
        obtain ⟨same, held, granted⟩ := lockStep_held (s := s) (t := t)
        exact inv.put mem same (inv.transactions.each t mem).lockStep held granted
      · exact inv
  | look number =>
      simp only [State.act]
      split
      · rename_i t found
        have mem : t ∈ s.running := Keyed.mem_of_get found
        refine inv.put mem rfl (inv.transactions.each t mem).look (fun lock held => .inl held) ?_
        intro id granted
        unfold State.lookPhase
        simp only [granted]
        rw [← granted]
      · exact inv
  | insert number record =>
      simp only [State.act]
      split
      · rename_i t found
        split
        · rename_i may
          exact inv.insert ideal compatible (Keyed.mem_of_get found) may
        · exact inv
      · exact inv
  | complete number nonce response ttl =>
      simp only [State.act]
      split
      · rename_i t found
        split
        · split
          · rename_i stored row
            exact inv.completed compatible (kept t (Keyed.mem_of_get found)) (record_mem row).1
              _ _ _ _
          · exact inv
        · exact inv
      · exact inv
  | completeLater name id transactionTimestamp nonce response ttl =>
      simp only [State.act]
      split
      · rename_i pod stored running row
        split
        · exact inv.completed compatible (Keyed.mem_of_get running) (record_mem row).1 _ _ _ _
        · exact inv
      · exact inv
  | cancel number => exact inv.withdraw _
  | cancelLater id => exact inv.withdraw _
  | commit number =>
      have published : Inv (s.publish number) :=
        ⟨inv.rows.publish number, inv.transactions.publish number⟩
      exact published.finish publish_insertedBy
  | rollback number =>
      apply (inv.withdraw _).finish
      intro stored mem
      simpa using (mem_withdraw.mp mem).2

/-! ## Answers -/

/-- What an answer may say.  A record of the request's own slot that the
transaction can see decides it, for a lookup if it was there when the lookup
began; and only the response of a completed record of one of the request's
spellings is ever replayed, to a transaction that began in its window. -/
structure RightAnswer (s : State D) (t : Transaction D) (answer : Answer) : Prop where
  own : ∀ stored ∈ s.records, stored.insertedBy = none → stored.origin.slot = t.request.slot →
    (t.kind = .claim ∨ stored.row.id ∈ t.beganWith) → answer = verdict stored t
  replayed : ∀ response, answer = .replay response → ∃ stored ∈ s.records,
    stored.insertedBy = none ∧
      (stored.origin.callerScope, stored.origin.requestPayload) ∈ t.spellings ∧
      stored.origin.route = t.request.route ∧ stored.origin.key.bytes = t.request.key.bytes ∧
      ∃ completion, stored.completion = some completion ∧ completion.response = response ∧
        t.startedAt < completion.availableUntil ∧ Completed D stored.row completion

def RightAnswers (s : State D) (a : Action D) : Prop :=
  ∀ t answer, s.answer a = some (t, answer) → RightAnswer s t answer

theorem verdict_eq_replay {response : ReplayResponse}
    (replay : verdict stored t = .replay response) :
    (stored.origin.callerScope, stored.origin.requestPayload) ∈ t.spellings ∧
      ∃ completion, stored.completion = some completion ∧ completion.response = response ∧
        t.startedAt < completion.availableUntil := by
  unfold verdict at replay
  split at replay
  · rename_i spelled
    refine ⟨spelled, ?_⟩
    split at replay
    · cases replay
    · rename_i completion done
      split at replay
      · rename_i available
        cases replay
        exact ⟨completion, done, rfl, available⟩
      · cases replay
  · cases replay

/-- A visible record a candidate finds answers its verdict. -/
theorem found_verdict (ideal : D.Ideal) (inv : Inv s)
    (running : t ∈ s.running) (unanswered : ∀ answer, t.phase ≠ .answered answer)
    {candidate : DigestCandidate} (mem : candidate ∈ t.candidates)
    (inTable : stored ∈ s.records) (found : t.finds candidate stored) :
    State.classified t stored.row
      (matchingRequest t.candidates candidate stored.row.requestDigest) = verdict stored t := by
  have ok := inv.transactions.each t running
  have formed := (ok.formed unanswered).2
  have openable : Openable t.pod stored.row := fun body kept =>
    ((inv.rows.served stored inTable).response body kept).2 _ ok.pod
  rw [formed] at mem ⊢
  exact classified_eq ideal (inv.rows.settled stored inTable) openable
    (matchingRequest_iff ideal (inv.rows.faithful stored inTable) mem found)

/-- When the own block of the candidates has an entry not looked at yet, the next
candidate is in it. -/
theorem next_own {own others rest : List DigestCandidate} {next entry : DigestCandidate}
    (split : seen ++ next :: rest = own ++ others) (mem : entry ∈ own) (unseen : entry ∉ seen) :
    next ∈ own := by
  rcases List.append_eq_append_iff.mp split with ⟨between, ownEq, restEq⟩ | ⟨between, seenEq, -⟩
  · have later : entry ∈ between := by
      rw [ownEq] at mem
      exact (List.mem_append.mp mem).resolve_left unseen
    cases between with
    | nil => cases later
    | cons first more =>
        obtain ⟨rfl, -⟩ := List.cons.inj restEq
        rw [ownEq]
        exact List.mem_append_right _ List.mem_cons_self
  · exact absurd (seenEq ▸ List.mem_append_left _ mem) unseen

/-- A visible record of the own slot that counts for the answer has not been passed. -/
theorem own_unseen (ideal : D.Ideal) (inv : Inv s)
    (running : t ∈ s.running) {rest : List DigestCandidate}
    (phase : t.phase = .looking seen rest) (inTable : stored ∈ s.records)
    (committed : stored.insertedBy = none) (slot : stored.origin.slot = t.request.slot)
    (counts : t.kind = .claim ∨ stored.row.id ∈ t.beganWith) :
    ∃ version ∈ t.pod.crypto.tokenPeppers.versions,
      D.candidate t.request.key.bytes (t.request.callerScope, t.request.requestPayload) version
        ∉ seen := by
  have ok := inv.transactions.each t running
  obtain ⟨held, found⟩ := own_candidate ideal inv.rows ok.pod inTable slot
  refine ⟨_, held, fun passed => ?_⟩
  obtain ⟨isLookup, later⟩ := ok.looked _ _ phase _ passed stored inTable committed found
  rcases counts with claim | began
  · rw [claim] at isLookup
    cases isLookup
  · exact later began

theorem rightAnswer_look (ideal : D.Ideal) (inv : Inv s)
    (running : t ∈ s.running) {rest : List DigestCandidate}
    (phase : t.phase = .looking seen rest) {answer : Answer}
    (answered : s.lookPhase t = .answered answer) : RightAnswer s t answer := by
  have ok := inv.transactions.each t running
  have unanswered : ∀ answer, t.phase ≠ .answered answer := fun answer => by simp [phase]
  have formed := (ok.formed unanswered).2
  have split := ok.split _ _ phase
  obtain ⟨others, whole⟩ := t.expected_eq
  rw [formed, whole] at split
  unfold State.lookPhase at answered
  simp only [phase] at answered
  cases rest with
  | nil =>
      -- a lookup that has passed every candidate
      simp only at answered
      by_cases isLookup : t.kind = .lookup
      · rw [if_pos isLookup] at answered
        cases answered
        refine ⟨fun stored inTable committed slot counts => ?_, fun _ replay => by cases replay⟩
        obtain ⟨version, held, unseen⟩ :=
          own_unseen ideal inv running phase inTable committed slot counts
        rw [List.append_nil] at split
        refine absurd ?_ unseen
        rw [split]
        exact List.mem_append_left _ (List.mem_map.mpr ⟨version, held, rfl⟩)
      · rw [if_neg isLookup] at answered
        cases answered
  | cons candidate rest =>
      simp only at answered
      have inCandidates : candidate ∈ t.candidates := by
        rw [← ok.split _ _ phase]
        exact List.mem_append_right _ List.mem_cons_self
      cases find : s.committed.find? fun stored =>
          matchesCandidate t.request.route candidate stored.row with
      | none => rw [find] at answered; cases answered
      | some stored =>
          rw [find] at answered
          have found := List.find?_some find
          have visible := List.mem_of_find?_eq_some find
          simp only [State.committed, List.mem_filter, decide_eq_true_eq] at visible
          have given : answer = verdict stored t := by
            rw [← found_verdict ideal inv running unanswered inCandidates visible.1 found]
            exact (Phase.answered.inj answered).symm
          constructor
          · -- the first record found is the one of the own slot
            intro other inTable committed slot counts
            obtain ⟨version, held, unseen⟩ :=
              own_unseen ideal inv running phase inTable committed slot counts
            have own := next_own split (List.mem_map.mpr ⟨version, held, rfl⟩) unseen
            obtain ⟨version', -, rfl⟩ := List.mem_map.mp own
            have slot' := ((matches_iff ideal (inv.rows.faithful stored visible.1)
              _ _ _ _).mp found).2
            rw [given, inv.rows.slots stored visible.1 other inTable (slot'.trans slot.symm)]
          · intro response replay
            obtain ⟨spelled, completion, done, same, available⟩ :=
              verdict_eq_replay (given.symm.trans replay)
            have stage := (inv.rows.settled stored visible.1).stage
            rw [done] at stage
            rw [formed] at inCandidates
            obtain ⟨spelling, -, version, -, rfl⟩ := Transaction.mem_expected.mp inCandidates
            have slot := ((matches_iff ideal (inv.rows.faithful stored visible.1)
              _ _ _ _).mp found).2
            simp only [IdempotencyRequest.slot, Prod.mk.injEq] at slot
            exact ⟨stored, visible.1, visible.2, spelled, slot.2.1, slot.2.2, completion, done,
              same, available, stage⟩

/-- **Every answer is right.** -/
theorem Inv.rightAnswers (ideal : D.Ideal) (inv : Inv s) (a : Action D) :
    RightAnswers s a := by
  intro t answer given
  cases a <;> simp only [State.answer, reduceCtorEq] at given
  case begin number name kind request translated legacy =>
    split at given
    · rename_i pod running fresh
      -- only a malformed route is answered at once, and no record has one
      unfold State.beginTransaction at given
      cases made : claimCandidates D.mac D.plane pod.crypto.tokenPeppers request translated
          legacy with
      | error error =>
          simp only [made, Option.some.injEq, Prod.mk.injEq] at given
          obtain ⟨rfl, rfl⟩ := given
          refine ⟨fun stored inTable _ slot _ => ?_, fun _ replay => by cases replay⟩
          have route : stored.origin.route = request.route := (Prod.mk.inj (Prod.mk.inj slot).2).1
          have valid := (inv.rows.faithful stored inTable).route
          rw [route, claimCandidates_eq_error made] at valid
          cases valid
      | ok candidates => cases kind <;> simp [made] at given
    · cases given
  case look number =>
    split at given
    · rename_i u found
      split at given
      · rename_i seen rest decided phase answered
        cases given
        exact rightAnswer_look ideal inv (Keyed.mem_of_get found) phase answered
      · cases given
    · cases given
  case insert number record =>
    split at given
    · rename_i u found
      obtain ⟨may, given⟩ := Option.ite_none_right_eq_some.mp given
      have running : u ∈ s.running := Keyed.mem_of_get found
      obtain ⟨claim, ⟨seen, phase⟩, -⟩ := mayInsert_iff.mp may
      have free : ∀ stored ∈ s.records, stored.origin.slot ≠ u.request.slot :=
        fun stored inTable => slot_free ideal inv running claim phase inTable
      rcases insertion_cases inv.transactions running claim phase record with inserted | decided
      · simp only [inserted, Option.some.injEq, Prod.mk.injEq] at given
        obtain ⟨rfl, rfl⟩ := given
        exact ⟨fun stored inTable _ slot _ => absurd slot (free stored inTable),
          fun _ replay => by cases replay⟩
      · simp only [decided, Option.some.injEq, Prod.mk.injEq] at given
        obtain ⟨rfl, rfl⟩ := given
        exact ⟨fun stored inTable _ slot _ => absurd slot (free stored inTable),
          fun _ replay => by cases replay⟩
    · cases given

/-! ## Committed responses -/

/-- Completed visible records stay as they are. -/
def Keeps (s s' : State D) : Prop :=
  ∀ stored ∈ s.records, stored.insertedBy = none → stored.completion ≠ none → stored ∈ s'.records

theorem not_pristine (settled : Settled D stored)
    (done : stored.completion ≠ none) : stored.row.status ≠ .processing := by
  obtain ⟨completion, eq⟩ := Option.ne_none_iff_exists'.mp done
  have stage := settled.stage
  rw [eq] at stage
  rw [stage.status]
  decide

theorem keeps_completed (rows : Rows s) (pod : Pod D) (transactionTimestamp : Nat)
    {target : Stored} (mem : target ∈ s.records) (nonce : Nonce) (response : ReplayResponse)
    (ttl : OneTimeResponseReplayTtl) :
    Keeps s (s.completed pod transactionTimestamp target nonce response ttl) := by
  intro stored inTable committed done
  unfold State.completed
  split
  · exact inTable
  rename_i row ok
  obtain ⟨open', body, -, rfl⟩ := completeWithReplayTtl_eq_ok ok
  refine Keyed.mem_put_of_ne inTable fun same => ?_
  have eq : stored = target := rows.ids stored inTable target mem same
  exact not_pristine (rows.settled stored inTable) done (eq ▸ open')

theorem keeps_withdraw (deleted : Stored → Bool)
    (spares : ∀ stored ∈ s.records, stored.insertedBy = none → stored.completion ≠ none →
      deleted stored = false) : Keeps s (s.withdraw deleted) :=
  fun stored inTable committed done =>
    mem_withdraw.mpr ⟨inTable, spares stored inTable committed done⟩

theorem Inv.keeps_act (inv : Inv s) (a : Action D) : Keeps s (s.act a) := by
  have same : Keeps s s := fun _ inTable _ _ => inTable
  cases a with
  | tick duration => exact same
  | start pod =>
      intro stored inTable _ _
      simp only [State.act, State.start]
      split
      · exact inTable
      split <;> exact inTable
  | stop name => simp only [State.act]; split <;> exact same
  | activateToken expected new => simp only [State.act]; split <;> exact same
  | activateEncryption expected new => simp only [State.act]; split <;> exact same
  | begin number name kind request translated legacy =>
      simp only [State.act]; split <;> exact same
  | lock number => simp only [State.act]; split <;> exact same
  | look number => simp only [State.act]; split <;> exact same
  | insert number record =>
      simp only [State.act]
      split
      · split
        · intro stored inTable _ _
          unfold State.insert
          split
          · exact inTable
          · exact inTable
          · exact List.mem_cons_of_mem _ inTable
        · exact same
      · exact same
  | complete number nonce response ttl =>
      simp only [State.act]
      split
      · split
        · split
          · rename_i stored row
            exact keeps_completed inv.rows _ _ (record_mem row).1 _ _ _
          · exact same
        · exact same
      · exact same
  | completeLater name id transactionTimestamp nonce response ttl =>
      simp only [State.act]
      split
      · rename_i pod stored running row
        split
        · exact keeps_completed inv.rows _ _ (record_mem row).1 _ _ _
        · exact same
      · exact same
  | cancel number =>
      apply keeps_withdraw
      intro stored inTable committed done
      simp [committed]
  | cancelLater id =>
      apply keeps_withdraw
      intro stored inTable committed done
      simp [isPristine, not_pristine (inv.rows.settled stored inTable) done]
  | commit number =>
      intro stored inTable committed done
      exact List.mem_map.mpr ⟨stored, inTable, if_neg (by simp [committed])⟩
  | rollback number =>
      apply keeps_withdraw
      intro stored inTable committed done
      simp [committed]

/-! ## Runs -/

/-- **Idempotent requests take effect once.**  Along every run in which the
running pods read each other's current key versions: at most one grant of a
caller, route and key is neither cancelled nor rolled back; every answer is what
the visible record of its slot decides, and what is replayed is the response of a
completed record of one of the request's spellings, to a transaction that began
within its window; and a committed response never changes. -/
theorem requests_take_effect_once (D : Deployment) (ideal : D.Ideal) (as : List (Action D))
    (compatible : AllSteps State.act (fun s _ => Compatible s) (State.initial D) as) :
    AtMostOneGrant (after State.act (State.initial D) as) ∧
      AllSteps State.act RightAnswers (State.initial D) as ∧
      ∀ before later, as = before ++ later →
        Keeps (after State.act (State.initial D) before)
          (after State.act (State.initial D) as) := by
  have start : Inv (State.initial D) := ⟨.initial, .initial⟩
  have keeps : ∀ s a, Inv s → Compatible s → Inv (s.act a) :=
    fun s a inv good => inv.act ideal good a
  refine ⟨(AllSteps.after keeps as _ start compatible).rows.atMostOneGrant, ?_, ?_⟩
  · exact AllSteps.imp keeps (fun s a inv _ => inv.rightAnswers ideal a) as _ start compatible
  · rintro before later rfl
    obtain ⟨first, second⟩ := (allSteps_append before later _).mp compatible
    rw [after_append]
    apply allSteps_relates (R := Keeps) (fun _ _ inTable _ _ => inTable)
      (fun s t u one two stored inTable committed done =>
        two stored (one stored inTable committed done) committed done)
      keeps (fun s a inv _ => inv.keeps_act a) later _
      (AllSteps.after keeps before _ start first) second

/-! ## Poles -/

section Poles

def oneKey : Key := ⟨List.replicate 32 1, rfl⟩

def versionKey (version : Int16) : Key := if version = 1 then zeroKey else oneKey

/-- Keys in front of messages. -/
def prefixMac (key : Key) (message : Bytes) : Bytes := key.bytes ++ message

theorem prefixMac_ideal : IdealMac prefixMac := by
  intro key message key' message' same
  obtain ⟨keys, messages⟩ := List.append_inj same (by rw [key.length_eq, key'.length_eq])
  cases key
  cases key'
  exact ⟨by simpa using keys, messages⟩

def twoVersions : Deployment where
  mac := prefixMac
  sha256 := List.reverse
  aead := recordingAead
  plane := none
  pepper := versionKey
  encryptionKey := versionKey

theorem twoVersions_ideal : twoVersions.Ideal := ⟨prefixMac_ideal, recordingAead_ideal⟩

def bothKeys : List (Int16 × Key) := [(1, zeroKey), (2, oneKey)]

def firstRing : Keyring := ⟨1, bothKeys, by decide, by decide⟩

def secondRing : Keyring := ⟨2, bothKeys, by decide, by decide⟩

theorem bothKeys_material (ring : Keyring) (keys : ring.keys = bothKeys) (version : Int16)
    (key : Key) (retained : ring.Retains version key) : key = versionKey version := by
  have mem := Keyring.mem_of_retains retained
  rw [keys] at mem
  simp only [bothKeys, List.mem_cons, Prod.mk.injEq, List.not_mem_nil, or_false] at mem
  rcases mem with ⟨rfl, rfl⟩ | ⟨rfl, rfl⟩ <;> rfl

/-- Before the rotation. -/
def oldPod : Pod twoVersions where
  name := 1
  crypto := ⟨firstRing, ⟨firstRing, [], []⟩⟩
  peppers := bothKeys_material firstRing rfl
  encryptionKeys := bothKeys_material firstRing rfl

/-- After the rotation, beside the old pod. -/
def rotatedPod : Pod twoVersions where
  name := 2
  crypto := ⟨secondRing, ⟨secondRing, [], []⟩⟩
  peppers := bothKeys_material secondRing rfl
  encryptionKeys := bothKeys_material secondRing rfl

def secretRequest : IdempotencyRequest where
  route := ascii "POST /api/v1/me/silicons"
  callerScope := ascii "carbon:c:alice"
  key := ⟨ascii "0123456789abcdef", by decide +kernel⟩
  requestPayload := ascii "canonical-request-a"
  containsOneTimeSecret := true

def recordId : Id := .resource ⟨ascii "abcdefghijklmnop", rfl⟩

/-- Two overlapping claims, one on each side of a rotation.  A second before the window of
the response ends two retries begin, one of which waits two seconds for the other; then a
lookup. -/
def overlap : List (Action twoVersions) :=
  [.start oldPod, .activateToken 1 2, .activateEncryption 1 2, .start rotatedPod,
    .begin 1 1 .claim secretRequest none none, .begin 2 2 .claim secretRequest none none,
    .lock 1, .lock 2, .lock 1, .lock 1, .look 1, .look 1, .insert 1 recordId,
    .complete 1 ⟨ascii "123456789012", by decide⟩ ⟨201, ascii "secret"⟩ .default, .lock 2,
    .tick second, .commit 1, .lock 2, .lock 2, .lock 2, .look 2, .commit 2,
    .tick (598 * second),
    .begin 3 1 .claim secretRequest none none, .begin 4 2 .claim secretRequest none none,
    .lock 3, .lock 3, .lock 3, .lock 4, .look 3, .tick (2 * second), .commit 3,
    .lock 4, .lock 4, .lock 4, .look 4, .commit 4,
    .begin 5 2 .lookup secretRequest none none, .look 5]

instance (s : State D) : Decidable (Compatible s) := by
  unfold Compatible
  infer_instance

theorem overlap_takes_effect_once :
    AtMostOneGrant (after State.act (State.initial twoVersions) overlap) ∧
      AllSteps State.act RightAnswers (State.initial twoVersions) overlap := by
  have whole := requests_take_effect_once twoVersions twoVersions_ideal overlap (by decide +kernel)
  exact ⟨whole.1, whole.2.1⟩

/-- Every retry of a committed request gets its response, or is told to wait. -/
def AlwaysReplays (s : State D) (a : Action D) : Prop :=
  match s.answer a with
  | some (t, answer) => ∀ stored ∈ s.records, stored.insertedBy = none →
      stored.origin = t.request → stored.row.id ∈ t.beganWith →
        answer = .refused (.conflict "idempotency_in_progress") ∨
          stored.completion.map (fun completion => Answer.replay completion.response) = some answer
  | none => True

/-- No secret is handed out once the longest window after its creation has passed. -/
def NeverLate (s : State D) (a : Action D) : Prop :=
  match s.answer a with
  | some (_, .replay response) => ∀ stored ∈ s.records, stored.row.containsOneTimeSecret →
      stored.completion.map Completion.response = some response →
        s.clock < stored.row.createdAt + maxSecretReplaySeconds * second
  | _ => True

instance (s : State D) (a : Action D) : Decidable (AlwaysReplays s a) := by
  unfold AlwaysReplays
  split <;> infer_instance

instance (s : State D) (a : Action D) : Decidable (NeverLate s a) := by
  unfold NeverLate
  split <;> infer_instance

/-- The window is judged by the instant a transaction began: a retry that waited for
another one's lock is still handed the secret after the window, and a lookup that
begins then is told the response has expired. -/
theorem windows_follow_transaction_start :
    twoVersions.Ideal ∧
      AllSteps State.act (fun s _ => Compatible s) (State.initial twoVersions) overlap ∧
      ¬ AllSteps State.act NeverLate (State.initial twoVersions) overlap ∧
      ¬ AllSteps State.act AlwaysReplays (State.initial twoVersions) overlap :=
  ⟨twoVersions_ideal, by decide +kernel⟩

end Poles

end SiliconIam.Postgres.Idempotency
