/-
# Organizations.GovernanceHistory -- the histories are complete chains

The two histories of a membership, over every run of the organization's transactions in
any order.  Seen as ledgers, job description and tags move by the rules of a value that
keeps its own history (`jobRole_step`, `tag_step`): a membership that stays active
changes by rows only, and the ends of its active periods write none.

`histories_complete` says of every transaction what rows it writes, and of every active
period that its rows lead from the values at its start to the values at its end.  A
removal empties the tags of the membership and leaves no row of that
(`removal_unrecorded`).
-/
import SiliconIam.Organizations.GovernanceMoves

namespace SiliconIam.Organizations.Governance

set_option autoImplicit false

open SiliconIam.Theory.Runs SiliconIam.Theory.ChangeLog

/-! ## Moves of the two ledgers -/

namespace View

def isActive (v : View) : Bool := v.row.any fun row => row.status = .active

def jobRoleLedger (v : View) : Ledger String where
  live := v.isActive
  value := v.row.elim "" (·.jobRole)
  version := v.row.elim 0 (·.version)
  rows := v.jobRoleChanges

def tagLedger (v : View) : Ledger TagSet where
  live := v.isActive
  value := v.tags
  version := v.row.elim 0 (·.version)
  rows := v.tagChanges

variable {v w : View} {row : Membership}

theorem isActive_of_inactive (found : v.row = some row) (inactive : row.status ≠ .active) :
    v.isActive = false := by
  unfold isActive
  rw [found]
  exact decide_eq_false inactive

theorem isActive_of_none (absent : v.row = none) : v.isActive = false := by
  unfold isActive
  rw [absent]
  rfl

theorem isActive_eq_false (inactive : ∀ row, v.row = some row → row.status ≠ .active) :
    v.isActive = false := by
  cases found : v.row with
  | none => exact isActive_of_none found
  | some row => exact isActive_of_inactive found (inactive row found)

end View

theorem Move.jobRole_step {v w : View} (move : Move v w) :
    Ledger.Step v.jobRoleLedger w.jobRoleLedger := by
  cases move with
  | same => exact .stay _ _ (Nat.le_refl _)
  | admitted row tags absent =>
      refine .cross v.jobRoleLedger _ _ _ (.inl (View.isActive_of_none absent)) ?_
      simp [View.jobRoleLedger, absent]
  | touched row found =>
      obtain ⟨_, tags, jobRoleChanges, tagChanges⟩ := v
      obtain rfl := found
      exact .stay _ _ (Nat.le_succ row.version)
  | readmitted row jobRole tags found inactive =>
      refine .cross v.jobRoleLedger _ _ _ (.inl (View.isActive_of_inactive found inactive)) ?_
      simp [View.jobRoleLedger, found]
  | removed row found active =>
      refine .cross v.jobRoleLedger _ _ _ (.inr ?_) ?_
      · rfl
      · simp [View.jobRoleLedger, found]
  | released tags inactive => exact .stay _ _ (Nat.le_refl _)
  | jobRoleChanged row applied found active =>
      obtain ⟨_, tags, jobRoleChanges, tagChanges⟩ := v
      obtain rfl := found
      exact .change _ applied (row.version + 1) (decide_eq_true active) (Nat.lt_succ_self _)
  | tagsChanged row applied found active =>
      obtain ⟨_, tags, jobRoleChanges, tagChanges⟩ := v
      obtain rfl := found
      exact .stay _ _ (Nat.le_succ row.version)

theorem Move.tag_step {v w : View} (move : Move v w) :
    Ledger.Step v.tagLedger w.tagLedger := by
  cases move with
  | same => exact .stay _ _ (Nat.le_refl _)
  | admitted row tags absent =>
      refine .cross v.tagLedger _ _ _ (.inl (View.isActive_of_none absent)) ?_
      simp [View.tagLedger, absent]
  | touched row found =>
      obtain ⟨_, tags, jobRoleChanges, tagChanges⟩ := v
      obtain rfl := found
      exact .stay _ _ (Nat.le_succ row.version)
  | readmitted row jobRole tags found inactive =>
      refine .cross v.tagLedger _ _ _ (.inl (View.isActive_of_inactive found inactive)) ?_
      simp [View.tagLedger, found]
  | removed row found active =>
      refine .cross v.tagLedger _ _ _ (.inr ?_) ?_
      · rfl
      · simp [View.tagLedger, found]
  | released tags inactive =>
      exact .cross v.tagLedger _ _ _ (.inl (View.isActive_eq_false inactive)) (Nat.le_refl _)
  | jobRoleChanged row applied found active =>
      obtain ⟨_, tags, jobRoleChanges, tagChanges⟩ := v
      obtain rfl := found
      exact .stay _ _ (Nat.le_succ row.version)
  | tagsChanged row applied found active =>
      obtain ⟨_, tags, jobRoleChanges, tagChanges⟩ := v
      obtain rfl := found
      exact .change _ applied (row.version + 1) (decide_eq_true active) (Nat.lt_succ_self _)

/-! ## Steps and runs -/

section Steps

variable (m : Nat)

theorem jobRole_step (db : Database) (action : Action) :
    Ledger.Step (db.jobRoleLedger m) ((next db action).jobRoleLedger m) :=
  (Database.next_moves db action m).jobRole_step

theorem tag_step (db : Database) (action : Action) :
    Ledger.Step (db.tagLedger m) ((next db action).tagLedger m) :=
  (Database.next_moves db action m).tag_step

/-- No row of either history is ahead of its membership. -/
def Bounded (db : Database) : Prop :=
  ∀ m, (db.jobRoleLedger m).Bounded ∧ (db.tagLedger m).Bounded

theorem bounded_empty : Bounded Database.empty :=
  fun _ => ⟨fun _ mem => absurd mem List.not_mem_nil, fun _ mem => absurd mem List.not_mem_nil⟩

theorem bounded_next (db : Database) (action : Action) (bounded : Bounded db) :
    Bounded (next db action) := fun m =>
  ⟨(jobRole_step m db action).bounded (bounded m).1, (tag_step m db action).bounded (bounded m).2⟩

theorem recordedVersions_le {db : Database} (bounded : Bounded db) :
    ∀ version ∈ db.recordedVersions m, version ≤ db.versionOf m := by
  intro version mem
  rcases List.mem_append.mp mem with listed | listed
  · obtain ⟨row, held, rfl⟩ := List.mem_map.mp listed
    exact (bounded m).1 row held
  · obtain ⟨row, held, rfl⟩ := List.mem_map.mp listed
    exact (bounded m).2 row held

end Steps

/-- What one transaction writes into the histories of a membership: a row of the change
it makes, at the version it produces and newer than every row in either history. -/
structure Records (before after : Database) (m : Nat) : Prop where
  jobRole : Ledger.Recorded (before.recordedVersions m) (before.jobRoleLedger m)
    (after.jobRoleLedger m)
  tags : Ledger.Recorded (before.recordedVersions m) (before.tagLedger m) (after.tagLedger m)

/-- What was written to one history between two states leads from the value in the first
to the value in the second. -/
def LeadsTo {α : Type} (s t : Ledger α) : Prop :=
  ∃ rows, t.rows = s.rows ++ rows ∧ Linked s.value rows t.value ∧
    rows.IsChain fun row next => next.previous = row.applied

theorem records_of_bounded (db : Database) (action : Action) (bounded : Bounded db) (m : Nat) :
    Records db (next db action) m where
  jobRole := (jobRole_step m db action).recorded (recordedVersions_le m bounded)
  tags := (tag_step m db action).recorded (recordedVersions_le m bounded)

theorem leadsTo_of_active {m : Nat} (actions : List Action) (db : Database)
    (active : AllSteps next (fun before action =>
      before.isActive m = true ∧ (next before action).isActive m = true) db actions) :
    LeadsTo (db.jobRoleLedger m) ((after next db actions).jobRoleLedger m) ∧
      LeadsTo (db.tagLedger m) ((after next db actions).tagLedger m) := by
  obtain ⟨roles, written, linked⟩ := linked_of_live (jobRole_step m) actions db active
  obtain ⟨tags, assigned, joined⟩ := linked_of_live (tag_step m) actions db active
  exact ⟨⟨roles, written, linked, linked.chain⟩, ⟨tags, assigned, joined, joined.chain⟩⟩

theorem histories_complete (actions : List Action) :
    AllSteps next (fun before action => ∀ m, Records before (next before action) m)
      Database.empty actions ∧
    ∀ m earlier period, actions = earlier ++ period →
      AllSteps next (fun before action =>
        before.isActive m = true ∧ (next before action).isActive m = true)
        (after next Database.empty earlier) period →
      LeadsTo ((after next Database.empty earlier).jobRoleLedger m)
        ((after next Database.empty actions).jobRoleLedger m) ∧
      LeadsTo ((after next Database.empty earlier).tagLedger m)
        ((after next Database.empty actions).tagLedger m) := by
  constructor
  · exact allSteps_of_invariant bounded_next records_of_bounded actions Database.empty
      bounded_empty
  · rintro m earlier period rfl active
    rw [after_append]
    exact leadsTo_of_active period (after next Database.empty earlier) active

/-! ## Removals -/

/-- An owner tags a member that accepted its invitation, and removes it. -/
def taggedRemoval : List Action :=
  [.create ⟨1, 10, .carbon, "", TagSet.empty, true⟩, .createTag 7,
    .completeInvitation ⟨true, true, 2, 20, "", TagSet.empty⟩,
    .replaceTags ⟨true, 1, 2, 1⟩ [7], .remove true 2 2 []]

/-- The removal of a membership changes its tags, from the ones it had to none, and
writes no row. -/
theorem removal_unrecorded :
    ¬ ∀ actions : List Action, AllSteps next (fun before action => ∀ m,
      before.isActive m = true →
      ((next before action).tagLedger m).value ≠ (before.tagLedger m).value →
      ∃ row, ((next before action).tagLedger m).rows = (before.tagLedger m).rows ++ [row])
      Database.empty actions := by
  intro recorded
  obtain ⟨_, _, _, _, removal, _⟩ := recorded taggedRemoval
  obtain ⟨row, written⟩ := removal 2 (by decide +kernel) (by decide +kernel)
  have longer := congrArg List.length written
  rw [List.length_append, List.length_singleton] at longer
  revert longer
  decide +kernel

end SiliconIam.Organizations.Governance
