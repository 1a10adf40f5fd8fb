/-
# Organizations.GovernanceMoves -- what one transaction does to one membership

A membership is seen here as its row, its tags and its rows in the two histories
(`View`).  `Move` lists what a transaction can do to that view, with everything it needs
to have found, and `next_moves` says that every transaction of the organization does one
of these to every membership: the deletion of a tag is one move of each holder.
-/
import SiliconIam.Organizations.Governance

namespace SiliconIam.Organizations.Governance

set_option autoImplicit false

open SiliconIam.Theory SiliconIam.Theory.Fallible SiliconIam.Theory.ChangeLog

@[ext]
structure View where
  row : Option Membership
  tags : TagSet
  jobRoleChanges : List (Change String)
  tagChanges : List (Change TagSet)

inductive Move : View → View → Prop
  | same (v : View) : Move v v
  | admitted (v : View) (row : Membership) (tags : TagSet) (absent : v.row = none) :
      Move v { v with row := some row, tags := tags }
  | touched (v : View) (row : Membership) (found : v.row = some row) :
      Move v { v with row := some { row with version := row.version + 1 } }
  | readmitted (v : View) (row : Membership) (jobRole : String) (tags : TagSet)
      (found : v.row = some row) (inactive : row.status ≠ .active) :
      Move v
        { v with
          row := some { row with
            status := .active, jobRole := jobRole, version := row.version + 1 }
          tags := tags }
  | removed (v : View) (row : Membership) (found : v.row = some row)
      (active : row.status = .active) :
      Move v
        { v with
          row := some { row with status := .removed, version := row.version + 1 }
          tags := TagSet.empty }
  /-- A deleted tag is taken from a membership that is not active. -/
  | released (v : View) (tags : TagSet)
      (inactive : ∀ row, v.row = some row → row.status ≠ .active) :
      Move v { v with tags := tags }
  | jobRoleChanged (v : View) (row : Membership) (applied : String) (found : v.row = some row)
      (active : row.status = .active) :
      Move v
        { v with
          row := some { row with jobRole := applied, version := row.version + 1 }
          jobRoleChanges := v.jobRoleChanges ++ [⟨row.jobRole, applied, row.version + 1⟩] }
  | tagsChanged (v : View) (row : Membership) (applied : TagSet) (found : v.row = some row)
      (active : row.status = .active) :
      Move v
        { v with
          row := some { row with version := row.version + 1 }
          tags := applied
          tagChanges := v.tagChanges ++ [⟨v.tags, applied, row.version + 1⟩] }

/-- A view is given by its four parts. -/
theorem Move.reaches {before after w : View} (moved : Move before w) (row : after.row = w.row)
    (tags : after.tags = w.tags) (jobRoleChanges : after.jobRoleChanges = w.jobRoleChanges)
    (tagChanges : after.tagChanges = w.tagChanges) : Move before after := by
  rw [View.ext row tags jobRoleChanges tagChanges]
  exact moved

namespace Database

def view (db : Database) (membershipId : Nat) : View where
  row := db.memberships.get? membershipId
  tags := db.membershipTags membershipId
  jobRoleChanges := changesOf db.jobRoleHistory membershipId
  tagChanges := changesOf db.membershipTagChangeHistory membershipId

/-! ## Statements -/

section Statements

variable {α : Type} {db after : Database} {id m : Nat}

theorem changesOf_append (rows more : List (HistoryRow α)) (m : Nat) :
    changesOf (rows ++ more) m = changesOf rows m ++ changesOf more m := by
  simp [changesOf]

theorem changesOf_self (source : HistorySource) (change : Change α) :
    changesOf [⟨m, source, change⟩] m = [change] := by
  simp [changesOf]

theorem changesOf_other (source : HistorySource) (change : Change α) (other : m ≠ id) :
    changesOf [⟨id, source, change⟩] m = [] := by
  simp [changesOf, other.symm]

theorem get?_updateMembership (db : Database) (id : Nat) (set : Membership → Membership)
    (keeps : ∀ row, (set row).id = row.id) (m : Nat) :
    (db.updateMembership id set keeps).memberships.get? m =
      if m = id then
        (db.memberships.get? m).map fun row => { set row with version := row.version + 1 }
      else db.memberships.get? m := by
  unfold updateMembership
  rw [Table.get?_update]
  cases found : db.memberships.get? m with
  | none => simp
  | some row =>
      obtain ⟨-, keyed⟩ := Table.get?_eq_some.mp found
      by_cases here : m = id
      · simp [here, keyed]
      · simp [here, keyed]

theorem get?_touchMemberships (db : Database) (picked : Membership → Bool) (m : Nat) :
    (db.touchMemberships picked).memberships.get? m =
      (db.memberships.get? m).map fun row =>
        if picked row then { row with version := row.version + 1 } else row := by
  unfold touchMemberships
  rw [Table.get?_update]

theorem tags_replaceTags (db : Database) (id : Nat) (tags : TagSet) (m : Nat) :
    (db.replaceTags id tags).membershipTags m =
      if m = id then tags else db.membershipTags m := by
  simp [replaceTags, Function.update_apply]

theorem insertJobRoleHistory_ok {row : HistoryRow String}
    (ok : db.insertJobRoleHistory row = .ok after) :
    after = { db with jobRoleHistory := db.jobRoleHistory ++ [row] } := by
  obtain ⟨_, _, ok⟩ := bind_ok.mp ok
  exact (return_ok.mp ok).symm

theorem insertTagHistory_ok {rows : List (HistoryRow TagSet)}
    (ok : db.insertTagHistory rows = .ok after) :
    after =
      { db with membershipTagChangeHistory := db.membershipTagChangeHistory ++ rows } := by
  obtain ⟨_, _, ok⟩ := bind_ok.mp ok
  exact (return_ok.mp ok).symm

theorem insertMembership_ok {row : Membership} (ok : db.insertMembership row = .ok after) :
    ∃ memberships, db.memberships.insert row = some memberships ∧
      after = { db with memberships } := by
  obtain ⟨_, _, ok⟩ := bind_ok.mp ok
  obtain ⟨memberships, inserted, ok⟩ := bind_ok.mp ok
  exact ⟨memberships, orElse_ok.mp inserted, (return_ok.mp ok).symm⟩

/-- A touched membership was touched or left alone. -/
theorem touchMemberships_moves (db : Database) (picked : Membership → Bool) (m : Nat) :
    Move (db.view m) ((db.touchMemberships picked).view m) := by
  have written := get?_touchMemberships db picked m
  cases found : db.memberships.get? m with
  | none =>
      rw [found] at written
      exact (Move.same (db.view m)).reaches (written.trans found.symm) rfl rfl rfl
  | some row =>
      rw [found, Option.map_some] at written
      by_cases here : picked row = true
      · rw [if_pos here] at written
        exact (Move.touched (db.view m) row found).reaches written rfl rfl rfl
      · rw [if_neg here] at written
        exact (Move.same (db.view m)).reaches (written.trans found.symm) rfl rfl rfl

end Statements

/-! ## The two fields -/

section Fields

variable {db after : Database} {id m : Nat} {target : Membership}

/-- The statements of a job description change. -/
theorem jobRole_moves (source : HistorySource) (jobRole : String)
    (found : db.memberships.get? id = some target) (active : target.status = .active)
    (ok : (db.updateMembership id (fun row => { row with jobRole := jobRole })
      fun _ => rfl).insertJobRoleHistory
        ⟨id, source, ⟨target.jobRole, jobRole, target.version + 1⟩⟩ = .ok after) (m : Nat) :
    Move (db.view m) (after.view m) := by
  obtain rfl := insertJobRoleHistory_ok ok
  have written := get?_updateMembership db id
    (fun row => { row with jobRole := jobRole }) (fun _ => rfl) m
  have listed := changesOf_append db.jobRoleHistory
    [⟨id, source, ⟨target.jobRole, jobRole, target.version + 1⟩⟩] m
  by_cases here : m = id
  · subst here
    rw [if_pos rfl, found] at written
    rw [changesOf_self] at listed
    exact (Move.jobRoleChanged (db.view m) target jobRole found active).reaches written rfl listed rfl
  · rw [if_neg here] at written
    rw [changesOf_other _ _ here, List.append_nil] at listed
    exact (Move.same (db.view m)).reaches written rfl listed rfl

/-- The statements of a tag change. -/
theorem tags_moves (source : HistorySource) (tags : TagSet)
    (found : db.memberships.get? id = some target) (active : target.status = .active)
    (ok : ((db.replaceTags id tags).updateMembership id (fun row => row)
      fun _ => rfl).insertTagHistory
        [⟨id, source, ⟨db.membershipTags id, tags, target.version + 1⟩⟩] = .ok after) (m : Nat) :
    Move (db.view m) (after.view m) := by
  obtain rfl := insertTagHistory_ok ok
  have written := get?_updateMembership (db.replaceTags id tags) id
    (fun row => row) (fun _ => rfl) m
  have assigned := tags_replaceTags db id tags m
  have listed := changesOf_append db.membershipTagChangeHistory
    [⟨id, source, ⟨db.membershipTags id, tags, target.version + 1⟩⟩] m
  by_cases here : m = id
  · subst here
    rw [if_pos rfl, show (db.replaceTags m tags).memberships.get? m = _ from found] at written
    rw [if_pos rfl] at assigned
    rw [changesOf_self] at listed
    exact (Move.tagsChanged (db.view m) target tags found active).reaches written assigned rfl listed
  · rw [if_neg here] at written assigned
    rw [changesOf_other _ _ here, List.append_nil] at listed
    exact (Move.same (db.view m)).reaches written assigned rfl listed

theorem applyJobRoleChange_moves {call : ApprovalCall}
    (ok : db.applyJobRoleChange call = .ok after) (m : Nat) : Move (db.view m) (after.view m) := by
  obtain ⟨_, _, ok⟩ := bind_ok.mp ok
  obtain ⟨request, _, ok⟩ := bind_ok.mp ok
  split at ok
  · cases ok
  · obtain ⟨_, _, ok⟩ := bind_ok.mp ok
    obtain ⟨target, found, ok⟩ := bind_ok.mp ok
    obtain ⟨_, checked, ok⟩ := bind_ok.mp ok
    obtain ⟨active, rfl⟩ := require_ok.mp checked
    obtain ⟨changed, inserted, ok⟩ := bind_ok.mp ok
    obtain ⟨_, _, ok⟩ := bind_ok.mp ok
    obtain rfl := return_ok.mp ok
    exact jobRole_moves _ _ (orElse_ok.mp found) active inserted m

theorem applyApprovedTagChange_moves {call : ApprovalCall} {now : Nat}
    (ok : db.applyApprovedTagChange call now = .ok after) (m : Nat) :
    Move (db.view m) (after.view m) := by
  obtain ⟨_, _, ok⟩ := bind_ok.mp ok
  obtain ⟨request, _, ok⟩ := bind_ok.mp ok
  obtain ⟨_, _, ok⟩ := bind_ok.mp ok
  obtain ⟨_, _, ok⟩ := bind_ok.mp ok
  split at ok
  · cases ok
  · obtain ⟨_, _, ok⟩ := bind_ok.mp ok
    obtain ⟨_, _, ok⟩ := bind_ok.mp ok
    obtain ⟨target, found, ok⟩ := bind_ok.mp ok
    obtain ⟨_, checked, ok⟩ := bind_ok.mp ok
    obtain ⟨_, snapshot, ok⟩ := bind_ok.mp ok
    obtain rfl := require_ok.mp snapshot
    obtain ⟨_, _, ok⟩ := bind_ok.mp ok
    obtain ⟨_, _, ok⟩ := bind_ok.mp ok
    obtain ⟨changed, inserted, ok⟩ := bind_ok.mp ok
    obtain rfl := return_ok.mp ok
    exact tags_moves _ _ (orElse_ok.mp found) (require_ok.mp checked).1 inserted m

end Fields

/-! ## Admission and removal -/

section Membership

variable {db after : Database} {id m : Nat} {row : Membership}

theorem insertMembership_moves (tags : TagSet) (ok : db.insertMembership row = .ok after)
    (m : Nat) : Move (db.view m) ((after.replaceTags row.id tags).view m) := by
  obtain ⟨memberships, inserted, rfl⟩ := insertMembership_ok ok
  have found := Table.get?_insert inserted m
  have assigned := tags_replaceTags { db with memberships } row.id tags m
  by_cases here : m = row.id
  · subst here
    rw [if_pos rfl] at found assigned
    have absent : db.memberships.get? row.id = none :=
      Table.get?_eq_none.mpr (Table.insert_spec inserted).1
    exact (Move.admitted (db.view row.id) row tags absent).reaches found assigned rfl rfl
  · rw [if_neg here] at assigned
    rw [if_neg (Ne.symm here)] at found
    exact (Move.same (db.view m)).reaches found assigned rfl rfl

/-- The statements of a reactivation. -/
theorem readmit_moves (jobRole : String) (tags : TagSet)
    (found : db.memberships.get? id = some row) (inactive : row.status ≠ .active) (m : Nat) :
    Move (db.view m)
      (((db.updateMembership id
        (fun row => { row with status := .active, jobRole := jobRole })
        fun _ => rfl).replaceTags id tags).view m) := by
  have written := get?_updateMembership db id
    (fun row => { row with status := .active, jobRole := jobRole }) (fun _ => rfl) m
  have assigned := tags_replaceTags db id tags m
  by_cases here : m = id
  · subst here
    rw [if_pos rfl, found] at written
    rw [if_pos rfl] at assigned
    exact (Move.readmitted (db.view m) row jobRole tags found inactive).reaches written assigned rfl rfl
  · rw [if_neg here] at written assigned
    exact (Move.same (db.view m)).reaches written assigned rfl rfl

/-- The survivors do not include the membership that is removed. -/
theorem removeOrganizationMembership_moves {permitted : Bool} {expectedVersion : Nat}
    {removalScope : List Nat}
    (ok : db.removeOrganizationMembership permitted id expectedVersion removalScope = .ok after)
    (m : Nat) : Move (db.view m) (after.view m) := by
  obtain ⟨_, _, ok⟩ := bind_ok.mp ok
  obtain ⟨_, _, ok⟩ := bind_ok.mp ok
  obtain ⟨target, found, ok⟩ := bind_ok.mp ok
  obtain ⟨_, checked, ok⟩ := bind_ok.mp ok
  have found := orElse_ok.mp found
  have active := (require_ok.mp checked).1
  obtain rfl := return_ok.mp ok
  have assigned := tags_replaceTags db id TagSet.empty m
  by_cases here : m = id
  · subst here
    obtain ⟨-, keyed⟩ := Table.get?_eq_some.mp found
    rw [if_pos rfl] at assigned
    refine (Move.removed (db.view m) target found active).reaches ?_ assigned rfl rfl
    show ((Database.updateMembership _ m _ _).memberships.get? m) = _
    rw [get?_updateMembership, if_pos rfl, get?_touchMemberships]
    show ((db.memberships.get? m).map _).map _ = _
    rw [found]
    simp [keyed]
  · rw [if_neg here] at assigned
    have touched := touchMemberships_moves db (fun row =>
      row.id ∈ removalScope.filter (fun other => other ≠ id) ∧ row.status = .active) m
    refine touched.reaches ?_ assigned rfl rfl
    show ((Database.updateMembership _ id _ _).memberships.get? m) = _
    rw [get?_updateMembership, if_neg here]
    rfl

theorem completeInvitation_moves {call : InvitationCall}
    (ok : db.completeInvitation call = .ok after) (m : Nat) :
    Move (db.view m) (after.view m) := by
  obtain ⟨_, _, ok⟩ := bind_ok.mp ok
  obtain ⟨_, _, ok⟩ := bind_ok.mp ok
  obtain ⟨_, _, ok⟩ := bind_ok.mp ok
  split at ok
  · obtain ⟨inserted, done, ok⟩ := bind_ok.mp ok
    obtain rfl := return_ok.mp ok
    exact insertMembership_moves call.tags done m
  · rename_i row found
    obtain ⟨_, _, ok⟩ := bind_ok.mp ok
    obtain ⟨_, checked, ok⟩ := bind_ok.mp ok
    obtain rfl := return_ok.mp ok
    have held := (Table.find?_spec found).1
    exact readmit_moves call.jobRole call.tags (Table.get?_of_mem held)
      (require_ok.mp checked).2 m

theorem completeSsoAuthorization_moves {newMembershipId carbonId : Nat}
    (ok : db.completeSsoAuthorization newMembershipId carbonId = .ok after) (m : Nat) :
    Move (db.view m) (after.view m) := by
  unfold completeSsoAuthorization at ok
  split at ok
  · obtain ⟨inserted, done, ok⟩ := bind_ok.mp ok
    obtain rfl := return_ok.mp ok
    exact insertMembership_moves TagSet.empty done m
  · rename_i row found
    obtain ⟨_, _, ok⟩ := bind_ok.mp ok
    have held := (Table.find?_spec found).1
    split at ok
    · obtain rfl := return_ok.mp ok
      exact .same (db.view m)
    · rename_i inactive
      obtain rfl := return_ok.mp ok
      exact readmit_moves "" TagSet.empty (Table.get?_of_mem held) inactive m

theorem createMembership_moves {call : CreationCall}
    (ok : db.createMembership call = .ok after) (m : Nat) : Move (db.view m) (after.view m) := by
  obtain ⟨inserted, done, ok⟩ := bind_ok.mp ok
  obtain ⟨_, _, ok⟩ := bind_ok.mp ok
  obtain ⟨_, _, ok⟩ := bind_ok.mp ok
  obtain rfl := return_ok.mp ok
  exact insertMembership_moves call.tags done m

end Membership

/-! ## Tag deletion -/

section Archive

variable {db after : Database} {m tagId : Nat}

theorem mem_holders {row : Membership} :
    row ∈ db.holders tagId ↔ row ∈ db.memberships ∧ row.status = .active ∧
      tagId ∈ (db.membershipTags row.id).ids := by
  unfold holders
  rw [List.mem_filter, decide_eq_true_iff]
  rfl

/-- A history written for rows with different identifiers has one row of each. -/
theorem changesOf_map {α : Type} {rows : List Membership} {row : Membership}
    (write : Membership → HistoryRow α) (keyed : ∀ row, (write row).membershipId = row.id)
    (distinct : (rows.map (·.id)).Nodup) (mem : row ∈ rows) :
    changesOf (rows.map write) row.id = [(write row).change] := by
  have single : rows.filter (fun other => other.id = row.id) = [row] := by
    refine List.perm_singleton.mp ((List.perm_ext_iff_of_nodup
      ((List.Nodup.of_map _ distinct).filter _) (List.nodup_singleton row)).mpr fun other => ?_)
    rw [List.mem_filter, List.mem_singleton, decide_eq_true_iff]
    constructor
    · rintro ⟨listed, same⟩
      exact List.inj_on_of_nodup_map distinct listed mem same
    · rintro rfl
      exact ⟨mem, rfl⟩
  unfold changesOf
  rw [List.filter_map]
  simp only [Function.comp_def, keyed, single, List.map_cons, List.map_nil]

theorem changesOf_map_of_absent {α : Type} {rows : List Membership}
    (write : Membership → HistoryRow α) (keyed : ∀ row, (write row).membershipId = row.id)
    (absent : ∀ row ∈ rows, row.id ≠ m) : changesOf (rows.map write) m = [] := by
  unfold changesOf
  rw [List.filter_map, List.map_eq_nil_iff, List.map_eq_nil_iff]
  refine List.filter_eq_nil_iff.mpr fun row mem => ?_
  simp [keyed, absent row mem]

theorem archiveOrganizationTag_moves {permitted : Bool} {actor expectedVersion : Nat}
    (ok : db.archiveOrganizationTag permitted actor tagId expectedVersion = .ok after)
    (m : Nat) : Move (db.view m) (after.view m) := by
  obtain ⟨_, _, ok⟩ := bind_ok.mp ok
  obtain ⟨_, _, ok⟩ := bind_ok.mp ok
  obtain ⟨_, _, ok⟩ := bind_ok.mp ok
  obtain ⟨_, _, ok⟩ := bind_ok.mp ok
  obtain ⟨tag, _, ok⟩ := bind_ok.mp ok
  obtain ⟨_, _, ok⟩ := bind_ok.mp ok
  obtain ⟨recorded, inserted, ok⟩ := bind_ok.mp ok
  obtain rfl := insertTagHistory_ok inserted
  obtain rfl := return_ok.mp ok
  have distinct : ((db.holders tagId).map (·.id)).Nodup :=
    (List.filter_sublist.map _).nodup db.memberships.distinct
  let write : Membership → HistoryRow TagSet := fun row =>
    ⟨row.id, .appliedBy actor, ⟨db.membershipTags row.id, (db.membershipTags row.id).remove tagId,
      row.version + 1⟩⟩
  have listed := changesOf_append db.membershipTagChangeHistory ((db.holders tagId).map write) m
  have written := get?_touchMemberships db (fun row =>
    row.status = .active ∧ row.id ∈ (db.holders tagId).map (·.id)) m
  by_cases held : ∃ row ∈ db.holders tagId, row.id = m
  · obtain ⟨row, holder, rfl⟩ := held
    obtain ⟨mem, active, _⟩ := mem_holders.mp holder
    have found := Table.get?_of_mem mem
    have picked : row.status = .active ∧ row.id ∈ (db.holders tagId).map (·.id) :=
      ⟨active, List.mem_map.mpr ⟨row, holder, rfl⟩⟩
    rw [found, Option.map_some, if_pos (decide_eq_true picked)] at written
    rw [changesOf_map write (fun _ => rfl) distinct holder] at listed
    exact (Move.tagsChanged (db.view row.id) row ((db.membershipTags row.id).remove tagId)
      found active).reaches written rfl rfl listed
  · have absent : ∀ row ∈ db.holders tagId, row.id ≠ m := fun row holder same =>
      held ⟨row, holder, same⟩
    rw [changesOf_map_of_absent write (fun _ => rfl) absent, List.append_nil] at listed
    have untouched : (db.memberships.get? m).map (fun row =>
        if decide (row.status = .active ∧ row.id ∈ (db.holders tagId).map (·.id)) = true then
          { row with version := row.version + 1 } else row) = db.memberships.get? m := by
      cases found : db.memberships.get? m with
      | none => rfl
      | some row =>
          obtain ⟨-, rfl⟩ := Table.get?_eq_some.mp found
          have unpicked : ¬ (row.status = .active ∧ row.id ∈ (db.holders tagId).map (·.id)) := by
            rintro ⟨-, listed⟩
            obtain ⟨other, holder, same⟩ := List.mem_map.mp listed
            exact absent other holder same
          rw [Option.map_some, if_neg (by simpa using unpicked)]
    rw [untouched] at written
    by_cases active : ∃ row, db.memberships.get? m = some row ∧ row.status = .active
    · -- An active membership outside the audience does not hold the tag.
      obtain ⟨row, found, active⟩ := active
      obtain ⟨mem, rfl⟩ := Table.get?_eq_some.mp found
      have kept : (db.membershipTags row.id).remove tagId = db.membershipTags row.id :=
        TagSet.remove_of_not_mem fun has =>
          absent row (mem_holders.mpr ⟨mem, active, has⟩) rfl
      exact (Move.same (db.view row.id)).reaches written kept rfl listed
    · have inactive : ∀ row, (db.view m).row = some row → row.status ≠ .active :=
        fun row found here => active ⟨row, found, here⟩
      exact (Move.released (db.view m) _ inactive).reaches written rfl rfl listed

end Archive

/-- Every transaction does one move to every membership. -/
theorem perform_moves {db after : Database} {action : Action}
    (ok : perform db action = .ok after) (m : Nat) : Move (db.view m) (after.view m) := by
  cases action with
  | replaceJobRole call jobRole =>
      obtain ⟨_, _, ok⟩ := bind_ok.mp ok
      obtain ⟨_, _, ok⟩ := bind_ok.mp ok
      obtain ⟨_, _, ok⟩ := bind_ok.mp ok
      obtain ⟨target, found, ok⟩ := bind_ok.mp ok
      obtain ⟨_, active, ok⟩ := bind_ok.mp ok
      obtain ⟨_, _, ok⟩ := bind_ok.mp ok
      obtain ⟨_, _, ok⟩ := bind_ok.mp ok
      exact jobRole_moves _ jobRole (orElse_ok.mp found) (require_ok.mp active) ok m
  | replaceTags call tagIds =>
      obtain ⟨_, _, ok⟩ := bind_ok.mp ok
      obtain ⟨tags, _, ok⟩ := bind_ok.mp ok
      obtain ⟨_, _, ok⟩ := bind_ok.mp ok
      obtain ⟨_, _, ok⟩ := bind_ok.mp ok
      obtain ⟨target, found, ok⟩ := bind_ok.mp ok
      obtain ⟨_, active, ok⟩ := bind_ok.mp ok
      obtain ⟨_, _, ok⟩ := bind_ok.mp ok
      obtain ⟨_, _, ok⟩ := bind_ok.mp ok
      obtain ⟨_, _, ok⟩ := bind_ok.mp ok
      obtain ⟨_, _, ok⟩ := bind_ok.mp ok
      exact tags_moves _ tags (orElse_ok.mp found) (require_ok.mp active) ok m
  | applyJobRoleChange call => exact applyJobRoleChange_moves ok m
  | applyTagChange call now => exact applyApprovedTagChange_moves ok m
  | lockTagScope permitted tagId expectedVersion =>
      obtain ⟨_, _, ok⟩ := bind_ok.mp ok
      obtain ⟨_, _, ok⟩ := bind_ok.mp ok
      obtain ⟨_, _, ok⟩ := bind_ok.mp ok
      obtain ⟨_, _, ok⟩ := bind_ok.mp ok
      obtain rfl := return_ok.mp ok
      exact .same (db.view m)
  | archiveTag permitted actor tagId expectedVersion =>
      exact archiveOrganizationTag_moves ok m
  | abandonTagDeletion tagId =>
      obtain rfl := Except.ok.inj ok
      exact .same (db.view m)
  | remove permitted membershipId expectedVersion removalScope =>
      exact removeOrganizationMembership_moves ok m
  | completeInvitation call => exact completeInvitation_moves ok m
  | completeSso newMembershipId carbonId => exact completeSsoAuthorization_moves ok m
  | create call => exact createMembership_moves ok m
  | touch membershipIds =>
      obtain ⟨_, _, ok⟩ := bind_ok.mp ok
      obtain rfl := return_ok.mp ok
      exact touchMemberships_moves db _ m
  | createTag tagId =>
      obtain ⟨_, _, ok⟩ := bind_ok.mp ok
      obtain rfl := return_ok.mp ok
      exact .same (db.view m)
  | updateTag tagId =>
      obtain ⟨_, _, ok⟩ := bind_ok.mp ok
      obtain rfl := return_ok.mp ok
      exact .same (db.view m)
  | createRequest request =>
      obtain ⟨_, _, ok⟩ := bind_ok.mp ok
      obtain ⟨_, _, ok⟩ := bind_ok.mp ok
      obtain rfl := return_ok.mp ok
      exact .same (db.view m)
  | updateRequest requestId status =>
      obtain ⟨_, _, ok⟩ := bind_ok.mp ok
      obtain ⟨_, _, ok⟩ := bind_ok.mp ok
      obtain rfl := return_ok.mp ok
      exact .same (db.view m)

/-- So does every step of a run. -/
theorem next_moves (db : Database) (action : Action) (m : Nat) :
    Move (db.view m) ((next db action).view m) := by
  unfold next
  split
  · rename_i after ok
    exact perform_moves ok m
  · exact .same (db.view m)

end Database

end SiliconIam.Organizations.Governance
