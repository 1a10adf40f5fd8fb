/-
# Organizations.Governance -- job descriptions, tags and their histories

The memberships of one organization with their job descriptions (`job_role`) and tags,
and the two append-only histories of these fields.  Each operation is one transaction of
the source, as a function from the database before it to the database it commits, or to
the refusal that rolls it back.  A direct change or the approval of a request locks the
row of its membership before it reads anything of it, so its statements see no other
writer's.

Deleting a tag takes two of them: `lock_organization_tag_scope` locks the tag and the
active members that hold it, and `archive_organization_tag` finds the audience again and
changes it.  Between the two other transactions run, and `tagScopes` holds what they find
locked: a writer of a locked row waits, here as the refusal `blocked`.

Every `UPDATE` of a membership raises its version by one (`bump_aggregate_version`).
-/
import SiliconIam.Theory.ChangeLog
import SiliconIam.Theory.Fallible
import SiliconIam.Theory.Table

namespace SiliconIam.Organizations.Governance

set_option autoImplicit false

open SiliconIam.Theory SiliconIam.Theory.Fallible SiliconIam.Theory.ChangeLog

/-! ## Rows -/

inductive PrincipalKind where
  | carbon
  | silicon
deriving DecidableEq

inductive MembershipStatus where
  | active
  | suspended
  | removed
deriving DecidableEq

/-- `iam.organization_memberships`. -/
structure Membership where
  id : Nat
  principalId : Nat
  principalKind : PrincipalKind
  status : MembershipStatus
  jobRole : String
  version : Nat
deriving DecidableEq

/-- Tag identifiers in order, each once: `array_agg(tag_id ORDER BY tag_id)` over the rows
of `iam.membership_tags` that one membership has. -/
structure TagSet where
  ids : List Nat
  ordered : ids.Pairwise (· < ·)
deriving DecidableEq

namespace TagSet

def empty : TagSet := ⟨[], .nil⟩

/-- An array that is the sorted array of its distinct elements. -/
def parse (ids : List Nat) : Option TagSet :=
  if ordered : ids.Pairwise (· < ·) then some ⟨ids, ordered⟩ else none

/-- `array_remove`. -/
def remove (tags : TagSet) (tag : Nat) : TagSet :=
  ⟨tags.ids.filter (· ≠ tag), tags.ordered.filter _⟩

theorem remove_of_not_mem {tags : TagSet} {tag : Nat} (absent : tag ∉ tags.ids) :
    tags.remove tag = tags := by
  unfold remove
  congr 1
  refine List.filter_eq_self.mpr fun held mem => ?_
  exact decide_eq_true fun same => absent (same ▸ mem)

end TagSet

inductive TagStatus where
  | active
  | archived
deriving DecidableEq

/-- `iam.organization_tags`. -/
structure OrganizationTag where
  id : Nat
  status : TagStatus
  version : Nat

inductive RequestStatus where
  | pending
  | approved
  | rejected
  | applied
  | expired
  | cancelled
  | failed
deriving DecidableEq

/-- The row of `iam.job_role_change_requests` or of `iam.tag_change_requests`. -/
inductive RequestPayload where
  | jobRoleChange (previousJobRole proposedJobRole : String)
  | tagChange (previousTagIds proposedTagIds : TagSet)

/-- `iam.approval_requests` with its payload. -/
structure ApprovalRequest where
  id : Nat
  status : RequestStatus
  version : Nat
  expiresAt : Nat
  targetMembershipId : Nat
  targetPrincipalKind : PrincipalKind
  payload : RequestPayload

/-- Exactly one of the two columns is filled. -/
inductive HistorySource where
  | approvalRequest (id : Nat)
  | appliedBy (membershipId : Nat)

/-- `iam.job_role_history` and `iam.membership_tag_change_history`. -/
structure HistoryRow (α : Type) where
  membershipId : Nat
  source : HistorySource
  change : Change α

/-- What the transaction of a tag deletion has locked: the tag, and the rows of its
audience. -/
structure TagScope where
  tagId : Nat
  membershipIds : List Nat

structure Database where
  memberships : Table Membership.id
  membershipTags : Nat → TagSet
  organizationTags : Table OrganizationTag.id
  approvalRequests : Table ApprovalRequest.id
  jobRoleHistory : List (HistoryRow String)
  membershipTagChangeHistory : List (HistoryRow TagSet)
  tagScopes : List TagScope

inductive Refusal where
  | blocked
  | notFound
  | preconditionFailed
  | duplicateKey
  | checkViolation
  | directJobRoleChangeInvalid
  | directJobRoleChangeForbidden
  | directJobRoleChangeTargetInactive
  | directJobRoleChangeVersionMismatch
  | directJobRoleChangeUnchanged
  | directTagChangeInvalid
  | directTagChangeForbidden
  | directTagChangeTargetInactive
  | directTagChangeVersionMismatch
  | directTagChangeUnchanged
  | directTagChangeTagInactive
  | jobRoleChangedSinceRequest
  | tagChangeApplyInvalid
  | tagChangeApplyForbidden
  | tagChangeApprovalVersionMismatch
  | tagChangeApprovalClosed
  | tagChangeTargetInactive
  | tagChangeSnapshotChanged
  | tagChangeTagInactive
  | tagScopeForbidden
  | tagArchiveForbidden
  | tagArchiveAudienceChanged
  | tagVersionMismatch
  | membershipRemovalForbidden
  | membershipVersionMismatch
  | invitationCannotBeCompleted
  | invitationDefaultsInactive
  | membershipAlreadyActive
  | initialSiliconTagsInactive

namespace Database

/-- The organization before its first membership. -/
def empty : Database where
  memberships := Table.empty _
  membershipTags _ := TagSet.empty
  organizationTags := Table.empty _
  approvalRequests := Table.empty _
  jobRoleHistory := []
  membershipTagChangeHistory := []
  tagScopes := []

/-! ## Statements -/

def rowLocked (db : Database) (membershipId : Nat) : Bool :=
  db.tagScopes.any fun scope => membershipId ∈ scope.membershipIds

def tagLocked (db : Database) (tagId : Nat) : Bool :=
  db.tagScopes.any fun scope => scope.tagId = tagId

/-- `UPDATE iam.organization_memberships SET … WHERE id = …`. -/
def updateMembership (db : Database) (membershipId : Nat) (set : Membership → Membership)
    (keeps : ∀ row, (set row).id = row.id) : Database :=
  { db with
    memberships := db.memberships.update (fun row => row.id = membershipId)
      (fun row => { set row with version := row.version + 1 }) keeps }

/-- An `UPDATE` of the picked memberships that touches neither field. -/
def touchMemberships (db : Database) (picked : Membership → Bool) : Database :=
  { db with
    memberships := db.memberships.update picked
      (fun row => { row with version := row.version + 1 }) fun _ => rfl }

/-- `DELETE` of the membership's rows of `iam.membership_tags`, `INSERT` of the new ones. -/
def replaceTags (db : Database) (membershipId : Nat) (tags : TagSet) : Database :=
  { db with membershipTags := Function.update db.membershipTags membershipId tags }

def insertJobRoleHistory (db : Database) (row : HistoryRow String) :
    Except Refusal Database := do
  require (row.change.previous.length ≤ 5000 ∧ row.change.applied.length ≤ 5000)
    .checkViolation
  return { db with jobRoleHistory := db.jobRoleHistory ++ [row] }

def insertTagHistory (db : Database) (rows : List (HistoryRow TagSet)) :
    Except Refusal Database := do
  require (∀ row ∈ rows,
    row.change.previous.ids.length ≤ 100 ∧ row.change.applied.ids.length ≤ 100) .checkViolation
  return { db with membershipTagChangeHistory := db.membershipTagChangeHistory ++ rows }

/-- The tags are all there and active. -/
def tagsActive (db : Database) (tags : TagSet) : Bool :=
  tags.ids.all fun id => db.organizationTags.any fun tag => tag.id = id ∧ tag.status = .active

/-- `UPDATE iam.approval_requests SET status = …`. -/
def setRequestStatus (db : Database) (requestId : Nat) (status : RequestStatus) : Database :=
  { db with
    approvalRequests := db.approvalRequests.update (fun row => row.id = requestId)
      (fun row => { row with status := status, version := row.version + 1 }) fun _ => rfl }

/-- The active memberships that hold a tag. -/
def holders (db : Database) (tagId : Nat) : List Membership :=
  db.memberships.rows.filter fun row =>
    row.status = .active ∧ tagId ∈ (db.membershipTags row.id).ids

/-! ## Direct changes -/

/-- Arguments of the two direct functions.  `permitted` is their check of the actor: an
active Carbon that owns the organization, administers it with the capability, or was
allowed this action. -/
structure DirectCall where
  permitted : Bool
  actorMembershipId : Nat
  membershipId : Nat
  expectedVersion : Nat

def replaceMembershipJobRoleDirect (call : DirectCall) (jobRole : String) (db : Database) :
    Except Refusal Database := do
  require (0 < call.expectedVersion ∧ jobRole.length ≤ 5000) .directJobRoleChangeInvalid
  require (call.permitted = true) .directJobRoleChangeForbidden
  require (db.rowLocked call.membershipId = false) .blocked
  let target ← orElse (db.memberships.get? call.membershipId)
    .directJobRoleChangeTargetInactive
  require (target.status = .active) .directJobRoleChangeTargetInactive
  require (target.version = call.expectedVersion) .directJobRoleChangeVersionMismatch
  require (target.jobRole ≠ jobRole) .directJobRoleChangeUnchanged
  let db := db.updateMembership call.membershipId
    (fun row => { row with jobRole := jobRole }) fun _ => rfl
  db.insertJobRoleHistory
    ⟨call.membershipId, .appliedBy call.actorMembershipId,
      ⟨target.jobRole, jobRole, target.version + 1⟩⟩

def replaceMembershipTagsDirect (call : DirectCall) (tagIds : List Nat) (db : Database) :
    Except Refusal Database := do
  require (0 < call.expectedVersion ∧ tagIds.length ≤ 100) .directTagChangeInvalid
  let tags ← orElse (TagSet.parse tagIds) .directTagChangeInvalid
  require (call.permitted = true) .directTagChangeForbidden
  require (db.rowLocked call.membershipId = false) .blocked
  let target ← orElse (db.memberships.get? call.membershipId) .directTagChangeTargetInactive
  require (target.status = .active) .directTagChangeTargetInactive
  require (target.version = call.expectedVersion) .directTagChangeVersionMismatch
  let previous := db.membershipTags call.membershipId
  require (previous ≠ tags) .directTagChangeUnchanged
  require (∀ tag ∈ tags.ids, db.tagLocked tag = false) .blocked
  require (db.tagsActive tags = true) .directTagChangeTagInactive
  let db := (db.replaceTags call.membershipId tags).updateMembership call.membershipId
    (fun row => row) fun _ => rfl
  db.insertTagHistory
    [⟨call.membershipId, .appliedBy call.actorMembershipId,
      ⟨previous, tags, target.version + 1⟩⟩]

/-! ## Approved changes -/

/-- Arguments of a decision that completes a request.  `permitted` is the answer of the
checks on the decider, the decisions and the requirements. -/
structure ApprovalCall where
  permitted : Bool
  requestId : Nat
  expectedVersion : Nat

def applyJobRoleChange (call : ApprovalCall) (db : Database) : Except Refusal Database := do
  require (call.permitted = true) .notFound
  let request ← orElse (db.approvalRequests.get? call.requestId) .notFound
  match request.payload with
  | .tagChange _ _ => .error .notFound
  | .jobRoleChange previous proposed =>
      require (db.rowLocked request.targetMembershipId = false) .blocked
      let target ← orElse (db.memberships.get? request.targetMembershipId)
        .jobRoleChangedSinceRequest
      require (target.status = .active ∧ target.jobRole = previous) .jobRoleChangedSinceRequest
      let db := db.updateMembership request.targetMembershipId
        (fun row => { row with jobRole := proposed }) fun _ => rfl
      let db ← db.insertJobRoleHistory
        ⟨request.targetMembershipId, .approvalRequest request.id,
          ⟨previous, proposed, target.version + 1⟩⟩
      require (request.version = call.expectedVersion ∧ request.status = .pending)
        .preconditionFailed
      return db.setRequestStatus request.id .applied

def applyApprovedTagChange (call : ApprovalCall) (now : Nat) (db : Database) :
    Except Refusal Database := do
  require (0 < call.expectedVersion) .tagChangeApplyInvalid
  let request ← orElse (db.approvalRequests.get? call.requestId)
    .tagChangeApprovalVersionMismatch
  require (request.version = call.expectedVersion) .tagChangeApprovalVersionMismatch
  require (request.status = .pending ∧ now < request.expiresAt) .tagChangeApprovalClosed
  match request.payload with
  | .jobRoleChange _ _ => .error .tagChangeApplyInvalid
  | .tagChange previous proposed =>
      require (call.permitted = true) .tagChangeApplyForbidden
      require (db.rowLocked request.targetMembershipId = false) .blocked
      let target ← orElse (db.memberships.get? request.targetMembershipId)
        .tagChangeTargetInactive
      require (target.status = .active ∧ target.principalKind = request.targetPrincipalKind)
        .tagChangeTargetInactive
      require (db.membershipTags request.targetMembershipId = previous) .tagChangeSnapshotChanged
      require (∀ tag ∈ proposed.ids, db.tagLocked tag = false) .blocked
      require (db.tagsActive proposed = true) .tagChangeTagInactive
      let db := (db.replaceTags request.targetMembershipId proposed).updateMembership
        request.targetMembershipId (fun row => row) fun _ => rfl
      let db ← db.insertTagHistory
        [⟨request.targetMembershipId, .approvalRequest request.id,
          ⟨previous, proposed, target.version + 1⟩⟩]
      return db.setRequestStatus request.id .applied

/-! ## Tag deletion -/

def lockOrganizationTagScope (permitted : Bool) (tagId expectedVersion : Nat)
    (db : Database) : Except Refusal Database := do
  require (permitted = true) .tagScopeForbidden
  require (db.tagLocked tagId = false) .blocked
  let tag ← orElse (db.organizationTags.get? tagId) .tagVersionMismatch
  require (tag.version = expectedVersion ∧ tag.status = .active) .tagVersionMismatch
  return { db with tagScopes := ⟨tagId, (db.holders tagId).map (·.id)⟩ :: db.tagScopes }

/-- The caller drew one history identifier for each member of the audience it locked. -/
def archiveOrganizationTag (permitted : Bool) (actorMembershipId tagId expectedVersion : Nat)
    (db : Database) : Except Refusal Database := do
  let scope ← orElse (db.tagScopes.find? fun scope => scope.tagId = tagId) .notFound
  require (permitted = true) .tagArchiveForbidden
  let others := db.tagScopes.filter fun scope => scope.tagId ≠ tagId
  let affected := db.holders tagId
  require (∀ row ∈ affected, ∀ other ∈ others, row.id ∉ other.membershipIds) .blocked
  require (scope.membershipIds.length = affected.length) .tagArchiveAudienceChanged
  let tag ← orElse (db.organizationTags.get? tagId) .tagVersionMismatch
  require (tag.version = expectedVersion ∧ tag.status = .active) .tagVersionMismatch
  let bumped := db.touchMemberships fun row =>
    row.status = .active ∧ row.id ∈ affected.map (·.id)
  let recorded ← bumped.insertTagHistory (affected.map fun row =>
    let previous := db.membershipTags row.id
    ⟨row.id, .appliedBy actorMembershipId,
      ⟨previous, previous.remove tagId, row.version + 1⟩⟩)
  return {
    recorded with
    organizationTags := recorded.organizationTags.update (fun row => row.id = tagId)
      (fun row => { row with status := .archived, version := row.version + 1 }) fun _ => rfl
    membershipTags := fun id => (recorded.membershipTags id).remove tagId
    tagScopes := others }

/-- The transaction of the deletion ends without a commit. -/
def abandonTagDeletion (tagId : Nat) (db : Database) : Database :=
  { db with tagScopes := db.tagScopes.filter fun scope => scope.tagId ≠ tagId }

/-! ## Removal, admission and the other writers -/

/-- `removalScope` are the locked memberships whose projection changes. -/
def removeOrganizationMembership (permitted : Bool) (membershipId expectedVersion : Nat)
    (removalScope : List Nat) (db : Database) : Except Refusal Database := do
  require (permitted = true) .membershipRemovalForbidden
  require (∀ id ∈ membershipId :: removalScope, db.rowLocked id = false) .blocked
  let survivingMembershipIds := removalScope.filter fun id => id ≠ membershipId
  let target ← orElse (db.memberships.get? membershipId) .notFound
  require (target.status = .active ∧ target.version = expectedVersion)
    .membershipVersionMismatch
  let db := (db.replaceTags membershipId TagSet.empty).touchMemberships fun row =>
    row.id ∈ survivingMembershipIds ∧ row.status = .active
  return db.updateMembership membershipId (fun row => { row with status := .removed })
    fun _ => rfl

/-- A new row of `iam.organization_memberships`. -/
def insertMembership (db : Database) (row : Membership) : Except Refusal Database := do
  require (db.memberships.any (fun other => other.principalId = row.principalId) = false)
    .duplicateKey
  let memberships ← orElse (db.memberships.insert row) .duplicateKey
  return { db with memberships }

/-- `defaultsActive` is the answer of the checks on the invitation's tags, Silicons and
trust overrides.  They come before the tags are written, and one may be archived in
between. -/
structure InvitationCall where
  usable : Bool
  defaultsActive : Bool
  newMembershipId : Nat
  carbonId : Nat
  jobRole : String
  tags : TagSet

def completeInvitation (call : InvitationCall) (db : Database) : Except Refusal Database := do
  require (call.usable = true) .invitationCannotBeCompleted
  require (call.defaultsActive = true) .invitationDefaultsInactive
  require (∀ tag ∈ call.tags.ids, db.tagLocked tag = false) .blocked
  match db.memberships.find? fun row => row.principalId = call.carbonId with
  | none =>
      let db ← db.insertMembership
        ⟨call.newMembershipId, call.carbonId, .carbon, .active, call.jobRole, 1⟩
      return db.replaceTags call.newMembershipId call.tags
  | some row =>
      require (db.rowLocked row.id = false) .blocked
      require (row.principalKind = .carbon ∧ row.status ≠ .active) .membershipAlreadyActive
      let db := db.updateMembership row.id
        (fun row => { row with status := .active, jobRole := call.jobRole }) fun _ => rfl
      return db.replaceTags row.id call.tags

/-- The membership part of `complete_sso_authorization`, past the statements that PostgreSQL
refuses there (`Sso.Plpgsql`). -/
def completeSsoAuthorization (newMembershipId carbonId : Nat) (db : Database) :
    Except Refusal Database := do
  match db.memberships.find? fun row => row.principalId = carbonId with
  | none =>
      let db ← db.insertMembership ⟨newMembershipId, carbonId, .carbon, .active, "", 1⟩
      return db.replaceTags newMembershipId TagSet.empty
  | some row =>
      require (db.rowLocked row.id = false) .blocked
      if row.status = .active then
        return db
      let db := db.updateMembership row.id
        (fun row => { row with status := .active, jobRole := "" }) fun _ => rfl
      return db.replaceTags row.id TagSet.empty

/-- A membership with a new principal: the creator of the organization, without job
description and tags, or a created Silicon, with the tags of `assign_initial_silicon_tags`. -/
structure CreationCall where
  membershipId : Nat
  principalId : Nat
  principalKind : PrincipalKind
  jobRole : String
  tags : TagSet
  tagsActive : Bool

def createMembership (call : CreationCall) (db : Database) : Except Refusal Database := do
  let db ← db.insertMembership
    ⟨call.membershipId, call.principalId, call.principalKind, .active, call.jobRole, 1⟩
  require (call.tagsActive = true) .initialSiliconTagsInactive
  require (∀ tag ∈ call.tags.ids, db.tagLocked tag = false) .blocked
  return db.replaceTags call.membershipId call.tags

/-- Every other `UPDATE` of memberships: ownership transfers, access grants, profiles, the
hierarchy, credentials. -/
def touch (membershipIds : List Nat) (db : Database) : Except Refusal Database := do
  require (∀ id ∈ membershipIds, db.rowLocked id = false) .blocked
  return db.touchMemberships fun row => row.id ∈ membershipIds

def createTag (tagId : Nat) (db : Database) : Except Refusal Database := do
  let organizationTags ← orElse (db.organizationTags.insert ⟨tagId, .active, 1⟩) .duplicateKey
  return { db with organizationTags }

def updateTag (tagId : Nat) (db : Database) : Except Refusal Database := do
  require (db.tagLocked tagId = false) .blocked
  return {
    db with
    organizationTags := db.organizationTags.update (fun row => row.id = tagId)
      (fun row => { row with version := row.version + 1 }) fun _ => rfl }

/-- A change request as it is submitted. -/
def createApprovalRequest (request : ApprovalRequest) (db : Database) :
    Except Refusal Database := do
  require (request.status = .pending ∧ request.version = 1) .checkViolation
  let approvalRequests ← orElse (db.approvalRequests.insert request) .duplicateKey
  return { db with approvalRequests }

/-- A decision that does not apply the request, or its end by another way. -/
def updateApprovalRequest (requestId : Nat) (status : RequestStatus) (db : Database) :
    Except Refusal Database := do
  let request ← orElse (db.approvalRequests.get? requestId) .notFound
  require (request.status = .pending ∧ status ≠ .applied) .preconditionFailed
  return db.setRequestStatus requestId status

end Database

/-! ## Runs -/

inductive Action where
  | replaceJobRole (call : Database.DirectCall) (jobRole : String)
  | replaceTags (call : Database.DirectCall) (tagIds : List Nat)
  | applyJobRoleChange (call : Database.ApprovalCall)
  | applyTagChange (call : Database.ApprovalCall) (now : Nat)
  | lockTagScope (permitted : Bool) (tagId expectedVersion : Nat)
  | archiveTag (permitted : Bool) (actorMembershipId tagId expectedVersion : Nat)
  | abandonTagDeletion (tagId : Nat)
  | remove (permitted : Bool) (membershipId expectedVersion : Nat)
      (removalScope : List Nat)
  | completeInvitation (call : Database.InvitationCall)
  | completeSso (newMembershipId carbonId : Nat)
  | create (call : Database.CreationCall)
  | touch (membershipIds : List Nat)
  | createTag (tagId : Nat)
  | updateTag (tagId : Nat)
  | createRequest (request : ApprovalRequest)
  | updateRequest (requestId : Nat) (status : RequestStatus)

def perform (db : Database) : Action → Except Refusal Database
  | .replaceJobRole call jobRole => db.replaceMembershipJobRoleDirect call jobRole
  | .replaceTags call tagIds => db.replaceMembershipTagsDirect call tagIds
  | .applyJobRoleChange call => db.applyJobRoleChange call
  | .applyTagChange call now => db.applyApprovedTagChange call now
  | .lockTagScope permitted tagId expectedVersion =>
      db.lockOrganizationTagScope permitted tagId expectedVersion
  | .archiveTag permitted actor tagId expectedVersion =>
      db.archiveOrganizationTag permitted actor tagId expectedVersion
  | .abandonTagDeletion tagId => .ok (db.abandonTagDeletion tagId)
  | .remove permitted membershipId expectedVersion removalScope =>
      db.removeOrganizationMembership permitted membershipId expectedVersion removalScope
  | .completeInvitation call => db.completeInvitation call
  | .completeSso newMembershipId carbonId => db.completeSsoAuthorization newMembershipId carbonId
  | .create call => db.createMembership call
  | .touch membershipIds => db.touch membershipIds
  | .createTag tagId => db.createTag tagId
  | .updateTag tagId => db.updateTag tagId
  | .createRequest request => db.createApprovalRequest request
  | .updateRequest requestId status => db.updateApprovalRequest requestId status

/-- A refused transaction is rolled back. -/
def next (db : Database) (action : Action) : Database :=
  match perform db action with
  | .ok db => db
  | .error _ => db

/-! ## What the histories say of one membership -/

namespace Database

def isActive (db : Database) (membershipId : Nat) : Bool :=
  (db.memberships.get? membershipId).any fun row => row.status = .active

def versionOf (db : Database) (membershipId : Nat) : Nat :=
  (db.memberships.get? membershipId).elim 0 (·.version)

def changesOf {α : Type} (rows : List (HistoryRow α)) (membershipId : Nat) : List (Change α) :=
  (rows.filter fun row => row.membershipId = membershipId).map (·.change)

def jobRoleLedger (db : Database) (membershipId : Nat) : Ledger String where
  live := db.isActive membershipId
  value := (db.memberships.get? membershipId).elim "" (·.jobRole)
  version := db.versionOf membershipId
  rows := changesOf db.jobRoleHistory membershipId

def tagLedger (db : Database) (membershipId : Nat) : Ledger TagSet where
  live := db.isActive membershipId
  value := db.membershipTags membershipId
  version := db.versionOf membershipId
  rows := changesOf db.membershipTagChangeHistory membershipId

/-- The versions in both histories of a membership. -/
def recordedVersions (db : Database) (membershipId : Nat) : List Nat :=
  (changesOf db.jobRoleHistory membershipId).map (·.version) ++
    (changesOf db.membershipTagChangeHistory membershipId).map (·.version)

end Database

end SiliconIam.Organizations.Governance
