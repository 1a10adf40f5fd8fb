/-
# Organizations.HierarchyRequests -- the requests that change Silicons and their links

Silicon creation, the Silicon patch, the member patch (its Silicon and its Carbon
branch), Silicon removal and the removal of a Carbon member, each as the list of
its statements.  Statements of concurrent requests interleave as
`Theory.Transactions` says; a statement locks the rows it writes, and the
advisory lock of an organization's hierarchy is `RowLock.hierarchy`.

`permitted` is what the scope, capability and step-up checks answered, for every
answer; a handler's refusals for idempotency and malformed input come before all
of this.  A statement that selects rows `FOR UPDATE` under a row lock it has
waited for is one statement; where the rows are found by a recursive query first
and locked then, these are two.
-/
import SiliconIam.Organizations.Hierarchy

namespace SiliconIam.Organizations.Hierarchy

open SiliconIam.Theory SiliconIam.Theory.Transactions
open SiliconIam.Organizations.Roles (PrincipalKind Principal Membership)

set_option autoImplicit false

/-! ## Locks and statements -/

inductive RowLock where
  | hierarchy (organization : Nat)
  | principal (id : Nat)
  | membership (id : Nat)
  | silicon (id : Nat)
  | settings (membership : Nat)
  | access (row : AccessGrant)
  deriving DecidableEq, Repr

def RowLock.excludes (k l : RowLock) : Bool := k == l

def Write.locks : Write → List RowLock
  | .principal row => [.principal row.id]
  | .membership row => [.membership row.id]
  | .silicon row => [.silicon row.id]
  | .settings row => [.settings row.membership]
  | .grant row | .revoke row => [.access row]
  | .event _ => []

/-- What a handler keeps between its statements. -/
structure Memory where
  principal : Nat
  target : Nat
  targetVersion : Nat
  affected : List Nat
  beforeSilicons : List SiliconResponse
  beforeMembers : List MembershipResponse
  changed : List Nat
  resultingVersion : Nat
  deriving DecidableEq

def Memory.empty : Memory := ⟨0, 0, 0, [], [], [], [], 0⟩

abbrev Statement := Transactions.Statement Directory Write RowLock Memory

/-- A statement that reads. -/
def query (f : Memory → Directory → Option Memory) : Statement where
  locks := fun _ _ => []
  effect := fun _ memory d => (f memory d).map fun after => (after, [])

/-- A statement that takes `locks`, writes, and locks the rows it writes. -/
def command (locks : Memory → Directory → List RowLock)
    (f : Memory → Directory → Option (Memory × List Write)) : Statement where
  locks := fun memory d =>
    locks memory d ++ ((f memory d).elim [] Prod.snd).flatMap Write.locks
  effect := fun _ memory d => f memory d

def lockRows (locks : Memory → Directory → List RowLock) : Statement :=
  command locks fun memory _ => some (memory, [])

def permit (permitted : Bool) : Statement :=
  query fun memory _ => if permitted then some memory else none

/-! ## Triggers -/

/-- `prevent_silicon_reporting_cycle`, with the check and the foreign key of the
reporting link. -/
def Directory.admitsLink (d : Directory) (row : Silicon) : Bool :=
  match row.reportsTo with
  | none => true
  | some manager =>
      manager != row.membership &&
      (d.silicons.any fun s => s.organization == row.organization && s.membership == manager) &&
      (d.memberships.any fun m => m.organization == row.organization && m.id == manager &&
        m.kind == .silicon && m.active) &&
      match d.ancestors row.organization manager with
      | none => false
      | some rows => rows.all fun above => above.1 != row.membership

/-- The advisory lock the trigger takes before it looks. -/
def Silicon.linkLocks (row : Silicon) : List RowLock :=
  match row.reportsTo with
  | none => []
  | some _ => [.hierarchy row.organization]

/-- The row written back where only the version trigger changes it. -/
def Silicon.bump (s : Silicon) : Silicon := { s with version := s.version + 1 }

/-! ## Creation -/

structure SiliconCreate where
  organization : Nat
  silicon : Nat
  membership : Nat
  displayName : String
  timezone : String
  profilePhoto : Option String
  reportsTo : Option Nat
  permitted : Bool
  deriving DecidableEq, Repr

def SiliconCreate.member (r : SiliconCreate) : Membership :=
  ⟨r.membership, r.organization, r.silicon, .silicon, .member, none, .active, 1⟩

def SiliconCreate.row (r : SiliconCreate) : Silicon :=
  ⟨r.silicon, r.organization, r.membership, r.displayName, r.timezone, r.profilePhoto, r.reportsTo,
    .active, 1⟩

def insertPrincipal (row : Principal) : Statement :=
  command (fun _ _ => [.principal row.id]) fun memory d =>
    if d.principals.any fun p => p.id == row.id then none else some (memory, [.principal row])

def insertMembership (row : Membership) : Statement :=
  command (fun _ _ => [.membership row.id]) fun memory d =>
    if (d.memberships.any fun m => m.id == row.id) ||
        (d.memberships.any fun m =>
          m.organization == row.organization && m.principal == row.principal) ||
        !(d.principals.any fun p => p.id == row.principal && p.kind == row.kind) then none
    else some (memory, [.membership row])

/-- The foreign key locks the membership. -/
def insertSilicon (row : Silicon) : Statement :=
  command (fun _ _ => .silicon row.id :: .membership row.membership :: row.linkLocks) fun memory d =>
    if (d.silicons.any fun s => s.id == row.id) ||
        !(d.memberships.any fun m => m.organization == row.organization && m.id == row.membership &&
          m.principal == row.id && m.kind == .silicon) ||
        !d.admitsLink row then none
    else some (memory, [.silicon row])

def recordCreation (r : SiliconCreate) : Statement :=
  command (fun _ _ => []) fun memory d =>
    match d.fetchSilicons r.organization [r.membership] with
    | some (silicon :: _) =>
        some (memory,
          [.event ⟨.silicon, r.silicon, silicon.version, "organization.silicon.created.v1"⟩])
    | _ => none

def createSilicon (r : SiliconCreate) : List Statement :=
  [permit r.permitted,
    query fun memory d => if d.validateReferences r.organization r.reportsTo then some memory else none,
    insertPrincipal ⟨r.silicon, .silicon, true⟩,
    insertMembership r.member,
    insertSilicon r.row,
    recordCreation r]

/-! ## Locking a subtree -/

def Directory.siliconLocks (d : Directory) (organization : Nat) (memberships : List Nat) :
    List RowLock :=
  (d.siliconsOf organization fun s => memberships.contains s.membership).map (.silicon ·.id)

/-- The recursive query of `lock_hierarchy_subtree`, its memberships kept. -/
def gatherSubtree (organization : Nat) (includeDescendants : Bool) : Statement :=
  query fun memory d =>
    (d.subtree organization memory.target includeDescendants).bind fun rows =>
      let ids := ((rows.map Silicon.membership).filter fun id =>
        (d.membership? organization id).isSome).insertionSort (· ≤ ·)
      if ids.contains memory.target then some { memory with affected := ids } else none

/-- `FOR UPDATE OF silicon, membership`. -/
def lockGathered (organization : Nat) : Statement :=
  lockRows fun memory d =>
    d.siliconLocks organization memory.affected ++ memory.affected.map .membership

/-- `lock_hierarchy_subtree`. -/
def lockHierarchySubtree (organization : Nat) (includeDescendants : Bool) : List Statement :=
  (if includeDescendants then [lockRows fun _ _ => [.hierarchy organization]] else []) ++
    [gatherSubtree organization includeDescendants, lockGathered organization]

/-- The rows before the change, of Silicons and members. -/
def captureBefore (organization : Nat) : Statement :=
  query fun memory d =>
    (d.fetchSilicons organization memory.affected).bind fun silicons =>
      (d.fetchMembers organization memory.affected).map fun members =>
        { memory with beforeSilicons := silicons, beforeMembers := members }

def hierarchyProjectionChanged (before after : SiliconResponse) : Bool :=
  before.hierarchyLevel != after.hierarchyLevel || before.profilePhoto != after.profilePhoto

/-- The provisional rows, compared with the rows from before. -/
def captureChanged (organization : Nat) : Statement :=
  query fun memory d =>
    (d.fetchSilicons organization memory.affected).map fun provisional =>
      { memory with
        changed := provisional.filterMap fun after =>
          (memory.beforeSilicons.find? fun before => before.membershipId == after.membershipId).bind
            fun before =>
              if after.membershipId == memory.target || hierarchyProjectionChanged before after then
                some after.membershipId
              else none }

/-- `UPDATE iam.silicons SET updated_at …` for the live Silicons of some memberships. -/
def Directory.touchSilicons (d : Directory) (organization : Nat) (memberships : List Nat) :
    List Write :=
  (d.siliconsOf organization fun s => s.live && memberships.contains s.membership).map
    fun s => .silicon s.bump

/-- The same for active memberships. -/
def Directory.touchMemberships (d : Directory) (organization : Nat) (memberships : List Nat) :
    List Write :=
  (d.memberships.rows.filter fun m =>
    m.organization == organization && m.active && memberships.contains m.id).map
      fun m => .membership m.bump

def Memory.descendants (memory : Memory) : List Nat :=
  memory.changed.filter fun id => id != memory.target

def touchSiliconDescendants (organization : Nat) : Statement :=
  command (fun _ _ => []) fun memory d =>
    some (memory, d.touchSilicons organization memory.descendants)

def touchMembershipProjections (organization : Nat) (ids : Memory → List Nat) : Statement :=
  command (fun _ _ => []) fun memory d =>
    some (memory, d.touchMemberships organization (ids memory))

/-- The two events of one changed Silicon; a missing row is an internal error. -/
def changeEvents (memory : Memory) (silicons : List SiliconResponse)
    (members : List MembershipResponse) (id : Nat) : Option (List Write) :=
  (memory.beforeSilicons.find? fun s => s.membershipId == id).bind fun _ =>
    (silicons.find? fun s => s.membershipId == id).bind fun silicon =>
      (memory.beforeMembers.find? fun m => m.id == id).bind fun _ =>
        (members.find? fun m => m.id == id).map fun member =>
          [.event ⟨.silicon, silicon.principalId, silicon.version, "organization.silicon.updated.v1"⟩,
            .event ⟨.organizationMembership, member.id, member.version,
              "organization.membership.updated.v1"⟩]

def recordChanges (organization : Nat) : Statement :=
  command (fun _ _ => []) fun memory d =>
    (d.fetchSilicons organization memory.changed).bind fun silicons =>
      (d.fetchMembers organization memory.changed).bind fun members =>
        (memory.changed.mapM (changeEvents memory silicons members)).map fun events =>
          (memory, events.flatten)

/-! ## The Silicon patch -/

structure SiliconPatch where
  displayName : Option String
  timezone : Option String
  profilePhoto : Option (Option String)
  reportsTo : Option (Option Nat)
  deriving DecidableEq, Repr

namespace SiliconPatch

def write (patch : SiliconPatch) (s : Silicon) : Silicon :=
  { s with
    displayName := patch.displayName.getD s.displayName
    timezone := patch.timezone.getD s.timezone
    profilePhotoOverride := patch.profilePhoto.getD s.profilePhotoOverride
    reportsTo := patch.reportsTo.getD s.reportsTo
    version := s.version + 1 }

def changes (patch : SiliconPatch) (s : Silicon) : Bool :=
  (patch.displayName.any fun name => name != s.displayName) ||
    (patch.timezone.any fun zone => zone != s.timezone) ||
    (patch.profilePhoto.any fun photo => photo != s.profilePhotoOverride) ||
    (patch.reportsTo.any fun manager => manager != s.reportsTo)

end SiliconPatch

structure SiliconUpdate where
  organization : Nat
  silicon : Nat
  expectedVersion : Nat
  patch : SiliconPatch
  own : Bool
  permitted : Bool
  deriving DecidableEq, Repr

/-- `fetch_identity` and `require_active_version`. -/
def fetchIdentity (organization silicon expectedVersion : Nat) : Statement :=
  query fun memory d =>
    (d.silicons.find? fun s => s.organization == organization && s.id == silicon).bind fun s =>
      (d.membership? organization s.membership).bind fun m =>
        if s.live && m.active && s.version == expectedVersion then
          some { memory with principal := s.id, target := m.id, targetVersion := m.version }
        else none

/-- `lock_silicon_self_profile`. -/
def lockSiliconSelfProfile (organization silicon : Nat) : Statement :=
  command
    (fun _ d => (d.siliconsOf organization fun s => s.id == silicon).flatMap fun s =>
      [.silicon s.id, .membership s.membership])
    fun memory d =>
      match d.silicons.find? fun s => s.organization == organization && s.id == silicon with
      | none => none
      | some s =>
          if s.live && d.membershipActive organization s.membership && d.principalActive s then
            some ({ memory with affected := [s.membership] }, [])
          else none

/-- The row an `UPDATE` of a Silicon finds, under the trigger's lock. -/
def updateSiliconRow (find : Memory → Directory → Option Silicon) (write : Silicon → Silicon) :
    Statement :=
  command
    (fun memory d => (find memory d).elim [] fun s => .silicon s.id :: (write s).linkLocks)
    fun memory d =>
      (find memory d).bind fun s =>
        if d.admitsLink (write s) then some (memory, [.silicon (write s)]) else none

/-- `UPDATE iam.silicons … WHERE version = …` of `update_silicon`. -/
def updateSiliconDirectly (r : SiliconUpdate) : Statement :=
  updateSiliconRow
    (fun _ d => d.silicons.find? fun s =>
      s.organization == r.organization && s.id == r.silicon && s.version == r.expectedVersion &&
        s.live && r.patch.changes s)
    r.patch.write

/-- `update_silicon_self_profile`: the reporting link is not among its columns, so
its trigger is not fired. -/
def updateSiliconSelfProfile (r : SiliconUpdate) : Statement :=
  command (fun _ _ => []) fun memory d =>
    (d.silicons.find? fun s =>
      s.organization == r.organization && s.id == r.silicon && s.version == r.expectedVersion &&
        s.live && d.membershipActive r.organization s.membership && d.principalActive s &&
        r.patch.changes s).map fun s =>
      (memory, .silicon { r.patch.write s with reportsTo := s.reportsTo } ::
        (d.memberships.rows.filter fun m =>
          m.organization == r.organization && m.id == s.membership).map fun m => .membership m.bump)

/-- The branch of a Silicon that edits its own profile. -/
def updateOwnProfile (r : SiliconUpdate) : List Statement :=
  [lockSiliconSelfProfile r.organization r.silicon,
    captureBefore r.organization,
    updateSiliconSelfProfile r,
    captureChanged r.organization,
    touchSiliconDescendants r.organization,
    recordChanges r.organization]

def updateUnderLock (r : SiliconUpdate) : List Statement :=
  lockHierarchySubtree r.organization r.patch.reportsTo.isSome ++
  [query fun memory d =>
      if d.validateReferences r.organization r.patch.reportsTo.join then some memory else none,
    captureBefore r.organization,
    updateSiliconDirectly r,
    captureChanged r.organization,
    touchSiliconDescendants r.organization,
    touchMembershipProjections r.organization Memory.changed,
    recordChanges r.organization]

def updateSilicon (r : SiliconUpdate) : List Statement :=
  permit r.permitted ::
  fetchIdentity r.organization r.silicon r.expectedVersion ::
  if r.own && r.patch.reportsTo.isNone then updateOwnProfile r else updateUnderLock r

/-! ## The member patch -/

structure MemberUpdate where
  organization : Nat
  membership : Nat
  expectedVersion : Nat
  firstSilicon : Option (Option Nat)
  extraSilicons : Option (List Nat)
  defaultTrust : Option TrustValue
  reportsTo : Option (Option Nat)
  profilePhoto : Option (Option String)
  permitted : Bool
  deriving DecidableEq

/-- `fetch_membership_identity`, `require_active_version` and the branch taken. -/
def fetchMembershipIdentity (organization membership expectedVersion : Nat) (kind : PrincipalKind) :
    Statement :=
  query fun memory d =>
    (d.membership? organization membership).bind fun m =>
      if m.active && m.version == expectedVersion && m.kind == kind then
        some { memory with principal := m.principal, target := m.id, targetVersion := m.version }
      else none

def bumpMembership (organization membership expectedVersion : Nat) : Statement :=
  command (fun _ _ => []) fun memory d =>
    match d.membership? organization membership with
    | none => none
    | some m =>
        if m.version == expectedVersion && m.active then some (memory, [.membership m.bump]) else none

namespace MemberUpdate

variable (r : MemberUpdate)

/-- The columns of a Silicon that the member patch sets. -/
def siliconPatch : SiliconPatch := ⟨none, none, r.profilePhoto, r.reportsTo⟩

/-- `update_silicon_directory`. -/
def updateSiliconDirectory : List Statement :=
  [query fun memory d =>
      if d.validateReferences r.organization r.reportsTo.join then some memory else none,
    updateSiliconRow
      (fun memory d => d.silicons.find? fun s =>
        s.organization == r.organization && s.membership == memory.target && s.live &&
          r.siliconPatch.changes s)
      r.siliconPatch.write]

/-- `update_member_directory` for a Silicon. -/
def siliconBranch : List Statement :=
  permit (r.permitted && r.firstSilicon.isNone && r.extraSilicons.isNone && r.defaultTrust.isNone) ::
  fetchMembershipIdentity r.organization r.membership r.expectedVersion .silicon ::
  (lockHierarchySubtree r.organization r.reportsTo.isSome ++
  (captureBefore r.organization ::
  (r.updateSiliconDirectory ++
  [bumpMembership r.organization r.membership r.expectedVersion,
    captureChanged r.organization,
    touchSiliconDescendants r.organization,
    touchMembershipProjections r.organization Memory.descendants,
    recordChanges r.organization])))

/-- `carbon_directory_patch_changes`. -/
def changes (before : MembershipResponse) : Bool :=
  (r.firstSilicon.any fun first => first != before.firstSilicon) ||
    (r.extraSilicons.any fun extra => extra.insertionSort (· ≤ ·) != before.extraSilicons) ||
    (r.defaultTrust.any fun trust => before.defaultTrust != some trust)

def settings? (d : Directory) : Option CarbonSettings :=
  d.settings.find? fun c => c.organization == r.organization && c.membership == r.membership

/-- The three updates of `update_carbon_directory`. -/
def setFirstSilicon : Statement :=
  command (fun _ _ => []) fun memory d =>
    match r.firstSilicon with
    | none => some (memory, [])
    | some first =>
        if d.validateReferences r.organization first then
          some (memory, (r.settings? d).toList.map fun c => .settings { c with firstSilicon := first })
        else none

/-- `validate_active_silicons` counts the rows, so a Silicon named twice is refused. -/
def replaceExtraSilicons : Statement :=
  command (fun _ _ => []) fun memory d =>
    match r.extraSilicons with
    | none => some (memory, [])
    | some extra =>
        if extra.all (d.validateActiveSilicon r.organization) && decide extra.Nodup &&
            (extra.isEmpty || (r.settings? d).isSome) then
          some (memory,
            (d.access.rows.filter fun g =>
              g.organization == r.organization && g.carbon == r.membership).map .revoke ++
            extra.map fun silicon => .grant ⟨r.organization, r.membership, silicon⟩)
        else none

def setDefaultTrust : Statement :=
  command (fun _ _ => []) fun memory d =>
    match r.defaultTrust, r.settings? d with
    | none, _ => some (memory, [])
    | some _, none => none
    | some trust, some c => some (memory, [.settings { c with defaultTrust := trust }])

def recordMember : Statement :=
  command (fun _ _ => []) fun memory d =>
    match d.fetchMembers r.organization [memory.target] with
    | some (member :: _) =>
        some (memory, [.event ⟨.organizationMembership, member.id, member.version,
          "organization.membership.updated.v1"⟩])
    | _ => none

/-- `update_member_directory` for a Carbon. -/
def carbonBranch : List Statement :=
  [permit (r.permitted && r.reportsTo.isNone && r.profilePhoto.isNone),
    fetchMembershipIdentity r.organization r.membership r.expectedVersion .carbon,
    query fun memory d =>
      match d.fetchMembers r.organization [r.membership] with
      | some (before :: _) => if r.changes before then some memory else none
      | _ => none,
    r.setFirstSilicon,
    r.replaceExtraSilicons,
    r.setDefaultTrust,
    bumpMembership r.organization r.membership r.expectedVersion,
    r.recordMember]

end MemberUpdate

/-! ## Removal -/

/-- The memberships and Silicons locked before a removal. -/
structure RemovalScope where
  memberships : List Nat
  silicons : List Nat
  deriving DecidableEq, Repr

namespace Directory

variable (d : Directory)

/-- Levels of the removed Silicon and of the replacement, 0 without one. -/
def hierarchyDelta (organization target : Nat) (reassign : Option Nat) : Option Bool :=
  (d.liveAncestors organization target).bind fun above =>
    match reassign with
    | none => some (above.length != 0)
    | some replacement =>
        (d.liveAncestors organization replacement).map fun other => other.length != above.length

/-- The replacement is another active Silicon. -/
def replacementActive (organization target replacement : Nat) : Bool :=
  replacement != target &&
    d.silicons.any fun s => s.organization == organization && s.membership == replacement &&
      s.live && d.membershipActive organization replacement && d.principalActive s

/-- `lock_membership_removal_event_scope` for a Silicon, after the advisory lock. -/
def siliconRemovalScope (organization target : Nat) (s : Silicon) (reassign : Option Nat) :
    Option RemovalScope :=
  let reports := d.reports organization Silicon.live target
  if (!reports.isEmpty && reassign.isNone) ||
      !(reassign.all (d.replacementActive organization target)) then none
  else
    (d.descendants organization reports).bind fun below =>
      if below.any fun node => some node.1.membership == reassign then none
      else
        (d.hierarchyDelta organization target reassign).map fun delta =>
          let moved := (below.filter fun node => node.2 == 1 || delta).map Prod.fst
          let first := (d.settings.rows.filter fun c =>
            c.organization == organization && c.firstSilicon == some target).map
              CarbonSettings.membership
          let extra := (d.access.rows.filter fun g =>
            g.organization == organization && g.silicon == target).map AccessGrant.carbon
          { memberships :=
              ((target :: moved.map Silicon.membership ++ first ++ extra).dedup.filter
                (d.membershipActive organization)).insertionSort (· ≤ ·)
            silicons := s.id :: moved.map Silicon.id }

/-- `lock_membership_removal_event_scope`. -/
def removalScope (organization target : Nat) (reassign : Option Nat) : Option RemovalScope :=
  match d.membership? organization target with
  | none => none
  | some m =>
      if !m.active || m.role == .owner then none
      else
        match m.kind with
        | .carbon => if reassign.isSome then none else some ⟨[target], []⟩
        | .silicon =>
            match d.silicons.find? fun s =>
                s.organization == organization && s.membership == target && s.id == m.principal &&
                  s.live with
            | none => none
            | some s => d.siliconRemovalScope organization target s reassign

/-- The reports of the removed Silicon, one after the other through the triggers. -/
def reparent (reassign : Option Nat) : Directory → List Silicon → Option (List Write)
  | _, [] => some []
  | d, report :: rest =>
      let row := { report with reportsTo := reassign, version := report.version + 1 }
      if d.admitsLink row then
        (reparent reassign (d.apply (.silicon row)) rest).map fun ws => .silicon row :: ws
      else none

/-- The deeper descendants, where their level has changed. -/
def touchMoved (organization : Nat) (reassign : Option Nat) (surviving : List Nat) :
    Option (List Write) :=
  match reassign with
  | none => some []
  | some manager =>
      (d.descendants organization ((d.reports organization Silicon.live manager).filter fun s =>
        surviving.contains s.membership)).map fun below =>
          d.touchSilicons organization
            ((below.filter fun node => 1 < node.2).map fun node => node.1.membership)

/-- The links and versions of the Silicons below the removed one, and the settings. -/
def detach (organization target : Nat) (reassign : Option Nat) (surviving : List Nat) :
    Option (List Write) :=
  (d.hierarchyDelta organization target reassign).bind fun delta =>
    (reparent reassign d (d.reports organization Silicon.live target)).bind fun links =>
      (if delta then (d.applyAll links).touchMoved organization reassign surviving
        else some []).map fun moved =>
          links ++ moved ++
          (d.settings.rows.filter fun c =>
            c.organization == organization && c.firstSilicon == some target).map fun c =>
              .settings { c with firstSilicon := none }

/-- `UPDATE iam.silicons SET provisioning_status = 'deleted' … WHERE version = …`. -/
def deleteSilicon (organization silicon expectedVersion : Nat) : Option Silicon :=
  (d.silicons.find? fun s =>
    s.organization == organization && s.id == silicon && s.version == expectedVersion && s.live).map
      fun s => { s with status := .deleted, version := s.version + 1 }

/-- The Silicon's part of `remove_organization_membership`. -/
def removeSilicon (organization target expectedVersion : Nat) (reassign : Option Nat)
    (surviving : List Nat) (s : Silicon) : Option (List Write) :=
  if expectedVersion == 0 || s.version != expectedVersion then none
  else
    (d.detach organization target reassign surviving).bind fun ws =>
      ((d.applyAll ws).deleteSilicon organization s.id expectedVersion).map fun row =>
        ws ++ [.silicon row, .principal ⟨s.id, .silicon, false⟩]

/-- `UPDATE iam.organization_memberships SET status = 'removed' … WHERE version = …`. -/
def removeMembership (organization target expectedVersion : Nat) : Option Membership :=
  (d.membership? organization target).bind fun m =>
    if m.version == expectedVersion && m.active then
      some { m with
        status := .removed, role := .member, roleGrantedBy := none, version := m.version + 1 }
    else none

/-- The access grants of the removed member and the projections of the survivors. -/
def settleSurvivors (organization target : Nat) (surviving : List Nat) : List Write :=
  ((d.access.rows.filter fun g => g.organization == organization &&
    (g.carbon == target || g.silicon == target)).map .revoke) ++
  d.touchMemberships organization surviving

/-- `remove_organization_membership` from its row locks on. -/
def removeOrganizationMembership (organization target expectedMembershipVersion : Nat)
    (expectedSiliconVersion reassign : Option Nat) : Option (List Write) :=
  (d.removalScope organization target reassign).bind fun scope =>
    (d.membership? organization target).bind fun m =>
      if expectedMembershipVersion == 0 || m.version != expectedMembershipVersion then none
      else
        let surviving := scope.memberships.filter fun id => id != target
        let silicon : Option (List Write) :=
          match m.kind, expectedSiliconVersion with
          | .silicon, some version =>
              (d.silicons.find? fun s =>
                s.organization == organization && s.membership == target && s.id == m.principal &&
                  s.live).bind (d.removeSilicon organization target version reassign surviving)
          | .carbon, none => if reassign.isSome then none else some []
          | _, _ => none
        silicon.bind fun ws =>
          let ws := ws ++ d.settleSurvivors organization target surviving
          ((d.applyAll ws).removeMembership organization target expectedMembershipVersion).map
            fun row => ws ++ [.membership row]

/-- The row locks of a removal scope; for a Silicon the advisory lock comes first. -/
def removalLocks (organization target : Nat) (reassign : Option Nat) : List RowLock :=
  (d.removalScope organization target reassign).elim [] fun scope =>
    .membership target :: (scope.memberships.map .membership ++ scope.silicons.map .silicon) ++
      if (d.membership? organization target).any fun m => m.kind == .silicon then
        [.hierarchy organization]
      else []

end Directory

structure Removal where
  organization : Nat
  expectedVersion : Nat
  reassign : Option Nat
  permitted : Bool
  deriving DecidableEq, Repr

namespace Removal

variable (r : Removal)

def lockScope : Statement :=
  command (fun memory d => d.removalLocks r.organization memory.target r.reassign) fun memory d =>
    (d.removalScope r.organization memory.target r.reassign).map fun scope =>
      ({ memory with affected := scope.memberships }, [])

def captureMembers : Statement :=
  query fun memory d => (d.fetchMembers r.organization memory.affected).map fun members =>
    { memory with beforeMembers := members }

/-- `fetch_silicon` before the change. -/
def captureSilicon : Statement :=
  query fun memory d =>
    match d.fetchSilicons r.organization [memory.target] with
    | some (silicon :: _) => some { memory with beforeSilicons := [silicon] }
    | _ => none

/-- The version the function returns is that of the row it wrote. -/
def execute (silicon : Bool) : Statement :=
  command (fun memory d => d.removalLocks r.organization memory.target r.reassign) fun memory d =>
    (d.removeOrganizationMembership r.organization memory.target memory.targetVersion
      (if silicon then some r.expectedVersion else none) r.reassign).map fun ws =>
        ({ memory with
          resultingVersion := (if silicon then r.expectedVersion else memory.targetVersion) + 1 }, ws)

/-- One event for every surviving member of the scope. -/
def recordSurvivors : Statement :=
  command (fun _ _ => []) fun memory d =>
    (d.fetchMembers r.organization (memory.affected.filter fun id => id != memory.target)).bind
      fun members =>
        if members.all fun member => memory.beforeMembers.any fun before => before.id == member.id then
          some (memory, members.map fun member =>
            .event ⟨.organizationMembership, member.id, member.version,
              "organization.membership.updated.v1"⟩)
        else none

def record (aggregateType : AggregateType) (aggregate : Memory → Nat) (eventType : String) :
    Statement :=
  command (fun _ _ => []) fun memory _ =>
    some (memory, [.event ⟨aggregateType, aggregate memory, memory.resultingVersion, eventType⟩])

/-- `remove_silicon`. -/
def removeSilicon (silicon : Nat) : List Statement :=
  [permit r.permitted,
    fetchIdentity r.organization silicon r.expectedVersion,
    r.captureSilicon,
    r.lockScope,
    r.captureMembers,
    r.execute true,
    record .silicon Memory.principal "organization.silicon.removed.v1",
    r.recordSurvivors]

/-- `remove_member`. -/
def removeMember (membership : Nat) : List Statement :=
  [permit r.permitted,
    fetchMembershipIdentity r.organization membership r.expectedVersion .carbon,
    r.lockScope,
    r.captureMembers,
    r.execute false,
    record .organizationMembership Memory.target "organization.membership.removed.v1",
    r.recordSurvivors]

end Removal

/-! ## The engine -/

inductive Request where
  | createSilicon (r : SiliconCreate)
  | updateSilicon (r : SiliconUpdate)
  | updateSiliconMember (r : MemberUpdate)
  | updateCarbonMember (r : MemberUpdate)
  | removeSilicon (silicon : Nat) (r : Removal)
  | removeMember (membership : Nat) (r : Removal)
  deriving DecidableEq

def program : Request → List Statement
  | .createSilicon r => Hierarchy.createSilicon r
  | .updateSilicon r => Hierarchy.updateSilicon r
  | .updateSiliconMember r => r.siliconBranch
  | .updateCarbonMember r => r.carbonBranch
  | .removeSilicon silicon r => r.removeSilicon silicon
  | .removeMember membership r => r.removeMember membership

def engine : Engine Directory Write RowLock Memory Request where
  apply := Directory.apply
  excludes := RowLock.excludes
  symmetric := fun k l => by rw [RowLock.excludes, RowLock.excludes, Bool.beq_comm]
  memory := .empty
  program := program

end SiliconIam.Organizations.Hierarchy
