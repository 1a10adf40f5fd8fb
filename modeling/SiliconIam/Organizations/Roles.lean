/-
# Organizations.Roles -- members, roles and capability grants of organizations

The rows that decide who may do what in an organization, and the requests that
change them: creating an organization, admitting a member, the transfer of
ownership, promotion and demotion of administrators, the replacement of a
member's capabilities, directory edits and removals.

A request is the list of its SQL statements; the statements of concurrent
requests interleave as `Theory.Transactions` says.  An SQL function that first
locks the row it is about and then reads and writes only under that lock is one
statement.  A capability grant that has been revoked is dropped; one that is
active carries the transaction that inserted it.  The row locks on grants are
left out (they only make statements wait longer).
-/
import SiliconIam.Theory.Transactions

namespace SiliconIam.Organizations.Roles

open SiliconIam.Theory SiliconIam.Theory.Transactions

set_option autoImplicit false

/-! ## Vocabulary -/

inductive PrincipalKind where
  | carbon
  | silicon
  deriving DecidableEq, Repr

inductive OrgRole where
  | owner
  | admin
  | member
  deriving DecidableEq, Repr

inductive MembershipStatus where
  | active
  | suspended
  | removed
  deriving DecidableEq, Repr

inductive OrganizationStatus where
  | active
  | suspended
  | deleted
  deriving DecidableEq, Repr

inductive Capability where
  | organizationUpdate
  | membersInvite
  | membersUpdateDirectory
  | membersRemove
  | siliconsCreate
  | siliconsUpdateDirectory
  | siliconsManageHierarchy
  | siliconsRemove
  | siliconsRotateToken
  | tagsManage
  | trustManage
  | rolesRequest
  | rolesApprove
  | adminsCreate
  | adminsManage
  | ssoManage
  | auditRead
  | actionPoliciesManage
  deriving DecidableEq, Repr

namespace Capability

/-- The rows of `iam.organization_capability_catalog`. -/
def catalog : List Capability :=
  [organizationUpdate, membersInvite, membersUpdateDirectory, membersRemove, siliconsCreate,
    siliconsUpdateDirectory, siliconsManageHierarchy, siliconsRemove, siliconsRotateToken,
    tagsManage, trustManage, rolesRequest, rolesApprove, adminsCreate, adminsManage, ssoManage,
    auditRead, actionPoliciesManage]

def delegable : Capability → Bool
  | membersInvite | membersUpdateDirectory | siliconsCreate | siliconsUpdateDirectory
  | siliconsManageHierarchy | tagsManage | trustManage | rolesRequest
  | actionPoliciesManage => true
  | _ => false

def allowedForCarbon : Capability → Bool := fun _ => true

def allowedForSilicon : Capability → Bool
  | membersUpdateDirectory | siliconsUpdateDirectory | siliconsManageHierarchy | trustManage
  | rolesRequest => true
  | _ => false

def allowedFor (c : Capability) : PrincipalKind → Bool
  | .carbon => c.allowedForCarbon
  | .silicon => c.allowedForSilicon

/-- `Capability::from_str` knows every capability of the catalog but `audit.read`. -/
def known (c : Capability) : Bool := c != auditRead

end Capability

/-! ## Rows -/

structure Principal where
  id : Nat
  kind : PrincipalKind
  active : Bool
  deriving DecidableEq, Repr

structure Organization where
  id : Nat
  status : OrganizationStatus
  version : Nat
  deriving DecidableEq, Repr

structure Membership where
  id : Nat
  organization : Nat
  principal : Nat
  kind : PrincipalKind
  role : OrgRole
  roleGrantedBy : Option Nat
  status : MembershipStatus
  version : Nat
  deriving DecidableEq, Repr

/-- An active row of `iam.organization_capability_grants`; `xmin` is the
transaction that inserted it. -/
structure Grant where
  organization : Nat
  grantee : Nat
  capability : Capability
  grantedBy : Nat
  reason : String
  xmin : Nat
  deriving DecidableEq, Repr

def Grant.key (g : Grant) : Nat × Nat × Capability := (g.organization, g.grantee, g.capability)

structure Directory where
  principals : Table Principal.id
  organizations : Table Organization.id
  memberships : Table Membership.id
  grants : Table Grant.key

def Directory.empty : Directory := ⟨.empty _, .empty _, .empty _, .empty _⟩

inductive Write where
  | principal (row : Principal)
  | organization (row : Organization)
  | membership (row : Membership)
  | grant (row : Grant)
  | revoke (organization grantee : Nat) (capability : Capability)
  deriving DecidableEq, Repr

def Directory.apply (d : Directory) : Write → Directory
  | .principal row => { d with principals := d.principals.upsert row }
  | .organization row => { d with organizations := d.organizations.upsert row }
  | .membership row => { d with memberships := d.memberships.upsert row }
  | .grant row => { d with grants := d.grants.upsert row }
  | .revoke organization grantee capability =>
      { d with grants := d.grants.erase (organization, grantee, capability) }

namespace Membership

def active (m : Membership) : Bool := m.status == .active

/-- What `organization_memberships_one_active_owner_idx` ranges over. -/
def isOwner (m : Membership) : Bool := m.active && m.role == .owner

end Membership

/-! ## Reads -/

namespace Directory

variable (d : Directory)

def organizationActive (organization : Nat) : Bool :=
  d.organizations.any fun o => o.id == organization && o.status == .active

def principalActive (m : Membership) : Bool :=
  d.principals.any fun p => p.id == m.principal && p.kind == m.kind && p.active

def membership? (organization id : Nat) : Option Membership :=
  d.memberships.find? fun m => m.organization == organization && m.id == id

def granted (organization grantee : Nat) (capability : Capability) : Bool :=
  d.grants.any fun g =>
    g.organization == organization && g.grantee == grantee && g.capability == capability

/-- The body of `iam_private.has_organization_capability` for one membership. -/
def holds (m : Membership) (capability : Capability) : Bool :=
  m.active && d.organizationActive m.organization && d.principalActive m &&
    (m.role == .owner ||
      (d.granted m.organization m.id capability && capability.allowedFor m.kind))

def hasOrganizationCapability (organization principal : Nat) (capability : Capability) : Bool :=
  d.memberships.any fun m =>
    m.organization == organization && m.principal == principal && d.holds m capability

end Directory

structure OrganizationAccess where
  organization : Nat
  membership : Nat
  role : OrgRole
  capabilities : List Capability
  deriving DecidableEq, Repr

def OrganizationAccess.allows (access : OrganizationAccess) (capability : Capability) : Bool :=
  access.role == .owner || access.capabilities.contains capability

def resolveOrganizationAccess (d : Directory) (principal organization : Nat) :
    Option OrganizationAccess :=
  if d.organizationActive organization then
    (d.memberships.find? fun m =>
      m.organization == organization && m.principal == principal && m.active).map fun m =>
        ⟨organization, m.id, m.role, Capability.catalog.filter fun c =>
          c != .auditRead && d.hasOrganizationCapability organization principal c⟩
  else none

/-! ## Locks -/

/-- `FOR UPDATE`, the lock of an `UPDATE` that keeps the key, and the lock a
foreign key takes on the row it refers to. -/
inductive LockMode where
  | update
  | noKeyUpdate
  | keyShare
  deriving DecidableEq, Repr

def LockMode.conflicts : LockMode → LockMode → Bool
  | .update, _ | _, .update => true
  | .noKeyUpdate, .noKeyUpdate => true
  | _, _ => false

/-- `seat` is an entry of the unique index of organization and principal. -/
inductive RowLock where
  | organization (id : Nat) (mode : LockMode)
  | membership (id : Nat) (mode : LockMode)
  | seat (organization principal : Nat)
  deriving DecidableEq, Repr

def RowLock.excludes : RowLock → RowLock → Bool
  | .organization i k, .organization j l => i == j && k.conflicts l
  | .membership i k, .membership j l => i == j && k.conflicts l
  | .seat i p, .seat j q => i == j && p == q
  | _, _ => false

theorem LockMode.conflicts_comm (k l : LockMode) : k.conflicts l = l.conflicts k := by
  cases k <;> cases l <;> rfl

theorem RowLock.excludes_comm (k l : RowLock) : k.excludes l = l.excludes k := by
  cases k <;> cases l <;> simp [RowLock.excludes, LockMode.conflicts_comm, Bool.beq_comm]

/-! ## Statements -/

/-- The authority resolved when the request's transaction began. -/
abbrev Memory := Option OrganizationAccess

abbrev Statement := Transactions.Statement Directory Write RowLock Memory

/-- A read that refuses the request or goes on. -/
def require (p : OrganizationAccess → Directory → Bool) : Statement where
  locks := fun _ _ => []
  effect := fun _ memory d =>
    match memory with
    | none => none
    | some access => if p access d then some (memory, []) else none

/-- A statement that writes, under the locks it names. -/
def change (locks : OrganizationAccess → Directory → List RowLock)
    (writes : OrganizationAccess → Nat → Directory → Option (List Write)) : Statement where
  locks := fun memory d =>
    match memory with
    | none => []
    | some access => locks access d
  effect := fun xid memory d =>
    match memory with
    | none => none
    | some access => (writes access xid d).map fun ws => (memory, ws)

/-- `begin_organization` and `begin_scoped_organization`. -/
def beginOrganization (principal organization : Nat) : Statement where
  locks := fun _ _ => []
  effect := fun _ _ d => (resolveOrganizationAccess d principal organization).map fun access =>
    (some access, [])

def requireCapability (capability : Capability) : Statement :=
  require fun access _ => access.allows capability

/-- `fetch_membership_identity`, `require_active_version` and the handler's own
condition on the identity. -/
def checkIdentity (target expected : Nat) (p : Membership → Bool) : Statement :=
  require fun access d =>
    match d.membership? access.organization target with
    | none => false
    | some m => m.active && m.version == expected && p m

/-- The attestation at the head of the SQL functions: the caller is an active
member, a Carbon where `carbon` says so, and holds the capability now. -/
def attestActor (principal : Nat) (carbon : Bool) (capability : Capability) : Statement :=
  require fun access d =>
    d.memberships.any (fun m => m.organization == access.organization && m.principal == principal &&
      m.active && (!carbon || m.kind == .carbon)) &&
    d.hasOrganizationCapability access.organization principal capability

/-- `UPDATE … SET revoked_at` for the grants of one member that `keep` does not keep. -/
def revocations (d : Directory) (organization grantee : Nat) (keep : Capability → Bool) :
    List Write :=
  ((d.grants.rows.filter fun g =>
    g.organization == organization && g.grantee == grantee && !keep g.capability).map fun g =>
      Write.revoke g.organization g.grantee g.capability)

/-- `INSERT … WHERE NOT EXISTS` an active grant. -/
def insertGrant (grantee : OrganizationAccess → Nat) (capability : Capability)
    (grantedBy : OrganizationAccess → Nat) (reason : String) : Statement :=
  change
    (fun access _ => [.membership (grantee access) .keyShare, .membership (grantedBy access) .keyShare])
    (fun access xid d =>
      if d.granted access.organization (grantee access) capability then some []
      else some [.grant ⟨access.organization, grantee access, capability, grantedBy access, reason,
        xid⟩])

/-- The trigger `organization_memberships_bump_version`, and the columns set. -/
def Membership.set (m : Membership) (role : OrgRole) (roleGrantedBy : Option Nat)
    (status : MembershipStatus) : Membership :=
  { m with
    role := role
    roleGrantedBy := roleGrantedBy
    status := status
    version := m.version + 1 }

/-- The unique index of active owners, seen by a row about to be written. -/
def ownerIndexAdmits (d : Directory) (row : Membership) : Bool :=
  !row.isOwner || d.memberships.all fun m =>
    m.organization != row.organization || !m.isOwner || m.id == row.id

/-- `assert_exactly_one_organization_owner`, deferred to the commit. -/
def assertExactlyOneOwner : Statement :=
  require fun access d =>
    !d.organizationActive access.organization ||
      (d.memberships.rows.filter fun m =>
        m.organization == access.organization && m.isOwner).length == 1

/-- The row written back by an `UPDATE` that only the version trigger changes. -/
def Membership.bump (m : Membership) : Membership := { m with version := m.version + 1 }

def bumpMembership (target expected : Nat) : Statement :=
  change (fun _ _ => [.membership target .noKeyUpdate]) fun access _ d =>
    match d.membership? access.organization target with
    | none => none
    | some m =>
        if m.active && m.version == expected then some [.membership m.bump] else none

/-! ## Promotion and demotion -/

/-- `iam_private.set_organization_admin_role` from the row lock on. -/
def setOrganizationAdminRole (target expected : Nat) (promote : Bool) : Statement :=
  change (fun _ _ => [.membership target .update]) fun access _ d =>
    match d.membership? access.organization target with
    | none => none
    | some m =>
        if m.active && m.version == expected && m.kind == .carbon &&
            m.role == (if promote then .member else .admin) then
          if promote then
            some [.membership (m.set .admin (some access.membership) m.status)]
          else
            some (revocations d access.organization target (fun _ => false) ++
              [.membership (m.set .member none m.status)])
        else none

/-- What `grant_default_administrator_capabilities` reads from the catalog. -/
def defaultCapabilities : List Capability :=
  Capability.catalog.filter fun c =>
    c.allowedForCarbon && !(c == .adminsCreate || c == .adminsManage)

def grantDefaultAdministratorCapabilities (grantee grantedBy : OrganizationAccess → Nat)
    (reason : String) : List Statement :=
  defaultCapabilities.map fun c => insertGrant grantee c grantedBy reason

def changeAdminRole (principal organization target expected : Nat) (promote : Bool) :
    List Statement :=
  let capability := if promote then Capability.adminsCreate else Capability.adminsManage
  beginOrganization principal organization ::
  requireCapability capability ::
  (checkIdentity target expected fun m =>
    m.kind == .carbon && m.role == (if promote then .member else .admin)) ::
  attestActor principal true capability ::
  setOrganizationAdminRole target expected promote ::
  ((if promote then
      grantDefaultAdministratorCapabilities (fun _ => target) OrganizationAccess.membership
        "administrator promoted"
    else []) ++
  [assertExactlyOneOwner])

/-! ## Capabilities -/

def validateDelegation (capabilities : List Capability) : Statement :=
  require fun access _ =>
    (capabilities.all fun c => c.allowedForCarbon && (access.role == .owner || c.delegable)) &&
    (access.role == .owner || capabilities.all fun c => c.known && access.allows c)

def replaceGrants (target : Nat) (capabilities : List Capability) : List Statement :=
  change (fun access _ => [.membership access.membership .keyShare])
    (fun access _ d => some (revocations d access.organization target capabilities.contains)) ::
  capabilities.map fun c =>
    insertGrant (fun _ => target) c OrganizationAccess.membership "capability set replaced"

def replaceCapabilities (principal organization target expected : Nat)
    (capabilities : List Capability) : List Statement :=
  beginOrganization principal organization ::
  requireCapability .adminsManage ::
  (checkIdentity target expected fun m => m.kind == .carbon && m.role != .owner) ::
  validateDelegation capabilities ::
  (replaceGrants target capabilities ++ [bumpMembership target expected, assertExactlyOneOwner])

/-! ## Ownership -/

/-- The `SELECT … FOR UPDATE` of both memberships, which must both be active. -/
def lockOwnershipMemberships (newOwner : Nat) : Statement :=
  change
    (fun access _ => [.membership access.membership .update, .membership newOwner .update])
    fun access _ d =>
      if [access.membership, newOwner].all fun i =>
          (d.membership? access.organization i).any Membership.active then some []
      else none

def bumpOrganization (expected : Nat) : Statement :=
  change (fun access _ => [.organization access.organization .noKeyUpdate]) fun access _ d =>
    match d.organizations.find? fun o => o.id == access.organization with
    | none => none
    | some o =>
        if o.version == expected then some [.organization { o with version := o.version + 1 }]
        else none

def revokeGrants (grantees : OrganizationAccess → List Nat) : Statement :=
  change (fun _ _ => []) fun access _ d =>
    some ((grantees access).flatMap fun i => revocations d access.organization i fun _ => false)

/-- No row where the caller is not the owner any more. -/
def demoteOwner (newOwner : Nat) : Statement :=
  change (fun access _ => [.membership access.membership .noKeyUpdate]) fun access _ d =>
    match d.membership? access.organization access.membership with
    | none => some []
    | some m =>
        if m.isOwner then some [.membership (m.set .admin (some newOwner) m.status)] else some []

def promoteOwner (newOwner : Nat) : Statement :=
  change (fun _ _ => [.membership newOwner .noKeyUpdate]) fun access _ d =>
    match d.membership? access.organization newOwner with
    | none => none
    | some m =>
        if m.kind == .carbon && m.active && ownerIndexAdmits d (m.set .owner none m.status) then
          some [.membership (m.set .owner none m.status)]
        else none

def transferOwnership (principal organization newOwner expected : Nat) : List Statement :=
  beginOrganization principal organization ::
  (require fun access _ => access.role == .owner) ::
  (require fun access d => d.organizations.any fun o =>
    o.id == access.organization && o.version == expected) ::
  (require fun access d => newOwner != access.membership &&
    (d.membership? access.organization newOwner).any fun m =>
      m.kind == .carbon && m.active && m.role != .owner) ::
  lockOwnershipMemberships newOwner ::
  bumpOrganization expected ::
  (revokeGrants fun _ => [newOwner]) ::
  insertGrant OrganizationAccess.membership .adminsManage OrganizationAccess.membership
    "temporary ownership transfer guard" ::
  demoteOwner newOwner ::
  promoteOwner newOwner ::
  (revokeGrants fun access => [access.membership, newOwner]) ::
  (grantDefaultAdministratorCapabilities OrganizationAccess.membership (fun _ => newOwner)
    "ownership transferred" ++
  [assertExactlyOneOwner])

/-! ## Removal -/

/-- What `lock_membership_removal_event_scope` asks of its target. -/
def removable (d : Directory) (access : OrganizationAccess) (principal : Nat) (m : Membership) :
    Bool :=
  m.active && m.role != .owner &&
    d.hasOrganizationCapability access.organization principal
      (match m.kind with | .carbon => .membersRemove | .silicon => .siliconsRemove)

/-- `lock_membership_removal_event_scope`: the target under lock, then the
members whose projection the removal changes. -/
def lockRemovalTarget (principal target : Nat) : Statement :=
  change (fun _ _ => [.membership target .update]) fun access _ d =>
    match d.membership? access.organization target with
    | none => none
    | some m => if removable d access principal m then some [] else none

def lockSurvivors (survivors : List Nat) : Statement :=
  change (fun _ _ => survivors.map fun i => .membership i .update) fun _ _ _ => some []

/-- The writes of `remove_organization_membership`: the principal of a Silicon,
the grants, the surviving members, the membership itself. -/
def removalWrites (d : Directory) (organization : Nat) (survivors : List Nat) (m : Membership) :
    List Write :=
  (d.principals.rows.filter fun p => m.kind == .silicon && p.id == m.principal).map
      (fun p => .principal { p with active := false }) ++
    revocations d organization m.id (fun _ => false) ++
    (((survivors.filter (· != m.id)).filterMap (d.membership? organization)).filter
      Membership.active).map (fun other => .membership other.bump) ++
    [.membership (m.set .member none .removed)]

/-- `remove_organization_membership`, which takes the locks of
`lock_membership_removal_event_scope` again. -/
def removeOrganizationMembership (principal target expected : Nat) (survivors : List Nat) :
    Statement :=
  change
    (fun _ _ => .membership target .update :: survivors.map fun i => .membership i .update)
    fun access _ d =>
      match d.membership? access.organization target with
      | none => none
      | some m =>
          if removable d access principal m && m.version == expected then
            some (removalWrites d access.organization survivors m)
          else none

/-- `remove_member` and `remove_silicon`; `survivors` are the other members
whose projection the removal changes. -/
def removeMember (principal organization target expected : Nat) (kind : PrincipalKind)
    (survivors : List Nat) : List Statement :=
  [ beginOrganization principal organization,
    requireCapability (match kind with | .carbon => .membersRemove | .silicon => .siliconsRemove),
    checkIdentity target expected fun m => m.kind == kind && m.role != .owner,
    lockRemovalTarget principal target,
    lockSurvivors survivors,
    removeOrganizationMembership principal target expected survivors,
    assertExactlyOneOwner ]

/-! ## New rows -/

def registerPrincipal (row : Principal) : Statement where
  locks := fun _ _ => []
  effect := fun _ memory d =>
    if d.principals.any fun p => p.id == row.id then none else some (memory, [.principal row])

/-- A Carbon becomes the sole member and owner of a new organization. -/
def insertOrganization (principal organization membership : Nat) : Statement where
  locks := fun _ _ => [.organization organization .update, .membership membership .update]
  effect := fun _ _ d =>
    if (d.organizations.any fun o => o.id == organization) ||
        (d.memberships.any fun m => m.id == membership) then none
    else some (some ⟨organization, membership, .owner, []⟩,
      [.organization ⟨organization, .active, 1⟩,
        .membership ⟨membership, organization, principal, .carbon, .owner, none, .active, 1⟩])

def Directory.seat? (d : Directory) (organization principal : Nat) : Option Membership :=
  d.memberships.find? fun m => m.organization == organization && m.principal == principal

/-- `INSERT … ON CONFLICT (organization_id, principal_id) DO UPDATE`: a new
membership, or one that is not active and becomes active again. -/
def admitMember (principal organization membership : Nat) (kind : PrincipalKind) : Statement where
  locks := fun _ d =>
    .seat organization principal ::
      match d.seat? organization principal with
      | none => [.membership membership .update]
      | some m => [.membership m.id .noKeyUpdate]
  effect := fun _ _ d =>
    match d.seat? organization principal with
    | none =>
        if (d.memberships.any fun m => m.id == membership) ||
            !d.organizations.any fun o => o.id == organization then none
        else some (some ⟨organization, membership, .member, []⟩,
          [.membership ⟨membership, organization, principal, kind, .member, none, .active, 1⟩])
    | some m =>
        if kind == .carbon && m.kind == .carbon && !m.active then
          some (some ⟨organization, m.id, .member, []⟩, [.membership (m.set .member none .active)])
        else none

/-! ## What the reads and statements say -/

namespace Directory

variable {d : Directory} {organization grantee id : Nat} {capability : Capability} {m : Membership}

theorem granted_iff : d.granted organization grantee capability = true ↔
    ∃ g ∈ d.grants, g.organization = organization ∧ g.grantee = grantee ∧
      g.capability = capability := by
  rw [granted, Table.any_eq_true]
  simp [and_assoc]

theorem membership?_spec (found : d.membership? organization id = some m) :
    m ∈ d.memberships ∧ m.organization = organization ∧ m.id = id := by
  obtain ⟨mem, holds⟩ := Table.find?_spec found
  rw [Bool.and_eq_true, beq_iff_eq, beq_iff_eq] at holds
  exact ⟨mem, holds⟩

theorem hasOrganizationCapability_iff {principal : Nat} :
    d.hasOrganizationCapability organization principal capability = true ↔
      ∃ m ∈ d.memberships, m.organization = organization ∧ m.principal = principal ∧
        d.holds m capability = true := by
  rw [hasOrganizationCapability, Table.any_eq_true]
  simp [and_assoc]

end Directory

section Statements

variable {d : Directory} {xid : Nat} {memory after : Memory} {ws : List Write}

theorem require_spec {p : OrganizationAccess → Directory → Bool} :
    (require p).effect xid memory d = some (after, ws) ↔
      ∃ access, memory = some access ∧ p access d = true ∧ after = memory ∧ ws = [] := by
  cases memory with
  | none => simp [require]
  | some access =>
      simp only [require]
      by_cases holds : p access d = true
      · rw [if_pos holds]
        constructor
        · intro same
          obtain ⟨rfl, rfl⟩ := Prod.mk.inj (Option.some.inj same)
          exact ⟨access, rfl, holds, rfl, rfl⟩
        · rintro ⟨_, _, _, rfl, rfl⟩
          rfl
      · rw [if_neg holds]
        constructor
        · intro refused
          exact absurd refused (by simp)
        · rintro ⟨_, same, accepted, _⟩
          obtain rfl := Option.some.inj same
          exact absurd accepted holds

theorem change_spec {locks : OrganizationAccess → Directory → List RowLock}
    {writes : OrganizationAccess → Nat → Directory → Option (List Write)} :
    (change locks writes).effect xid memory d = some (after, ws) ↔
      ∃ access, memory = some access ∧ after = memory ∧ writes access xid d = some ws := by
  cases memory with
  | none => simp [change]
  | some access =>
      simp only [change, Option.map_eq_some_iff, Prod.mk.injEq]
      constructor
      · rintro ⟨_, wrote, rfl, rfl⟩
        exact ⟨access, rfl, rfl, wrote⟩
      · rintro ⟨_, same, rfl, wrote⟩
        obtain rfl := Option.some.inj same
        exact ⟨ws, wrote, rfl, rfl⟩

theorem beginOrganization_spec {principal organization : Nat} :
    (beginOrganization principal organization).effect xid memory d = some (after, ws) ↔
      ∃ access, resolveOrganizationAccess d principal organization = some access ∧
        after = some access ∧ ws = [] := by
  simp only [beginOrganization, Option.map_eq_some_iff, Prod.mk.injEq]
  constructor
  · rintro ⟨access, resolved, rfl, rfl⟩
    exact ⟨access, resolved, rfl, rfl⟩
  · rintro ⟨access, resolved, rfl, rfl⟩
    exact ⟨access, resolved, rfl, rfl⟩

/-- The access of a request is the caller's active membership, with the capabilities it holds. -/
theorem resolveOrganizationAccess_spec {principal organization : Nat} {access : OrganizationAccess}
    (resolved : resolveOrganizationAccess d principal organization = some access) :
    access.organization = organization ∧
      (∃ m ∈ d.memberships, m.organization = organization ∧ m.principal = principal ∧
        m.active = true ∧ access.membership = m.id ∧ access.role = m.role) ∧
      ∀ c ∈ access.capabilities, d.hasOrganizationCapability organization principal c = true := by
  unfold resolveOrganizationAccess at resolved
  split at resolved
  · obtain ⟨m, found, rfl⟩ := Option.map_eq_some_iff.mp resolved
    obtain ⟨mem, holds⟩ := Table.find?_spec found
    simp only [Bool.and_eq_true, beq_iff_eq] at holds
    refine ⟨rfl, ⟨m, mem, holds.1.1, holds.1.2, holds.2, rfl, rfl⟩, fun c held => ?_⟩
    exact (Bool.and_eq_true _ _ ▸ (List.mem_filter.mp held).2).2
  · exact absurd resolved (by simp)

/-- The shape of the statements about one membership: the row under its id,
what it must meet, what is written. -/
theorem change_membership_spec {target : Nat} {locks : OrganizationAccess → Directory → List RowLock}
    {p : OrganizationAccess → Directory → Membership → Bool}
    {writes : OrganizationAccess → Directory → Membership → List Write}
    (done : (change locks fun access _ d =>
      match d.membership? access.organization target with
      | none => none
      | some m => if p access d m then some (writes access d m) else none).effect xid memory d =
        some (after, ws)) :
    ∃ access m, memory = some access ∧ after = memory ∧
      d.membership? access.organization target = some m ∧ p access d m = true ∧
      ws = writes access d m := by
  obtain ⟨access, rfl, rfl, wrote⟩ := change_spec.mp done
  cases found : d.membership? access.organization target with
  | none => simp [found] at wrote
  | some m =>
      rw [found] at wrote
      dsimp only at wrote
      split at wrote
      · rename_i met
        exact ⟨access, m, rfl, rfl, found, met, (Option.some.inj wrote).symm⟩
      · exact absurd wrote (by simp)

theorem insertGrant_spec {grantee grantedBy : OrganizationAccess → Nat} {c : Capability}
    {reason : String}
    (done : (insertGrant grantee c grantedBy reason).effect xid memory d = some (after, ws)) :
    ∃ access, memory = some access ∧ after = memory ∧
      ((d.granted access.organization (grantee access) c = true ∧ ws = []) ∨
        (d.granted access.organization (grantee access) c = false ∧
          ws = [.grant ⟨access.organization, grantee access, c, grantedBy access, reason, xid⟩])) := by
  obtain ⟨access, rfl, rfl, wrote⟩ := change_spec.mp done
  refine ⟨access, rfl, rfl, ?_⟩
  cases granted : d.granted access.organization (grantee access) c with
  | true =>
      rw [if_pos granted] at wrote
      exact .inl ⟨rfl, (Option.some.inj wrote).symm⟩
  | false =>
      rw [if_neg (by simp [granted])] at wrote
      exact .inr ⟨rfl, (Option.some.inj wrote).symm⟩

theorem setOrganizationAdminRole_spec {target expected : Nat} {promote : Bool}
    (done : (setOrganizationAdminRole target expected promote).effect xid memory d =
      some (after, ws)) :
    ∃ access m, memory = some access ∧ after = memory ∧
      d.membership? access.organization target = some m ∧
      (m.active = true ∧ m.version = expected ∧ m.kind = .carbon ∧
        m.role = if promote then .member else .admin) ∧
      ws = if promote then [.membership (m.set .admin (some access.membership) m.status)]
        else revocations d access.organization target (fun _ => false) ++
          [.membership (m.set .member none m.status)] := by
  cases promote with
  | true =>
      obtain ⟨access, m, known, left, found, met, wrote⟩ := change_membership_spec done
      simp only [Bool.and_eq_true, beq_iff_eq] at met
      exact ⟨access, m, known, left, found, ⟨met.1.1.1, met.1.1.2, met.1.2, met.2⟩, wrote⟩
  | false =>
      obtain ⟨access, m, known, left, found, met, wrote⟩ := change_membership_spec done
      simp only [Bool.and_eq_true, beq_iff_eq] at met
      exact ⟨access, m, known, left, found, ⟨met.1.1.1, met.1.1.2, met.1.2, met.2⟩, wrote⟩

theorem bumpMembership_spec {target expected : Nat}
    (done : (bumpMembership target expected).effect xid memory d = some (after, ws)) :
    ∃ access m, memory = some access ∧ after = memory ∧
      d.membership? access.organization target = some m ∧ m.active = true ∧ m.version = expected ∧
      ws = [.membership m.bump] := by
  obtain ⟨access, m, known, left, found, met, wrote⟩ := change_membership_spec done
  simp only [Bool.and_eq_true, beq_iff_eq] at met
  exact ⟨access, m, known, left, found, met.1, met.2, wrote⟩

theorem mem_revocations {organization grantee : Nat} {keep : Capability → Bool} {w : Write} :
    w ∈ revocations d organization grantee keep ↔
      ∃ g ∈ d.grants, g.organization = organization ∧ g.grantee = grantee ∧
        keep g.capability = false ∧ w = .revoke g.organization g.grantee g.capability := by
  simp only [revocations, List.mem_map, List.mem_filter, Bool.and_eq_true, beq_iff_eq,
    Bool.not_eq_true']
  constructor
  · rintro ⟨g, ⟨mem, ⟨sameOrg, sameGrantee⟩, dropped⟩, rfl⟩
    exact ⟨g, mem, sameOrg, sameGrantee, dropped, rfl⟩
  · rintro ⟨g, mem, sameOrg, sameGrantee, dropped, rfl⟩
    exact ⟨g, ⟨mem, ⟨sameOrg, sameGrantee⟩, dropped⟩, rfl⟩

end Statements

/-! ## Requests -/

inductive Request where
  | registerPrincipal (row : Principal)
  | createOrganization (principal organization membership : Nat)
  | addMember (principal organization membership : Nat) (kind : PrincipalKind)
  | changeAdminRole (principal organization target expected : Nat) (promote : Bool)
  | replaceCapabilities (principal organization target expected : Nat)
      (capabilities : List Capability)
  | transferOwnership (principal organization newOwner expected : Nat)
  | removeMember (principal organization target expected : Nat) (kind : PrincipalKind)
      (survivors : List Nat)
  | editMember (principal organization target expected : Nat)
  | editOrganization (principal organization expected : Nat)
  deriving DecidableEq, Repr

def program : Request → List Statement
  | .registerPrincipal row => [Roles.registerPrincipal row]
  | .createOrganization principal organization membership =>
      [insertOrganization principal organization membership, assertExactlyOneOwner]
  | .addMember principal organization membership kind =>
      [admitMember principal organization membership kind,
        revokeGrants fun access => [access.membership], assertExactlyOneOwner]
  | .changeAdminRole principal organization target expected promote =>
      Roles.changeAdminRole principal organization target expected promote
  | .replaceCapabilities principal organization target expected capabilities =>
      Roles.replaceCapabilities principal organization target expected capabilities
  | .transferOwnership principal organization newOwner expected =>
      Roles.transferOwnership principal organization newOwner expected
  | .removeMember principal organization target expected kind survivors =>
      Roles.removeMember principal organization target expected kind survivors
  | .editMember principal organization target expected =>
      [beginOrganization principal organization, bumpMembership target expected,
        assertExactlyOneOwner]
  | .editOrganization principal organization expected =>
      [beginOrganization principal organization, bumpOrganization expected, assertExactlyOneOwner]

def engine : Engine Directory Write RowLock Memory Request where
  apply := Directory.apply
  excludes := RowLock.excludes
  symmetric := RowLock.excludes_comm
  memory := none
  program := program

end SiliconIam.Organizations.Roles
