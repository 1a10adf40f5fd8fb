/-
# Organizations.Hierarchy -- Silicons, whom they report to, and how they are listed

The rows of the directory that the reporting hierarchy is about: principals,
memberships, Silicons with their reporting link, and what members hold of
Silicons (a first Silicon, extra access).  Over them the recursive queries of the
handlers and SQL functions, the two projections and the Silicon listing.

A query that walks the links stops with `none` when it has made more rounds than
there are Silicons; a query that returns has finished.  The photo of a Silicon
without an override is the service's address with its id and its level.  Columns
nothing here reads are left out: job roles, tags, webhook state, the authorization
epoch and the times.
-/
import SiliconIam.Theory.Forest
import SiliconIam.Theory.Paging
import SiliconIam.Organizations.Roles
import SiliconIam.Organizations.ActionGate

namespace SiliconIam.Organizations.Hierarchy

open SiliconIam.Theory SiliconIam.Theory.Forest
open SiliconIam.Organizations.Roles (PrincipalKind OrgRole Principal Membership)

set_option autoImplicit false

/-! ## Rows -/

inductive ProvisioningStatus where
  | pendingHook
  | active
  | hookError
  | deleted
  deriving DecidableEq, Repr

structure Silicon where
  id : Nat
  organization : Nat
  membership : Nat
  displayName : String
  timezone : String
  profilePhotoOverride : Option String
  reportsTo : Option Nat
  status : ProvisioningStatus
  version : Nat
  deriving DecidableEq, Repr

/-- `provisioning_status <> 'deleted'`. -/
def Silicon.live (s : Silicon) : Bool := s.status != .deleted

/-- `iam.carbon_membership_settings`. -/
structure CarbonSettings where
  membership : Nat
  organization : Nat
  firstSilicon : Option Nat
  defaultTrust : TrustValue
  deriving DecidableEq

/-- An active row of `iam.extra_silicon_access_grants`. -/
structure AccessGrant where
  organization : Nat
  carbon : Nat
  silicon : Nat
  deriving DecidableEq, Repr

inductive AggregateType where
  | silicon
  | organizationMembership
  deriving DecidableEq, Repr

/-- A row of the outbox. -/
structure OutboxEvent where
  aggregateType : AggregateType
  aggregate : Nat
  version : Nat
  eventType : String
  deriving DecidableEq, Repr

structure Directory where
  principals : Table Principal.id
  memberships : Table Membership.id
  silicons : Table Silicon.id
  settings : Table CarbonSettings.membership
  access : Table (id : AccessGrant → AccessGrant)
  outbox : List OutboxEvent

inductive Write where
  | principal (row : Principal)
  | membership (row : Membership)
  | silicon (row : Silicon)
  | settings (row : CarbonSettings)
  | grant (row : AccessGrant)
  | revoke (row : AccessGrant)
  | event (row : OutboxEvent)
  deriving DecidableEq

def Directory.apply (d : Directory) : Write → Directory
  | .principal row => { d with principals := d.principals.upsert row }
  | .membership row => { d with memberships := d.memberships.upsert row }
  | .silicon row => { d with silicons := d.silicons.upsert row }
  | .settings row => { d with settings := d.settings.upsert row }
  | .grant row => { d with access := d.access.upsert row }
  | .revoke row => { d with access := d.access.erase row }
  | .event row => { d with outbox := d.outbox ++ [row] }

def Directory.applyAll (d : Directory) (ws : List Write) : Directory := ws.foldl Directory.apply d

/-! ## Reads -/

namespace Directory

variable (d : Directory)

def membership? (organization id : Nat) : Option Membership :=
  d.memberships.find? fun m => m.organization == organization && m.id == id

def membershipActive (organization id : Nat) : Bool :=
  d.memberships.any fun m => m.organization == organization && m.id == id && m.active

def principalActive (s : Silicon) : Bool :=
  d.principals.any fun p => p.id == s.id && p.kind == .silicon && p.active

/-- `validate_active_silicon`. -/
def validateActiveSilicon (organization membership : Nat) : Bool :=
  d.silicons.any fun s => s.organization == organization && s.membership == membership &&
    s.live && d.membershipActive organization membership

/-- `validate_references`, the tags apart. -/
def validateReferences (organization : Nat) (reportsTo : Option Nat) : Bool :=
  match reportsTo with
  | none => true
  | some manager => d.validateActiveSilicon organization manager

/-! ## Recursive queries -/

/-- The Silicons of an organization that `keep` keeps. -/
def siliconsOf (organization : Nat) (keep : Silicon → Bool) : List Silicon :=
  d.silicons.rows.filter fun s => s.organization == organization && keep s

def reports (organization : Nat) (keep : Silicon → Bool) (manager : Nat) : List Silicon :=
  (d.siliconsOf organization keep).filter fun s => s.reportsTo == some manager

/-- More rounds than the walk along distinct Silicons can take. -/
def rounds : Nat := d.silicons.rows.length + 1

/-- The recursive query `hierarchy`: the Silicons below the roots, with their level. -/
def hierarchy (organization : Nat) (keep : Silicon → Bool) : Option (List (Silicon × Nat)) :=
  unionAll (fun node => (d.reports organization keep node.1.membership).map (·, node.2 + 1))
    d.rounds
    (((d.siliconsOf organization keep).filter fun s => s.reportsTo == none).map (·, 1))

/-- The recursive query `descendants`: the seeds at depth 1 and who reports to them. -/
def descendants (organization : Nat) (seeds : List Silicon) : Option (List (Silicon × Nat)) :=
  unionAll (fun node => (d.reports organization Silicon.live node.1.membership).map (·, node.2 + 1))
    d.rounds (seeds.map (·, 1))

/-- The subtree of `lock_hierarchy_subtree`, the root included. -/
def subtree (organization root : Nat) (includeDescendants : Bool) : Option (List Silicon) :=
  unionAll
    (fun s => if includeDescendants then d.reports organization Silicon.live s.membership else [])
    d.rounds
    ((d.siliconsOf organization Silicon.live).filter fun s => s.membership == root)

/-- The Silicon a row reports to, among those that `keep` keeps. -/
def managers (organization : Nat) (keep : Silicon → Bool) (reportsTo : Option Nat) : List Silicon :=
  (d.siliconsOf organization keep).filter fun s => some s.membership == reportsTo

/-- The way up through live Silicons, as the removal counts it. -/
def liveAncestors (organization membership : Nat) : Option (List Silicon) :=
  unionAll (fun s => d.managers organization Silicon.live s.reportsTo) d.rounds
    (d.managers organization Silicon.live (some membership))

/-- The way up by `UNION`, deleted Silicons included: membership and reporting link. -/
def ancestors (organization membership : Nat) : Option (List (Nat × Option Nat)) :=
  union
    (fun row => (d.managers organization (fun _ => true) row.2).map fun s =>
      (s.membership, s.reportsTo))
    (d.rounds + 1) []
    ((d.managers organization (fun _ => true) (some membership)).map fun s =>
      (s.membership, s.reportsTo))

end Directory

/-! ## Projections -/

/-- The override, or the address derived from the id and the level. -/
inductive ProfilePhoto where
  | override (uri : String)
  | derived (silicon level : Nat)
  deriving DecidableEq, Repr

structure SiliconResponse where
  principalId : Nat
  membershipId : Nat
  displayName : String
  timezone : String
  profilePhoto : ProfilePhoto
  reportsTo : Option Nat
  hierarchyLevel : Nat
  active : Bool
  version : Nat
  deriving DecidableEq, Repr

structure MembershipResponse where
  id : Nat
  principal : Nat
  kind : PrincipalKind
  active : Bool
  role : OrgRole
  firstSilicon : Option Nat
  extraSilicons : List Nat
  defaultTrust : Option TrustValue
  reportsTo : Option Nat
  hierarchyLevel : Option Nat
  version : Nat
  deriving DecidableEq

def Silicon.response (s : Silicon) (m : Membership) (level : Nat) : SiliconResponse where
  principalId := s.id
  membershipId := s.membership
  displayName := s.displayName
  timezone := s.timezone
  profilePhoto := match s.profilePhotoOverride with
    | some uri => .override uri
    | none => .derived s.id level
  reportsTo := s.reportsTo
  hierarchyLevel := level
  active := m.active && s.live
  version := s.version

namespace Directory

variable (d : Directory)

/-- The Silicons that `select` selects, joined with their memberships and their
rows of `hierarchy`. -/
def project (organization : Nat) (keep : Silicon → Bool) (select : Silicon → Membership → Bool) :
    Option (List SiliconResponse) :=
  (d.hierarchy organization keep).map fun nodes =>
    (d.siliconsOf organization fun _ => true).flatMap fun s =>
      (d.memberships.rows.filter fun m =>
        m.organization == s.organization && m.id == s.membership && select s m).flatMap fun m =>
          (nodes.filter fun node => node.1.id == s.id).map fun node => s.response m node.2

/-- `SILICON_BY_MEMBERSHIPS_SQL`; `SILICON_BY_ID_SQL` is the same query about one Silicon. -/
def fetchSilicons (organization : Nat) (memberships : List Nat) : Option (List SiliconResponse) :=
  d.project organization (fun _ => true) fun s _ => memberships.contains s.membership

/-- `SILICON_LIST_SQL`: the page after `cursor`, of the Silicons with the tag filtered for. -/
def listSilicons (organization : Nat) (tagged : Nat → Bool) (cursor : Option Nat) (limit : Nat) :
    Option (List SiliconResponse) :=
  (d.project organization Silicon.live fun s m => m.active && s.live && tagged s.membership).map
    fun items =>
      ((items.filter fun item => cursor.all fun id => decide (id < item.principalId)).insertionSort
        fun a b => a.principalId ≤ b.principalId).take limit

/-- One row of `MEMBERSHIP_PROJECTION`. -/
def memberResponse (m : Membership) : Option MembershipResponse :=
  let settings := d.settings.find? fun c =>
    c.organization == m.organization && c.membership == m.id
  let silicon := if m.kind == .silicon then d.silicons.find? fun s => s.id == m.principal else none
  let level : Option (Option Nat) :=
    match silicon with
    | none => some none
    | some s => (d.ancestors m.organization s.membership).map fun rows => some rows.length
  level.map fun level =>
    { id := m.id
      principal := m.principal
      kind := m.kind
      active := m.active
      role := m.role
      firstSilicon := settings.bind CarbonSettings.firstSilicon
      extraSilicons := if m.kind == .carbon then
          ((d.access.rows.filter fun g =>
            g.organization == m.organization && g.carbon == m.id).map AccessGrant.silicon).insertionSort
              (· ≤ ·)
        else []
      defaultTrust := settings.map CarbonSettings.defaultTrust
      reportsTo := silicon.bind Silicon.reportsTo
      hierarchyLevel := level
      version := m.version }

/-- `fetch_members`. -/
def fetchMembers (organization : Nat) (memberships : List Nat) : Option (List MembershipResponse) :=
  ((d.memberships.rows.filter fun m =>
    m.organization == organization && memberships.contains m.id).insertionSort fun a b =>
      a.id ≤ b.id).mapM d.memberResponse

end Directory

/-- The listing as a caller reads it: one page after the other along the cursors. -/
def Directory.readListing (d : Directory) (organization : Nat) (tagged : Nat → Bool) (limit : Nat) :
    Nat → Option Nat → Option (List SiliconResponse) :=
  Paging.read SiliconResponse.principalId (d.listSilicons organization tagged) limit

end SiliconIam.Organizations.Hierarchy
