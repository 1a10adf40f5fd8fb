/-
# Auth.Disclosure -- the snapshots that authorization answers disclose

Introspection of an application's access token answers with one snapshot for the
organization that `X-Org-ID` names, and with a list of snapshots when the header is
absent; the verification of an OBO proof answers with one.  Two functions of the
database build them, `get_current_application_authorization` and
`list_current_application_authorizations`, and each decides by itself which fields
to leave out: both drop the role and the tags without their scope, and only the
first drops the actor type and the public identifier.

`ApplicationAuthorization` has what both decide on.  Here it becomes the whole
object.
-/
import SiliconIam.Auth.Delegation

namespace SiliconIam.Auth.Authority

set_option autoImplicit false

/-! ## Rows that only snapshots read -/

/-- The columns of a membership. -/
structure MembershipDetail where
  version : Nat
  orgRole : String
deriving DecidableEq

structure OrganizationTag where
  organization : Nat
  id : Nat
  name : String
  active : Bool
deriving DecidableEq

/-- `iam.membership_tags`. -/
structure MembershipTag where
  organization : Nat
  membership : Nat
  tag : Nat
deriving DecidableEq

structure SnapshotRows where
  details : Nat → MembershipDetail
  tags : List OrganizationTag
  assignments : List MembershipTag
  testingEnvironment : Option Nat

def SnapshotRows.membershipTags (rows : SnapshotRows) (organization membership : Nat) :
    List (Nat × String) :=
  ((rows.assignments.filter fun assignment =>
    assignment.organization = organization && assignment.membership = membership).flatMap
      fun assignment =>
        (rows.tags.filter fun tag =>
          tag.organization = assignment.organization && tag.id = assignment.tag &&
            tag.active).map fun tag => (tag.id, tag.name)).mergeSort fun a b => a.1 ≤ b.1

/-! ## Snapshots -/

structure AuthorizationSnapshot where
  principal : Nat
  actorType : Option PrincipalKind
  publicId : Option String
  organization : Nat
  orgId : String
  membership : Nat
  membershipVersion : Nat
  authorizationEpoch : Nat
  audience : String
  testingEnvironment : Option Nat
  scopes : List String
  orgRole : Option String
  tags : Option (List (Nat × String))
deriving DecidableEq

/-- The object of `list_current_application_authorizations`. -/
def listedSnapshot (rows : SnapshotRows) (authorization : ApplicationAuthorization) :
    AuthorizationSnapshot where
  principal := authorization.principal
  actorType := some authorization.actorKind
  publicId := some authorization.publicId
  organization := authorization.organization
  orgId := authorization.orgId
  membership := authorization.membership
  membershipVersion := (rows.details authorization.membership).version
  authorizationEpoch := authorization.authorizationEpoch
  audience := authorization.audience
  testingEnvironment := rows.testingEnvironment
  scopes := authorization.scopes
  orgRole :=
    if authorization.scopes.contains "self.membership.read" then
      some (rows.details authorization.membership).orgRole
    else none
  tags :=
    if authorization.scopes.contains "self.tags.read" then
      some (rows.membershipTags authorization.organization authorization.membership)
    else none

/-- The object of `get_current_application_authorization`.  The scope of a proof that
comes before the others is none of the three that govern a field. -/
def currentSnapshot (rows : SnapshotRows) (authorization : ApplicationAuthorization) :
    AuthorizationSnapshot :=
  let snapshot := listedSnapshot rows authorization
  if authorization.scopes.contains "self.identity.read" then snapshot
  else { snapshot with actorType := none, publicId := none }

/-- The snapshots of an introspection without a header. -/
def Introspection.listed (rows : SnapshotRows) (answer : Introspection) : List AuthorizationSnapshot :=
  (answer.authorizations.getD []).map (listedSnapshot rows)

/-- The snapshot of an introspection with one. -/
def Introspection.selected (rows : SnapshotRows) (answer : Introspection) :
    Option AuthorizationSnapshot :=
  answer.authorization.map (currentSnapshot rows)

def OboAccessResult.snapshot (rows : SnapshotRows) (result : OboAccessResult) : AuthorizationSnapshot :=
  currentSnapshot rows result.authorization

/-- `introspect_for_application` for an access token, at one instant. -/
def introspectForApplication (db : Db) (now : Nat) (client : ApplicationIdentity)
    (supplied : List Nat) (orgContext : Option String) : Option Introspection := do
  let access ← authenticate db now .applicationAccess supplied
  introspect db now client access orgContext

/-! ## Fields and the scopes that govern them -/

/-- Each field that is shown has the scope that governs it. -/
structure AuthorizationSnapshot.Governed (granted : String → Prop)
    (snapshot : AuthorizationSnapshot) : Prop where
  actorType : snapshot.actorType.isSome = true → granted "self.identity.read"
  publicId : snapshot.publicId.isSome = true → granted "self.identity.read"
  orgRole : snapshot.orgRole.isSome = true → granted "self.membership.read"
  tags : snapshot.tags.isSome = true → granted "self.tags.read"

section Governed

variable {rows : SnapshotRows} {authorization : ApplicationAuthorization} {granted : String → Prop}

theorem listedSnapshot_role (shown : (listedSnapshot rows authorization).orgRole.isSome = true) :
    "self.membership.read" ∈ authorization.scopes := by
  by_contra absent
  simp [listedSnapshot, absent] at shown

theorem listedSnapshot_tags (shown : (listedSnapshot rows authorization).tags.isSome = true) :
    "self.tags.read" ∈ authorization.scopes := by
  by_contra absent
  simp [listedSnapshot, absent] at shown

/-- What the selected object shows, its scopes govern. -/
theorem currentSnapshot_governed
    (scopes : ∀ scope ∈ disclosureScopes, scope ∈ authorization.scopes → granted scope) :
    (currentSnapshot rows authorization).Governed granted := by
  have role : (listedSnapshot rows authorization).orgRole.isSome = true →
      granted "self.membership.read" :=
    fun shown => scopes _ (by decide) (listedSnapshot_role shown)
  have tags : (listedSnapshot rows authorization).tags.isSome = true → granted "self.tags.read" :=
    fun shown => scopes _ (by decide) (listedSnapshot_tags shown)
  unfold currentSnapshot
  by_cases identity : authorization.scopes.contains "self.identity.read" = true
  · have own := scopes _ (by decide) (List.contains_iff_mem.mp identity)
    rw [if_pos identity]
    exact ⟨fun _ => own, fun _ => own, role, tags⟩
  · rw [if_neg identity]
    refine ⟨?_, ?_, role, tags⟩
    · intro shown
      cases shown
    · intro shown
      cases shown

/-- The listed object shows the actor type and the public identifier anyway. -/
theorem listedSnapshot_governed
    (scopes : ∀ scope ∈ disclosureScopes, scope ∈ authorization.scopes → granted scope) :
    (listedSnapshot rows authorization).Governed granted ↔ granted "self.identity.read" := by
  constructor
  · exact fun governed => governed.actorType rfl
  · intro identity
    exact
      { actorType := fun _ => identity
        publicId := fun _ => identity
        orgRole := fun shown => scopes _ (by decide) (listedSnapshot_role shown)
        tags := fun shown => scopes _ (by decide) (listedSnapshot_tags shown) }

/-- The two objects of one authorization are the same when the identity is disclosed. -/
theorem currentSnapshot_eq_listed :
    currentSnapshot rows authorization = listedSnapshot rows authorization ↔
      "self.identity.read" ∈ authorization.scopes := by
  unfold currentSnapshot
  by_cases identity : authorization.scopes.contains "self.identity.read" = true
  · rw [if_pos identity]
    exact iff_of_true rfl (List.contains_iff_mem.mp identity)
  · rw [if_neg identity]
    constructor
    · intro same
      cases congrArg AuthorizationSnapshot.actorType same
    · exact fun mem => absurd (List.contains_iff_mem.mpr mem) identity

end Governed

end SiliconIam.Auth.Authority
