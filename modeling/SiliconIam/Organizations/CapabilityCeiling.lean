/-
# Organizations.CapabilityCeiling -- what promotions and replacements can give away

Capabilities change hands in two ways.  `replaceCapabilities` gives an explicit
set, every member of which `validateDelegation` requires to be delegable and held
by the caller.  `changeAdminRole` gives a promoted member the default set of an
administrator, which asks of the caller nothing but `admins.create`: UNDERSTANDING
settles that an administrator has every right except creating and removing other
administrators.

`Narrow` compares the directory before and after: authority only shrinks, except
for the grants named.  Every statement of the three requests is narrow, so each
request is (`changes_ceiling`), and `run_ceiling` carries that along any sequence.
-/
import SiliconIam.Organizations.Roles

namespace SiliconIam.Organizations.Roles

open SiliconIam.Theory SiliconIam.Theory.Transactions

set_option autoImplicit false

/-! ## Authority that only shrinks -/

/-- `row` is `old` with no more authority. -/
structure Seated (old row : Membership) : Prop where
  id : old.id = row.id
  organization : old.organization = row.organization
  principal : old.principal = row.principal
  kind : old.kind = row.kind
  active : row.active = true → old.active = true
  owner : row.active = true → row.role = .owner → old.role = .owner

/-- From `before` to `after` nobody gains authority but by the grants `given`
(of a membership, in `organization`). -/
structure Narrow (organization : Nat) (given : Nat → Capability → Prop)
    (before after : Directory) : Prop where
  principals : after.principals = before.principals
  organizations : after.organizations = before.organizations
  memberships : ∀ m ∈ after.memberships, ∃ old ∈ before.memberships, Seated old m
  grants : ∀ g ∈ after.grants, g ∈ before.grants ∨
    (g.organization = organization ∧ given g.grantee g.capability)

section Authority

variable {organization : Nat} {given : Nat → Capability → Prop} {d before middle after : Directory}

theorem Seated.refl (m : Membership) : Seated m m :=
  ⟨rfl, rfl, rfl, rfl, fun active => active, fun _ owner => owner⟩

theorem Seated.trans {a b c : Membership} (first : Seated a b) (second : Seated b c) :
    Seated a c where
  id := first.id.trans second.id
  organization := first.organization.trans second.organization
  principal := first.principal.trans second.principal
  kind := first.kind.trans second.kind
  active := fun active => first.active (second.active active)
  owner := fun active owner => first.owner (second.active active) (second.owner active owner)

namespace Narrow

theorem refl (d : Directory) : Narrow organization given d d :=
  ⟨rfl, rfl, fun m mem => ⟨m, mem, .refl m⟩, fun _ mem => .inl mem⟩

theorem trans (first : Narrow organization given before middle)
    (second : Narrow organization given middle after) : Narrow organization given before after where
  principals := second.principals.trans first.principals
  organizations := second.organizations.trans first.organizations
  memberships := by
    intro m mem
    obtain ⟨between, betweenMem, later⟩ := second.memberships m mem
    obtain ⟨old, oldMem, earlier⟩ := first.memberships between betweenMem
    exact ⟨old, oldMem, earlier.trans later⟩
  grants := by
    intro g mem
    rcases second.grants g mem with held | new
    · exact first.grants g held
    · exact .inr new

theorem revoke (organization' grantee : Nat) (capability : Capability) :
    Narrow organization given d (d.apply (.revoke organization' grantee capability)) :=
  ⟨rfl, rfl, fun m mem => ⟨m, mem, .refl m⟩, fun _ mem => .inl (Table.mem_erase.mp mem).1⟩

theorem grant {g : Grant} (same : g.organization = organization)
    (allowed : given g.grantee g.capability) : Narrow organization given d (d.apply (.grant g)) where
  principals := rfl
  organizations := rfl
  memberships := fun m mem => ⟨m, mem, .refl m⟩
  grants := by
    intro other mem
    rcases Table.mem_upsert.mp mem with rfl | ⟨held, -⟩
    · exact .inr ⟨same, allowed⟩
    · exact .inl held

theorem membership {old row : Membership} (mem : old ∈ d.memberships) (seated : Seated old row) :
    Narrow organization given d (d.apply (.membership row)) where
  principals := rfl
  organizations := rfl
  memberships := by
    intro m later
    rcases Table.mem_upsert.mp later with rfl | ⟨held, -⟩
    · exact ⟨old, mem, seated⟩
    · exact ⟨m, held, .refl m⟩
  grants := fun _ mem => .inl mem

theorem revoked {ws : List Write}
    (revokes : ∀ w ∈ ws, ∃ o g c, w = .revoke o g c) :
    Narrow organization given d (engine.view d ws) ∧
      (engine.view d ws).memberships = d.memberships := by
  refine Engine.view_induction (P := fun later =>
    Narrow organization given d later ∧ later.memberships = d.memberships) ⟨.refl d, rfl⟩ ?_
  intro later w mem narrow
  obtain ⟨o, g, c, rfl⟩ := revokes w mem
  exact ⟨narrow.1.trans (.revoke o g c), narrow.2⟩

/-- Who holds a capability afterwards held it before, or was given it. -/
theorem held (narrow : Narrow organization given before after) {o principal : Nat} {c : Capability}
    (holds : after.hasOrganizationCapability o principal c = true) :
    before.hasOrganizationCapability o principal c = true ∨
      (o = organization ∧ ∃ m ∈ before.memberships, m.organization = o ∧ m.principal = principal ∧
        given m.id c) := by
  obtain ⟨m, mem, sameOrg, samePrincipal, holds⟩ := Directory.hasOrganizationCapability_iff.mp holds
  obtain ⟨old, oldMem, seated⟩ := narrow.memberships m mem
  have oldOrg : old.organization = o := seated.organization.trans sameOrg
  have oldPrincipal : old.principal = principal := seated.principal.trans samePrincipal
  simp only [Directory.holds, Directory.organizationActive, Directory.principalActive,
    Bool.and_eq_true, Bool.or_eq_true, beq_iff_eq, narrow.organizations, narrow.principals] at holds
  obtain ⟨⟨⟨active, organizationActive⟩, principalActive⟩, authority⟩ := holds
  have base : old.active = true ∧ before.organizationActive old.organization = true ∧
      before.principalActive old = true := by
    refine ⟨seated.active active, ?_, ?_⟩
    · rw [seated.organization]
      exact organizationActive
    · rw [Directory.principalActive, seated.principal, seated.kind]
      exact principalActive
  have kept : (old.role = .owner ∨
      (before.granted old.organization old.id c = true ∧ c.allowedFor old.kind = true)) →
      before.hasOrganizationCapability o principal c = true := by
    intro why
    refine Directory.hasOrganizationCapability_iff.mpr ⟨old, oldMem, oldOrg, oldPrincipal, ?_⟩
    simp only [Directory.holds, Bool.and_eq_true, Bool.or_eq_true, beq_iff_eq]
    exact ⟨⟨⟨base.1, base.2.1⟩, base.2.2⟩, why⟩
  rcases authority with owner | ⟨granted, allowed⟩
  · exact .inl (kept (.inl (seated.owner active owner)))
  · obtain ⟨g, gMem, gOrg, gGrantee, gCapability⟩ := Directory.granted_iff.mp granted
    rcases narrow.grants g gMem with earlier | ⟨here, new⟩
    · refine .inl (kept (.inr ⟨Directory.granted_iff.mpr ⟨g, earlier, ?_⟩, seated.kind ▸ allowed⟩))
      exact ⟨gOrg.trans seated.organization.symm, gGrantee.trans seated.id.symm, gCapability⟩
    · refine .inr ⟨?_, old, oldMem, oldOrg, oldPrincipal, ?_⟩
      · rw [← here, gOrg, sameOrg]
      · rw [seated.id, ← gGrantee, ← gCapability]
        exact new

end Narrow

/-! ## Statements -/

/-- A statement of a request in `organization` that gives away `given` at most. -/
def Statement.Gives (organization : Nat) (given : Nat → Capability → Prop) (s : Statement) : Prop :=
  ∀ xid access d after ws, access.organization = organization →
    s.effect xid (some access) d = some (after, ws) →
    after = some access ∧ Narrow organization given d (engine.view d ws)

theorem revocations_revoke {o target : Nat} {keep : Capability → Bool} {w : Write}
    (mem : w ∈ revocations d o target keep) : ∃ o g c, w = .revoke o g c := by
  obtain ⟨g, _, _, _, _, rfl⟩ := mem_revocations.mp mem
  exact ⟨_, _, _, rfl⟩

theorem gives_require (p : OrganizationAccess → Directory → Bool) :
    (require p).Gives organization given := by
  intro xid access d after ws _ done
  obtain ⟨_, _, _, rfl, rfl⟩ := require_spec.mp done
  exact ⟨rfl, .refl d⟩

theorem gives_insertGrant {grantee grantedBy : OrganizationAccess → Nat} {c : Capability}
    {reason : String} (allowed : ∀ access, given (grantee access) c) :
    (insertGrant grantee c grantedBy reason).Gives organization given := by
  intro xid access d after ws here done
  obtain ⟨_, same, rfl, wrote⟩ := insertGrant_spec done
  obtain rfl := Option.some.inj same
  rcases wrote with ⟨_, rfl⟩ | ⟨_, rfl⟩
  · exact ⟨rfl, .refl d⟩
  · exact ⟨rfl, .grant here (allowed access)⟩

theorem seated_bump (m : Membership) : Seated m m.bump :=
  ⟨rfl, rfl, rfl, rfl, fun active => active, fun _ owner => owner⟩

theorem seated_set {m : Membership} {role : OrgRole} {by' : Option Nat} (other : role ≠ .owner) :
    Seated m (m.set role by' m.status) :=
  ⟨rfl, rfl, rfl, rfl, fun active => active, fun _ owner => absurd owner other⟩

theorem gives_bumpMembership {target expected : Nat} :
    (bumpMembership target expected).Gives organization given := by
  intro xid access d after ws _ done
  obtain ⟨_, m, _, rfl, found, _, _, rfl⟩ := bumpMembership_spec done
  exact ⟨rfl, .membership (Directory.membership?_spec found).1 (seated_bump m)⟩

theorem gives_setOrganizationAdminRole {target expected : Nat} {promote : Bool} :
    (setOrganizationAdminRole target expected promote).Gives organization given := by
  intro xid access d after ws _ done
  obtain ⟨caller, m, _, rfl, found, _, rfl⟩ := setOrganizationAdminRole_spec done
  have mem := (Directory.membership?_spec found).1
  refine ⟨rfl, ?_⟩
  cases promote with
  | true => exact .membership mem (seated_set (by simp))
  | false =>
      show Narrow organization given d (engine.view d (_ ++ _))
      rw [Engine.view_append]
      have revoked : Narrow organization given d (engine.view d
          (revocations d caller.organization target fun _ => false)) ∧
          (engine.view d (revocations d caller.organization target fun _ => false)).memberships =
            d.memberships :=
        Narrow.revoked fun _ => revocations_revoke
      exact revoked.1.trans (.membership (revoked.2 ▸ mem) (seated_set (by simp)))

theorem gives_revocations {target : Nat} {keep : Capability → Bool} {locks} :
    (change locks fun access _ d => some (revocations d access.organization target keep)).Gives
      organization given := by
  intro xid access d after ws _ done
  obtain ⟨_, same, rfl, wrote⟩ := change_spec.mp done
  obtain rfl := Option.some.inj wrote
  exact ⟨rfl, (Narrow.revoked fun _ => revocations_revoke).1⟩

theorem atomicFrom_gives {statements : List Statement} {xid : Nat} {access : OrganizationAccess}
    (all : ∀ s ∈ statements, s.Gives organization given) (here : access.organization = organization)
    (ran : engine.atomicFrom xid statements (some access) before = some after) :
    Narrow organization given before after := by
  induction statements generalizing before with
  | nil =>
      obtain rfl := Option.some.inj ran
      exact .refl before
  | cons statement rest ih =>
      obtain ⟨left, ws, effect, ran⟩ := Engine.atomicFrom_cons.mp ran
      obtain ⟨rfl, narrow⟩ := all statement List.mem_cons_self xid access before left ws here effect
      exact narrow.trans (ih (fun s mem => all s (List.mem_cons_of_mem _ mem)) ran)

end Authority

/-! ## Requests -/

/-- The requests that move capabilities between members. -/
inductive RoleChange where
  | changeAdminRole (principal organization target expected : Nat) (promote : Bool)
  | replaceCapabilities (principal organization target expected : Nat)
      (capabilities : List Capability)

namespace RoleChange

def request : RoleChange → Request
  | changeAdminRole principal organization target expected promote =>
      .changeAdminRole principal organization target expected promote
  | replaceCapabilities principal organization target expected capabilities =>
      .replaceCapabilities principal organization target expected capabilities

def principal : RoleChange → Nat
  | changeAdminRole principal _ _ _ _ | replaceCapabilities principal _ _ _ _ => principal

def organization : RoleChange → Nat
  | changeAdminRole _ organization _ _ _ | replaceCapabilities _ organization _ _ _ => organization

def target : RoleChange → Nat
  | changeAdminRole _ _ target _ _ | replaceCapabilities _ _ target _ _ => target

/-- The capabilities the target has been given afterwards. -/
def gives : RoleChange → List Capability
  | changeAdminRole _ _ _ _ promote => if promote then defaultCapabilities else []
  | replaceCapabilities _ _ _ _ capabilities => capabilities

/-- The request gives `c` to `principal`, its target there. -/
structure Reaches (d : Directory) (r : RoleChange) (o principal : Nat) (c : Capability) : Prop where
  here : o = r.organization
  given : c ∈ r.gives
  target : ∃ m ∈ d.memberships, m.id = r.target ∧ m.organization = o ∧ m.principal = principal

/-- What a caller other than the owner must hold to give `c` away: a promotion
gives the defaults and asks for `admins.create`, a replacement gives what is
delegable and asks for that itself. -/
def Warranted (d : Directory) (r : RoleChange) (c : Capability) : Prop :=
  match r with
  | changeAdminRole principal organization _ _ promote =>
      promote = true ∧ c ∈ defaultCapabilities ∧
        d.hasOrganizationCapability organization principal .adminsCreate = true
  | replaceCapabilities principal organization _ _ _ =>
      c.delegable = true ∧ d.hasOrganizationCapability organization principal c = true

end RoleChange

/-- The principal is an active owner of the organization. -/
def Directory.OwnedBy (d : Directory) (organization principal : Nat) : Prop :=
  ∃ m ∈ d.memberships, m.organization = organization ∧ m.principal = principal ∧ m.isOwner = true

/-- The request is carried out, with nothing in between. -/
def Took (d : Directory) (r : RoleChange) (after : Directory) : Prop :=
  ∃ xid, engine.atomic xid r.request d = some after

variable {r : RoleChange} {d middle after : Directory}

theorem access_allows {principal o : Nat} {access : OrganizationAccess} {c : Capability}
    (resolved : resolveOrganizationAccess d principal o = some access)
    (other : ¬ d.OwnedBy o principal) (allows : access.allows c = true) :
    d.hasOrganizationCapability o principal c = true := by
  obtain ⟨_, ⟨m, mem, sameOrg, samePrincipal, active, _, role⟩, held⟩ :=
    resolveOrganizationAccess_spec resolved
  rw [OrganizationAccess.allows, Bool.or_eq_true, beq_iff_eq] at allows
  rcases allows with owner | listed
  · refine absurd ⟨m, mem, sameOrg, samePrincipal, ?_⟩ other
    rw [Membership.isOwner, active, ← role, owner]
    rfl
  · exact held c (by simpa using listed)

/-- The first two statements of every request: the caller's access, and the capability asked of it. -/
theorem begun {principal o xid : Nat} {c : Capability} {rest : List Statement}
    (ran : engine.atomicFrom xid (beginOrganization principal o :: requireCapability c :: rest) none
      d = some after) :
    ∃ access, resolveOrganizationAccess d principal o = some access ∧ access.organization = o ∧
      access.allows c = true ∧ engine.atomicFrom xid rest (some access) d = some after := by
  obtain ⟨_, _, first, ran⟩ := Engine.atomicFrom_cons.mp ran
  obtain ⟨access, resolved, rfl, rfl⟩ := beginOrganization_spec.mp first
  obtain ⟨_, _, second, ran⟩ := Engine.atomicFrom_cons.mp ran
  obtain ⟨_, same, allows, rfl, rfl⟩ := require_spec.mp second
  obtain rfl := Option.some.inj same
  exact ⟨access, resolved, (resolveOrganizationAccess_spec resolved).1, allows, ran⟩

/-- One request gives its own capabilities to its target, and nobody else gains authority. -/
theorem took_narrow (took : Took d r after) :
    Narrow r.organization (fun i c => i = r.target ∧ c ∈ r.gives) d after := by
  obtain ⟨xid, ran⟩ := took
  cases r with
  | changeAdminRole principal o target expected promote =>
      obtain ⟨access, _, here, _, ran⟩ := begun ran
      refine atomicFrom_gives (fun s mem => ?_) here ran
      cases promote with
      | true =>
          simp only [if_true, List.mem_append, List.mem_cons, List.not_mem_nil, or_false,
            grantDefaultAdministratorCapabilities, List.mem_map] at mem
          rcases mem with rfl | rfl | rfl | ⟨c, default, rfl⟩ | rfl
          · exact gives_require _
          · exact gives_require _
          · exact gives_setOrganizationAdminRole
          · exact gives_insertGrant fun _ => ⟨rfl, default⟩
          · exact gives_require _
      | false =>
          simp only [Bool.false_eq_true, if_false, List.nil_append, List.mem_cons,
            List.not_mem_nil, or_false] at mem
          rcases mem with rfl | rfl | rfl | rfl
          · exact gives_require _
          · exact gives_require _
          · exact gives_setOrganizationAdminRole
          · exact gives_require _
  | replaceCapabilities principal o target expected capabilities =>
      obtain ⟨access, _, here, _, ran⟩ := begun ran
      refine atomicFrom_gives (fun s mem => ?_) here ran
      simp only [replaceGrants, List.mem_append, List.mem_cons, List.not_mem_nil, or_false,
        List.mem_map] at mem
      rcases mem with rfl | rfl | (rfl | ⟨c, listed, rfl⟩) | rfl | rfl
      · exact gives_require _
      · exact gives_require _
      · exact gives_revocations
      · exact gives_insertGrant fun _ => ⟨rfl, listed⟩
      · exact gives_bumpMembership
      · exact gives_require _

/-- What a caller other than the owner gives away is warranted. -/
theorem took_warranted (took : Took d r after) (other : ¬ d.OwnedBy r.organization r.principal) :
    ∀ c ∈ r.gives, r.Warranted d c := by
  obtain ⟨xid, ran⟩ := took
  cases r with
  | changeAdminRole principal o target expected promote =>
      obtain ⟨access, resolved, _, allows, _⟩ := begun ran
      intro c given
      cases promote with
      | true => exact ⟨rfl, given, access_allows resolved other allows⟩
      | false => exact absurd given List.not_mem_nil
  | replaceCapabilities principal o target expected capabilities =>
      obtain ⟨access, resolved, _, _, ran⟩ := begun ran
      obtain ⟨_, _, identity, ran⟩ := Engine.atomicFrom_cons.mp ran
      obtain ⟨_, _, _, rfl, rfl⟩ := require_spec.mp identity
      obtain ⟨_, _, validated, _⟩ := Engine.atomicFrom_cons.mp ran
      obtain ⟨_, same, valid, _, _⟩ := require_spec.mp validated
      obtain rfl := Option.some.inj same
      rw [Bool.and_eq_true, List.all_eq_true, Bool.or_eq_true, List.all_eq_true] at valid
      have notOwner : (access.role == .owner) = false := by
        obtain ⟨_, ⟨m, mem, sameOrg, samePrincipal, active, _, role⟩, _⟩ :=
          resolveOrganizationAccess_spec resolved
        cases owner : access.role == .owner with
        | false => rfl
        | true =>
            refine absurd ⟨m, mem, sameOrg, samePrincipal, ?_⟩ other
            rw [Membership.isOwner, active, ← role, owner]
            rfl
      intro c given
      have allowed := valid.1 c given
      have held := (valid.2.resolve_left (by simp [notOwner])) c given
      rw [notOwner, Bool.false_or, Bool.and_eq_true] at allowed
      rw [Bool.and_eq_true] at held
      exact ⟨allowed.2, access_allows resolved other held.2⟩

/-- A capability gained in one request was given by it to its target, by the owner or with a warrant. -/
theorem took_ceiling {o principal : Nat} {c : Capability} (took : Took d r after)
    (gained : after.hasOrganizationCapability o principal c = true)
    (lacked : d.hasOrganizationCapability o principal c = false) :
    r.Reaches d o principal c ∧ (d.OwnedBy r.organization r.principal ∨ r.Warranted d c) := by
  rcases (took_narrow took).held gained with held | ⟨here, m, mem, sameOrg, samePrincipal, given⟩
  · rw [lacked] at held
    exact Bool.noConfusion held
  · refine ⟨⟨here, given.2, m, mem, given.1, sameOrg, samePrincipal⟩, ?_⟩
    by_cases owner : d.OwnedBy r.organization r.principal
    · exact .inl owner
    · exact .inr (took_warranted took owner c given.2)

/-! ## Sequences -/

section Groups

variable (organization : Nat) (group : Nat → Prop)

/-- In this sequence the owner gave `c` to a member of the group. -/
def OwnerGave (d : Directory) (changes : List RoleChange) (c : Capability) : Prop :=
  ∃ earlier r later middle next, changes = earlier ++ r :: later ∧
    Runs.Run Took d earlier middle ∧ Took middle r next ∧
    r.organization = organization ∧ middle.OwnedBy organization r.principal ∧ c ∈ r.gives ∧
    ∃ m ∈ middle.memberships, m.id = r.target ∧ m.organization = organization ∧ group m.principal

/-- What the group held at the start or was given by the owner. -/
def Endowed (d : Directory) (changes : List RoleChange) (c : Capability) : Prop :=
  (∃ q, group q ∧ d.hasOrganizationCapability organization q c = true) ∨
    OwnerGave organization group d changes c

/-- The members of the group and the owner are the callers in this organization. -/
def Acts (d : Directory) (r : RoleChange) (_ : Directory) : Prop :=
  r.organization = organization → group r.principal ∨ d.OwnedBy organization r.principal

def TookBy (d : Directory) (r : RoleChange) (after : Directory) : Prop :=
  Took d r after ∧ Acts organization group d r after

variable {organization group} {changes : List RoleChange} {c : Capability}

/-- What the owner gave after the first request, the owner gave. -/
theorem OwnerGave.cons (took : Took d r middle) (gave : OwnerGave organization group middle changes c) :
    OwnerGave organization group d (r :: changes) c := by
  obtain ⟨earlier, s, later, before, next, rfl, run, rest⟩ := gave
  exact ⟨r :: earlier, s, later, before, next, rfl, .cons took run, rest⟩

/-- One step back: what the group holds after the first request it was endowed
with, or was given as a default by a holder of `admins.create`. -/
theorem endowed_step (step : TookBy organization group d r middle)
    (endowed : Endowed organization group middle changes c) :
    Endowed organization group d (r :: changes) c ∨
      (c ∈ defaultCapabilities ∧
        Endowed organization group d (r :: changes) .adminsCreate) := by
  rcases endowed with ⟨q, member, held⟩ | gave
  · cases before : d.hasOrganizationCapability organization q c with
    | true => exact .inl (.inl ⟨q, member, before⟩)
    | false =>
        obtain ⟨⟨here, given, m, mem, target, sameOrg, same⟩, why⟩ := took_ceiling step.1 held before
        by_cases owner : d.OwnedBy organization r.principal
        · refine .inl (.inr ⟨[], r, changes, d, middle, rfl, .nil d, step.1, here.symm, owner, given,
            m, mem, target, sameOrg, ?_⟩)
          rw [same]
          exact member
        · have warrant := why.resolve_left (here ▸ owner)
          have caller : group r.principal := (step.2 here.symm).resolve_right owner
          cases r with
          | changeAdminRole principal o target' expected promote =>
              obtain rfl : organization = o := here
              obtain ⟨-, default, creates⟩ := warrant
              exact .inr ⟨default, .inl ⟨principal, caller, creates⟩⟩
          | replaceCapabilities principal o target' expected capabilities =>
              obtain rfl : organization = o := here
              exact .inl (.inl ⟨principal, caller, warrant.2⟩)
  · exact .inl (.inr (gave.cons step.1))

/-- Nobody but the owner ever passes `admins.create` on. -/
theorem endowed_adminsCreate (step : TookBy organization group d r middle)
    (endowed : Endowed organization group middle changes .adminsCreate) :
    Endowed organization group d (r :: changes) .adminsCreate :=
  (endowed_step step endowed).elim id fun default => default.2

/-- Along a sequence in which the group and the owner act, the group reaches what
it was endowed with, and the default administrator capabilities if it was
endowed with `admins.create`. -/
theorem run_ceiling (run : Runs.Run (TookBy organization group) d changes after) {p : Nat}
    (member : group p) (held : after.hasOrganizationCapability organization p c = true) :
    Endowed organization group d changes c ∨
      (c ∈ defaultCapabilities ∧ Endowed organization group d changes .adminsCreate) := by
  induction run with
  | nil s => exact .inl (.inl ⟨p, member, held⟩)
  | cons first later ih =>
      rcases ih held with endowed | ⟨default, endowed⟩
      · exact endowed_step first endowed
      · exact .inr ⟨default, endowed_adminsCreate first endowed⟩

end Groups

/-- Requests one after the other. -/
def inTurn : List Request → Directory → Option Directory
  | [], d => some d
  | request :: rest, d =>
      match engine.atomic rest.length request d with
      | none => none
      | some after => inTurn rest after

/-- The owner (principal 1) gives `admins.create`, and nothing else, to principal 2. -/
def delegated : List Request :=
  [ .registerPrincipal ⟨1, .carbon, true⟩,
    .registerPrincipal ⟨2, .carbon, true⟩,
    .registerPrincipal ⟨3, .carbon, true⟩,
    .createOrganization 1 1 11,
    .addMember 2 1 12 .carbon,
    .addMember 3 1 13 .carbon,
    .replaceCapabilities 1 1 12 1 [.adminsCreate] ]

def accomplicePromoted : RoleChange := .changeAdminRole 2 1 13 1 true

/-- Principal 2 promotes principal 3, who then holds `members.remove`: not
delegable, and not held by principal 2. -/
theorem promotion_exceeds_ceiling :
    ¬ ∀ (requests : List Request) (d : Directory) (r : RoleChange) (after : Directory),
      inTurn requests .empty = some d → Took d r after → ¬ d.OwnedBy r.organization r.principal →
      ∀ o principal c, after.hasOrganizationCapability o principal c = true →
        d.hasOrganizationCapability o principal c = true ∨
          (c.delegable = true ∧
            d.hasOrganizationCapability r.organization r.principal c = true) := by
  intro ceiling
  obtain ⟨d, reached⟩ : ∃ d, inTurn delegated .empty = some d :=
    Option.isSome_iff_exists.mp (by decide +kernel)
  obtain ⟨after, took⟩ : ∃ after, engine.atomic 7 accomplicePromoted.request d = some after := by
    have possible : ((inTurn delegated .empty).bind
        (engine.atomic 7 accomplicePromoted.request)).isSome = true := by decide +kernel
    rw [reached] at possible
    exact Option.isSome_iff_exists.mp possible
  have lacked : (inTurn delegated .empty).any
      (fun d => d.hasOrganizationCapability 1 3 .membersRemove) = false := by decide +kernel
  have gained : ((inTurn delegated .empty).bind
      (engine.atomic 7 accomplicePromoted.request)).any
        (fun d => d.hasOrganizationCapability 1 3 .membersRemove) = true := by decide +kernel
  have ordinary : (inTurn delegated .empty).all
      (fun d => d.memberships.all fun m => m.principal != 2 || !m.isOwner) = true := by
    decide +kernel
  rw [reached] at lacked gained ordinary
  rw [Option.bind_some, took] at gained
  have other : ¬ d.OwnedBy 1 2 := by
    rintro ⟨m, mem, -, principal, owner⟩
    simpa [principal, owner] using Table.all_spec.mp ordinary m mem
  rcases ceiling delegated d accomplicePromoted after reached ⟨7, took⟩ other 1 3 .membersRemove
    gained with held | ⟨delegable, -⟩
  · rw [Option.any_some, held] at lacked
    exact Bool.noConfusion lacked
  · exact Bool.noConfusion delegable

/-- One request, and any sequence of them. -/
theorem capability_ceiling :
    (∀ (d : Directory) (r : RoleChange) (after : Directory), Took d r after →
      ¬ d.OwnedBy r.organization r.principal →
      ∀ o principal c, after.hasOrganizationCapability o principal c = true →
        d.hasOrganizationCapability o principal c = true ∨
          (r.Reaches d o principal c ∧ r.Warranted d c)) ∧
    ∀ (organization : Nat) (group : Nat → Prop) (d : Directory) (changes : List RoleChange)
      (after : Directory), Runs.Run (TookBy organization group) d changes after →
      ∀ p c, group p → after.hasOrganizationCapability organization p c = true →
        Endowed organization group d changes c ∨
          (c ∈ defaultCapabilities ∧ Endowed organization group d changes .adminsCreate) := by
  constructor
  · intro d r after took other o principal c held
    cases before : d.hasOrganizationCapability o principal c with
    | true => exact .inl rfl
    | false =>
        obtain ⟨reaches, why⟩ := took_ceiling took held before
        exact .inr ⟨reaches, why.resolve_left other⟩
  · intro organization group d changes after run p c member held
    exact run_ceiling run member held

end SiliconIam.Organizations.Roles
