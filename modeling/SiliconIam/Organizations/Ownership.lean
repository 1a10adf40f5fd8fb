/-
# Organizations.Ownership -- one owner, whatever runs at the same time

Only a transfer moves ownership, and only organization creation makes an owner.
Every other statement is `Modest`: a membership it writes is owner or not as it
was, under a lock on its row.  So the owners of an organization can only change
when a transfer commits, and a transfer has the old and the new owner's rows and
the organization's row locked by then.

`At` says what an open transaction has established.  For a transfer this is
`Transferring`, by the number of statements done: nobody else has transferred the
organization since the version was read (`fresh`, `bumped`), so the unique index
of active owners lets the new owner in only when the caller was the owner and has
just been demoted (`moved`).  From then on the two members and their grants are
the transfer's alone, and its last statements revoke all of them and grant the
default set (`settled`).

The deferred trigger that counts the owners is among the statements and is not
needed: the invariant holds without it.
-/
import SiliconIam.Organizations.RoleViews

namespace SiliconIam.Organizations.Roles

open SiliconIam.Theory SiliconIam.Theory.Transactions

set_option autoImplicit false

abbrev Tx := Transaction Directory Write RowLock Memory Request

/-! ## The invariant -/

/-- `row` is another version of `old`, with the same say in who owns the organization. -/
structure SameSeat (old row : Membership) : Prop where
  id : old.id = row.id
  organization : old.organization = row.organization
  kind : old.kind = row.kind
  owner : old.isOwner = row.isOwner

theorem SameSeat.refl (m : Membership) : SameSeat m m := ⟨rfl, rfl, rfl, rfl⟩

theorem SameSeat.trans {a b c : Membership} (first : SameSeat a b) (second : SameSeat b c) :
    SameSeat a c :=
  ⟨first.id.trans second.id, first.organization.trans second.organization,
    first.kind.trans second.kind, first.owner.trans second.owner⟩

def SoleOwner (d : Directory) (organization : Nat) : Prop :=
  ∃ m ∈ d.memberships, m.organization = organization ∧ m.isOwner = true ∧ m.kind = .carbon ∧
    ∀ other ∈ d.memberships, other.organization = organization → other.isOwner = true → other = m

structure Inv (d : Directory) : Prop where
  seated : ∀ m ∈ d.memberships, ∃ o ∈ d.organizations, o.id = m.organization
  owned : ∀ o ∈ d.organizations, o.status = .active → SoleOwner d o.id

variable {d : Directory} {ws : List Write} {locks held : List RowLock} {t u : Tx}

/-- Writes that leave the owner of one organization where it is. -/
theorem SoleOwner.kept {organization : Nat} (sole : SoleOwner d organization)
    (rows : ∀ row, .membership row ∈ ws →
      (∀ old ∈ d.memberships, old.id = row.id → old.organization = row.organization ∧
        (row.organization = organization → SameSeat old row)) ∧
      ((∀ old ∈ d.memberships, old.id ≠ row.id) → row.organization = organization →
        row.isOwner = false)) :
    SoleOwner (engine.view d ws) organization := by
  obtain ⟨m, mem, here, owner, carbon, only⟩ := sole
  -- Every owner of the view continues an owner from before, which is `m`.
  have continues : ∀ row ∈ (engine.view d ws).memberships, row.organization = organization →
      row.isOwner = true → SameSeat m row := by
    intro row rowMem rowHere rowOwner
    rcases mem_view_memberships rowMem with pending | ⟨committed, -⟩
    · obtain ⟨versions, new⟩ := rows row pending
      by_cases exists' : ∃ old ∈ d.memberships, old.id = row.id
      · obtain ⟨old, oldMem, same⟩ := exists'
        have seat := (versions old oldMem same).2 rowHere
        obtain rfl := only old oldMem (seat.organization.trans rowHere) (seat.owner.trans rowOwner)
        exact seat
      · rw [new (fun old oldMem same => exists' ⟨old, oldMem, same⟩) rowHere] at rowOwner
        exact Bool.noConfusion rowOwner
    · obtain rfl := only row committed rowHere rowOwner
      exact .refl row
  obtain ⟨row, rowMem, same⟩ := view_membership_exists ws mem
  have seat : SameSeat m row := by
    rcases mem_view_memberships rowMem with pending | ⟨committed, -⟩
    · obtain ⟨sameOrg, seat⟩ := (rows row pending).1 m mem same.symm
      exact seat (sameOrg.symm.trans here)
    · obtain rfl := Table.unique committed mem same
      exact .refl row
  refine ⟨row, rowMem, seat.organization.symm.trans here, seat.owner.symm.trans owner,
    seat.kind.symm.trans carbon, fun other otherMem otherHere otherOwner => ?_⟩
  have otherSeat := continues other otherMem otherHere otherOwner
  exact Table.unique otherMem rowMem (otherSeat.id.symm.trans seat.id)

/-! ## Modest statements -/

/-- What a statement that moves no ownership writes, with the locks it takes. -/
structure Modest (d : Directory) (locks : List RowLock) (ws : List Write) : Prop where
  members : ∀ row, .membership row ∈ ws → LocksMember row.id locks ∧
    ((∃ m ∈ d.memberships, SameSeat m row) ∨
      ((∀ m ∈ d.memberships, m.id ≠ row.id) ∧ row.isOwner = false ∧
        ∃ o ∈ d.organizations, o.id = row.organization))
  organizations : ∀ row, .organization row ∈ ws → LocksOrganization row.id locks ∧
    ∃ o ∈ d.organizations, o.id = row.id ∧ o.status = row.status ∧ o.version < row.version

/-- A statement that writes grants alone. -/
theorem Modest.of_others (members : ∀ row, .membership row ∉ ws)
    (organizations : ∀ row, .organization row ∉ ws) : Modest d locks ws :=
  ⟨fun row mem => absurd mem (members row), fun row mem => absurd mem (organizations row)⟩

theorem Modest.nil : Modest d locks [] :=
  .of_others (fun _ => List.not_mem_nil) fun _ => List.not_mem_nil

theorem Modest.member {m row : Membership} (mem : m ∈ d.memberships) (seat : SameSeat m row)
    (locked : LocksMember row.id locks) : Modest d locks [.membership row] where
  members := by
    intro other pending
    obtain rfl := Write.membership.inj (List.mem_singleton.mp pending)
    exact ⟨locked, .inl ⟨m, mem, seat⟩⟩
  organizations := fun _ pending => nomatch List.mem_singleton.mp pending

theorem Modest.append {other : List Write} (first : Modest d locks ws)
    (second : Modest d locks other) : Modest d locks (ws ++ other) where
  members := fun row mem => (List.mem_append.mp mem).elim (first.members row) (second.members row)
  organizations := fun row mem =>
    (List.mem_append.mp mem).elim (first.organizations row) (second.organizations row)

theorem modest_revocations {organization grantee : Nat} {keep : Capability → Bool} :
    Modest d locks (revocations d organization grantee keep) := by
  refine .of_others (fun row mem => ?_) fun row mem => ?_
  · obtain ⟨_, _, _, _, _, same⟩ := mem_revocations.mp mem
    exact nomatch same
  · obtain ⟨_, _, _, _, _, same⟩ := mem_revocations.mp mem
    exact nomatch same

theorem sameSeat_bump (m : Membership) : SameSeat m m.bump := ⟨rfl, rfl, rfl, rfl⟩

theorem sameSeat_set {m : Membership} {role : OrgRole} {grantedBy : Option Nat}
    {status : MembershipStatus} (before : m.isOwner = false) (after : role ≠ .owner) :
    SameSeat m (m.set role grantedBy status) := by
  refine ⟨rfl, rfl, rfl, ?_⟩
  have notOwner : (role == OrgRole.owner) = false := by simpa using after
  rw [before, Membership.isOwner, Membership.set]
  simp [notOwner]

theorem isOwner_of_role {m : Membership} (other : m.role ≠ .owner) : m.isOwner = false := by
  have notOwner : (m.role == OrgRole.owner) = false := by simpa using other
  rw [Membership.isOwner, notOwner, Bool.and_false]

/-- The statement is modest wherever it succeeds. -/
def Statement.IsModest (s : Statement) : Prop :=
  ∀ xid memory d after ws, s.effect xid memory d = some (after, ws) → Modest d (s.locks memory d) ws

theorem modest_require (p : OrganizationAccess → Directory → Bool) : (require p).IsModest := by
  intro xid memory d after ws done
  obtain ⟨_, _, _, _, rfl⟩ := require_spec.mp done
  exact .nil

theorem modest_beginOrganization (principal organization : Nat) :
    (beginOrganization principal organization).IsModest := by
  intro xid memory d after ws done
  obtain ⟨_, _, _, rfl⟩ := beginOrganization_spec.mp done
  exact .nil

theorem modest_insertGrant (grantee : OrganizationAccess → Nat) (c : Capability)
    (grantedBy : OrganizationAccess → Nat) (reason : String) :
    (insertGrant grantee c grantedBy reason).IsModest := by
  intro xid memory d after ws done
  obtain ⟨_, _, _, ⟨_, rfl⟩ | ⟨_, rfl⟩⟩ := insertGrant_spec done
  · exact .nil
  · exact .of_others (fun _ mem => nomatch List.mem_singleton.mp mem)
      fun _ mem => nomatch List.mem_singleton.mp mem

theorem modest_setOrganizationAdminRole (target expected : Nat) (promote : Bool) :
    (setOrganizationAdminRole target expected promote).IsModest := by
  intro xid memory d after ws done
  obtain ⟨access, m, rfl, _, found, ⟨_, _, _, role⟩, rfl⟩ := setOrganizationAdminRole_spec done
  obtain ⟨mem, _, rfl⟩ := Directory.membership?_spec found
  have before : m.isOwner = false := isOwner_of_role (by rw [role]; cases promote <;> simp)
  have locked : LocksMember m.id ((setOrganizationAdminRole m.id expected promote).locks
      (some access) d) := .inl (List.mem_singleton.mpr rfl)
  cases promote with
  | true => exact .member mem (sameSeat_set before (by simp)) locked
  | false => exact modest_revocations.append (.member mem (sameSeat_set before (by simp)) locked)

theorem modest_bumpMembership (target expected : Nat) :
    (bumpMembership target expected).IsModest := by
  intro xid memory d after ws done
  obtain ⟨access, m, rfl, _, found, _, _, rfl⟩ := bumpMembership_spec done
  obtain ⟨mem, _, rfl⟩ := Directory.membership?_spec found
  exact .member mem (sameSeat_bump m) (.inr (List.mem_singleton.mpr rfl))

theorem modest_revoke {locks : OrganizationAccess → Directory → List RowLock} (target : Nat)
    (keep : Capability → Bool) :
    (change locks fun access _ d => some (revocations d access.organization target keep)).IsModest := by
  intro xid memory d after ws done
  obtain ⟨_, _, _, wrote⟩ := change_spec.mp done
  obtain rfl := Option.some.inj wrote
  exact modest_revocations

theorem mem_revokeGrants {grantees : OrganizationAccess → List Nat} {xid : Nat}
    {memory after : Memory}
    (done : (revokeGrants grantees).effect xid memory d = some (after, ws)) :
    ∃ access, memory = some access ∧ after = memory ∧ ∀ w, w ∈ ws ↔ ∃ g ∈ d.grants,
      g.organization = access.organization ∧ g.grantee ∈ grantees access ∧
        w = .revoke g.organization g.grantee g.capability := by
  obtain ⟨access, rfl, rfl, wrote⟩ := change_spec.mp done
  obtain rfl := Option.some.inj wrote
  refine ⟨access, rfl, rfl, fun w => ?_⟩
  rw [List.mem_flatMap]
  constructor
  · rintro ⟨i, listed, mem⟩
    obtain ⟨g, gMem, here, rfl, _, rfl⟩ := mem_revocations.mp mem
    exact ⟨g, gMem, here, listed, rfl⟩
  · rintro ⟨g, gMem, here, listed, rfl⟩
    exact ⟨g.grantee, listed, mem_revocations.mpr ⟨g, gMem, here, rfl, rfl, rfl⟩⟩

theorem modest_revokeGrants (grantees : OrganizationAccess → List Nat) :
    (revokeGrants grantees).IsModest := by
  intro xid memory d after ws done
  obtain ⟨access, _, _, mem_iff⟩ := mem_revokeGrants done
  refine .of_others (fun row mem => ?_) fun row mem => ?_
  · obtain ⟨_, _, _, _, same⟩ := (mem_iff _).mp mem
    exact nomatch same
  · obtain ⟨_, _, _, _, same⟩ := (mem_iff _).mp mem
    exact nomatch same

theorem bumpOrganization_spec {expected xid : Nat} {memory after : Memory}
    (done : (bumpOrganization expected).effect xid memory d = some (after, ws)) :
    ∃ access, ∃ o ∈ d.organizations, memory = some access ∧ after = memory ∧
      o.id = access.organization ∧ o.version = expected ∧
      ws = [.organization { o with version := o.version + 1 }] := by
  obtain ⟨access, rfl, rfl, wrote⟩ := change_spec.mp done
  cases found : d.organizations.find? fun o => o.id == access.organization with
  | none => simp [found] at wrote
  | some o =>
      obtain ⟨mem, same⟩ := Table.find?_spec found
      rw [found] at wrote
      dsimp only at wrote
      split at wrote
      · rename_i version
        exact ⟨access, o, mem, rfl, rfl, by simpa using same, by simpa using version,
          (Option.some.inj wrote).symm⟩
      · exact absurd wrote (by simp)

theorem modest_bumpOrganization (expected : Nat) : (bumpOrganization expected).IsModest := by
  intro xid memory d after ws done
  obtain ⟨access, o, mem, rfl, _, same, _, rfl⟩ := bumpOrganization_spec done
  refine ⟨fun row pending => ?_, fun row pending => ?_⟩
  · exact nomatch List.mem_singleton.mp pending
  obtain rfl := Write.organization.inj (List.mem_singleton.mp pending)
  exact ⟨.inr (List.mem_singleton.mpr (by rw [← same])), o, mem, rfl, rfl, Nat.lt_succ_self _⟩

theorem lockRemovalTarget_writes {principal target xid : Nat} {memory after : Memory}
    (done : (lockRemovalTarget principal target).effect xid memory d = some (after, ws)) :
    ws = [] := by
  obtain ⟨access, _, _, wrote⟩ := change_spec.mp done
  cases found : d.membership? access.organization target with
  | none => simp [found] at wrote
  | some m =>
      rw [found] at wrote
      dsimp only at wrote
      split at wrote
      · exact (Option.some.inj wrote).symm
      · exact absurd wrote (by simp)

theorem modest_lockRemovalTarget (principal target : Nat) :
    (lockRemovalTarget principal target).IsModest := by
  intro xid memory d after ws done
  obtain rfl := lockRemovalTarget_writes done
  exact .nil

theorem modest_lockSurvivors (survivors : List Nat) : (lockSurvivors survivors).IsModest := by
  intro xid memory d after ws done
  obtain ⟨_, _, _, wrote⟩ := change_spec.mp done
  obtain rfl := Option.some.inj wrote
  exact .nil

theorem modest_removeOrganizationMembership (principal target expected : Nat)
    (survivors : List Nat) :
    (removeOrganizationMembership principal target expected survivors).IsModest := by
  intro xid memory d after ws done
  obtain ⟨access, m, rfl, _, found, met, rfl⟩ := change_membership_spec done
  obtain ⟨mem, _, rfl⟩ := Directory.membership?_spec found
  simp only [removable, Bool.and_eq_true, bne_iff_ne] at met
  have locked : LocksMember m.id
      ((removeOrganizationMembership principal m.id expected survivors).locks (some access) d) :=
    .inl List.mem_cons_self
  refine (((Modest.of_others ?_ ?_).append modest_revocations).append ⟨?_, ?_⟩).append
    (.member mem (sameSeat_set (isOwner_of_role met.1.1.2) (by simp)) locked)
  · intro row pending
    obtain ⟨_, _, same⟩ := List.mem_map.mp pending
    exact nomatch same
  · intro row pending
    obtain ⟨_, _, same⟩ := List.mem_map.mp pending
    exact nomatch same
  · intro row pending
    obtain ⟨other, listed, same⟩ := List.mem_map.mp pending
    obtain rfl := Write.membership.inj same
    obtain ⟨i, kept, survivor⟩ := List.mem_filterMap.mp (List.mem_filter.mp listed).1
    obtain ⟨otherMem, _, rfl⟩ := Directory.membership?_spec survivor
    refine ⟨.inl (List.mem_cons_of_mem _ ?_), .inl ⟨other, otherMem, sameSeat_bump other⟩⟩
    exact List.mem_map.mpr ⟨other.id, (List.mem_filter.mp kept).1, rfl⟩
  · intro row pending
    obtain ⟨_, _, same⟩ := List.mem_map.mp pending
    exact nomatch same

theorem admitMember_spec {principal organization membership xid : Nat} {kind : PrincipalKind}
    {memory after : Memory}
    (done : (admitMember principal organization membership kind).effect xid memory d =
      some (after, ws)) :
    ∃ access row, after = some access ∧ ws = [.membership row] ∧ row.id = access.membership ∧
      Modest d ((admitMember principal organization membership kind).locks memory d) ws := by
  simp only [admitMember] at done
  cases found : d.seat? organization principal with
  | none =>
      rw [found] at done
      dsimp only at done
      split at done
      · exact absurd done (by simp)
      · rename_i free
        simp only [Bool.or_eq_true, not_or, Bool.not_eq_true', Bool.not_eq_false,
          Bool.not_eq_true] at free
        obtain ⟨rfl, rfl⟩ := Prod.mk.inj (Option.some.inj done)
        refine ⟨_, _, rfl, rfl, rfl, fun row pending => ?_,
          fun _ pending => nomatch List.mem_singleton.mp pending⟩
        obtain rfl := Write.membership.inj (List.mem_singleton.mp pending)
        refine ⟨.inl ?_, .inr ⟨fun m mem same => ?_, rfl, ?_⟩⟩
        · simp [admitMember, found]
        · have : d.memberships.any (fun m => m.id == membership) = true :=
            Table.any_eq_true.mpr ⟨m, mem, by simpa using same⟩
          rw [free.1] at this
          exact Bool.noConfusion this
        · obtain ⟨o, mem, same⟩ := Table.any_spec free.2
          exact ⟨o, mem, by simpa using same⟩
  | some m =>
      rw [found] at done
      dsimp only at done
      split at done
      · rename_i met
        simp only [Bool.and_eq_true, Bool.not_eq_true'] at met
        obtain ⟨rfl, rfl⟩ := Prod.mk.inj (Option.some.inj done)
        have before : m.isOwner = false := by rw [Membership.isOwner, met.2, Bool.false_and]
        refine ⟨_, _, rfl, rfl, rfl, .member (Table.find?_spec found).1
          (sameSeat_set before (by simp)) (.inr ?_)⟩
        simp [admitMember, found, Membership.set]
      · exact absurd done (by simp)

end SiliconIam.Organizations.Roles
