/-
# Organizations.SingleOwner -- exactly one owner in every committed state

The proof outline of the role requests: `At` says what each open request has
established, by its kind, and `outline` that its own statements keep that, that the
commits of the others keep it, and that its commit keeps the invariant.  A request
that is neither a transfer nor a creation is `Neutral`: the rows it has pending
are as much owners as the committed rows they replace.  A replacement of
capabilities writes grants before it locks the member, but only its last statements
can let it commit, and they take that lock (`Replacing`).
-/
import SiliconIam.Organizations.Transfer

namespace SiliconIam.Organizations.Roles

open SiliconIam.Theory SiliconIam.Theory.Transactions

set_option autoImplicit false

variable {d : Directory} {t u : Tx} {statement : Statement} {rest : List Statement}
variable {after : Memory} {ws : List Write} {locks : List RowLock}

/-! ## Requests that move no ownership -/

structure Neutral (d : Directory) (t : Tx) : Prop where
  members : ∀ row, .membership row ∈ t.pending → LocksMember row.id t.held ∧
    (∀ old ∈ d.memberships, old.id = row.id → SameSeat old row) ∧
    ((∀ old ∈ d.memberships, old.id ≠ row.id) → row.isOwner = false) ∧
    ∃ o ∈ d.organizations, o.id = row.organization
  organizations : ∀ row, .organization row ∈ t.pending → LocksOrganization row.id t.held ∧
    ∃ old ∈ d.organizations, old.id = row.id ∧ old.status = row.status ∧ old.version < row.version

namespace Neutral

theorem fresh (pending : t.pending = []) : Neutral d t := by
  refine ⟨fun row mem => ?_, fun row mem => ?_⟩
  · rw [pending] at mem
    exact absurd mem List.not_mem_nil
  · rw [pending] at mem
    exact absurd mem List.not_mem_nil

/-- An organization of the view is a committed one. -/
theorem organization (neutral : Neutral d t) {o : Organization}
    (mem : o ∈ (engine.view d t.pending).organizations) :
    ∃ old ∈ d.organizations, old.id = o.id ∧ old.status = o.status ∧ old.version ≤ o.version := by
  rcases mem_view_organizations mem with pending | ⟨committed, -⟩
  · obtain ⟨_, old, oldMem, same, status, grown⟩ := neutral.organizations o pending
    exact ⟨old, oldMem, same, status, grown.le⟩
  · exact ⟨o, committed, rfl, rfl, Nat.le_refl _⟩

theorem advance (inv : Inv d) (neutral : Neutral d t) (modest : Modest (engine.view d t.pending) locks ws) :
    Neutral d (t.advance rest after ws locks) := by
  refine ⟨fun row mem => ?_, fun row mem => ?_⟩
  · rcases List.mem_append.mp mem with earlier | new
    · obtain ⟨lock, facts⟩ := neutral.members row earlier
      exact ⟨lock.append, facts⟩
    · obtain ⟨lock, ⟨m, mMem, seat⟩ | ⟨none, notOwner, o, oMem, here⟩⟩ := modest.members row new
      · -- The row it replaces is pending or committed.
        refine ⟨lock.taken, ?_⟩
        rcases mem_view_memberships mMem with pending | ⟨committed, -⟩
        · obtain ⟨_, versions, fresh, o, oMem, here⟩ := neutral.members m pending
          refine ⟨fun old oldMem same => (versions old oldMem (same.trans seat.id.symm)).trans seat,
            fun none => ?_, o, oMem, here.trans seat.organization⟩
          rw [← seat.owner]
          exact fresh fun old oldMem same => none old oldMem (same.trans seat.id)
        · refine ⟨fun old oldMem same => ?_, fun none => absurd seat.id (none m committed), ?_⟩
          · rw [Table.unique oldMem committed (same.trans seat.id.symm)]
            exact seat
          · obtain ⟨o, oMem, here⟩ := inv.seated m committed
            exact ⟨o, oMem, here.trans seat.organization⟩
      · refine ⟨lock.taken, fun old oldMem same => ?_, fun _ => notOwner, ?_⟩
        · obtain ⟨m, mMem, mSame⟩ := view_membership_exists t.pending oldMem
          exact absurd (mSame.trans same) (none m mMem)
        · obtain ⟨old, oldMem, same, _⟩ := neutral.organization oMem
          exact ⟨old, oldMem, same.trans here⟩
  · rcases List.mem_append.mp mem with earlier | new
    · obtain ⟨lock, facts⟩ := neutral.organizations row earlier
      exact ⟨lock.append, facts⟩
    · obtain ⟨lock, o, oMem, same, status, grown⟩ := modest.organizations row new
      obtain ⟨old, oldMem, oldSame, oldStatus, le⟩ := neutral.organization oMem
      exact ⟨lock.taken, old, oldMem, oldSame.trans same, oldStatus.trans status,
        Nat.lt_of_le_of_lt le grown⟩

theorem stable (neutral : Neutral d t) (yields : Yields d u)
    (compatible : engine.Compatible t u) : Neutral (engine.view d u.pending) t := by
  refine ⟨fun row mem => ?_, fun row mem => ?_⟩
  · obtain ⟨lock, versions, fresh, o, oMem, here⟩ := neutral.members row mem
    refine ⟨lock, fun old oldMem same => ?_, fun none => fresh fun old oldMem same => ?_, ?_⟩
    · exact versions old ((yields.member_kept compatible lock same).mp oldMem) same
    · exact none old ((yields.member_kept compatible lock same).mpr oldMem) same
    · obtain ⟨later, laterMem, same⟩ := view_organization_exists u.pending oMem
      exact ⟨later, laterMem, same.trans here⟩
  · obtain ⟨lock, old, oldMem, same, facts⟩ := neutral.organizations row mem
    exact ⟨lock, old, (yields.organization_kept compatible lock same).mpr oldMem, same, facts⟩

theorem inv (inv : Inv d) (neutral : Neutral d t) : Inv (engine.view d t.pending) where
  seated := by
    intro m mem
    have committed : ∃ o ∈ d.organizations, o.id = m.organization := by
      rcases mem_view_memberships mem with pending | ⟨held, -⟩
      · exact (neutral.members m pending).2.2.2
      · exact inv.seated m held
    obtain ⟨o, oMem, here⟩ := committed
    obtain ⟨later, laterMem, same⟩ := view_organization_exists t.pending oMem
    exact ⟨later, laterMem, same.trans here⟩
  owned := by
    intro o mem active
    obtain ⟨old, oldMem, same, status, -⟩ := neutral.organization mem
    rw [← same]
    refine (inv.owned old oldMem (status.trans active)).kept fun row pending => ?_
    obtain ⟨_, versions, fresh, _⟩ := neutral.members row pending
    exact ⟨fun x xMem xSame => ⟨(versions x xMem xSame).organization, fun _ => versions x xMem xSame⟩,
      fun none _ => fresh none⟩

theorem yields (neutral : Neutral d t)
    (grantees : ∀ w ∈ t.pending, ∀ i, w.grantee = some i → LocksGrantee i t.held) :
    Yields d t where
  members := fun row mem => (neutral.members row mem).1
  organizations := by
    intro row mem
    obtain ⟨lock, old, oldMem, same, facts⟩ := neutral.organizations row mem
    refine ⟨lock, fun other otherMem otherSame => ?_⟩
    obtain rfl := Table.unique otherMem oldMem (otherSame.trans same.symm)
    exact facts
  grantees := grantees
  owners := by
    intro m mem owner
    rcases mem_view_memberships mem with pending | ⟨committed, -⟩
    · obtain ⟨_, versions, fresh, _⟩ := neutral.members m pending
      by_cases there : ∃ old ∈ d.memberships, old.id = m.id
      · obtain ⟨old, oldMem, same⟩ := there
        have seat := versions old oldMem same
        exact .inl ⟨old, oldMem, same, seat.organization, seat.owner.trans owner⟩
      · rw [fresh fun old oldMem same => there ⟨old, oldMem, same⟩] at owner
        exact Bool.noConfusion owner
    · exact .inl ⟨m, committed, rfl, rfl, owner⟩

end Neutral

/-! ## Grants under a lock on the member -/

def GrantsLocked (t : Tx) : Prop :=
  ∀ w ∈ t.pending, ∀ i, w.grantee = some i → LocksGrantee i t.held

/-- The statement locks every member whose grants it changes. -/
def Statement.LocksGrants (s : Statement) : Prop :=
  ∀ xid memory d after ws, s.effect xid memory d = some (after, ws) →
    ∀ w ∈ ws, ∀ i, w.grantee = some i → LocksGrantee i (s.locks memory d)

theorem GrantsLocked.advance (locked : GrantsLocked t)
    (new : ∀ w ∈ ws, ∀ i, w.grantee = some i → LocksGrantee i (locks ++ t.held)) :
    GrantsLocked (t.advance rest after ws locks) := by
  intro w mem i grantee
  rcases List.mem_append.mp mem with earlier | added
  · exact (locked w earlier i grantee).append
  · exact new w added i grantee

theorem locksGrants_of_none (none : ∀ xid memory d after ws,
    statement.effect xid memory d = some (after, ws) → ∀ w ∈ ws, w.grantee = .none) :
    statement.LocksGrants := by
  intro xid memory d after ws done w mem i grantee
  rw [none xid memory d after ws done w mem] at grantee
  exact nomatch grantee

theorem locksGrants_require (p : OrganizationAccess → Directory → Bool) :
    (require p).LocksGrants := by
  refine locksGrants_of_none fun xid memory d after ws done w mem => ?_
  obtain ⟨_, _, _, _, rfl⟩ := require_spec.mp done
  exact absurd mem List.not_mem_nil

theorem locksGrants_beginOrganization (principal organization : Nat) :
    (beginOrganization principal organization).LocksGrants := by
  refine locksGrants_of_none fun xid memory d after ws done w mem => ?_
  obtain ⟨_, _, _, rfl⟩ := beginOrganization_spec.mp done
  exact absurd mem List.not_mem_nil

theorem locksGrants_insertGrant (grantee : OrganizationAccess → Nat) (c : Capability)
    (grantedBy : OrganizationAccess → Nat) (reason : String) :
    (insertGrant grantee c grantedBy reason).LocksGrants := by
  intro xid memory d after ws done w mem i grantee
  obtain ⟨access, rfl, _, ⟨_, rfl⟩ | ⟨_, rfl⟩⟩ := insertGrant_spec done
  · exact absurd mem List.not_mem_nil
  · obtain rfl := List.mem_singleton.mp mem
    obtain rfl := Option.some.inj grantee
    exact ⟨_, List.mem_cons_self⟩

theorem locksGrants_setOrganizationAdminRole (target expected : Nat) (promote : Bool) :
    (setOrganizationAdminRole target expected promote).LocksGrants := by
  intro xid memory d after ws done w mem i grantee
  obtain ⟨access, m, rfl, _, _, _, rfl⟩ := setOrganizationAdminRole_spec done
  have here : i = target := by
    cases promote with
    | true =>
        obtain rfl := List.mem_singleton.mp mem
        exact nomatch grantee
    | false =>
        rcases List.mem_append.mp mem with revoked | row
        · obtain ⟨g, _, _, rfl, _, rfl⟩ := mem_revocations.mp revoked
          exact (Option.some.inj grantee).symm
        · obtain rfl := List.mem_singleton.mp row
          exact nomatch grantee
  exact ⟨.update, List.mem_singleton.mpr (by rw [here])⟩

theorem locksGrants_bumpMembership (target expected : Nat) :
    (bumpMembership target expected).LocksGrants := by
  refine locksGrants_of_none fun xid memory d after ws done w mem => ?_
  obtain ⟨_, _, _, _, _, _, _, rfl⟩ := bumpMembership_spec done
  rw [List.mem_singleton.mp mem]
  rfl

theorem locksGrants_bumpOrganization (expected : Nat) : (bumpOrganization expected).LocksGrants := by
  refine locksGrants_of_none fun xid memory d after ws done w mem => ?_
  obtain ⟨_, _, _, _, _, _, _, rfl⟩ := bumpOrganization_spec done
  rw [List.mem_singleton.mp mem]
  rfl

theorem locksGrants_lockRemovalTarget (principal target : Nat) :
    (lockRemovalTarget principal target).LocksGrants := by
  refine locksGrants_of_none fun xid memory d after ws done w mem => ?_
  obtain rfl := lockRemovalTarget_writes done
  exact absurd mem List.not_mem_nil

theorem locksGrants_lockSurvivors (survivors : List Nat) :
    (lockSurvivors survivors).LocksGrants := by
  refine locksGrants_of_none fun xid memory d after ws done w mem => ?_
  obtain ⟨_, _, _, wrote⟩ := change_spec.mp done
  obtain rfl := Option.some.inj wrote
  exact absurd mem List.not_mem_nil

theorem locksGrants_removeOrganizationMembership (principal target expected : Nat)
    (survivors : List Nat) :
    (removeOrganizationMembership principal target expected survivors).LocksGrants := by
  intro xid memory d after ws done w mem i grantee
  obtain ⟨access, m, rfl, _, found, _, rfl⟩ := change_membership_spec done
  obtain ⟨_, _, rfl⟩ := Directory.membership?_spec found
  have here : i = m.id := by
    rcases List.mem_append.mp mem with earlier | row
    · rcases List.mem_append.mp earlier with earlier | survivor
      · rcases List.mem_append.mp earlier with principal | revoked
        · obtain ⟨_, _, rfl⟩ := List.mem_map.mp principal
          exact nomatch grantee
        · obtain ⟨g, _, _, same, _, rfl⟩ := mem_revocations.mp revoked
          exact (Option.some.inj grantee).symm.trans same
      · obtain ⟨_, _, rfl⟩ := List.mem_map.mp survivor
        exact nomatch grantee
    · obtain rfl := List.mem_singleton.mp row
      exact nomatch grantee
  exact ⟨.update, here ▸ List.mem_cons_self⟩

theorem locksGrants_admitMember (principal organization membership : Nat) (kind : PrincipalKind) :
    (admitMember principal organization membership kind).LocksGrants := by
  refine locksGrants_of_none fun xid memory d after ws done w mem => ?_
  obtain ⟨_, _, _, rfl, _⟩ := admitMember_spec done
  rw [List.mem_singleton.mp mem]
  rfl

theorem modest_registerPrincipal (row : Principal) : (registerPrincipal row).IsModest := by
  intro xid memory d after ws done
  simp only [registerPrincipal] at done
  split at done
  · exact absurd done (by simp)
  · obtain ⟨rfl, rfl⟩ := Prod.mk.inj (Option.some.inj done)
    exact .of_others (fun _ mem => nomatch List.mem_singleton.mp mem)
      fun _ mem => nomatch List.mem_singleton.mp mem

theorem locksGrants_registerPrincipal (row : Principal) : (registerPrincipal row).LocksGrants := by
  refine locksGrants_of_none fun xid memory d after ws done w mem => ?_
  simp only [registerPrincipal] at done
  split at done
  · exact absurd done (by simp)
  · obtain ⟨rfl, rfl⟩ := Prod.mk.inj (Option.some.inj done)
    rw [List.mem_singleton.mp mem]
    rfl

/-- The requests whose every statement is modest and locks the grants it changes. -/
def Request.Plain (r : Request) : Prop := ∀ s ∈ program r, s.IsModest ∧ s.LocksGrants

theorem plain_registerPrincipal (row : Principal) : (Request.registerPrincipal row).Plain := by
  intro s mem
  obtain rfl := List.mem_singleton.mp mem
  exact ⟨modest_registerPrincipal row, locksGrants_registerPrincipal row⟩

theorem plain_changeAdminRole (principal organization target expected : Nat) (promote : Bool) :
    (Request.changeAdminRole principal organization target expected promote).Plain := by
  intro s mem
  simp only [program, changeAdminRole, List.mem_cons, List.mem_append, List.not_mem_nil,
    or_false] at mem
  rcases mem with rfl | rfl | rfl | rfl | rfl | mem | rfl
  · exact ⟨modest_beginOrganization _ _, locksGrants_beginOrganization _ _⟩
  · exact ⟨modest_require _, locksGrants_require _⟩
  · exact ⟨modest_require _, locksGrants_require _⟩
  · exact ⟨modest_require _, locksGrants_require _⟩
  · exact ⟨modest_setOrganizationAdminRole _ _ _, locksGrants_setOrganizationAdminRole _ _ _⟩
  · cases promote with
    | true =>
        obtain ⟨c, _, rfl⟩ := List.mem_map.mp mem
        exact ⟨modest_insertGrant _ _ _ _, locksGrants_insertGrant _ _ _ _⟩
    | false => exact absurd mem List.not_mem_nil
  · exact ⟨modest_require _, locksGrants_require _⟩

theorem plain_removeMember (principal organization target expected : Nat) (kind : PrincipalKind)
    (survivors : List Nat) :
    (Request.removeMember principal organization target expected kind survivors).Plain := by
  intro s mem
  simp only [program, removeMember, List.mem_cons, List.not_mem_nil, or_false] at mem
  rcases mem with rfl | rfl | rfl | rfl | rfl | rfl | rfl
  · exact ⟨modest_beginOrganization _ _, locksGrants_beginOrganization _ _⟩
  · exact ⟨modest_require _, locksGrants_require _⟩
  · exact ⟨modest_require _, locksGrants_require _⟩
  · exact ⟨modest_lockRemovalTarget _ _, locksGrants_lockRemovalTarget _ _⟩
  · exact ⟨modest_lockSurvivors _, locksGrants_lockSurvivors _⟩
  · exact ⟨modest_removeOrganizationMembership _ _ _ _,
      locksGrants_removeOrganizationMembership _ _ _ _⟩
  · exact ⟨modest_require _, locksGrants_require _⟩

theorem plain_editMember (principal organization target expected : Nat) :
    (Request.editMember principal organization target expected).Plain := by
  intro s mem
  simp only [program, List.mem_cons, List.not_mem_nil, or_false] at mem
  rcases mem with rfl | rfl | rfl
  · exact ⟨modest_beginOrganization _ _, locksGrants_beginOrganization _ _⟩
  · exact ⟨modest_bumpMembership _ _, locksGrants_bumpMembership _ _⟩
  · exact ⟨modest_require _, locksGrants_require _⟩

theorem plain_editOrganization (principal organization expected : Nat) :
    (Request.editOrganization principal organization expected).Plain := by
  intro s mem
  simp only [program, List.mem_cons, List.not_mem_nil, or_false] at mem
  rcases mem with rfl | rfl | rfl
  · exact ⟨modest_beginOrganization _ _, locksGrants_beginOrganization _ _⟩
  · exact ⟨modest_bumpOrganization _, locksGrants_bumpOrganization _⟩
  · exact ⟨modest_require _, locksGrants_require _⟩

/-! ## Replacement, admission, creation -/

/-- Two suffixes of one list with one length are the same. -/
theorem suffix_unique {α : Type} {xs ys zs : List α} (first : xs <:+ zs) (second : ys <:+ zs)
    (same : xs.length = ys.length) : xs = ys :=
  (List.suffix_of_suffix_length_le first second same.le).eq_of_length same

/-- The grants written are the target's, whose row is locked once nothing but the
last statements is left. -/
structure Replacing (target : Nat) (t : Tx) : Prop where
  grantees : ∀ w ∈ t.pending, ∀ i, w.grantee = some i → i = target
  locked : t.rest.length ≤ 1 → LocksMember target t.held

theorem Replacing.advance {principal organization target expected : Nat}
    {capabilities : List Capability} (replacing : Replacing target t)
    (suffix : t.rest <:+ replaceCapabilities principal organization target expected capabilities)
    (next : t.rest = statement :: rest)
    (done : statement.effect t.xid t.memory d = some (after, ws)) :
    Replacing target (t.advance rest after ws (statement.locks t.memory d)) where
  grantees := by
    intro w mem i grantee
    rcases List.mem_append.mp mem with earlier | new
    · exact replacing.grantees w earlier i grantee
    · have member : statement ∈ replaceCapabilities principal organization target expected
          capabilities := suffix.subset (next ▸ List.mem_cons_self)
      simp only [replaceCapabilities, replaceGrants, List.mem_cons, List.mem_append,
        List.not_mem_nil, or_false, List.mem_map] at member
      rcases member with rfl | rfl | rfl | rfl | (rfl | ⟨c, _, rfl⟩) | rfl | rfl
      · obtain ⟨_, _, _, rfl⟩ := beginOrganization_spec.mp done
        exact absurd new List.not_mem_nil
      · obtain ⟨_, _, _, _, rfl⟩ := require_spec.mp done
        exact absurd new List.not_mem_nil
      · obtain ⟨_, _, _, _, rfl⟩ := require_spec.mp done
        exact absurd new List.not_mem_nil
      · obtain ⟨_, _, _, _, rfl⟩ := require_spec.mp done
        exact absurd new List.not_mem_nil
      · obtain ⟨_, _, _, wrote⟩ := change_spec.mp done
        obtain rfl := Option.some.inj wrote
        obtain ⟨g, _, _, same, _, rfl⟩ := mem_revocations.mp new
        exact (Option.some.inj grantee).symm.trans same
      · obtain ⟨_, _, _, ⟨_, rfl⟩ | ⟨_, rfl⟩⟩ := insertGrant_spec done
        · exact absurd new List.not_mem_nil
        · obtain rfl := List.mem_singleton.mp new
          exact (Option.some.inj grantee).symm
      · obtain ⟨_, _, _, _, _, _, _, rfl⟩ := bumpMembership_spec done
        obtain rfl := List.mem_singleton.mp new
        exact nomatch grantee
      · obtain ⟨_, _, _, _, rfl⟩ := require_spec.mp done
        exact absurd new List.not_mem_nil
  locked := by
    intro short
    have length : t.rest.length = rest.length + 1 := by rw [next]; rfl
    by_cases last : t.rest.length ≤ 1
    · exact (replacing.locked last).append
    · -- The statement just done is the second last, the one that bumps the membership.
      have ends : [bumpMembership target expected, assertExactlyOneOwner] <:+
          replaceCapabilities principal organization target expected capabilities :=
        ⟨beginOrganization principal organization :: requireCapability .adminsManage ::
          (checkIdentity target expected fun m => m.kind == .carbon && m.role != .owner) ::
          validateDelegation capabilities :: replaceGrants target capabilities, rfl⟩
      have two : t.rest.length = 2 := by
        have : rest.length ≤ 1 := short
        omega
      have point := suffix_unique suffix ends two
      rw [next] at point
      obtain ⟨rfl, -⟩ := List.cons.inj point
      obtain ⟨_, _, known, _⟩ := bumpMembership_spec done
      rw [known]
      exact LocksMember.taken (.inr (List.mem_singleton.mpr rfl))

/-- The membership the admission resolved is locked. -/
def Admitting (t : Tx) : Prop := ∀ a, t.memory = some a → LocksMember a.membership t.held

theorem addMember_advance {principal organization membership : Nat} {kind : PrincipalKind}
    (admitting : Admitting t) (locked : GrantsLocked t)
    (member : statement ∈ program (.addMember principal organization membership kind))
    (done : statement.effect t.xid t.memory d = some (after, ws)) :
    Modest d (statement.locks t.memory d) ws ∧
      Admitting (t.advance rest after ws (statement.locks t.memory d)) ∧
      GrantsLocked (t.advance rest after ws (statement.locks t.memory d)) := by
  simp only [program, List.mem_cons, List.not_mem_nil, or_false] at member
  rcases member with rfl | rfl | rfl
  · obtain ⟨access, row, rfl, rfl, same, modest⟩ := admitMember_spec done
    refine ⟨modest, fun a known => ?_, locked.advance fun w mem i grantee => ?_⟩
    · obtain rfl := Option.some.inj known
      exact LocksMember.taken (same ▸ (modest.members row (List.mem_singleton.mpr rfl)).1)
    · exact (locksGrants_admitMember _ _ _ _ _ _ _ _ _ done w mem i grantee).taken
  · obtain ⟨access, known, rfl, mem_iff⟩ := mem_revokeGrants done
    refine ⟨modest_revokeGrants _ _ _ _ _ _ done, fun a same => (admitting a same).append,
      locked.advance fun w mem i grantee => ?_⟩
    obtain ⟨g, _, _, listed, rfl⟩ := (mem_iff w).mp mem
    obtain rfl := (List.mem_singleton.mp listed).symm.trans (Option.some.inj grantee)
    exact (admitting access known).append.grantee
  · obtain ⟨_, _, _, rfl, rfl⟩ := require_spec.mp done
    exact ⟨.nil, fun a same => (admitting a same).append,
      locked.advance fun w mem => absurd mem List.not_mem_nil⟩

/-- The rows a creation inserts, and that there was nothing under their ids. -/
structure Creating (principal organization membership : Nat) (d : Directory) (t : Tx) : Prop where
  pending : t.pending = [.organization ⟨organization, .active, 1⟩,
    .membership ⟨membership, organization, principal, .carbon, .owner, none, .active, 1⟩]
  locked : .organization organization .update ∈ t.held ∧ .membership membership .update ∈ t.held
  organizations : ∀ o ∈ d.organizations, o.id ≠ organization
  memberships : ∀ m ∈ d.memberships, m.id ≠ membership

theorem insertOrganization_spec {principal organization membership xid : Nat}
    {memory : Memory}
    (done : (insertOrganization principal organization membership).effect xid memory d =
      some (after, ws)) :
    (∀ o ∈ d.organizations, o.id ≠ organization) ∧ (∀ m ∈ d.memberships, m.id ≠ membership) ∧
      ws = [.organization ⟨organization, .active, 1⟩,
        .membership ⟨membership, organization, principal, .carbon, .owner, none, .active, 1⟩] := by
  simp only [insertOrganization] at done
  split at done
  · exact absurd done (by simp)
  · rename_i free
    rw [Bool.or_eq_true, not_or] at free
    obtain ⟨rfl, rfl⟩ := Prod.mk.inj (Option.some.inj done)
    refine ⟨fun o mem same => free.1 ?_, fun m mem same => free.2 ?_, rfl⟩
    · exact Table.any_eq_true.mpr ⟨o, mem, by simpa using same⟩
    · exact Table.any_eq_true.mpr ⟨m, mem, by simpa using same⟩

namespace Creating

variable {principal organization membership : Nat}

theorem stable (creating : Creating principal organization membership d t) (yields : Yields d u)
    (compatible : engine.Compatible t u) :
    Creating principal organization membership (engine.view d u.pending) t where
  pending := creating.pending
  locked := creating.locked
  organizations := by
    intro o mem same
    exact creating.organizations o
      ((yields.organization_kept compatible (.inl creating.locked.1) same).mp mem) same
  memberships := by
    intro m mem same
    exact creating.memberships m
      ((yields.member_kept compatible (.inl creating.locked.2) same).mp mem) same

theorem yields (creating : Creating principal organization membership d t) : Yields d t where
  members := by
    intro row mem
    rw [creating.pending] at mem
    obtain rfl : row = _ := by simpa using mem
    exact .inl creating.locked.2
  organizations := by
    intro row mem
    rw [creating.pending] at mem
    obtain rfl : row = _ := by simpa using mem
    exact ⟨.inl creating.locked.1, fun old oldMem same => absurd same (creating.organizations old oldMem)⟩
  grantees := by
    intro w mem i grantee
    rw [creating.pending] at mem
    rcases List.mem_cons.mp mem with rfl | mem
    · exact nomatch grantee
    · obtain rfl := List.mem_singleton.mp mem
      exact nomatch grantee
  owners := by
    intro m mem owner
    rcases mem_view_memberships mem with pending | ⟨committed, -⟩
    · rw [creating.pending] at pending ⊢
      obtain rfl : m = _ := by simpa using pending
      exact .inr ⟨_, List.mem_cons_self, rfl⟩
    · exact .inl ⟨m, committed, rfl, rfl, owner⟩

theorem inv (inv : Inv d) (creating : Creating principal organization membership d t) :
    Inv (engine.view d t.pending) where
  seated := by
    intro m mem
    rcases mem_view_memberships mem with pending | ⟨committed, -⟩
    · rw [creating.pending] at pending ⊢
      obtain rfl : m = _ := by simpa using pending
      exact ⟨_, Table.mem_upsert.mpr (.inl rfl), rfl⟩
    · obtain ⟨o, oMem, here⟩ := inv.seated m committed
      obtain ⟨later, laterMem, same⟩ := view_organization_exists t.pending oMem
      exact ⟨later, laterMem, same.trans here⟩
  owned := by
    intro o mem active
    rcases mem_view_organizations mem with pending | ⟨committed, apart⟩
    · -- The new organization has its creator.
      rw [creating.pending] at pending ⊢
      obtain rfl : o = _ := by simpa using pending
      refine ⟨_, Table.mem_upsert.mpr (.inl rfl), rfl, rfl, rfl, fun other otherMem here _ => ?_⟩
      rcases Table.mem_upsert.mp otherMem with rfl | ⟨committed, -⟩
      · rfl
      · obtain ⟨o, oMem, same⟩ := inv.seated other committed
        exact absurd (same.trans here) (creating.organizations o oMem)
    · refine (inv.owned o committed active).kept fun row pending => ?_
      have new : row.id = membership ∧ row.organization = organization := by
        rw [creating.pending] at pending
        obtain rfl : row = _ := by simpa using pending
        exact ⟨rfl, rfl⟩
      refine ⟨fun old oldMem same => absurd (same.trans new.1) (creating.memberships old oldMem),
        fun _ here => ?_⟩
      exact absurd (here.symm.trans new.2) (creating.organizations o committed)

end Creating

/-! ## Transfers that commit -/

section Transfers

variable {principal o n v : Nat} {a : OrganizationAccess}

theorem TransferAt.done (at' : TransferAt principal o n v d t) (finished : t.rest = []) :
    ∃ a k, 28 ≤ k ∧ t.memory = some a ∧
      Transferring o n v a k d t.xid t.pending t.held := by
  obtain ⟨k, left, point⟩ := at'
  rw [finished] at left
  have length : (transferOwnership principal o n v).length ≤ k :=
    List.drop_eq_nil_iff.mp left.symm
  have late : 28 ≤ k := length
  rcases point with ⟨rfl, -⟩ | ⟨_, a, known, facts⟩
  · exact absurd late (by omega)
  · exact ⟨a, k, late, known, facts⟩

theorem Transferring.yields {k : Nat} (late : 28 ≤ k)
    (facts : Transferring o n v a k d t.xid t.pending t.held) : Yields d t where
  members := by
    intro row mem
    rcases (facts.rows row mem).1 with same | same
    · exact same ▸ .inl (facts.locked (by omega)).1
    · exact same ▸ .inl (facts.locked (by omega)).2
  organizations := by
    intro row mem
    obtain ⟨same, org, orgMem, orgSame, status, grown⟩ := facts.organizations row mem
    refine ⟨same ▸ (facts.bumped (by omega)).1, fun old oldMem oldSame => ?_⟩
    obtain rfl := Table.unique oldMem orgMem (oldSame.trans (same.trans orgSame.symm))
    exact ⟨status, grown⟩
  grantees := by
    intro w mem i grantee
    rcases facts.grantees w mem i grantee with rfl | rfl
    · exact ⟨_, (facts.locked (by omega)).1⟩
    · exact ⟨_, (facts.locked (by omega)).2⟩
  owners := by
    intro m mem owner
    rcases mem_view_memberships mem with pending | ⟨committed, -⟩
    · obtain ⟨_, ⟨row, rowMem, same⟩, _⟩ := facts.bumped (by omega)
      exact .inr ⟨row, rowMem, same.trans (facts.rows m pending).2.1.symm⟩
    · exact .inl ⟨m, committed, rfl, rfl, owner⟩

theorem Transferring.inv {k : Nat} (late : 28 ≤ k) (inv : Inv d)
    (facts : Transferring o n v a k d t.xid t.pending t.held) : Inv (engine.view d t.pending) where
  seated := by
    intro m mem
    have committed : ∃ org ∈ d.organizations, org.id = m.organization := by
      rcases mem_view_memberships mem with pending | ⟨held, -⟩
      · obtain ⟨_, here, old, oldMem, _, oldHere⟩ := facts.rows m pending
        obtain ⟨org, orgMem, same⟩ := inv.seated old oldMem
        exact ⟨org, orgMem, same.trans (oldHere.trans here.symm)⟩
      · exact inv.seated m held
    obtain ⟨org, orgMem, here⟩ := committed
    obtain ⟨later, laterMem, same⟩ := view_organization_exists t.pending orgMem
    exact ⟨later, laterMem, same.trans here⟩
  owned := by
    intro org mem active
    have committed : ∃ old ∈ d.organizations, old.id = org.id ∧ old.status = .active := by
      rcases mem_view_organizations mem with pending | ⟨held, -⟩
      · obtain ⟨same, old, oldMem, oldSame, status, _⟩ := facts.organizations org pending
        exact ⟨old, oldMem, oldSame.trans same.symm, status.trans active⟩
      · exact ⟨org, held, rfl, active⟩
    obtain ⟨old, oldMem, same, oldActive⟩ := committed
    have sole := inv.owned old oldMem oldActive
    rw [same] at sole
    by_cases here : org.id = o
    · -- The organization that changes hands.
      rw [here] at sole ⊢
      obtain ⟨former, ⟨x, xMem, xSame, xHere, xActive, xRole⟩, y, yMem, ySame, yHere, yOwner,
        carbon⟩ := facts.moved (by omega)
      obtain ⟨w, _, _, _, _, only⟩ := sole
      obtain ⟨f, fMem, fSame, fHere, fOwner⟩ := former
      refine ⟨y, yMem, yHere, yOwner, carbon, fun m mMem mHere mOwner => ?_⟩
      have seat : m.id = a.membership ∨ m.id = n := by
        rcases mem_view_memberships mMem with pending | ⟨held, -⟩
        · exact (facts.rows m pending).1
        · rw [only m held mHere mOwner, ← only f fMem fHere fOwner]
          exact .inl fSame
      rcases seat with mSame | mSame
      · obtain rfl := Table.unique mMem xMem (mSame.trans xSame.symm)
        rw [isOwner_of_role (by rw [xRole]; simp)] at mOwner
        exact Bool.noConfusion mOwner
      · exact Table.unique mMem yMem (mSame.trans ySame.symm)
    · refine sole.kept fun row pending => ?_
      obtain ⟨_, rowHere, old, oldMem, oldSame, oldHere⟩ := facts.rows row pending
      refine ⟨fun other otherMem otherSame => ?_,
        fun _ elsewhere => absurd (elsewhere.symm.trans rowHere) here⟩
      obtain rfl := Table.unique otherMem oldMem (otherSame.trans oldSame.symm)
      exact ⟨oldHere.trans rowHere.symm, fun elsewhere =>
        absurd (elsewhere.symm.trans rowHere) here⟩

end Transfers

/-! ## The outline -/

/-- What an open request has established, by its kind. -/
inductive OwnAt (d : Directory) (t : Tx) : Prop where
  | creation (principal organization membership : Nat)
      (request : t.request = .createOrganization principal organization membership)
      (facts : (t.rest = program t.request ∧ t.pending = []) ∨
        (t.rest.length ≤ 1 ∧ Creating principal organization membership d t))
  | transfer (principal organization newOwner expected : Nat)
      (request : t.request = .transferOwnership principal organization newOwner expected)
      (facts : TransferAt principal organization newOwner expected d t)
  | replacement (principal organization target expected : Nat) (capabilities : List Capability)
      (request : t.request = .replaceCapabilities principal organization target expected capabilities)
      (neutral : Neutral d t) (facts : Replacing target t)
  | admission (principal organization membership : Nat) (kind : PrincipalKind)
      (request : t.request = .addMember principal organization membership kind)
      (neutral : Neutral d t) (facts : Admitting t) (locked : GrantsLocked t)
  | plain (request : t.request.Plain)
      (other : ∀ principal o n v, t.request ≠ .transferOwnership principal o n v)
      (neutral : Neutral d t) (locked : GrantsLocked t)

structure At (d : Directory) (t : Tx) : Prop where
  suffix : t.rest <:+ program t.request
  own : OwnAt d t

theorem at_fresh (d : Directory) (xid : Nat) (request : Request) : At d (engine.fresh xid request) := by
  have quiet : GrantsLocked (engine.fresh xid request) := fun w mem => absurd mem List.not_mem_nil
  refine ⟨List.suffix_refl _, ?_⟩
  cases request with
  | createOrganization principal organization membership =>
      exact .creation principal organization membership rfl (.inl ⟨rfl, rfl⟩)
  | transferOwnership principal organization newOwner expected =>
      exact .transfer principal organization newOwner expected rfl ⟨0, rfl, .inl ⟨rfl, rfl, rfl⟩⟩
  | replaceCapabilities principal organization target expected capabilities =>
      refine .replacement principal organization target expected capabilities rfl (.fresh rfl)
        ⟨fun w mem => absurd mem List.not_mem_nil, fun short => absurd short ?_⟩
      show ¬ (replaceCapabilities principal organization target expected capabilities).length ≤ 1
      simp [replaceCapabilities]
  | addMember principal organization membership kind =>
      exact .admission principal organization membership kind rfl (.fresh rfl)
        (fun a known => nomatch known) quiet
  | registerPrincipal row =>
      exact .plain (plain_registerPrincipal row) (fun _ _ _ _ same => nomatch same) (.fresh rfl) quiet
  | changeAdminRole principal organization target expected promote =>
      exact .plain (plain_changeAdminRole _ _ _ _ _) (fun _ _ _ _ same => nomatch same)
        (.fresh rfl) quiet
  | removeMember principal organization target expected kind survivors =>
      exact .plain (plain_removeMember _ _ _ _ _ _) (fun _ _ _ _ same => nomatch same)
        (.fresh rfl) quiet
  | editMember principal organization target expected =>
      exact .plain (plain_editMember _ _ _ _) (fun _ _ _ _ same => nomatch same) (.fresh rfl) quiet
  | editOrganization principal organization expected =>
      exact .plain (plain_editOrganization _ _ _) (fun _ _ _ _ same => nomatch same) (.fresh rfl) quiet

theorem At.execute (inv : Inv d) (at' : At d t) (next : t.rest = statement :: rest)
    (done : statement.effect t.xid t.memory (engine.view d t.pending) = some (after, ws)) :
    At d (t.advance rest after ws (statement.locks t.memory (engine.view d t.pending))) := by
  obtain ⟨suffix, own⟩ := at'
  have member : statement ∈ program t.request := suffix.subset (next ▸ List.mem_cons_self)
  have later : rest <:+ program t.request :=
    (List.suffix_cons statement rest).trans (next ▸ suffix)
  refine ⟨later, ?_⟩
  cases own with
  | creation principal organization membership request facts =>
      refine .creation principal organization membership request (.inr ?_)
      rcases facts with ⟨left, quiet⟩ | ⟨short, creating⟩
      · rw [next, request] at left
        obtain ⟨rfl, rfl⟩ := List.cons.inj left
        rw [quiet] at done
        obtain ⟨organizations, memberships, rfl⟩ := insertOrganization_spec done
        refine ⟨Nat.le_refl 1, ?_, ⟨List.mem_cons_self, List.mem_cons_of_mem _ List.mem_cons_self⟩,
          organizations, memberships⟩
        show t.pending ++ _ = _
        rw [quiet]
        rfl
      · have length : t.rest.length = rest.length + 1 := by rw [next]; rfl
        have ends : [assertExactlyOneOwner] <:+ program t.request :=
          request ▸ ⟨[insertOrganization principal organization membership], rfl⟩
        have point := suffix_unique suffix ends (show t.rest.length = 1 by omega)
        rw [next] at point
        obtain ⟨rfl, -⟩ := List.cons.inj point
        obtain ⟨_, _, _, _, rfl⟩ := require_spec.mp done
        refine ⟨show rest.length ≤ 1 by omega, ?_, ⟨List.mem_append_right _ creating.locked.1,
          List.mem_append_right _ creating.locked.2⟩, creating.organizations, creating.memberships⟩
        show t.pending ++ [] = _
        rw [List.append_nil, creating.pending]
  | transfer principal organization newOwner expected request facts =>
      exact .transfer principal organization newOwner expected request
        (facts.execute inv next done)
  | replacement principal organization target expected capabilities request neutral facts =>
      rw [request] at suffix member
      refine .replacement principal organization target expected capabilities request
        (neutral.advance inv ?_) (facts.advance suffix next done)
      simp only [program, replaceCapabilities, replaceGrants, List.mem_cons, List.mem_append,
        List.not_mem_nil, or_false, List.mem_map] at member
      rcases member with rfl | rfl | rfl | rfl | (rfl | ⟨c, _, rfl⟩) | rfl | rfl
      · exact modest_beginOrganization _ _ _ _ _ _ _ done
      · exact modest_require _ _ _ _ _ _ done
      · exact modest_require _ _ _ _ _ _ done
      · exact modest_require _ _ _ _ _ _ done
      · exact modest_revoke _ _ _ _ _ _ _ done
      · exact modest_insertGrant _ _ _ _ _ _ _ _ _ done
      · exact modest_bumpMembership _ _ _ _ _ _ _ done
      · exact modest_require _ _ _ _ _ _ done
  | admission principal organization membership kind request neutral facts locked =>
      rw [request] at member
      obtain ⟨modest, admitting, granted⟩ := addMember_advance facts locked member done
      exact .admission principal organization membership kind request (neutral.advance inv modest)
        admitting granted
  | plain request other neutral locked =>
      obtain ⟨modest, locks⟩ := request statement member
      exact .plain request other (neutral.advance inv (modest _ _ _ _ _ done))
        (locked.advance fun w mem i grantee => (locks _ _ _ _ _ done w mem i grantee).taken)

theorem At.yields (at' : At d t) (finished : t.rest = []) : Yields d t := by
  cases at'.own with
  | creation principal organization membership request facts =>
      rcases facts with ⟨left, _⟩ | ⟨_, creating⟩
      · rw [finished, request] at left
        exact nomatch left
      · exact creating.yields
  | transfer principal organization newOwner expected request facts =>
      obtain ⟨a, k, late, _, facts⟩ := TransferAt.done facts finished
      exact facts.yields late
  | replacement principal organization target expected capabilities request neutral facts =>
      refine neutral.yields fun w mem i grantee => ?_
      rw [facts.grantees w mem i grantee]
      exact (facts.locked (by rw [finished]; exact Nat.zero_le 1)).grantee
  | admission principal organization membership kind request neutral facts locked =>
      exact neutral.yields locked
  | plain request other neutral locked => exact neutral.yields locked

theorem At.commit (inv : Inv d) (at' : At d t) (finished : t.rest = []) :
    Inv (engine.view d t.pending) := by
  cases at'.own with
  | creation principal organization membership request facts =>
      rcases facts with ⟨left, _⟩ | ⟨_, creating⟩
      · rw [finished, request] at left
        exact nomatch left
      · exact creating.inv inv
  | transfer principal organization newOwner expected request facts =>
      obtain ⟨a, k, late, _, facts⟩ := TransferAt.done facts finished
      exact facts.inv late inv
  | replacement principal organization target expected capabilities request neutral facts =>
      exact neutral.inv inv
  | admission principal organization membership kind request neutral facts locked =>
      exact neutral.inv inv
  | plain request other neutral locked => exact neutral.inv inv

theorem At.stable (at' : At d t) (yields : Yields d u) (compatible : engine.Compatible t u) :
    At (engine.view d u.pending) t := by
  obtain ⟨suffix, own⟩ := at'
  refine ⟨suffix, ?_⟩
  cases own with
  | creation principal organization membership request facts =>
      refine .creation principal organization membership request (facts.imp_right ?_)
      exact fun ⟨short, creating⟩ => ⟨short, creating.stable yields compatible⟩
  | transfer principal organization newOwner expected request facts =>
      refine .transfer principal organization newOwner expected request ?_
      obtain ⟨k, left, point | ⟨started, a, known, facts⟩⟩ := facts
      · exact ⟨k, left, .inl point⟩
      · exact ⟨k, left, .inr ⟨started, a, known, facts.stable yields compatible⟩⟩
  | replacement principal organization target expected capabilities request neutral facts =>
      exact .replacement principal organization target expected capabilities request
        (neutral.stable yields compatible) facts
  | admission principal organization membership kind request neutral facts locked =>
      exact .admission principal organization membership kind request
        (neutral.stable yields compatible) facts locked
  | plain request other neutral locked =>
      exact .plain request other (neutral.stable yields compatible) locked

theorem outline : Outline engine Inv At where
  fresh := fun db xid request _ => at_fresh db xid request
  execute := fun _ _ _ _ _ _ inv at' next done => at'.execute inv next done
  commit := fun _ _ inv at' finished => at'.commit inv finished
  stable := fun _ _ _ _ at' other finished compatible =>
    at'.stable (other.yields finished) compatible

theorem inv_empty : Inv Directory.empty :=
  ⟨fun _ mem => absurd mem Table.not_mem_empty, fun _ mem => absurd mem Table.not_mem_empty⟩

/-! ## Every run -/

/-- What holds right after a transfer by `former` to `n` in organization `o`. -/
structure HandedOver (o n : Nat) (former : Membership) (xid : Nat) (after : Directory) : Prop where
  demoted : ∃ m ∈ after.memberships, m.id = former.id ∧ m.organization = o ∧ m.active = true ∧
    m.role = .admin
  owner : ∃ m ∈ after.memberships, m.id = n ∧ m.organization = o ∧ m.isOwner = true
  defaults : ∀ c, after.granted o former.id c = true ↔ c ∈ defaultCapabilities
  fresh : ∀ g ∈ after.grants, g.organization = o → g.grantee = former.id → g.xmin = xid
  cleared : ∀ g ∈ after.grants, g.organization = o → g.grantee ≠ n

theorem transfer_hands_over {principal o n v : Nat}
    (at' : TransferAt principal o n v d t) (finished : t.rest = []) :
    ∃ former ∈ d.memberships, former.organization = o ∧ former.isOwner = true ∧ former.id ≠ n ∧
      HandedOver o n former t.xid (engine.view d t.pending) := by
  obtain ⟨a, k, late, _, facts⟩ := at'.done finished
  obtain ⟨⟨former, mem, same, here, owner⟩, caller, new⟩ := facts.moved (by omega)
  have settled := facts.settled (by omega)
  rw [List.take_of_length_le (show defaultCapabilities.length ≤ k - 11 by
    have : defaultCapabilities.length = 16 := rfl
    omega)] at settled
  refine ⟨former, mem, here, owner, fun clash => (facts.fresh (by omega)).1 (clash.symm.trans same), ?_⟩
  obtain ⟨x, xMem, xSame, xFacts⟩ := caller
  obtain ⟨y, yMem, ySame, yHere, yOwner, _⟩ := new
  refine ⟨⟨x, xMem, xSame.trans same.symm, xFacts⟩, ⟨y, yMem, ySame, yHere, yOwner⟩, fun c => ?_,
    fun g gMem gHere gSame => (settled.caller g gMem gHere (gSame.trans same)).2, settled.owner⟩
  rw [same]
  constructor
  · intro granted
    obtain ⟨g, gMem, gHere, gSame, rfl⟩ := Directory.granted_iff.mp granted
    exact (settled.caller g gMem gHere gSame).1
  · exact settled.granted c

/-- Every committed state of every run, and every commit of a transfer. -/
theorem single_owner (events : List (Event Request))
    (w : World Directory Write RowLock Memory Request)
    (run : Runs.Run engine.Steps (World.idle Directory.empty) events w) :
    (∀ o ∈ w.committed.organizations, o.status = .active →
      ∃ m ∈ w.committed.memberships, m.organization = o.id ∧ m.isOwner = true ∧ m.kind = .carbon ∧
        ∀ other ∈ w.committed.memberships, other.organization = o.id → other.isOwner = true →
          other = m) ∧
    ∀ t ∈ w.opened, ∀ after, engine.Steps w (.commit t.xid) after →
      ∀ principal o n v, t.request = .transferOwnership principal o n v →
        ∃ former ∈ w.committed.memberships, former.organization = o ∧ former.isOwner = true ∧
          former.id ≠ n ∧ HandedOver o n former t.xid after.committed := by
  have sound := outline.sound run (Outline.sound_idle inv_empty)
  refine ⟨sound.committed.owned, fun t mem after step principal o n v request => ?_⟩
  obtain ⟨u, uMem, same, finished, committed⟩ := commit_spec step
  obtain rfl := Table.unique mem uMem same.symm
  rw [committed]
  cases (sound.opened t mem).own with
  | transfer principal' organization newOwner expected request' facts =>
      obtain ⟨rfl, rfl, rfl, rfl⟩ := Request.transferOwnership.inj (request.symm.trans request')
      exact transfer_hands_over facts finished
  | creation principal' organization membership request' facts =>
      exact nomatch request.symm.trans request'
  | replacement principal' organization target expected capabilities request' neutral facts =>
      exact nomatch request.symm.trans request'
  | admission principal' organization membership kind request' neutral facts locked =>
      exact nomatch request.symm.trans request'
  | plain _ other neutral locked => exact absurd request (other principal o n v)

def executes (xid n : Nat) : List (Event Request) := List.replicate n (.execute xid)

/-- Principal 1 founds an organization, principal 2 joins, and a transfer is ready to commit. -/
def handOver : List (Event Request) :=
  .start (.registerPrincipal ⟨1, .carbon, true⟩) :: executes 0 1 ++ [.commit 0] ++
  .start (.registerPrincipal ⟨2, .carbon, true⟩) :: executes 1 1 ++ [.commit 1] ++
  .start (.createOrganization 1 1 11) :: executes 2 2 ++ [.commit 2] ++
  .start (.addMember 2 1 12 .carbon) :: executes 3 3 ++ [.commit 3] ++
  .start (.transferOwnership 1 1 12 1) :: executes 4 28

theorem single_owner_handOver :
    ∃ w after, Runs.Run engine.Steps (World.idle Directory.empty) handOver w ∧
      engine.Steps w (.commit 4) after ∧
      (∀ o ∈ w.committed.organizations, o.status = .active →
        ∃ m ∈ w.committed.memberships, m.organization = o.id ∧ m.isOwner = true ∧ m.kind = .carbon ∧
          ∀ other ∈ w.committed.memberships, other.organization = o.id → other.isOwner = true →
            other = m) ∧
      ∃ former ∈ w.committed.memberships, former.organization = 1 ∧ former.isOwner = true ∧
        former.id ≠ 12 ∧ HandedOver 1 12 former 4 after.committed := by
  obtain ⟨w, played⟩ : ∃ w, engine.play (World.idle Directory.empty) handOver = some w :=
    Option.isSome_iff_exists.mp (by decide +kernel)
  have ready : (engine.play (World.idle Directory.empty) handOver).any (fun w =>
      (engine.step w (.commit 4)).isSome && (w.find 4).any fun t =>
        t.request == .transferOwnership 1 1 12 1) = true := by decide +kernel
  rw [played, Option.any_some, Bool.and_eq_true] at ready
  obtain ⟨after, committed⟩ := Option.isSome_iff_exists.mp ready.1
  cases found : w.find 4 with
  | none => simp [found] at ready
  | some t =>
      obtain ⟨mem, same⟩ := World.find_spec found
      have request : t.request = .transferOwnership 1 1 12 1 := by simpa [found] using ready.2
      have run := play_run played
      refine ⟨w, after, run, committed, (single_owner handOver w run).1, ?_⟩
      have handed := (single_owner handOver w run).2 t mem after (same.symm ▸ committed) 1 1 12 1 request
      rwa [same] at handed

end SiliconIam.Organizations.Roles
