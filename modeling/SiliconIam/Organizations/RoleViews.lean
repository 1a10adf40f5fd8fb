/-
# Organizations.RoleViews -- what the writes of a transaction leave of the rows

A transaction's view is the committed directory with its pending writes on top.
A row of the view is a pending row or a committed row under whose key nothing is
pending; a committed key never disappears.  A commit by another transaction
leaves alone what this transaction has locked (`memberships_kept`,
`organizations_kept`), and two directories that agree about some members and
their grants agree about them after the same writes (`view_agree`).
-/
import SiliconIam.Organizations.Roles

namespace SiliconIam.Organizations.Roles

open SiliconIam.Theory SiliconIam.Theory.Transactions

set_option autoImplicit false

variable {d before after : Directory} {ws : List Write} {m : Membership} {o : Organization} {i : Nat}

/-- The member whose grants a write changes. -/
def Write.grantee : Write → Option Nat
  | .grant g => some g.grantee
  | .revoke _ grantee _ => some grantee
  | _ => none

/-! ## Rows of a view -/

theorem view_snoc (d : Directory) (ws : List Write) (w : Write) :
    engine.view d (ws ++ [w]) = (engine.view d ws).apply w := Engine.view_append _ _ _

theorem mem_apply_memberships {w : Write} (mem : m ∈ (d.apply w).memberships) :
    w = .membership m ∨ (m ∈ d.memberships ∧ ∀ row, w = .membership row → row.id ≠ m.id) := by
  cases w with
  | membership row =>
      rcases Table.mem_upsert.mp mem with rfl | ⟨held, differs⟩
      · exact .inl rfl
      · refine .inr ⟨held, fun other same => ?_⟩
        obtain rfl := Write.membership.inj same
        exact Ne.symm differs
  | principal row => exact .inr ⟨mem, fun _ same => nomatch same⟩
  | organization row => exact .inr ⟨mem, fun _ same => nomatch same⟩
  | grant row => exact .inr ⟨mem, fun _ same => nomatch same⟩
  | revoke organization grantee capability => exact .inr ⟨mem, fun _ same => nomatch same⟩

theorem apply_memberships_mem {w : Write} (mem : m ∈ d.memberships)
    (apart : ∀ row, w = .membership row → row.id ≠ m.id) : m ∈ (d.apply w).memberships := by
  cases w with
  | membership row => exact Table.mem_upsert.mpr (.inr ⟨mem, Ne.symm (apart row rfl)⟩)
  | principal row => exact mem
  | organization row => exact mem
  | grant row => exact mem
  | revoke organization grantee capability => exact mem

/-- A membership of a view is pending, or committed with nothing pending under its id. -/
theorem mem_view_memberships (mem : m ∈ (engine.view d ws).memberships) :
    .membership m ∈ ws ∨ (m ∈ d.memberships ∧ ∀ row, .membership row ∈ ws → row.id ≠ m.id) := by
  rcases Engine.view_origin (P := fun later : Directory => m ∈ later.memberships)
    (fun _ _ => mem_apply_memberships) mem with ⟨w, pending, rfl⟩ | ⟨held, left⟩
  · exact .inl pending
  · exact .inr ⟨held, fun row pending same => left _ pending row rfl same⟩

theorem view_memberships_mem (mem : m ∈ d.memberships)
    (apart : ∀ row, .membership row ∈ ws → row.id ≠ m.id) : m ∈ (engine.view d ws).memberships := by
  refine Engine.view_induction (P := fun (later : Directory) => m ∈ later.memberships) mem ?_
  intro later w pending held
  exact apply_memberships_mem held fun row same => apart row (same ▸ pending)

/-- A committed membership has a row in the view. -/
theorem view_membership_exists (ws : List Write) (mem : m ∈ d.memberships) :
    ∃ row ∈ (engine.view d ws).memberships, row.id = m.id := by
  refine Engine.view_induction (P := fun (later : Directory) => ∃ row ∈ later.memberships, row.id = m.id)
    ⟨m, mem, rfl⟩ ?_
  rintro later w - ⟨row, held, same⟩
  by_cases written : ∃ new, w = .membership new ∧ new.id = row.id
  · obtain ⟨new, rfl, here⟩ := written
    exact ⟨new, Table.mem_upsert.mpr (.inl rfl), here.trans same⟩
  · refine ⟨row, apply_memberships_mem held fun new is here => written ⟨new, is, here⟩, same⟩

theorem mem_apply_organizations {w : Write} (mem : o ∈ (d.apply w).organizations) :
    w = .organization o ∨
      (o ∈ d.organizations ∧ ∀ row, w = .organization row → row.id ≠ o.id) := by
  cases w with
  | organization row =>
      rcases Table.mem_upsert.mp mem with rfl | ⟨held, differs⟩
      · exact .inl rfl
      · refine .inr ⟨held, fun other same => ?_⟩
        obtain rfl := Write.organization.inj same
        exact Ne.symm differs
  | membership row => exact .inr ⟨mem, fun _ same => nomatch same⟩
  | principal row => exact .inr ⟨mem, fun _ same => nomatch same⟩
  | grant row => exact .inr ⟨mem, fun _ same => nomatch same⟩
  | revoke organization grantee capability => exact .inr ⟨mem, fun _ same => nomatch same⟩

theorem mem_view_organizations (mem : o ∈ (engine.view d ws).organizations) :
    .organization o ∈ ws ∨
      (o ∈ d.organizations ∧ ∀ row, .organization row ∈ ws → row.id ≠ o.id) := by
  rcases Engine.view_origin (P := fun later : Directory => o ∈ later.organizations)
    (fun _ _ => mem_apply_organizations) mem with ⟨w, pending, rfl⟩ | ⟨held, left⟩
  · exact .inl pending
  · exact .inr ⟨held, fun row pending same => left _ pending row rfl same⟩

/-- A committed organization has a row in the view. -/
theorem view_organization_exists (ws : List Write) (mem : o ∈ d.organizations) :
    ∃ row ∈ (engine.view d ws).organizations, row.id = o.id := by
  refine Engine.view_induction (P := fun (later : Directory) => ∃ row ∈ later.organizations, row.id = o.id)
    ⟨o, mem, rfl⟩ ?_
  rintro later w - ⟨row, held, same⟩
  cases w with
  | organization new =>
      by_cases here : new.id = row.id
      · exact ⟨new, Table.mem_upsert.mpr (.inl rfl), here.trans same⟩
      · exact ⟨row, Table.mem_upsert.mpr (.inr ⟨held, Ne.symm here⟩), same⟩
  | membership row' => exact ⟨row, held, same⟩
  | principal row' => exact ⟨row, held, same⟩
  | grant row' => exact ⟨row, held, same⟩
  | revoke organization grantee capability => exact ⟨row, held, same⟩

theorem view_organizations_mem (mem : o ∈ d.organizations)
    (apart : ∀ row, .organization row ∈ ws → row.id ≠ o.id) :
    o ∈ (engine.view d ws).organizations := by
  refine Engine.view_induction (P := fun (later : Directory) => o ∈ later.organizations) mem ?_
  intro later w pending held
  cases w with
  | organization row =>
      exact Table.mem_upsert.mpr (.inr ⟨held, Ne.symm (apart row pending)⟩)
  | membership row => exact held
  | principal row => exact held
  | grant row => exact held
  | revoke organization grantee capability => exact held

/-- Members nobody writes are the same before and after. -/
theorem memberships_kept (apart : ∀ row, .membership row ∈ ws → row.id ≠ i) (here : m.id = i) :
    m ∈ (engine.view d ws).memberships ↔ m ∈ d.memberships := by
  constructor
  · intro mem
    rcases mem_view_memberships mem with pending | ⟨held, -⟩
    · exact absurd here (apart m pending)
    · exact held
  · intro mem
    exact view_memberships_mem mem fun row pending => here ▸ apart row pending

theorem organizations_kept (apart : ∀ row, .organization row ∈ ws → row.id ≠ i) (here : o.id = i) :
    o ∈ (engine.view d ws).organizations ↔ o ∈ d.organizations := by
  constructor
  · intro mem
    rcases mem_view_organizations mem with pending | ⟨held, -⟩
    · exact absurd here (apart o pending)
    · exact held
  · intro mem
    exact view_organizations_mem mem fun row pending => here ▸ apart row pending

/-! ## Locks -/

/-- A lock on the membership's row that lets nobody else write it. -/
def LocksMember (i : Nat) (held : List RowLock) : Prop :=
  .membership i .update ∈ held ∨ .membership i .noKeyUpdate ∈ held

/-- A lock on the membership's row at least as strong as the one a foreign key takes. -/
def LocksGrantee (i : Nat) (held : List RowLock) : Prop :=
  ∃ mode, .membership i mode ∈ held

def LocksOrganization (i : Nat) (held : List RowLock) : Prop :=
  .organization i .update ∈ held ∨ .organization i .noKeyUpdate ∈ held

variable {held more : List RowLock} {t u : Transaction Directory Write RowLock Memory Request}

theorem LocksMember.append (locks : LocksMember i held) : LocksMember i (more ++ held) :=
  locks.imp (List.mem_append_right more) (List.mem_append_right more)

theorem LocksMember.taken (locks : LocksMember i more) : LocksMember i (more ++ held) :=
  locks.imp (List.mem_append_left held) (List.mem_append_left held)

theorem LocksGrantee.append (locks : LocksGrantee i held) : LocksGrantee i (more ++ held) :=
  locks.imp fun _ mem => List.mem_append_right more mem

theorem LocksGrantee.taken (locks : LocksGrantee i more) : LocksGrantee i (more ++ held) :=
  locks.imp fun _ mem => List.mem_append_left held mem

theorem LocksMember.grantee (locks : LocksMember i held) : LocksGrantee i held := by
  rcases locks with mem | mem
  · exact ⟨_, mem⟩
  · exact ⟨_, mem⟩

theorem LocksOrganization.append (locks : LocksOrganization i held) :
    LocksOrganization i (more ++ held) :=
  locks.imp (List.mem_append_right more) (List.mem_append_right more)

theorem LocksOrganization.taken (locks : LocksOrganization i more) :
    LocksOrganization i (more ++ held) :=
  locks.imp (List.mem_append_left held) (List.mem_append_left held)

theorem not_locksMember (compatible : engine.Compatible t u) (mine : LocksMember i t.held) :
    ¬ LocksMember i u.held := by
  rintro (theirs | theirs) <;> rcases mine with mine | mine <;>
    exact compatible.excluded mine (by simp [engine, RowLock.excludes, LockMode.conflicts]) theirs

/-- `FOR UPDATE` on a membership keeps even foreign keys from referring to it. -/
theorem not_locksGrantee (compatible : engine.Compatible t u)
    (mine : .membership i .update ∈ t.held) : ¬ LocksGrantee i u.held := by
  rintro ⟨mode, theirs⟩
  exact compatible.excluded mine (by simp [engine, RowLock.excludes, LockMode.conflicts]) theirs

theorem not_locksOrganization (compatible : engine.Compatible t u)
    (mine : LocksOrganization i t.held) : ¬ LocksOrganization i u.held := by
  rintro (theirs | theirs) <;> rcases mine with mine | mine <;>
    exact compatible.excluded mine (by simp [engine, RowLock.excludes, LockMode.conflicts]) theirs

/-! ## Agreement about some members -/

/-- The two directories have the same rows and grants of the members in `seats`. -/
structure AgreeAt (seats : Nat → Prop) (d other : Directory) : Prop where
  memberships : Table.AgreeOn (fun m => seats m.id) d.memberships other.memberships
  grants : Table.AgreeOn (fun g => seats g.grantee) d.grants other.grants

theorem AgreeAt.apply {seats : Nat → Prop} {other : Directory} (agree : AgreeAt seats d other)
    (w : Write) : AgreeAt seats (d.apply w) (other.apply w) := by
  cases w with
  | membership row => exact ⟨agree.memberships.upsert row, agree.grants⟩
  | grant row => exact ⟨agree.memberships, agree.grants.upsert row⟩
  | revoke organization grantee capability => exact ⟨agree.memberships, agree.grants.erase _⟩
  | principal row => exact ⟨agree.memberships, agree.grants⟩
  | organization row => exact ⟨agree.memberships, agree.grants⟩

theorem view_agree (ws : List Write) {seats : Nat → Prop} {other : Directory} (agree : AgreeAt seats d other) :
    AgreeAt seats (engine.view d ws) (engine.view other ws) :=
  Engine.view_related (R := AgreeAt seats) agree fun _ _ w _ agree => agree.apply w

/-- Writes that concern other members. -/
theorem agree_view {seats : Nat → Prop}
    (members : ∀ row, .membership row ∈ ws → ¬ seats row.id)
    (grants : ∀ w ∈ ws, ∀ i, w.grantee = some i → ¬ seats i) :
    AgreeAt seats d (engine.view d ws) := by
  refine Engine.view_induction (P := AgreeAt seats d) ⟨.refl _ _, .refl _ _⟩ ?_
  intro later w mem agree
  cases w with
  | membership row =>
      refine ⟨agree.memberships.trans (Table.AgreeOn.upsert_left fun a here same => ?_), agree.grants⟩
      exact members row mem (same ▸ here)
  | grant row =>
      refine ⟨agree.memberships, agree.grants.trans (Table.AgreeOn.upsert_left fun a here same => ?_)⟩
      have grantee : a.grantee = row.grantee := congrArg (fun k => k.2.1) same
      exact grants _ mem row.grantee rfl (grantee ▸ here)
  | revoke organization grantee capability =>
      refine ⟨agree.memberships, agree.grants.trans (Table.AgreeOn.erase_left fun a here same => ?_)⟩
      have other : a.grantee = grantee := congrArg (fun k => k.2.1) same
      exact grants _ mem grantee rfl (other ▸ here)
  | principal row => exact ⟨agree.memberships, agree.grants⟩
  | organization row => exact ⟨agree.memberships, agree.grants⟩

end SiliconIam.Organizations.Roles
