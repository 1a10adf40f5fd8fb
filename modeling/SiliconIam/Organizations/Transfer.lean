/-
# Organizations.Transfer -- what a transfer of ownership has established

`Transferring` lists it by the number `k` of statements done.  Nobody else has
transferred the organization since its version was read (`fresh`, `bumped`), so
the unique index of active owners lets the new owner in only where the caller
was the owner and has just been demoted (`demoted`, `moved`).  From the row locks
on, the two members and their grants are the transfer's alone; its last
statements revoke all of their grants and insert the default set (`settled`).

Each statement takes the facts at `k` to those at `k + 1`
(`Transferring.execute`), and a commit of another transaction that respects the
locks keeps them (`Transferring.stable`).
-/
import Mathlib.Tactic.IntervalCases
import SiliconIam.Organizations.Ownership

namespace SiliconIam.Organizations.Roles

open SiliconIam.Theory SiliconIam.Theory.Transactions

set_option autoImplicit false

/-- The caller is demoted and the new owner promoted, in the view. -/
structure Moved (o n : Nat) (a : OrganizationAccess) (d view : Directory) : Prop where
  former : ∃ old ∈ d.memberships, old.id = a.membership ∧ old.organization = o ∧ old.isOwner = true
  caller : ∃ x ∈ view.memberships, x.id = a.membership ∧ x.organization = o ∧ x.active = true ∧
    x.role = .admin
  owner : ∃ y ∈ view.memberships, y.id = n ∧ y.organization = o ∧ y.isOwner = true ∧
    y.kind = .carbon

/-- The caller's grants are those of `done`, inserted by this transaction; the new owner has none. -/
structure Settled (o n : Nat) (a : OrganizationAccess) (xid : Nat) (done : List Capability)
    (view : Directory) : Prop where
  owner : ∀ g ∈ view.grants, g.organization = o → g.grantee ≠ n
  caller : ∀ g ∈ view.grants, g.organization = o → g.grantee = a.membership →
    g.capability ∈ done ∧ g.xmin = xid
  granted : ∀ c ∈ done, view.granted o a.membership c = true

structure Transferring (o n v : Nat) (a : OrganizationAccess) (k : Nat) (d : Directory) (xid : Nat)
    (pending : List Write) (held : List RowLock) : Prop where
  here : a.organization = o
  active : ∃ org ∈ d.organizations, org.id = o ∧ org.status = .active
  quiet : k ≤ 5 → pending = []
  version : 3 ≤ k → ∀ org ∈ d.organizations, org.id = o → v ≤ org.version
  fresh : 4 ≤ k → n ≠ a.membership ∧ ∀ org ∈ d.organizations, org.id = o → org.version = v →
    ∀ m ∈ d.memberships, m.id = n → m.organization = o → m.isOwner = false
  locked : 5 ≤ k → .membership a.membership .update ∈ held ∧ .membership n .update ∈ held
  bumped : 6 ≤ k → LocksOrganization o held ∧ (∃ row, .organization row ∈ pending ∧ row.id = o) ∧
    ∃ org ∈ d.organizations, org.id = o ∧ org.version = v
  organizations : ∀ row, .organization row ∈ pending → row.id = o ∧
    ∃ org ∈ d.organizations, org.id = o ∧ org.status = row.status ∧ org.version < row.version
  grantees : ∀ w ∈ pending, ∀ i, w.grantee = some i → i = a.membership ∨ i = n
  noRows : k ≤ 8 → ∀ row, .membership row ∉ pending
  rows : ∀ row, .membership row ∈ pending → (row.id = a.membership ∨ row.id = n) ∧
    row.organization = o ∧ ∃ old ∈ d.memberships, old.id = row.id ∧ old.organization = o
  demoted : k = 9 →
    (∃ old ∈ d.memberships, old.id = a.membership ∧ old.organization = o ∧ old.isOwner = true ∧
      ∃ x ∈ (engine.view d pending).memberships, x.id = a.membership ∧ x.organization = o ∧
        x.active = true ∧ x.role = .admin) ∨
    ((∀ row, .membership row ∉ pending) ∧ ∀ old ∈ d.memberships, old.id = a.membership →
      old.organization = o → old.isOwner = false)
  moved : 10 ≤ k → Moved o n a d (engine.view d pending)
  settled : 11 ≤ k → Settled o n a xid (defaultCapabilities.take (k - 11)) (engine.view d pending)

namespace Transferring

variable {o n v k xid : Nat} {a : OrganizationAccess} {d : Directory} {pending ws : List Write}
variable {held locks : List RowLock}

/-! ## Reads -/

/-- A statement that reads: what the next step counts on is what it has checked. -/
theorem read (facts : Transferring o n v a k d xid pending held) (early : k ≤ 3)
    (version : 3 ≤ k + 1 → ∀ org ∈ d.organizations, org.id = o → v ≤ org.version)
    (fresh : 4 ≤ k + 1 → n ≠ a.membership ∧ ∀ org ∈ d.organizations, org.id = o →
      org.version = v → ∀ m ∈ d.memberships, m.id = n → m.organization = o → m.isOwner = false) :
    Transferring o n v a (k + 1) d xid (pending ++ []) ([] ++ held) := by
  rw [List.append_nil]
  exact { facts with
    quiet := fun _ => facts.quiet (by omega)
    version := version
    fresh := fresh
    locked := fun late => absurd late (by omega)
    bumped := fun late => absurd late (by omega)
    noRows := fun _ => facts.noRows (by omega)
    demoted := fun late => absurd late (by omega)
    moved := fun late => absurd late (by omega)
    settled := fun late => absurd late (by omega) }

/-! ## The row locks and the organization's version -/

theorem lock (facts : Transferring o n v a 4 d xid pending held)
    (taken : .membership a.membership .update ∈ locks ∧ .membership n .update ∈ locks) :
    Transferring o n v a 5 d xid (pending ++ []) (locks ++ held) := by
  rw [List.append_nil]
  exact { facts with
    quiet := fun _ => facts.quiet (by omega)
    version := fun _ => facts.version (by omega)
    fresh := fun _ => facts.fresh (by omega)
    locked := fun _ => ⟨List.mem_append_left _ taken.1, List.mem_append_left _ taken.2⟩
    bumped := fun late => absurd late (by omega)
    noRows := fun _ => facts.noRows (by omega)
    demoted := fun late => absurd late (by omega)
    moved := fun late => absurd late (by omega)
    settled := fun late => absurd late (by omega) }

theorem bump (facts : Transferring o n v a 5 d xid pending held) {org : Organization}
    (mem : org ∈ d.organizations) (same : org.id = o) (version : org.version = v)
    (locked : LocksOrganization o locks) :
    Transferring o n v a 6 d xid
      (pending ++ [.organization { org with version := org.version + 1 }]) (locks ++ held) := by
  have quiet := facts.quiet (Nat.le_refl 5)
  subst quiet
  exact {
    here := facts.here
    active := facts.active
    quiet := fun early => absurd early (by omega)
    version := fun _ => facts.version (by omega)
    fresh := fun _ => facts.fresh (by omega)
    locked := fun _ => ⟨List.mem_append_right _ (facts.locked (by omega)).1,
      List.mem_append_right _ (facts.locked (by omega)).2⟩
    bumped := fun _ => ⟨locked.taken, ⟨_, List.mem_singleton.mpr rfl, same⟩, org, mem, same, version⟩
    organizations := by
      intro row pending
      obtain rfl := Write.organization.inj (List.mem_singleton.mp pending)
      exact ⟨same, org, mem, same, rfl, Nat.lt_succ_self _⟩
    grantees := by
      intro w pending i grantee
      obtain rfl := List.mem_singleton.mp pending
      exact nomatch grantee
    noRows := fun _ row pending => nomatch List.mem_singleton.mp pending
    rows := fun row pending => nomatch List.mem_singleton.mp pending
    demoted := fun late => absurd late (by omega)
    moved := fun late => absurd late (by omega)
    settled := fun late => absurd late (by omega) }

/-! ## Grants -/

theorem apply_grants_memberships {w : Write} {i : Nat} (grantee : w.grantee = some i) :
    (d.apply w).memberships = d.memberships := by
  cases w with
  | grant row => rfl
  | revoke organization grantee' capability => rfl
  | principal row => exact nomatch grantee
  | organization row => exact nomatch grantee
  | membership row => exact nomatch grantee

/-- Writes of grants alone leave the memberships. -/
theorem view_grants_memberships (only : ∀ w ∈ ws, ∃ i, w.grantee = some i) :
    (engine.view d ws).memberships = d.memberships := by
  refine Engine.view_induction (P := fun (later : Directory) => later.memberships = d.memberships)
    rfl ?_
  intro later w mem same
  obtain ⟨i, grantee⟩ := only w mem
  exact (apply_grants_memberships grantee).trans same

/-- A statement after the organization's row is bumped, from what its own writes are. -/
theorem later (facts : Transferring o n v a k d xid pending held) (late : 6 ≤ k)
    (organizations : ∀ row, .organization row ∉ ws)
    (grantees : ∀ w ∈ ws, ∀ i, w.grantee = some i → i = a.membership ∨ i = n)
    (noRows : k + 1 ≤ 8 → ∀ row, .membership row ∉ ws)
    (rows : ∀ row, .membership row ∈ ws → (row.id = a.membership ∨ row.id = n) ∧
      row.organization = o ∧ ∃ old ∈ d.memberships, old.id = row.id ∧ old.organization = o)
    (demoted : k + 1 = 9 →
      (∃ old ∈ d.memberships, old.id = a.membership ∧ old.organization = o ∧ old.isOwner = true ∧
        ∃ x ∈ (engine.view d (pending ++ ws)).memberships, x.id = a.membership ∧
          x.organization = o ∧ x.active = true ∧ x.role = .admin) ∨
      ((∀ row, .membership row ∉ pending ++ ws) ∧ ∀ old ∈ d.memberships, old.id = a.membership →
        old.organization = o → old.isOwner = false))
    (moved : 10 ≤ k + 1 → Moved o n a d (engine.view d (pending ++ ws)))
    (settled : 11 ≤ k + 1 → Settled o n a xid (defaultCapabilities.take (k + 1 - 11))
      (engine.view d (pending ++ ws))) :
    Transferring o n v a (k + 1) d xid (pending ++ ws) (locks ++ held) where
  here := facts.here
  active := facts.active
  quiet := fun early => absurd early (by omega)
  version := fun _ => facts.version (by omega)
  fresh := fun _ => facts.fresh (by omega)
  locked := fun _ => ⟨List.mem_append_right _ (facts.locked (by omega)).1,
    List.mem_append_right _ (facts.locked (by omega)).2⟩
  bumped := by
    intro _
    obtain ⟨lock, ⟨row, mem, same⟩, version⟩ := facts.bumped late
    exact ⟨lock.append, ⟨row, List.mem_append_left _ mem, same⟩, version⟩
  organizations := fun row mem => (List.mem_append.mp mem).elim (facts.organizations row)
    fun new => absurd new (organizations row)
  grantees := fun w mem => (List.mem_append.mp mem).elim (facts.grantees w) (grantees w)
  noRows := fun early row mem => (List.mem_append.mp mem).elim
    (facts.noRows (by omega) row) (noRows early row)
  rows := fun row mem => (List.mem_append.mp mem).elim (facts.rows row) (rows row)
  demoted := demoted
  moved := moved
  settled := settled

/-- A statement that changes grants of the two members. -/
theorem grants (facts : Transferring o n v a k d xid pending held) (late : 6 ≤ k)
    (point : k + 1 ≤ 8 ∨ 10 ≤ k)
    (only : ∀ w ∈ ws, ∃ i, w.grantee = some i ∧ (i = a.membership ∨ i = n))
    (settled : 11 ≤ k + 1 → Settled o n a xid (defaultCapabilities.take (k + 1 - 11))
      (engine.view (engine.view d pending) ws)) :
    Transferring o n v a (k + 1) d xid (pending ++ ws) (locks ++ held) := by
  have noRow : ∀ row, .membership row ∉ ws := by
    intro row mem
    obtain ⟨_, grantee, _⟩ := only _ mem
    exact nomatch grantee
  refine facts.later late ?_ ?_ (fun _ => noRow) (fun row new => absurd new (noRow row))
    (fun now => absurd now (by omega)) ?_ ?_
  · intro row mem
    obtain ⟨_, grantee, _⟩ := only _ mem
    exact nomatch grantee
  · intro w mem i grantee
    obtain ⟨j, same, seat⟩ := only w mem
    obtain rfl := Option.some.inj (grantee.symm.trans same)
    exact seat
  · intro moved
    obtain ⟨former, caller, owner⟩ := facts.moved (by omega)
    have same : (engine.view d (pending ++ ws)).memberships =
        (engine.view d pending).memberships := by
      rw [Engine.view_append]
      exact view_grants_memberships fun w mem => (only w mem).imp fun _ grantee => grantee.1
    rw [← same] at caller owner
    exact ⟨former, caller, owner⟩
  · rw [Engine.view_append]
    exact settled

/-- The revocation of all grants of both members. -/
theorem settled_nil (revoked : ∀ g ∈ d.grants, g.organization = o →
    (g.grantee = a.membership ∨ g.grantee = n) →
      .revoke g.organization g.grantee g.capability ∈ ws)
    (only : ∀ w ∈ ws, ∃ i j c, w = .revoke i j c) :
    Settled o n a xid [] (engine.view d ws) := by
  -- A grant that is still there was there before, and no revocation names it.
  have left : ∀ g ∈ (engine.view d ws).grants, g ∈ d.grants ∧
      .revoke g.organization g.grantee g.capability ∉ ws := by
    clear revoked
    induction ws using List.reverseRecOn with
    | nil => exact fun g mem => ⟨mem, List.not_mem_nil⟩
    | append_singleton ws w ih =>
        intro g mem
        rw [view_snoc] at mem
        obtain ⟨i, j, c, rfl⟩ := only w (by simp)
        obtain ⟨earlier, differs⟩ := Table.mem_erase.mp mem
        obtain ⟨held, untouched⟩ := ih (fun w mem => only w (List.mem_append_left _ mem)) g earlier
        refine ⟨held, fun pending => ?_⟩
        rcases List.mem_append.mp pending with old | new
        · exact untouched old
        · obtain ⟨rfl, rfl, rfl⟩ := Write.revoke.inj (List.mem_singleton.mp new)
          exact differs rfl
  have none : ∀ g ∈ (engine.view d ws).grants, g.organization = o →
      ¬ (g.grantee = a.membership ∨ g.grantee = n) := by
    intro g mem here seat
    obtain ⟨held, untouched⟩ := left g mem
    exact untouched (revoked g held here seat)
  exact ⟨fun g mem here same => none g mem here (.inr same),
    fun g mem here same => absurd (.inl same) (none g mem here),
    fun c mem => absurd mem List.not_mem_nil⟩

/-- One of the default grants. -/
theorem settled_insert {done : List Capability} {view : Directory} {c : Capability}
    (settled : Settled o n a xid done view) (apart : n ≠ a.membership) {g : Grant}
    (caller : g.organization = o ∧ g.grantee = a.membership ∧ g.capability = c ∧ g.xmin = xid) :
    Settled o n a xid (done ++ [c]) (view.apply (.grant g)) where
  owner := by
    intro other mem here
    rcases Table.mem_upsert.mp mem with rfl | ⟨held, -⟩
    · rw [caller.2.1]
      exact Ne.symm apart
    · exact settled.owner other held here
  caller := by
    intro other mem here same
    rcases Table.mem_upsert.mp mem with rfl | ⟨held, -⟩
    · exact ⟨by simp [caller.2.2.1], caller.2.2.2⟩
    · obtain ⟨listed, inserted⟩ := settled.caller other held here same
      exact ⟨List.mem_append_left _ listed, inserted⟩
  granted := by
    intro c' listed
    by_cases new : c' = c
    · exact Directory.granted_iff.mpr ⟨g, Table.mem_upsert.mpr (.inl rfl), caller.1, caller.2.1,
        caller.2.2.1.trans new.symm⟩
    · have earlier : c' ∈ done := by simpa [new] using listed
      obtain ⟨old, mem, here, same, capability⟩ :=
        Directory.granted_iff.mp (settled.granted c' earlier)
      refine Directory.granted_iff.mpr ⟨old, Table.mem_upsert.mpr (.inr ⟨mem, fun key => ?_⟩), here,
        same, capability⟩
      have : old.capability = g.capability := congrArg (fun k => k.2.2) key
      exact new (capability.symm.trans (this.trans caller.2.2.1))

/-! ## The two rows -/

/-- Before the caller is demoted, the members of the view are the committed ones. -/
theorem members_committed {m : Membership} (none : ∀ row, .membership row ∉ pending) :
    m ∈ (engine.view d pending).memberships ↔ m ∈ d.memberships :=
  memberships_kept (fun row mem => absurd mem (none row)) rfl

theorem membership?_none {d : Directory} {i : Nat} (missing : d.membership? o i = none) :
    ∀ m ∈ d.memberships, m.id = i → m.organization = o → False := by
  intro m mem same here
  have := List.find?_eq_none.mp missing m mem
  simp [same, here] at this

theorem demote (facts : Transferring o n v a 8 d xid pending held)
    (wrote : (ws = [] ∧ ∀ m ∈ (engine.view d pending).memberships, m.id = a.membership →
        m.organization = o → m.isOwner = false) ∨
      ∃ m ∈ (engine.view d pending).memberships, m.id = a.membership ∧ m.organization = o ∧
        m.isOwner = true ∧ ws = [.membership (m.set .admin (some n) m.status)]) :
    Transferring o n v a 9 d xid (pending ++ ws) (locks ++ held) := by
  have none := facts.noRows (Nat.le_refl 8)
  have isRow : ∀ w ∈ ws, ∃ row, w = .membership row := by
    intro w mem
    rcases wrote with ⟨rfl, _⟩ | ⟨_, _, _, _, _, rfl⟩
    · exact absurd mem List.not_mem_nil
    · exact ⟨_, List.mem_singleton.mp mem⟩
  refine facts.later (by omega) ?_ ?_ (fun early => absurd early (by omega)) ?_ ?_
    (fun late => absurd late (by omega)) fun late => absurd late (by omega)
  · intro row mem
    obtain ⟨_, same⟩ := isRow _ mem
    exact nomatch same
  · intro w mem i grantee
    obtain ⟨_, rfl⟩ := isRow _ mem
    exact nomatch grantee
  · intro row mem
    rcases wrote with ⟨rfl, _⟩ | ⟨m, held, same, here, _, rfl⟩
    · exact absurd mem List.not_mem_nil
    · obtain rfl := Write.membership.inj (List.mem_singleton.mp mem)
      exact ⟨.inl same, here, m, (members_committed none).mp held, rfl, here⟩
  · intro _
    rcases wrote with ⟨rfl, notOwner⟩ | ⟨m, held, same, here, owner, rfl⟩
    · refine .inr ⟨fun row mem => none row (by simpa using mem), fun old mem => ?_⟩
      exact notOwner old ((members_committed none).mpr mem)
    · refine .inl ⟨m, (members_committed none).mp held, same, here, owner,
        m.set .admin (some n) m.status, ?_, same, here, ?_, rfl⟩
      · rw [view_snoc]
        exact Table.mem_upsert.mpr (.inl rfl)
      · rw [Membership.isOwner, Bool.and_eq_true] at owner
        exact owner.1

theorem promote (inv : Inv d) (facts : Transferring o n v a 9 d xid pending held) {m : Membership}
    (mem : m ∈ (engine.view d pending).memberships) (same : m.id = n) (here : m.organization = o)
    (carbon : m.kind = .carbon) (active : m.active = true)
    (admits : ownerIndexAdmits (engine.view d pending) (m.set .owner none m.status) = true) :
    Transferring o n v a 10 d xid (pending ++ [.membership (m.set .owner none m.status)])
      (locks ++ held) := by
  have apart := (facts.fresh (by omega)).1
  have owner : (m.set .owner none m.status).isOwner = true := by
    rw [Membership.isOwner, Bool.and_eq_true]
    exact ⟨active, rfl⟩
  refine facts.later (by omega) (fun row mem => by cases List.mem_singleton.mp mem) ?_
    (fun early => absurd early (by omega)) ?_ (fun now => absurd now (by omega)) ?_
    fun late => absurd late (by omega)
  · intro w mem i grantee
    obtain rfl := List.mem_singleton.mp mem
    cases grantee
  · intro row new
    obtain rfl := Write.membership.inj (List.mem_singleton.mp new)
    refine ⟨.inr same, here, ?_⟩
    rcases mem_view_memberships mem with earlier | ⟨committed, -⟩
    · exact (facts.rows m earlier).2.2
    · exact ⟨m, committed, rfl, here⟩
  · intro _
    rw [view_snoc]
    rcases facts.demoted rfl with ⟨old, oldMem, oldSame, oldHere, oldOwner, x, xMem, xSame, xHere, xActive,
      xRole⟩ | ⟨noRow, notOwner⟩
    · refine ⟨⟨old, oldMem, oldSame, oldHere, oldOwner⟩, ⟨x, ?_, xSame, xHere, xActive, xRole⟩,
        ⟨_, Table.mem_upsert.mpr (.inl rfl), same, here, owner, carbon⟩⟩
      refine Table.mem_upsert.mpr (.inr ⟨xMem, fun clash => apart ?_⟩)
      exact same.symm.trans (clash.symm.trans xSame)
    · -- The organization has an owner; the index admits the new one only if that is who it is.
      obtain ⟨org, orgMem, orgSame, orgActive⟩ := facts.active
      obtain ⟨w, wMem, wHere, wOwner, -, -⟩ := orgSame ▸ inv.owned org orgMem orgActive
      have index := admits
      rw [ownerIndexAdmits, owner, Bool.not_true, Bool.false_or] at index
      have entry := Table.all_spec.mp index w ((members_committed noRow).mpr wMem)
      have wNew : w.id = n := by
        have sameOrg : (w.organization != (m.set .owner none m.status).organization) = false := by
          simp [Membership.set, wHere, here]
        rw [sameOrg, wOwner, Bool.not_true, Bool.false_or, Bool.false_or, beq_iff_eq] at entry
        exact entry.trans same
      obtain ⟨_, _, versioned, versionedMem, versionedSame, version⟩ := facts.bumped (by omega)
      rw [(facts.fresh (by omega)).2 versioned versionedMem versionedSame version w wMem wNew
        wHere] at wOwner
      exact Bool.noConfusion wOwner

end Transferring

/-! ## The statements in order -/

/-- An open transfer: how far it is, and what that has established. -/
def TransferAt (principal o n v : Nat) (d : Directory) (t : Tx) : Prop :=
  ∃ k, t.rest = (transferOwnership principal o n v).drop k ∧
    ((k = 0 ∧ t.pending = [] ∧ t.held = []) ∨
      (1 ≤ k ∧ ∃ a, t.memory = some a ∧ Transferring o n v a k d t.xid t.pending t.held))

/-- The head of what is left of a list of like statements and a last one. -/
theorem drop_map_append {α β : Type} {f : α → β} {last head : β} {rest : List β} :
    ∀ {xs : List α} {j : Nat}, (xs.map f ++ [last]).drop j = head :: rest →
      (∃ c, xs.take (j + 1) = xs.take j ++ [c] ∧ head = f c ∧
        rest = (xs.map f ++ [last]).drop (j + 1)) ∨
      (xs.length ≤ j ∧ head = last ∧ rest = (xs.map f ++ [last]).drop (j + 1))
  | [], 0, next => by
      obtain ⟨rfl, rfl⟩ := List.cons.inj next
      exact .inr ⟨Nat.le_refl 0, rfl, rfl⟩
  | [], j + 1, next => by simp at next
  | x :: xs, 0, next => by
      obtain ⟨rfl, rfl⟩ := List.cons.inj next
      exact .inl ⟨x, rfl, rfl, rfl⟩
  | x :: xs, j + 1, next => by
      rcases drop_map_append (show (xs.map f ++ [last]).drop j = head :: rest from next) with ⟨c, taken, same, left⟩ | ⟨done, same, left⟩
      · exact .inl ⟨c, by rw [List.take_succ_cons, taken]; rfl, same, left⟩
      · exact .inr ⟨Nat.succ_le_succ done, same, left⟩

section Execute

variable {principal o n v : Nat} {d : Directory} {t : Tx} {statement : Statement}
variable {rest : List Statement} {after : Memory} {ws : List Write}

theorem requireOwner_execute {k xid : Nat} {a : OrganizationAccess} {pending : List Write}
    {held : List RowLock} {memory : Memory} {p : OrganizationAccess → Directory → Bool}
    (facts : Transferring o n v a k d xid pending held) (known : memory = some a)
    (early : 1 ≤ k ∧ k ≤ 3)
    (done : (require p).effect xid memory (engine.view d pending) = some (after, ws))
    (version : 3 ≤ k + 1 → p a d = true → ∀ org ∈ d.organizations, org.id = o → v ≤ org.version)
    (fresh : 4 ≤ k + 1 → p a d = true → n ≠ a.membership ∧ ∀ org ∈ d.organizations, org.id = o →
      org.version = v → ∀ m ∈ d.memberships, m.id = n → m.organization = o → m.isOwner = false) :
    after = some a ∧ Transferring o n v a (k + 1) d xid (pending ++ ws) ([] ++ held) := by
  obtain ⟨access, same, checked, rfl, rfl⟩ := require_spec.mp done
  obtain rfl := Option.some.inj (known.symm.trans same)
  rw [facts.quiet (by omega)] at checked
  exact ⟨known, facts.read early.2 (fun late => version late checked) fun late => fresh late checked⟩

theorem eligible_fresh {a : OrganizationAccess}
    (checked : (n != a.membership && (d.membership? a.organization n).any fun m =>
      m.kind == .carbon && m.active && m.role != .owner) = true) :
    n ≠ a.membership ∧ ∀ m ∈ d.memberships, m.id = n → m.isOwner = false := by
  rw [Bool.and_eq_true, bne_iff_ne] at checked
  refine ⟨checked.1, fun m mem same => ?_⟩
  cases found : d.membership? a.organization n with
  | none => simp [found] at checked
  | some other =>
      obtain ⟨otherMem, _, otherSame⟩ := Directory.membership?_spec found
      obtain rfl := Table.unique mem otherMem (same.trans otherSame.symm)
      have eligible := checked.2
      rw [found] at eligible
      simp only [Option.any_some, Bool.and_eq_true, bne_iff_ne] at eligible
      exact isOwner_of_role eligible.2

theorem TransferAt.execute (inv : Inv d) (at' : TransferAt principal o n v d t)
    (next : t.rest = statement :: rest)
    (done : statement.effect t.xid t.memory (engine.view d t.pending) = some (after, ws)) :
    TransferAt principal o n v d
      (t.advance rest after ws (statement.locks t.memory (engine.view d t.pending))) := by
  obtain ⟨k, left, point⟩ := at'
  rw [next] at left
  rcases point with ⟨rfl, quiet, -⟩ | ⟨started, a, known, facts⟩
  · -- The caller's access.
    obtain ⟨rfl, rfl⟩ := List.cons.inj left
    obtain ⟨a, resolved, rfl, rfl⟩ := beginOrganization_spec.mp done
    refine ⟨1, rfl, .inr ⟨Nat.le_refl 1, a, rfl, ?_⟩⟩
    show Transferring o n v a 1 d t.xid (t.pending ++ []) ([] ++ t.held)
    rw [quiet] at resolved ⊢
    have active : d.organizationActive o = true := by
      unfold resolveOrganizationAccess at resolved
      split at resolved
      · assumption
      · exact absurd resolved (by simp)
    obtain ⟨org, mem, holds⟩ := Table.any_spec active
    rw [Bool.and_eq_true, beq_iff_eq, beq_iff_eq] at holds
    exact {
      here := (resolveOrganizationAccess_spec resolved).1
      active := ⟨org, mem, holds⟩
      quiet := fun _ => rfl
      version := fun late => absurd late (by omega)
      fresh := fun late => absurd late (by omega)
      locked := fun late => absurd late (by omega)
      bumped := fun late => absurd late (by omega)
      organizations := fun _ mem => absurd mem List.not_mem_nil
      grantees := fun _ mem => absurd mem List.not_mem_nil
      noRows := fun _ _ => List.not_mem_nil
      rows := fun _ mem => absurd mem List.not_mem_nil
      demoted := fun late => absurd late (by omega)
      moved := fun late => absurd late (by omega)
      settled := fun late => absurd late (by omega) }
  · refine ⟨k + 1, ?_, .inr ⟨by omega, a, ?_⟩⟩
    · show rest = _
      rw [← List.drop_drop, ← left]
      rfl
    show after = some a ∧ Transferring o n v a (k + 1) d t.xid (t.pending ++ ws)
      (statement.locks t.memory (engine.view d t.pending) ++ t.held)
    have here := facts.here
    by_cases tail : k < 11
    · interval_cases k
      · -- The caller is the owner.
        obtain ⟨rfl, rfl⟩ := List.cons.inj left
        exact requireOwner_execute facts known (by omega) done (fun late => absurd late (by omega))
          fun late => absurd late (by omega)
      · -- The version the client expects.
        obtain ⟨rfl, rfl⟩ := List.cons.inj left
        refine requireOwner_execute facts known (by omega) done (fun _ checked org mem same => ?_)
          fun late => absurd late (by omega)
        obtain ⟨found, foundMem, holds⟩ := Table.any_spec checked
        rw [Bool.and_eq_true, beq_iff_eq, beq_iff_eq] at holds
        obtain rfl := Table.unique mem foundMem (same.trans (holds.1.trans here).symm)
        exact holds.2.ge
      · -- The new owner is eligible.
        obtain ⟨rfl, rfl⟩ := List.cons.inj left
        refine requireOwner_execute facts known (by omega) done (fun _ _ => facts.version (by omega))
          fun _ checked => ?_
        obtain ⟨apart, notOwner⟩ := eligible_fresh checked
        exact ⟨apart, fun _ _ _ _ m mem same _ => notOwner m mem same⟩
      · -- Both rows are locked.
        obtain ⟨rfl, rfl⟩ := List.cons.inj left
        obtain ⟨access, same, rfl, wrote⟩ := change_spec.mp done
        split at wrote
        · obtain rfl := Option.some.inj wrote
          rw [known]
          exact ⟨rfl, facts.lock ⟨List.mem_cons_self, List.mem_cons_of_mem _ List.mem_cons_self⟩⟩
        · exact absurd wrote (by simp)
      · -- The organization's version is bumped.
        obtain ⟨rfl, rfl⟩ := List.cons.inj left
        obtain ⟨access, org, mem, same, rfl, orgSame, version, rfl⟩ := bumpOrganization_spec done
        obtain rfl := Option.some.inj (known.symm.trans same)
        rw [facts.quiet (by omega)] at mem
        rw [known]
        refine ⟨rfl, facts.bump mem (orgSame.trans here) version (.inr ?_)⟩
        exact List.mem_singleton.mpr (by rw [here])
      · -- The new owner's grants are revoked.
        obtain ⟨rfl, rfl⟩ := List.cons.inj left
        obtain ⟨access, same, rfl, mem_iff⟩ := mem_revokeGrants done
        refine ⟨known, facts.grants (by omega) (by omega) (fun w mem => ?_)
          fun late => absurd late (by omega)⟩
        obtain ⟨g, _, _, listed, rfl⟩ := (mem_iff w).mp mem
        exact ⟨g.grantee, rfl, .inr (List.mem_singleton.mp listed)⟩
      · -- The caller keeps a temporary capability.
        obtain ⟨rfl, rfl⟩ := List.cons.inj left
        obtain ⟨access, same, rfl, wrote⟩ := insertGrant_spec done
        obtain rfl := Option.some.inj (known.symm.trans same)
        refine ⟨known, facts.grants (by omega) (by omega) (fun w mem => ?_)
          fun late => absurd late (by omega)⟩
        rcases wrote with ⟨_, rfl⟩ | ⟨_, rfl⟩
        · exact absurd mem List.not_mem_nil
        · obtain rfl := List.mem_singleton.mp mem
          exact ⟨_, rfl, .inl rfl⟩
      · -- The caller is demoted.
        obtain ⟨rfl, rfl⟩ := List.cons.inj left
        obtain ⟨access, same, rfl, wrote⟩ := change_spec.mp done
        obtain rfl := Option.some.inj (known.symm.trans same)
        refine ⟨known, facts.demote ?_⟩
        rw [here] at wrote
        cases found : (engine.view d t.pending).membership? o a.membership with
        | none =>
            rw [found] at wrote
            obtain rfl := Option.some.inj wrote
            refine .inl ⟨rfl, fun m mem same here => ?_⟩
            exact (Transferring.membership?_none found m mem same here).elim
        | some m =>
            obtain ⟨mem, mHere, mSame⟩ := Directory.membership?_spec found
            rw [found] at wrote
            dsimp only at wrote
            cases owner : m.isOwner with
            | true =>
                rw [if_pos owner] at wrote
                exact .inr ⟨m, mem, mSame, mHere, owner, (Option.some.inj wrote).symm⟩
            | false =>
                rw [if_neg (by simp [owner])] at wrote
                refine .inl ⟨(Option.some.inj wrote).symm, fun x xMem xSame _ => ?_⟩
                rw [Table.unique xMem mem (xSame.trans mSame.symm)]
                exact owner
      · -- The new owner is promoted.
        obtain ⟨rfl, rfl⟩ := List.cons.inj left
        obtain ⟨access, m, same, rfl, found, met, rfl⟩ := change_membership_spec done
        obtain rfl := Option.some.inj (known.symm.trans same)
        obtain ⟨mem, mHere, mSame⟩ := Directory.membership?_spec found
        simp only [Bool.and_eq_true, beq_iff_eq] at met
        exact ⟨known, facts.promote inv mem mSame (mHere.trans here) met.1.1 met.1.2 met.2⟩
      · -- All grants of both are revoked.
        obtain ⟨rfl, rfl⟩ := List.cons.inj left
        obtain ⟨access, same, rfl, mem_iff⟩ := mem_revokeGrants done
        obtain rfl := Option.some.inj (known.symm.trans same)
        refine ⟨known, facts.grants (by omega) (by omega) (fun w mem => ?_)
          fun _ => Transferring.settled_nil (fun g mem gHere seat => ?_) fun w mem => ?_⟩
        · obtain ⟨g, _, _, listed, rfl⟩ := (mem_iff w).mp mem
          exact ⟨g.grantee, rfl, by simpa using listed⟩
        · exact (mem_iff _).mpr ⟨g, mem, gHere.trans here.symm, by simpa using seat, rfl⟩
        · obtain ⟨g, _, _, _, rfl⟩ := (mem_iff w).mp mem
          exact ⟨_, _, _, rfl⟩
    · obtain ⟨j, rfl⟩ := Nat.exists_eq_add_of_le (Nat.not_lt.mp tail)
      have point : (defaultCapabilities.map (fun c => insertGrant OrganizationAccess.membership c
          (fun _ => n) "ownership transferred") ++ [assertExactlyOneOwner]).drop j =
            statement :: rest := by
        rw [left, Nat.add_comm]
        rfl
      have settled := facts.settled (by omega)
      rw [Nat.add_sub_cancel_left] at settled
      have steps : 11 + j + 1 - 11 = j + 1 := by omega
      rcases drop_map_append point with ⟨c, taken, rfl, -⟩ | ⟨all, rfl, -⟩
      · -- One of the default capabilities is granted.
        obtain ⟨access, same, rfl, wrote⟩ := insertGrant_spec done
        obtain rfl := Option.some.inj (known.symm.trans same)
        refine ⟨known, facts.grants (by omega) (by omega) (fun w mem => ?_) fun _ => ?_⟩
        · rcases wrote with ⟨_, rfl⟩ | ⟨_, rfl⟩
          · exact absurd mem List.not_mem_nil
          · obtain rfl := List.mem_singleton.mp mem
            exact ⟨_, rfl, .inl rfl⟩
        · rw [steps, taken]
          rcases wrote with ⟨already, rfl⟩ | ⟨_, rfl⟩
          · rw [here] at already
            refine ⟨settled.owner, fun g mem gHere same => ?_, fun c' listed => ?_⟩
            · obtain ⟨earlier, inserted⟩ := settled.caller g mem gHere same
              exact ⟨List.mem_append_left _ earlier, inserted⟩
            · rcases List.mem_append.mp listed with earlier | new
              · exact settled.granted c' earlier
              · exact List.mem_singleton.mp new ▸ already
          · exact Transferring.settled_insert settled (facts.fresh (by omega)).1 ⟨here, rfl, rfl, rfl⟩
      · -- The owners are counted.
        obtain ⟨_, _, _, rfl, rfl⟩ := require_spec.mp done
        refine ⟨known, facts.grants (by omega) (by omega)
          (fun w mem => absurd mem List.not_mem_nil) fun _ => ?_⟩
        rw [steps, List.take_of_length_le (by omega)]
        rw [List.take_of_length_le all] at settled
        exact settled

end Execute

/-! ## Commits of others -/

/-- What the others can count on when `u` commits. -/
structure Yields (d : Directory) (u : Tx) : Prop where
  members : ∀ row, .membership row ∈ u.pending → LocksMember row.id u.held
  organizations : ∀ row, .organization row ∈ u.pending → LocksOrganization row.id u.held ∧
    ∀ old ∈ d.organizations, old.id = row.id → old.status = row.status ∧ old.version < row.version
  grantees : ∀ w ∈ u.pending, ∀ i, w.grantee = some i → LocksGrantee i u.held
  owners : ∀ m ∈ (engine.view d u.pending).memberships, m.isOwner = true →
    (∃ old ∈ d.memberships, old.id = m.id ∧ old.organization = m.organization ∧
      old.isOwner = true) ∨
    ∃ row, .organization row ∈ u.pending ∧ row.id = m.organization

section Stable

variable {o n v k : Nat} {a : OrganizationAccess} {d : Directory} {t u : Tx} {i : Nat}

/-- A member whose row is locked is as it was after another transaction's commit. -/
theorem Yields.member_kept (yields : Yields d u) (compatible : engine.Compatible t u)
    (locked : LocksMember i t.held) {m : Membership} (same : m.id = i) :
    m ∈ (engine.view d u.pending).memberships ↔ m ∈ d.memberships := by
  refine memberships_kept (fun row pending clash => ?_) same
  exact not_locksMember compatible locked (clash ▸ yields.members row pending)

theorem Yields.organization_kept (yields : Yields d u) (compatible : engine.Compatible t u)
    (locked : LocksOrganization i t.held) {org : Organization} (same : org.id = i) :
    org ∈ (engine.view d u.pending).organizations ↔ org ∈ d.organizations := by
  refine organizations_kept (fun row pending clash => ?_) same
  exact not_locksOrganization compatible locked (clash ▸ (yields.organizations row pending).1)

/-- An organization keeps its status, and its version can only grow. -/
theorem Yields.organization (yields : Yields d u) {org : Organization}
    (mem : org ∈ (engine.view d u.pending).organizations) {old : Organization}
    (oldMem : old ∈ d.organizations) (same : old.id = org.id) :
    old.status = org.status ∧
      (org = old ∧ (∀ row, .organization row ∈ u.pending → row.id ≠ org.id) ∨
        old.version < org.version) := by
  rcases mem_view_organizations mem with pending | ⟨committed, untouched⟩
  · obtain ⟨status, version⟩ := (yields.organizations org pending).2 old oldMem same
    exact ⟨status, .inr version⟩
  · obtain rfl := Table.unique oldMem committed same
    exact ⟨rfl, .inl ⟨rfl, untouched⟩⟩

theorem Transferring.stable (facts : Transferring o n v a k d t.xid t.pending t.held)
    (yields : Yields d u) (compatible : engine.Compatible t u) :
    Transferring o n v a k (engine.view d u.pending) t.xid t.pending t.held := by
  -- From the row locks on, the others do not touch the two members.
  have agree : 5 ≤ k → AgreeAt (fun i => i = a.membership ∨ i = n) d
      (engine.view d u.pending) := by
    intro late
    obtain ⟨caller, owner⟩ := facts.locked late
    refine agree_view (fun row pending seat => ?_) fun w pending i grantee seat => ?_
    · rcases seat with same | same
      · exact not_locksMember compatible (.inl caller) (same ▸ yields.members row pending)
      · exact not_locksMember compatible (.inl owner) (same ▸ yields.members row pending)
    · rcases seat with rfl | rfl
      · exact not_locksGrantee compatible caller (yields.grantees w pending _ grantee)
      · exact not_locksGrantee compatible owner (yields.grantees w pending _ grantee)
  have agreeView := fun late => view_agree t.pending (agree late)
  have touched : ∀ row, .membership row ∈ t.pending → 9 ≤ k := by
    intro row pending
    by_contra early
    exact facts.noRows (by omega) row pending
  have written : ∀ row, .organization row ∈ t.pending → 6 ≤ k := by
    intro row pending
    by_contra early
    rw [facts.quiet (by omega)] at pending
    exact List.not_mem_nil pending
  obtain ⟨org, orgMem, orgSame, orgActive⟩ := facts.active
  refine {
    here := facts.here
    active := ?_
    quiet := facts.quiet
    version := ?_
    fresh := ?_
    locked := facts.locked
    bumped := ?_
    organizations := ?_
    grantees := facts.grantees
    noRows := facts.noRows
    rows := ?_
    demoted := ?_
    moved := ?_
    settled := ?_ }
  · obtain ⟨row, mem, same⟩ := view_organization_exists u.pending orgMem
    exact ⟨row, mem, same.trans orgSame, (yields.organization mem orgMem same.symm).1 ▸ orgActive⟩
  · intro late row mem same
    have old := facts.version late org orgMem orgSame
    rcases (yields.organization mem orgMem (orgSame.trans same.symm)).2 with ⟨rfl, _⟩ | grown
    · exact old
    · omega
  · intro late
    refine ⟨(facts.fresh late).1, fun row mem same version m mMem mSame mHere => ?_⟩
    have old := facts.version (by omega) org orgMem orgSame
    rcases (yields.organization mem orgMem (orgSame.trans same.symm)).2 with ⟨rfl, untouched⟩ | grown
    · -- Nobody transferred the organization, so an owner was an owner before.
      cases owner : m.isOwner with
      | false => rfl
      | true =>
          rcases yields.owners m mMem owner with ⟨old, oldMem, oldSame, oldHere, oldOwner⟩ |
            ⟨written, pending, here⟩
          · rw [(facts.fresh late).2 row orgMem same version old oldMem (oldSame.trans mSame)
              (oldHere.trans mHere)] at oldOwner
            exact Bool.noConfusion oldOwner
          · exact absurd (here.trans (mHere.trans same.symm)) (untouched written pending)
    · omega
  · intro late
    obtain ⟨lock, pending, versioned, mem, same, version⟩ := facts.bumped late
    exact ⟨lock, pending, versioned,
      (yields.organization_kept compatible lock same).mpr mem, same, version⟩
  · intro row pending
    obtain ⟨same, old, mem, oldSame, status, grown⟩ := facts.organizations row pending
    refine ⟨same, old, ?_, oldSame, status, grown⟩
    exact (yields.organization_kept compatible (facts.bumped (written row pending)).1 oldSame).mpr mem
  · intro row pending
    obtain ⟨seat, here, old, mem, same, oldHere⟩ := facts.rows row pending
    have late := touched row pending
    have oldSeat : old.id = a.membership ∨ old.id = n := same ▸ seat
    exact ⟨seat, here, old, ((agree (by omega)).memberships old oldSeat).mp mem, same, oldHere⟩
  · intro now
    rcases facts.demoted now with ⟨old, mem, same, here, owner, x, xMem, xSame, rest⟩ |
      ⟨noRow, notOwner⟩
    · refine .inl ⟨old, ((agree (by omega)).memberships old (.inl same)).mp mem, same, here, owner,
        x, ((agreeView (by omega)).memberships x (.inl xSame)).mp xMem, xSame, rest⟩
    · refine .inr ⟨noRow, fun old mem same => ?_⟩
      exact notOwner old (((agree (by omega)).memberships old (.inl same)).mpr mem) same
  · intro late
    obtain ⟨⟨old, mem, same, former⟩, ⟨x, xMem, xSame, caller⟩, y, yMem, ySame, owner⟩ :=
      facts.moved late
    exact ⟨⟨old, ((agree (by omega)).memberships old (.inl same)).mp mem, same, former⟩,
      ⟨x, ((agreeView (by omega)).memberships x (.inl xSame)).mp xMem, xSame, caller⟩,
      y, ((agreeView (by omega)).memberships y (.inr ySame)).mp yMem, ySame, owner⟩
  · intro late
    obtain ⟨owner, caller, granted⟩ := facts.settled late
    have grants := (agreeView (by omega)).grants
    refine ⟨fun g mem here same => ?_, fun g mem here same => ?_, fun c listed => ?_⟩
    · exact owner g ((grants g (.inr same)).mpr mem) here same
    · exact caller g ((grants g (.inl same)).mpr mem) here same
    · obtain ⟨g, mem, here, same, capability⟩ := Directory.granted_iff.mp (granted c listed)
      exact Directory.granted_iff.mpr ⟨g, (grants g (.inl same)).mp mem, here, same, capability⟩

end Stable

end SiliconIam.Organizations.Roles
