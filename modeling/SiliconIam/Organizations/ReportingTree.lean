/-
# Organizations.ReportingTree -- the invariant of the reporting links

`Tree` is the invariant of one organization: every Silicon has its membership,
which is active exactly while the Silicon is live, a manager is a Silicon of the
organization and live when the report is, and the links have no cycle (deleted
Silicons included: that is what the trigger walks).

`Quiet` is a change of the directory after which an organization has the same links,
apart from new Silicons without a manager.  `Kept` is what a transaction's pending
writes are: written under row locks, on top of the rows from before, and quiet in
every organization whose hierarchy lock the transaction does not hold.  Of two
transactions one is quiet in every organization, so their writes together leave a
tree (`Tree.merged`).
-/
import SiliconIam.Organizations.HierarchyRequests

namespace SiliconIam.Organizations.Hierarchy

open SiliconIam.Theory SiliconIam.Theory.Forest SiliconIam.Theory.Transactions
open SiliconIam.Organizations.Roles (Membership)

set_option autoImplicit false

def Directory.Link (d : Directory) (organization : Nat) (a b : Nat) : Prop :=
  ∃ s ∈ d.silicons, s.organization = organization ∧ s.membership = a ∧ s.reportsTo = some b

/-- `m` is the membership of `s`. -/
structure Seats (m : Membership) (s : Silicon) : Prop where
  id : m.id = s.membership
  organization : m.organization = s.organization
  principal : m.principal = s.id
  kind : m.kind = .silicon

structure Tree (d : Directory) (organization : Nat) : Prop where
  seat : ∀ s ∈ d.silicons, s.organization = organization →
    ∃ m ∈ d.memberships, Seats m s ∧ m.active = s.live
  vacant : ∀ m ∈ d.memberships, m.organization = organization → m.kind = .silicon →
    m.active = true ∨ ∃ s ∈ d.silicons, s.membership = m.id
  manager : ∀ s ∈ d.silicons, s.organization = organization → ∀ p, s.reportsTo = some p →
    ∃ b ∈ d.silicons, b.organization = organization ∧ b.membership = p ∧
      (s.live = true → b.live = true)
  acyclic : Acyclic (d.Link organization)

def Inv (d : Directory) : Prop := ∀ organization, Tree d organization

/-- `row` is another version of `old` with the same link. -/
structure SameLink (old row : Silicon) : Prop where
  id : old.id = row.id
  organization : old.organization = row.organization
  membership : old.membership = row.membership
  reportsTo : old.reportsTo = row.reportsTo
  live : old.live = row.live

structure SameStanding (old row : Membership) : Prop where
  id : old.id = row.id
  organization : old.organization = row.organization
  principal : old.principal = row.principal
  kind : old.kind = row.kind
  active : old.kind = .silicon → old.active = row.active

variable {d x y z : Directory} {organization : Nat} {held more : List RowLock}
variable {ws later : List Write}

theorem SameLink.refl (s : Silicon) : SameLink s s := ⟨rfl, rfl, rfl, rfl, rfl⟩

theorem SameLink.trans {a b c : Silicon} (first : SameLink a b) (second : SameLink b c) :
    SameLink a c :=
  ⟨first.id.trans second.id, first.organization.trans second.organization,
    first.membership.trans second.membership, first.reportsTo.trans second.reportsTo,
    first.live.trans second.live⟩

theorem SameLink.symm {a b : Silicon} (same : SameLink a b) : SameLink b a :=
  ⟨same.id.symm, same.organization.symm, same.membership.symm, same.reportsTo.symm, same.live.symm⟩

theorem SameStanding.refl (m : Membership) : SameStanding m m := ⟨rfl, rfl, rfl, rfl, fun _ => rfl⟩

theorem SameStanding.trans {a b c : Membership} (first : SameStanding a b)
    (second : SameStanding b c) : SameStanding a c :=
  ⟨first.id.trans second.id, first.organization.trans second.organization,
    first.principal.trans second.principal, first.kind.trans second.kind,
    fun kind => (first.active kind).trans (second.active (first.kind.symm.trans kind))⟩

theorem SameStanding.symm {a b : Membership} (same : SameStanding a b) : SameStanding b a :=
  ⟨same.id.symm, same.organization.symm, same.principal.symm, same.kind.symm,
    fun kind => (same.active (same.kind.trans kind)).symm⟩

namespace Tree

variable (tree : Tree d organization)
include tree

/-- One Silicon a membership. -/
theorem unique {s other : Silicon} (sMem : s ∈ d.silicons) (here : s.organization = organization)
    (otherMem : other ∈ d.silicons) (otherHere : other.organization = organization)
    (same : s.membership = other.membership) : s = other := by
  obtain ⟨m, mMem, seats, -⟩ := tree.seat s sMem here
  obtain ⟨m', mMem', seats', -⟩ := tree.seat other otherMem otherHere
  obtain rfl := Table.unique mMem mMem' (seats.id.trans (same.trans seats'.id.symm))
  exact Table.unique sMem otherMem (seats.principal.symm.trans seats'.principal)

end Tree

/-! ## Rows of a view -/

theorem applyAll_append (first later : List Write) :
    d.applyAll (first ++ later) = (d.applyAll first).applyAll later :=
  List.foldl_append

theorem applyAll_cons (w : Write) (later : List Write) :
    d.applyAll (w :: later) = (d.apply w).applyAll later := rfl

theorem applyAll_silicons_of_none (none : ∀ row, .silicon row ∉ ws) :
    (d.applyAll ws).silicons = d.silicons := by
  show (engine.view d ws).silicons = d.silicons
  refine Engine.view_induction (P := fun (e : Directory) => e.silicons = d.silicons) rfl ?_
  intro e w mem same
  cases w with
  | silicon row => exact absurd mem (none row)
  | _ => exact same

theorem applyAll_memberships_of_none (none : ∀ row, .membership row ∉ ws) :
    (d.applyAll ws).memberships = d.memberships := by
  show (engine.view d ws).memberships = d.memberships
  refine Engine.view_induction (P := fun (e : Directory) => e.memberships = d.memberships) rfl ?_
  intro e w mem same
  cases w with
  | membership row => exact absurd mem (none row)
  | _ => exact same

/-- Writes to other rows leave the rows of which `P` holds. -/
theorem agree_silicons {P : Nat → Prop} (apart : ∀ row, .silicon row ∈ ws → ¬ P row.id) :
    Table.AgreeOn (fun s => P s.id) d.silicons (d.applyAll ws).silicons := by
  show Table.AgreeOn (fun s => P s.id) d.silicons (engine.view d ws).silicons
  refine Engine.view_induction
    (P := fun (e : Directory) => Table.AgreeOn (fun s => P s.id) d.silicons e.silicons) (.refl _ _) ?_
  intro e w mem agree
  cases w with
  | silicon row =>
      refine agree.trans (.upsert_left fun s holds same => apart row mem ?_)
      rw [← same]
      exact holds
  | _ => exact agree

theorem agree_memberships {P : Nat → Prop} (apart : ∀ row, .membership row ∈ ws → ¬ P row.id) :
    Table.AgreeOn (fun m => P m.id) d.memberships (d.applyAll ws).memberships := by
  show Table.AgreeOn (fun m => P m.id) d.memberships (engine.view d ws).memberships
  refine Engine.view_induction
    (P := fun (e : Directory) => Table.AgreeOn (fun m => P m.id) d.memberships e.memberships)
    (.refl _ _) ?_
  intro e w mem agree
  cases w with
  | membership row =>
      refine agree.trans (.upsert_left fun m holds same => apart row mem ?_)
      rw [← same]
      exact holds
  | _ => exact agree

theorem related_silicons {P : Silicon → Prop} (agree : Table.AgreeOn P x.silicons y.silicons) :
    Table.AgreeOn P (x.applyAll ws).silicons (y.applyAll ws).silicons := by
  show Table.AgreeOn P (engine.view x ws).silicons (engine.view y ws).silicons
  refine Engine.view_related
    (R := fun (e f : Directory) => Table.AgreeOn P e.silicons f.silicons) agree ?_
  intro e f w _ agree
  cases w with
  | silicon row => exact agree.upsert row
  | _ => exact agree

theorem related_memberships {P : Membership → Prop}
    (agree : Table.AgreeOn P x.memberships y.memberships) :
    Table.AgreeOn P (x.applyAll ws).memberships (y.applyAll ws).memberships := by
  show Table.AgreeOn P (engine.view x ws).memberships (engine.view y ws).memberships
  refine Engine.view_related
    (R := fun (e f : Directory) => Table.AgreeOn P e.memberships f.memberships) agree ?_
  intro e f w _ agree
  cases w with
  | membership row => exact agree.upsert row
  | _ => exact agree

/-! ## Quiet changes -/

/-- Every row is still there, with the columns that never change. -/
structure Extends (d y : Directory) : Prop where
  silicons : ∀ old ∈ d.silicons, ∃ row ∈ y.silicons, row.id = old.id ∧
    row.organization = old.organization ∧ row.membership = old.membership
  memberships : ∀ old ∈ d.memberships, ∃ row ∈ y.memberships, row.id = old.id ∧
    row.organization = old.organization ∧ row.principal = old.principal ∧ row.kind = old.kind

structure Quiet (organization : Nat) (held : List RowLock) (d y : Directory) : Prop where
  silicons : ∀ row ∈ y.silicons, row.organization = organization →
    (∃ old ∈ d.silicons, SameLink old row) ∨
      ((∀ old ∈ d.silicons, old.id ≠ row.id) ∧ row.reportsTo = none ∧
        .membership row.membership ∈ held)
  memberships : ∀ row ∈ y.memberships, row.organization = organization → row.kind = .silicon →
    (∃ old ∈ d.memberships, SameStanding old row) ∨
      ((∀ old ∈ d.memberships, old.id ≠ row.id) ∧ row.active = true)

theorem Extends.refl (d : Directory) : Extends d d :=
  ⟨fun old mem => ⟨old, mem, rfl, rfl, rfl⟩, fun old mem => ⟨old, mem, rfl, rfl, rfl, rfl⟩⟩

theorem Extends.trans (first : Extends d x) (second : Extends x z) : Extends d z where
  silicons := by
    intro old mem
    obtain ⟨middle, middleMem, id, org, membership⟩ := first.silicons old mem
    obtain ⟨row, rowMem, id', org', membership'⟩ := second.silicons middle middleMem
    exact ⟨row, rowMem, id'.trans id, org'.trans org, membership'.trans membership⟩
  memberships := by
    intro old mem
    obtain ⟨middle, middleMem, id, org, principal, kind⟩ := first.memberships old mem
    obtain ⟨row, rowMem, id', org', principal', kind'⟩ := second.memberships middle middleMem
    exact ⟨row, rowMem, id'.trans id, org'.trans org, principal'.trans principal, kind'.trans kind⟩

theorem Quiet.refl (d : Directory) : Quiet organization held d d :=
  ⟨fun row mem _ => .inl ⟨row, mem, .refl row⟩, fun row mem _ _ => .inl ⟨row, mem, .refl row⟩⟩

theorem Quiet.widen (quiet : Quiet organization held d y) (wider : ∀ k ∈ held, k ∈ more) :
    Quiet organization more d y where
  silicons := by
    intro row mem here
    rcases quiet.silicons row mem here with old | ⟨fresh, root, lock⟩
    · exact .inl old
    · exact .inr ⟨fresh, root, wider _ lock⟩
  memberships := quiet.memberships

theorem Quiet.trans (extends_ : Extends d x) (first : Quiet organization held d x)
    (second : Quiet organization held x z) : Quiet organization held d z where
  silicons := by
    intro row mem here
    rcases second.silicons row mem here with ⟨middle, middleMem, same⟩ | ⟨fresh, root, lock⟩
    · rcases first.silicons middle middleMem (same.organization.trans here) with
        ⟨old, oldMem, before⟩ | ⟨fresh, root, lock⟩
      · exact .inl ⟨old, oldMem, before.trans same⟩
      · rw [same.id] at fresh
        rw [same.reportsTo] at root
        rw [same.membership] at lock
        exact .inr ⟨fresh, root, lock⟩
    · refine .inr ⟨fun old oldMem sameId => ?_, root, lock⟩
      obtain ⟨middle, middleMem, id, -⟩ := extends_.silicons old oldMem
      exact fresh middle middleMem (id.trans sameId)
  memberships := by
    intro row mem here kind
    rcases second.memberships row mem here kind with ⟨middle, middleMem, same⟩ | ⟨fresh, active⟩
    · have middleKind := same.kind.trans kind
      rcases first.memberships middle middleMem (same.organization.trans here) middleKind with
        ⟨old, oldMem, before⟩ | ⟨fresh, active⟩
      · exact .inl ⟨old, oldMem, before.trans same⟩
      · rw [same.id] at fresh
        rw [same.active middleKind] at active
        exact .inr ⟨fresh, active⟩
    · refine .inr ⟨fun old oldMem sameId => ?_, active⟩
      obtain ⟨middle, middleMem, id, -⟩ := extends_.memberships old oldMem
      exact fresh middle middleMem (id.trans sameId)

/-- A quiet change keeps a tree, where the new Silicons have their memberships. -/
theorem Tree.quiet (tree : Tree x organization) (extends_ : Extends x z)
    (quiet : Quiet organization held x z)
    (seated : ∀ row ∈ z.silicons, row.organization = organization →
      (∀ old ∈ x.silicons, old.id ≠ row.id) → ∃ m ∈ z.memberships, Seats m row ∧ m.active = row.live) :
    Tree z organization where
  seat := by
    intro row mem here
    rcases quiet.silicons row mem here with ⟨old, oldMem, same⟩ | ⟨fresh, -⟩
    · obtain ⟨m, mMem, seats, active⟩ := tree.seat old oldMem (same.organization.trans here)
      obtain ⟨m', mMem', id, org, principal, kind⟩ := extends_.memberships m mMem
      have kind' := kind.trans seats.kind
      have here' : m'.organization = organization :=
        org.trans (seats.organization.trans (same.organization.trans here))
      refine ⟨m', mMem', ⟨id.trans (seats.id.trans same.membership),
        org.trans (seats.organization.trans same.organization),
        principal.trans (seats.principal.trans same.id), kind'⟩, ?_⟩
      rcases quiet.memberships m' mMem' here' kind' with ⟨old', oldMem', standing⟩ | ⟨fresh, -⟩
      · obtain rfl := Table.unique oldMem' mMem (standing.id.trans id)
        rw [← standing.active seats.kind, active, same.live]
      · exact absurd id.symm (fresh m mMem)
    · exact seated row mem here fresh
  vacant := by
    intro m mem here kind
    rcases quiet.memberships m mem here kind with ⟨old, oldMem, same⟩ | ⟨-, active⟩
    · have oldKind := same.kind.trans kind
      rcases tree.vacant old oldMem (same.organization.trans here) oldKind with active | ⟨s, sMem, at_⟩
      · exact .inl ((same.active oldKind).symm.trans active)
      · obtain ⟨row, rowMem, -, -, membership⟩ := extends_.silicons s sMem
        exact .inr ⟨row, rowMem, membership.trans (at_.trans same.id)⟩
    · exact .inl active
  manager := by
    intro row mem here p reports
    rcases quiet.silicons row mem here with ⟨old, oldMem, same⟩ | ⟨-, root, -⟩
    · obtain ⟨b, bMem, bHere, at_, live⟩ := tree.manager old oldMem (same.organization.trans here) p
        (same.reportsTo.trans reports)
      obtain ⟨b', bMem', id, org, membership⟩ := extends_.silicons b bMem
      refine ⟨b', bMem', org.trans bHere, membership.trans at_, fun rowLive => ?_⟩
      rcases quiet.silicons b' bMem' (org.trans bHere) with ⟨old', oldMem', link⟩ | ⟨fresh, -⟩
      · obtain rfl := Table.unique oldMem' bMem (link.id.trans id)
        rw [← link.live]
        exact live (same.live.trans rowLive)
      · exact absurd id.symm (fresh b bMem)
    · exact absurd (root.symm.trans reports) (by simp)
  acyclic := by
    refine tree.acyclic.mono fun a b link => ?_
    obtain ⟨row, mem, here, at_, reports⟩ := link
    rcases quiet.silicons row mem here with ⟨old, oldMem, same⟩ | ⟨-, root, -⟩
    · exact ⟨old, oldMem, same.organization.trans here, same.membership.trans at_,
        same.reportsTo.trans reports⟩
    · exact absurd (root.symm.trans reports) (by simp)

/-! ## Two transactions -/

/-- `z` has the rows of `x` where `P` holds of their lock, and those of `y` elsewhere;
`x` and `y` are `d` but for these. -/
structure Merged (P : RowLock → Prop) (d x y z : Directory) : Prop where
  siliconsOfX : Table.AgreeOn (fun s => P (.silicon s.id)) x.silicons z.silicons
  siliconsOfY : Table.AgreeOn (fun s => ¬ P (.silicon s.id)) y.silicons z.silicons
  siliconsOffX : Table.AgreeOn (fun s => ¬ P (.silicon s.id)) d.silicons x.silicons
  siliconsOffY : Table.AgreeOn (fun s => P (.silicon s.id)) d.silicons y.silicons
  membershipsOfX : Table.AgreeOn (fun m => P (.membership m.id)) x.memberships z.memberships
  membershipsOfY : Table.AgreeOn (fun m => ¬ P (.membership m.id)) y.memberships z.memberships
  membershipsOffX : Table.AgreeOn (fun m => ¬ P (.membership m.id)) d.memberships x.memberships
  membershipsOffY : Table.AgreeOn (fun m => P (.membership m.id)) d.memberships y.memberships

namespace Merged

variable {P : RowLock → Prop}

theorem symm (merged : Merged P d x y z) : Merged (fun k => ¬ P k) d y x z where
  siliconsOfX := merged.siliconsOfY
  siliconsOfY := fun s holds => merged.siliconsOfX s (not_not.mp holds)
  siliconsOffX := fun s holds => merged.siliconsOffY s (not_not.mp holds)
  siliconsOffY := merged.siliconsOffX
  membershipsOfX := merged.membershipsOfY
  membershipsOfY := fun m holds => merged.membershipsOfX m (not_not.mp holds)
  membershipsOffX := fun m holds => merged.membershipsOffY m (not_not.mp holds)
  membershipsOffY := merged.membershipsOffX

theorem extends_ (merged : Merged P d x y z) (base : Extends d x) : Extends y z where
  silicons := by
    intro old mem
    by_cases mine : P (.silicon old.id)
    · obtain ⟨row, rowMem, id, org, membership⟩ :=
        base.silicons old ((merged.siliconsOffY old mine).mpr mem)
      have rowMine : P (.silicon row.id) := id ▸ mine
      exact ⟨row, (merged.siliconsOfX row rowMine).mp rowMem, id, org, membership⟩
    · exact ⟨old, (merged.siliconsOfY old mine).mp mem, rfl, rfl, rfl⟩
  memberships := by
    intro old mem
    by_cases mine : P (.membership old.id)
    · obtain ⟨row, rowMem, id, same⟩ :=
        base.memberships old ((merged.membershipsOffY old mine).mpr mem)
      have rowMine : P (.membership row.id) := id ▸ mine
      exact ⟨row, (merged.membershipsOfX row rowMine).mp rowMem, id, same⟩
    · exact ⟨old, (merged.membershipsOfY old mine).mp mem, rfl, rfl, rfl, rfl⟩

theorem quiet (merged : Merged P d x y z) (base : Quiet organization held d x) :
    Quiet organization held y z where
  silicons := by
    intro row mem here
    by_cases mine : P (.silicon row.id)
    · rcases base.silicons row ((merged.siliconsOfX row mine).mpr mem) here with
        ⟨old, oldMem, same⟩ | ⟨fresh, root⟩
      · have oldMine : P (.silicon old.id) := same.id.symm ▸ mine
        exact .inl ⟨old, (merged.siliconsOffY old oldMine).mp oldMem, same⟩
      · refine .inr ⟨fun old oldMem same => ?_, root⟩
        have oldMine : P (.silicon old.id) := same.symm ▸ mine
        exact fresh old ((merged.siliconsOffY old oldMine).mpr oldMem) same
    · exact .inl ⟨row, (merged.siliconsOfY row mine).mpr mem, .refl row⟩
  memberships := by
    intro row mem here kind
    by_cases mine : P (.membership row.id)
    · rcases base.memberships row ((merged.membershipsOfX row mine).mpr mem) here kind with
        ⟨old, oldMem, same⟩ | ⟨fresh, active⟩
      · have oldMine : P (.membership old.id) := same.id.symm ▸ mine
        exact .inl ⟨old, (merged.membershipsOffY old oldMine).mp oldMem, same⟩
      · refine .inr ⟨fun old oldMem same => ?_, active⟩
        have oldMine : P (.membership old.id) := same.symm ▸ mine
        exact fresh old ((merged.membershipsOffY old oldMine).mpr oldMem) same
    · exact .inl ⟨row, (merged.membershipsOfY row mine).mpr mem, .refl row⟩

end Merged

/-- The quiet side on top of the other side. -/
theorem Tree.merged {P : RowLock → Prop} (merged : Merged P d x y z) (own : ∀ k ∈ held, P k)
    (base : Extends d x) (quiet : Quiet organization held d x) (treeX : Tree x organization)
    (treeY : Tree y organization) : Tree z organization := by
  refine treeY.quiet (merged.extends_ base) (merged.quiet quiet) fun row mem here fresh => ?_
  by_cases mine : P (.silicon row.id)
  · have rowMem := (merged.siliconsOfX row mine).mpr mem
    obtain ⟨m, mMem, seats, active⟩ := treeX.seat row rowMem here
    rcases quiet.silicons row rowMem here with ⟨old, oldMem, same⟩ | ⟨-, -, lock⟩
    · have oldMine : P (.silicon old.id) := same.id.symm ▸ mine
      exact absurd same.id (fresh old ((merged.siliconsOffY old oldMine).mp oldMem))
    · have seatMine : P (.membership m.id) := seats.id ▸ own _ lock
      exact ⟨m, (merged.membershipsOfX m seatMine).mp mMem, seats, active⟩
  · exact absurd rfl (fresh row ((merged.siliconsOfY row mine).mpr mem))

/-! ## Pending writes -/

structure Kept (d : Directory) (held : List RowLock) (ws : List Write) : Prop where
  locked : ∀ w ∈ ws, ∀ k ∈ w.locks, k ∈ held
  extends_ : Extends d (d.applyAll ws)
  quiet : ∀ organization, .hierarchy organization ∈ held ∨
    Quiet organization held d (d.applyAll ws)
  tree : Inv (d.applyAll ws)

namespace Kept

theorem nil (inv : Inv d) : Kept d held [] :=
  ⟨by simp, .refl d, fun _ => .inr (.refl d), inv⟩

theorem append (wider : ∀ k ∈ held, k ∈ more) (first : Kept d held ws)
    (second : Kept (d.applyAll ws) more later) : Kept d more (ws ++ later) where
  locked := by
    intro w mem k lock
    rcases List.mem_append.mp mem with before | after
    · exact wider k (first.locked w before k lock)
    · exact second.locked w after k lock
  extends_ := by
    rw [applyAll_append]
    exact first.extends_.trans second.extends_
  quiet := by
    intro organization
    rw [applyAll_append]
    rcases first.quiet organization with lock | before
    · exact .inl (wider _ lock)
    · rcases second.quiet organization with lock | after
      · exact .inl lock
      · exact .inr ((before.widen wider).trans first.extends_ after)
  tree := by
    rw [applyAll_append]
    exact second.tree

/-- The rows two transactions write are different ones. -/
theorem merged {other : List RowLock} {committed : List Write} (mine : Kept d held ws)
    (theirs : Kept d other committed) (apart : ∀ k ∈ held, k ∉ other) :
    Merged (· ∈ held) d (d.applyAll ws) (d.applyAll committed)
      ((d.applyAll committed).applyAll ws) where
  siliconsOfX := related_silicons (agree_silicons (P := fun i => .silicon i ∈ held)
    fun _ mem lock => apart _ lock (theirs.locked _ mem _ List.mem_cons_self))
  siliconsOfY := agree_silicons (P := fun i => .silicon i ∉ held)
    fun _ mem absent => absent (mine.locked _ mem _ List.mem_cons_self)
  siliconsOffX := agree_silicons (P := fun i => .silicon i ∉ held)
    fun _ mem absent => absent (mine.locked _ mem _ List.mem_cons_self)
  siliconsOffY := agree_silicons (P := fun i => .silicon i ∈ held)
    fun _ mem lock => apart _ lock (theirs.locked _ mem _ List.mem_cons_self)
  membershipsOfX := related_memberships (agree_memberships (P := fun i => .membership i ∈ held)
    fun _ mem lock => apart _ lock (theirs.locked _ mem _ List.mem_cons_self))
  membershipsOfY := agree_memberships (P := fun i => .membership i ∉ held)
    fun _ mem absent => absent (mine.locked _ mem _ List.mem_cons_self)
  membershipsOffX := agree_memberships (P := fun i => .membership i ∉ held)
    fun _ mem absent => absent (mine.locked _ mem _ List.mem_cons_self)
  membershipsOffY := agree_memberships (P := fun i => .membership i ∈ held)
    fun _ mem lock => apart _ lock (theirs.locked _ mem _ List.mem_cons_self)

theorem stable {other : List RowLock} {committed : List Write} (mine : Kept d held ws)
    (theirs : Kept d other committed) (apart : ∀ k ∈ held, k ∉ other) :
    Kept (d.applyAll committed) held ws where
  locked := mine.locked
  extends_ := (mine.merged theirs apart).extends_ mine.extends_
  quiet := by
    intro organization
    rcases mine.quiet organization with lock | quiet
    · exact .inl lock
    · exact .inr ((mine.merged theirs apart).quiet quiet)
  tree := by
    intro organization
    have merged := mine.merged theirs apart
    rcases mine.quiet organization with lock | quiet
    · -- This transaction holds the hierarchy, so the other one is quiet.
      have quiet := (theirs.quiet organization).resolve_left (apart _ lock)
      exact Tree.merged merged.symm (fun k theirLock lock => apart k lock theirLock)
        theirs.extends_ quiet (theirs.tree organization) (mine.tree organization)
    · exact Tree.merged merged (fun _ lock => lock) mine.extends_ quiet (mine.tree organization)
        (theirs.tree organization)

end Kept

theorem discipline : Discipline engine Inv Kept where
  nil := fun _ _ inv => .nil inv
  append := fun _ _ _ _ _ _ wider first second => first.append wider second
  commit := fun _ _ _ _ kept => kept.tree
  stable := by
    intro d held ws other committed _ mine theirs compatible
    refine mine.stable theirs fun k lock otherLock => ?_
    have := compatible k lock k otherLock
    simp [engine, RowLock.excludes] at this

end SiliconIam.Organizations.Hierarchy
