/-
# Organizations.PatchAnnouncements -- a patch announces what it changes

`Patched` is the effect of a Silicon patch and of a member patch about a Silicon:
the target's row is written, the Silicons of the locked subtree whose depth has
changed get the next version, and so do the memberships of both.  A Silicon outside
the subtree keeps its depth, because no walk from it leads to the target.
-/
import SiliconIam.Organizations.Announcements

namespace SiliconIam.Organizations.Hierarchy

open SiliconIam.Theory
open SiliconIam.Organizations.Roles (Membership)

set_option autoImplicit false

variable {d y : Directory} {organization : Nat} {s t t₁ : Silicon} {m : Membership} {n k : Nat}
variable {changed : List Nat}

/-! ## Views and rows -/

theorem shown_level (same : s.shown n = s.shown k) : n = k :=
  congrArg SiliconResponse.hierarchyLevel same

theorem seats_bump {row : Silicon} (seats : Seats m s) (id : row.id = s.id)
    (organization : row.organization = s.organization) (membership : row.membership = s.membership) :
    Seats m row :=
  ⟨seats.id.trans membership.symm, seats.organization.trans organization.symm,
    seats.principal.trans id.symm, seats.kind⟩

theorem Seats.bump (seats : Seats m s) : Seats m.bump s :=
  ⟨seats.id, seats.organization, seats.principal, seats.kind⟩

structure Patched (d y : Directory) (t t₁ : Silicon) (changed : List Nat) : Prop where
  inv : Inv y
  mem : t ∈ d.silicons
  live : t.live = true
  id : t₁.id = t.id
  organization : t₁.organization = t.organization
  membership : t₁.membership = t.membership
  stillLive : t₁.live = true
  version : t₁.version = t.version + 1
  differs : ∀ n k, t₁.shown k ≠ t.shown n
  silicons : ∀ row, row ∈ y.silicons ↔ ∃ s ∈ d.silicons, row =
    if s.id = t.id then t₁ else if touchedSilicon t.organization changed s then s.bump else s
  memberships : ∀ row, row ∈ y.memberships ↔ ∃ m ∈ d.memberships,
    row = if touchedMembership t.organization changed m then m.bump else m
  settings : y.settings = d.settings
  access : y.access = d.access
  target : t.membership ∈ changed
  alive : ∀ id ∈ changed, ∃ s ∈ d.silicons, s.organization = t.organization ∧ s.membership = id ∧
    s.live = true
  others : ∀ s ∈ d.silicons, s.organization = t.organization → s.live = true → s.id ≠ t.id →
    (s.membership ∈ changed ↔ ∃ n k, d.Depth t.organization s.membership n ∧
      y.Depth t.organization s.membership k ∧ n ≠ k)

/-- The row after the patch. -/
def patchedRow (t t₁ : Silicon) (changed : List Nat) (s : Silicon) : Silicon :=
  if s.id = t.id then t₁ else if touchedSilicon t.organization changed s then s.bump else s

def patchedMember (t : Silicon) (changed : List Nat) (m : Membership) : Membership :=
  if touchedMembership t.organization changed m then m.bump else m

namespace Patched

variable (patched : Patched d y t t₁ changed)
include patched

theorem row_mem (mem : s ∈ d.silicons) : patchedRow t t₁ changed s ∈ y.silicons :=
  (patched.silicons _).mpr ⟨s, mem, rfl⟩

theorem row_identity (mem : s ∈ d.silicons) :
    (patchedRow t t₁ changed s).id = s.id ∧
      (patchedRow t t₁ changed s).organization = s.organization ∧
      (patchedRow t t₁ changed s).membership = s.membership ∧
      (patchedRow t t₁ changed s).live = s.live := by
  rw [patchedRow]
  split
  · rename_i same
    obtain rfl := Table.unique mem patched.mem same
    exact ⟨patched.id, patched.organization, patched.membership,
      patched.stillLive.trans patched.live.symm⟩
  · split
    · exact ⟨rfl, rfl, rfl, rfl⟩
    · exact ⟨rfl, rfl, rfl, rfl⟩

/-- Other organizations keep their links. -/
theorem depth_elsewhere (elsewhere : organization ≠ t.organization) {a : Nat} :
    d.Depth organization a n ↔ y.Depth organization a n := by
  have same : d.LinkOf organization (fun _ => true) = y.LinkOf organization fun _ => true := by
    funext a b
    apply propext
    constructor
    · rintro ⟨s, mem, rfl, reports⟩
      obtain ⟨sMem, here⟩ := mem_all.mp mem
      have other : s.id ≠ t.id := fun same => elsewhere (by
        rw [← here, Table.unique sMem patched.mem same])
      have kept : patchedRow t t₁ changed s = s := by
        have apart : touchedSilicon t.organization changed s = false := by
          simp [touchedSilicon, here, elsewhere]
        rw [patchedRow, if_neg other, apart]
        rfl
      have rowMem := patched.row_mem sMem
      rw [kept] at rowMem
      exact ⟨s, mem_all.mpr ⟨rowMem, here⟩, rfl, reports⟩
    · rintro ⟨row, mem, rfl, reports⟩
      obtain ⟨rowMem, here⟩ := mem_all.mp mem
      obtain ⟨s, sMem, rfl⟩ := (patched.silicons row).mp rowMem
      have identity := patched.row_identity sMem
      have sHere := identity.2.1.symm.trans here
      have other : s.id ≠ t.id := fun same => elsewhere (by
        rw [← sHere, Table.unique sMem patched.mem same])
      have apart : touchedSilicon t.organization changed s = false := by
        simp [touchedSilicon, sHere, elsewhere]
      rw [if_neg other, apart] at reports ⊢
      exact ⟨s, mem_all.mpr ⟨sMem, sHere⟩, rfl, reports⟩
  rw [Directory.Depth, Directory.Depth, same]

/-- A Silicon whose projection has changed is one of the changed, and no other is. -/
theorem silicon_cases (wf : d.WellFormed) (mem : s ∈ d.silicons)
    (before : d.Depth s.organization s.membership n) (after : y.Depth s.organization s.membership k) :
    (s.organization = t.organization ∧ s.live = true ∧ s.membership ∈ changed ∧
        (patchedRow t t₁ changed s).shown k ≠ s.shown n ∧
        (patchedRow t t₁ changed s).version = s.version + 1) ∨
      (¬ (s.organization = t.organization ∧ s.live = true ∧ s.membership ∈ changed) ∧
        patchedRow t t₁ changed s = s ∧ (s.live = true → n = k)) := by
  by_cases target : s.id = t.id
  · obtain rfl := Table.unique mem patched.mem target
    refine .inl ⟨rfl, patched.live, patched.target, ?_⟩
    rw [patchedRow, if_pos rfl]
    exact ⟨patched.differs n k, patched.version⟩
  by_cases here : s.organization = t.organization
  · by_cases live : s.live = true
    · rw [here] at before after
      have moved := patched.others s mem here live target
      by_cases listed : s.membership ∈ changed
      · obtain ⟨n', k', before', after', differ⟩ := moved.mp listed
        obtain rfl := (wf.tree t.organization).level_unique before before'
        obtain rfl := (patched.inv t.organization).level_unique after after'
        have touched : touchedSilicon t.organization changed s = true := by
          simp [touchedSilicon, here, live, listed]
        refine .inl ⟨here, live, listed, ?_⟩
        rw [patchedRow, if_neg target, if_pos touched]
        exact ⟨fun same => differ (shown_level same).symm, rfl⟩
      · have untouched : ¬ touchedSilicon t.organization changed s = true := by
          simp [touchedSilicon, listed]
        refine .inr ⟨fun all => listed all.2.2, ?_, fun _ => ?_⟩
        · rw [patchedRow, if_neg target, if_neg untouched]
        · by_contra differ
          exact listed (moved.mpr ⟨n, k, before, after, differ⟩)
    · have untouched : ¬ touchedSilicon t.organization changed s = true := by
        simp [touchedSilicon, live]
      refine .inr ⟨fun all => live all.2.1, ?_, fun holds => absurd holds live⟩
      rw [patchedRow, if_neg target, if_neg untouched]
  · have untouched : ¬ touchedSilicon t.organization changed s = true := by
      simp [touchedSilicon, here]
    refine .inr ⟨fun all => here all.1, ?_, fun _ => ?_⟩
    · rw [patchedRow, if_neg target, if_neg untouched]
    · exact (patched.inv s.organization).level_unique ((patched.depth_elsewhere here).mp before) after

/-- Every Silicon's projection before and after. -/
theorem silicon_views (wf : d.WellFormed) (mem : s ∈ d.silicons) :
    ∃ n k, d.Depth s.organization s.membership n ∧ y.Depth s.organization s.membership k ∧
      d.siliconView s = some (s.shown n) ∧
      y.siliconView (patchedRow t t₁ changed s) = some ((patchedRow t t₁ changed s).shown k) := by
  obtain ⟨-, here, membership, -⟩ := patched.row_identity mem
  obtain ⟨n, before⟩ := (wf.tree s.organization).depth_exists mem rfl
  obtain ⟨k, after⟩ := (patched.inv s.organization).depth_exists (patched.row_mem mem) here
  rw [membership] at after
  refine ⟨n, k, before, after, (wf.tree s.organization).siliconView_eq mem before, ?_⟩
  have tree : Tree y (patchedRow t t₁ changed s).organization := patched.inv _
  refine tree.siliconView_eq (patched.row_mem mem) ?_
  rw [here, membership]
  exact after

theorem memberShown_patched (m : Membership) (extra : List Nat) (reportsTo level : Option Nat) :
    y.memberShown (patchedMember t changed m) extra reportsTo level =
      d.memberShown m extra reportsTo level := by
  rw [patchedMember]
  split <;> simp [Directory.memberShown, Directory.settingsOf, patched.settings, Roles.Membership.bump,
    Roles.Membership.active]

theorem untouched_member (wf : d.WellFormed) (mem : m ∈ d.memberships)
    (none : ∀ s ∈ d.silicons, Seats m s →
      ¬ (s.organization = t.organization ∧ s.live = true ∧ s.membership ∈ changed)) :
    m.id ∉ changed := by
  intro listed
  obtain ⟨s, sMem, here, at_, live⟩ := patched.alive m.id listed
  obtain ⟨seat, seatMem, seats, -⟩ := wf.tree t.organization |>.seat s sMem here
  obtain rfl := Table.unique seatMem mem (seats.id.trans at_)
  exact none s sMem seats ⟨here, live, at_ ▸ listed⟩

/-- A membership whose projection has changed is one of the changed, and no other is. -/
theorem member_cases (wf : d.WellFormed) (mem : m ∈ d.memberships) :
    (m.organization = t.organization ∧ m.active = true ∧ m.id ∈ changed ∧
        y.memberView (patchedMember t changed m) ≠ d.memberView m) ∨
      ((m.active = true → y.memberView (patchedMember t changed m) = d.memberView m) ∧
        m.id ∉ changed) := by
  have fields : ∀ {kind}, m.kind = kind → (patchedMember t changed m).kind = kind ∧
      (patchedMember t changed m).principal = m.principal := by
    intro kind same
    rw [patchedMember]
    split <;> exact ⟨same, rfl⟩
  cases kind : m.kind with
  | carbon =>
      refine .inr ⟨fun _ => ?_, patched.untouched_member wf mem fun s _ seats => ?_⟩
      · have extra : y.extraOf (patchedMember t changed m) = d.extraOf m := by
          rw [patchedMember]
          split <;> simp [Directory.extraOf, patched.access, Roles.Membership.bump]
        rw [memberView_carbon kind, memberView_carbon (fields kind).1, patched.memberShown_patched, extra]
      · exact absurd (kind.symm.trans seats.kind) (by decide)
  | silicon =>
      by_cases seated : ∃ s ∈ d.silicons, s.id = m.principal
      · obtain ⟨s, sMem, principal⟩ := seated
        have seats := wf.home m mem kind s sMem principal
        obtain ⟨seat, seatMem, seatSeats, active⟩ := wf.tree s.organization |>.seat s sMem rfl
        obtain rfl := Table.unique seatMem mem (seatSeats.id.trans seats.id.symm)
        obtain ⟨n, k, before, after, -, -⟩ := patched.silicon_views wf sMem
        obtain ⟨id, here, membership, -⟩ := patched.row_identity sMem
        have seatsAfter : Seats (patchedMember t changed seat) (patchedRow t t₁ changed s) := by
          have seats := seats_bump seats id here membership
          rw [patchedMember]
          split
          · exact seats.bump
          · exact seats
        have tree : Tree y (patchedRow t t₁ changed s).organization := patched.inv _
        have viewed := (wf.tree s.organization).memberView_silicon sMem seats before
        have viewedAfter := tree.memberView_silicon (patched.row_mem sMem) seatsAfter
          (by rw [here, membership]; exact after)
        rw [viewed, viewedAfter, patched.memberShown_patched]
        rcases patched.silicon_cases wf sMem before after with
          ⟨org, live, listed, differ, -⟩ | ⟨apart, same, level⟩
        · refine .inl ⟨seats.organization.trans org, active.trans live, seats.id ▸ listed, fun equal => ?_⟩
          exact differ (Option.some.inj (Prod.mk.inj (Option.some.inj equal)).2)
        · refine .inr ⟨fun holds => ?_, patched.untouched_member wf mem fun other otherMem others => ?_⟩
          · rw [same, level (active.symm.trans holds)]
          · rwa [Table.unique otherMem sMem (others.principal.symm.trans seats.principal)]
      · have vacant : ∀ s ∈ d.silicons, s.id ≠ m.principal := fun s sMem same => seated ⟨s, sMem, same⟩
        have vacantAfter : ∀ row ∈ y.silicons, row.id ≠ (patchedMember t changed m).principal := by
          intro row rowMem
          obtain ⟨s, sMem, rfl⟩ := (patched.silicons row).mp rowMem
          have identity := patched.row_identity sMem
          rw [patchedRow] at identity
          rw [identity.1, (fields kind).2]
          exact vacant s sMem
        refine .inr ⟨fun _ => ?_, patched.untouched_member wf mem fun s sMem seats => ?_⟩
        · rw [memberView_vacant kind vacant, memberView_vacant (fields kind).1 vacantAfter,
            patched.memberShown_patched]
        · exact absurd seats.principal.symm (vacant s sMem)

/-- With the two events of every changed Silicon the patch announces what it changes. -/
theorem announcedBy (wf : d.WellFormed) {events : List OutboxEvent}
    (outbox : y.outbox = d.outbox ++ events)
    (silicons : ∀ s ∈ y.silicons, versionsOf events .silicon s.id =
      if s.membership ∈ changed ∧ s.organization = t.organization then [s.version] else [])
    (memberships : ∀ m ∈ y.memberships, versionsOf events .organizationMembership m.id =
      if m.id ∈ changed ∧ m.organization = t.organization then [m.version] else []) :
    AnnouncedBy events none d y where
  outbox := outbox
  silicons := by
    intro s mem _
    obtain ⟨n, k, before, after, viewed, viewedAfter⟩ := patched.silicon_views wf mem
    obtain ⟨id, here, membership, live⟩ := patched.row_identity mem
    have announced := silicons _ (patched.row_mem mem)
    rw [id, here, membership] at announced
    refine ⟨_, patched.row_mem mem, id, live, ?_⟩
    rw [viewed, viewedAfter, announced]
    rcases patched.silicon_cases wf mem before after with
      ⟨org, alive, listed, differ, version⟩ | ⟨apart, same, level⟩
    · rw [if_pos ⟨listed, org⟩]
      refine ⟨fun _ => ⟨version, rfl⟩, fun unchanged => absurd ⟨alive, fun equal => ?_⟩ unchanged⟩
      exact differ (Option.some.inj equal)
    · rw [same]
      have unlisted : ¬ (s.membership ∈ changed ∧ s.organization = t.organization) := by
        rintro ⟨listed, org⟩
        obtain ⟨other, otherMem, otherHere, at_, alive⟩ := patched.alive s.membership listed
        obtain rfl := (wf.tree t.organization).unique otherMem otherHere mem org at_
        exact apart ⟨org, alive, listed⟩
      rw [if_neg unlisted]
      refine ⟨fun ⟨alive, differ⟩ => absurd ?_ differ, fun _ => ⟨rfl, rfl⟩⟩
      rw [level alive]
  memberships := by
    intro m mem _
    have rowMem : patchedMember t changed m ∈ y.memberships :=
      (patched.memberships _).mpr ⟨m, mem, rfl⟩
    have identity : (patchedMember t changed m).id = m.id ∧
        (patchedMember t changed m).organization = m.organization ∧
        (patchedMember t changed m).active = m.active := by
      rw [patchedMember]
      split <;> exact ⟨rfl, rfl, rfl⟩
    have announced := memberships _ rowMem
    rw [identity.1, identity.2.1] at announced
    refine ⟨_, rowMem, identity.1, identity.2.2, ?_⟩
    rw [announced]
    rcases patched.member_cases wf mem with ⟨org, active, listed, differ⟩ | ⟨same, unlisted⟩
    · have touched : touchedMembership t.organization changed m = true := by
        simp [touchedMembership, org, active, listed]
      rw [if_pos ⟨listed, org⟩]
      refine ⟨fun _ => ⟨?_, rfl⟩, fun unchanged => absurd ⟨active, differ⟩ unchanged⟩
      rw [patchedMember, if_pos touched]
      rfl
    · have untouched : ¬ touchedMembership t.organization changed m = true := by
        simp [touchedMembership, unlisted]
      have kept : patchedMember t changed m = m := by rw [patchedMember, if_neg untouched]
      rw [if_neg fun both => unlisted both.1]
      refine ⟨fun ⟨active, differ⟩ => absurd (same active) differ, fun _ => ⟨?_, rfl⟩⟩
      rw [kept]

theorem lockedBy (wf : d.WellFormed) {locks : List RowLock}
    (silicons : ∀ s ∈ d.silicons, s.organization = t.organization → s.membership ∈ changed →
      .silicon s.id ∈ locks)
    (memberships : ∀ id ∈ changed, .membership id ∈ locks) : LockedBy locks none d y where
  silicons := by
    intro s mem _ live row rowMem id differ
    obtain ⟨n, k, before, after, viewed, viewedAfter⟩ := patched.silicon_views wf mem
    obtain rfl := Table.unique rowMem (patched.row_mem mem)
      (id.trans (patched.row_identity mem).1.symm)
    rcases patched.silicon_cases wf mem before after with
      ⟨org, -, listed, -, -⟩ | ⟨-, same, level⟩
    · exact silicons s mem org listed
    · rw [viewed, viewedAfter, same, level live] at differ
      exact absurd rfl differ
  memberships := by
    intro m mem _ active row rowMem id differ
    have memAfter : patchedMember t changed m ∈ y.memberships :=
      (patched.memberships _).mpr ⟨m, mem, rfl⟩
    have sameId : (patchedMember t changed m).id = m.id := by
      rw [patchedMember]
      split <;> rfl
    obtain rfl := Table.unique rowMem memAfter (id.trans sameId.symm)
    rcases patched.member_cases wf mem with ⟨-, -, listed, -⟩ | ⟨same, -⟩
    · exact memberships m.id listed
    · exact absurd (same active) differ

end Patched

end SiliconIam.Organizations.Hierarchy
