/-
# Organizations.ReportingWrites -- every statement keeps the reporting links a tree

One lemma for each kind of write: rows written back with their link (`touches`),
a new membership, a Silicon whose link the trigger has admitted (`link`), and the
removed Silicon with its membership (`retire`).  The trigger's answer is about the
way up by `UNION`, which contains everything a walk along the links reaches
(`ancestors_complete`).  From these, the statements of every request are safe.
-/
import SiliconIam.Organizations.ReportingTree

namespace SiliconIam.Organizations.Hierarchy

open SiliconIam.Theory SiliconIam.Theory.Forest
open SiliconIam.Organizations.Roles (Membership)
open Relation

set_option autoImplicit false

variable {d : Directory} {organization : Nat} {held : List RowLock} {ws : List Write}

/-! ## Rows written back -/

/-- The write is another version of a row, with its link or its standing. -/
def Touches (d : Directory) : Write → Prop
  | .silicon row => ∃ old ∈ d.silicons, SameLink old row
  | .membership row => ∃ old ∈ d.memberships, SameStanding old row
  | _ => True

theorem Touches.apply {w other : Write} (touches : Touches d w) (written : Touches d other) :
    Touches (d.apply other) w := by
  cases w with
  | silicon row =>
      obtain ⟨old, oldMem, same⟩ := touches
      cases other with
      | silicon row' =>
          obtain ⟨old', oldMem', same'⟩ := written
          by_cases here : old.id = row'.id
          · obtain rfl := Table.unique oldMem oldMem' (here.trans same'.id.symm)
            exact ⟨row', Table.mem_upsert.mpr (.inl rfl), same'.symm.trans same⟩
          · exact ⟨old, Table.mem_upsert.mpr (.inr ⟨oldMem, here⟩), same⟩
      | _ => exact ⟨old, oldMem, same⟩
  | membership row =>
      obtain ⟨old, oldMem, same⟩ := touches
      cases other with
      | membership row' =>
          obtain ⟨old', oldMem', same'⟩ := written
          by_cases here : old.id = row'.id
          · obtain rfl := Table.unique oldMem oldMem' (here.trans same'.id.symm)
            exact ⟨row', Table.mem_upsert.mpr (.inl rfl), same'.symm.trans same⟩
          · exact ⟨old, Table.mem_upsert.mpr (.inr ⟨oldMem, here⟩), same⟩
      | _ => exact ⟨old, oldMem, same⟩
  | _ => trivial

/-- Rows of `d`, with one of them under a new version or one more. -/
theorem extends_apply {w : Write}
    (silicon : ∀ row, w = .silicon row → ∀ old ∈ d.silicons, old.id = row.id →
      old.organization = row.organization ∧ old.membership = row.membership)
    (membership : ∀ row, w = .membership row → ∀ old ∈ d.memberships, old.id = row.id →
      old.organization = row.organization ∧ old.principal = row.principal ∧ old.kind = row.kind) :
    Extends d (d.apply w) where
  silicons := by
    intro old mem
    cases w with
    | silicon row =>
        by_cases here : old.id = row.id
        · obtain ⟨org, at_⟩ := silicon row rfl old mem here
          exact ⟨row, Table.mem_upsert.mpr (.inl rfl), here.symm, org.symm, at_.symm⟩
        · exact ⟨old, Table.mem_upsert.mpr (.inr ⟨mem, here⟩), rfl, rfl, rfl⟩
    | _ => exact ⟨old, mem, rfl, rfl, rfl⟩
  memberships := by
    intro old mem
    cases w with
    | membership row =>
        by_cases here : old.id = row.id
        · obtain ⟨org, principal, kind⟩ := membership row rfl old mem here
          exact ⟨row, Table.mem_upsert.mpr (.inl rfl), here.symm, org.symm, principal.symm, kind.symm⟩
        · exact ⟨old, Table.mem_upsert.mpr (.inr ⟨mem, here⟩), rfl, rfl, rfl, rfl⟩
    | _ => exact ⟨old, mem, rfl, rfl, rfl, rfl⟩

theorem Touches.extends_ {w : Write} (touches : Touches d w) : Extends d (d.apply w) := by
  refine extends_apply (fun row same old mem here => ?_) fun row same old mem here => ?_
  · subst same
    obtain ⟨old', mem', link⟩ := touches
    obtain rfl := Table.unique mem mem' (here.trans link.id.symm)
    exact ⟨link.organization, link.membership⟩
  · subst same
    obtain ⟨old', mem', standing⟩ := touches
    obtain rfl := Table.unique mem mem' (here.trans standing.id.symm)
    exact ⟨standing.organization, standing.principal, standing.kind⟩

theorem Touches.quiet {w : Write} (touches : Touches d w) : Quiet organization held d (d.apply w) where
  silicons := by
    intro row mem here
    cases w with
    | silicon written =>
        rcases Table.mem_upsert.mp mem with rfl | ⟨old, -⟩
        · exact .inl touches
        · exact .inl ⟨row, old, .refl row⟩
    | _ => exact .inl ⟨row, mem, .refl row⟩
  memberships := by
    intro row mem here kind
    cases w with
    | membership written =>
        rcases Table.mem_upsert.mp mem with rfl | ⟨old, -⟩
        · exact .inl touches
        · exact .inl ⟨row, old, .refl row⟩
    | _ => exact .inl ⟨row, mem, .refl row⟩

namespace Kept

/-- A quiet write without a new Silicon. -/
theorem single {w : Write} (inv : Inv d) (locked : ∀ k ∈ w.locks, k ∈ held)
    (extends_ : Extends d (d.apply w)) (quiet : ∀ organization, Quiet organization held d (d.apply w))
    (old : ∀ row ∈ (d.apply w).silicons, ∃ old ∈ d.silicons, old.id = row.id) :
    Kept d held [w] where
  locked := by
    intro other mem
    rw [List.mem_singleton.mp mem]
    exact locked
  extends_ := extends_
  quiet := fun organization => .inr (quiet organization)
  tree := by
    intro organization
    refine (inv organization).quiet extends_ (quiet organization) fun row mem _ fresh => ?_
    obtain ⟨old, oldMem, same⟩ := old row mem
    exact absurd same (fresh old oldMem)

theorem touches (inv : Inv d) (locked : ∀ w ∈ ws, ∀ k ∈ w.locks, k ∈ held)
    (touches : ∀ w ∈ ws, Touches d w) : Kept d held ws := by
  induction ws generalizing d with
  | nil => exact .nil inv
  | cons w rest ih =>
      have first : Touches d w := touches w List.mem_cons_self
      have written : Kept d held [w] := by
        refine .single inv (locked w List.mem_cons_self) first.extends_ (fun _ => first.quiet) ?_
        intro row mem
        cases w with
        | silicon row' =>
            rcases Table.mem_upsert.mp mem with rfl | ⟨old, -⟩
            · obtain ⟨old, oldMem, same⟩ := first
              exact ⟨old, oldMem, same.id⟩
            · exact ⟨row, old, rfl⟩
        | _ => exact ⟨row, mem, rfl⟩
      refine written.append (fun _ lock => lock) (ih written.tree ?_ ?_)
      · exact fun other mem => locked other (List.mem_cons_of_mem w mem)
      · exact fun other mem => (touches other (List.mem_cons_of_mem w mem)).apply first

/-- A membership under a new id. -/
theorem newMembership {row : Membership} (inv : Inv d) (locked : .membership row.id ∈ held)
    (fresh : ∀ old ∈ d.memberships, old.id ≠ row.id) (active : row.active = true) :
    Kept d held [.membership row] := by
  refine .single inv (by simpa [Write.locks] using locked) ?_ (fun organization => ?_)
    fun s mem => ⟨s, mem, rfl⟩
  · refine extends_apply (fun _ same => by simp at same) fun _ same old mem here => ?_
    obtain rfl := Write.membership.inj same
    exact absurd here (fresh old mem)
  · refine ⟨fun s mem _ => .inl ⟨s, mem, .refl s⟩, fun m mem _ _ => ?_⟩
    rcases Table.mem_upsert.mp mem with rfl | ⟨old, -⟩
    · exact .inr ⟨fresh, active⟩
    · exact .inl ⟨m, old, .refl m⟩

end Kept

/-! ## The trigger -/

theorem mem_managers {keep : Silicon → Bool} {reportsTo : Option Nat} {s : Silicon} :
    s ∈ d.managers organization keep reportsTo ↔
      s ∈ d.silicons ∧ s.organization = organization ∧ keep s = true ∧
        some s.membership = reportsTo := by
  simp only [Directory.managers, Directory.siliconsOf, List.mem_filter, Bool.and_eq_true, beq_iff_eq,
    Table.mem_rows]
  tauto

/-- The way up by `UNION` contains every Silicon that a walk reaches. -/
theorem ancestors_complete {manager above : Nat} {rows : List (Nat × Option Nat)}
    (ran : d.ancestors organization manager = some rows)
    (walk : ReflTransGen (d.Link organization) manager above) :
    ∀ s ∈ d.silicons, s.organization = organization → s.membership = above →
      (s.membership, s.reportsTo) ∈ rows := by
  obtain ⟨started, closed⟩ := union_closed ran (by simp)
  induction walk with
  | refl =>
      intro s mem here at_
      refine started _ ?_
      exact List.mem_map.mpr ⟨s, mem_managers.mpr ⟨mem, here, rfl, by rw [at_]⟩, rfl⟩
  | tail _ last ih =>
      obtain ⟨report, reportMem, reportHere, rfl, reports⟩ := last
      intro s mem here at_
      refine closed _ (ih report reportMem reportHere rfl) _ ?_
      exact List.mem_map.mpr ⟨s, mem_managers.mpr ⟨mem, here, rfl, by rw [at_, reports]⟩, rfl⟩

/-- What an admitted link says. -/
theorem admitsLink_spec {row : Silicon} {manager : Nat} (tree : Tree d row.organization)
    (admitted : d.admitsLink row = true) (reports : row.reportsTo = some manager) :
    manager ≠ row.membership ∧
      (∃ b ∈ d.silicons, b.organization = row.organization ∧ b.membership = manager ∧ b.live = true) ∧
      ¬ ReflTransGen (d.Link row.organization) manager row.membership := by
  rw [Directory.admitsLink, reports] at admitted
  simp only [Bool.and_eq_true, bne_iff_ne] at admitted
  obtain ⟨⟨⟨differs, referred⟩, active⟩, apart⟩ := admitted
  obtain ⟨b, bMem, bHere⟩ := Table.any_spec referred
  obtain ⟨m, mMem, mHere⟩ := Table.any_spec active
  simp only [Bool.and_eq_true, beq_iff_eq] at bHere mHere
  refine ⟨differs, ⟨b, bMem, bHere.1, bHere.2, ?_⟩, fun walk => ?_⟩
  · obtain ⟨m', mMem', seats, live⟩ := tree.seat b bMem bHere.1
    obtain rfl := Table.unique mMem mMem' (mHere.1.1.2.trans (bHere.2.symm.trans seats.id.symm))
    rw [← live]
    exact mHere.2
  · cases ran : d.ancestors row.organization manager with
    | none => simp [ran] at apart
    | some rows =>
        rw [ran] at apart
        rcases ReflTransGen.cases_tail walk with same | ⟨below, -, last⟩
        · exact differs same.symm
        · -- The walk ends at a Silicon, and that one is among the rows.
          obtain ⟨report, reportMem, reportHere, -, reports'⟩ := last
          obtain ⟨s, sMem, sHere, at_, -⟩ := tree.manager report reportMem reportHere _ reports'
          have listed := ancestors_complete ran walk s sMem sHere at_
          have := List.all_eq_true.mp apart _ listed
          simp [at_] at this

namespace Kept

/-- A Silicon whose link has been admitted: a new version of a row, or a new row. -/
theorem link {row : Silicon} (inv : Inv d) (locked : .silicon row.id ∈ held)
    (admitted : d.admitsLink row = true)
    (row_ : (∃ old ∈ d.silicons, old.id = row.id ∧ old.organization = row.organization ∧
        old.membership = row.membership ∧ old.live = row.live ∧
        (.hierarchy row.organization ∈ held ∨ old.reportsTo = row.reportsTo)) ∨
      ((∀ old ∈ d.silicons, old.id ≠ row.id) ∧ row.live = true ∧ (∃ m ∈ d.memberships, Seats m row) ∧
        .membership row.membership ∈ held ∧
        (.hierarchy row.organization ∈ held ∨ row.reportsTo = none))) :
    Kept d held [.silicon row] where
  locked := by
    intro w mem
    rw [List.mem_singleton.mp mem]
    simpa [Write.locks] using locked
  extends_ := by
    show Extends d (d.apply (.silicon row))
    refine extends_apply (fun _ same old mem here => ?_) fun _ same => by simp at same
    obtain rfl := Write.silicon.inj same
    rcases row_ with ⟨old', mem', id, org, at_, -⟩ | ⟨fresh, -⟩
    · obtain rfl := Table.unique mem mem' (here.trans id.symm)
      exact ⟨org, at_⟩
    · exact absurd here (fresh old mem)
  quiet := by
    intro organization
    by_cases here : row.organization = organization
    · rcases row_ with ⟨old, mem, id, org, at_, live, lock | reports⟩ |
        ⟨fresh, live, seat, seatLock, lock | root⟩
      · exact .inl (here ▸ lock)
      · have same : SameLink old row := ⟨id, org, at_, reports, live⟩
        exact .inr (Touches.quiet (w := .silicon row) ⟨old, mem, same⟩)
      · exact .inl (here ▸ lock)
      · refine .inr ⟨fun s mem _ => ?_, fun m mem _ _ => .inl ⟨m, mem, .refl m⟩⟩
        rcases Table.mem_upsert.mp mem with rfl | ⟨old, -⟩
        · exact .inr ⟨fresh, root, seatLock⟩
        · exact .inl ⟨s, old, .refl s⟩
    · refine .inr ⟨fun s mem sHere => ?_, fun m mem _ _ => .inl ⟨m, mem, .refl m⟩⟩
      rcases Table.mem_upsert.mp mem with rfl | ⟨old, -⟩
      · exact absurd sHere here
      · exact .inl ⟨s, old, .refl s⟩
  tree := by
    intro organization
    have tree := inv organization
    have rows : ∀ s, s ∈ (d.applyAll [.silicon row]).silicons ↔
        s = row ∨ (s ∈ d.silicons ∧ s.id ≠ row.id) := fun s => Table.mem_upsert
    -- A Silicon of `d` is there, under the same membership and as live as before.
    have kept : ∀ b ∈ d.silicons, ∃ s ∈ (d.applyAll [.silicon row]).silicons,
        s.organization = b.organization ∧ s.membership = b.membership ∧ s.live = b.live := by
      intro b mem
      by_cases same : b.id = row.id
      · rcases row_ with ⟨old, oldMem, id, org, at_, live, -⟩ | ⟨fresh, -⟩
        · obtain rfl := Table.unique mem oldMem (same.trans id.symm)
          exact ⟨row, (rows row).mpr (.inl rfl), org.symm, at_.symm, live.symm⟩
        · exact absurd same (fresh b mem)
      · exact ⟨b, (rows b).mpr (.inr ⟨mem, same⟩), rfl, rfl, rfl⟩
    refine ⟨fun s mem here => ?_, fun m mem here kind => ?_, fun s mem here p reports => ?_, ?_⟩
    · rcases (rows s).mp mem with rfl | ⟨old, -⟩
      · rcases row_ with ⟨old, oldMem, id, org, at_, live, -⟩ | ⟨fresh, live, ⟨m, mMem, seats⟩, -⟩
        · obtain ⟨m, mMem, seats, active⟩ := tree.seat old oldMem (org.trans here)
          exact ⟨m, mMem, ⟨seats.id.trans at_, seats.organization.trans org,
            seats.principal.trans id, seats.kind⟩, active.trans live⟩
        · refine ⟨m, mMem, seats, ?_⟩
          rcases tree.vacant m mMem (seats.organization.trans here) seats.kind with active | ⟨b, bMem, at_⟩
          · rw [active, live]
          · -- The membership of another Silicon has that Silicon as its principal.
            obtain ⟨m', mMem', seats', -⟩ := inv b.organization |>.seat b bMem rfl
            obtain rfl := Table.unique mMem mMem' (at_.symm.trans seats'.id.symm)
            exact absurd (seats'.principal.symm.trans seats.principal) (fresh b bMem)
      · exact tree.seat s old here
    · rcases tree.vacant m mem here kind with active | ⟨b, bMem, at_⟩
      · exact .inl active
      · obtain ⟨s, sMem, -, same, -⟩ := kept b bMem
        exact .inr ⟨s, sMem, same.trans at_⟩
    · rcases (rows s).mp mem with rfl | ⟨old, -⟩
      · obtain ⟨-, ⟨b, bMem, bHere, at_, live⟩, -⟩ := admitsLink_spec (inv _) admitted reports
        obtain ⟨b', bMem', org, membership, same⟩ := kept b bMem
        exact ⟨b', bMem', org.trans (bHere.trans here), membership.trans at_, fun _ => same.trans live⟩
      · obtain ⟨b, bMem, bHere, at_, live⟩ := tree.manager s old here p reports
        obtain ⟨b', bMem', org, membership, same⟩ := kept b bMem
        exact ⟨b', bMem', org.trans bHere, membership.trans at_, fun sLive => same.trans (live sLive)⟩
    · cases reports : row.reportsTo with
      | none =>
          refine tree.acyclic.mono fun a b link => ?_
          obtain ⟨s, mem, here, at_, up⟩ := link
          rcases (rows s).mp mem with rfl | ⟨old, -⟩
          · simp [reports] at up
          · exact ⟨s, old, here, at_, up⟩
      | some manager =>
          obtain ⟨-, -, apart⟩ := admitsLink_spec (inv _) admitted reports
          by_cases here : row.organization = organization
          · subst here
            refine tree.acyclic.add (a := row.membership) (b := manager) (fun a b link => ?_) apart
            obtain ⟨s, mem, here, at_, up⟩ := link
            rcases (rows s).mp mem with rfl | ⟨old, -⟩
            · exact .inr ⟨at_.symm, Option.some.inj (up.symm.trans reports)⟩
            · exact .inl ⟨s, old, here, at_, up⟩
          · refine tree.acyclic.mono fun a b link => ?_
            obtain ⟨s, mem, sHere, at_, up⟩ := link
            rcases (rows s).mp mem with rfl | ⟨old, -⟩
            · exact absurd sHere here
            · exact ⟨s, old, sHere, at_, up⟩

end Kept

/-! ## A Silicon leaves -/

/-- `row` and `seat` are the deleted Silicon and its removed membership. -/
structure Retires (s row : Silicon) (m seat : Membership) : Prop where
  seats : Seats m s
  id : row.id = s.id
  organization : row.organization = s.organization
  membership : row.membership = s.membership
  reportsTo : row.reportsTo = s.reportsTo
  deleted : row.live = false
  standing : seat.id = m.id ∧ seat.organization = m.organization ∧ seat.principal = m.principal ∧
    seat.kind = m.kind
  removed : seat.active = false

def Directory.retire (d : Directory) (row : Silicon) (seat : Membership) : Directory :=
  d.applyAll [.silicon row, .membership seat]

theorem mem_retire_silicons {row b : Silicon} {seat : Membership} :
    b ∈ (d.retire row seat).silicons ↔ b = row ∨ (b ∈ d.silicons ∧ b.id ≠ row.id) :=
  Table.mem_upsert

theorem mem_retire_memberships {row : Silicon} {seat n : Membership} :
    n ∈ (d.retire row seat).memberships ↔ n = seat ∨ (n ∈ d.memberships ∧ n.id ≠ seat.id) :=
  Table.mem_upsert

namespace Retires

variable {s row : Silicon} {m seat : Membership} (retires : Retires s row m seat)
variable (sMem : s ∈ d.silicons) (mMem : m ∈ d.memberships)
include retires sMem

/-- Every other Silicon is as it was. -/
theorem kept {b : Silicon} (mem : b ∈ d.silicons) :
    ∃ b' ∈ (d.retire row seat).silicons, b'.id = b.id ∧ b'.organization = b.organization ∧
      b'.membership = b.membership ∧ (b ≠ s → b'.live = b.live) := by
  by_cases same : b.id = row.id
  · obtain rfl := Table.unique mem sMem (same.trans retires.id)
    exact ⟨row, mem_retire_silicons.mpr (.inl rfl), retires.id, retires.organization,
      retires.membership, fun differs => absurd rfl differs⟩
  · exact ⟨b, mem_retire_silicons.mpr (.inr ⟨mem, same⟩), rfl, rfl, rfl, fun _ => rfl⟩

/-- A Silicon afterwards has the links of one from before and is no more live. -/
theorem from_before {b : Silicon} (mem : b ∈ (d.retire row seat).silicons) :
    ∃ old ∈ d.silicons, old.organization = b.organization ∧ old.membership = b.membership ∧
      old.reportsTo = b.reportsTo ∧ (b.live = true → old.live = true) := by
  rcases mem_retire_silicons.mp mem with rfl | ⟨old, -⟩
  · refine ⟨s, sMem, retires.organization.symm, retires.membership.symm, retires.reportsTo.symm,
      fun live => ?_⟩
    rw [retires.deleted] at live
    exact Bool.noConfusion live
  · exact ⟨b, old, rfl, rfl, rfl, fun live => live⟩

include mMem

theorem extends_ : Extends d (d.retire row seat) where
  silicons := by
    intro old mem
    obtain ⟨b, bMem, id, org, membership, -⟩ := retires.kept sMem mem
    exact ⟨b, bMem, id, org, membership⟩
  memberships := by
    intro old mem
    obtain ⟨id, rest⟩ := retires.standing
    by_cases same : old.id = seat.id
    · obtain rfl := Table.unique mem mMem (same.trans id)
      exact ⟨seat, mem_retire_memberships.mpr (.inl rfl), id, rest⟩
    · exact ⟨old, mem_retire_memberships.mpr (.inr ⟨mem, same⟩), rfl, rfl, rfl, rfl⟩

omit sMem mMem in
/-- Other organizations are left alone. -/
theorem quiet (elsewhere : s.organization ≠ organization) :
    Quiet organization held d (d.retire row seat) where
  silicons := by
    intro b mem here
    rcases mem_retire_silicons.mp mem with rfl | ⟨old, -⟩
    · exact absurd (retires.organization.symm.trans here) elsewhere
    · exact .inl ⟨b, old, .refl b⟩
  memberships := by
    intro n mem here _
    rcases mem_retire_memberships.mp mem with rfl | ⟨old, -⟩
    · have same := retires.standing.2.1.trans retires.seats.organization
      exact absurd (same.symm.trans here) elsewhere
    · exact .inl ⟨n, old, .refl n⟩

omit sMem in
theorem seat_kept (tree : Tree d organization) {b : Silicon}
    (mem : b ∈ (d.retire row seat).silicons) (here : b.organization = organization) :
    ∃ n ∈ (d.retire row seat).memberships, Seats n b ∧ n.active = b.live := by
  obtain ⟨id, org, principal, kind⟩ := retires.standing
  rcases mem_retire_silicons.mp mem with rfl | ⟨old, differs⟩
  · exact ⟨seat, mem_retire_memberships.mpr (.inl rfl),
      ⟨id.trans (retires.seats.id.trans retires.membership.symm),
        org.trans (retires.seats.organization.trans retires.organization.symm),
        principal.trans (retires.seats.principal.trans retires.id.symm),
        kind.trans retires.seats.kind⟩, retires.removed.trans retires.deleted.symm⟩
  · obtain ⟨n, nMem, seats, live⟩ := tree.seat b old here
    refine ⟨n, mem_retire_memberships.mpr (.inr ⟨nMem, fun same => differs ?_⟩), seats, live⟩
    obtain rfl := Table.unique nMem mMem (same.trans id)
    exact (seats.principal.symm.trans retires.seats.principal).trans retires.id.symm

/-- Nobody live reports to the Silicon, so the managers of live Silicons stay live. -/
theorem tree (tree : Tree d organization)
    (unmanaged : ∀ b ∈ d.silicons, b.organization = s.organization → b.live = true →
      b.reportsTo ≠ some s.membership) : Tree (d.retire row seat) organization where
  seat := fun b mem here => retires.seat_kept mMem tree mem here
  vacant := by
    intro n mem here kind
    rcases mem_retire_memberships.mp mem with rfl | ⟨old, -⟩
    · exact .inr ⟨row, mem_retire_silicons.mpr (.inl rfl),
        retires.membership.trans (retires.seats.id.symm.trans retires.standing.1.symm)⟩
    · rcases tree.vacant n old here kind with active | ⟨b, bMem, at_⟩
      · exact .inl active
      · obtain ⟨b', bMem', -, -, membership, -⟩ := retires.kept sMem bMem
        exact .inr ⟨b', bMem', membership.trans at_⟩
  manager := by
    intro b mem here p reports
    obtain ⟨r, rMem, rHere, -, rReports, live⟩ := retires.from_before sMem mem
    obtain ⟨c, cMem, cHere, cAt, alive⟩ := tree.manager r rMem (rHere.trans here) p
      (rReports.trans reports)
    obtain ⟨c', cMem', -, org, membership, same⟩ := retires.kept sMem cMem
    refine ⟨c', cMem', org.trans cHere, membership.trans cAt, fun bLive => ?_⟩
    by_cases gone : c = s
    · subst gone
      exact absurd (cAt ▸ rReports.trans reports)
        (unmanaged r rMem (rHere.trans (here.trans cHere.symm)) (live bLive))
    · exact (same gone).trans (alive (live bLive))
  acyclic := by
    refine tree.acyclic.mono fun a c link => ?_
    obtain ⟨b, mem, here, at_, up⟩ := link
    obtain ⟨old, oldMem, org, membership, reports, -⟩ := retires.from_before sMem mem
    exact ⟨old, oldMem, org.trans here, membership.trans at_, reports.trans up⟩

end Retires

/-- The Silicon is deleted and its membership removed, when nobody live reports to it. -/
theorem Kept.retire {s row : Silicon} {m seat : Membership} (inv : Inv d)
    (retires : Retires s row m seat) (sMem : s ∈ d.silicons) (mMem : m ∈ d.memberships)
    (siliconLock : .silicon s.id ∈ held) (membershipLock : .membership m.id ∈ held)
    (hierarchyLock : .hierarchy s.organization ∈ held)
    (unmanaged : ∀ b ∈ d.silicons, b.organization = s.organization → b.live = true →
      b.reportsTo ≠ some s.membership) :
    Kept d held [.silicon row, .membership seat] where
  locked := by
    intro w mem k lock
    rcases List.mem_cons.mp mem with rfl | mem
    · rw [Write.locks, List.mem_singleton, retires.id] at lock
      exact lock ▸ siliconLock
    · rw [List.mem_singleton.mp mem, Write.locks, List.mem_singleton, retires.standing.1] at lock
      exact lock ▸ membershipLock
  extends_ := retires.extends_ sMem mMem
  quiet := by
    intro organization
    by_cases here : s.organization = organization
    · exact .inl (here ▸ hierarchyLock)
    · exact .inr (retires.quiet here)
  tree := fun organization => retires.tree sMem mMem (inv organization) unmanaged

end SiliconIam.Organizations.Hierarchy
