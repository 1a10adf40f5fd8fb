/-
# Organizations.PatchEffects -- the statements of a patch lead to `Patched`

The subtree is gathered and locked, the target's row is written (`Written`), the
provisional rows are compared with the rows from before (`mem_changed`), and the
changed Silicons and memberships get the next version.
-/
import SiliconIam.Organizations.PatchAnnouncements

namespace SiliconIam.Organizations.Hierarchy

open Relation
open SiliconIam.Theory SiliconIam.Theory.Forest SiliconIam.Theory.Transactions
open SiliconIam.Organizations.Roles (Membership)

set_option autoImplicit false

variable {d x y : Directory} {organization : Nat} {s t t₁ : Silicon} {m : Membership} {n k : Nat}
variable {affected changed early late : List Nat} {memory left : Memory} {need : List RowLock}

/-! ## Statements run alone -/

section Alone

variable {xid : Nat} {rest : List Statement}

theorem alone_query {f : Memory → Directory → Option Memory} :
    engine.atomicFrom xid (query f :: rest) memory d = some y ↔
      ∃ left, f memory d = some left ∧ engine.atomicFrom xid rest left d = some y := by
  rw [Engine.atomicFrom_cons]
  constructor
  · rintro ⟨left, writes, effect, ran⟩
    obtain ⟨after, found, same⟩ := Option.map_eq_some_iff.mp effect
    obtain ⟨rfl, rfl⟩ := Prod.mk.inj same
    exact ⟨after, found, ran⟩
  · rintro ⟨left, found, ran⟩
    exact ⟨left, [], by simp [query, found], ran⟩

variable {locks : Memory → Directory → List RowLock}

theorem alone_command
    {f : Memory → Directory → Option (Memory × List Write)} :
    engine.atomicFrom xid (command locks f :: rest) memory d = some y ↔
      ∃ left ws, f memory d = some (left, ws) ∧
        engine.atomicFrom xid rest left (d.applyAll ws) = some y :=
  Engine.atomicFrom_cons

theorem alone_lockRows :
    engine.atomicFrom xid (lockRows locks :: rest) memory d = some y ↔
      engine.atomicFrom xid rest memory d = some y := by
  rw [lockRows, alone_command]
  constructor
  · rintro ⟨left, ws, same, ran⟩
    obtain ⟨rfl, rfl⟩ := Prod.mk.inj (Option.some.inj same)
    exact ran
  · intro ran
    exact ⟨memory, [], rfl, ran⟩

/-- A statement that reads, and the locks of what follows. -/
theorem run_query {f : Memory → Directory → Option Memory}
    (ran : engine.atomicFrom xid (query f :: rest) memory d = some y) :
    ∃ left, f memory d = some left ∧ engine.atomicFrom xid rest left d = some y ∧
      Engine.locksBeforeWrite xid (query f :: rest) memory d =
        Engine.locksBeforeWrite xid rest left d := by
  obtain ⟨left, found, ran⟩ := alone_query.mp ran
  have quiet : (query f).effect xid memory d = some (left, []) := by simp [query, found]
  refine ⟨left, found, ran, ?_⟩
  rw [Engine.locksBeforeWrite_cons quiet]
  rfl

theorem locks_lockRows {k : RowLock} :
    k ∈ Engine.locksBeforeWrite xid (lockRows locks :: rest) memory d ↔
      k ∈ locks memory d ∨ k ∈ Engine.locksBeforeWrite xid rest memory d := by
  have quiet : (lockRows locks).effect xid memory d = some (memory, []) := rfl
  rw [Engine.locksBeforeWrite_cons quiet, List.mem_append]
  simp [lockRows, command]

/-- A statement that keeps its writes keeps the invariant. -/
theorem Statement.Keeps.inv (xid : Nat) {statement : Statement} {ws : List Write}
    (keeps : statement.Keeps need) (inv : Inv d)
    (ran : statement.effect xid memory d = some (left, ws)) : Inv (d.applyAll ws) :=
  (keeps xid memory d left ws (need ++ statement.locks memory d) inv
    (fun _ known => List.mem_append_left _ known) (fun _ taken => List.mem_append_right _ taken)
    ran).tree

end Alone

/-! ## Links that stay -/

/-- Rows of an organization with the same links make the same levels. -/
theorem linkOf_eq
    (forward : ∀ s ∈ x.silicons, s.organization = organization → ∃ row ∈ y.silicons,
      row.organization = organization ∧ row.membership = s.membership ∧ row.reportsTo = s.reportsTo)
    (backward : ∀ s ∈ y.silicons, s.organization = organization → ∃ row ∈ x.silicons,
      row.organization = organization ∧ row.membership = s.membership ∧ row.reportsTo = s.reportsTo) :
    x.LinkOf organization (fun _ => true) = y.LinkOf organization fun _ => true := by
  funext a b
  apply propext
  constructor
  · rintro ⟨s, mem, rfl, reports⟩
    obtain ⟨sMem, here⟩ := mem_all.mp mem
    obtain ⟨row, rowMem, rowHere, at_, same⟩ := forward s sMem here
    exact ⟨row, mem_all.mpr ⟨rowMem, rowHere⟩, at_, same.trans reports⟩
  · rintro ⟨s, mem, rfl, reports⟩
    obtain ⟨sMem, here⟩ := mem_all.mp mem
    obtain ⟨row, rowMem, rowHere, at_, same⟩ := backward s sMem here
    exact ⟨row, mem_all.mpr ⟨rowMem, rowHere⟩, at_, same.trans reports⟩

/-! ## The locked subtree -/

/-- What `lock_hierarchy_subtree` has gathered: the target and, where descendants
are asked for, every live Silicon from which a walk leads to it. -/
structure Gathered (d : Directory) (organization target : Nat) (below : Bool) (affected : List Nat) :
    Prop where
  root : target ∈ affected
  alive : ∀ id ∈ affected, ∃ s ∈ d.silicons, s.organization = organization ∧ s.membership = id ∧
    s.live = true
  alone : below = false → ∀ id ∈ affected, id = target
  reached : below = true → ∀ s ∈ d.silicons, s.organization = organization → s.live = true →
    ReflTransGen (d.LinkOf organization fun _ => true) s.membership target → s.membership ∈ affected

theorem gathered_spec {target : Nat} {below : Bool} {rows : List Silicon} (tree : Tree d organization)
    (ran : d.subtree organization target below = some rows)
    (kept : affected = ((rows.map Silicon.membership).filter fun id =>
      (d.membership? organization id).isSome).insertionSort (· ≤ ·))
    (contains : target ∈ affected) : Gathered d organization target below affected := by
  have step_mem : ∀ {a b : Silicon}, b ∈ (if below then d.reports organization Silicon.live a.membership
      else []) → below = true ∧ b ∈ d.reports organization Silicon.live a.membership := by
    intro a b made
    cases below with
    | true => exact ⟨rfl, made⟩
    | false => exact absurd made List.not_mem_nil
  have live_rows : ∀ s ∈ rows, s ∈ d.siliconsOf organization Silicon.live := by
    intro s mem
    obtain ⟨start, listed, walk⟩ := (mem_unionAll ran).mp mem
    rcases ReflTransGen.cases_tail walk with rfl | ⟨_, -, last⟩
    · exact (List.mem_filter.mp listed).1
    · exact (List.mem_filter.mp (step_mem last).2).1
  have listed : ∀ id, id ∈ affected ↔ (∃ s ∈ rows, s.membership = id) := by
    intro id
    rw [kept, List.mem_insertionSort, List.mem_filter, List.mem_map]
    constructor
    · exact fun both => both.1
    · rintro ⟨s, mem, rfl⟩
      obtain ⟨sMem, here, -⟩ := mem_siliconsOf.mp (live_rows s mem)
      obtain ⟨seat, seatMem, seats, -⟩ := tree.seat s sMem here
      refine ⟨⟨s, mem, rfl⟩, List.find?_isSome.mpr ⟨seat, seatMem, ?_⟩⟩
      simp [seats.organization, here, seats.id]
  refine ⟨contains, fun id mem => ?_, fun single id mem => ?_, fun all s sMem here live walk => ?_⟩
  · obtain ⟨s, rowMem, at_⟩ := (listed id).mp mem
    obtain ⟨sMem, here, live⟩ := mem_siliconsOf.mp (live_rows s rowMem)
    exact ⟨s, sMem, here, at_, live⟩
  · obtain ⟨s, rowMem, rfl⟩ := (listed id).mp mem
    obtain ⟨start, begun, walk⟩ := (mem_unionAll ran).mp rowMem
    rcases ReflTransGen.cases_tail walk with rfl | ⟨_, -, last⟩
    · simpa using (List.mem_filter.mp begun).2
    · exact absurd ((step_mem last).1.symm.trans single) (by decide)
  · subst all
    refine (listed _).mpr ⟨s, ?_, rfl⟩
    obtain ⟨root, rootRow, rootAt⟩ := (listed target).mp contains
    -- From the root downwards along the walk.
    have down : ∀ {a}, ReflTransGen (d.LinkOf organization fun _ => true) a target →
        ∀ s ∈ d.silicons, s.organization = organization → s.live = true → s.membership = a →
          s ∈ rows := by
      intro a walk
      induction walk using ReflTransGen.head_induction_on with
      | refl =>
          intro s sMem here _ at_
          obtain ⟨rootMem, rootHere, -⟩ := mem_siliconsOf.mp (live_rows root rootRow)
          rwa [tree.unique sMem here rootMem rootHere (at_.trans rootAt.symm)]
      | @head a b first _ ih =>
          intro s sMem here live at_
          obtain ⟨report, mem, reportAt, reports⟩ := first
          obtain ⟨reportMem, reportHere⟩ := mem_all.mp mem
          obtain rfl := tree.unique reportMem reportHere sMem here (reportAt.trans at_.symm)
          obtain ⟨manager, managerMem, managerHere, rfl, alive⟩ :=
            tree.manager report reportMem reportHere b reports
          have above := ih manager managerMem managerHere (alive live) rfl
          obtain ⟨start, begun, path⟩ := (mem_unionAll ran).mp above
          exact (mem_unionAll ran).mpr ⟨start, begun, path.tail
            (mem_reports.mpr ⟨reportMem, reportHere, live, reports⟩)⟩
    exact down walk s sMem here live rfl

/-! ## The target's row -/

/-- The directory once the target's row is written and the memberships in `early`
have the next version. -/
structure Written (d x : Directory) (t t₁ : Silicon) (early : List Nat) : Prop where
  inv : Inv x
  mem : t ∈ d.silicons
  live : t.live = true
  id : t₁.id = t.id
  organization : t₁.organization = t.organization
  membership : t₁.membership = t.membership
  stillLive : t₁.live = true
  version : t₁.version = t.version + 1
  differs : ∀ n k, t₁.shown k ≠ t.shown n
  silicons : ∀ row, row ∈ x.silicons ↔ ∃ s ∈ d.silicons, row = if s.id = t.id then t₁ else s
  memberships : ∀ row, row ∈ x.memberships ↔ ∃ m ∈ d.memberships,
    row = if touchedMembership t.organization early m then m.bump else m
  settings : x.settings = d.settings
  access : x.access = d.access
  outbox : x.outbox = d.outbox

/-- The row with the target's written. -/
def writtenRow (t t₁ s : Silicon) : Silicon := if s.id = t.id then t₁ else s

namespace Written

variable (written : Written d x t t₁ early)
include written

theorem row_mem (mem : s ∈ d.silicons) : writtenRow t t₁ s ∈ x.silicons :=
  (written.silicons _).mpr ⟨s, mem, rfl⟩

theorem row_identity (mem : s ∈ d.silicons) : (writtenRow t t₁ s).id = s.id ∧
    (writtenRow t t₁ s).organization = s.organization ∧
    (writtenRow t t₁ s).membership = s.membership ∧ (writtenRow t t₁ s).live = s.live := by
  rw [writtenRow]
  split
  · rename_i same
    obtain rfl := Table.unique mem written.mem same
    exact ⟨written.id, written.organization, written.membership,
      written.stillLive.trans written.live.symm⟩
  · exact ⟨rfl, rfl, rfl, rfl⟩

/-- A Silicon from which no walk leads to the target keeps its depth. -/
theorem depth_outside
    (outside : ¬ ReflTransGen (d.LinkOf t.organization fun _ => true) s.membership t.membership)
    (level : d.Depth t.organization s.membership n) : x.Depth t.organization s.membership n := by
  refine level.along fun a walk b => ?_
  have other : ∀ r ∈ d.silicons, r.membership = a → r.organization = t.organization →
      writtenRow t t₁ r = r := by
    intro r rMem at_ here
    rw [writtenRow, if_neg]
    intro same
    obtain rfl := Table.unique rMem written.mem same
    exact outside (at_ ▸ walk)
  constructor
  · rintro ⟨r, listed, at_, reports⟩
    obtain ⟨rMem, here⟩ := mem_all.mp listed
    have rowMem := written.row_mem rMem
    rw [other r rMem at_ here] at rowMem
    exact ⟨r, mem_all.mpr ⟨rowMem, here⟩, at_, reports⟩
  · rintro ⟨row, listed, at_, reports⟩
    obtain ⟨rowMem, here⟩ := mem_all.mp listed
    obtain ⟨r, rMem, same⟩ := (written.silicons row).mp rowMem
    obtain ⟨-, rHere, rAt, -⟩ := written.row_identity rMem
    have row_eq : row = writtenRow t t₁ r := same
    rw [row_eq, rHere] at here
    rw [row_eq, rAt] at at_
    rw [row_eq, other r rMem at_ here] at reports
    exact ⟨r, mem_all.mpr ⟨rMem, here⟩, at_, reports⟩

/-- Without a new link nobody's depth changes. -/
theorem depth_same (link : t₁.reportsTo = t.reportsTo) {a : Nat} :
    d.Depth organization a n ↔ x.Depth organization a n := by
  have same : d.LinkOf organization (fun _ => true) = x.LinkOf organization fun _ => true := by
    have reports : ∀ s ∈ d.silicons, (writtenRow t t₁ s).reportsTo = s.reportsTo := by
      intro s mem
      rw [writtenRow]
      split
      · rename_i same
        rw [link, Table.unique mem written.mem same]
      · rfl
    refine linkOf_eq (fun s mem here => ?_) fun row mem here => ?_
    · obtain ⟨-, org, membership, -⟩ := written.row_identity mem
      exact ⟨_, written.row_mem mem, org.trans here, membership, reports s mem⟩
    · obtain ⟨s, sMem, rfl⟩ := (written.silicons row).mp mem
      obtain ⟨-, org, membership, -⟩ := written.row_identity sMem
      exact ⟨s, sMem, org.symm.trans here, membership.symm, (reports s sMem).symm⟩
  rw [Directory.Depth, Directory.Depth, same]

end Written

/-! ## The changed Silicons -/

/-- `captureChanged` of one provisional row. -/
def changedOf (target : Nat) (before : List SiliconResponse) (after : SiliconResponse) : Option Nat :=
  (before.find? fun row => row.membershipId == after.membershipId).bind fun row =>
    if after.membershipId == target || hierarchyProjectionChanged row after then
      some after.membershipId
    else none

theorem changedOf_spec {target id : Nat} {before : List SiliconResponse} {after : SiliconResponse}
    (found : changedOf target before after = some id) :
    after.membershipId = id ∧ ∃ row ∈ before, row.membershipId = id ∧
      (id = target ∨ hierarchyProjectionChanged row after = true) := by
  obtain ⟨row, listed, picked⟩ := Option.bind_eq_some_iff.mp found
  obtain ⟨differs, picked⟩ := Option.ite_none_right_eq_some.mp picked
  obtain rfl := Option.some.inj picked
  rw [Bool.or_eq_true, beq_iff_eq] at differs
  exact ⟨rfl, row, List.mem_of_find?_eq_some listed, by simpa using List.find?_some listed, differs⟩

/-- Two rows of an unpatched Silicon differ in the hierarchy's part where the depth does. -/
theorem hierarchyProjectionChanged_response (s : Silicon) (m seat : Membership) :
    hierarchyProjectionChanged (s.response m n) (s.response seat k) = true ↔ n ≠ k := by
  simp only [hierarchyProjectionChanged, Silicon.response, Bool.or_eq_true, bne_iff_ne]
  constructor
  · rintro (level | photo) rfl
    · exact level rfl
    · exact photo rfl
  · exact fun differ => .inl differ

section Changed

variable {before provisional : List SiliconResponse}

theorem changed_nodup (tree : Tree x organization) {target : Nat}
    (fetched : x.fetchSilicons organization affected = some provisional) :
    (provisional.filterMap (changedOf target before)).Nodup := by
  refine List.pairwise_filterMap.mpr
    ((tree.project_distinct tree.keepsManagers_all fetched).imp_of_mem ?_)
  intro a b aMem bMem differ id picked other pickedToo
  obtain ⟨rfl, -⟩ := changedOf_spec picked
  obtain ⟨rfl, -⟩ := changedOf_spec pickedToo
  obtain ⟨s, sMem, _, _, _, here, -, -, -, -, rfl⟩ := (tree.fetchSilicons_mem fetched).mp aMem
  obtain ⟨r, rMem, _, _, _, rHere, -, -, -, -, rfl⟩ := (tree.fetchSilicons_mem fetched).mp bMem
  exact fun same => differ (congrArg Silicon.id (tree.unique sMem here rMem rHere same))

theorem mem_changed (tree : Tree d t.organization) (written : Written d x t t₁ early)
    (fetchedBefore : d.fetchSilicons t.organization affected = some before)
    (fetched : x.fetchSilicons t.organization affected = some provisional) (mem : s ∈ d.silicons)
    (here : s.organization = t.organization) :
    s.membership ∈ provisional.filterMap (changedOf t.membership before) ↔
      s.membership ∈ affected ∧ (s.id = t.id ∨ ∃ n k, d.Depth t.organization s.membership n ∧
        x.Depth t.organization s.membership k ∧ n ≠ k) := by
  have treeAfter : Tree x t.organization := written.inv _
  constructor
  · intro listed
    obtain ⟨after, afterMem, picked⟩ := List.mem_filterMap.mp listed
    obtain ⟨afterAt, row, rowMem, rowAt, differs⟩ := changedOf_spec picked
    obtain ⟨r', rMem', seat', -, k, rHere', -, -, among, after', rfl⟩ :=
      (treeAfter.fetchSilicons_mem fetched).mp afterMem
    obtain ⟨r, rMem, seat, -, n, rHere, -, -, -, before', rfl⟩ :=
      (tree.fetchSilicons_mem fetchedBefore).mp rowMem
    obtain rfl := tree.unique rMem rHere mem here rowAt
    obtain ⟨id, org, membership, -⟩ := written.row_identity mem
    have afterAt : r'.membership = r.membership := afterAt
    have same : r' = writtenRow t t₁ r := treeAfter.unique rMem' rHere' (written.row_mem mem)
      (org.trans here) (afterAt.trans membership.symm)
    refine ⟨afterAt ▸ among, ?_⟩
    by_cases target : r.id = t.id
    · exact .inl target
    · right
      rw [afterAt] at after'
      refine ⟨n, k, before', after', ?_⟩
      rcases differs with at_ | moved
      · exact absurd (congrArg Silicon.id (tree.unique mem here written.mem rfl at_)) target
      · rw [same, writtenRow, if_neg target] at moved
        exact (hierarchyProjectionChanged_response r seat seat').mp moved
  · rintro ⟨among, differs⟩
    obtain ⟨id, org, membership, -⟩ := written.row_identity mem
    obtain ⟨seat, seatMem, seats, active⟩ := tree.seat s mem here
    obtain ⟨seat', seatMem', seats', active'⟩ :=
      treeAfter.seat _ (written.row_mem mem) (org.trans here)
    obtain ⟨n, level⟩ := tree.depth_exists mem here
    obtain ⟨k, level'⟩ := treeAfter.depth_exists (written.row_mem mem) (org.trans here)
    have listed : (writtenRow t t₁ s).response seat' k ∈ provisional :=
      (treeAfter.fetchSilicons_mem fetched).mpr ⟨_, written.row_mem mem, seat', seatMem', k,
        org.trans here, seats', active', membership ▸ among, level', rfl⟩
    have listedBefore : s.response seat n ∈ before := (tree.fetchSilicons_mem fetchedBefore).mpr
      ⟨s, mem, seat, seatMem, n, here, seats, active, among, level, rfl⟩
    obtain ⟨row, found⟩ : ∃ row, before.find? (fun row => row.membershipId ==
        (writtenRow t t₁ s).membership) = some row :=
      Option.isSome_iff_exists.mp (List.find?_isSome.mpr ⟨_, listedBefore, by
        rw [membership]
        exact beq_self_eq_true _⟩)
    have rowAt : row.membershipId = (writtenRow t t₁ s).membership := by
      simpa using List.find?_some found
    obtain ⟨r, rMem, rSeat, -, i, rHere, -, -, -, rLevel, rfl⟩ :=
      (tree.fetchSilicons_mem fetchedBefore).mp (List.mem_of_find?_eq_some found)
    obtain rfl := tree.unique rMem rHere mem here (rowAt.trans membership)
    refine List.mem_filterMap.mpr ⟨_, listed, ?_⟩
    have picked : ((writtenRow t t₁ r).membership == t.membership ||
        hierarchyProjectionChanged (r.response rSeat i) ((writtenRow t t₁ r).response seat' k)) =
          true := by
      rw [Bool.or_eq_true, beq_iff_eq]
      by_cases target : r.id = t.id
      · exact .inl (membership.trans (by rw [Table.unique mem written.mem target]))
      · right
        obtain ⟨n', k', before', after', differ⟩ := differs.resolve_left target
        rw [membership] at level'
        rw [writtenRow, if_neg target, hierarchyProjectionChanged_response,
          tree.level_unique rLevel before', treeAfter.level_unique level' after']
        exact differ
    have response : ((writtenRow t t₁ r).response seat' k).membershipId =
        (writtenRow t t₁ r).membership := rfl
    rw [changedOf, response, found, Option.bind_some, if_pos picked, membership]

theorem changed_affected (tree : Tree x organization) {target id : Nat}
    (fetched : x.fetchSilicons organization affected = some provisional)
    (listed : id ∈ provisional.filterMap (changedOf target before)) : id ∈ affected := by
  obtain ⟨after, mem, picked⟩ := List.mem_filterMap.mp listed
  obtain ⟨rfl, -⟩ := changedOf_spec picked
  obtain ⟨_, -, _, -, _, -, -, -, among, -, rfl⟩ := (tree.fetchSilicons_mem fetched).mp mem
  exact among

end Changed

/-! ## The patch -/

/-- The descendants and the remaining memberships get the next version. -/
structure Touched (x y : Directory) (organization : Nat) (silicons memberships : List Nat) : Prop where
  inv : Inv y
  silicons : ∀ row, row ∈ y.silicons ↔ ∃ s ∈ x.silicons, row =
    if touchedSilicon organization silicons s then s.bump else s
  memberships : ∀ row, row ∈ y.memberships ↔ ∃ m ∈ x.memberships,
    row = if touchedMembership organization memberships m then m.bump else m
  settings : y.settings = x.settings
  access : y.access = x.access

theorem Touched.depth {descendants : List Nat}
    (touched : Touched x y organization descendants late) {a : Nat} :
    x.Depth organization a n ↔ y.Depth organization a n := by
  have fields : ∀ s : Silicon, ∀ b : Bool, (if b then s.bump else s).organization = s.organization ∧
      (if b then s.bump else s).membership = s.membership ∧
      (if b then s.bump else s).reportsTo = s.reportsTo := by
    intro s b
    cases b <;> exact ⟨rfl, rfl, rfl⟩
  have same : x.LinkOf organization (fun _ => true) = y.LinkOf organization fun _ => true := by
    refine linkOf_eq (fun s mem here => ?_) fun row mem here => ?_
    · obtain ⟨org, membership, reports⟩ := fields s (touchedSilicon organization descendants s)
      exact ⟨_, (touched.silicons _).mpr ⟨s, mem, rfl⟩, org.trans here, membership, reports⟩
    · obtain ⟨s, sMem, rfl⟩ := (touched.silicons row).mp mem
      obtain ⟨org, membership, reports⟩ := fields s (touchedSilicon organization descendants s)
      exact ⟨s, sMem, org.symm.trans here, membership.symm, reports.symm⟩
  rw [Directory.Depth, Directory.Depth, same]

/-- A membership is in one of two lists, so it is touched once. -/
theorem touched_twice (organization : Nat) (together : ∀ id, id ∈ changed ↔ id ∈ early ∨ id ∈ late)
    (apart : ∀ id ∈ early, id ∉ late) :
    (if touchedMembership organization late
        (if touchedMembership organization early m then m.bump else m) then
      (if touchedMembership organization early m then m.bump else m).bump
      else if touchedMembership organization early m then m.bump else m) =
      if touchedMembership organization changed m then m.bump else m := by
  have bumped : ∀ ids, touchedMembership organization ids m.bump =
      touchedMembership organization ids m := fun _ => rfl
  have split : ∀ ids, touchedMembership organization ids m =
      (touchedMembership organization [m.id] m && decide (m.id ∈ ids)) := by
    intro ids
    simp [touchedMembership]
  have joint := together m.id
  by_cases first : m.id ∈ early
  · have second := apart m.id first
    have listed := joint.mpr (.inl first)
    rw [split early, split changed]
    cases base : touchedMembership organization [m.id] m with
    | true => simp [first, listed, bumped, split late, second]
    | false => simp [split late, second]
  · rw [split early, split changed]
    simp only [first, decide_false, Bool.and_false, Bool.false_eq_true, if_false]
    rw [split late]
    simp only [joint, first, false_or]

theorem Written.patched {below : Bool} {before provisional : List SiliconResponse}
    (inv : Inv d) (written : Written d x t t₁ early)
    (gathered : Gathered d t.organization t.membership below affected)
    (unlinked : below = false → t₁.reportsTo = t.reportsTo)
    (fetchedBefore : d.fetchSilicons t.organization affected = some before)
    (fetched : x.fetchSilicons t.organization affected = some provisional)
    (compared : changed = provisional.filterMap (changedOf t.membership before))
    (touched : Touched x y t.organization (changed.filter fun id => id != t.membership) late)
    (together : ∀ id, id ∈ changed ↔ id ∈ early ∨ id ∈ late) (apart : ∀ id ∈ early, id ∉ late) :
    Patched d y t t₁ changed := by
  subst compared
  have tree : Tree d t.organization := inv _
  have treeAfter : Tree x t.organization := written.inv _
  have compared := fun (s : Silicon) (mem : s ∈ d.silicons) (here : s.organization = t.organization) =>
    mem_changed tree written fetchedBefore fetched mem here
  refine ⟨touched.inv, written.mem, written.live, written.id, written.organization, written.membership,
    written.stillLive, written.version, written.differs, ?_, ?_, touched.settings.trans written.settings,
    touched.access.trans written.access, ?_, ?_, ?_⟩
  · have rows : ∀ s ∈ d.silicons, (if touchedSilicon t.organization
        ((provisional.filterMap (changedOf t.membership before)).filter fun id => id != t.membership)
        (writtenRow t t₁ s) then (writtenRow t t₁ s).bump else writtenRow t t₁ s) =
        patchedRow t t₁ (provisional.filterMap (changedOf t.membership before)) s := by
      intro s mem
      by_cases target : s.id = t.id
      · have untouched : ¬ touchedSilicon t.organization
            ((provisional.filterMap (changedOf t.membership before)).filter fun id =>
              id != t.membership) t₁ = true := by
          simp [touchedSilicon, written.membership]
        rw [writtenRow, if_pos target, if_neg untouched, patchedRow, if_pos target]
      · have same : touchedSilicon t.organization
            ((provisional.filterMap (changedOf t.membership before)).filter fun id =>
              id != t.membership) s =
            touchedSilicon t.organization (provisional.filterMap (changedOf t.membership before)) s := by
          by_cases here : s.organization = t.organization
          · have differ : s.membership ≠ t.membership := fun same => target
              (congrArg Silicon.id (tree.unique mem here written.mem rfl same))
            simp [touchedSilicon, differ]
          · have elsewhere : (s.organization == t.organization) = false := by simpa using here
            simp [touchedSilicon, elsewhere]
        rw [writtenRow, if_neg target, patchedRow, if_neg target, same]
    intro row
    rw [touched.silicons]
    constructor
    · rintro ⟨r, rMem, rfl⟩
      obtain ⟨s, mem, rfl⟩ := (written.silicons r).mp rMem
      exact ⟨s, mem, rows s mem⟩
    · rintro ⟨s, mem, rfl⟩
      exact ⟨_, written.row_mem mem, (rows s mem).symm⟩
  · have rows := fun m : Membership => touched_twice (m := m) t.organization together apart
    intro row
    rw [touched.memberships]
    constructor
    · rintro ⟨r, rMem, rfl⟩
      obtain ⟨m, mem, rfl⟩ := (written.memberships r).mp rMem
      exact ⟨m, mem, rows m⟩
    · rintro ⟨m, mem, rfl⟩
      exact ⟨_, (written.memberships _).mpr ⟨m, mem, rfl⟩, (rows m).symm⟩
  · exact (compared t written.mem rfl).mpr ⟨gathered.root, .inl rfl⟩
  · intro id listed
    exact gathered.alive id (changed_affected treeAfter fetched listed)
  · intro s mem here live other
    rw [compared s mem here]
    constructor
    · rintro ⟨-, target | ⟨n, k, level, level', differ⟩⟩
      · exact absurd target other
      · exact ⟨n, k, level, touched.depth.mp level', differ⟩
    · rintro ⟨n, k, level, level', differ⟩
      have after := touched.depth.mpr level'
      refine ⟨?_, .inr ⟨n, k, level, after, differ⟩⟩
      by_contra missed
      cases below with
      | true =>
          have outside := fun walk => missed (gathered.reached rfl s mem here live walk)
          exact differ (treeAfter.level_unique (written.depth_outside outside level) after)
      | false =>
          exact differ (treeAfter.level_unique ((written.depth_same (unlinked rfl)).mp level) after)

/-! ## The last statements -/

theorem inv_touches {ws : List Write} (inv : Inv x) (touches : ∀ w ∈ ws, Touches x w) :
    Inv (x.applyAll ws) := by
  have locked : ∀ w ∈ ws, ∀ k ∈ w.locks, k ∈ ws.flatMap Write.locks :=
    fun w mem k lock => List.mem_flatMap.mpr ⟨w, mem, lock⟩
  exact (Kept.touches inv locked touches).tree

section Finish

variable {xid : Nat}

theorem Patched.withOutbox (patched : Patched d y t t₁ changed) (outbox : List OutboxEvent) :
    Patched d { y with outbox := outbox } t t₁ changed where
  inv := fun organization => ⟨(patched.inv organization).seat, (patched.inv organization).vacant,
    (patched.inv organization).manager, (patched.inv organization).acyclic⟩
  mem := patched.mem
  live := patched.live
  id := patched.id
  organization := patched.organization
  membership := patched.membership
  stillLive := patched.stillLive
  version := patched.version
  differs := patched.differs
  silicons := patched.silicons
  memberships := patched.memberships
  settings := patched.settings
  access := patched.access
  target := patched.target
  alive := patched.alive
  others := patched.others

theorem record_patch (wf : d.WellFormed) (patched : Patched d x t t₁ memory.changed)
    (distinct : memory.changed.Nodup) (outbox : x.outbox = d.outbox)
    (ran : engine.atomicFrom xid [recordChanges t.organization] memory x = some y) :
    Announces none d y ∧ Patched d y t t₁ memory.changed := by
  obtain ⟨left, ws, recorded, ended⟩ := alone_command.mp ran
  obtain ⟨events, -, rfl, silicons, memberships⟩ :=
    recordChanges_spec xid (patched.inv _) distinct recorded
  have last : y = { x with outbox := x.outbox ++ events } := by
    rw [← applyAll_events]
    exact (Option.some.inj ended).symm
  have announced := patched.withOutbox (x.outbox ++ events)
  rw [← last] at announced
  refine ⟨⟨events, announced.announcedBy wf ?_ ?_ ?_⟩, announced⟩
  · rw [last, outbox]
  · rw [last]
    exact silicons
  · rw [last]
    exact memberships

theorem touched_spec (organization : Nat) (descendants late : List Nat) (inv : Inv x) :
    Touched x ((x.applyAll (x.touchSilicons organization descendants)).applyAll
      ((x.applyAll (x.touchSilicons organization descendants)).touchMemberships organization late))
      organization descendants late ∧
    ((x.applyAll (x.touchSilicons organization descendants)).applyAll
      ((x.applyAll (x.touchSilicons organization descendants)).touchMemberships
        organization late)).outbox = x.outbox := by
  have first : Inv (x.applyAll (x.touchSilicons organization descendants)) :=
    inv_touches inv touches_touchSilicons
  have second : Inv ((x.applyAll (x.touchSilicons organization descendants)).applyAll
      ((x.applyAll (x.touchSilicons organization descendants)).touchMemberships
        organization late)) := inv_touches first touches_touchMemberships
  obtain ⟨silicons, written, siliconRows⟩ := touchSilicons_spec x organization descendants
  rw [written] at second ⊢
  obtain ⟨memberships, written, memberRows⟩ :=
    touchMemberships_spec { x with silicons := silicons } organization late
  rw [written] at second ⊢
  exact ⟨⟨second, siliconRows, memberRows, rfl, rfl⟩, rfl⟩

end Finish

end SiliconIam.Organizations.Hierarchy
