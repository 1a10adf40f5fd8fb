/-
# Organizations.PatchRequests -- the Silicon patch and the member patch of a Silicon

Every patch that commits announces what it changes, and the rows of what it changes
were locked before its first write.
-/
import SiliconIam.Organizations.PatchEffects

namespace SiliconIam.Organizations.Hierarchy

open SiliconIam.Theory SiliconIam.Theory.Transactions
open SiliconIam.Organizations.Roles (PrincipalKind Membership)

set_option autoImplicit false

variable {d x y : Directory} {organization : Nat} {s t t₁ : Silicon} {m : Membership}
variable {early : List Nat} {memory left : Memory} {xid : Nat} {rest : List Statement}

/-- From the written row to the commit. -/
theorem finish_patch (memory : Memory) {below : Bool} {provisional : List SiliconResponse} {changed : List Nat}
    (wf : d.WellFormed) (written : Written d x t t₁ early)
    (gathered : Gathered d t.organization t.membership below memory.affected)
    (unlinked : below = false → t₁.reportsTo = t.reportsTo)
    (fetchedBefore : d.fetchSilicons t.organization memory.affected = some memory.beforeSilicons)
    (fetched : x.fetchSilicons t.organization memory.affected = some provisional)
    (compared : changed = provisional.filterMap (changedOf t.membership memory.beforeSilicons))
    (late : List Nat)
    (split : t.membership ∈ changed → (∀ id ∈ changed, id ∈ memory.affected) →
      (∀ id, id ∈ changed ↔ id ∈ early ∨ id ∈ late) ∧ ∀ id ∈ early, id ∉ late)
    (ran : engine.atomicFrom xid [recordChanges t.organization] { memory with changed := changed }
      ((x.applyAll (x.touchSilicons t.organization (changed.filter fun id => id != t.membership))).applyAll
        ((x.applyAll (x.touchSilicons t.organization
          (changed.filter fun id => id != t.membership))).touchMemberships t.organization late)) =
        some y) :
    Announces none d y ∧ Patched d y t t₁ changed ∧ ∀ id ∈ changed, id ∈ memory.affected := by
  have tree : Tree d t.organization := wf.tree _
  have treeAfter : Tree x t.organization := written.inv _
  have among : ∀ id ∈ changed, id ∈ memory.affected := by
    intro id listed
    rw [compared] at listed
    exact changed_affected treeAfter fetched listed
  have target : t.membership ∈ changed := by
    rw [compared]
    exact (mem_changed tree written fetchedBefore fetched written.mem rfl).mpr
      ⟨gathered.root, .inl rfl⟩
  obtain ⟨together, apart⟩ := split target among
  obtain ⟨touched, outbox⟩ := touched_spec t.organization
    (changed.filter fun id => id != t.membership) late written.inv
  have patched := written.patched wf.tree gathered unlinked fetchedBefore fetched compared touched
    together apart
  have distinct : changed.Nodup := compared ▸ changed_nodup treeAfter fetched
  obtain ⟨announces, patched⟩ := record_patch wf patched
    distinct (outbox.trans written.outbox) ran
  exact ⟨announces, patched, among⟩

/-! ## The row that a patch writes -/

/-- A patch that changes a row changes what is shown of it. -/
theorem changes_shown {patch : SiliconPatch} (changes : patch.changes t = true) (n k : Nat) :
    (patch.write t).shown k ≠ t.shown n := by
  intro same
  have name : patch.displayName.getD t.displayName = t.displayName :=
    congrArg SiliconResponse.displayName same
  have zone : patch.timezone.getD t.timezone = t.timezone := congrArg SiliconResponse.timezone same
  have manager : patch.reportsTo.getD t.reportsTo = t.reportsTo :=
    congrArg SiliconResponse.reportsTo same
  have photo : patch.profilePhoto.getD t.profilePhotoOverride = t.profilePhotoOverride := by
    have shown := congrArg SiliconResponse.profilePhoto same
    simp only [Silicon.shown, SiliconPatch.write] at shown
    cases next : patch.profilePhoto.getD t.profilePhotoOverride <;>
      cases now : t.profilePhotoOverride <;> simp_all
  simp only [SiliconPatch.changes, Bool.or_eq_true, Option.any_eq_true, bne_iff_ne] at changes
  rcases changes with ((⟨v, set, differs⟩ | ⟨v, set, differs⟩) | ⟨v, set, differs⟩) | ⟨v, set, differs⟩
  · exact differs (by simpa [set] using name)
  · exact differs (by simpa [set] using zone)
  · exact differs (by simpa [set] using photo)
  · exact differs (by simpa [set] using manager)

/-- The directory with the target's row written. -/
theorem written_apply {patch : SiliconPatch} (inv : Inv (d.apply (.silicon (patch.write t))))
    (mem : t ∈ d.silicons) (live : t.live = true) (changes : patch.changes t = true) :
    Written d (d.apply (.silicon (patch.write t))) t (patch.write t) [] where
  inv := inv
  mem := mem
  live := live
  id := rfl
  organization := rfl
  membership := rfl
  stillLive := live
  version := rfl
  differs := changes_shown changes
  silicons := fun _ => Table.mem_upsert_of_mem mem _ rfl
  memberships := by
    intro row
    show row ∈ d.memberships ↔ _
    simp [touchedMembership]
  settings := rfl
  access := rfl
  outbox := rfl

theorem Written.bumped (written : Written d x t t₁ []) {seat : Membership}
    (mem : seat ∈ d.memberships) (seats : Seats seat t) (active : seat.active = t.live)
    (after : Inv (x.apply (.membership seat.bump))) :
    Written d (x.apply (.membership seat.bump)) t t₁ [t.membership] := by
  have same : ∀ row, row ∈ x.memberships ↔ row ∈ d.memberships := by
    intro row
    rw [written.memberships]
    simp [touchedMembership]
  refine ⟨after, written.mem, written.live, written.id, written.organization, written.membership,
    written.stillLive, written.version, written.differs, written.silicons, fun row => ?_,
    written.settings, written.access, written.outbox⟩
  refine (Table.mem_upsert_of_mem ((same seat).mpr mem) seat.bump rfl).trans ?_
  have touched : ∀ other ∈ d.memberships, (if other.id = seat.id then seat.bump else other) =
      if touchedMembership t.organization [t.membership] other then other.bump else other := by
    intro other otherMem
    by_cases equal : other.id = seat.id
    · obtain rfl := Table.unique otherMem mem equal
      have holds : touchedMembership t.organization [t.membership] other = true := by
        simp [touchedMembership, seats.organization, seats.id, active, written.live]
      rw [if_pos rfl, if_pos holds]
    · have fails : ¬ touchedMembership t.organization [t.membership] other = true := by
        simp [touchedMembership, ← seats.id, equal]
      rw [if_neg equal, if_neg fails]
  constructor
  · rintro ⟨other, otherMem, rfl⟩
    exact ⟨other, (same other).mp otherMem, touched other ((same other).mp otherMem)⟩
  · rintro ⟨other, otherMem, rfl⟩
    exact ⟨other, (same other).mpr otherMem, (touched other otherMem).symm⟩

/-! ## The first statements -/

theorem fetchIdentity_spec {silicon expected : Nat}
    (ran : engine.atomicFrom xid (fetchIdentity organization silicon expected :: rest) memory d = some y) :
    ∃ s ∈ d.silicons, s.organization = organization ∧ s.id = silicon ∧ s.live = true ∧
      s.version = expected ∧ ∃ version,
        engine.atomicFrom xid rest { memory with
          principal := s.id, target := s.membership, targetVersion := version } d = some y ∧
        Engine.locksBeforeWrite xid (fetchIdentity organization silicon expected :: rest) memory d =
          Engine.locksBeforeWrite xid rest { memory with
            principal := s.id, target := s.membership, targetVersion := version } d := by
  obtain ⟨left, found, ran, taken⟩ := run_query ran
  obtain ⟨s, picked, found⟩ := Option.bind_eq_some_iff.mp found
  obtain ⟨m, seated, found⟩ := Option.bind_eq_some_iff.mp found
  obtain ⟨mem, holds⟩ := Table.find?_spec picked
  obtain ⟨-, -, id⟩ := Directory.membership?_spec seated
  simp only [Bool.and_eq_true, beq_iff_eq] at holds
  split at found
  · rename_i met
    simp only [Bool.and_eq_true, beq_iff_eq] at met
    obtain rfl := Option.some.inj found
    rw [id] at ran taken
    exact ⟨s, mem, holds.1, holds.2, met.1.1, met.2, m.version, ran, taken⟩
  · exact absurd found (by simp)

theorem fetchMembershipIdentity_spec {membership expected : Nat} {kind : PrincipalKind}
    (ran : engine.atomicFrom xid
      (fetchMembershipIdentity organization membership expected kind :: rest) memory d = some y) :
    ∃ m ∈ d.memberships, m.organization = organization ∧ m.id = membership ∧ m.active = true ∧
      m.kind = kind ∧ m.version = expected ∧
        engine.atomicFrom xid rest { memory with
          principal := m.principal, target := m.id, targetVersion := m.version } d = some y ∧
        Engine.locksBeforeWrite xid
            (fetchMembershipIdentity organization membership expected kind :: rest) memory d =
          Engine.locksBeforeWrite xid rest { memory with
            principal := m.principal, target := m.id, targetVersion := m.version } d := by
  obtain ⟨left, found, ran, taken⟩ := run_query ran
  obtain ⟨m, seated, found⟩ := Option.bind_eq_some_iff.mp found
  obtain ⟨mem, here, id⟩ := Directory.membership?_spec seated
  split at found
  · rename_i met
    simp only [Bool.and_eq_true, beq_iff_eq] at met
    obtain rfl := Option.some.inj found
    exact ⟨m, mem, here, id, met.1.1, met.2, met.1.2, ran, taken⟩
  · exact absurd found (by simp)

/-- The row locks of what was gathered. -/
def gatheredLocks (d : Directory) (organization : Nat) (affected : List Nat) : List RowLock :=
  d.siliconLocks organization affected ++ affected.map .membership

theorem lockSubtree_spec (tree : Tree d organization) {below : Bool}
    (ran : engine.atomicFrom xid (lockHierarchySubtree organization below ++ rest) memory d = some y) :
    ∃ affected, Gathered d organization memory.target below affected ∧
      engine.atomicFrom xid rest { memory with affected := affected } d = some y ∧
      ∀ k ∈ gatheredLocks d organization affected,
        k ∈ Engine.locksBeforeWrite xid (lockHierarchySubtree organization below ++ rest) memory d := by
  have gather : ∀ (_ : engine.atomicFrom xid
      (gatherSubtree organization below :: lockGathered organization :: rest) memory d = some y),
      ∃ affected, Gathered d organization memory.target below affected ∧
        engine.atomicFrom xid rest { memory with affected := affected } d = some y ∧
        ∀ k ∈ gatheredLocks d organization affected, k ∈ Engine.locksBeforeWrite xid
          (gatherSubtree organization below :: lockGathered organization :: rest) memory d := by
    intro ran
    obtain ⟨left, found, ran, taken⟩ := run_query ran
    obtain ⟨rows, walked, found⟩ := Option.bind_eq_some_iff.mp found
    dsimp only at found
    split at found
    · rename_i contains
      obtain rfl := Option.some.inj found
      refine ⟨_, gathered_spec tree walked rfl (by simpa using contains), alone_lockRows.mp ran, ?_⟩
      intro k mem
      exact (congrArg (k ∈ ·) taken).mpr (locks_lockRows.mpr (.inl mem))
    · exact absurd found (by simp)
  cases below with
  | false => exact gather ran
  | true =>
      obtain ⟨affected, gathered, ran, locked⟩ := gather (alone_lockRows.mp ran)
      exact ⟨affected, gathered, ran, fun k mem => locks_lockRows.mpr (.inr (locked k mem))⟩

/-- The rows before the change are kept. -/
theorem captureBefore_spec
    (ran : engine.atomicFrom xid (captureBefore organization :: rest) memory d = some y) :
    ∃ silicons members, d.fetchSilicons organization memory.affected = some silicons ∧
      engine.atomicFrom xid rest { memory with
        beforeSilicons := silicons, beforeMembers := members } d = some y := by
  obtain ⟨left, found, ran⟩ := alone_query.mp ran
  obtain ⟨silicons, fetched, found⟩ := Option.bind_eq_some_iff.mp found
  obtain ⟨members, -, rfl⟩ := Option.map_eq_some_iff.mp found
  exact ⟨silicons, members, fetched, ran⟩

theorem captureChanged_spec
    (ran : engine.atomicFrom xid (captureChanged organization :: rest) memory d = some y) :
    ∃ provisional, d.fetchSilicons organization memory.affected = some provisional ∧
      engine.atomicFrom xid rest { memory with
        changed := provisional.filterMap (changedOf memory.target memory.beforeSilicons) } d = some y := by
  obtain ⟨left, found, ran⟩ := alone_query.mp ran
  obtain ⟨provisional, fetched, rfl⟩ := Option.map_eq_some_iff.mp found
  exact ⟨provisional, fetched, ran⟩

/-- The target's row, through the trigger. -/
theorem updateSiliconRow_spec {find : Memory → Directory → Option Silicon} {patch : SiliconPatch}
    (inv : Inv d) (found : ∀ memory d s, find memory d = some s →
      s ∈ d.silicons ∧ s.organization = organization)
    (ran : engine.atomicFrom xid (updateSiliconRow find patch.write :: rest) memory d = some y) :
    ∃ s, find memory d = some s ∧ Inv (d.apply (.silicon (patch.write s))) ∧
      engine.atomicFrom xid rest memory (d.apply (.silicon (patch.write s))) = some y := by
  obtain ⟨left, ws, written, ran⟩ := alone_command.mp ran
  have keeps : (updateSiliconRow find patch.write).Keeps [.hierarchy organization] :=
    keeps_updateSiliconRow found fun _ => List.mem_singleton_self _
  have after := Statement.Keeps.inv xid keeps inv written
  obtain ⟨s, picked, written⟩ := Option.bind_eq_some_iff.mp written
  split at written
  · obtain ⟨rfl, rfl⟩ := Prod.mk.inj (Option.some.inj written)
    exact ⟨s, picked, after, ran⟩
  · exact absurd written (by simp)

/-! ## The Silicon patch -/

/-- What a patch has locked is enough when it was gathered before. -/
theorem Patched.locked {affected changed : List Nat} (patched : Patched d y t t₁ changed)
    (wf : d.WellFormed) (among : ∀ id ∈ changed, id ∈ affected) {locks : List RowLock}
    (taken : ∀ k ∈ gatheredLocks d t.organization affected, k ∈ locks) : LockedBy locks none d y := by
  refine patched.lockedBy wf (fun s mem here listed => taken _ ?_) fun id listed => taken _ ?_
  · refine List.mem_append_left _ (List.mem_map.mpr ⟨s, mem_siliconsOf.mpr ⟨mem, here, ?_⟩, rfl⟩)
    simpa using among _ listed
  · exact List.mem_append_right _ (List.mem_map.mpr ⟨id, among id listed, rfl⟩)

/-- A patch without a new manager leaves the link. -/
theorem write_unlinked (patch : SiliconPatch) (none : patch.reportsTo.isSome = false) :
    (patch.write t).reportsTo = t.reportsTo := by
  rw [Option.isSome_eq_false_iff, Option.isNone_iff_eq_none] at none
  simp [SiliconPatch.write, none]

theorem updateUnderLock_announces (wf : d.WellFormed) (r : SiliconUpdate) (mem : t ∈ d.silicons)
    (here : t.organization = r.organization) (id : t.id = r.silicon)
    (target : memory.target = t.membership)
    (ran : engine.atomicFrom xid (updateUnderLock r) memory d = some y) :
    Announces none d y ∧ LockedBy (Engine.locksBeforeWrite xid (updateUnderLock r) memory d) none d y := by
  obtain ⟨affected, gathered, ran, taken⟩ := lockSubtree_spec (wf.tree _) ran
  have taken : ∀ k ∈ gatheredLocks d r.organization affected,
      k ∈ Engine.locksBeforeWrite xid (updateUnderLock r) memory d := taken
  rw [target] at gathered
  obtain ⟨after, validated, ran⟩ := alone_query.mp ran
  split at validated
  · obtain rfl := Option.some.inj validated
    obtain ⟨before, members, fetchedBefore, ran⟩ := captureBefore_spec ran
    obtain ⟨s, picked, inv, ran⟩ := updateSiliconRow_spec wf.tree (by
      intro memory d s picked
      obtain ⟨sMem, holds⟩ := Table.find?_spec picked
      simp only [Bool.and_eq_true, beq_iff_eq] at holds
      exact ⟨sMem, holds.1.1.1.1⟩) ran
    obtain ⟨sMem, holds⟩ := Table.find?_spec picked
    simp only [Bool.and_eq_true, beq_iff_eq] at holds
    obtain rfl := Table.unique sMem mem (holds.1.1.1.2.trans id.symm)
    have written := written_apply inv mem holds.1.2 holds.2
    obtain ⟨provisional, fetched, ran⟩ := captureChanged_spec ran
    obtain ⟨_, _, same, ran⟩ := alone_command.mp ran
    obtain ⟨rfl, rfl⟩ := Prod.mk.inj (Option.some.inj same)
    obtain ⟨_, _, same, ran⟩ := alone_command.mp ran
    obtain ⟨rfl, rfl⟩ := Prod.mk.inj (Option.some.inj same)
    rw [← here] at gathered fetchedBefore fetched ran taken
    obtain ⟨announces, patched, among⟩ := finish_patch
      ⟨memory.principal, s.membership, memory.targetVersion, affected, before, members, memory.changed,
        memory.resultingVersion⟩
      wf written gathered (write_unlinked r.patch) fetchedBefore fetched rfl _
      (fun _ _ => ⟨fun id => ⟨.inr, fun late => late.resolve_left List.not_mem_nil⟩, by simp⟩)
      (target ▸ ran)
    exact ⟨announces, patched.locked wf among taken⟩
  · exact absurd validated (by simp)

/-- The own profile's update writes the Silicon and the membership. -/
theorem updateSiliconSelfProfile_spec (wf : d.WellFormed) (r : SiliconUpdate) (mem : t ∈ d.silicons)
    (id : t.id = r.silicon) (unlinked : r.patch.reportsTo.isNone = true)
    (ran : engine.atomicFrom xid (updateSiliconSelfProfile r :: rest) memory d = some y) :
    ∃ x, Written d x t (r.patch.write t) [t.membership] ∧
      engine.atomicFrom xid rest memory x = some y := by
  obtain ⟨left, ws, written, ran⟩ := alone_command.mp ran
  obtain ⟨s, picked, same⟩ := Option.map_eq_some_iff.mp written
  obtain ⟨rfl, rfl⟩ := Prod.mk.inj same
  obtain ⟨sMem, holds⟩ := Table.find?_spec picked
  simp only [Bool.and_eq_true, beq_iff_eq] at holds
  obtain rfl := Table.unique sMem mem (holds.1.1.1.1.1.2.trans id.symm)
  have here : s.organization = r.organization := holds.1.1.1.1.1.1
  have live : s.live = true := holds.1.1.1.2
  have changes : r.patch.changes s = true := holds.2
  obtain ⟨seat, seatMem, seats, active⟩ := wf.tree s.organization |>.seat s mem rfl
  have own : (d.memberships.rows.filter fun m =>
      m.organization == r.organization && m.id == s.membership) = [seat] :=
    Table.filter_eq_singleton seatMem (by simp [seats.organization, here, seats.id])
      fun other _ held => by
        simp only [Bool.and_eq_true, beq_iff_eq] at held
        exact held.2.trans seats.id.symm
  have row : { r.patch.write s with reportsTo := s.reportsTo } = r.patch.write s := by
    rw [Option.isNone_iff_eq_none] at unlinked
    simp [SiliconPatch.write, unlinked]
  rw [own, row] at ran
  have first : Inv (d.applyAll [.silicon (r.patch.write s)]) := by
    refine inv_touches wf.tree fun w listed => ?_
    rw [List.mem_singleton.mp listed, ← row]
    exact ⟨s, mem, ⟨rfl, rfl, rfl, rfl, rfl⟩⟩
  have second : Inv ((d.apply (.silicon (r.patch.write s))).applyAll [.membership seat.bump]) := by
    refine inv_touches first fun w listed => ?_
    rw [List.mem_singleton.mp listed]
    exact touches_bumpMembership seatMem
  exact ⟨_, (written_apply first mem live changes).bumped seatMem seats active second, ran⟩

theorem updateOwnProfile_announces (wf : d.WellFormed) (r : SiliconUpdate) (mem : t ∈ d.silicons)
    (here : t.organization = r.organization) (id : t.id = r.silicon)
    (target : memory.target = t.membership) (unlinked : r.patch.reportsTo.isNone = true)
    (ran : engine.atomicFrom xid (updateOwnProfile r) memory d = some y) :
    Announces none d y ∧ LockedBy (Engine.locksBeforeWrite xid (updateOwnProfile r) memory d) none d y := by
  obtain ⟨left, ws, locked, ran⟩ := alone_command.mp ran
  have quiet := locked
  split at locked
  · exact absurd locked (by simp)
  rename_i s picked
  split at locked
  · rename_i met
    obtain ⟨rfl, rfl⟩ := Prod.mk.inj (Option.some.inj locked)
    obtain ⟨sMem, holds⟩ := Table.find?_spec picked
    simp only [Bool.and_eq_true, beq_iff_eq] at holds met
    obtain rfl := Table.unique sMem mem (holds.2.trans id.symm)
    have gathered : Gathered d s.organization s.membership false [s.membership] :=
      ⟨List.mem_singleton_self _, fun i listed =>
        ⟨s, mem, rfl, (List.mem_singleton.mp listed).symm, met.1.1⟩,
        fun _ i listed => List.mem_singleton.mp listed, fun none => absurd none (by decide)⟩
    obtain ⟨before, members, fetchedBefore, ran⟩ := captureBefore_spec ran
    obtain ⟨x, written, ran⟩ := updateSiliconSelfProfile_spec wf r mem id unlinked ran
    obtain ⟨provisional, fetched, ran⟩ := captureChanged_spec ran
    obtain ⟨_, _, same, ran⟩ := alone_command.mp ran
    obtain ⟨rfl, rfl⟩ := Prod.mk.inj (Option.some.inj same)
    rw [← here] at fetchedBefore fetched ran
    have nothing : ∀ e : Directory, e.touchMemberships s.organization [] = [] := by
      intro e
      simp [Directory.touchMemberships]
    have single : ∀ changed : List Nat, s.membership ∈ changed → (∀ i ∈ changed, i ∈ [s.membership]) →
        (∀ i, i ∈ changed ↔ i ∈ [s.membership] ∨ i ∈ ([] : List Nat)) ∧
          ∀ i ∈ [s.membership], i ∉ ([] : List Nat) := by
      intro changed listed among
      refine ⟨fun i => ⟨fun has => .inl (among i has), ?_⟩, by simp⟩
      rintro (own | none)
      · rw [List.mem_singleton.mp own]
        exact listed
      · exact absurd none List.not_mem_nil
    obtain ⟨announces, patched, among⟩ := finish_patch
      ⟨memory.principal, s.membership, memory.targetVersion, [s.membership], before, members,
        memory.changed, memory.resultingVersion⟩
      wf written gathered
      (fun _ => write_unlinked r.patch (Option.isSome_eq_false_iff.mpr unlinked)) fetchedBefore fetched rfl []
      (single _) (by rw [nothing]; exact target ▸ ran)
    refine ⟨announces, patched.locked wf among fun k gathered => ?_⟩
    have first : Engine.locksBeforeWrite xid (updateOwnProfile r) memory d = _ :=
      Engine.locksBeforeWrite_cons quiet
    rw [first]
    refine List.mem_append_left _ (List.mem_append_left _ (List.mem_flatMap.mpr ?_))
    have listed : s ∈ d.siliconsOf r.organization fun s => s.id == r.silicon :=
      mem_siliconsOf.mpr ⟨mem, here, by simpa using id⟩
    refine ⟨s, listed, ?_⟩
    rcases List.mem_append.mp gathered with silicon | membership
    · obtain ⟨other, otherListed, rfl⟩ := List.mem_map.mp silicon
      obtain ⟨otherMem, otherHere, same⟩ := mem_siliconsOf.mp otherListed
      have at_ : other.membership = s.membership := by simpa using same
      rw [wf.tree s.organization |>.unique otherMem otherHere mem rfl at_]
      exact List.mem_cons_self
    · obtain ⟨i, own, rfl⟩ := List.mem_map.mp membership
      rw [List.mem_singleton.mp own]
      simp
  · exact absurd locked (by simp)

/-- Every Silicon patch that commits. -/
theorem updateSilicon_announces (wf : d.WellFormed) (r : SiliconUpdate)
    (ran : engine.atomic xid (.updateSilicon r) d = some y) :
    Announces none d y ∧
      LockedBy (Engine.locksBeforeWrite xid (program (.updateSilicon r)) Memory.empty d) none d y := by
  obtain ⟨left, permitted, ran, taken⟩ := run_query ran
  split at permitted
  · obtain ⟨s, mem, here, id, live, -, version, ran, takenAfter⟩ := fetchIdentity_spec ran
    have locks : Engine.locksBeforeWrite xid (program (.updateSilicon r)) Memory.empty d = _ :=
      taken.trans takenAfter
    rw [locks]
    split at ran
    · rename_i own
      rw [Bool.and_eq_true] at own
      rw [if_pos (by rw [own.1, own.2]; rfl)]
      exact updateOwnProfile_announces wf r mem here id rfl own.2 ran
    · rename_i direct
      rw [if_neg direct]
      exact updateUnderLock_announces wf r mem here id rfl ran
  · exact absurd permitted (by simp)

/-! ## The member patch of a Silicon -/

theorem bumpMembership_spec {membership expected : Nat} (seat : Membership) (inv : Inv d)
    (mem : seat ∈ d.memberships) (here : seat.organization = organization) (id : seat.id = membership)
    (ran : engine.atomicFrom xid (bumpMembership organization membership expected :: rest) memory d =
      some y) :
    Inv (d.apply (.membership seat.bump)) ∧
      engine.atomicFrom xid rest memory (d.apply (.membership seat.bump)) = some y := by
  obtain ⟨left, ws, written, ran⟩ := alone_command.mp ran
  have keeps : (bumpMembership organization membership expected).Keeps [] := keeps_bumpMembership
  have after := keeps.inv xid inv written
  split at written
  · exact absurd written (by simp)
  · rename_i m found
    split at written
    · obtain ⟨rfl, rfl⟩ := Prod.mk.inj (Option.some.inj written)
      obtain ⟨mMem, -, mId⟩ := Directory.membership?_spec found
      obtain rfl := Table.unique mMem mem (mId.trans id.symm)
      exact ⟨after, ran⟩
    · exact absurd written (by simp)

/-- Every patch of a Silicon member that commits. -/
theorem siliconBranch_announces (wf : d.WellFormed) (r : MemberUpdate)
    (ran : engine.atomic xid (.updateSiliconMember r) d = some y) :
    Announces none d y ∧
      LockedBy (Engine.locksBeforeWrite xid (program (.updateSiliconMember r)) Memory.empty d)
        none d y := by
  obtain ⟨left, permitted, ran, taken⟩ := run_query ran
  split at permitted
  · obtain rfl := Option.some.inj permitted
    obtain ⟨m, mem, here, id, active, kind, version, ran, takenAfter⟩ :=
      fetchMembershipIdentity_spec ran
    obtain ⟨affected, gathered, ran, locked⟩ := lockSubtree_spec (wf.tree _) ran
    have locks : Engine.locksBeforeWrite xid (program (.updateSiliconMember r)) Memory.empty d = _ :=
      taken.trans takenAfter
    obtain ⟨before, members, fetchedBefore, ran⟩ := captureBefore_spec ran
    obtain ⟨after, validated, ran⟩ := alone_query.mp ran
    split at validated
    · obtain rfl := Option.some.inj validated
      obtain ⟨t, picked, inv, ran⟩ := updateSiliconRow_spec wf.tree (by
        intro memory d s picked
        obtain ⟨sMem, holds⟩ := Table.find?_spec picked
        simp only [Bool.and_eq_true, beq_iff_eq] at holds
        exact ⟨sMem, holds.1.1.1⟩) ran
      obtain ⟨tMem, holds⟩ := Table.find?_spec picked
      simp only [Bool.and_eq_true, beq_iff_eq] at holds
      have org : t.organization = r.organization := holds.1.1.1
      have target : t.membership = m.id := holds.1.1.2
      obtain ⟨seat, seatMem, seats, seatActive⟩ := wf.tree t.organization |>.seat t tMem rfl
      obtain rfl := Table.unique seatMem mem (seats.id.trans target)
      have written := written_apply inv tMem holds.1.2 holds.2
      obtain ⟨bumped, ran⟩ := bumpMembership_spec seat inv seatMem here id ran
      have written := written.bumped seatMem seats seatActive bumped
      obtain ⟨provisional, fetched, ran⟩ := captureChanged_spec ran
      obtain ⟨_, _, same, ran⟩ := alone_command.mp ran
      obtain ⟨rfl, rfl⟩ := Prod.mk.inj (Option.some.inj same)
      obtain ⟨_, _, same, ran⟩ := alone_command.mp ran
      obtain ⟨rfl, rfl⟩ := Prod.mk.inj (Option.some.inj same)
      rw [locks]
      rw [← org] at gathered fetchedBefore fetched ran
      rw [← target] at gathered
      have split : ∀ changed : List Nat, t.membership ∈ changed → (∀ id ∈ changed, id ∈ affected) →
          (∀ id, id ∈ changed ↔ id ∈ [t.membership] ∨
            id ∈ changed.filter fun id => id != t.membership) ∧
          ∀ id ∈ [t.membership], id ∉ changed.filter fun id => id != t.membership := by
        intro changed listed _
        refine ⟨fun id => ?_, by simp⟩
        by_cases own : id = t.membership
        · simp [own, listed]
        · simp [own]
      obtain ⟨announces, patched, among⟩ := finish_patch
        ⟨seat.principal, t.membership, seat.version, affected, before, members, [], 0⟩
        wf written gathered (write_unlinked r.siliconPatch) fetchedBefore
        fetched rfl _ (split _) (target ▸ ran)
      exact ⟨announces, patched.locked wf among fun k mem => locked k (org ▸ mem)⟩
    · exact absurd validated (by simp)
  · exact absurd permitted (by simp)

end SiliconIam.Organizations.Hierarchy
