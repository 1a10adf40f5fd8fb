/-
# Organizations.MemberAnnouncements -- a member patch of a Carbon announces what it changes

Views of rows that a request leaves alone (`siliconView_same`, `memberView_same`), and
the member patch of a Carbon: the settings and the access of one member are written,
so no other projection changes (`CarbonPatched`).  Its handler takes no row lock
before it writes.
-/
import SiliconIam.Organizations.PatchRequests

namespace SiliconIam.Organizations.Hierarchy

open SiliconIam.Theory SiliconIam.Theory.Transactions
open SiliconIam.Organizations.Roles (Membership)

set_option autoImplicit false

variable {d x y : Directory} {organization : Nat} {s : Silicon} {m : Membership} {n : Nat}
variable {memory : Memory} {xid : Nat} {rest : List Statement}

/-! ## What stays -/

/-- The Silicons of the two directories have the same links. -/
def SameLinks (d y : Directory) : Prop :=
  ∀ organization, d.LinkOf organization (fun _ => true) = y.LinkOf organization fun _ => true

theorem SameLinks.depth (links : SameLinks d y) {a : Nat} (level : d.Depth organization a n) :
    y.Depth organization a n := by
  rw [Directory.Depth, ← links organization]
  exact level

theorem sameLinks_of_silicons (same : y.silicons = d.silicons) : SameLinks d y := by
  intro organization
  have rows : y.siliconsOf organization (fun _ => true) = d.siliconsOf organization fun _ => true := by
    rw [Directory.siliconsOf, Directory.siliconsOf, same]
  funext a b
  rw [Directory.LinkOf, Directory.LinkOf, rows]

theorem siliconView_same (before : Inv d) (after : Inv y) (links : SameLinks d y)
    (mem : s ∈ d.silicons) (memAfter : s ∈ y.silicons) : y.siliconView s = d.siliconView s := by
  obtain ⟨n, level⟩ := (before s.organization).depth_exists mem rfl
  have levelAfter : y.Depth s.organization s.membership n := links.depth level
  rw [(before s.organization).siliconView_eq mem level,
    (after s.organization).siliconView_eq memAfter levelAfter]

theorem memberShown_same (settings : y.settingsOf m = d.settingsOf m) (extra : List Nat)
    (reportsTo level : Option Nat) :
    y.memberShown m extra reportsTo level = d.memberShown m extra reportsTo level := by
  rw [Directory.memberShown, Directory.memberShown, settings]

theorem memberView_same (wf : d.WellFormed) (after : Inv y) (links : SameLinks d y)
    (mem : m ∈ d.memberships) (settings : y.settingsOf m = d.settingsOf m)
    (extra : m.kind = .carbon → y.extraOf m = d.extraOf m)
    (kept : ∀ s ∈ d.silicons, Seats m s → s ∈ y.silicons)
    (back : ∀ row ∈ y.silicons, ∃ s ∈ d.silicons, s.id = row.id) :
    y.memberView m = d.memberView m := by
  cases kind : m.kind with
  | carbon =>
      rw [memberView_carbon kind, memberView_carbon kind, memberShown_same settings, extra kind]
  | silicon =>
      by_cases seated : ∃ s ∈ d.silicons, s.id = m.principal
      · obtain ⟨s, sMem, principal⟩ := seated
        have seats := wf.home m mem kind s sMem principal
        obtain ⟨n, level⟩ := (wf.tree s.organization).depth_exists sMem rfl
        have levelAfter : y.Depth s.organization s.membership n := links.depth level
        rw [(wf.tree s.organization).memberView_silicon sMem seats level,
          (after s.organization).memberView_silicon (kept s sMem seats) seats levelAfter,
          memberShown_same settings]
      · have vacant : ∀ s ∈ d.silicons, s.id ≠ m.principal := fun s sMem same => seated ⟨s, sMem, same⟩
        have vacantAfter : ∀ row ∈ y.silicons, row.id ≠ m.principal := by
          intro row rowMem same
          obtain ⟨s, sMem, id⟩ := back row rowMem
          exact vacant s sMem (id.trans same)
        rw [memberView_vacant kind vacant, memberView_vacant kind vacantAfter, memberShown_same settings]

/-! ## Extra access -/

theorem mem_extraOf {silicon : Nat} :
    silicon ∈ d.extraOf m ↔ (⟨m.organization, m.id, silicon⟩ : AccessGrant) ∈ d.access := by
  rw [Directory.extraOf, List.mem_insertionSort, List.mem_map]
  constructor
  · rintro ⟨g, listed, rfl⟩
    obtain ⟨mem, holds⟩ := List.mem_filter.mp listed
    simp only [Bool.and_eq_true, beq_iff_eq] at holds
    rw [← holds.1, ← holds.2]
    exact mem
  · intro mem
    exact ⟨_, List.mem_filter.mpr ⟨mem, by simp⟩, rfl⟩

theorem ascending_of_sorted {l : List Nat} (distinct : l.Nodup) :
    (l.insertionSort (· ≤ ·)).Pairwise (· < ·) := by
  have sorted := List.pairwise_insertionSort (· ≤ ·) l
  have nodup : (l.insertionSort (· ≤ ·)).Nodup := (List.perm_insertionSort _ l).nodup_iff.mpr distinct
  exact (sorted.and nodup).imp fun both => lt_of_le_of_ne both.1 both.2

theorem extraOf_ascending : (d.extraOf m).Pairwise (· < ·) := by
  refine ascending_of_sorted (List.Nodup.map_on ?_ ?_)
  · intro a aListed b bListed same
    obtain ⟨_, _, _⟩ := a
    obtain ⟨_, _, _⟩ := b
    simp_all
  · have distinct := d.access.distinct
    rw [List.map_id] at distinct
    exact distinct.filter _

/-- The list is what is in it. -/
theorem extraOf_eq {l : List Nat} (ascending : l.Pairwise (· < ·))
    (same : ∀ silicon, (⟨m.organization, m.id, silicon⟩ : AccessGrant) ∈ d.access ↔ silicon ∈ l) :
    d.extraOf m = l :=
  List.Pairwise.eq_of_mem_iff extraOf_ascending ascending fun silicon =>
    mem_extraOf.trans (same silicon)

/-! ## The member patch of a Carbon -/

/-- The settings and the access of one member are written. -/
structure Edited (d x : Directory) (m : Membership) (settings : CarbonSettings) (extra : List Nat) :
    Prop where
  inv : Inv x
  present : settings ∈ x.settings
  membership : settings.membership = m.id
  organization : settings.organization = m.organization
  silicons : x.silicons = d.silicons
  memberships : x.memberships = d.memberships
  settings : ∀ row, row ∈ x.settings ↔ ∃ c ∈ d.settings,
    row = if c.membership = m.id then settings else c
  access : ∀ g, g ∈ x.access ↔
    if g.organization = m.organization ∧ g.carbon = m.id then g.silicon ∈ extra else g ∈ d.access
  distinct : extra.Nodup
  outbox : x.outbox = d.outbox

namespace Edited

variable {settings next : CarbonSettings} {extra : List Nat} {r : MemberUpdate}

theorem start (inv : Inv d) (present : settings ∈ d.settings) (membership : settings.membership = m.id)
    (organization : settings.organization = m.organization) :
    Edited d d m settings (d.extraOf m) where
  inv := inv
  present := present
  membership := membership
  organization := organization
  silicons := rfl
  memberships := rfl
  settings := by
    intro row
    have same : ∀ c ∈ d.settings, (if c.membership = m.id then settings else c) = c := by
      intro c mem
      split
      · rename_i at_
        exact Table.unique present mem (membership.trans at_.symm)
      · rfl
    constructor
    · exact fun mem => ⟨row, mem, (same row mem).symm⟩
    · rintro ⟨c, mem, rfl⟩
      rw [same c mem]
      exact mem
  access := by
    intro g
    split
    · rename_i own
      rw [mem_extraOf, ← own.1, ← own.2]
    · rfl
  distinct := extraOf_ascending.imp fun less => less.ne
  outbox := rfl

/-- The settings that the handler's updates find. -/
theorem found (edited : Edited d x m settings extra) (org : m.organization = r.organization)
    (id : m.id = r.membership) : r.settings? x = some settings := by
  refine Table.find?_eq_some_of_key edited.present ?_ fun other _ holds => ?_
  · simp [edited.organization, edited.membership, org, id]
  · simp only [Bool.and_eq_true, beq_iff_eq] at holds
    rw [holds.2, edited.membership, id]

theorem write (edited : Edited d x m settings extra) (membership : next.membership = settings.membership)
    (organization : next.organization = settings.organization) :
    Edited d (x.applyAll [.settings next]) m next extra := by
  have rows : ∀ row, row ∈ (x.applyAll [.settings next]).settings ↔ ∃ c ∈ x.settings,
      row = if c.membership = settings.membership then next else c :=
    fun row => Table.mem_upsert_of_mem edited.present next membership
  refine ⟨inv_touches edited.inv fun w mem => ?_, (rows next).mpr ⟨settings, edited.present, ?_⟩,
    membership.trans edited.membership, organization.trans edited.organization, edited.silicons,
    edited.memberships, fun row => ?_, edited.access, edited.distinct, edited.outbox⟩
  · rw [List.mem_singleton.mp mem]
    trivial
  · rw [if_pos rfl]
  · rw [rows, edited.membership]
    constructor
    · rintro ⟨b, mem, rfl⟩
      obtain ⟨c, cMem, rfl⟩ := (edited.settings b).mp mem
      refine ⟨c, cMem, ?_⟩
      by_cases own : c.membership = m.id
      · simp [own, edited.membership]
      · simp [own]
    · rintro ⟨c, mem, rfl⟩
      refine ⟨_, (edited.settings _).mpr ⟨c, mem, rfl⟩, ?_⟩
      by_cases own : c.membership = m.id
      · simp [own, edited.membership]
      · simp [own]

theorem setFirstSilicon (edited : Edited d x m settings extra) (org : m.organization = r.organization)
    (id : m.id = r.membership)
    (ran : engine.atomicFrom xid (r.setFirstSilicon :: rest) memory x = some y) :
    ∃ z, Edited d z m { settings with
        firstSilicon := r.firstSilicon.getD settings.firstSilicon } extra ∧
      engine.atomicFrom xid rest memory z = some y := by
  obtain ⟨left, ws, written, ran⟩ := alone_command.mp ran
  split at written
  · rename_i none
    obtain ⟨rfl, rfl⟩ := Prod.mk.inj (Option.some.inj written)
    rw [none]
    exact ⟨x, edited, ran⟩
  · rename_i first set
    split at written
    · obtain ⟨rfl, rfl⟩ := Prod.mk.inj (Option.some.inj written)
      rw [edited.found org id] at ran
      rw [set]
      exact ⟨_, edited.write rfl rfl, ran⟩
    · exact absurd written (by simp)

theorem setDefaultTrust (edited : Edited d x m settings extra) (org : m.organization = r.organization)
    (id : m.id = r.membership)
    (ran : engine.atomicFrom xid (r.setDefaultTrust :: rest) memory x = some y) :
    ∃ z, Edited d z m { settings with
        defaultTrust := r.defaultTrust.getD settings.defaultTrust } extra ∧
      engine.atomicFrom xid rest memory z = some y := by
  obtain ⟨left, ws, written, ran⟩ := alone_command.mp ran
  rw [edited.found org id] at written
  cases set : r.defaultTrust with
  | none =>
      rw [set] at written
      obtain ⟨rfl, rfl⟩ := Prod.mk.inj (Option.some.inj written)
      exact ⟨x, edited, ran⟩
  | some trust =>
      rw [set] at written
      obtain ⟨rfl, rfl⟩ := Prod.mk.inj (Option.some.inj written)
      exact ⟨_, edited.write rfl rfl, ran⟩

/-- The grants of the member taken, and others given. -/
theorem replace (edited : Edited d x m settings extra) (given : List Nat) (distinct : given.Nodup)
    {own : AccessGrant → Bool}
    (picks : ∀ g, own g = true ↔ g.organization = m.organization ∧ g.carbon = m.id) :
    Edited d (x.applyAll ((x.access.rows.filter own).map .revoke ++
      given.map fun silicon => .grant ⟨m.organization, m.id, silicon⟩)) m settings given := by
  have writes : (given.map fun silicon => Write.grant ⟨m.organization, m.id, silicon⟩) =
      (given.map (AccessGrant.mk m.organization m.id)).map .grant := by
    rw [List.map_map]
    rfl
  have keys : ((given.map (AccessGrant.mk m.organization m.id)).map
      (id : AccessGrant → AccessGrant)).Nodup := by
    rw [List.map_id]
    exact distinct.map fun a b same => (AccessGrant.mk.inj same).2.2
  have inv : Inv (x.applyAll ((x.access.rows.filter own).map .revoke ++
      given.map fun silicon => .grant ⟨m.organization, m.id, silicon⟩)) := by
    refine inv_touches edited.inv fun w mem => ?_
    rcases List.mem_append.mp mem with taken | granted
    · obtain ⟨g, -, rfl⟩ := List.mem_map.mp taken
      trivial
    · obtain ⟨silicon, -, rfl⟩ := List.mem_map.mp granted
      trivial
  rw [writes, applyAll_append, applyAll_revokes, applyAll_grants] at inv ⊢
  refine ⟨inv, edited.present, edited.membership, edited.organization, edited.silicons,
    edited.memberships, edited.settings, fun g => ?_, distinct, edited.outbox⟩
  refine (Table.mem_foldl_upsert keys).trans ?_
  rw [Table.mem_foldl_erase, edited.access]
  by_cases mine : g.organization = m.organization ∧ g.carbon = m.id
  · rw [if_pos mine, if_pos mine]
    constructor
    · rintro (listed | ⟨⟨old, kept⟩, -⟩)
      · obtain ⟨silicon, mem, rfl⟩ := List.mem_map.mp listed
        exact mem
      · refine absurd (List.mem_filter.mpr ⟨(edited.access g).mpr ?_, (picks g).mpr mine⟩) kept
        rw [if_pos mine]
        exact old
    · intro mem
      refine .inl (List.mem_map.mpr ⟨g.silicon, mem, ?_⟩)
      rw [← mine.1, ← mine.2]
  · rw [if_neg mine, if_neg mine]
    constructor
    · rintro (listed | ⟨⟨old, -⟩, -⟩)
      · obtain ⟨silicon, -, rfl⟩ := List.mem_map.mp listed
        exact absurd ⟨rfl, rfl⟩ mine
      · exact old
    · intro old
      refine .inr ⟨⟨old, fun taken => mine ((picks g).mp (List.mem_filter.mp taken).2)⟩, ?_⟩
      rintro other listed rfl
      obtain ⟨silicon, -, rfl⟩ := List.mem_map.mp listed
      exact mine ⟨rfl, rfl⟩

theorem replaceExtraSilicons (edited : Edited d x m settings extra)
    (org : m.organization = r.organization) (id : m.id = r.membership)
    (ran : engine.atomicFrom xid (r.replaceExtraSilicons :: rest) memory x = some y) :
    ∃ z, Edited d z m settings (r.extraSilicons.getD extra) ∧
      engine.atomicFrom xid rest memory z = some y := by
  obtain ⟨left, ws, written, ran⟩ := alone_command.mp ran
  split at written
  · rename_i none
    obtain ⟨rfl, rfl⟩ := Prod.mk.inj (Option.some.inj written)
    rw [none]
    exact ⟨x, edited, ran⟩
  · rename_i given set
    split at written
    · rename_i met
      simp only [Bool.and_eq_true, decide_eq_true_eq] at met
      obtain ⟨rfl, rfl⟩ := Prod.mk.inj (Option.some.inj written)
      rw [set]
      rw [← org, ← id] at ran
      refine ⟨_, ?_, ran⟩
      exact edited.replace given met.1.2 fun g => by simp
    · exact absurd written (by simp)

/-- The settings that `m` is shown with. -/
theorem settingsOf (edited : Edited d x m settings extra) : x.settingsOf m = some settings := by
  refine Table.find?_eq_some_of_key edited.present ?_ fun other _ holds => ?_
  · simp [edited.organization, edited.membership]
  · simp only [Bool.and_eq_true, beq_iff_eq] at holds
    rw [holds.2, edited.membership]

theorem extraOf (edited : Edited d x m settings extra) :
    x.extraOf m = extra.insertionSort (· ≤ ·) := by
  refine extraOf_eq (ascending_of_sorted edited.distinct) fun silicon => ?_
  rw [edited.access, if_pos ⟨rfl, rfl⟩, List.mem_insertionSort]

/-- Settings and access of the others. -/
theorem others (edited : Edited d x m settings extra) {other : Membership} (apart : other.id ≠ m.id) :
    x.settingsOf other = d.settingsOf other ∧ x.extraOf other = d.extraOf other := by
  have back : ∀ c ∈ d.settings, c.membership = other.id → c ∈ x.settings := by
    intro c mem at_
    have differ : c.membership ≠ m.id := at_ ▸ apart
    exact (edited.settings c).mpr ⟨c, mem, by rw [if_neg differ]⟩
  have forth : ∀ c ∈ x.settings, c.membership = other.id → c ∈ d.settings := by
    intro c mem at_
    obtain ⟨b, bMem, rfl⟩ := (edited.settings c).mp mem
    by_cases own : b.membership = m.id
    · rw [if_pos own, edited.membership] at at_
      exact absurd at_.symm apart
    · rwa [if_neg own]
  constructor
  · have at_ : ∀ c : CarbonSettings, (c.organization == other.organization &&
        c.membership == other.id) = true → c.membership = other.id := by
      intro c holds
      rw [Bool.and_eq_true, beq_iff_eq, beq_iff_eq] at holds
      exact holds.2
    refine Table.find?_congr (fun c holds => ?_) at_
    exact ⟨fun mem => forth c mem (at_ c holds), fun mem => back c mem (at_ c holds)⟩
  · refine extraOf_eq extraOf_ascending fun silicon => ?_
    rw [edited.access, if_neg fun own => apart own.2, mem_extraOf]

/-- The edited directory with the member's next version and its event. -/
theorem announces (edited : Edited d x m settings extra) (wf : d.WellFormed) (mem : m ∈ d.memberships)
    (active : m.active = true) (kind : m.kind = .carbon) {memberships : Table Membership.id}
    {event : OutboxEvent}
    (inv : Inv { x with memberships := memberships, outbox := x.outbox ++ [event] })
    (rows : ∀ row, row ∈ memberships ↔ ∃ b ∈ d.memberships, row = if b.id = m.id then m.bump else b)
    (made : event.aggregateType = .organizationMembership ∧ event.aggregate = m.id ∧
      event.version = m.version + 1)
    (differs : ¬ ((d.settingsOf m).bind CarbonSettings.firstSilicon = settings.firstSilicon ∧
      d.extraOf m = extra.insertionSort (· ≤ ·) ∧
      (d.settingsOf m).map CarbonSettings.defaultTrust = some settings.defaultTrust)) :
    Announces none d { x with memberships := memberships, outbox := x.outbox ++ [event] } ∧
      ¬ LockedBy [] none d { x with memberships := memberships, outbox := x.outbox ++ [event] } := by
  generalize last : ({ x with memberships := memberships, outbox := x.outbox ++ [event] } :
    Directory) = y at inv ⊢
  have silicons : y.silicons = d.silicons := by rw [← last]; exact edited.silicons
  have members : y.memberships = memberships := by rw [← last]
  have links := sameLinks_of_silicons silicons
  have shown : y.memberView m.bump =
      some (y.memberShown m.bump (y.extraOf m.bump) none none, none) := memberView_carbon kind
  have own : y.settingsOf m.bump = some settings := by rw [← last]; exact edited.settingsOf
  have access : y.extraOf m.bump = extra.insertionSort (· ≤ ·) := by rw [← last]; exact edited.extraOf
  have changed : y.memberView m.bump ≠ d.memberView m := by
    intro same
    rw [shown, memberView_carbon kind, access, Option.some.injEq, Prod.mk.injEq] at same
    have first := congrArg MembershipResponse.firstSilicon same.1
    have trust := congrArg MembershipResponse.defaultTrust same.1
    simp only [Directory.memberShown, own, Option.bind_some, Option.map_some] at first trust
    exact differs ⟨first.symm, (congrArg MembershipResponse.extraSilicons same.1).symm, trust.symm⟩
  have bumped : m.bump ∈ y.memberships := by
    rw [members]
    exact (rows _).mpr ⟨m, mem, by rw [if_pos rfl]⟩
  constructor
  · refine ⟨[event], ?_, fun s sMem _ => ⟨s, silicons ▸ sMem, rfl, rfl, ?_⟩, fun b bMem _ => ?_⟩
    · rw [← last, edited.outbox]
    · have same := siliconView_same wf.tree inv links sMem (silicons ▸ sMem)
      have quiet : versionsOf [event] .silicon s.id = [] := by simp [versionsOf, made.1]
      rw [same, quiet]
      exact ⟨fun differ => absurd rfl differ.2, fun _ => ⟨rfl, rfl⟩⟩
    · by_cases target : b.id = m.id
      · obtain rfl := Table.unique bMem mem target
        refine ⟨_, bumped, rfl, rfl, fun _ => ⟨rfl, ?_⟩, fun kept => absurd ⟨active, changed⟩ kept⟩
        simp [versionsOf, made.1, made.2.1, made.2.2, Roles.Membership.bump]
      · have kept : b ∈ y.memberships := by
          rw [members]
          exact (rows b).mpr ⟨b, bMem, by rw [if_neg target]⟩
        have same : y.memberView b = d.memberView b := by
          obtain ⟨settingsSame, extraSame⟩ := edited.others target
          refine memberView_same wf inv links bMem ?_ (fun _ => ?_) (fun s sMem _ => silicons ▸ sMem)
            fun row rowMem => ⟨row, silicons ▸ rowMem, rfl⟩
          · rw [← last]
            exact settingsSame
          · rw [← last]
            exact extraSame
        have quiet : versionsOf [event] .organizationMembership b.id = [] := by
          simp [versionsOf, made.2.1, Ne.symm target]
        refine ⟨b, kept, rfl, rfl, ?_⟩
        rw [same, quiet]
        exact ⟨fun differ => absurd rfl differ.2, fun _ => ⟨rfl, rfl⟩⟩
  · intro locked
    have listed := locked.memberships m mem (by simp) active m.bump bumped rfl changed
    exact absurd listed List.not_mem_nil

end Edited

/-- Nothing is locked before the first write where only writing statements lock. -/
theorem locksBeforeWrite_unlocked {l : List Statement}
    (unlocked : ∀ statement ∈ l, ∀ memory left e,
      statement.effect xid memory e = some (left, []) → statement.locks memory e = []) :
    Engine.locksBeforeWrite xid l memory d = [] := by
  induction l generalizing memory with
  | nil => rfl
  | cons statement rest ih =>
      obtain ⟨first, unlocked⟩ := List.forall_mem_cons.mp unlocked
      rw [Engine.locksBeforeWrite]
      split
      · rename_i left quiet
        rw [first memory left d quiet, List.nil_append]
        exact ih unlocked
      · rfl

theorem command_unlocked {f : Memory → Directory → Option (Memory × List Write)} {left : Memory}
    (quiet : (command (fun _ _ => []) f).effect xid memory d = some (left, [])) :
    (command (fun _ _ => []) f).locks memory d = [] := by
  have quiet : f memory d = some (left, []) := quiet
  simp [command, quiet]

theorem carbonBranch_unlocked (r : MemberUpdate) :
    Engine.locksBeforeWrite xid r.carbonBranch memory d = [] := by
  refine locksBeforeWrite_unlocked fun statement mem memory left e quiet => ?_
  simp only [MemberUpdate.carbonBranch, List.mem_cons, List.not_mem_nil, or_false] at mem
  rcases mem with rfl | rfl | rfl | rfl | rfl | rfl | rfl | rfl
  · rfl
  · rfl
  · rfl
  · exact command_unlocked quiet
  · exact command_unlocked quiet
  · exact command_unlocked quiet
  · exact command_unlocked quiet
  · exact command_unlocked quiet

/-- A patch that changes what the handler has read changes the settings or the access. -/
theorem changes_settings (settings : CarbonSettings) {r : MemberUpdate} {before : MembershipResponse}
    (kind : m.kind = .carbon) (found : d.memberResponse m = some before)
    (changes : r.changes before = true) :
    ¬ ((d.settingsOf m).bind CarbonSettings.firstSilicon =
        r.firstSilicon.getD settings.firstSilicon ∧
      d.extraOf m = (r.extraSilicons.getD (d.extraOf m)).insertionSort (· ≤ ·) ∧
      (d.settingsOf m).map CarbonSettings.defaultTrust =
        some (r.defaultTrust.getD settings.defaultTrust)) := by
  have viewed := memberView_carbon (d := d) kind
  rw [Directory.memberView, found, Option.map_some, Option.some.injEq, Prod.mk.injEq] at viewed
  have firstShown : before.firstSilicon = (d.settingsOf m).bind CarbonSettings.firstSilicon :=
    congrArg MembershipResponse.firstSilicon viewed.1
  have extraShown : before.extraSilicons = d.extraOf m :=
    congrArg MembershipResponse.extraSilicons viewed.1
  have trustShown : before.defaultTrust = (d.settingsOf m).map CarbonSettings.defaultTrust :=
    congrArg MembershipResponse.defaultTrust viewed.1
  rintro ⟨first, extra, trust⟩
  simp only [MemberUpdate.changes, Bool.or_eq_true, Option.any_eq_true, bne_iff_ne] at changes
  rcases changes with (⟨v, set, differs⟩ | ⟨v, set, differs⟩) | ⟨v, set, differs⟩
  · rw [set] at first
    exact differs (firstShown.trans first).symm
  · rw [set] at extra
    exact differs (extraShown.trans extra).symm
  · rw [set] at trust
    exact differs (trustShown.trans trust)

/-- Every patch of a Carbon member that commits. -/
theorem carbonBranch_announces (wf : d.WellFormed) (r : MemberUpdate)
    (ran : engine.atomic xid (.updateCarbonMember r) d = some y) :
    Announces none d y ∧
      ¬ LockedBy (Engine.locksBeforeWrite xid (program (.updateCarbonMember r)) Memory.empty d)
        none d y := by
  have locks : Engine.locksBeforeWrite xid (program (.updateCarbonMember r)) Memory.empty d = [] :=
    carbonBranch_unlocked r
  rw [locks]
  obtain ⟨left, permitted, ran⟩ := alone_query.mp ran
  split at permitted
  · obtain ⟨m, mem, org, id, active, kind, version, ran, -⟩ := fetchMembershipIdentity_spec ran
    obtain ⟨left, compared, ran⟩ := alone_query.mp ran
    split at compared
    rotate_left
    · exact absurd compared (by simp)
    rename_i before others fetched
    split at compared
    rotate_left
    · exact absurd compared (by simp)
    rename_i changes
    obtain rfl := Option.some.inj compared
    obtain ⟨found, foundMem, -, foundAt, response⟩ :=
      (fetchMembers_mem fetched).mp List.mem_cons_self
    obtain rfl := Table.unique foundMem mem ((List.mem_singleton.mp foundAt).trans id.symm)
    obtain ⟨c, cMem, cAt⟩ := wf.settled found mem active kind
    have cOrg : c.organization = found.organization := by
      obtain ⟨owner, ownerMem, at_, here, -⟩ := wf.settings c cMem
      rw [← here, Table.unique ownerMem mem (at_.trans cAt)]
    have differs := changes_settings c kind response changes
    have edited := Edited.start wf.tree cMem cAt cOrg
    obtain ⟨_, edited, ran⟩ := edited.setFirstSilicon org id ran
    obtain ⟨_, edited, ran⟩ := edited.replaceExtraSilicons org id ran
    obtain ⟨z, edited, ran⟩ := edited.setDefaultTrust org id ran
    have memAfter : found ∈ z.memberships := edited.memberships ▸ mem
    obtain ⟨bumped, ran⟩ := bumpMembership_spec found edited.inv memAfter org id ran
    obtain ⟨left, ws, recorded, ended⟩ := alone_command.mp ran
    split at recorded
    rotate_left
    · exact absurd recorded (by simp)
    rename_i member _ fetchedAfter
    obtain ⟨rfl, rfl⟩ := Prod.mk.inj (Option.some.inj recorded)
    have rows : ∀ row, row ∈ z.memberships.upsert found.bump ↔ ∃ b ∈ d.memberships,
        row = if b.id = found.id then found.bump else b := by
      intro row
      rw [← edited.memberships]
      exact Table.mem_upsert_of_mem memAfter found.bump rfl
    obtain ⟨own, ownMem, -, ownAt, response⟩ :=
      (fetchMembers_mem fetchedAfter).mp List.mem_cons_self
    have bumpMem : found.bump ∈ (z.apply (.membership found.bump)).memberships :=
      (rows _).mpr ⟨found, mem, by rw [if_pos rfl]⟩
    obtain rfl := Table.unique ownMem bumpMem (List.mem_singleton.mp ownAt)
    obtain ⟨memberAt, memberVersion⟩ := memberResponse_spec response
    have announced : Inv ((z.apply (.membership found.bump)).applyAll
        [.event ⟨.organizationMembership, member.id, member.version,
          "organization.membership.updated.v1"⟩]) := by
      refine inv_touches bumped fun w listed => ?_
      rw [List.mem_singleton.mp listed]
      trivial
    obtain rfl := Option.some.inj ended
    exact edited.announces wf mem active kind announced rows ⟨rfl, memberAt, memberVersion⟩ differs
  · exact absurd permitted (by simp)

end SiliconIam.Organizations.Hierarchy
