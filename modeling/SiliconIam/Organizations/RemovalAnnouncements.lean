/-
# Organizations.RemovalAnnouncements -- a removal announces what it changes among the survivors

`Departed` is what a removal leaves: the rows of all other Silicons, and the next
version of the Carbons that had the removed Silicon as their first Silicon or among
their extra access.  A removal of a Carbon member and a removal of a Silicon that
nobody reports to lead there.  Where somebody does, the report's row is written and
nothing announces its Silicon.
-/
import SiliconIam.Organizations.MemberAnnouncements

namespace SiliconIam.Organizations.Hierarchy

open SiliconIam.Theory SiliconIam.Theory.Forest SiliconIam.Theory.Transactions
open SiliconIam.Organizations.Roles (Membership)

set_option autoImplicit false

variable {d x y : Directory} {organization target : Nat} {reassign : Option Nat} {s : Silicon}
variable {m : Membership} {surviving : List Nat} {ws : List Write}
variable {memory left : Memory} {xid : Nat} {rest : List Statement}

/-! ## What a removal leaves -/

structure Departed (d y : Directory) (organization target : Nat) (surviving : List Nat) : Prop where
  inv : Inv y
  links : SameLinks d y
  silicons : ∀ s ∈ d.silicons, s.membership ≠ target → s ∈ y.silicons
  back : ∀ row ∈ y.silicons, ∃ s ∈ d.silicons, s.id = row.id
  memberships : ∀ m ∈ d.memberships, m.id ≠ target →
    (if touchedMembership organization surviving m then m.bump else m) ∈ y.memberships
  survivors : ∀ m ∈ d.memberships, m.id ∈ surviving →
    m.kind = .carbon ∧ m.organization = organization ∧ m.active = true ∧ m.id ≠ target
  kept : ∀ m ∈ d.memberships, m.active = true → m.id ≠ target → m.id ∉ surviving →
    y.settingsOf m = d.settingsOf m ∧ (m.kind = .carbon → y.extraOf m = d.extraOf m)
  changed : ∀ m ∈ d.memberships, m.id ∈ surviving →
    (y.settingsOf m).bind CarbonSettings.firstSilicon ≠
      (d.settingsOf m).bind CarbonSettings.firstSilicon ∨ y.extraOf m ≠ d.extraOf m

namespace Departed

variable (departed : Departed d y organization target surviving)
include departed

/-- A survivor of the scope is shown with other settings or other access. -/
theorem survivor (mem : m ∈ d.memberships) (listed : m.id ∈ surviving) :
    m.bump ∈ y.memberships ∧ y.memberView m.bump ≠ d.memberView m := by
  obtain ⟨kind, here, active, apart⟩ := departed.survivors m mem listed
  have touched : touchedMembership organization surviving m = true := by
    simp [touchedMembership, here, active, listed]
  have bumped := departed.memberships m mem apart
  rw [if_pos touched] at bumped
  refine ⟨bumped, fun same => ?_⟩
  have shown : y.memberView m.bump =
      some (y.memberShown m.bump (y.extraOf m.bump) none none, none) := memberView_carbon kind
  rw [shown, memberView_carbon kind, Option.some.injEq, Prod.mk.injEq] at same
  rcases departed.changed m mem listed with first | extra
  · exact first (congrArg MembershipResponse.firstSilicon same.1)
  · exact extra (congrArg MembershipResponse.extraSilicons same.1)

theorem untouched (mem : m ∈ d.memberships) (apart : m.id ≠ target) (unlisted : m.id ∉ surviving) :
    m ∈ y.memberships := by
  have untouched : ¬ touchedMembership organization surviving m = true := by
    simp [touchedMembership, unlisted]
  have kept := departed.memberships m mem apart
  rwa [if_neg untouched] at kept

/-- Everyone else is shown as before. -/
theorem same_view (wf : d.WellFormed) (mem : m ∈ d.memberships) (active : m.active = true)
    (apart : m.id ≠ target) (unlisted : m.id ∉ surviving) : y.memberView m = d.memberView m := by
  obtain ⟨settings, extra⟩ := departed.kept m mem active apart unlisted
  refine memberView_same wf departed.inv departed.links mem settings extra (fun s sMem seats => ?_)
    departed.back
  exact departed.silicons s sMem fun same => apart (seats.id.trans same)

theorem announcedBy (wf : d.WellFormed) {events : List OutboxEvent} (outbox : y.outbox = d.outbox ++ events)
    (silicons : ∀ s ∈ d.silicons, s.membership ≠ target → versionsOf events .silicon s.id = [])
    (memberships : ∀ m ∈ d.memberships, m.id ≠ target →
      versionsOf events .organizationMembership m.id =
        if m.id ∈ surviving then [m.version + 1] else []) :
    AnnouncedBy events (some target) d y where
  outbox := outbox
  silicons := by
    intro s mem other
    have apart : s.membership ≠ target := fun same => other (congrArg some same)
    have kept := departed.silicons s mem apart
    refine ⟨s, kept, rfl, rfl, ?_⟩
    rw [silicons s mem apart, siliconView_same wf.tree departed.inv departed.links mem kept]
    exact ⟨fun differs => absurd rfl differs.2, fun _ => ⟨rfl, rfl⟩⟩
  memberships := by
    intro m mem other
    have apart : m.id ≠ target := fun same => other (congrArg some same)
    rw [memberships m mem apart]
    by_cases listed : m.id ∈ surviving
    · obtain ⟨bumped, differs⟩ := departed.survivor mem listed
      obtain ⟨-, -, active, -⟩ := departed.survivors m mem listed
      refine ⟨m.bump, bumped, rfl, rfl, ?_⟩
      rw [if_pos listed]
      exact ⟨fun _ => ⟨rfl, rfl⟩, fun same => absurd ⟨active, differs⟩ same⟩
    · refine ⟨m, departed.untouched mem apart listed, rfl, rfl, ?_⟩
      rw [if_neg listed]
      exact ⟨fun ⟨active, differs⟩ => absurd (departed.same_view wf mem active apart listed) differs,
        fun _ => ⟨rfl, rfl⟩⟩

theorem lockedBy (wf : d.WellFormed) {locks : List RowLock}
    (taken : ∀ id ∈ surviving, .membership id ∈ locks) : LockedBy locks (some target) d y where
  silicons := by
    intro s mem other _ row rowMem id differs
    have kept := departed.silicons s mem fun same => other (congrArg some same)
    obtain rfl := Table.unique rowMem kept id
    exact absurd (siliconView_same wf.tree departed.inv departed.links mem kept) differs
  memberships := by
    intro m mem other active row rowMem id differs
    have apart : m.id ≠ target := fun same => other (congrArg some same)
    by_cases listed : m.id ∈ surviving
    · exact taken m.id listed
    · obtain rfl := Table.unique rowMem (departed.untouched mem apart listed) id
      exact absurd (departed.same_view wf mem active apart listed) differs

end Departed

/-! ## Settings and access without the removed member -/

/-- Whether a grant is about the removed membership. -/
def AccessGrant.About (organization target : Nat) (g : AccessGrant) : Prop :=
  g.organization = organization ∧ (g.carbon = target ∨ g.silicon = target)

/-- The survivors' grants and versions, over rows that the first part has left. -/
theorem settle_spec (organization target : Nat) (surviving : List Nat)
    (members : x.memberships = d.memberships) (access : x.access = d.access) :
    ∃ grants memberships, x.applyAll (d.settleSurvivors organization target surviving) =
        { x with access := grants, memberships := memberships } ∧
      (∀ g, g ∈ grants ↔ g ∈ d.access ∧ ¬ g.About organization target) ∧
      ∀ row, row ∈ memberships ↔ ∃ m ∈ d.memberships,
        row = if touchedMembership organization surviving m then m.bump else m := by
  have same : d.touchMemberships organization surviving =
      ({ x with access := (d.access.rows.filter fun g => g.organization == organization &&
        (g.carbon == target || g.silicon == target)).foldl Table.erase x.access } :
          Directory).touchMemberships organization surviving := by
    rw [Directory.touchMemberships, Directory.touchMemberships, members]
  obtain ⟨memberships, written, rows⟩ := touchMemberships_spec
    ({ x with access := (d.access.rows.filter fun g => g.organization == organization &&
      (g.carbon == target || g.silicon == target)).foldl Table.erase x.access } : Directory)
    organization surviving
  refine ⟨(d.access.rows.filter fun g => g.organization == organization &&
    (g.carbon == target || g.silicon == target)).foldl Table.erase x.access, memberships, ?_,
    fun g => ?_, fun row => ?_⟩
  · rw [Directory.settleSurvivors, applyAll_append, applyAll_revokes, same]
    exact written
  · rw [Table.mem_foldl_erase, access, List.mem_filter, Table.mem_rows]
    simp only [Bool.and_eq_true, Bool.or_eq_true, beq_iff_eq, AccessGrant.About]
    tauto
  · rw [rows]
    simp only [members]

section Without

variable (access : ∀ g, g ∈ y.access ↔ g ∈ d.access ∧ ¬ g.About organization target)
include access

theorem extraOf_kept (apart : m.id ≠ target)
    (none : m.organization = organization → (⟨m.organization, m.id, target⟩ : AccessGrant) ∉ d.access) :
    y.extraOf m = d.extraOf m := by
  refine extraOf_eq extraOf_ascending fun silicon => ?_
  rw [access, mem_extraOf]
  constructor
  · exact fun both => both.1
  · refine fun mem => ⟨mem, ?_⟩
    rintro ⟨here, carbon | rfl⟩
    · exact apart carbon
    · exact none here mem

theorem extraOf_changed (here : m.organization = organization)
    (mem : (⟨m.organization, m.id, target⟩ : AccessGrant) ∈ d.access) : y.extraOf m ≠ d.extraOf m := by
  intro same
  have listed : target ∈ d.extraOf m := mem_extraOf.mpr mem
  rw [← same, mem_extraOf, access] at listed
  exact listed.2 ⟨here, .inr rfl⟩

end Without

/-- Settings that name the removed Silicon first name none afterwards. -/
def CarbonSettings.without (organization target : Nat) (c : CarbonSettings) : CarbonSettings :=
  if c.organization == organization && c.firstSilicon == some target then
    { c with firstSilicon := none } else c

theorem without_identity (organization target : Nat) (c : CarbonSettings) :
    (c.without organization target).membership = c.membership ∧
      (c.without organization target).organization = c.organization := by
  rw [CarbonSettings.without]
  split <;> exact ⟨rfl, rfl⟩

theorem settingsOf_without
    (settings : ∀ row, row ∈ y.settings ↔ ∃ c ∈ d.settings, row = c.without organization target) :
    y.settingsOf m = (d.settingsOf m).map (CarbonSettings.without organization target) := by
  cases found : d.settingsOf m with
  | none =>
      refine List.find?_eq_none.mpr fun row mem holds => ?_
      obtain ⟨c, cMem, rfl⟩ := (settings row).mp mem
      obtain ⟨membership, org⟩ := without_identity organization target c
      rw [membership, org] at holds
      exact List.find?_eq_none.mp found c cMem holds
  | some c =>
      obtain ⟨mem, holds⟩ := Table.find?_spec found
      obtain ⟨membership, org⟩ := without_identity organization target c
      refine Table.find?_eq_some_of_key ((settings _).mpr ⟨c, mem, rfl⟩) ?_ fun other _ held => ?_
      · rw [membership, org]
        exact holds
      · simp only [Bool.and_eq_true, beq_iff_eq] at holds held
        rw [held.2, membership, holds.2]

/-! ## The removal of a Carbon member -/

/-- A membership of a Carbon is no Silicon's. -/
theorem carbon_apart (inv : Inv d) (mem : m ∈ d.memberships) (kind : m.kind = .carbon)
    (sMem : s ∈ d.silicons) : s.membership ≠ m.id := by
  intro same
  obtain ⟨seat, seatMem, seats, -⟩ := inv s.organization |>.seat s sMem rfl
  obtain rfl := Table.unique seatMem mem (seats.id.trans same)
  exact absurd (kind.symm.trans seats.kind) (by decide)

/-- The removed membership's row, written last. -/
theorem settle_removed (organization : Nat) (surviving : List Nat) {gone : Membership} (id : gone.id = target) (members : x.memberships = d.memberships)
    (access : x.access = d.access) :
    ∃ grants memberships,
      x.applyAll (d.settleSurvivors organization target surviving ++ [.membership gone]) =
        { x with access := grants, memberships := memberships } ∧
      (∀ g, g ∈ grants ↔ g ∈ d.access ∧ ¬ g.About organization target) ∧
      ∀ m ∈ d.memberships, m.id ≠ target →
        (if touchedMembership organization surviving m then m.bump else m) ∈ memberships := by
  obtain ⟨grants, memberships, written, granted, rows⟩ :=
    settle_spec organization target surviving members access
  refine ⟨grants, memberships.upsert gone, ?_, granted, fun m mem apart => ?_⟩
  · rw [applyAll_append, written]
    rfl
  · refine Table.mem_upsert.mpr (.inr ⟨(rows _).mpr ⟨m, mem, rfl⟩, ?_⟩)
    rw [id]
    split <;> exact apart

theorem departed_carbon (wf : d.WellFormed) {gone : Membership} (mem : m ∈ d.memberships)
    (kind : m.kind = .carbon) (at_ : m.id = target) (id : gone.id = target)
    (inv : Inv (d.applyAll (d.settleSurvivors organization target [] ++ [.membership gone]))) :
    Departed d (d.applyAll (d.settleSurvivors organization target [] ++ [.membership gone]))
        organization target [] ∧
      (d.applyAll (d.settleSurvivors organization target [] ++ [.membership gone])).outbox =
        d.outbox := by
  obtain ⟨grants, memberships, written, granted, rows⟩ :=
    settle_removed (x := d) organization [] id rfl rfl
  rw [written] at inv ⊢
  refine ⟨⟨inv, sameLinks_of_silicons rfl, fun s sMem _ => sMem, fun row rowMem => ⟨row, rowMem, rfl⟩,
    rows, fun b _ listed => absurd listed List.not_mem_nil, fun b _ _ apart _ => ⟨rfl, fun _ => ?_⟩,
    fun b _ listed => absurd listed List.not_mem_nil⟩, rfl⟩
  refine extraOf_kept granted apart fun _ held => ?_
  obtain ⟨s, sMem, same, -⟩ := wf.silicon _ held
  exact carbon_apart wf.tree mem kind sMem (same.trans at_.symm)

/-! ## The removal of a Silicon that nobody reports to -/

/-- A row written back with its link leaves all depths. -/
theorem sameLinks_of_row {gone : Silicon} (mem : s ∈ d.silicons)
    (rows : ∀ row, row ∈ y.silicons ↔ ∃ b ∈ d.silicons, row = if b.id = s.id then gone else b)
    (org : gone.organization = s.organization) (at_ : gone.membership = s.membership)
    (reports : gone.reportsTo = s.reportsTo) : SameLinks d y := by
  have fields : ∀ b ∈ d.silicons, (if b.id = s.id then gone else b).organization = b.organization ∧
      (if b.id = s.id then gone else b).membership = b.membership ∧
      (if b.id = s.id then gone else b).reportsTo = b.reportsTo := by
    intro b bMem
    split
    · rename_i same
      obtain rfl := Table.unique bMem mem same
      exact ⟨org, at_, reports⟩
    · exact ⟨rfl, rfl, rfl⟩
  intro organization
  refine linkOf_eq (fun b bMem here => ?_) fun row rowMem here => ?_
  · obtain ⟨bOrg, bAt, bReports⟩ := fields b bMem
    exact ⟨_, (rows _).mpr ⟨b, bMem, rfl⟩, bOrg.trans here, bAt, bReports⟩
  · obtain ⟨b, bMem, rfl⟩ := (rows row).mp rowMem
    obtain ⟨bOrg, bAt, bReports⟩ := fields b bMem
    exact ⟨b, bMem, bOrg.symm.trans here, bAt.symm, bReports.symm⟩

/-- Who is in the scope of a Silicon that nobody reports to. -/
theorem scope_unreported {scope : RemovalScope}
    (within : d.removalScope organization target reassign = some scope)
    (found : d.membership? organization target = some m) (kind : m.kind = .silicon)
    (unreported : d.reports organization Silicon.live target = []) {id : Nat} :
    id ∈ scope.memberships ↔ d.membershipActive organization id = true ∧ (id = target ∨
      (∃ c ∈ d.settings, c.membership = id ∧ c.organization = organization ∧
        c.firstSilicon = some target) ∨
      ∃ g ∈ d.access, g.carbon = id ∧ g.organization = organization ∧ g.silicon = target) := by
  rw [Directory.removalScope, found] at within
  dsimp only at within
  split at within
  · exact absurd within (by simp)
  rw [kind] at within
  dsimp only at within
  split at within
  · exact absurd within (by simp)
  rw [Directory.siliconRemovalScope, unreported] at within
  split at within
  · exact absurd within (by simp)
  obtain ⟨below, walked, within⟩ := Option.bind_eq_some_iff.mp within
  have nobody : below = [] := by
    refine List.eq_nil_iff_forall_not_mem.mpr fun node listed => ?_
    obtain ⟨start, begun, -⟩ := (mem_unionAll walked).mp listed
    exact absurd begun List.not_mem_nil
  subst nobody
  obtain ⟨delta, -, rfl⟩ := Option.map_eq_some_iff.mp within
  simp only [List.mem_insertionSort, List.mem_filter, List.mem_dedup, List.filter_nil, List.map_nil,
    List.cons_append, List.nil_append, List.mem_cons, List.mem_append, List.mem_map,
    Table.mem_rows, Bool.and_eq_true, beq_iff_eq]
  constructor
  · rintro ⟨rfl | ⟨c, ⟨mem, org, first⟩, rfl⟩ | ⟨g, ⟨mem, org, silicon⟩, rfl⟩, active⟩
    · exact ⟨active, .inl rfl⟩
    · exact ⟨active, .inr (.inl ⟨c, mem, rfl, org, first⟩)⟩
    · exact ⟨active, .inr (.inr ⟨g, mem, rfl, org, silicon⟩)⟩
  · rintro ⟨active, rfl | ⟨c, mem, rfl, org, first⟩ | ⟨g, mem, rfl, org, silicon⟩⟩
    · exact ⟨.inl rfl, active⟩
    · exact ⟨.inr (.inl ⟨c, ⟨mem, org, first⟩, rfl⟩), active⟩
    · exact ⟨.inr (.inr ⟨g, ⟨mem, org, silicon⟩, rfl⟩), active⟩

/-- Without a live report only settings are written before the Silicon's row. -/
theorem detach_unreported (unreported : d.reports organization Silicon.live target = [])
    (carbons : ∀ id ∈ surviving, ∀ s ∈ d.silicons, s.membership ≠ id)
    (done : d.detach organization target reassign surviving = some ws) :
    ∃ table, d.applyAll ws = { d with settings := table } ∧
      ∀ row, row ∈ table ↔ ∃ c ∈ d.settings, row = c.without organization target := by
  obtain ⟨delta, links, moved, settings, -, reparented, touched, rfl, rfl⟩ := detach_spec done
  rw [unreported] at reparented
  obtain rfl : links = [] := (Option.some.inj reparented).symm
  have none : moved = [] := by
    cases delta with
    | false => exact (Option.some.inj touched).symm
    | true =>
        cases reassign with
        | none => exact (Option.some.inj touched).symm
        | some manager =>
            obtain ⟨below, walked, rfl⟩ := Option.map_eq_some_iff.mp touched
            have nobody : below = [] := by
              refine List.eq_nil_iff_forall_not_mem.mpr fun node listed => ?_
              obtain ⟨start, begun, -⟩ := (mem_unionAll walked).mp listed
              obtain ⟨report, chosen, -⟩ := List.mem_map.mp begun
              obtain ⟨among, survives⟩ := List.mem_filter.mp chosen
              exact carbons _ (by simpa using survives) report (mem_reports.mp among).1 rfl
            simp [nobody, Directory.touchSilicons, Directory.siliconsOf]
  subst none
  have writes : ([] ++ [] ++ (d.settings.rows.filter fun c =>
      c.organization == organization && c.firstSilicon == some target).map fun c =>
        Write.settings { c with firstSilicon := Option.none }) =
      ((d.settings.rows.filter fun c =>
        c.organization == organization && c.firstSilicon == some target).map fun c =>
          { c with firstSilicon := Option.none }).map .settings := by
    rw [List.map_map]
    rfl
  rw [writes, applyAll_settings]
  exact ⟨_, rfl, fun row => Table.mem_upsert_selected fun c => rfl⟩

theorem departed_silicon (wf : d.WellFormed) {scope : RemovalScope} {gone : Membership} {version : Nat}
    (within : d.removalScope organization target reassign = some scope)
    (found : d.membership? organization target = some m) (kind : m.kind = .silicon)
    (mem : s ∈ d.silicons) (at_ : s.membership = target)
    (unreported : d.reports organization Silicon.live target = [])
    (removed : d.removeSilicon organization target version reassign
      (scope.memberships.filter fun id => id != target) s = some ws)
    (id : gone.id = target)
    (inv : Inv (d.applyAll (ws ++ d.settleSurvivors organization target
      (scope.memberships.filter fun id => id != target) ++ [.membership gone]))) :
    Departed d (d.applyAll (ws ++ d.settleSurvivors organization target
        (scope.memberships.filter fun id => id != target) ++ [.membership gone])) organization target
        (scope.memberships.filter fun id => id != target) ∧
      (d.applyAll (ws ++ d.settleSurvivors organization target
        (scope.memberships.filter fun id => id != target) ++ [.membership gone])).outbox = d.outbox := by
  have listed : ∀ id, id ∈ (scope.memberships.filter fun id => id != target) ↔
      id ≠ target ∧ d.membershipActive organization id = true ∧
        ((∃ c ∈ d.settings, c.membership = id ∧ c.organization = organization ∧
          c.firstSilicon = some target) ∨
        ∃ g ∈ d.access, g.carbon = id ∧ g.organization = organization ∧ g.silicon = target) := by
    intro id
    rw [List.mem_filter, scope_unreported within found kind unreported, bne_iff_ne]
    constructor
    · rintro ⟨⟨active, own | why⟩, apart⟩
      · exact absurd own apart
      · exact ⟨apart, active, why⟩
    · rintro ⟨apart, active, why⟩
      exact ⟨⟨active, .inr why⟩, apart⟩
  generalize (scope.memberships.filter fun id => id != target) = surviving at *
  have survivors : ∀ b ∈ d.memberships, b.id ∈ surviving →
      b.kind = .carbon ∧ b.organization = organization ∧ b.active = true ∧ b.id ≠ target := by
    intro b bMem among
    obtain ⟨apart, active, why⟩ := (listed b.id).mp among
    obtain ⟨same, sameMem, holds⟩ := Table.any_spec active
    simp only [Bool.and_eq_true, beq_iff_eq] at holds
    obtain rfl := Table.unique sameMem bMem holds.1.2
    refine ⟨?_, holds.1.1, holds.2, apart⟩
    rcases why with ⟨c, cMem, owned, -⟩ | ⟨g, gMem, owned, -⟩
    · obtain ⟨owner, ownerMem, ownerAt, -, carbon⟩ := wf.settings c cMem
      rwa [Table.unique ownerMem bMem (ownerAt.trans owned)] at carbon
    · obtain ⟨owner, ownerMem, ownerAt, -, carbon⟩ := wf.carbon g gMem
      rwa [Table.unique ownerMem bMem (ownerAt.trans owned)] at carbon
  have carbons : ∀ id ∈ surviving, ∀ s ∈ d.silicons, s.membership ≠ id := by
    intro id among b bMem
    obtain ⟨holder, holderMem, holds⟩ := Table.any_spec ((listed id).mp among).2.1
    simp only [Bool.and_eq_true, beq_iff_eq] at holds
    have carbon := (survivors holder holderMem (holds.1.2 ▸ among)).1
    exact fun same => carbon_apart wf.tree holderMem carbon bMem (same.trans holds.1.2.symm)
  obtain ⟨first, row, -, -, detached, deleted, rfl⟩ := removeSilicon_spec removed
  obtain ⟨table, written, settings⟩ := detach_unreported unreported carbons detached
  obtain ⟨same, sameMem, here, sameId, -, live, rfl⟩ := deleteSilicon_spec deleted
  rw [written] at sameMem
  obtain rfl := Table.unique sameMem mem sameId
  have wrote : d.applyAll (first ++ [.silicon { same with status := .deleted, version := same.version + 1 },
      .principal ⟨same.id, .silicon, false⟩]) =
      { d with
        settings := table
        silicons := d.silicons.upsert { same with status := .deleted, version := same.version + 1 }
        principals := d.principals.upsert ⟨same.id, .silicon, false⟩ } := by
    rw [applyAll_append, written]
    rfl
  obtain ⟨grants, memberships, settled, granted, rows⟩ := settle_removed organization surviving (d := d)
    (x := d.applyAll (first ++ [.silicon { same with status := .deleted, version := same.version + 1 },
      .principal ⟨same.id, .silicon, false⟩])) id (by rw [wrote]) (by rw [wrote])
  rw [List.append_assoc, applyAll_append, settled, wrote] at inv ⊢
  refine ⟨⟨inv, sameLinks_of_row mem (fun _ => Table.mem_upsert_of_mem mem _ rfl) rfl rfl rfl,
    fun b bMem apart => ?_, fun row rowMem => ?_, rows, survivors, fun b bMem active apart unlisted => ?_,
    fun b bMem among => ?_⟩, rfl⟩
  · refine Table.mem_upsert.mpr (.inr ⟨bMem, fun equal => apart ?_⟩)
    rw [Table.unique bMem mem equal, at_]
  · rcases Table.mem_upsert.mp rowMem with rfl | ⟨old, -⟩
    · exact ⟨same, mem, rfl⟩
    · exact ⟨row, old, rfl⟩
  · have standing : ∀ other, other = b.organization → other = organization →
        d.membershipActive organization b.id = true := by
      rintro _ rfl here
      exact Table.any_eq_true.mpr ⟨b, bMem, by simp [here, active]⟩
    constructor
    · rw [settingsOf_without settings]
      cases found : d.settingsOf b with
      | none => rfl
      | some c =>
          obtain ⟨cMem, holds⟩ := Table.find?_spec found
          simp only [Bool.and_eq_true, beq_iff_eq] at holds
          have other : ¬ (c.organization == organization && c.firstSilicon == some target) = true := by
            rw [Bool.and_eq_true, beq_iff_eq, beq_iff_eq]
            rintro ⟨org, chosen⟩
            exact unlisted ((listed b.id).mpr ⟨apart, standing _ holds.1 org,
              .inl ⟨c, cMem, holds.2, org, chosen⟩⟩)
          rw [Option.map_some, CarbonSettings.without, if_neg other]
    · intro _
      refine extraOf_kept granted apart fun org held => unlisted ((listed b.id).mpr ?_)
      exact ⟨apart, standing _ rfl org, .inr ⟨_, held, rfl, org, rfl⟩⟩
  · obtain ⟨-, org, active, apart⟩ := survivors b bMem among
    obtain ⟨-, -, why⟩ := (listed b.id).mp among
    rcases why with ⟨c, cMem, owned, cOrg, chosen⟩ | ⟨g, gMem, owned, gOrg, silicon⟩
    · left
      have found : d.settingsOf b = some c := by
        refine Table.find?_eq_some_of_key cMem ?_ fun other _ holds => ?_
        · simp [cOrg, org, owned]
        · simp only [Bool.and_eq_true, beq_iff_eq] at holds
          rw [holds.2, owned]
      rw [settingsOf_without settings, found, Option.map_some, Option.bind_some, Option.bind_some,
        CarbonSettings.without, if_pos (by rw [cOrg, chosen, beq_self_eq_true, beq_self_eq_true]; rfl),
        chosen]
      exact Option.some_ne_none target ∘ Eq.symm
    · right
      refine extraOf_changed granted org ?_
      rwa [org, ← owned, ← gOrg, ← silicon]

/-! ## The statements of a removal -/

/-- Nobody live reports to a Silicon that is removed. -/
def Unreported (d : Directory) (organization target : Nat) : Prop :=
  d.reports organization Silicon.live target = []

theorem scope_carbon {scope : RemovalScope}
    (within : d.removalScope organization target reassign = some scope)
    (found : d.membership? organization target = some m) (kind : m.kind = .carbon) :
    scope.memberships = [target] := by
  rw [Directory.removalScope, found] at within
  dsimp only at within
  split at within
  · exact absurd within (by simp)
  · rw [kind] at within
    dsimp only at within
    split at within
    · exact absurd within (by simp)
    · rw [← Option.some.inj within]

theorem execute_spec (wf : d.WellFormed) {expected : Nat} {silicon : Option Nat}
    (done : d.removeOrganizationMembership organization target expected silicon reassign = some ws)
    (inv : Inv (d.applyAll ws))
    (unreported : silicon.isSome = true → Unreported d organization target) :
    ∃ scope, d.removalScope organization target reassign = some scope ∧
      Departed d (d.applyAll ws) organization target
        (scope.memberships.filter fun id => id != target) ∧
      (d.applyAll ws).outbox = d.outbox := by
  obtain ⟨scope, m, first, row, within, found, -, part, removed, rfl⟩ :=
    removeOrganizationMembership_spec done
  obtain ⟨mem, -, at_⟩ := Directory.membership?_spec found
  obtain ⟨last, lastFound, -, -, rfl⟩ := removeMembership_spec removed
  obtain ⟨-, -, lastAt⟩ := Directory.membership?_spec lastFound
  refine ⟨scope, within, ?_⟩
  cases part with
  | carbon kind unset =>
      have nobody : (scope.memberships.filter fun id => id != target) = [] := by
        simp [scope_carbon within found kind]
      rw [nobody, List.nil_append] at inv ⊢
      exact departed_carbon wf mem kind at_ lastAt inv
  | silicon kind sMem here sAt principal live removedSilicon =>
      exact departed_silicon wf within found kind sMem sAt (unreported rfl) removedSilicon lastAt inv

theorem Departed.withOutbox (departed : Departed d y organization target surviving)
    (outbox : List OutboxEvent) : Departed d { y with outbox := outbox } organization target surviving where
  inv := fun organization => ⟨(departed.inv organization).seat, (departed.inv organization).vacant,
    (departed.inv organization).manager, (departed.inv organization).acyclic⟩
  links := departed.links
  silicons := departed.silicons
  back := departed.back
  memberships := departed.memberships
  survivors := departed.survivors
  kept := departed.kept
  changed := departed.changed

/-- One event at its version for each member that is read back. -/
theorem recordSurvivors_spec (r : Removal)
    (ran : engine.atomicFrom xid [r.recordSurvivors] memory x = some y) :
    ∃ events, y = { x with outbox := x.outbox ++ events } ∧
      (∀ id, versionsOf events .silicon id = []) ∧
      ∀ b ∈ x.memberships, versionsOf events .organizationMembership b.id =
        if b.id ∈ (memory.affected.filter fun id => id != memory.target) ∧
          b.organization = r.organization then [b.version] else [] := by
  obtain ⟨left, ws, recorded, ended⟩ := alone_command.mp ran
  obtain ⟨members, fetched, recorded⟩ := Option.bind_eq_some_iff.mp recorded
  split at recorded
  rotate_left
  · exact absurd recorded (by simp)
  obtain ⟨rfl, rfl⟩ := Prod.mk.inj (Option.some.inj recorded)
  generalize (memory.affected.filter fun id => id != memory.target) = wanted at *
  have flat : ∀ (event : MembershipResponse → OutboxEvent), members.map event =
      (members.map fun member => [event member]).flatten := fun event => by
    rw [← List.flatMap_def, List.map_eq_flatMap]
  refine ⟨members.map fun member => ⟨.organizationMembership, member.id, member.version,
    "organization.membership.updated.v1"⟩, ?_, fun id => ?_, fun b mem => ?_⟩
  · rw [← applyAll_events, List.map_map]
    exact (Option.some.inj ended).symm
  · simp [versionsOf]
  · have rows := mapM_rows fetched
    have picked : ∀ m, m ∈ (x.memberships.rows.filter fun m =>
        m.organization == r.organization && wanted.contains m.id).insertionSort
          (fun a b => a.id ≤ b.id) ↔
        m ∈ x.memberships ∧ m.organization = r.organization ∧ m.id ∈ wanted := by
      intro m
      simp [List.mem_insertionSort, Table.mem_rows]
    have distinct : (((x.memberships.rows.filter fun m =>
        m.organization == r.organization && wanted.contains m.id).insertionSort
          (fun a b => a.id ≤ b.id)).map Membership.id).Nodup :=
      ((List.perm_insertionSort _ _).map _).nodup_iff.mpr
        ((List.filter_sublist.map Membership.id).nodup x.memberships.distinct)
    have both := (List.forall₂_and_left _ _).mpr
      ⟨fun m listed => ((picked m).mp listed).1, rows⟩
    rw [flat]
    refine (versionsOf_flatten (v := b.version) (k := b.id) (P := True) ?_ distinct).trans ?_
    · rw [List.forall₂_map_left_iff, List.forall₂_map_right_iff]
      refine both.imp fun m row linked => ?_
      obtain ⟨mMem, found⟩ := linked
      obtain ⟨at_, version⟩ := memberResponse_spec found
      by_cases same : m.id = b.id
      · obtain rfl := Table.unique mMem mem same
        simp [versionsOf, at_, version]
      · simp [versionsOf, at_, same]
    · refine if_congr ?_ rfl rfl
      rw [and_true, List.mem_map]
      constructor
      · rintro ⟨m, listed, same⟩
        obtain ⟨mMem, org, among⟩ := (picked m).mp listed
        obtain rfl := Table.unique mMem mem same
        exact ⟨among, org⟩
      · rintro ⟨among, org⟩
        exact ⟨b, (picked b).mpr ⟨mem, org, among⟩, rfl⟩

/-- A removal from its locks on, with the event of what it removes. -/
def Removal.fromLocks (r : Removal) (silicon : Bool) (event : Statement) : List Statement :=
  [r.lockScope, r.captureMembers, r.execute silicon, event, r.recordSurvivors]

theorem versionsOf_cons_apart {event : OutboxEvent} {events : List OutboxEvent} {type : AggregateType}
    {id : Nat} (apart : ¬ (event.aggregateType = type ∧ event.aggregate = id)) :
    versionsOf (event :: events) type id = versionsOf events type id := by
  have dropped : ¬ (event.aggregateType == type && event.aggregate == id) = true := by
    rwa [Bool.and_eq_true, beq_iff_eq, beq_iff_eq]
  show ((event :: events).filter fun e => e.aggregateType == type && e.aggregate == id).map _ = _
  rw [List.filter_cons, if_neg dropped]
  rfl

theorem record_spec {aggregateType : AggregateType} {aggregate : Memory → Nat} {eventType : String}
    (ran : engine.atomicFrom xid (Removal.record aggregateType aggregate eventType :: rest) memory x =
      some y) :
    ∃ event : OutboxEvent, event.aggregateType = aggregateType ∧ event.aggregate = aggregate memory ∧
      engine.atomicFrom xid rest memory { x with outbox := x.outbox ++ [event] } = some y := by
  obtain ⟨left, ws, recorded, ran⟩ := alone_command.mp ran
  obtain ⟨rfl, rfl⟩ := Prod.mk.inj (Option.some.inj recorded)
  exact ⟨_, rfl, rfl, ran⟩

/-- From the locks to the commit. -/
theorem removal_announces (wf : d.WellFormed) (r : Removal) (silicon : Bool)
    {aggregateType : AggregateType} {aggregate : Memory → Nat} {eventType : String}
    (ran : engine.atomicFrom xid
      (r.fromLocks silicon (Removal.record aggregateType aggregate eventType)) memory d = some y)
    (unreported : silicon = true → Unreported d r.organization memory.target)
    (silicons : ∀ left : Memory, left.principal = memory.principal →
      ∀ s ∈ d.silicons, s.membership ≠ memory.target →
        ¬ (aggregateType = .silicon ∧ aggregate left = s.id))
    (memberships : ∀ left : Memory, left.target = memory.target →
      ∀ m ∈ d.memberships, m.id ≠ memory.target →
        ¬ (aggregateType = .organizationMembership ∧ aggregate left = m.id)) :
    Announces (some memory.target) d y ∧
      LockedBy (Engine.locksBeforeWrite xid
        (r.fromLocks silicon (Removal.record aggregateType aggregate eventType)) memory d)
        (some memory.target) d y := by
  obtain ⟨left, ws, locked, ran⟩ := alone_command.mp ran
  have quiet := locked
  obtain ⟨scope, within, same⟩ := Option.map_eq_some_iff.mp locked
  obtain ⟨rfl, rfl⟩ := Prod.mk.inj same
  obtain ⟨left, captured, ran⟩ := alone_query.mp ran
  obtain ⟨before, -, rfl⟩ := Option.map_eq_some_iff.mp captured
  obtain ⟨left, ws, executed, ran⟩ := alone_command.mp ran
  have keeps : (r.execute silicon).Keeps [] := r.keeps_execute silicon
  have inv : Inv (d.applyAll ws) := keeps.inv xid wf.tree executed
  obtain ⟨written, done, same⟩ := Option.map_eq_some_iff.mp executed
  obtain ⟨rfl, rfl⟩ := Prod.mk.inj same
  obtain ⟨scope', within', departed, outbox⟩ := execute_spec wf done inv fun isSome => unreported (by
    cases silicon with
    | true => rfl
    | false => exact absurd isSome (by simp))
  obtain rfl := Option.some.inj (within'.symm.trans within)
  obtain ⟨event, type, about_, ran⟩ := record_spec ran
  obtain ⟨events, rfl, nothing, announced⟩ := recordSurvivors_spec r ran
  have after := departed.withOutbox ((d.applyAll written).outbox ++ [event] ++ events)
  refine ⟨⟨event :: events, after.announcedBy wf ?_ ?_ ?_⟩, after.lockedBy wf ?_⟩
  · show (d.applyAll written).outbox ++ [event] ++ events = _
    rw [outbox, List.append_assoc]
    rfl
  · intro s mem apart
    rw [versionsOf_cons_apart, nothing]
    rw [type, about_]
    refine silicons _ ?_ s mem apart
    rfl
  · intro m mem apart
    rw [versionsOf_cons_apart]
    · have survives := announced _ (departed.memberships m mem apart)
      by_cases listed : m.id ∈ (scope'.memberships.filter fun id => id != memory.target)
      · obtain ⟨-, here, active, -⟩ := departed.survivors m mem listed
        have touched : touchedMembership r.organization
            (scope'.memberships.filter fun id => id != memory.target) m = true := by
          simpa [touchedMembership, here, active] using listed
        rw [if_pos touched] at survives
        rw [if_pos listed]
        exact survives.trans (if_pos ⟨listed, here⟩)
      · have untouched : ¬ touchedMembership r.organization
            (scope'.memberships.filter fun id => id != memory.target) m = true := by
          intro touched
          rw [touchedMembership, Bool.and_eq_true] at touched
          exact listed (by simpa using touched.2)
        rw [if_neg untouched] at survives
        rw [if_neg listed]
        exact survives.trans (if_neg fun both => listed both.1)
    · rw [type, about_]
      refine memberships _ ?_ m mem apart
      rfl
  · intro id listed
    have first : Engine.locksBeforeWrite xid
        (r.fromLocks silicon (Removal.record aggregateType aggregate eventType)) memory d = _ :=
      Engine.locksBeforeWrite_cons quiet
    have taken : .membership id ∈ d.removalLocks r.organization memory.target r.reassign := by
      rw [Directory.removalLocks, within]
      refine List.mem_append_left _ (List.mem_cons_of_mem _ (List.mem_append_left _ ?_))
      exact List.mem_map.mpr ⟨id, (List.mem_filter.mp listed).1, rfl⟩
    rw [first]
    exact List.mem_append_left _ (List.mem_append_left _ taken)

/-! ## The removal of a Silicon with live reports -/

theorem applyAll_quiet (quiet : ∀ event, .event event ∉ ws) : (d.applyAll ws).outbox = d.outbox := by
  induction ws generalizing d with
  | nil => rfl
  | cons w rest ih =>
      rw [applyAll_cons, ih fun event mem => quiet event (List.mem_cons_of_mem w mem)]
      cases w with
      | event row => exact absurd List.mem_cons_self (quiet row)
      | _ => rfl

theorem removeOrganizationMembership_quiet {expected : Nat} {silicon : Option Nat}
    (done : d.removeOrganizationMembership organization target expected silicon reassign = some ws) :
    ∀ event, .event event ∉ ws := by
  obtain ⟨scope, m, first, row, -, -, -, part, -, rfl⟩ := removeOrganizationMembership_spec done
  have settled : ∀ event, .event event ∉ d.settleSurvivors organization target
      (scope.memberships.filter fun id => id != target) := by
    intro event mem
    rcases List.mem_append.mp mem with taken | touched
    · obtain ⟨_, -, same⟩ := List.mem_map.mp taken
      exact nomatch same
    · obtain ⟨_, -, same⟩ := List.mem_map.mp touched
      exact nomatch same
  have started : ∀ event, .event event ∉ first := by
    cases part with
    | carbon => exact fun event => List.not_mem_nil
    | silicon kind mem here at_ principal live removed =>
        obtain ⟨links, gone, -, -, detached, -, rfl⟩ := removeSilicon_spec removed
        obtain ⟨delta, moves, moved, settings, -, reparented, touched, rfl, rfl⟩ := detach_spec detached
        intro event listed
        rcases List.mem_append.mp listed with listed | last
        · rcases List.mem_append.mp listed with listed | set
          · rcases List.mem_append.mp listed with link | move
            · obtain ⟨_, -, same⟩ := reparent_writes reparented _ link
              exact nomatch same
            · cases delta with
              | false =>
                  obtain rfl : moved = [] := (Option.some.inj touched).symm
                  exact absurd move List.not_mem_nil
              | true =>
                  obtain ⟨ids, rfl | rfl⟩ := touchMoved_touches touched
                  · obtain ⟨_, -, same⟩ := List.mem_map.mp move
                    exact nomatch same
                  · exact absurd move List.not_mem_nil
          · obtain ⟨_, -, same⟩ := List.mem_map.mp set
            exact nomatch same
        · simp at last
  intro event mem
  rcases List.mem_append.mp mem with earlier | last
  · rcases List.mem_append.mp earlier with begun | settle
    · exact started event begun
    · exact settled event settle
  · exact absurd (List.mem_singleton.mp last) (by simp)

/-- A live report has another manager afterwards, and nothing announces its Silicon. -/
theorem reported_unannounced (wf : d.WellFormed) {report : Silicon} (gone : Membership)
    (events : List OutboxEvent) (mem : report ∈ d.silicons) (live : report.live = true)
    (reports : report.reportsTo = some target) (inv : Inv y) (outbox : y.outbox = d.outbox ++ events)
    (goneMem : gone ∈ y.memberships) (goneAt : gone.id = target) (inactive : gone.active = false)
    (quiet : versionsOf events .silicon report.id = []) : ¬ Announces (some target) d y := by
  rintro ⟨announced, by_⟩
  obtain rfl : announced = events := List.append_cancel_left (by_.outbox.symm.trans outbox)
  have other : some report.membership ≠ some target := by
    intro same
    refine wf.tree report.organization |>.acyclic report.membership (.single ?_)
    exact ⟨report, mem, rfl, rfl, reports.trans same.symm⟩
  obtain ⟨row, rowMem, -, rowLive, versioned⟩ := by_.silicons report mem other
  have moved : row.reportsTo ≠ some target := by
    intro still
    obtain ⟨manager, managerMem, -, managerAt, alive⟩ :=
      inv row.organization |>.manager row rowMem rfl target still
    obtain ⟨seat, seatMem, seats, standing⟩ := inv manager.organization |>.seat manager managerMem rfl
    obtain rfl := Table.unique seatMem goneMem (seats.id.trans (managerAt.trans goneAt.symm))
    rw [alive (rowLive.trans live), inactive] at standing
    exact Bool.noConfusion standing
  have differs : y.siliconView row ≠ d.siliconView report := by
    obtain ⟨n, before⟩ := wf.tree report.organization |>.depth_exists mem rfl
    obtain ⟨k, after⟩ := inv row.organization |>.depth_exists rowMem rfl
    rw [wf.tree report.organization |>.siliconView_eq mem before,
      inv row.organization |>.siliconView_eq rowMem after, Ne, Option.some.injEq]
    intro same
    exact moved ((congrArg SiliconResponse.reportsTo same).trans reports)
  have now := (versioned.advanced ⟨live, differs⟩).2
  rw [quiet] at now
  exact absurd now (by simp)

/-- From the locks to the commit, where somebody reports to the removed Silicon. -/
theorem removal_unannounced (wf : d.WellFormed) (r : Removal) (silicon : Bool)
    {aggregateType : AggregateType} {aggregate : Memory → Nat} {eventType : String} {report : Silicon}
    (ran : engine.atomicFrom xid
      (r.fromLocks silicon (Removal.record aggregateType aggregate eventType)) memory d = some y)
    (mem : report ∈ d.silicons) (live : report.live = true)
    (reports : report.reportsTo = some memory.target)
    (apart : ∀ left : Memory, left.principal = memory.principal → aggregate left ≠ report.id) :
    ¬ Announces (some memory.target) d y := by
  obtain ⟨left, ws, locked, ran⟩ := alone_command.mp ran
  obtain ⟨scope, within, same⟩ := Option.map_eq_some_iff.mp locked
  obtain ⟨rfl, rfl⟩ := Prod.mk.inj same
  obtain ⟨left, captured, ran⟩ := alone_query.mp ran
  obtain ⟨before, -, rfl⟩ := Option.map_eq_some_iff.mp captured
  obtain ⟨left, ws, executed, ran⟩ := alone_command.mp ran
  have keeps : (r.execute silicon).Keeps [] := r.keeps_execute silicon
  have inv : Inv (d.applyAll ws) := keeps.inv xid wf.tree executed
  obtain ⟨written, done, same⟩ := Option.map_eq_some_iff.mp executed
  obtain ⟨rfl, rfl⟩ := Prod.mk.inj same
  obtain ⟨event, type, about_, ran⟩ := record_spec ran
  obtain ⟨events, rfl, nothing, -⟩ := recordSurvivors_spec r ran
  have quiet := removeOrganizationMembership_quiet done
  obtain ⟨_, m, first, row, -, -, -, -, removed, rfl⟩ := removeOrganizationMembership_spec done
  obtain ⟨last, lastFound, -, -, rfl⟩ := removeMembership_spec removed
  obtain ⟨-, -, lastAt⟩ := Directory.membership?_spec lastFound
  refine reported_unannounced wf { last with
    status := .removed, role := .member, roleGrantedBy := none, version := last.version + 1 }
    (event :: events) mem live reports (fun organization => ⟨(inv organization).seat, (inv organization).vacant,
      (inv organization).manager, (inv organization).acyclic⟩) ?_ ?_ lastAt rfl ?_
  rotate_left
  · show _ ∈ (d.applyAll _).memberships
    rw [applyAll_append]
    exact Table.mem_upsert.mpr (.inl rfl)
  · rw [versionsOf_cons_apart, nothing]
    rw [type, about_]
    rintro ⟨-, same⟩
    refine apart _ ?_ same
    rfl
  · show (d.applyAll _).outbox ++ [event] ++ events = _
    rw [applyAll_quiet quiet, List.append_assoc]
    rfl

end SiliconIam.Organizations.Hierarchy
