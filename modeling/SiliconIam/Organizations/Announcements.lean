/-
# Organizations.Announcements -- what is shown of a Silicon and a member, and what is announced

`siliconView` and `memberView` are the projections without their versions; a
membership is shown with the profile of its Silicon.  `Announces` says of a
request that every Silicon and every membership that survives it has its version
advanced by one and one event at the new version where its projection changed, and
neither elsewhere.

The views are read off the rows of a tree (`siliconView_eq`, `memberView_silicon`,
`memberView_carbon`), so that a request's effect on them is its effect on the rows
and on the depths.
-/
import SiliconIam.Organizations.SiliconListing

namespace SiliconIam.Organizations.Hierarchy

open SiliconIam.Theory SiliconIam.Theory.Forest
open SiliconIam.Organizations.Roles (Membership)

set_option autoImplicit false

/-! ## Views -/

def SiliconResponse.content (row : SiliconResponse) : SiliconResponse := { row with version := 0 }

def MembershipResponse.content (row : MembershipResponse) : MembershipResponse :=
  { row with version := 0 }

namespace Directory

variable (d : Directory)

def siliconView (s : Silicon) : Option SiliconResponse :=
  (d.fetchSilicons s.organization [s.membership]).bind fun items =>
    (items.find? fun item => item.principalId == s.id).map SiliconResponse.content

/-- The Silicon whose membership `m` is. -/
def siliconOf (m : Membership) : Option Silicon :=
  if m.kind == .silicon then d.silicons.find? fun s => s.id == m.principal else none

/-- A membership as its webhook projection tells of it (migration 0031): its own row
and, for a Silicon, the profile.  `accessible_silicons`, which an application's read
of a member adds, is no part of that projection and is left out. -/
def memberView (m : Membership) : Option (MembershipResponse × Option SiliconResponse) :=
  (d.memberResponse m).map fun row => (row.content, (d.siliconOf m).bind d.siliconView)

/-- The invariant of the links, the foreign keys of the rows around them, and what
every path that creates a member leaves: a Silicon's principal is a member where
its Silicon is, and an active Carbon member has its settings. -/
structure WellFormed (d : Directory) : Prop where
  tree : Inv d
  home : ∀ m ∈ d.memberships, m.kind = .silicon → ∀ s ∈ d.silicons, s.id = m.principal → Seats m s
  settings : ∀ c ∈ d.settings, ∃ m ∈ d.memberships, m.id = c.membership ∧
    m.organization = c.organization ∧ m.kind = .carbon
  settled : ∀ m ∈ d.memberships, m.active = true → m.kind = .carbon →
    ∃ c ∈ d.settings, c.membership = m.id
  carbon : ∀ g ∈ d.access, ∃ m ∈ d.memberships, m.id = g.carbon ∧
    m.organization = g.organization ∧ m.kind = .carbon
  silicon : ∀ g ∈ d.access, ∃ s ∈ d.silicons, s.membership = g.silicon ∧
    s.organization = g.organization

end Directory

/-! ## What is announced -/

/-- The versions at which events announce an aggregate. -/
def versionsOf (events : List OutboxEvent) (aggregateType : AggregateType) (aggregate : Nat) :
    List Nat :=
  (events.filter fun e => e.aggregateType == aggregateType && e.aggregate == aggregate).map
    OutboxEvent.version

/-- The next version and one event at it after a change, and neither without. -/
structure Versioned (changed : Prop) (before after : Nat) (announced : List Nat) : Prop where
  advanced : changed → after = before + 1 ∧ announced = [after]
  kept : ¬ changed → after = before ∧ announced = []

/-- `removed` is the membership that the request removes. -/
structure AnnouncedBy (events : List OutboxEvent) (removed : Option Nat) (d y : Directory) : Prop where
  outbox : y.outbox = d.outbox ++ events
  silicons : ∀ s ∈ d.silicons, some s.membership ≠ removed → ∃ row ∈ y.silicons, row.id = s.id ∧
    row.live = s.live ∧ Versioned (s.live = true ∧ y.siliconView row ≠ d.siliconView s)
      s.version row.version (versionsOf events .silicon s.id)
  memberships : ∀ m ∈ d.memberships, some m.id ≠ removed → ∃ row ∈ y.memberships, row.id = m.id ∧
    row.active = m.active ∧ Versioned (m.active = true ∧ y.memberView row ≠ d.memberView m)
      m.version row.version (versionsOf events .organizationMembership m.id)

def Announces (removed : Option Nat) (d y : Directory) : Prop :=
  ∃ events, AnnouncedBy events removed d y

/-- The rows of what has changed and survives are among `locks`. -/
structure LockedBy (locks : List RowLock) (removed : Option Nat) (d y : Directory) : Prop where
  silicons : ∀ s ∈ d.silicons, some s.membership ≠ removed → s.live = true →
    ∀ row ∈ y.silicons, row.id = s.id → y.siliconView row ≠ d.siliconView s → .silicon s.id ∈ locks
  memberships : ∀ m ∈ d.memberships, some m.id ≠ removed → m.active = true →
    ∀ row ∈ y.memberships, row.id = m.id → y.memberView row ≠ d.memberView m →
      .membership m.id ∈ locks

def Request.removed (d : Directory) : Request → Option Nat
  | .removeSilicon silicon r =>
      (d.silicons.find? fun s => s.organization == r.organization && s.id == silicon).map
        Silicon.membership
  | .removeMember membership _ => some membership
  | _ => none

/-! ## Views of a tree -/

variable {d y : Directory} {organization : Nat} {s : Silicon} {m : Membership} {n : Nat}

abbrev Directory.Depth (d : Directory) (organization membership n : Nat) : Prop :=
  Level (d.LinkOf organization fun _ => true) membership n

/-- A Silicon's projection at a depth. -/
def Silicon.shown (s : Silicon) (level : Nat) : SiliconResponse where
  principalId := s.id
  membershipId := s.membership
  displayName := s.displayName
  timezone := s.timezone
  profilePhoto := match s.profilePhotoOverride with
    | some uri => .override uri
    | none => .derived s.id level
  reportsTo := s.reportsTo
  hierarchyLevel := level
  active := s.live
  version := 0

theorem mem_all : s ∈ d.siliconsOf organization (fun _ => true) ↔
    s ∈ d.silicons ∧ s.organization = organization := by
  simp [mem_siliconsOf]

theorem response_content (active : m.active = s.live) :
    (s.response m n).content = s.shown n := by
  cases photo : s.profilePhotoOverride with
  | none => simp [SiliconResponse.content, Silicon.response, Silicon.shown, active, photo]
  | some uri => simp [SiliconResponse.content, Silicon.response, Silicon.shown, active, photo]

namespace Tree

/-- The rows of a query by memberships. -/
theorem fetchSilicons_mem (tree : Tree d organization) {ids : List Nat}
    {items : List SiliconResponse} (ran : d.fetchSilicons organization ids = some items)
    {item : SiliconResponse} : item ∈ items ↔ ∃ s ∈ d.silicons, ∃ m ∈ d.memberships, ∃ n,
      s.organization = organization ∧ Seats m s ∧ m.active = s.live ∧ s.membership ∈ ids ∧
        d.Depth organization s.membership n ∧ item = s.response m n := by
  rw [tree.project_mem tree.keepsManagers_all ran]
  constructor
  · rintro ⟨s, mem, m, mMem, n, -, id, listed, level, rfl⟩
    obtain ⟨sMem, here⟩ := mem_all.mp mem
    obtain ⟨seat, seatMem, seats, active⟩ := tree.seat s sMem here
    obtain rfl := Table.unique mMem seatMem (id.trans seats.id.symm)
    exact ⟨s, sMem, m, mMem, n, here, seats, active, by simpa using listed, level, rfl⟩
  · rintro ⟨s, sMem, m, mMem, n, here, seats, -, listed, level, rfl⟩
    exact ⟨s, mem_all.mpr ⟨sMem, here⟩, m, mMem, n, seats.organization.trans here, seats.id,
      by simpa using listed, level, rfl⟩

theorem depth_exists (tree : Tree d organization) (mem : s ∈ d.silicons)
    (here : s.organization = organization) : ∃ n, d.Depth organization s.membership n := by
  obtain ⟨n, -, level⟩ := tree.level_exists tree.keepsManagers_all (mem_all.mpr ⟨mem, here⟩)
  exact ⟨n, level⟩

theorem siliconView_eq (tree : Tree d s.organization) (mem : s ∈ d.silicons)
    (level : d.Depth s.organization s.membership n) : d.siliconView s = some (s.shown n) := by
  obtain ⟨m, mMem, seats, active⟩ := tree.seat s mem rfl
  obtain ⟨items, ran⟩ : ∃ items, d.fetchSilicons s.organization [s.membership] = some items :=
    tree.project_some tree.keepsManagers_all _
  have listed : s.response m n ∈ items := (tree.fetchSilicons_mem ran).mpr
    ⟨s, mem, m, mMem, n, rfl, seats, active, List.mem_singleton_self _, level, rfl⟩
  have only : ∀ item ∈ items, item.principalId = s.id → item = s.response m n := by
    intro item itemMem same
    obtain ⟨t, tMem, seat, seatMem, k, -, tSeats, -, -, tLevel, rfl⟩ :=
      (tree.fetchSilicons_mem ran).mp itemMem
    obtain rfl := Table.unique tMem mem same
    obtain rfl := Table.unique seatMem mMem (tSeats.id.trans seats.id.symm)
    rw [tree.level_unique tLevel level]
  obtain ⟨item, found⟩ : ∃ item, items.find? (fun item => item.principalId == s.id) = some item :=
    Option.isSome_iff_exists.mp (List.find?_isSome.mpr ⟨_, listed, beq_self_eq_true _⟩)
  obtain rfl := only item (List.mem_of_find?_eq_some found) (by simpa using List.find?_some found)
  rw [Directory.siliconView, ran, Option.bind_some, found, Option.map_some, response_content active]

end Tree

/-! ## Views of members -/

namespace Directory

variable (d : Directory)

def settingsOf (m : Membership) : Option CarbonSettings :=
  d.settings.find? fun c => c.organization == m.organization && c.membership == m.id

/-- The Silicons a Carbon member has extra access to. -/
def extraOf (m : Membership) : List Nat :=
  ((d.access.rows.filter fun g => g.organization == m.organization && g.carbon == m.id).map
    AccessGrant.silicon).insertionSort (· ≤ ·)

/-- A member's row without its Silicon's part. -/
def memberShown (m : Membership) (extra : List Nat) (reportsTo : Option Nat) (level : Option Nat) :
    MembershipResponse where
  id := m.id
  principal := m.principal
  kind := m.kind
  active := m.active
  role := m.role
  firstSilicon := (d.settingsOf m).bind CarbonSettings.firstSilicon
  extraSilicons := extra
  defaultTrust := (d.settingsOf m).map CarbonSettings.defaultTrust
  reportsTo := reportsTo
  hierarchyLevel := level
  version := 0

end Directory

theorem memberResponse_spec {row : MembershipResponse} (found : d.memberResponse m = some row) :
    row.id = m.id ∧ row.version = m.version := by
  obtain ⟨level, -, rfl⟩ := Option.map_eq_some_iff.mp found
  exact ⟨rfl, rfl⟩

theorem siliconOf_carbon (kind : m.kind = .carbon) : d.siliconOf m = none := by
  simp [Directory.siliconOf, kind]

theorem memberView_carbon (kind : m.kind = .carbon) :
    d.memberView m = some (d.memberShown m (d.extraOf m) none none, none) := by
  rw [Directory.memberView, siliconOf_carbon kind]
  simp [Directory.memberResponse, kind, MembershipResponse.content, Directory.memberShown,
    Directory.settingsOf, Directory.extraOf]

/-- A Silicon member whose Silicon is not there. -/
theorem memberView_vacant (kind : m.kind = .silicon) (none : ∀ s ∈ d.silicons, s.id ≠ m.principal) :
    d.memberView m = some (d.memberShown m [] Option.none Option.none, Option.none) := by
  have absent : (d.silicons.find? fun s => s.id == m.principal) = Option.none :=
    List.find?_eq_none.mpr fun s mem => by simpa using none s mem
  simp [Directory.memberView, Directory.siliconOf, Directory.memberResponse, kind, absent,
    MembershipResponse.content, Directory.memberShown, Directory.settingsOf]

namespace Tree

theorem memberView_silicon (tree : Tree d s.organization) (mem : s ∈ d.silicons) (seats : Seats m s)
    (level : d.Depth s.organization s.membership n) :
    d.memberView m = some (d.memberShown m [] s.reportsTo (some n), some (s.shown n)) := by
  have found : (d.silicons.find? fun s => s.id == m.principal) = some s :=
    Table.find?_eq_some_of_key mem (by simp [seats.principal]) fun t _ holds => by
      simpa [seats.principal] using holds
  obtain ⟨rows, ran, counted⟩ := tree.ancestors_spec (mem_all.mpr ⟨mem, rfl⟩)
  obtain rfl := tree.level_unique level counted
  simp [Directory.memberView, Directory.siliconOf, Directory.memberResponse, seats.kind, found,
    seats.organization, ran, tree.siliconView_eq mem level, MembershipResponse.content,
    Directory.memberShown, Directory.settingsOf]

end Tree

/-! ## Events -/

theorem mapM_rows {α β : Type} {f : α → Option β} {l : List α} {out : List β}
    (ran : l.mapM f = some out) : List.Forall₂ (fun a b => f a = some b) l out := by
  induction l generalizing out with
  | nil =>
      obtain rfl : out = [] := by simpa using ran.symm
      exact .nil
  | cons a rest ih =>
      simp only [List.mapM_cons, Option.bind_eq_bind, Option.bind_eq_some_iff, Option.pure_def,
        Option.some.injEq] at ran
      obtain ⟨b, first, others, ranRest, rfl⟩ := ran
      exact .cons first (ih ranRest)

theorem exists_left {α β : Type} {R : α → β → Prop} {l : List α} {out : List β}
    (rows : List.Forall₂ R l out) {b : β} (mem : b ∈ out) : ∃ a ∈ l, R a b := by
  induction rows with
  | nil => exact absurd mem List.not_mem_nil
  | @cons a b' l out first _ ih =>
      rcases List.mem_cons.mp mem with rfl | mem
      · exact ⟨a, List.mem_cons_self, first⟩
      · obtain ⟨a', listed, related⟩ := ih mem
        exact ⟨a', List.mem_cons_of_mem a listed, related⟩

theorem exists_right {α β : Type} {R : α → β → Prop} {l : List α} {out : List β}
    (rows : List.Forall₂ R l out) {a : α} (mem : a ∈ l) : ∃ b ∈ out, R a b := by
  obtain ⟨b, listed, related⟩ := exists_left rows.flip mem
  exact ⟨b, listed, related⟩

theorem versionsOf_append (first later : List OutboxEvent) (type : AggregateType) (id : Nat) :
    versionsOf (first ++ later) type id = versionsOf first type id ++ versionsOf later type id := by
  rw [versionsOf, List.filter_append, List.map_append]
  rfl

/-- Of the lists made for different ids one is about `k`. -/
theorem versionsOf_flatten {ids : List Nat} {made : List (List OutboxEvent)} {type : AggregateType}
    {id k v : Nat} {P : Prop} [Decidable P]
    (rows : List.Forall₂ (fun i events => versionsOf events type id = if i = k ∧ P then [v] else [])
      ids made) (distinct : ids.Nodup) :
    versionsOf made.flatten type id = if k ∈ ids ∧ P then [v] else [] := by
  induction rows with
  | nil => simp [versionsOf]
  | @cons i events ids made first _ ih =>
      obtain ⟨apart, distinct⟩ := List.nodup_cons.mp distinct
      rw [List.flatten_cons, versionsOf_append, first, ih distinct]
      by_cases same : i = k
      · subst same
        by_cases holds : P <;> simp [apart, holds]
      · have differ : ¬ k = i := fun equal => same equal.symm
        simp [same, differ]

/-- Events only reach the outbox. -/
theorem applyAll_events (events : List OutboxEvent) :
    d.applyAll (events.map .event) = { d with outbox := d.outbox ++ events } := by
  induction events generalizing d with
  | nil => simp [Directory.applyAll]
  | cons event rest ih =>
      rw [List.map_cons, applyAll_cons, ih]
      simp [Directory.apply]

/-- The events of a member and its Silicon. -/
def changePair (silicon : SiliconResponse) (member : MembershipResponse) : List OutboxEvent :=
  [⟨.silicon, silicon.principalId, silicon.version, "organization.silicon.updated.v1"⟩,
    ⟨.organizationMembership, member.id, member.version, "organization.membership.updated.v1"⟩]

theorem fetchMembers_mem {ids : List Nat} {members : List MembershipResponse}
    (ran : d.fetchMembers organization ids = some members) {row : MembershipResponse} :
    row ∈ members ↔ ∃ m ∈ d.memberships, m.organization = organization ∧ m.id ∈ ids ∧
      d.memberResponse m = some row := by
  have rows := mapM_rows ran
  have selected : ∀ m, m ∈ (d.memberships.rows.filter fun m =>
      m.organization == organization && ids.contains m.id).insertionSort (fun a b => a.id ≤ b.id) ↔
      m ∈ d.memberships ∧ m.organization = organization ∧ m.id ∈ ids := by
    intro m
    simp [List.mem_insertionSort, Table.mem_rows]
  constructor
  · intro listed
    obtain ⟨m, mem, made⟩ := exists_left rows listed
    obtain ⟨mMem, here, among⟩ := (selected m).mp mem
    exact ⟨m, mMem, here, among, made⟩
  · rintro ⟨m, mMem, here, among, made⟩
    obtain ⟨other, listed, same⟩ := exists_right rows ((selected m).mpr ⟨mMem, here, among⟩)
    obtain rfl := Option.some.inj (made.symm.trans same)
    exact listed

theorem changePairs {memory : Memory} {silicons : List SiliconResponse}
    {members : List MembershipResponse} {ids : List Nat} {made : List (List Write)}
    (rows : List.Forall₂ (fun id pair => changeEvents memory silicons members id = some pair)
      ids made) :
    ∃ events : List (List OutboxEvent), made = events.map (List.map .event) ∧
      List.Forall₂ (fun id pair => ∃ silicon ∈ silicons, ∃ member ∈ members,
        silicon.membershipId = id ∧ member.id = id ∧ pair = changePair silicon member) ids events := by
  induction rows with
  | nil => exact ⟨[], rfl, .nil⟩
  | cons first _ ih =>
      obtain ⟨silicon, listed, member, memberListed, at_, memberAt, rfl⟩ := changeEvents_spec first
      obtain ⟨events, rfl, rest⟩ := ih
      exact ⟨changePair silicon member :: events, rfl,
        .cons ⟨silicon, listed, member, memberListed, at_, memberAt, rfl⟩ rest⟩

/-- The two events of every changed Silicon, at the versions of its rows. -/
theorem recordChanges_spec (xid : Nat) {memory left : Memory} {ws : List Write}
    (tree : Tree d organization) (distinct : memory.changed.Nodup)
    (ran : (recordChanges organization).effect xid memory d = some (left, ws)) :
    ∃ events, left = memory ∧ ws = events.map .event ∧
      (∀ s ∈ d.silicons, versionsOf events .silicon s.id =
        if s.membership ∈ memory.changed ∧ s.organization = organization then [s.version] else []) ∧
      ∀ m ∈ d.memberships, versionsOf events .organizationMembership m.id =
        if m.id ∈ memory.changed ∧ m.organization = organization then [m.version] else [] := by
  have ran : ((d.fetchSilicons organization memory.changed).bind fun silicons =>
      (d.fetchMembers organization memory.changed).bind fun members =>
        (memory.changed.mapM (changeEvents memory silicons members)).map fun events =>
          (memory, events.flatten)) = some (left, ws) := ran
  simp only [Option.bind_eq_some_iff, Option.map_eq_some_iff, Prod.mk.injEq] at ran
  obtain ⟨silicons, fetched, members, fetchedMembers, made, rows, rfl, rfl⟩ := ran
  obtain ⟨events, rfl, pairs⟩ := changePairs (mapM_rows rows)
  refine ⟨events.flatten, rfl, List.map_flatten.symm, fun s mem => ?_, fun m mem => ?_⟩
  · refine versionsOf_flatten (pairs.imp fun id pair related => ?_) distinct
    obtain ⟨silicon, listed, member, -, rfl, -, rfl⟩ := related
    obtain ⟨t, tMem, seat, -, k, here, seats, -, -, -, rfl⟩ :=
      (tree.fetchSilicons_mem fetched).mp listed
    by_cases same : t = s
    · subst same
      simp [versionsOf, changePair, Silicon.response, here]
    · have apart : ¬ (t.membership = s.membership ∧ s.organization = organization) := fun both =>
        same (tree.unique tMem here mem both.2 both.1)
      have differ : ¬ t.id = s.id := fun equal => same (Table.unique tMem mem equal)
      simp [versionsOf, changePair, Silicon.response, apart, differ]
  · refine versionsOf_flatten (pairs.imp fun id pair related => ?_) distinct
    obtain ⟨silicon, -, member, listed, -, rfl, rfl⟩ := related
    obtain ⟨other, otherMem, here, -, found⟩ := (fetchMembers_mem fetchedMembers).mp listed
    obtain ⟨at_, version⟩ := memberResponse_spec found
    by_cases same : other = m
    · subst same
      simp [versionsOf, changePair, here, at_, version]
    · have differ : ¬ other.id = m.id := fun equal => same (Table.unique otherMem mem equal)
      simp [versionsOf, changePair, at_, differ]

/-! ## Rows written back with the next version -/

theorem applyAll_silicons (rows : List Silicon) :
    d.applyAll (rows.map .silicon) = { d with silicons := rows.foldl Table.upsert d.silicons } := by
  induction rows generalizing d with
  | nil => rfl
  | cons row rest ih =>
      rw [List.map_cons, applyAll_cons, ih]
      rfl

theorem applyAll_memberships (rows : List Membership) :
    d.applyAll (rows.map .membership) =
      { d with memberships := rows.foldl Table.upsert d.memberships } := by
  induction rows generalizing d with
  | nil => rfl
  | cons row rest ih =>
      rw [List.map_cons, applyAll_cons, ih]
      rfl

theorem applyAll_settings (rows : List CarbonSettings) :
    d.applyAll (rows.map .settings) = { d with settings := rows.foldl Table.upsert d.settings } := by
  induction rows generalizing d with
  | nil => rfl
  | cons row rest ih =>
      rw [List.map_cons, applyAll_cons, ih]
      rfl

theorem applyAll_grants (rows : List AccessGrant) :
    d.applyAll (rows.map .grant) = { d with access := rows.foldl Table.upsert d.access } := by
  induction rows generalizing d with
  | nil => rfl
  | cons row rest ih =>
      rw [List.map_cons, applyAll_cons, ih]
      rfl

theorem applyAll_revokes (rows : List AccessGrant) :
    d.applyAll (rows.map .revoke) = { d with access := rows.foldl Table.erase d.access } := by
  induction rows generalizing d with
  | nil => rfl
  | cons row rest ih =>
      rw [List.map_cons, applyAll_cons, ih]
      rfl

/-- The Silicons that `touchSilicons` reaches. -/
def touchedSilicon (organization : Nat) (ids : List Nat) (s : Silicon) : Bool :=
  s.organization == organization && (s.live && ids.contains s.membership)

def touchedMembership (organization : Nat) (ids : List Nat) (m : Membership) : Bool :=
  m.organization == organization && m.active && ids.contains m.id

theorem touchSilicons_spec (d : Directory) (organization : Nat) (ids : List Nat) :
    ∃ table, d.applyAll (d.touchSilicons organization ids) = { d with silicons := table } ∧
      ∀ row, row ∈ table ↔ ∃ s ∈ d.silicons,
        row = if touchedSilicon organization ids s then s.bump else s := by
  have writes : d.touchSilicons organization ids =
      ((d.silicons.rows.filter (touchedSilicon organization ids)).map Silicon.bump).map .silicon := by
    rw [List.map_map]
    rfl
  refine ⟨_, by rw [writes, applyAll_silicons], fun row => ?_⟩
  exact Table.mem_upsert_selected fun s => rfl

theorem touchMemberships_spec (d : Directory) (organization : Nat) (ids : List Nat) :
    ∃ table, d.applyAll (d.touchMemberships organization ids) = { d with memberships := table } ∧
      ∀ row, row ∈ table ↔ ∃ m ∈ d.memberships,
        row = if touchedMembership organization ids m then m.bump else m := by
  have writes : d.touchMemberships organization ids =
      ((d.memberships.rows.filter (touchedMembership organization ids)).map
        Roles.Membership.bump).map .membership := by
    rw [List.map_map]
    rfl
  refine ⟨_, by rw [writes, applyAll_memberships], fun row => ?_⟩
  exact Table.mem_upsert_selected fun m => rfl

end SiliconIam.Organizations.Hierarchy
