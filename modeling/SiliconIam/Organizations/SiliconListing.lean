/-
# Organizations.SiliconListing -- the recursive queries over a reporting tree

Over a directory whose reporting links are a tree every recursive query finishes
within the rounds there are Silicons for, `hierarchy` has one row for each Silicon,
whose level is its depth, and the listing read page by page shows every live
Silicon once.
-/
import SiliconIam.Organizations.ReportingRemoval

namespace SiliconIam.Organizations.Hierarchy

open Relation
open SiliconIam.Theory SiliconIam.Theory.Forest SiliconIam.Theory.Transactions
open SiliconIam.Organizations.Roles (Membership)

set_option autoImplicit false

/-- The links of the Silicons that `keep` keeps. -/
def Directory.LinkOf (d : Directory) (organization : Nat) (keep : Silicon → Bool) (a b : Nat) : Prop :=
  ∃ s ∈ d.siliconsOf organization keep, s.membership = a ∧ s.reportsTo = some b

/-- What `keep` keeps reports to what it keeps. -/
def Directory.KeepsManagers (d : Directory) (organization : Nat) (keep : Silicon → Bool) : Prop :=
  ∀ s ∈ d.siliconsOf organization keep, ∀ p, s.reportsTo = some p →
    ∃ b ∈ d.siliconsOf organization keep, b.membership = p

variable {d : Directory} {organization : Nat} {keep : Silicon → Bool} {s : Silicon} {n : Nat}

namespace Tree

variable (tree : Tree d organization)
include tree

theorem keepsManagers_live : d.KeepsManagers organization Silicon.live := by
  intro s mem p reports
  obtain ⟨sMem, here, live⟩ := mem_siliconsOf.mp mem
  obtain ⟨b, bMem, bHere, at_, alive⟩ := tree.manager s sMem here p reports
  exact ⟨b, mem_siliconsOf.mpr ⟨bMem, bHere, alive live⟩, at_⟩

theorem keepsManagers_all : d.KeepsManagers organization fun _ => true := by
  intro s mem p reports
  obtain ⟨sMem, here, -⟩ := mem_siliconsOf.mp mem
  obtain ⟨b, bMem, bHere, at_, -⟩ := tree.manager s sMem here p reports
  exact ⟨b, mem_siliconsOf.mpr ⟨bMem, bHere, rfl⟩, at_⟩

theorem unique_of {other : Silicon} (mem : s ∈ d.siliconsOf organization keep)
    (otherMem : other ∈ d.siliconsOf organization keep) (same : s.membership = other.membership) :
    s = other := by
  obtain ⟨sMem, here, -⟩ := mem_siliconsOf.mp mem
  obtain ⟨oMem, there, -⟩ := mem_siliconsOf.mp otherMem
  exact tree.unique sMem here oMem there same

theorem acyclic_of (keep : Silicon → Bool) : Acyclic (d.LinkOf organization keep) := by
  refine tree.acyclic.mono ?_
  rintro a b ⟨s, mem, at_, reports⟩
  obtain ⟨sMem, here, -⟩ := mem_siliconsOf.mp mem
  exact ⟨s, sMem, here, at_, reports⟩

theorem functional_of {a b c : Nat} (first : d.LinkOf organization keep a b)
    (second : d.LinkOf organization keep a c) : b = c := by
  obtain ⟨s, mem, rfl, reports⟩ := first
  obtain ⟨other, otherMem, same, reports'⟩ := second
  obtain rfl := tree.unique_of mem otherMem same.symm
  exact Option.some.inj (reports.symm.trans reports')

/-- A link leads from the Silicon that has it. -/
theorem reportsTo_of_link {b : Nat} (mem : s ∈ d.siliconsOf organization keep)
    (linked : d.LinkOf organization keep s.membership b) : s.reportsTo = some b := by
  obtain ⟨other, otherMem, same, reports⟩ := linked
  rw [tree.unique_of mem otherMem same.symm]
  exact reports

/-! ## Levels -/

/-- The depth of a Silicon is at most the number of Silicons. -/
theorem level_bound (closed : d.KeepsManagers organization keep)
    (mem : s ∈ d.siliconsOf organization keep)
    (level : Level (d.LinkOf organization keep) s.membership n) : n < d.rounds := by
  have reached : ∀ x, ReflTransGen (d.LinkOf organization keep) s.membership x →
      x ∈ d.silicons.rows.map Silicon.membership := by
    intro x walk
    have kept : ∃ b ∈ d.siliconsOf organization keep, b.membership = x := by
      induction walk with
      | refl => exact ⟨s, mem, rfl⟩
      | tail _ last _ =>
          obtain ⟨report, reportMem, -, reports⟩ := last
          exact closed report reportMem _ reports
    obtain ⟨b, bMem, rfl⟩ := kept
    exact List.mem_map_of_mem (mem_siliconsOf.mp bMem).1
  have bounded := level.le_length (tree.acyclic_of keep) reached
  rw [List.length_map] at bounded
  rw [Directory.rounds]
  omega

theorem level_exists (closed : d.KeepsManagers organization keep)
    (mem : s ∈ d.siliconsOf organization keep) :
    ∃ n < d.rounds, Level (d.LinkOf organization keep) s.membership n := by
  have finite : ∀ x y, d.LinkOf organization keep x y →
      x ∈ (d.siliconsOf organization keep).map Silicon.membership := by
    rintro x y ⟨b, bMem, rfl, -⟩
    exact List.mem_map_of_mem bMem
  obtain ⟨n, level⟩ := Level.exists (tree.acyclic_of keep) finite s.membership
  exact ⟨n, tree.level_bound closed mem level, level⟩

theorem level_unique {a m : Nat} (first : Level (d.LinkOf organization keep) a n)
    (second : Level (d.LinkOf organization keep) a m) : n = m := by
  have functional : ∀ x y z, d.LinkOf organization keep x y → d.LinkOf organization keep x z →
      y = z := fun _ _ _ => tree.functional_of
  exact first.unique functional second

theorem level_root (mem : s ∈ d.siliconsOf organization keep) (root : s.reportsTo = none) :
    Level (d.LinkOf organization keep) s.membership 1 := by
  refine .root fun b linked => ?_
  have := tree.reportsTo_of_link mem linked
  rw [root] at this
  exact absurd this (by simp)

omit tree in
theorem level_report {report : Silicon} (made : report ∈ d.reports organization keep s.membership)
    (level : Level (d.LinkOf organization keep) s.membership n) :
    Level (d.LinkOf organization keep) report.membership (n + 1) := by
  obtain ⟨mem, reports⟩ := List.mem_filter.mp made
  exact .child ⟨report, mem, rfl, by simpa using reports⟩ level

theorem level_manager (mem : s ∈ d.siliconsOf organization keep) {p : Nat}
    (reports : s.reportsTo = some p) (level : Level (d.LinkOf organization keep) s.membership n) :
    ∃ m < n, Level (d.LinkOf organization keep) p m := by
  have linked : d.LinkOf organization keep s.membership p := ⟨s, mem, rfl, reports⟩
  cases level with
  | root top => exact absurd linked (top p)
  | @child _ b m other above =>
      obtain rfl := tree.functional_of linked other
      exact ⟨m, by omega, above⟩

/-! ## The queries finish -/

/-- A query down the links, whatever else its rows carry. -/
theorem downward_some {β : Type} (row : β → Silicon) {step : β → List β} {work : List β}
    (closed : d.KeepsManagers organization keep)
    (start : ∀ x ∈ work, row x ∈ d.siliconsOf organization keep)
    (steps : ∀ x, ∀ y ∈ step x, row y ∈ d.reports organization keep (row x).membership) :
    ∃ rows, unionAll step d.rounds work = some rows := by
  let rank (x : β) (k : Nat) : Prop := row x ∈ d.siliconsOf organization keep ∧
    ∃ n, Level (d.LinkOf organization keep) (row x).membership n ∧ k + n = d.rounds
  refine unionAll_some rank ?_ ?_
  · rintro x k ⟨-, n, level, sum⟩ y made
    have mem : row y ∈ d.siliconsOf organization keep := (List.mem_filter.mp (steps x y made)).1
    have deeper := level_report (steps x y made) level
    have bound := tree.level_bound closed mem deeper
    exact ⟨k - 1, by omega, mem, n + 1, deeper, by omega⟩
  · intro x listed
    obtain ⟨n, bound, level⟩ := tree.level_exists closed (start x listed)
    have := level.pos
    exact ⟨d.rounds - n, by omega, start x listed, n, level, by omega⟩

theorem hierarchy_some (closed : d.KeepsManagers organization keep) :
    ∃ nodes, d.hierarchy organization keep = some nodes := by
  refine tree.downward_some Prod.fst closed ?_ ?_
  · intro x listed
    obtain ⟨s, mem, rfl⟩ := List.mem_map.mp listed
    exact (List.mem_filter.mp mem).1
  · intro x y made
    obtain ⟨s, mem, rfl⟩ := List.mem_map.mp made
    exact mem

theorem descendants_some {seeds : List Silicon}
    (start : ∀ s ∈ seeds, s ∈ d.siliconsOf organization Silicon.live) :
    ∃ nodes, d.descendants organization seeds = some nodes := by
  refine tree.downward_some Prod.fst tree.keepsManagers_live ?_ ?_
  · intro x listed
    obtain ⟨s, mem, rfl⟩ := List.mem_map.mp listed
    exact start s mem
  · intro x y made
    obtain ⟨s, mem, rfl⟩ := List.mem_map.mp made
    exact mem

theorem subtree_some (root : Nat) (includeDescendants : Bool) :
    ∃ rows, d.subtree organization root includeDescendants = some rows := by
  refine tree.downward_some id tree.keepsManagers_live ?_ ?_
  · intro s listed
    exact (List.mem_filter.mp listed).1
  · intro s report made
    cases includeDescendants with
    | true => exact made
    | false => exact absurd made List.not_mem_nil

theorem liveAncestors_some (membership : Nat) :
    ∃ rows, d.liveAncestors organization membership = some rows := by
  let rank (s : Silicon) (k : Nat) : Prop := s ∈ d.siliconsOf organization Silicon.live ∧
    Level (d.LinkOf organization Silicon.live) s.membership k
  refine unionAll_some rank ?_ ?_
  · rintro s k ⟨mem, level⟩ above made
    obtain ⟨aboveMem, at_⟩ := List.mem_filter.mp made
    obtain ⟨m, less, higher⟩ := tree.level_manager mem (beq_iff_eq.mp at_).symm level
    exact ⟨m, less, aboveMem, higher⟩
  · intro s listed
    have mem := (List.mem_filter.mp listed).1
    obtain ⟨n, bound, level⟩ := tree.level_exists tree.keepsManagers_live mem
    exact ⟨n, bound, mem, level⟩

/-! ## The rows of `hierarchy` -/

/-- One row a Silicon, with its depth. -/
theorem hierarchy_spec (closed : d.KeepsManagers organization keep) {nodes : List (Silicon × Nat)}
    (ran : d.hierarchy organization keep = some nodes) : nodes.Nodup ∧ ∀ s n, (s, n) ∈ nodes ↔
      s ∈ d.siliconsOf organization keep ∧ Level (d.LinkOf organization keep) s.membership n := by
  let Placed (x : Silicon × Nat) : Prop := x.1 ∈ d.siliconsOf organization keep ∧
    Level (d.LinkOf organization keep) x.1.membership x.2
  have roots : ∀ x ∈ ((d.siliconsOf organization keep).filter fun s => s.reportsTo == none).map
      (·, 1), Placed x ∧ x.2 = 1 := by
    intro x listed
    obtain ⟨s, mem, rfl⟩ := List.mem_map.mp listed
    obtain ⟨sMem, root⟩ := List.mem_filter.mp mem
    exact ⟨⟨sMem, tree.level_root sMem (by simpa using root)⟩, rfl⟩
  have placed : ∀ x, Placed x → ∀ y ∈ (d.reports organization keep x.1.membership).map (·, x.2 + 1),
      Placed y := by
    rintro x ⟨-, level⟩ y made
    obtain ⟨s, mem, rfl⟩ := List.mem_map.mp made
    exact ⟨(List.mem_filter.mp mem).1, level_report mem level⟩
  have distinct : (d.siliconsOf organization keep).Nodup :=
    (List.Nodup.of_map Silicon.id d.silicons.distinct).filter _
  have tagged : ∀ (k : Nat) {l : List Silicon}, l.Nodup → (l.map (·, k)).Nodup := fun k _ nodup =>
    nodup.map fun _ _ same => (Prod.mk.inj same).1
  constructor
  · refine (nodup_unionAll Prod.snd placed ?_ ?_ ?_ ran roots
      (tagged 1 (distinct.filter _))).1
    · intro x y made
      obtain ⟨s, -, rfl⟩ := List.mem_map.mp made
      rfl
    · intro x
      exact tagged _ (distinct.filter _)
    · -- A Silicon reports to one Silicon, which has one row at the level above.
      rintro ⟨a, i⟩ ⟨b, j⟩ ⟨aMem, -⟩ ⟨bMem, -⟩ z fromA fromB
      obtain ⟨s, mem, rfl⟩ := List.mem_map.mp fromA
      obtain ⟨other, otherMem, same⟩ := List.mem_map.mp fromB
      obtain ⟨rfl, depth⟩ := Prod.mk.inj same
      have toA := beq_iff_eq.mp (List.mem_filter.mp mem).2
      have toB := beq_iff_eq.mp (List.mem_filter.mp otherMem).2
      obtain rfl := tree.unique_of aMem bMem (Option.some.inj (toA.symm.trans toB))
      exact Prod.ext rfl (Nat.succ.inj depth).symm
  · intro s n
    rw [mem_unionAll ran]
    constructor
    · rintro ⟨x, listed, walk⟩
      have reached : ∀ {y}, ReflTransGen (fun a b => b ∈ (d.reports organization keep
          a.1.membership).map (·, a.2 + 1)) x y → Placed y := by
        intro y walk
        induction walk with
        | refl => exact (roots _ listed).1
        | tail _ last ih => exact placed _ ih _ last
      exact reached walk
    · rintro ⟨mem, level⟩
      induction n generalizing s with
      | zero => exact absurd level.pos (by omega)
      | succ n ih =>
          cases manager : s.reportsTo with
          | none =>
              have same := tree.level_unique level (tree.level_root mem manager)
              refine ⟨(s, n + 1), List.mem_map.mpr ⟨s, List.mem_filter.mpr ⟨mem, ?_⟩, ?_⟩, .refl⟩
              · rw [manager]
                rfl
              · rw [same]
          | some p =>
              obtain ⟨b, bMem, rfl⟩ := closed s mem p manager
              obtain ⟨m, -, higher⟩ := tree.level_manager mem manager level
              have made : s ∈ d.reports organization keep b.membership :=
                List.mem_filter.mpr ⟨mem, by simp [manager]⟩
              have same := tree.level_unique level (level_report made higher)
              obtain rfl := Nat.succ.inj same
              obtain ⟨x, listed, walk⟩ := ih b bMem higher
              exact ⟨x, listed, walk.tail (List.mem_map.mpr ⟨s, made, rfl⟩)⟩

/-- The only Silicon of a membership. -/
theorem managers_self (mem : s ∈ d.siliconsOf organization keep) :
    d.managers organization keep (some s.membership) = [s] := by
  have only : ∀ other ∈ d.managers organization keep (some s.membership), other = s := by
    intro other listed
    obtain ⟨otherMem, here, kept, same⟩ := mem_managers.mp listed
    exact tree.unique_of (mem_siliconsOf.mpr ⟨otherMem, here, kept⟩) mem (Option.some.inj same)
  have listed : s ∈ d.managers organization keep (some s.membership) := by
    obtain ⟨sMem, here, kept⟩ := mem_siliconsOf.mp mem
    exact mem_managers.mpr ⟨sMem, here, kept, rfl⟩
  have distinct : (d.managers organization keep (some s.membership)).Nodup :=
    ((List.Nodup.of_map Silicon.id d.silicons.distinct).filter _).filter _
  exact List.perm_singleton.mp ((List.perm_ext_iff_of_nodup distinct (List.nodup_singleton s)).mpr
    fun other => ⟨fun mem => List.mem_singleton.mpr (only other mem),
      fun mem => List.mem_singleton.mp mem ▸ listed⟩)

/-- The way up emits one row a level. -/
theorem union_way (fuel : Nat) (seen : List (Nat × Option Nat))
    (mem : s ∈ d.siliconsOf organization fun _ => true)
    (level : Level (d.LinkOf organization fun _ => true) s.membership n) (enough : n ≤ fuel)
    (unseen : ∀ x ∈ seen, ¬ ReflTransGen (d.LinkOf organization fun _ => true) s.membership x.1) :
    ∃ way : List (Nat × Option Nat), way.length = n ∧
      union (fun row => (d.managers organization (fun _ => true) row.2).map fun s =>
        (s.membership, s.reportsTo)) fuel seen [(s.membership, s.reportsTo)] =
          some (seen ++ way) := by
  induction n generalizing s fuel seen with
  | zero => exact absurd level.pos (by omega)
  | succ n ih =>
      obtain ⟨fuel, rfl⟩ : ∃ before, fuel = before + 1 := ⟨fuel - 1, by omega⟩
      cases manager : s.reportsTo with
      | none =>
          have same := tree.level_unique level (tree.level_root mem manager)
          have top : d.managers organization (fun _ => true) none = [] :=
            List.filter_eq_nil_iff.mpr (by simp)
          exact ⟨[(s.membership, none)], by simpa using same.symm, union_last (by rw [top]; rfl)⟩
      | some p =>
          obtain ⟨b, bMem, rfl⟩ := tree.keepsManagers_all s mem p manager
          obtain ⟨m, -, higher⟩ := tree.level_manager mem manager level
          have linked : d.LinkOf organization (fun _ => true) s.membership b.membership :=
            ⟨s, mem, rfl, manager⟩
          have same := tree.level_unique level (.child linked higher)
          obtain rfl := Nat.succ.inj same
          have apart : ∀ x ∈ seen ++ [(s.membership, some b.membership)],
              ¬ ReflTransGen (d.LinkOf organization fun _ => true) b.membership x.1 := by
            intro x listed walk
            rcases List.mem_append.mp listed with before | here
            · exact unseen x before (.head linked walk)
            · rw [List.mem_singleton.mp here] at walk
              exact tree.acyclic_of (fun _ => true) s.membership (.head' linked walk)
          obtain ⟨way, length, ran⟩ := ih fuel _ bMem higher (by omega) apart
          refine ⟨(s.membership, some b.membership) :: way, by simp [length], ?_⟩
          rw [union_next _ (b.membership, b.reportsTo) (by rw [tree.managers_self bMem]; rfl)
            fun listed => apart _ listed .refl, ran, List.append_assoc, List.singleton_append]

theorem ancestors_spec (mem : s ∈ d.siliconsOf organization fun _ => true) :
    ∃ rows, d.ancestors organization s.membership = some rows ∧
      Level (d.LinkOf organization fun _ => true) s.membership rows.length := by
  obtain ⟨n, bound, level⟩ := tree.level_exists tree.keepsManagers_all mem
  obtain ⟨way, rfl, ran⟩ := tree.union_way (d.rounds + 1) [] mem level (by omega)
    (by simp)
  refine ⟨way, ?_, level⟩
  rw [Directory.ancestors, tree.managers_self mem]
  exact ran

theorem ancestors_some (membership : Nat) :
    ∃ rows, d.ancestors organization membership = some rows := by
  by_cases seat : ∃ s ∈ d.siliconsOf organization (fun _ => true), s.membership = membership
  · obtain ⟨s, mem, rfl⟩ := seat
    obtain ⟨rows, ran, -⟩ := tree.ancestors_spec mem
    exact ⟨rows, ran⟩
  · have none : d.managers organization (fun _ => true) (some membership) = [] := by
      refine List.filter_eq_nil_iff.mpr fun s mem same => seat ⟨s, mem, ?_⟩
      simpa using same
    exact ⟨[], by rw [Directory.ancestors, none]; rfl⟩

/-! ## The rows of a projection -/

variable {select : Silicon → Membership → Bool}

theorem project_mem {items : List SiliconResponse}
    (closed : d.KeepsManagers organization keep)
    (ran : d.project organization keep select = some items) {item : SiliconResponse} :
    item ∈ items ↔ ∃ s ∈ d.siliconsOf organization keep, ∃ m ∈ d.memberships, ∃ n,
      m.organization = organization ∧ m.id = s.membership ∧ select s m = true ∧
        Level (d.LinkOf organization keep) s.membership n ∧ item = s.response m n := by
  obtain ⟨nodes, found, rfl⟩ := Option.map_eq_some_iff.mp ran
  have rows := (tree.hierarchy_spec closed found).2
  constructor
  · intro listed
    obtain ⟨s, mem, inner⟩ := List.mem_flatMap.mp listed
    obtain ⟨m, joined, inner⟩ := List.mem_flatMap.mp inner
    obtain ⟨⟨other, n⟩, node, rfl⟩ := List.mem_map.mp inner
    obtain ⟨sMem, here, -⟩ := mem_siliconsOf.mp mem
    obtain ⟨mMem, joined⟩ := List.mem_filter.mp joined
    simp only [Bool.and_eq_true, beq_iff_eq] at joined
    obtain ⟨nodeMem, same⟩ := List.mem_filter.mp node
    obtain ⟨otherMem, level⟩ := (rows other n).mp nodeMem
    obtain rfl := Table.unique (mem_siliconsOf.mp otherMem).1 sMem (beq_iff_eq.mp same)
    exact ⟨other, otherMem, m, mMem, n, joined.1.1.trans here, joined.1.2, joined.2, level, rfl⟩
  · rintro ⟨s, mem, m, mMem, n, org, id, selected, level, rfl⟩
    obtain ⟨sMem, here, -⟩ := mem_siliconsOf.mp mem
    refine List.mem_flatMap.mpr ⟨s, mem_siliconsOf.mpr ⟨sMem, here, rfl⟩,
      List.mem_flatMap.mpr ⟨m, List.mem_filter.mpr ⟨mMem, ?_⟩, List.mem_map.mpr ⟨(s, n),
        List.mem_filter.mpr ⟨(rows s n).mpr ⟨mem, level⟩, beq_self_eq_true _⟩, rfl⟩⟩⟩
    simp [org, here, id, selected]

/-- Every Silicon has at most one row. -/
theorem project_distinct {items : List SiliconResponse}
    (closed : d.KeepsManagers organization keep)
    (ran : d.project organization keep select = some items) :
    items.Pairwise fun a b => a.principalId ≠ b.principalId := by
  obtain ⟨nodes, found, rfl⟩ := Option.map_eq_some_iff.mp ran
  obtain ⟨distinct, rows⟩ := tree.hierarchy_spec closed found
  have ids : (d.siliconsOf organization fun _ => true).Pairwise fun s t => s.id ≠ t.id :=
    (List.pairwise_map.mp d.silicons.distinct).filter _
  refine List.pairwise_flatMap.mpr ⟨fun s _ => List.pairwise_flatMap.mpr ⟨fun m _ => ?_, ?_⟩, ?_⟩
  · refine List.pairwise_map.mpr ((distinct.filter _).imp_of_mem ?_)
    rintro ⟨a, i⟩ ⟨b, j⟩ aNode bNode differ -
    obtain ⟨aNode, aSame⟩ := List.mem_filter.mp aNode
    obtain ⟨bNode, bSame⟩ := List.mem_filter.mp bNode
    obtain ⟨aMem, aLevel⟩ := (rows a i).mp aNode
    obtain ⟨bMem, bLevel⟩ := (rows b j).mp bNode
    obtain rfl := Table.unique (mem_siliconsOf.mp aMem).1 (mem_siliconsOf.mp bMem).1
      ((beq_iff_eq.mp aSame).trans (beq_iff_eq.mp bSame).symm)
    exact differ (by rw [tree.level_unique aLevel bLevel])
  · -- A Silicon is joined with one membership.
    have memberships := (List.pairwise_map.mp d.memberships.distinct).filter fun m =>
      m.organization == s.organization && m.id == s.membership && select s m
    refine memberships.imp_of_mem ?_
    intro a b aJoined bJoined differ
    simp only [List.mem_filter, Bool.and_eq_true, beq_iff_eq] at aJoined bJoined
    exact absurd (aJoined.2.1.2.trans bJoined.2.1.2.symm) differ
  · refine ids.imp_of_mem ?_
    intro s t _ _ differ item fromS other fromT
    obtain ⟨_, _, inner⟩ := List.mem_flatMap.mp fromS
    obtain ⟨_, _, rfl⟩ := List.mem_map.mp inner
    obtain ⟨_, _, inner⟩ := List.mem_flatMap.mp fromT
    obtain ⟨_, _, rfl⟩ := List.mem_map.mp inner
    exact differ

theorem project_length {items : List SiliconResponse}
    (closed : d.KeepsManagers organization keep)
    (ran : d.project organization keep select = some items) : items.length < d.rounds := by
  have within : (items.map SiliconResponse.principalId) ⊆ d.silicons.rows.map Silicon.id := by
    intro id listed
    obtain ⟨item, mem, rfl⟩ := List.mem_map.mp listed
    obtain ⟨s, sMem, _, _, _, _, _, _, _, rfl⟩ := (tree.project_mem closed ran).mp mem
    exact List.mem_map_of_mem (mem_siliconsOf.mp sMem).1
  have distinct : (items.map SiliconResponse.principalId).Nodup :=
    List.pairwise_map.mpr (tree.project_distinct closed ran)
  have fewer := (distinct.subperm within).length_le
  rw [List.length_map, List.length_map] at fewer
  rw [Directory.rounds]
  omega

theorem project_some (closed : d.KeepsManagers organization keep)
    (select : Silicon → Membership → Bool) :
    ∃ items, d.project organization keep select = some items := by
  obtain ⟨nodes, found⟩ := tree.hierarchy_some closed
  exact ⟨_, Option.map_eq_some_iff.mpr ⟨nodes, found, rfl⟩⟩

/-! ## The listing -/

/-- The pages of the listing are the parts of one ascending list. -/
theorem readListing_spec (tagged : Nat → Bool) {limit : Nat} (positive : 0 < limit) :
    ∃ items, d.readListing organization tagged limit d.rounds none = some items ∧
      (items.Pairwise fun a b => a.principalId < b.principalId) ∧
      ∀ item, item ∈ items ↔ ∃ s ∈ d.siliconsOf organization Silicon.live, ∃ m ∈ d.memberships, ∃ n,
        m.organization = organization ∧ m.id = s.membership ∧
          (m.active && s.live && tagged s.membership) = true ∧
          Level (d.LinkOf organization Silicon.live) s.membership n ∧ item = s.response m n := by
  have closed := tree.keepsManagers_live
  obtain ⟨rows, ran⟩ := tree.project_some closed
    fun s m => m.active && s.live && tagged s.membership
  have distinct := tree.project_distinct closed ran
  have serves := Paging.serves_sorted SiliconResponse.principalId
    (d.listSilicons organization tagged) distinct fun cursor limit => by
      rw [Directory.listSilicons, ran, Option.map_some, Paging.after]
  have ascending := Paging.sorted_ascending distinct
  have enough := tree.project_length closed ran
  refine ⟨_, Paging.read_all serves ascending positive ?_, ascending, fun item => ?_⟩
  · rw [List.length_insertionSort]
    exact enough
  · rw [List.mem_insertionSort]
    exact tree.project_mem closed ran

end Tree

/-! ## Every run -/

/-- A directory before its first Silicon. -/
def Directory.withoutSilicons (d : Directory) : Directory :=
  { d with
    silicons := .empty _
    memberships := d.memberships.restrict fun m => m.kind == .carbon }

/-- The live Silicons of an organization are a forest along their links. -/
structure LiveForest (d : Directory) (organization : Nat) : Prop where
  manager : ∀ s ∈ d.silicons, s.organization = organization → s.live = true →
    ∀ p, s.reportsTo = some p → ∃ b ∈ d.silicons, b.organization = organization ∧
      b.membership = p ∧ b.live = true ∧ d.membershipActive organization p = true
  unique : ∀ s ∈ d.silicons, ∀ t ∈ d.silicons, s.organization = organization →
    t.organization = organization → s.membership = t.membership → s = t
  acyclic : Acyclic (d.LinkOf organization Silicon.live)

structure QueriesFinish (d : Directory) (organization : Nat) : Prop where
  hierarchy : ∃ nodes, d.hierarchy organization Silicon.live = some nodes
  hierarchyOfAll : ∃ nodes, d.hierarchy organization (fun _ => true) = some nodes
  subtree : ∀ root includeDescendants, ∃ rows,
    d.subtree organization root includeDescendants = some rows
  descendants : ∀ seeds, (∀ s ∈ seeds, s ∈ d.siliconsOf organization Silicon.live) →
    ∃ nodes, d.descendants organization seeds = some nodes
  liveAncestors : ∀ membership, ∃ rows, d.liveAncestors organization membership = some rows
  ancestors : ∀ membership, ∃ rows, d.ancestors organization membership = some rows

/-- The listing shows every live Silicon once, with its depth. -/
def ListsEachOnce (d : Directory) (organization : Nat) (tagged : Nat → Bool) (limit : Nat) : Prop :=
  ∃ items, d.readListing organization tagged limit d.rounds none = some items ∧
    (items.Pairwise fun a b => a.principalId < b.principalId) ∧
    (∀ item ∈ items, ∃ s ∈ d.silicons, s.organization = organization ∧ s.live = true ∧
      tagged s.membership = true ∧ item.principalId = s.id) ∧
    ∀ s ∈ d.silicons, s.organization = organization → s.live = true → tagged s.membership = true →
      ∃ item ∈ items, item.principalId = s.id ∧
        Level (d.LinkOf organization Silicon.live) s.membership item.hierarchyLevel ∧
        ∀ other ∈ items, other.principalId = s.id → other = item

theorem inv_withoutSilicons (d : Directory) : Inv d.withoutSilicons := by
  intro organization
  refine ⟨fun s mem => absurd mem Table.not_mem_empty, fun m mem _ kind => ?_,
    fun s mem => absurd mem Table.not_mem_empty, .of_none ?_⟩
  · obtain ⟨-, carbon⟩ := Table.mem_restrict.mp mem
    simp [kind] at carbon
  · rintro a b ⟨s, mem, -⟩
    exact Table.not_mem_empty mem

namespace Tree

variable (tree : Tree d organization)
include tree

theorem membershipActive (mem : s ∈ d.silicons) (here : s.organization = organization)
    (live : s.live = true) : d.membershipActive organization s.membership = true := by
  obtain ⟨m, mMem, seats, active⟩ := tree.seat s mem here
  refine Table.any_eq_true.mpr ⟨m, mMem, ?_⟩
  simp [seats.organization.trans here, seats.id, active, live]

theorem liveForest : LiveForest d organization where
  manager := by
    intro s mem here live p reports
    obtain ⟨b, bMem, bHere, rfl, alive⟩ := tree.manager s mem here p reports
    exact ⟨b, bMem, bHere, rfl, alive live, tree.membershipActive bMem bHere (alive live)⟩
  unique := fun _ mem _ otherMem here otherHere => tree.unique mem here otherMem otherHere
  acyclic := tree.acyclic_of Silicon.live

theorem queriesFinish : QueriesFinish d organization where
  hierarchy := tree.hierarchy_some tree.keepsManagers_live
  hierarchyOfAll := tree.hierarchy_some tree.keepsManagers_all
  subtree := tree.subtree_some
  descendants := fun _ start => tree.descendants_some start
  liveAncestors := tree.liveAncestors_some
  ancestors := tree.ancestors_some

theorem listsEachOnce (tagged : Nat → Bool) {limit : Nat} (positive : 0 < limit) :
    ListsEachOnce d organization tagged limit := by
  obtain ⟨items, read, ascending, rows⟩ := tree.readListing_spec tagged positive
  refine ⟨items, read, ascending, ?_, ?_⟩
  · intro item listed
    obtain ⟨s, mem, m, -, n, -, -, shown, -, rfl⟩ := (rows item).mp listed
    obtain ⟨sMem, here, live⟩ := mem_siliconsOf.mp mem
    simp only [Bool.and_eq_true] at shown
    exact ⟨s, sMem, here, live, shown.2, rfl⟩
  · intro s sMem here live tag
    have mem := mem_siliconsOf.mpr ⟨sMem, here, live⟩
    obtain ⟨n, -, level⟩ := tree.level_exists tree.keepsManagers_live mem
    obtain ⟨m, mMem, seats, active⟩ := tree.seat s sMem here
    have listed : s.response m n ∈ items := (rows _).mpr ⟨s, mem, m, mMem, n,
      seats.organization.trans here, seats.id, by simp [active, live, tag], level, rfl⟩
    refine ⟨s.response m n, listed, rfl, level, fun other otherListed same => ?_⟩
    have ids : (items.map SiliconResponse.principalId).Nodup :=
      List.pairwise_map.mpr (ascending.imp fun less => less.ne)
    exact List.inj_on_of_nodup_map ids otherListed listed same

end Tree

/-- From a directory without Silicons, however the statements of the requests
interleave. -/
theorem reporting_forest (d : Directory) (events : List (Event Request))
    (w : World Directory Write RowLock Memory Request)
    (run : Runs.Run engine.Steps (World.idle d.withoutSilicons) events w) (organization : Nat) :
    LiveForest w.committed organization ∧ QueriesFinish w.committed organization ∧
      ∀ tagged limit, 0 < limit → ListsEachOnce w.committed organization tagged limit := by
  have sound := outline.sound run (Outline.sound_idle (inv_withoutSilicons d))
  have tree : Tree w.committed organization := sound.committed organization
  exact ⟨tree.liveForest, tree.queriesFinish, fun tagged _ positive =>
    tree.listsEachOnce tagged positive⟩

def executes (xid n : Nat) : List (Event Request) := List.replicate n (.execute xid)

/-- A root Silicon. -/
def createRoot (silicon : Nat) : Request :=
  .createSilicon ⟨1, silicon, 100 + silicon, "silicon", "UTC", none, none, true⟩

def reparentTo (silicon manager : Nat) : Request :=
  .updateSilicon ⟨1, silicon, 1, ⟨none, none, none, some (some manager)⟩, false, true⟩

/-- Silicons 1 and 2 are put under each other at one time: transaction 3 finds
transaction 2 holding the lock, then the trigger refuses its link. -/
def crossing : List (Event Request) :=
  .start (createRoot 1) :: executes 0 6 ++ .commit 0 ::
  .start (createRoot 2) :: executes 1 6 ++ .commit 1 ::
  .start (reparentTo 1 102) :: .start (reparentTo 2 101) :: executes 2 2 ++ executes 3 2 ++
  executes 2 10 ++ .commit 2 :: executes 3 6

def noRows : Directory := ⟨.empty _, .empty _, .empty _, .empty _, .empty _, []⟩

theorem reporting_forest_crossing :
    ∃ w, Runs.Run engine.Steps (World.idle noRows.withoutSilicons) crossing w ∧
      w.opened.rows.length = 0 ∧
      w.committed.silicons.rows.map (fun s => (s.id, s.reportsTo)) = [(1, some 102), (2, none)] ∧
      LiveForest w.committed 1 ∧ QueriesFinish w.committed 1 ∧
      ListsEachOnce w.committed 1 (fun _ => true) 1 := by
  obtain ⟨w, played⟩ : ∃ w, engine.play (World.idle noRows.withoutSilicons) crossing = some w :=
    Option.isSome_iff_exists.mp (by decide +kernel)
  have ended : (engine.play (World.idle noRows.withoutSilicons) crossing).all (fun w =>
      w.opened.rows.length == 0 &&
        w.committed.silicons.rows.map (fun s => (s.id, s.reportsTo)) ==
          [(1, some 102), (2, none)]) = true := by
    decide +kernel
  rw [played, Option.all_some, Bool.and_eq_true, beq_iff_eq, beq_iff_eq] at ended
  have run := play_run played
  obtain ⟨forest, finish, lists⟩ := reporting_forest noRows crossing w run 1
  exact ⟨w, run, ended.1, ended.2, forest, finish, lists (fun _ => true) 1 (by decide)⟩

end SiliconIam.Organizations.Hierarchy
