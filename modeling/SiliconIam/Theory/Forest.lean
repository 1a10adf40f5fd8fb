/-
# Theory.Forest -- parent links without cycles and the recursive queries over them

`link a b` says that `b` is a parent of `a`.  `Acyclic link` says that no walk
along the links returns to where it began.  A new link keeps a relation acyclic
when the walk upwards from the new parent does not reach the child (`Acyclic.add`);
leaving links out does not create a cycle (`Acyclic.mono`).

Where the linked nodes are among finitely many and every node has one parent at
most, every node has exactly one `Level`, the number of nodes on the way to its
root, itself included.

`unionAll` and `union` are the two kinds of recursive query: the rows of the
working table are emitted, and the step turns them into the next working table,
until it is empty.  `union` leaves out rows that were emitted before.  Both stop
with `none` when the fuel runs out before the working table is empty, so a query
that returns has finished; `unionAll_some` says when the first does, `union_next` and
`union_last` follow the second along a way of single rows.
-/
import Mathlib.Data.List.Nodup
import Mathlib.Data.List.Dedup
import Mathlib.Data.List.Basic
import Mathlib.Logic.Relation
import Mathlib.Order.WellFounded
import Mathlib.Data.Fintype.EquivFin
import Mathlib.Data.Fintype.Sets

namespace SiliconIam.Theory.Forest

set_option autoImplicit false

open Relation

variable {α : Type}

/-! ## Links -/

def Acyclic (link : α → α → Prop) : Prop := ∀ a, ¬ TransGen link a a

variable {link other : α → α → Prop} {a b c : α}

theorem Acyclic.mono (acyclic : Acyclic link) (sub : ∀ x y, other x y → link x y) :
    Acyclic other :=
  fun a cycle => acyclic a (cycle.lift id sub)

/-- No links, no cycles. -/
theorem Acyclic.of_none (none : ∀ x y, ¬ link x y) : Acyclic link := by
  intro a cycle
  obtain ⟨b, first, -⟩ := TransGen.head'_iff.mp cycle
  exact none a b first

/-- A walk over old links and one new link `a → b` either avoids the new link or
has an old walk from `b` at its end. -/
theorem walk_add (grown : ∀ x y, other x y → link x y ∨ (x = a ∧ y = b)) {x y : α}
    (walk : ReflTransGen other x y) :
    ReflTransGen link x y ∨ (ReflTransGen link x a ∧ ReflTransGen link b y) := by
  induction walk with
  | refl => exact .inl .refl
  | @tail y z _ last ih =>
      rcases grown y z last with kept | ⟨rfl, rfl⟩
      · rcases ih with before | ⟨up, down⟩
        · exact .inl (before.tail kept)
        · exact .inr ⟨up, down.tail kept⟩
      · rcases ih with before | ⟨up, -⟩
        · exact .inr ⟨before, .refl⟩
        · exact .inr ⟨up, .refl⟩

/-- Linking `a` to a parent from which no walk leads to `a`. -/
theorem Acyclic.add (acyclic : Acyclic link)
    (grown : ∀ x y, other x y → link x y ∨ (x = a ∧ y = b))
    (apart : ¬ ReflTransGen link b a) : Acyclic other := by
  intro x cycle
  obtain ⟨y, first, rest⟩ := TransGen.head'_iff.mp cycle
  rcases grown x y first with kept | ⟨rfl, rfl⟩
  · rcases walk_add grown rest with before | ⟨up, down⟩
    · exact acyclic x (.head' kept before)
    · -- The walk leaves `x` by an old link, so the old walks close up at `a`.
      exact apart (down.trans (.head kept up))
  · rcases walk_add grown rest with before | ⟨-, down⟩
    · exact apart before
    · exact apart down

/-- Upwards, acyclic links among finitely many nodes end. -/
theorem Acyclic.wellFounded (acyclic : Acyclic link) {nodes : List α}
    (finite : ∀ x y, link x y → x ∈ nodes) : WellFounded fun y x => link x y := by
  classical
  have among : WellFounded fun y x : {x // x ∈ nodes} => TransGen link x.val y.val := by
    have : Std.Irrefl fun y x : {x // x ∈ nodes} => TransGen link x.val y.val :=
      ⟨fun x => acyclic x.val⟩
    exact Finite.wellFounded_of_trans_of_irrefl _
  have outside : ∀ x, x ∉ nodes → Acc (fun y x => link x y) x :=
    fun x absent => ⟨x, fun y linked => absurd (finite x y linked) absent⟩
  have inside : ∀ x : {x // x ∈ nodes}, Acc (fun y x => link x y) x.val := by
    intro x
    induction x using among.induction with
    | _ x ih =>
        refine ⟨x.val, fun y linked => ?_⟩
        by_cases present : y ∈ nodes
        · exact ih ⟨y, present⟩ (.single linked)
        · exact outside y present
  refine ⟨fun x => ?_⟩
  by_cases present : x ∈ nodes
  · exact inside ⟨x, present⟩
  · exact outside x present

/-! ## Levels -/

/-- `n` nodes lie on the way from `a` to its root. -/
inductive Level (link : α → α → Prop) : α → Nat → Prop
  | root {a : α} (top : ∀ b, ¬ link a b) : Level link a 1
  | child {a b : α} {n : Nat} (linked : link a b) (parent : Level link b n) : Level link a (n + 1)

theorem Level.pos {n : Nat} (level : Level link a n) : 0 < n := by
  cases level <;> omega

theorem Level.unique (functional : ∀ x y z, link x y → link x z → y = z) {n m : Nat}
    (first : Level link a n) (second : Level link a m) : n = m := by
  induction first generalizing m with
  | root top =>
      cases second with
      | root => rfl
      | child linked => exact absurd linked (top _)
  | child linked parent ih =>
      cases second with
      | root top => exact absurd linked (top _)
      | child other level =>
          obtain rfl := functional _ _ _ linked other
          rw [ih level]

theorem Level.exists (acyclic : Acyclic link) {nodes : List α}
    (finite : ∀ x y, link x y → x ∈ nodes) (a : α) : ∃ n, Level link a n := by
  induction a using (acyclic.wellFounded finite).induction with
  | _ a ih =>
      by_cases top : ∃ b, link a b
      · obtain ⟨b, linked⟩ := top
        obtain ⟨n, level⟩ := ih b linked
        exact ⟨n + 1, .child linked level⟩
      · exact ⟨1, .root fun b linked => top ⟨b, linked⟩⟩

/-- A level depends on the links along the way up. -/
theorem Level.along {n : Nat} (level : Level link a n)
    (same : ∀ x, ReflTransGen link a x → ∀ y, link x y ↔ other x y) : Level other a n := by
  induction level with
  | root top => exact .root fun b linked => top b ((same _ .refl b).mpr linked)
  | child linked _ ih =>
      refine .child ((same _ .refl _).mp linked) (ih fun x walk y => ?_)
      exact same x (.head linked walk) y

/-- The nodes on the way up are distinct, so a level is bounded by their number. -/
theorem Level.chain (acyclic : Acyclic link) {n : Nat} (level : Level link a n) :
    ∃ way : List α, way.length = n ∧ way.Nodup ∧ ∀ x ∈ way, ReflTransGen link a x := by
  induction level with
  | @root a =>
      refine ⟨[a], rfl, List.nodup_singleton _, fun x mem => ?_⟩
      rw [List.mem_singleton.mp mem]
  | @child a b n linked parent ih =>
      obtain ⟨way, rfl, nodup, reached⟩ := ih
      refine ⟨a :: way, rfl, List.nodup_cons.mpr ⟨fun mem => ?_, nodup⟩, ?_⟩
      · exact acyclic a (.head' linked (reached a mem))
      · intro x mem
        rcases List.mem_cons.mp mem with rfl | mem
        · exact .refl
        · exact .head linked (reached x mem)

theorem Level.le_length (acyclic : Acyclic link) {nodes : List α} {n : Nat}
    (level : Level link a n) (closed : ∀ x, ReflTransGen link a x → x ∈ nodes) :
    n ≤ nodes.length := by
  obtain ⟨way, rfl, nodup, reached⟩ := level.chain acyclic
  exact (nodup.subperm fun x mem => closed x (reached x mem)).length_le

/-! ## Recursive queries -/

variable {β : Type}

/-- `WITH RECURSIVE … UNION ALL …` from a working table. -/
def unionAll (step : β → List β) : Nat → List β → Option (List β)
  | _, [] => some []
  | 0, _ :: _ => none
  | fuel + 1, row :: work =>
      (unionAll step fuel ((row :: work).flatMap step)).map fun rows => row :: work ++ rows

/-- `WITH RECURSIVE … UNION …`, `seen` being the rows emitted before. -/
def union [DecidableEq β] (step : β → List β) : Nat → List β → List β → Option (List β)
  | _, seen, [] => some seen
  | 0, _, _ :: _ => none
  | fuel + 1, seen, row :: work =>
      union step fuel (seen ++ row :: work)
        (((row :: work).flatMap step).dedup.filter (· ∉ seen ++ row :: work))

variable {step : β → List β} {fuel : Nat} {work rows : List β} {x y : β}

theorem unionAll_succ (fuel : Nat) (work : List β) :
    unionAll step (fuel + 1) work =
      (unionAll step fuel (work.flatMap step)).map fun rows => work ++ rows := by
  cases work with
  | nil => cases fuel <;> rfl
  | cons row work => rfl

/-- A query whose step leads to smaller ranks finishes. -/
theorem unionAll_some (rank : β → Nat → Prop)
    (smaller : ∀ x n, rank x n → ∀ y ∈ step x, ∃ m < n, rank y m)
    (within : ∀ x ∈ work, ∃ n < fuel, rank x n) : ∃ rows, unionAll step fuel work = some rows := by
  induction fuel generalizing work with
  | zero =>
      cases work with
      | nil => exact ⟨[], rfl⟩
      | cons row work =>
          obtain ⟨n, bound, -⟩ := within row List.mem_cons_self
          exact absurd bound (Nat.not_lt_zero n)
  | succ fuel ih =>
      have closer : ∀ y ∈ work.flatMap step, ∃ n < fuel, rank y n := by
        intro y mem
        obtain ⟨x, listed, made⟩ := List.mem_flatMap.mp mem
        obtain ⟨n, bound, ranked⟩ := within x listed
        obtain ⟨m, less, next⟩ := smaller x n ranked y made
        exact ⟨m, by omega, next⟩
      obtain ⟨rows, ran⟩ := ih closer
      exact ⟨work ++ rows, by rw [unionAll_succ, ran]; rfl⟩

theorem unionAll_eq_some (ran : unionAll step fuel work = some rows) :
    (work = [] ∧ rows = []) ∨ ∃ before rest, fuel = before + 1 ∧ rows = work ++ rest ∧
      unionAll step before (work.flatMap step) = some rest := by
  cases work with
  | nil =>
      left
      rw [unionAll] at ran
      exact ⟨rfl, (Option.some.inj ran).symm⟩
  | cons row work =>
      cases fuel with
      | zero => exact absurd ran (by simp [unionAll])
      | succ fuel =>
          obtain ⟨rest, ran, same⟩ := Option.map_eq_some_iff.mp (unionAll_succ fuel _ ▸ ran)
          exact .inr ⟨fuel, rest, rfl, same.symm, ran⟩

/-- The rows are what the step reaches from the working table. -/
theorem mem_unionAll (ran : unionAll step fuel work = some rows) :
    y ∈ rows ↔ ∃ x ∈ work, ReflTransGen (fun a b => b ∈ step a) x y := by
  induction fuel generalizing work rows with
  | zero =>
      obtain ⟨rfl, rfl⟩ | ⟨_, _, impossible, _⟩ := unionAll_eq_some ran
      · simp
      · omega
  | succ fuel ih =>
      obtain ⟨rfl, rfl⟩ | ⟨_, rest, same, rfl, ran⟩ := unionAll_eq_some ran
      · simp
      obtain rfl := Nat.succ.inj same
      rw [List.mem_append, ih ran]
      constructor
      · rintro (here | ⟨x, made, walk⟩)
        · exact ⟨y, here, .refl⟩
        · obtain ⟨start, listed, first⟩ := List.mem_flatMap.mp made
          exact ⟨start, listed, .head first walk⟩
      · rintro ⟨x, listed, walk⟩
        rcases ReflTransGen.cases_head walk with rfl | ⟨z, first, walk⟩
        · exact .inl listed
        · exact .inr ⟨z, List.mem_flatMap.mpr ⟨x, listed, first⟩, walk⟩

/-- No row is emitted twice where every step goes one `depth` down and a row is made
from one row only. -/
theorem nodup_unionAll (depth : β → Nat) {P : β → Prop}
    (keeps : ∀ x, P x → ∀ y ∈ step x, P y) (down : ∀ x, ∀ y ∈ step x, depth y = depth x + 1)
    (once : ∀ x, (step x).Nodup) (apart : ∀ x y, P x → P y → ∀ z ∈ step x, z ∈ step y → x = y)
    (ran : unionAll step fuel work = some rows) {n : Nat} (level : ∀ x ∈ work, P x ∧ depth x = n)
    (distinct : work.Nodup) : rows.Nodup ∧ ∀ x ∈ rows, n ≤ depth x := by
  induction fuel generalizing work rows n with
  | zero =>
      obtain ⟨rfl, rfl⟩ | ⟨_, _, impossible, _⟩ := unionAll_eq_some ran
      · exact ⟨List.nodup_nil, by simp⟩
      · omega
  | succ fuel ih =>
      obtain ⟨rfl, rfl⟩ | ⟨_, rest, same, rfl, ran⟩ := unionAll_eq_some ran
      · exact ⟨List.nodup_nil, by simp⟩
      obtain rfl := Nat.succ.inj same
      have next : ∀ y ∈ work.flatMap step, P y ∧ depth y = n + 1 := by
        intro y mem
        obtain ⟨x, listed, made⟩ := List.mem_flatMap.mp mem
        exact ⟨keeps x (level x listed).1 y made, by rw [down x y made, (level x listed).2]⟩
      have separate : (work.flatMap step).Nodup := by
        refine List.nodup_flatMap.mpr ⟨fun x _ => once x, ?_⟩
        refine distinct.imp_of_mem fun {x y} xMem yMem differ z fromX fromY => ?_
        exact differ (apart x y (level x xMem).1 (level y yMem).1 z fromX fromY)
      obtain ⟨nodup, deeper⟩ := ih ran next separate
      refine ⟨List.nodup_append.mpr ⟨distinct, nodup, fun x here y there => ?_⟩, fun x mem => ?_⟩
      · rintro rfl
        have := deeper x there
        have := (level x here).2
        omega
      · rcases List.mem_append.mp mem with here | there
        · exact (level x here).2.ge
        · have := deeper x there
          omega

section Union

variable [DecidableEq β] {seen : List β}

theorem union_succ (fuel : Nat) (seen work : List β) :
    union step (fuel + 1) seen work =
      union step fuel (seen ++ work) ((work.flatMap step).dedup.filter (· ∉ seen ++ work)) := by
  cases work with
  | nil => cases fuel <;> simp [union]
  | cons row work => rfl

/-- One row after another. -/
theorem union_next (row next : β) (only : step row = [next]) (fresh : next ∉ seen ++ [row]) :
    union step (fuel + 1) seen [row] = union step fuel (seen ++ [row]) [next] := by
  have kept : ∀ x ∈ [next], decide (x ∉ seen ++ [row]) = true := by
    intro x here
    rw [List.mem_singleton.mp here]
    exact decide_eq_true fresh
  rw [union_succ, List.flatMap_singleton, only, (List.nodup_singleton next).dedup,
    List.filter_eq_self.mpr kept]

theorem union_last {row : β} (none : step row = []) :
    union step (fuel + 1) seen [row] = some (seen ++ [row]) := by
  rw [union_succ, List.flatMap_singleton, none, List.dedup_nil, List.filter_nil, union]

/-- The rows are closed under the step and contain what was there at the start. -/
theorem union_closed (ran : union step fuel seen work = some rows)
    (closed : ∀ x ∈ seen, ∀ y ∈ step x, y ∈ seen ++ work) :
    (∀ x ∈ seen ++ work, x ∈ rows) ∧ ∀ x ∈ rows, ∀ y ∈ step x, y ∈ rows := by
  induction fuel generalizing seen work with
  | zero =>
      cases work with
      | nil =>
          obtain rfl := Option.some.inj ran
          rw [List.append_nil] at closed ⊢
          exact ⟨fun _ mem => mem, closed⟩
      | cons row work => exact absurd ran (by simp [union])
  | succ fuel ih =>
      rw [union_succ] at ran
      have grown : ∀ y, y ∈ (seen ++ work) ++
          ((work.flatMap step).dedup.filter (· ∉ seen ++ work)) ↔
          y ∈ seen ++ work ∨ y ∈ work.flatMap step := by
        intro y
        simp only [List.mem_append, List.mem_filter, List.mem_dedup, decide_eq_true_eq]
        tauto
      obtain ⟨kept, closedAfter⟩ := ih ran fun x mem y made => by
        rw [grown]
        rcases List.mem_append.mp mem with before | here
        · exact .inl (closed x before y made)
        · exact .inr (List.mem_flatMap.mpr ⟨x, here, made⟩)
      exact ⟨fun x mem => kept x ((grown x).mpr (.inl mem)), closedAfter⟩

end Union

end SiliconIam.Theory.Forest
