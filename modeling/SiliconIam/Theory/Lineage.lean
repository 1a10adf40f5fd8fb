/-
# Theory.Lineage -- chains of rotated rows

A row that is rotated is spent and replaced by a child that names it.  A `Lineage`
is such a chain, newest row first: every row but the first is spent and is the
parent of the row before it, and the last has no parent.  So at most one row of a
lineage is unspent (`Lineage.unique`), and spending it for a child gives a lineage
again (`Lineage.renew`).
-/
import Mathlib.Data.List.Basic

namespace SiliconIam.Theory

set_option autoImplicit false

universe u v

variable {α : Type u} {κ : Type v}

def Lineage (key : α → κ) (parent : α → Option κ) (spent : α → Prop) : List α → Prop
  | [] => True
  | [a] => parent a = none
  | a :: b :: rest => parent a = some (key b) ∧ spent b ∧ Lineage key parent spent (b :: rest)

namespace Lineage

variable {key : α → κ} {parent : α → Option κ} {spent : α → Prop} {a b c : α} {rest chain : List α}

theorem older_spent (lineage : Lineage key parent spent (a :: rest)) : ∀ b ∈ rest, spent b := by
  induction rest generalizing a with
  | nil => exact fun _ mem => absurd mem List.not_mem_nil
  | cons next older ih =>
      obtain ⟨-, first, later⟩ := lineage
      intro b mem
      rcases List.mem_cons.mp mem with rfl | mem
      · exact first
      · exact ih later b mem

/-- An unspent row is the newest. -/
theorem eq_head (lineage : Lineage key parent spent (b :: rest)) (mem : a ∈ b :: rest)
    (unspent : ¬ spent a) : a = b := by
  rcases List.mem_cons.mp mem with same | older
  · exact same
  · exact absurd (lineage.older_spent a older) unspent

theorem unique (lineage : Lineage key parent spent chain) (ma : a ∈ chain) (mb : b ∈ chain)
    (ha : ¬ spent a) (hb : ¬ spent b) : a = b := by
  cases chain with
  | nil => exact absurd ma List.not_mem_nil
  | cons newest rest => exact (lineage.eq_head ma ha).trans (lineage.eq_head mb hb).symm

/-- Spending the newest row `b` for its child `a` leaves it as `c`. -/
theorem renew (lineage : Lineage key parent spent (b :: rest)) (named : parent a = some (key c))
    (spends : spent c) (kept : parent c = parent b) : Lineage key parent spent (a :: c :: rest) := by
  refine ⟨named, spends, ?_⟩
  cases rest with
  | nil => exact kept.trans lineage
  | cons older oldest =>
      obtain ⟨first, used, later⟩ := lineage
      exact ⟨kept.trans first, used, later⟩

end Lineage

end SiliconIam.Theory
