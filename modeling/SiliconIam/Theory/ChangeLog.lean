/-
# Theory.ChangeLog -- a value that keeps its own history

A `Ledger` is a value under a version, with the rows that its changes left.  A row holds
the value before the change, the value after it and the version that the change produced.
Rows are owed while the ledger is live: what ends a live period, begins one or happens
outside of one may set the value without a row, and anything may raise the version.

`Ledger.Step` is one such move.  `Step.recorded` says what a move writes, `Step.bounded`
that no row is ahead of the version, and `linked_of_live` what a run writes while the
ledger stays live: rows that lead from the value at its start to the value at its end
(`Linked`), each from the value that the row before it left.
-/
import SiliconIam.Theory.Runs

namespace SiliconIam.Theory.ChangeLog

set_option autoImplicit false

open SiliconIam.Theory.Runs

universe u v w

variable {α : Type u}

structure Change (α : Type u) where
  previous : α
  applied : α
  version : Nat
deriving DecidableEq

/-- The rows lead from one value to another. -/
def Linked : α → List (Change α) → α → Prop
  | a, [], b => a = b
  | a, row :: rest, b => row.previous = a ∧ Linked row.applied rest b

theorem Linked.append {a b c : α} {rows more : List (Change α)} (first : Linked a rows b)
    (second : Linked b more c) : Linked a (rows ++ more) c := by
  induction rows generalizing a with
  | nil =>
      obtain rfl : a = b := first
      exact second
  | cons row rest ih => exact ⟨first.1, ih first.2⟩

/-- Each row starts from the value that the row before it left. -/
theorem Linked.chain {a b : α} {rows : List (Change α)} (linked : Linked a rows b) :
    rows.IsChain fun row next => next.previous = row.applied := by
  induction rows generalizing a with
  | nil => exact .nil
  | cons row rest ih =>
      have later := ih linked.2
      cases rest with
      | nil => exact .singleton row
      | cons next rest => exact .cons_cons linked.2.1 later

structure Ledger (α : Type u) where
  live : Bool
  value : α
  version : Nat
  rows : List (Change α)

namespace Ledger

inductive Step : Ledger α → Ledger α → Prop
  /-- The value is not touched. -/
  | stay (s : Ledger α) (version : Nat) (newer : s.version ≤ version) :
      Step s { s with version := version }
  | change (s : Ledger α) (applied : α) (version : Nat) (live : s.live = true)
      (newer : s.version < version) :
      Step s
        { s with
          value := applied, version := version
          rows := s.rows ++ [⟨s.value, applied, version⟩] }
  /-- A live period begins or ends, or there is none. -/
  | cross (s : Ledger α) (live : Bool) (value : α) (version : Nat)
      (outside : s.live = false ∨ live = false) (newer : s.version ≤ version) :
      Step s ⟨live, value, version, s.rows⟩

/-- No row is ahead of the version. -/
def Bounded (s : Ledger α) : Prop := ∀ row ∈ s.rows, row.version ≤ s.version

/-- What a move writes: at most one row, of exactly this move and newer than all of
`earlier`; and one when the value changes in a live period. -/
def Recorded (earlier : List Nat) (s t : Ledger α) : Prop :=
  ∃ rows, t.rows = s.rows ++ rows ∧ rows.length ≤ 1 ∧
    (∀ row ∈ rows, row = ⟨s.value, t.value, t.version⟩ ∧ s.live = true ∧ t.live = true ∧
      ∀ version ∈ earlier, version < row.version) ∧
    (s.live = true → t.live = true → t.value ≠ s.value → rows.length = 1)

variable {s t : Ledger α}

theorem Step.version_le (taken : Step s t) : s.version ≤ t.version := by
  cases taken with
  | stay version newer => exact newer
  | change applied version live newer => exact Nat.le_of_lt newer
  | cross live value version outside newer => exact newer

theorem Step.bounded (taken : Step s t) (bounded : s.Bounded) : t.Bounded := by
  have newer := taken.version_le
  cases taken with
  | stay version _ => exact fun row mem => Nat.le_trans (bounded row mem) newer
  | change applied version live _ =>
      intro row mem
      rcases List.mem_append.mp mem with old | new
      · exact Nat.le_trans (bounded row old) newer
      · obtain rfl := List.mem_singleton.mp new
        exact Nat.le_refl version
  | cross live value version outside _ => exact fun row mem => Nat.le_trans (bounded row mem) newer

theorem Step.recorded {earlier : List Nat} (taken : Step s t)
    (below : ∀ version ∈ earlier, version ≤ s.version) : Recorded earlier s t := by
  cases taken with
  | stay version newer =>
      refine ⟨[], (List.append_nil _).symm, Nat.zero_le 1, ?_, ?_⟩
      · exact fun row mem => absurd mem List.not_mem_nil
      · exact fun _ _ changed => absurd rfl changed
  | change applied version live newer =>
      refine ⟨[⟨s.value, applied, version⟩], rfl, Nat.le_refl 1, ?_, fun _ _ _ => rfl⟩
      intro row mem
      obtain rfl := List.mem_singleton.mp mem
      refine ⟨rfl, live, live, fun known mem => ?_⟩
      exact Nat.lt_of_le_of_lt (below known mem) newer
  | cross live value version outside newer =>
      refine ⟨[], (List.append_nil _).symm, Nat.zero_le 1, ?_, ?_⟩
      · exact fun row mem => absurd mem List.not_mem_nil
      · intro before after _
        rcases outside with ended | ended
        · exact absurd (before.symm.trans ended) (by decide)
        · exact absurd (after.symm.trans ended) (by decide)

/-- A move within a live period leads from the value before it to the value after it. -/
theorem Step.linked (taken : Step s t) (before : s.live = true) (after : t.live = true) :
    ∃ rows, t.rows = s.rows ++ rows ∧ Linked s.value rows t.value := by
  cases taken with
  | stay version newer => exact ⟨[], (List.append_nil _).symm, rfl⟩
  | change applied version live newer => exact ⟨_, rfl, rfl, rfl⟩
  | cross live value version outside newer =>
      rcases outside with ended | ended
      · exact absurd (before.symm.trans ended) (by decide)
      · exact absurd (after.symm.trans ended) (by decide)

end Ledger

section Runs

variable {σ : Type v} {ι : Type w} {next : σ → ι → σ} {ledger : σ → Ledger α}

/-- What a run writes within one live period. -/
theorem linked_of_live (steps : ∀ s a, Ledger.Step (ledger s) (ledger (next s a)))
    (as : List ι) :
    ∀ s, AllSteps next
        (fun s a => (ledger s).live = true ∧ (ledger (next s a)).live = true) s as →
      ∃ rows, (ledger (after next s as)).rows = (ledger s).rows ++ rows ∧
        Linked (ledger s).value rows (ledger (after next s as)).value := by
  induction as with
  | nil => exact fun s _ => ⟨[], (List.append_nil _).symm, rfl⟩
  | cons a rest ih =>
      intro s live
      obtain ⟨first, appended, linked⟩ := (steps s a).linked live.1.1 live.1.2
      obtain ⟨later, extended, onwards⟩ := ih (next s a) live.2
      refine ⟨first ++ later, ?_, linked.append onwards⟩
      exact extended.trans (by rw [appended, List.append_assoc])

end Runs

end SiliconIam.Theory.ChangeLog
