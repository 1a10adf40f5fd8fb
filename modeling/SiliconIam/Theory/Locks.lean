/-
# Theory.Locks -- exclusive locks

A table of named locks and their holders.  A lock is taken only while nobody holds
it (`take`), its holder gives one back (`release`) or, ending in whatever way, all of
its own (`releaseAll`).  None of the three takes a lock from anybody else
(`held_of_take`, `held_release`, `held_releaseAll`), and two holders of one lock are the
same (`held_unique`).
-/
import Mathlib.Logic.Function.Basic

namespace SiliconIam.Theory.Locks

set_option autoImplicit false

universe u v

variable {κ : Type u} {π : Type v}

/-- Who holds each lock. -/
abbrev Holders (κ : Type u) (π : Type v) := κ → Option π

theorem held_unique {locks : Holders κ π} {name : κ} {holder other : π}
    (held : locks name = some holder) (held' : locks name = some other) : holder = other :=
  Option.some.inj (held.symm.trans held')

variable [DecidableEq κ]

def take (locks : Holders κ π) (name : κ) (holder : π) : Option (Holders κ π) :=
  match locks name with
  | none => some (Function.update locks name (some holder))
  | some _ => none

def release (locks : Holders κ π) (name : κ) : Holders κ π :=
  Function.update locks name none

variable {locks taken : Holders κ π} {name other : κ} {holder : π}

theorem take_eq_some : take locks name holder = some taken ↔
    locks name = none ∧ taken = Function.update locks name (some holder) := by
  unfold take
  cases free : locks name with
  | none => simp [eq_comm]
  | some _ => simp

/-- The taker holds the lock. -/
theorem held_self (took : take locks name holder = some taken) : taken name = some holder := by
  obtain ⟨-, rfl⟩ := take_eq_some.mp took
  exact Function.update_self ..

/-- Taking a lock takes it from nobody. -/
theorem held_of_take {p : π} (took : take locks name holder = some taken)
    (held : locks other = some p) : taken other = some p := by
  obtain ⟨free, rfl⟩ := take_eq_some.mp took
  by_cases same : other = name
  · rw [same, free] at held
    cases held
  · rw [Function.update_of_ne same]
    exact held

theorem held_release {p : π} (apart : other ≠ name) (held : locks other = some p) :
    release locks name other = some p := by
  rw [release, Function.update_of_ne apart]
  exact held

/-- A lock held by somebody else is not the one given back. -/
theorem held_release_of_ne {p : π} (own : locks name = some holder) (apart : p ≠ holder)
    (held : locks other = some p) : release locks name other = some p := by
  refine held_release ?_ held
  rintro rfl
  exact apart (held_unique held own)

variable [DecidableEq π]

def releaseAll (locks : Holders κ π) (holder : π) : Holders κ π :=
  fun name => if locks name = some holder then none else locks name

omit [DecidableEq κ] in
theorem held_releaseAll {p : π} (apart : p ≠ holder) (held : locks other = some p) :
    releaseAll locks holder other = some p := by
  have others : locks other ≠ some holder := by
    rw [held]
    exact fun same => apart (Option.some.inj same)
  rw [releaseAll, if_neg others]
  exact held

end SiliconIam.Theory.Locks
