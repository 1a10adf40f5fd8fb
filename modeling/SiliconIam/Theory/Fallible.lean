/-
# Theory.Fallible -- checks in sequence

Programs that make their checks one after the other and answer the first that fails.
`require` and `orElse` are the two kinds of check; a successful run is taken apart
with `bind_ok`, one check at a time.
-/
import Mathlib.Logic.Basic

namespace SiliconIam.Theory.Fallible

set_option autoImplicit false

universe u v

variable {ε : Type u} {α β : Type v}

/-- The check itself. -/
def require (holds : Prop) [Decidable holds] (error : ε) : Except ε PUnit.{v + 1} :=
  if holds then .ok ⟨⟩ else .error error

/-- A lookup that has to find something. -/
def orElse (found : Option α) (error : ε) : Except ε α :=
  match found with
  | some a => .ok a
  | none => .error error

theorem bind_ok {x : Except ε α} {f : α → Except ε β} {b : β} :
    (x >>= f) = .ok b ↔ ∃ a, x = .ok a ∧ f a = .ok b := by
  cases x with
  | error e => simp [bind, Except.bind]
  | ok a => simp [bind, Except.bind]

theorem return_ok {a b : α} : (pure a : Except ε α) = .ok b ↔ a = b := by
  simp [pure, Except.pure]

theorem require_ok {holds : Prop} [Decidable holds] {error : ε} {u : PUnit} :
    require holds error = .ok u ↔ holds := by
  unfold require
  split <;> simp_all

/-- A successful run does not take a branch that fails. -/
theorem unless_ok {c : Prop} [Decidable c] {error : ε} {x : Except ε α} {a : α} :
    (if c then .error error else x) = .ok a ↔ ¬c ∧ x = .ok a := by
  split <;> simp_all

theorem orElse_ok {found : Option α} {error : ε} {a : α} :
    orElse found error = .ok a ↔ found = some a := by
  cases found <;> simp [orElse]

/-- A state that a refused operation leaves alone. -/
def committed (state : α) : Except ε (β × α) → α
  | .ok (_, next) => next
  | .error _ => state

/-- What holds before, and after every success, holds after. -/
theorem committed_of {P : α → Prop} {state : α} {result : Except ε (β × α)} (before : P state)
    (success : ∀ answer next, result = .ok (answer, next) → P next) :
    P (committed state result) := by
  cases result with
  | error e => exact before
  | ok pair => exact success pair.1 pair.2 rfl

end SiliconIam.Theory.Fallible
