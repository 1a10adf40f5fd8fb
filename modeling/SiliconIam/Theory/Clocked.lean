/-
# Theory.Clocked -- programs whose events carry the time

Events come at times that never go back, and some of them leave entries in a
history.  `invariant` is the rule for facts that tie the state to the history
and the clock: waiting keeps them, and each event keeps them at its own time.
-/
import SiliconIam.Theory.Runs

namespace SiliconIam.Theory.Clocked

open SiliconIam.Theory.Runs

set_option autoImplicit false

universe u v w

variable {σ : Type u} {ι : Type v} {ω : Type w}

/-- No event is earlier than the clock or than an event before it. -/
def Ordered (time : ι → Nat) : Nat → List ι → Prop
  | _, [] => True
  | clock, a :: rest => clock ≤ time a ∧ Ordered time (time a) rest

instance decidableOrdered (time : ι → Nat) : ∀ clock as, Decidable (Ordered time clock as)
  | _, [] => .isTrue trivial
  | clock, a :: rest =>
      have := decidableOrdered time (time a) rest
      inferInstanceAs (Decidable (clock ≤ time a ∧ Ordered time (time a) rest))

variable {next : σ → ι → σ} {gives : σ → ι → List ω} {time : ι → Nat}
variable {I : σ → List ω → Nat → Prop}

theorem invariant (waits : ∀ s h clock later, clock ≤ later → I s h clock → I s h later)
    (keeps : ∀ s h a, I s h (time a) → I (next s a) (h ++ gives s a) (time a)) (as : List ι) :
    ∀ s h clock, I s h clock → Ordered time clock as →
      ∃ last, I (after next s as) (h ++ given next gives s as) last := by
  induction as with
  | nil =>
      intro s h clock holds _
      refine ⟨clock, ?_⟩
      simpa [given, after] using holds
  | cons a rest ih =>
      intro s h clock holds ordered
      have met := waits s h clock (time a) ordered.1 holds
      obtain ⟨last, reached⟩ := ih _ _ _ (keeps s h a met) ordered.2
      refine ⟨last, ?_⟩
      simpa [given, after] using reached

end SiliconIam.Theory.Clocked
