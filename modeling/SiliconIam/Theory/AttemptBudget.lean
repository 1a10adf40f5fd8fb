/-
# Theory.AttemptBudget -- how many wrong guesses a lockout policy admits

A secret that may be guessed is protected by a counter: after `max` wrong
guesses a cooldown must pass before the next one is looked at.  This module says
what that promises from outside, and gives the counter that keeps it.

Outside there are only observations: a window for guesses is opened, a guess is
judged wrong (and possibly starts a cooldown), a guess succeeds.  `Ledger` adds
them up: wrong guesses since the last success, the last cooldown that has
passed, or the end of the lineage of windows; and `keepsBudget` is the promise
that no guess is judged during a cooldown and none beyond the budget.

Inside, a `Window` holds the counter of the current window, and `Step` lists
what may happen to it: a window is opened with the counter of its predecessor,
or with a fresh one when there is none or it has expired; a guess is judged; a
window that has expired, or whose counter is back at its start, is dropped.  `run_keepsBudget` is the
result: every run of those steps keeps the budget.
-/
import SiliconIam.Theory.Runs
import Mathlib.Data.List.Basic

namespace SiliconIam.Theory.AttemptBudget

open SiliconIam.Theory.Runs

set_option autoImplicit false

structure Policy where
  max : Nat
  cooldown : Nat
  positive : 0 < max

/-! ## Outside: observations and the ledger -/

inductive Observation where
  | opened (now until_ : Nat)
  | wrong (now : Nat) (locked : Bool)
  | success (now : Nat)
  | silent
deriving DecidableEq

/-- Wrong guesses not yet paid for, the running cooldown's start, and the time at
which the lineage of windows ends. -/
structure Ledger where
  spent : Nat
  lockedAt : Option Nat
  lineageUntil : Nat
deriving DecidableEq

def Ledger.fresh : Ledger where
  spent := 0
  lockedAt := none
  lineageUntil := 0

namespace Ledger

variable (P : Policy)

/-- No cooldown, or one that has run its full length. -/
def elapsed (L : Ledger) (now : Nat) : Bool :=
  match L.lockedAt with
  | some start => start + P.cooldown ≤ now
  | none => true

/-- What still counts when a guess is judged: nothing after a full cooldown. -/
def base (L : Ledger) : Nat :=
  match L.lockedAt with
  | some _ => 0
  | none => L.spent

def allows (L : Ledger) : Observation → Bool
  | .wrong now _ => L.elapsed P now && L.base + 1 ≤ P.max
  | .success now => L.elapsed P now
  | .opened _ _ | .silent => true

def after (L : Ledger) : Observation → Ledger
  | .opened now until_ =>
      if L.lineageUntil ≤ now then { spent := 0, lockedAt := none, lineageUntil := until_ }
      else { L with lineageUntil := until_ }
  | .wrong now locked =>
      { L with spent := L.base + 1, lockedAt := if locked then some now else none }
  | .success _ => { L with spent := 0, lockedAt := none }
  | .silent => L

end Ledger

/-- Every judged guess was within the budget at its time. -/
def keepsBudget (P : Policy) : Ledger → List Observation → Bool
  | _, [] => true
  | L, o :: rest => L.allows P o && keepsBudget P (L.after o) rest

/-! ## Inside: the counter -/

structure AttemptState where
  failedAttempts : Nat
  cooldownUntil : Option Nat
deriving DecidableEq

def AttemptState.default : AttemptState where
  failedAttempts := 0
  cooldownUntil := none

namespace AttemptState

/-- A cooldown that is over reads as none. -/
def normalize (now : Nat) (a : AttemptState) : AttemptState :=
  match a.cooldownUntil with
  | some c => if now < c then a else { a with cooldownUntil := none }
  | none => a

/-- No cooldown is running. -/
def usable (now : Nat) (a : AttemptState) : Bool :=
  match a.cooldownUntil with
  | some c => c ≤ now
  | none => true

def exhausts (P : Policy) (a : AttemptState) : Bool := P.max ≤ a.failedAttempts + 1

/-- One more wrong guess: the last one of the budget starts the cooldown. -/
def fail (P : Policy) (now : Nat) (a : AttemptState) : AttemptState :=
  if a.exhausts P then { failedAttempts := 0, cooldownUntil := some (now + P.cooldown) }
  else { failedAttempts := a.failedAttempts + 1, cooldownUntil := none }

theorem normalize_normalize (now : Nat) (a : AttemptState) :
    (a.normalize now).normalize now = a.normalize now := by
  obtain ⟨failed, cooldown⟩ := a
  cases cooldown with
  | none => rfl
  | some c =>
      by_cases running : now < c
      · simp [normalize, running]
      · simp [normalize, running]

end AttemptState

structure Window where
  attempts : AttemptState
  expiresAt : Nat
deriving DecidableEq

structure Scope where
  clock : Nat
  window : Option Window
deriving DecidableEq

/-- What may happen to the window of one scope, and what is seen of it. -/
inductive Step (P : Policy) : Scope → Observation → Scope → Prop
  | openFresh {s : Scope} {now until_ : Nat} (later : s.clock ≤ now)
      (gone : ∀ w, s.window = some w → w.expiresAt ≤ now) :
      Step P s (.opened now until_) ⟨now, some ⟨.default, until_⟩⟩
  | openCarried {s : Scope} {now until_ : Nat} {w : Window} (later : s.clock ≤ now)
      (current : s.window = some w) :
      Step P s (.opened now until_) ⟨now, some ⟨w.attempts.normalize now, until_⟩⟩
  | wrong {s : Scope} {now : Nat} {w : Window} (later : s.clock ≤ now)
      (current : s.window = some w) (usable : w.attempts.usable now = true) :
      Step P s (.wrong now (w.attempts.exhausts P))
        ⟨now, some { w with attempts := w.attempts.fail P now }⟩
  | success {s : Scope} {now : Nat} {w : Window} (later : s.clock ≤ now)
      (current : s.window = some w) (usable : w.attempts.usable now = true) :
      Step P s (.success now) ⟨now, none⟩
  | silent {s : Scope} {now : Nat} (later : s.clock ≤ now) : Step P s .silent ⟨now, s.window⟩
  | drop {s : Scope} {now : Nat} {w : Window} (later : s.clock ≤ now)
      (current : s.window = some w)
      (idle : w.expiresAt ≤ now ∨ w.attempts.normalize now = .default) :
      Step P s .silent ⟨now, none⟩

/-! ## The counter keeps the budget -/

variable {P : Policy}

/-- A counter below its bound, which a cooldown has reset. -/
structure Bounded (P : Policy) (a : AttemptState) : Prop where
  below : a.failedAttempts < P.max
  reset : a.cooldownUntil ≠ none → a.failedAttempts = 0

theorem bounded_default : Bounded P .default :=
  ⟨P.positive, fun h => absurd rfl h⟩

variable {a : AttemptState}

theorem Bounded.normalize (bounded : Bounded P a) (now : Nat) :
    Bounded P (a.normalize now) := by
  unfold AttemptState.normalize
  split
  · split
    · exact bounded
    · exact ⟨bounded.below, fun h => absurd rfl h⟩
  · exact bounded

theorem bounded_fail (a : AttemptState) (now : Nat) : Bounded P (a.fail P now) := by
  unfold AttemptState.fail AttemptState.exhausts
  split
  · exact ⟨P.positive, fun _ => rfl⟩
  · rename_i below
    refine ⟨?_, fun h => absurd rfl h⟩
    simp only [decide_eq_true_eq] at below
    show a.failedAttempts + 1 < P.max
    omega

/-- The ledger's cooldown, if any, will be over whenever the counter admits a
guess; without one the counter has seen every guess the ledger holds. -/
def Covers (P : Policy) (clock : Nat) (a : AttemptState) (L : Ledger) : Prop :=
  match L.lockedAt with
  | none => L.spent ≤ a.failedAttempts
  | some start => start + P.cooldown ≤ clock ∨ ∃ c, a.cooldownUntil = some c ∧ start + P.cooldown ≤ c

/-- What ties a scope to the ledger of what was seen of it. -/
structure Inv (P : Policy) (s : Scope) (L : Ledger) : Prop where
  current : ∀ w, s.window = some w →
    Bounded P w.attempts ∧ Covers P s.clock w.attempts L ∧ L.lineageUntil = w.expiresAt
  idle : s.window = none → L.lineageUntil ≤ s.clock ∨ Covers P s.clock .default L

theorem inv_empty : Inv P ⟨0, none⟩ .fresh := by
  refine ⟨fun w current => by simp at current, fun _ => ?_⟩
  exact .inl (Nat.zero_le _)

variable {L : Ledger}

theorem Covers.later {clock now : Nat}
    (covers : Covers P clock a L) (later : clock ≤ now) : Covers P now a L := by
  unfold Covers at covers ⊢
  split at covers
  · exact covers
  · exact covers.imp (fun h => Nat.le_trans h later) id

theorem Covers.lineage {clock until_ : Nat}
    (covers : Covers P clock a L) : Covers P clock a { L with lineageUntil := until_ } := covers

theorem covers_fresh {clock until_ : Nat} :
    Covers P clock a { spent := 0, lockedAt := none, lineageUntil := until_ } := Nat.zero_le _

/-- Carrying a counter over keeps what it covers: a cooldown that reads as none
is over by now. -/
theorem Covers.normalize {now : Nat}
    (covers : Covers P now a L) : Covers P now (a.normalize now) L := by
  unfold AttemptState.normalize
  split
  · rename_i c running
    split
    · exact covers
    · unfold Covers at covers ⊢
      split at covers
      · exact covers
      · left
        rcases covers with done | ⟨c', same, within⟩
        · exact done
        · rw [running, Option.some.injEq] at same
          omega
  · exact covers

/-- A usable counter has outlasted the ledger's cooldown. -/
theorem Covers.elapsed {now : Nat} (covers : Covers P now a L)
    (usable : a.usable now = true) : L.elapsed P now = true := by
  unfold Covers at covers
  unfold Ledger.elapsed
  split at covers
  · rename_i unlocked
    rw [unlocked]
  · rename_i start locked
    rw [locked]
    simp only [decide_eq_true_eq]
    rcases covers with done | ⟨c, running, within⟩
    · exact done
    · simp only [AttemptState.usable, running, decide_eq_true_eq] at usable
      omega

theorem Covers.base_le {now : Nat} (covers : Covers P now a L) :
    L.base ≤ a.failedAttempts := by
  unfold Covers at covers
  unfold Ledger.base
  split at covers
  · rename_i unlocked
    rw [unlocked]
    exact covers
  · rename_i start locked
    rw [locked]
    exact Nat.zero_le _

/-- One wrong guess, seen by the counter and by the ledger. -/
theorem Covers.wrong {now : Nat} (covers : Covers P now a L) :
    Covers P now (a.fail P now) (L.after (.wrong now (a.exhausts P))) := by
  have base := covers.base_le
  unfold AttemptState.fail Ledger.after
  cases locked : a.exhausts P with
  | true =>
      right
      exact ⟨_, rfl, Nat.le_refl _⟩
  | false =>
      show L.base + 1 ≤ a.failedAttempts + 1
      omega

/-- **One step keeps the invariant, and what is seen of it is within budget.** -/
theorem step_inv {s t : Scope} {o : Observation} (inv : Inv P s L)
    (step : Step P s o t) : L.allows P o = true ∧ Inv P t (L.after o) := by
  cases step with
  | @openFresh now until_ later gone =>
      refine ⟨rfl, fun w current => ?_, fun none => by simp at none⟩
      cases current
      refine ⟨bounded_default, ?_, by simp only [Ledger.after]; split <;> rfl⟩
      simp only [Ledger.after]
      split
      · exact covers_fresh
      · cases held : s.window with
        | none =>
            rcases inv.idle held with past | covers
            · omega
            · exact (covers.later later).lineage
        | some w =>
            have lineage := (inv.current w held).2.2
            have expired := gone w held
            omega
  | @openCarried now until_ w later held =>
      obtain ⟨bounded, covers, -⟩ := inv.current w held
      refine ⟨rfl, fun w' current => ?_, fun none => by simp at none⟩
      cases current
      refine ⟨bounded.normalize now, ?_, by simp only [Ledger.after]; split <;> rfl⟩
      simp only [Ledger.after]
      split
      · exact covers_fresh
      · exact (covers.later later).normalize.lineage
  | @wrong now w later held usable =>
      obtain ⟨bounded, covers, lineage⟩ := inv.current w held
      have covers := covers.later later
      have base := covers.base_le
      have below := bounded.below
      constructor
      · simp only [Ledger.allows, covers.elapsed usable, Bool.true_and, decide_eq_true_eq]
        omega
      · refine ⟨fun w' current => ?_, fun none => by simp at none⟩
        cases current
        exact ⟨bounded_fail w.attempts now, covers.wrong, lineage⟩
  | @success now w later held usable =>
      obtain ⟨bounded, covers, lineage⟩ := inv.current w held
      refine ⟨(covers.later later).elapsed usable, fun w' current => by simp at current,
        fun _ => ?_⟩
      exact .inr covers_fresh
  | @silent now later =>
      refine ⟨rfl, fun w held => ?_, fun none =>
        (inv.idle none).imp (fun past => Nat.le_trans past later) (·.later later)⟩
      obtain ⟨bounded, covers, lineage⟩ := inv.current w held
      exact ⟨bounded, covers.later later, lineage⟩
  | @drop now w later held idle =>
      obtain ⟨-, covers, lineage⟩ := inv.current w held
      refine ⟨rfl, fun w' current => by simp at current, fun _ => ?_⟩
      rcases idle with past | idle
      · exact .inl (lineage ▸ past)
      · have covers := (covers.later later).normalize
        rw [idle] at covers
        exact .inr covers

/-- **Every run of the counter keeps the budget.** -/
theorem run_keepsBudget {s t : Scope} {os : List Observation} (run : Run (Step P) s os t) :
    ∀ L, Inv P s L → keepsBudget P L os = true := by
  induction run with
  | nil s => exact fun _ _ => rfl
  | cons first later ih =>
      intro L inv
      obtain ⟨allowed, next⟩ := step_inv inv first
      simp only [keepsBudget, allowed, Bool.true_and]
      exact ih _ next

/-- A program that the counter simulates wherever it spares the counter keeps the budget and
the counter along a history exactly when every operation of it spares the counter. -/
theorem budget_iff {σ ε : Type} {exec : σ → ε → σ × Observation} {keeps spares : σ → ε → Prop}
    {Sim : σ → Scope → Prop}
    (matched : ∀ s e x, Sim s x → spares s e → ∃ y, Step P x (exec s e).2 y ∧ Sim (exec s e).1 y)
    (agree : ∀ s e x, Sim s x → (keeps s e ↔ spares s e)) {s : σ} (start : Sim s ⟨0, none⟩)
    (events : List ε) :
    (keepsBudget P .fresh (observations exec s events) = true ∧
        AllSteps (fun s e => (exec s e).1) keeps s events) ↔
      AllSteps (fun s e => (exec s e).1) spares s events := by
  have same : AllSteps (fun s e => (exec s e).1) keeps s events ↔
      AllSteps (fun s e => (exec s e).1) spares s events := by
    refine allSteps_iff (I := fun s => ∃ x, Sim s x) ?_ ?_ events s ⟨_, start⟩
    · exact fun s e ⟨x, sim⟩ => agree s e x sim
    · intro s e ⟨x, sim⟩ kept
      obtain ⟨y, -, after⟩ := matched s e x sim ((agree s e x sim).1 kept)
      exact ⟨y, after⟩
  rw [same]
  refine ⟨And.right, fun spared => ⟨?_, spared⟩⟩
  obtain ⟨y, run⟩ := AllSteps.simulate matched events s ⟨0, none⟩ start spared
  exact run_keepsBudget run _ inv_empty

end SiliconIam.Theory.AttemptBudget
