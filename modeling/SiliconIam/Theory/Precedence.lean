/-
# Theory.Precedence -- the least of the most specific

Rules are compared twice: the most specific ones decide, and among those the least value
counts; without a rule a default does.  `Deciding` are the rules that decide, `Outcome`
the value they give.  There is exactly one (`Outcome.unique`, `outcome_exists`), it does
not depend on the order of the rules (`Outcome.perm`), and a further rule as specific as
those that decide never raises it (`Outcome.le_of_cons`).

`select` computes it, by a filter on the greatest rank and a first least element.
-/
import Mathlib.Data.List.MinMax

namespace SiliconIam.Theory.Precedence

set_option autoImplicit false

universe u v

variable {α : Type u} {β : Type v} [LinearOrder β] (rank : α → Nat) (value : α → β)

/-- The rules of the greatest rank. -/
def Deciding (rules : List α) (rule : α) : Prop :=
  rule ∈ rules ∧ ∀ other ∈ rules, rank other ≤ rank rule

/-- The least value of a deciding rule, or the default if there is no rule. -/
def Outcome (rules : List α) (default : β) (result : β) : Prop :=
  (rules = [] ∧ result = default) ∨
    ((∃ rule, Deciding rank rules rule ∧ value rule = result) ∧
      ∀ rule, Deciding rank rules rule → result ≤ value rule)

variable {rank value} {rules others : List α} {rule : α} {default result other : β}

theorem Deciding.perm (same : rules.Perm others) :
    Deciding rank rules rule ↔ Deciding rank others rule := by
  unfold Deciding
  simp only [same.mem_iff]

theorem Outcome.perm (same : rules.Perm others) :
    Outcome rank value rules default result ↔ Outcome rank value others default result := by
  unfold Outcome
  have none_ : rules = [] ↔ others = [] := by
    constructor
    · rintro rfl
      exact List.nil_perm.mp same
    · rintro rfl
      exact List.perm_nil.mp same
  simp only [none_, Deciding.perm same]

theorem deciding_map {γ : Type u} {row : α → γ} {rank : γ → Nat} {found : γ} :
    Deciding rank (rules.map row) found ↔
      ∃ rule, Deciding (fun rule => rank (row rule)) rules rule ∧ row rule = found := by
  constructor
  · rintro ⟨mem, top⟩
    obtain ⟨rule, held, rfl⟩ := List.mem_map.mp mem
    exact ⟨rule, ⟨held, fun other held => top _ (List.mem_map_of_mem held)⟩, rfl⟩
  · rintro ⟨rule, ⟨held, top⟩, rfl⟩
    refine ⟨List.mem_map_of_mem held, ?_⟩
    intro other mem
    obtain ⟨own, held, rfl⟩ := List.mem_map.mp mem
    exact top own held

/-- The outcome of the rows is the outcome of what they were made from. -/
theorem outcome_map {γ : Type u} {row : α → γ} {rank : γ → Nat} {value : γ → β} :
    Outcome rank value (rules.map row) default result ↔
      Outcome (fun rule => rank (row rule)) (fun rule => value (row rule)) rules default
        result := by
  unfold Outcome
  simp only [List.map_eq_nil_iff, deciding_map]
  constructor
  · rintro (none_ | ⟨⟨found, ⟨rule, decides, rfl⟩, same⟩, least⟩)
    · exact .inl none_
    · exact .inr ⟨⟨rule, decides, same⟩, fun other held => least _ ⟨other, held, rfl⟩⟩
  · rintro (none_ | ⟨⟨rule, decides, same⟩, least⟩)
    · exact .inl none_
    · refine .inr ⟨⟨row rule, ⟨rule, decides, rfl⟩, same⟩, ?_⟩
      rintro found ⟨other, held, rfl⟩
      exact least other held

theorem Outcome.unique (one : Outcome rank value rules default result)
    (two : Outcome rank value rules default other) : result = other := by
  rcases one with ⟨none_, rfl⟩ | ⟨⟨rule, decides, rfl⟩, least⟩
  · rcases two with ⟨-, rfl⟩ | ⟨⟨rule, decides, -⟩, -⟩
    · rfl
    · rw [none_] at decides
      cases decides.1
  · rcases two with ⟨none_, -⟩ | ⟨⟨rule', decides', rfl⟩, least'⟩
    · rw [none_] at decides
      cases decides.1
    · exact le_antisymm (least rule' decides') (least' rule decides)

/-- A further rule as specific as the deciding ones never makes the outcome greater. -/
theorem Outcome.le_of_cons {added first : α} (decides : Deciding rank rules first)
    (specific : rank added = rank first) (before : Outcome rank value rules default result)
    (after : Outcome rank value (added :: rules) default other) : other ≤ result := by
  rcases before with ⟨none_, -⟩ | ⟨⟨rule, own, rfl⟩, -⟩
  · rw [none_] at decides
    cases decides.1
  · rcases after with ⟨none_, -⟩ | ⟨-, least⟩
    · cases none_
    · apply least rule
      refine ⟨List.mem_cons_of_mem added own.1, ?_⟩
      intro other mem
      rcases List.mem_cons.mp mem with rfl | mem
      · exact specific ▸ own.2 first decides.1
      · exact own.2 other mem

/-- A further rule below a deciding one is not heard. -/
theorem Outcome.of_cons_below {added first : α}
    (after : Outcome rank value (added :: rules) default result)
    (decides : Deciding rank rules first) (below : rank added < rank first) :
    Outcome rank value rules default result := by
  rcases after with ⟨none_, -⟩ | ⟨⟨rule, own, same⟩, least⟩
  · cases none_
  · have top := own.2 first (List.mem_cons_of_mem added decides.1)
    refine .inr ⟨⟨rule, ⟨?_, fun other mem => own.2 other (List.mem_cons_of_mem added mem)⟩, same⟩, ?_⟩
    · rcases List.mem_cons.mp own.1 with rfl | mem
      · omega
      · exact mem
    · intro other deciding
      refine least other ⟨List.mem_cons_of_mem added deciding.1, fun third mem => ?_⟩
      have above := deciding.2 first decides.1
      rcases List.mem_cons.mp mem with rfl | mem
      · omega
      · exact deciding.2 third mem

/-- A further rule above all others decides alone. -/
theorem Outcome.of_cons_above {added : α}
    (after : Outcome rank value (added :: rules) default result)
    (above : ∀ rule ∈ rules, rank rule < rank added) : result = value added := by
  rcases after with ⟨none_, -⟩ | ⟨⟨rule, own, same⟩, -⟩
  · cases none_
  · have top := own.2 added List.mem_cons_self
    rcases List.mem_cons.mp own.1 with rfl | mem
    · exact same.symm
    · exact absurd (above rule mem) (by omega)

/-! ## Selection -/

section

variable (rank value)

/-- The rules of the greatest rank, in their order. -/
def candidates (rules : List α) : List α :=
  match (rules.map rank).max? with
  | none => []
  | some greatest => rules.filter fun rule => rank rule = greatest

/-- The first of the candidates with the least value. -/
def select (rules : List α) : Option α := (candidates rank rules).argmin value

end

theorem mem_candidates : rule ∈ candidates rank rules ↔ Deciding rank rules rule := by
  unfold candidates Deciding
  cases greatest : (rules.map rank).max? with
  | none =>
      have none_ : rules = [] := by simpa using greatest
      simp [none_]
  | some most =>
      obtain ⟨held, bounds⟩ := List.max?_eq_some_iff.mp greatest
      rw [List.mem_filter, decide_eq_true_eq]
      constructor
      · rintro ⟨mem, rfl⟩
        exact ⟨mem, fun other held => bounds _ (List.mem_map_of_mem held)⟩
      · rintro ⟨mem, top⟩
        refine ⟨mem, Nat.le_antisymm (bounds _ (List.mem_map_of_mem mem)) ?_⟩
        obtain ⟨other, mem, rfl⟩ := List.mem_map.mp held
        exact top other mem

theorem select_eq_none : select rank value rules = none ↔ rules = [] := by
  rw [select, List.argmin_eq_none]
  constructor
  · intro none_
    unfold candidates at none_
    split at none_
    · rename_i empty
      simpa using empty
    · rename_i most greatest
      obtain ⟨rule, mem, same⟩ := List.mem_map.mp (List.max?_mem greatest)
      have kept : rule ∈ rules.filter fun rule => rank rule = most :=
        List.mem_filter.mpr ⟨mem, decide_eq_true same⟩
      rw [none_] at kept
      cases kept
  · rintro rfl
    rfl

/-- What is selected decides. -/
theorem outcome_select (selected : select rank value rules = some rule) :
    Outcome rank value rules default (value rule) := by
  refine .inr ⟨⟨rule, mem_candidates.mp (List.argmin_mem selected), rfl⟩, ?_⟩
  intro other decides
  exact List.le_of_mem_argmin (mem_candidates.mpr decides) selected

theorem outcome_nil : Outcome rank value [] default default := .inl ⟨rfl, rfl⟩

end SiliconIam.Theory.Precedence
