/-
# Theory.Keyed -- tables as keyed lists

A table is a list with a key function.  `get` reads the row of a key, `put`
rewrites the rows of a key in place, `drop` deletes them.  Each operation has one
membership lemma in each direction, which is all that invariants of the form
"every row of the table ..." and "some row of the table ..." need; nothing here
assumes that keys are unique.
-/
import Mathlib.Data.List.Basic

namespace SiliconIam.Theory.Keyed

set_option autoImplicit false

universe u v

variable {α : Type u} {κ : Type v} [DecidableEq κ] (key : α → κ)

def get (table : List α) (k : κ) : Option α := table.find? fun row => key row = k

def put (table : List α) (row : α) : List α :=
  table.map fun old => if key old = key row then row else old

def drop (table : List α) (k : κ) : List α := table.filter fun row => key row ≠ k

variable {key} {table : List α} {row old : α} {k : κ}

theorem mem_of_get (found : get key table k = some row) : row ∈ table :=
  List.mem_of_find?_eq_some found

theorem key_of_get (found : get key table k = some row) : key row = k := by
  simpa using List.find?_some found

theorem get_eq_none : get key table k = none ↔ ∀ row ∈ table, key row ≠ k := by
  simp [get, List.find?_eq_none]

/-- What only one row meets finds that row. -/
theorem find?_of_only {p : α → Bool} (mem : row ∈ table) (holds : p row = true)
    (only : ∀ other ∈ table, p other = true → other = row) : table.find? p = some row := by
  cases found : table.find? p with
  | none => exact absurd holds (List.find?_eq_none.mp found row mem)
  | some other =>
      rw [only other (List.mem_of_find?_eq_some found) (List.find?_some found)]

/-- A key that only one row has is read back as that row. -/
theorem get_of_unique (mem : row ∈ table)
    (unique : ∀ other ∈ table, key other = key row → other = row) :
    get key table (key row) = some row :=
  find?_of_only mem (decide_eq_true rfl) fun other held same =>
    unique other held (of_decide_eq_true same)

theorem mem_put (mem : old ∈ put key table row) :
    old = row ∨ (old ∈ table ∧ key old ≠ key row) := by
  obtain ⟨before, held, rfl⟩ := List.mem_map.mp mem
  by_cases same : key before = key row
  · rw [if_pos same]
    exact .inl rfl
  · rw [if_neg same]
    exact .inr ⟨held, same⟩

theorem mem_put_of_ne (mem : old ∈ table) (other : key old ≠ key row) :
    old ∈ put key table row :=
  List.mem_map.mpr ⟨old, mem, if_neg other⟩

theorem mem_put_self (mem : old ∈ table) (same : key old = key row) : row ∈ put key table row :=
  List.mem_map.mpr ⟨old, mem, if_pos same⟩

theorem forall_put {P : α → Prop} (own : P row) (others : ∀ old ∈ table, P old) :
    ∀ old ∈ put key table row, P old := by
  intro old mem
  rcases mem_put mem with rfl | ⟨held, -⟩
  · exact own
  · exact others old held

/-- What tells the rows of a table apart tells them apart after one is rewritten
with its key and that value kept. -/
theorem put_injective {β : Type*} {f : α → β}
    (injective : ∀ a ∈ table, ∀ b ∈ table, f a = f b → a = b)
    (mem : old ∈ table) (same : key row = key old) (value : f row = f old) :
    ∀ a ∈ put key table row, ∀ b ∈ put key table row, f a = f b → a = b := by
  intro a aIn b bIn eq
  rcases mem_put aIn with rfl | ⟨aHeld, aOther⟩
  · rcases mem_put bIn with rfl | ⟨bHeld, bOther⟩
    · rfl
    · have : old = b := injective old mem b bHeld (value ▸ eq)
      exact absurd (by rw [same, this]) bOther
  · rcases mem_put bIn with rfl | ⟨bHeld, bOther⟩
    · have : a = old := injective a aHeld old mem (value ▸ eq)
      exact absurd (by rw [same, this]) aOther
    · exact injective a aHeld b bHeld eq

omit [DecidableEq κ] in
/-- Rows looked up by their keys have some of these keys, in their order. -/
theorem map_filterMap_sublist {lookup : κ → Option α}
    (keyed : ∀ k row, lookup k = some row → key row = k) (keys : List κ) :
    ((keys.filterMap lookup).map key).Sublist keys := by
  induction keys with
  | nil => exact List.Sublist.slnil
  | cons k keys ih =>
      cases found : lookup k with
      | none =>
          rw [List.filterMap_cons_none found]
          exact ih.cons k
      | some row =>
          rw [List.filterMap_cons_some found, List.map_cons, keyed k row found]
          exact ih.cons_cons k

/-- The rows made for one key are those found under it, if every row has the key it was
made for. -/
theorem filter_flatMap_own {τ : Type*} {keyOf : τ → κ} {rows : τ → List α}
    (own : ∀ t, ∀ row ∈ rows t, key row = keyOf t) {ts : List τ} (distinct : (ts.map keyOf).Nodup)
    {t : τ} (mem : t ∈ ts) :
    ((ts.flatMap rows).filter fun row => key row = keyOf t) = rows t := by
  induction ts with
  | nil => cases mem
  | cons first ts ih =>
      rw [List.map_cons, List.nodup_cons] at distinct
      rw [List.flatMap_cons, List.filter_append]
      rcases List.mem_cons.mp mem with rfl | mem
      · have rest : ((ts.flatMap rows).filter fun row => key row = keyOf t) = [] := by
          rw [List.filter_eq_nil_iff]
          intro row held
          obtain ⟨other, among, made⟩ := List.mem_flatMap.mp held
          rw [own other row made, decide_eq_true_eq]
          intro same
          exact distinct.1 (same ▸ List.mem_map_of_mem among)
        rw [rest, List.append_nil, List.filter_eq_self]
        exact fun row made => decide_eq_true (own t row made)
      · have none_ : ((rows first).filter fun row => key row = keyOf t) = [] := by
          rw [List.filter_eq_nil_iff]
          intro row made
          rw [own first row made, decide_eq_true_eq]
          intro same
          exact distinct.1 (same ▸ List.mem_map_of_mem mem)
        rw [none_, List.nil_append, ih distinct.2 mem]

theorem mem_drop : row ∈ drop key table k ↔ row ∈ table ∧ key row ≠ k := by
  simp [drop]

end SiliconIam.Theory.Keyed
