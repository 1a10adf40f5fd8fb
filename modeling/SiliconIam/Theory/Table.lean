/-
# Theory.Table -- tables with a primary key

A `Table key` is a list of rows no two of which have the same key; the field
`distinct` says so, so a state made of tables cannot hold two rows of one key.
Rows are inserted under a new key, changed in place by a function that keeps the
key, or dropped.  Each operation has one membership lemma, and `Table.unique`
reads a row off its key.

`Evolves` is what a program does to a table whose rows have columns that never
change (`fixed`) and marks that are never taken back (`marks`): every row
afterwards continues a row from before, or is new under a key that is drawn for
it.  `Continued` is an evolution without new rows.  Both compose, and each
operation of a table has its rule.
-/
import Mathlib.Data.List.Nodup

namespace SiliconIam.Theory

set_option autoImplicit false

universe u v

structure Table {α : Type u} {κ : Type v} (key : α → κ) where
  rows : List α
  distinct : (rows.map key).Nodup

namespace Table

variable {α : Type u} {κ : Type v} {key : α → κ}

instance : Membership α (Table key) := ⟨fun table row => row ∈ table.rows⟩

theorem mem_rows {table : Table key} {row : α} : row ∈ table.rows ↔ row ∈ table := Iff.rfl

instance decidableForall {P : α → Prop} [DecidablePred P] (table : Table key) :
    Decidable (∀ row ∈ table, P row) :=
  inferInstanceAs (Decidable (∀ row ∈ table.rows, P row))

instance decidableExists {P : α → Prop} [DecidablePred P] (table : Table key) :
    Decidable (∃ row ∈ table, P row) :=
  inferInstanceAs (Decidable (∃ row ∈ table.rows, P row))

def empty (key : α → κ) : Table key := ⟨[], by simp⟩

def find? (table : Table key) (p : α → Bool) : Option α := table.rows.find? p

def any (table : Table key) (p : α → Bool) : Bool := table.rows.any p

def all (table : Table key) (p : α → Bool) : Bool := table.rows.all p

/-- No row when the key is taken. -/
def insert [DecidableEq κ] (table : Table key) (row : α) : Option (Table key) :=
  if free : key row ∉ table.rows.map key then
    some ⟨row :: table.rows, List.nodup_cons.mpr ⟨free, table.distinct⟩⟩
  else none

theorem map_keys {f : α → α} (keeps : ∀ row, key (f row) = key row) (rows : List α) :
    (rows.map f).map key = rows.map key := by
  rw [List.map_map]
  exact List.map_congr_left fun row _ => keeps row

/-- `UPDATE … SET … WHERE …`: the rows that meet `p` are changed by `set`. -/
def update (table : Table key) (p : α → Bool) (set : α → α)
    (keeps : ∀ row, key (set row) = key row) : Table key where
  rows := table.rows.map fun row => if p row then set row else row
  distinct := by
    rw [map_keys fun row => ?_]
    · exact table.distinct
    · split
      · exact keeps row
      · rfl

/-- `DELETE … WHERE NOT keep`. -/
def restrict (table : Table key) (keep : α → Bool) : Table key where
  rows := table.rows.filter keep
  distinct := (List.filter_sublist.map key).nodup table.distinct

variable {table other : Table key} {row old : α} {p : α → Bool}

theorem unique {a b : α} (ma : a ∈ table) (mb : b ∈ table) (same : key a = key b) : a = b :=
  List.inj_on_of_nodup_map table.distinct ma mb same

theorem find?_spec (found : table.find? p = some row) : row ∈ table ∧ p row = true :=
  ⟨List.mem_of_find?_eq_some found, List.find?_some (p := p) found⟩

/-- The row that a condition singles out by its key is the one found. -/
theorem find?_eq_some_of_key (mem : row ∈ table) (holds : p row = true)
    (keyed : ∀ other ∈ table, p other = true → key other = key row) : table.find? p = some row := by
  cases found : table.find? p with
  | none =>
      have := List.find?_eq_none.mp found row mem
      exact absurd holds this
  | some other =>
      obtain ⟨otherMem, otherHolds⟩ := find?_spec found
      rw [unique otherMem mem (keyed other otherMem otherHolds)]

/-- Tables with the same rows under `p`, which holds under one key only. -/
theorem find?_congr {k : κ} (same : ∀ row, p row = true → (row ∈ table ↔ row ∈ other))
    (keyed : ∀ row, p row = true → key row = k) : table.find? p = other.find? p := by
  cases found : table.find? p with
  | none =>
      symm
      refine List.find?_eq_none.mpr fun row mem holds => ?_
      exact List.find?_eq_none.mp found row ((same row holds).mpr mem) holds
  | some row =>
      obtain ⟨mem, holds⟩ := find?_spec found
      symm
      exact find?_eq_some_of_key ((same row holds).mp mem) holds fun a _ aHolds =>
        (keyed a aHolds).trans (keyed row holds).symm

theorem filter_eq_singleton (mem : row ∈ table) (holds : p row = true)
    (keyed : ∀ other ∈ table, p other = true → key other = key row) :
    table.rows.filter p = [row] := by
  have distinct : (table.rows.filter p).Nodup := (List.Nodup.of_map key table.distinct).filter p
  refine List.perm_singleton.mp
    ((List.perm_ext_iff_of_nodup distinct (List.nodup_singleton row)).mpr fun other => ?_)
  rw [List.mem_filter, List.mem_singleton]
  constructor
  · rintro ⟨otherMem, otherHolds⟩
    exact unique otherMem mem (keyed other otherMem otherHolds)
  · rintro rfl
    exact ⟨mem, holds⟩

theorem any_eq_true : table.any p = true ↔ ∃ row ∈ table, p row = true :=
  List.any_eq_true

theorem any_spec (holds : table.any p = true) : ∃ row ∈ table, p row = true :=
  any_eq_true.mp holds

theorem all_spec : table.all p = true ↔ ∀ row ∈ table, p row = true :=
  List.all_eq_true

theorem not_mem_empty : row ∉ empty key := List.not_mem_nil

section Insert

variable [DecidableEq κ]

theorem insert_of_free (free : ∀ other ∈ table, key other ≠ key row) :
    ∃ other, table.insert row = some other := by
  have absent : key row ∉ table.rows.map key := by
    intro taken
    obtain ⟨old, mem, same⟩ := List.mem_map.mp taken
    exact free old mem same
  exact ⟨_, dif_pos absent⟩

theorem insert_spec (done : table.insert row = some other) :
    (∀ old ∈ table, key old ≠ key row) ∧ ∀ a, a ∈ other ↔ a = row ∨ a ∈ table := by
  unfold insert at done
  split at done
  · rename_i free
    obtain rfl := Option.some.inj done
    refine ⟨fun old held same => free (List.mem_map.mpr ⟨old, held, same⟩), fun a => ?_⟩
    exact List.mem_cons
  · simp at done

end Insert

variable {set : α → α}

section Get

variable [DecidableEq κ] {k : κ}

/-- The row under a key. -/
def get? (table : Table key) (k : κ) : Option α := table.find? fun row => key row = k

theorem get?_eq_some : table.get? k = some row ↔ row ∈ table ∧ key row = k := by
  constructor
  · intro found
    obtain ⟨mem, holds⟩ := find?_spec found
    exact ⟨mem, of_decide_eq_true holds⟩
  · rintro ⟨mem, rfl⟩
    exact find?_eq_some_of_key mem (decide_eq_true rfl) fun _ _ holds => of_decide_eq_true holds

theorem get?_eq_none : table.get? k = none ↔ ∀ row ∈ table, key row ≠ k := by
  unfold get? find?
  simp [List.find?_eq_none, mem_rows]

theorem get?_of_mem (mem : row ∈ table) : table.get? (key row) = some row :=
  get?_eq_some.mpr ⟨mem, rfl⟩

theorem get?_insert (done : table.insert row = some other) (k : κ) :
    other.get? k = if key row = k then some row else table.get? k := by
  have listed := (insert_spec done).2
  by_cases same : key row = k
  · rw [if_pos same]
    exact get?_eq_some.mpr ⟨(listed row).mpr (.inl rfl), same⟩
  · rw [if_neg same]
    cases found : table.get? k with
    | none =>
        refine get?_eq_none.mpr fun a mem keyed => ?_
        rcases (listed a).mp mem with rfl | old
        · exact same keyed
        · exact get?_eq_none.mp found a old keyed
    | some a =>
        obtain ⟨mem, keyed⟩ := get?_eq_some.mp found
        exact get?_eq_some.mpr ⟨(listed a).mpr (.inr mem), keyed⟩

theorem get?_update {keeps : ∀ row, key (set row) = key row} (k : κ) :
    (table.update p set keeps).get? k =
      (table.get? k).map fun row => if p row then set row else row := by
  have keyed : ∀ row, key (if p row then set row else row) = key row := by
    intro row
    split
    · exact keeps row
    · rfl
  cases found : table.get? k with
  | none =>
      refine get?_eq_none.mpr fun a mem same => ?_
      obtain ⟨old, held, rfl⟩ := List.mem_map.mp mem
      exact get?_eq_none.mp found old held ((keyed old).symm.trans same)
  | some a =>
      obtain ⟨mem, rfl⟩ := get?_eq_some.mp found
      exact get?_eq_some.mpr ⟨List.mem_map.mpr ⟨a, mem, rfl⟩, keyed a⟩

theorem get?_picked (keeps : ∀ row, key (set row) = key row)
    (found : table.get? k = some row) (picked : p row = true) :
    (table.update p set keeps).get? k = some (set row) := by
  rw [get?_update, found, Option.map_some, if_pos picked]

end Get

/-- `other` is `table` with `set` applied to the rows that meet `p`. -/
def Updated (p : α → Bool) (set : α → α) (table other : Table key) : Prop :=
  other.rows = table.rows.map fun row => if p row then set row else row

theorem Updated.mem (updated : Updated p set table other) :
    row ∈ other ↔ ∃ old ∈ table, row = if p old then set old else old := by
  show row ∈ other.rows ↔ _
  rw [updated, List.mem_map]
  constructor
  · rintro ⟨old, held, rfl⟩
    exact ⟨old, held, rfl⟩
  · rintro ⟨old, held, rfl⟩
    exact ⟨old, held, rfl⟩

theorem Updated.get? [DecidableEq κ] (updated : Updated p set table other)
    (keeps : ∀ row, key (set row) = key row) (k : κ) :
    other.get? k = (table.get? k).map fun row => if p row then set row else row := by
  have same : other = table.update p set keeps := by
    obtain ⟨rows, distinct⟩ := other
    cases updated
    rfl
  rw [same, get?_update]

/-- An update leaves the rows that it does not pick. -/
theorem mem_of_unpicked (mem : row ∈ table) (unpicked : p row = false)
    (updated : Updated p set table other) : row ∈ other :=
  updated.mem.mpr ⟨row, mem, by rw [if_neg (by simp [unpicked])]⟩

theorem mem_of_picked (mem : row ∈ table) (picked : p row = true)
    (updated : Updated p set table other) : set row ∈ other :=
  updated.mem.mpr ⟨row, mem, by rw [if_pos picked]⟩

theorem mem_update {keeps : ∀ row, key (set row) = key row} :
    row ∈ table.update p set keeps ↔ ∃ old ∈ table, row = if p old then set old else old :=
  Updated.mem rfl

theorem mem_update_of_mem (keeps : ∀ row, key (set row) = key row)
    (mem : old ∈ table) : (if p old then set old else old) ∈ table.update p set keeps :=
  mem_update.mpr ⟨old, mem, rfl⟩

/-- Where an update picks no row, the rows are those from before. -/
theorem Updated.elsewhere {q : α → Prop} (updated : Updated p set table other)
    (apart : ∀ row ∈ table, p row = true → ¬ q row ∧ ¬ q (set row)) :
    ∀ row, q row → (row ∈ other ↔ row ∈ table) := by
  intro row here
  constructor
  · intro mem
    obtain ⟨old, held, rfl⟩ := updated.mem.mp mem
    by_cases picked : p old = true
    · rw [if_pos picked] at here
      exact absurd here (apart old held picked).2
    · rw [if_neg picked]
      exact held
  · intro mem
    refine updated.mem.mpr ⟨row, mem, ?_⟩
    by_cases picked : p row = true
    · exact absurd here (apart row mem picked).1
    · rw [if_neg picked]

/-- Every row is still there, under its key. -/
def Kept (table other : Table key) : Prop := ∀ old ∈ table, ∃ row ∈ other, key row = key old

theorem Kept.refl (table : Table key) : Kept table table := fun row mem => ⟨row, mem, rfl⟩

theorem Kept.trans {a b c : Table key} (first : Kept a b) (second : Kept b c) : Kept a c := by
  intro old mem
  obtain ⟨middle, middleMem, same⟩ := first old mem
  obtain ⟨row, held, next⟩ := second middle middleMem
  exact ⟨row, held, next.trans same⟩

theorem Kept.update (updated : Updated p set table other)
    (keeps : ∀ row, key (set row) = key row) : Kept table other := by
  intro old mem
  refine ⟨if p old then set old else old, updated.mem.mpr ⟨old, mem, rfl⟩, ?_⟩
  split
  · exact keeps old
  · rfl

theorem Kept.insert [DecidableEq κ] (done : table.insert row = some other) : Kept table other :=
  fun old mem => ⟨old, ((insert_spec done).2 old).mpr (.inr mem), rfl⟩

/-- Where a row of an updated table comes from. -/
theorem of_mem_updated (mem : row ∈ other) (updated : Updated p set table other) :
    ∃ old ∈ table, row = if p old then set old else old :=
  updated.mem.mp mem

theorem mem_restrict {keep : α → Bool} :
    row ∈ table.restrict keep ↔ row ∈ table ∧ keep row = true :=
  List.mem_filter

/-! ## Writing whole rows -/

section Upsert

variable [DecidableEq κ]

/-- The row takes the place of the one under its key, if there is one. -/
def upsert (table : Table key) (row : α) : Table key where
  rows := row :: table.rows.filter fun old => key old ≠ key row
  distinct := by
    rw [List.map_cons, List.nodup_cons]
    constructor
    · intro taken
      obtain ⟨old, mem, same⟩ := List.mem_map.mp taken
      simp [same] at mem
    · exact (List.filter_sublist.map key).nodup table.distinct

theorem mem_upsert : old ∈ table.upsert row ↔ old = row ∨ (old ∈ table ∧ key old ≠ key row) := by
  show old ∈ (row :: table.rows.filter fun old => key old ≠ key row) ↔ _
  rw [List.mem_cons, List.mem_filter, decide_eq_true_iff]
  exact Iff.rfl

theorem Kept.upsert (table : Table key) (row : α) :
    Kept table (table.upsert row) := by
  intro old mem
  by_cases same : key old = key row
  · exact ⟨row, mem_upsert.mpr (.inl rfl), same.symm⟩
  · exact ⟨old, mem_upsert.mpr (.inr ⟨mem, same⟩), rfl⟩

/-- A row that is there, written back changed. -/
theorem mem_upsert_of_mem {a : α} (mem : a ∈ table) (next : α) (same : key next = key a) :
    row ∈ table.upsert next ↔ ∃ b ∈ table, row = if key b = key a then next else b := by
  rw [mem_upsert, same]
  constructor
  · rintro (rfl | ⟨old, differs⟩)
    · exact ⟨a, mem, by rw [if_pos rfl]⟩
    · exact ⟨row, old, by rw [if_neg differs]⟩
  · rintro ⟨b, old, rfl⟩
    by_cases equal : key b = key a
    · rw [if_pos equal]
      exact .inl rfl
    · rw [if_neg equal]
      exact .inr ⟨old, equal⟩

/-- Rows with different keys, written one after the other. -/
theorem mem_foldl_upsert {rows : List α} (distinct : (rows.map key).Nodup) :
    row ∈ rows.foldl upsert table ↔
      row ∈ rows ∨ (row ∈ table ∧ ∀ other ∈ rows, key other ≠ key row) := by
  induction rows generalizing table with
  | nil => simp
  | cons first rest ih =>
      obtain ⟨apart, distinct⟩ := List.nodup_cons.mp distinct
      rw [List.foldl_cons, ih distinct, mem_upsert]
      constructor
      · rintro (later | ⟨rfl | ⟨old, differs⟩, others⟩)
        · exact .inl (List.mem_cons_of_mem _ later)
        · exact .inl List.mem_cons_self
        · exact .inr ⟨old, List.forall_mem_cons.mpr ⟨differs.symm, others⟩⟩
      · rintro (listed | ⟨old, others⟩)
        · rcases List.mem_cons.mp listed with rfl | later
          · refine .inr ⟨.inl rfl, fun other mem same => apart ?_⟩
            exact List.mem_map.mpr ⟨other, mem, same⟩
          · exact .inl later
        · obtain ⟨differs, others⟩ := List.forall_mem_cons.mp others
          exact .inr ⟨.inr ⟨old, differs.symm⟩, others⟩

/-- The selected rows, written back changed. -/
theorem mem_upsert_selected {p : α → Bool} {f : α → α} (same : ∀ a, key (f a) = key a) :
    row ∈ ((table.rows.filter p).map f).foldl upsert table ↔
      ∃ a ∈ table, row = if p a then f a else a := by
  have keys : ((table.rows.filter p).map f).map key = (table.rows.filter p).map key := by
    rw [List.map_map]
    exact List.map_congr_left fun a _ => same a
  have distinct : (((table.rows.filter p).map f).map key).Nodup := by
    rw [keys]
    exact (List.filter_sublist.map key).nodup table.distinct
  rw [mem_foldl_upsert distinct]
  constructor
  · rintro (listed | ⟨old, others⟩)
    · obtain ⟨a, selected, rfl⟩ := List.mem_map.mp listed
      obtain ⟨mem, holds⟩ := List.mem_filter.mp selected
      exact ⟨a, mem, by rw [if_pos holds]⟩
    · refine ⟨row, old, ?_⟩
      have unselected : ¬ p row = true := fun holds =>
        others (f row) (List.mem_map.mpr ⟨row, List.mem_filter.mpr ⟨old, holds⟩, rfl⟩) (same row)
      rw [if_neg unselected]
  · rintro ⟨a, mem, rfl⟩
    by_cases holds : p a = true
    · rw [if_pos holds]
      exact .inl (List.mem_map.mpr ⟨a, List.mem_filter.mpr ⟨mem, holds⟩, rfl⟩)
    · rw [if_neg holds]
      refine .inr ⟨mem, fun other listed equal => holds ?_⟩
      obtain ⟨b, selected, rfl⟩ := List.mem_map.mp listed
      obtain ⟨bMem, bHolds⟩ := List.mem_filter.mp selected
      rwa [unique bMem mem ((same b).symm.trans equal)] at bHolds

def erase (table : Table key) (k : κ) : Table key := table.restrict fun row => key row ≠ k

theorem mem_erase {k : κ} : row ∈ table.erase k ↔ row ∈ table ∧ key row ≠ k := by
  rw [erase, mem_restrict, decide_eq_true_iff]

theorem mem_foldl_erase {keys : List κ} :
    row ∈ keys.foldl erase table ↔ row ∈ table ∧ key row ∉ keys := by
  induction keys generalizing table with
  | nil => simp
  | cons k rest ih =>
      rw [List.foldl_cons, ih, mem_erase, List.mem_cons, not_or, and_assoc]

end Upsert

/-- The two tables have the same rows among those of which `P` holds. -/
def AgreeOn (P : α → Prop) (table other : Table key) : Prop :=
  ∀ row, P row → (row ∈ table ↔ row ∈ other)

theorem AgreeOn.refl (P : α → Prop) (table : Table key) : AgreeOn P table table :=
  fun _ _ => Iff.rfl

theorem AgreeOn.trans {P : α → Prop} {a b c : Table key} (first : AgreeOn P a b)
    (second : AgreeOn P b c) : AgreeOn P a c :=
  fun row holds => (first row holds).trans (second row holds)

section Upsert

variable [DecidableEq κ]

/-- Writing one row to both keeps the agreement. -/
theorem AgreeOn.upsert {P : α → Prop} (agree : AgreeOn P table other) (row : α) :
    AgreeOn P (table.upsert row) (other.upsert row) := by
  intro a holds
  rw [mem_upsert, mem_upsert, agree a holds]

theorem AgreeOn.erase {P : α → Prop} (agree : AgreeOn P table other) (k : κ) :
    AgreeOn P (table.erase k) (other.erase k) := by
  intro a holds
  rw [mem_erase, mem_erase, agree a holds]

/-- A row under a key of which `P` speaks nowhere leaves the rest as it was. -/
theorem AgreeOn.upsert_left {P : α → Prop} (apart : ∀ a, P a → key a ≠ key row) :
    AgreeOn P table (table.upsert row) := by
  intro a holds
  rw [mem_upsert]
  constructor
  · intro mem
    exact .inr ⟨mem, apart a holds⟩
  · rintro (rfl | ⟨mem, -⟩)
    · exact absurd rfl (apart a holds)
    · exact mem

theorem AgreeOn.erase_left {P : α → Prop} {k : κ} (apart : ∀ a, P a → key a ≠ k) :
    AgreeOn P table (table.erase k) := by
  intro a holds
  rw [mem_erase]
  exact ⟨fun mem => ⟨mem, apart a holds⟩, fun mem => mem.1⟩

end Upsert

/-! ## Evolution -/

universe w x

variable {β : Type w} {ι : Type x}

/-- `row` is `old` later on. -/
structure Continues (fixed : α → β) (marks : α → ι → Prop) (old row : α) : Prop where
  fixed : fixed old = fixed row
  marks : ∀ i, marks old i → marks row i

/-- Every row continues one from before. -/
def Continued (fixed : α → β) (marks : α → ι → Prop) (before after : Table key) : Prop :=
  ∀ row ∈ after, ∃ old ∈ before, Continues fixed marks old row

def Evolves (drawn later : List κ) (fixed : α → β) (marks : α → ι → Prop)
    (before after : Table key) : Prop :=
  ∀ row ∈ after,
    (∃ old ∈ before, Continues fixed marks old row) ∨ (key row ∉ drawn ∧ key row ∈ later)

variable {fixed : α → β} {marks : α → ι → Prop} {drawn later latest : List κ}

theorem Continues.refl (row : α) : Continues fixed marks row row := ⟨rfl, fun _ held => held⟩

theorem Continues.trans {a b c : α} (first : Continues fixed marks a b)
    (second : Continues fixed marks b c) : Continues fixed marks a c :=
  ⟨first.fixed.trans second.fixed, fun i held => second.marks i (first.marks i held)⟩

theorem Continued.refl (table : Table key) : Continued fixed marks table table :=
  fun row mem => ⟨row, mem, .refl row⟩

theorem Continued.trans {a b c : Table key} (first : Continued fixed marks a b)
    (second : Continued fixed marks b c) : Continued fixed marks a c := by
  intro row mem
  obtain ⟨middle, middleMem, step⟩ := second row mem
  obtain ⟨old, held, before⟩ := first middle middleMem
  exact ⟨old, held, before.trans step⟩

theorem Continued.update (updated : Updated p set table other)
    (continues : ∀ row ∈ table, p row = true → Continues fixed marks row (set row)) :
    Continued fixed marks table other := by
  intro row mem
  obtain ⟨old, held, rfl⟩ := updated.mem.mp mem
  refine ⟨old, held, ?_⟩
  by_cases picked : p old = true
  · rw [if_pos picked]
    exact continues old held picked
  · rw [if_neg picked]
    exact .refl old

theorem Continued.restrict {keep : α → Bool} :
    Continued fixed marks table (table.restrict keep) :=
  fun row mem => ⟨row, (mem_restrict.mp mem).1, .refl row⟩

theorem Continued.evolves (continued : Continued fixed marks table other) :
    Evolves drawn later fixed marks table other :=
  fun row mem => .inl (continued row mem)

theorem Evolves.refl (table : Table key) : Evolves drawn later fixed marks table table :=
  (Continued.refl table).evolves

theorem Evolves.trans {a b c : Table key} (keyed : ∀ old row, fixed old = fixed row → key old = key row)
    (grows : ∀ k ∈ drawn, k ∈ later) (grew : ∀ k ∈ later, k ∈ latest)
    (first : Evolves drawn later fixed marks a b) (second : Evolves later latest fixed marks b c) :
    Evolves drawn latest fixed marks a c := by
  intro row mem
  rcases second row mem with ⟨middle, middleMem, step⟩ | ⟨fresh, taken⟩
  · rcases first middle middleMem with ⟨old, held, before⟩ | ⟨fresh, taken⟩
    · exact .inl ⟨old, held, before.trans step⟩
    · rw [keyed middle row step.fixed] at fresh taken
      exact .inr ⟨fresh, grew _ taken⟩
  · exact .inr ⟨fun held => fresh (grows _ held), taken⟩

theorem Evolves.insert [DecidableEq κ] (unused : key row ∉ drawn)
    (done : table.insert row = some other) :
    Evolves drawn (key row :: drawn) fixed marks table other := by
  intro a mem
  rcases ((insert_spec done).2 a).mp mem with rfl | held
  · exact .inr ⟨unused, List.mem_cons_self⟩
  · exact .inl ⟨a, held, .refl a⟩

/-- Under a key drawn before there is only what was there before. -/
theorem Evolves.continues (evolves : Evolves drawn later fixed marks table other) {row : α}
    (mem : row ∈ other) (old : key row ∈ drawn) :
    ∃ old ∈ table, Continues fixed marks old row :=
  (evolves row mem).resolve_right fun fresh => fresh.1 old

/-- The keys of a table stay among the drawn ones. -/
theorem Evolves.keys (evolves : Evolves drawn later fixed marks table other)
    (keyed : ∀ old row, fixed old = fixed row → key old = key row)
    (grows : ∀ k ∈ drawn, k ∈ later) (held : ∀ row ∈ table, key row ∈ drawn) :
    ∀ row ∈ other, key row ∈ later := by
  intro row mem
  rcases evolves row mem with ⟨old, oldMem, step⟩ | fresh
  · rw [← keyed old row step.fixed]
    exact grows _ (held old oldMem)
  · exact fresh.2

end Table

end SiliconIam.Theory
