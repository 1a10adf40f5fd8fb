/-
# Theory.Versioned -- rows that count their updates

Every update of a row advances its version by one and a new row starts at version one.
`Revised changed before after` says that exactly the rows under `changed` were written,
each once.  Such steps compose when they write different rows.

A log of `(key, version)` pairs is `Bounded` by a table when each pair is at most the
version of its row.  A row that was just written is above everything in the log
(`Revised.fresh`), so a report at its version is the first one there, and logs that
only grow by such reports stay bounded (`Bounded.append`).
-/
import SiliconIam.Theory.Table

namespace SiliconIam.Theory.Versioned

set_option autoImplicit false

universe u v

variable {α : Type u} {κ : Type v} {key : α → κ} [DecidableEq κ]

/-- The version after a row was written: one if there was none. -/
def next (version : α → Nat) (old : Option α) : Nat := old.elim 1 fun row => version row + 1

structure Revised (version : α → Nat) (before after : Table key) (changed : List κ) : Prop where
  distinct : changed.Nodup
  same : ∀ k, k ∉ changed → after.get? k = before.get? k
  written : ∀ k ∈ changed, ∃ row, after.get? k = some row ∧
    version row = next version (before.get? k)

variable {version : α → Nat} {before middle after : Table key} {changed others : List κ}

theorem Revised.refl (table : Table key) : Revised version table table [] :=
  ⟨List.nodup_nil, fun _ _ => rfl, fun _ listed => absurd listed List.not_mem_nil⟩

theorem Revised.trans (first : Revised version before middle changed)
    (second : Revised version middle after others) (apart : ∀ k ∈ changed, k ∉ others) :
    Revised version before after (changed ++ others) where
  distinct := by
    refine List.nodup_append.mpr ⟨first.distinct, second.distinct, ?_⟩
    rintro k listed l other rfl
    exact apart k listed other
  same k absent := by
    obtain ⟨notFirst, notSecond⟩ := not_or.mp (mt List.mem_append.mpr absent)
    rw [second.same k notSecond, first.same k notFirst]
  written k listed := by
    rcases List.mem_append.mp listed with early | late
    · obtain ⟨row, found, counted⟩ := first.written k early
      exact ⟨row, (second.same k (apart k early)).trans found, counted⟩
    · obtain ⟨row, found, counted⟩ := second.written k late
      have untouched : middle.get? k = before.get? k :=
        first.same k fun early => apart k early late
      exact ⟨row, found, untouched ▸ counted⟩

theorem Revised.perm (revised : Revised version before after changed)
    (perm : changed.Perm others) : Revised version before after others :=
  ⟨perm.nodup_iff.mp revised.distinct,
    fun k absent => revised.same k fun listed => absent (perm.mem_iff.mp listed),
    fun k listed => revised.written k (perm.mem_iff.mpr listed)⟩

/-- An update writes the rows it picks. -/
theorem Revised.update (table : Table key) (p : α → Bool) (set : α → α)
    (keeps : ∀ row, key (set row) = key row)
    (counts : ∀ row, version (set row) = version row + 1) :
    Revised version table (table.update p set keeps) ((table.rows.filter p).map key) where
  distinct := (List.filter_sublist.map key).nodup table.distinct
  same k absent := by
    rw [Table.get?_update]
    cases found : table.get? k with
    | none => rfl
    | some row =>
        obtain ⟨mem, rfl⟩ := Table.get?_eq_some.mp found
        have unpicked : ¬ p row = true := fun picked =>
          absent (List.mem_map.mpr ⟨row, List.mem_filter.mpr ⟨mem, picked⟩, rfl⟩)
        rw [Option.map_some, if_neg unpicked]
  written k listed := by
    obtain ⟨row, selected, rfl⟩ := List.mem_map.mp listed
    obtain ⟨mem, picked⟩ := List.mem_filter.mp selected
    refine ⟨set row, ?_, ?_⟩
    · rw [Table.get?_update, Table.get?_of_mem mem, Option.map_some, if_pos picked]
    · rw [Table.get?_of_mem mem]
      exact counts row

/-- An update that picks at most the row under one key. -/
theorem Revised.updateOne (p : α → Bool) (set : α → α) (keeps : ∀ row, key (set row) = key row)
    (counts : ∀ row, version (set row) = version row + 1) {table : Table key} {row : α}
    (mem : row ∈ table) (only : ∀ other ∈ table, p other = true → key other = key row) :
    Revised version table (table.update p set keeps) (if p row then [key row] else []) := by
  have revised := Revised.update table p set keeps counts
  by_cases picked : p row = true
  · rw [if_pos picked]
    rwa [Table.filter_eq_singleton mem picked only] at revised
  · rw [if_neg picked]
    have none_picked : table.rows.filter p = [] := by
      refine List.filter_eq_nil_iff.mpr fun other held holds => picked ?_
      rwa [← Table.unique held mem (only other held holds)]
    rwa [none_picked] at revised

theorem Revised.insert {row : α} {table other : Table key}
    (done : table.insert row = some other) (first : version row = 1) :
    Revised version table other [key row] where
  distinct := List.nodup_singleton _
  same k absent := by
    rw [Table.get?_insert done, if_neg fun same => absent (List.mem_singleton.mpr same.symm)]
  written k listed := by
    obtain rfl := List.mem_singleton.mp listed
    refine ⟨row, by rw [Table.get?_insert done, if_pos rfl], ?_⟩
    have absent : table.get? (key row) = none :=
      Table.get?_eq_none.mpr fun old mem => (Table.insert_spec done).1 old mem
    rw [absent, first]
    rfl

/-- No row is lost and no version goes back. -/
theorem Revised.grows (revised : Revised version before after changed) {k : κ} {row : α}
    (found : before.get? k = some row) :
    ∃ row', after.get? k = some row' ∧ version row ≤ version row' := by
  by_cases listed : k ∈ changed
  · obtain ⟨row', found', counted⟩ := revised.written k listed
    rw [found] at counted
    exact ⟨row', found', by rw [counted]; exact Nat.le_succ _⟩
  · exact ⟨row, (revised.same k listed).trans found, Nat.le_refl _⟩

/-! ## Logs -/

/-- Every entry is about a row that exists, at a version it has reached. -/
def Bounded (version : α → Nat) (log : List (κ × Nat)) (table : Table key) : Prop :=
  ∀ entry ∈ log, ∃ row, table.get? entry.1 = some row ∧ entry.2 ≤ version row

theorem Bounded.revised {log : List (κ × Nat)} (bounded : Bounded version log before)
    (revised : Revised version before after changed) : Bounded version log after := by
  intro entry listed
  obtain ⟨row, found, reached⟩ := bounded entry listed
  obtain ⟨row', found', grown⟩ := revised.grows found
  exact ⟨row', found', Nat.le_trans reached grown⟩

theorem Bounded.append {log reports : List (κ × Nat)} (bounded : Bounded version log after)
    (current : ∀ entry ∈ reports, ∃ row, after.get? entry.1 = some row ∧
      entry.2 = version row) : Bounded version (reports ++ log) after := by
  intro entry listed
  rcases List.mem_append.mp listed with new | old
  · obtain ⟨row, found, same⟩ := current entry new
    exact ⟨row, found, Nat.le_of_eq same⟩
  · exact bounded entry old

/-- A row that was just written has a version that nothing has reported. -/
theorem Revised.fresh {log : List (κ × Nat)} (revised : Revised version before after changed)
    (bounded : Bounded version log before) {k : κ} (listed : k ∈ changed) {row : α}
    (found : after.get? k = some row) : (k, version row) ∉ log := by
  intro reported
  obtain ⟨old, oldFound, reached⟩ := bounded _ reported
  obtain ⟨row', found', counted⟩ := revised.written k listed
  obtain rfl : row = row' := Option.some.inj (found.symm.trans found')
  rw [oldFound] at counted
  have : version row = version old + 1 := counted
  omega

end SiliconIam.Theory.Versioned
