/-
# Theory.References -- foreign keys between tables

`Refers child parent table other` says that every row of one table has the row of the
other that its columns name: `child` are the naming columns and `parent` the named
ones, so a composite key is a pair.  An update of either table keeps the references
as long as it leaves those columns alone, and an insertion when the new row has its
target.
-/
import SiliconIam.Theory.Table

namespace SiliconIam.Theory.Table

set_option autoImplicit false

universe u v

section References

variable {α β κ ι : Type u} {ρ : Type v} {key : α → κ} {code : β → ι} {child : α → ρ}
  {parent : β → ρ} {table next : Table key} {other after : Table code}

def Refers (child : α → ρ) (parent : β → ρ) (table : Table key) (other : Table code) : Prop :=
  ∀ row ∈ table, ∃ target ∈ other, parent target = child row

/-- The rows are those from before, as far as the naming columns go. -/
def Descends (child : α → ρ) (table next : Table key) : Prop :=
  ∀ row ∈ next, ∃ old ∈ table, child old = child row

/-- No row is lost, as far as the named columns go. -/
def Persists (parent : β → ρ) (other after : Table code) : Prop :=
  ∀ old ∈ other, ∃ row ∈ after, parent row = parent old

theorem Refers.trans (refers : Refers child parent table other)
    (descends : Descends child table next) (persists : Persists parent other after) :
    Refers child parent next after := by
  intro row mem
  obtain ⟨old, held, same⟩ := descends row mem
  obtain ⟨target, targetMem, named⟩ := refers old held
  obtain ⟨here, hereMem, kept⟩ := persists target targetMem
  exact ⟨here, hereMem, kept.trans (named.trans same)⟩

theorem Descends.refl (child : α → ρ) (table : Table key) : Descends child table table :=
  fun row mem => ⟨row, mem, rfl⟩

theorem Persists.refl (parent : β → ρ) (other : Table code) : Persists parent other other :=
  fun row mem => ⟨row, mem, rfl⟩

theorem Descends.update {p : α → Bool} {set : α → α} (updated : Updated p set table next)
    (same : ∀ row, child (set row) = child row) : Descends child table next := by
  intro row mem
  obtain ⟨old, held, rfl⟩ := of_mem_updated mem updated
  refine ⟨old, held, ?_⟩
  split
  · exact (same old).symm
  · rfl

theorem Persists.update {p : β → Bool} {set : β → β} (updated : Updated p set other after)
    (same : ∀ row, parent (set row) = parent row) : Persists parent other after := by
  intro old held
  refine ⟨if p old then set old else old, updated.mem.mpr ⟨old, held, rfl⟩, ?_⟩
  split
  · exact same old
  · rfl

theorem Persists.insert [DecidableEq ι] {row : β} (done : other.insert row = some after) :
    Persists parent other after :=
  fun old held => ⟨old, ((insert_spec done).2 old).mpr (.inr held), rfl⟩

theorem Refers.insert [DecidableEq κ] {row : α} (refers : Refers child parent table other)
    (done : table.insert row = some next) (target : ∃ target ∈ other, parent target = child row) :
    Refers child parent next other := by
  intro new mem
  rcases ((insert_spec done).2 new).mp mem with rfl | held
  · exact target
  · exact refers new held

end References

end SiliconIam.Theory.Table
