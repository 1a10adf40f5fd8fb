/-
# Theory.Blocks -- addresses in groups and blocks of them

An address is a list of groups of `width` bits, written from the left.  A block is an
address and a length: it covers the addresses that agree with it in that many leading
bits.  Whole groups are compared for equality and the last one by its leading bits, so a
statement about a block is one about single groups.

Programs test the leading bits of a group with a mask; `and_mask` is what the mask does.
-/
import Mathlib.Data.Nat.Bitwise
import Mathlib.Data.List.Basic

namespace SiliconIam.Theory.Blocks

set_option autoImplicit false

/-- An address with the number of its leading bits that count. -/
structure Block where
  base : List Nat
  length : Nat
  deriving DecidableEq, Repr

/-- The addresses that agree in the leading bits. -/
def covers (width : Nat) : Nat → List Nat → List Nat → Bool
  | length, own :: base, group :: groups =>
      if length = 0 then true
      else if width ≤ length then group = own && covers width (length - width) base groups
      else group >>> (width - length) = own >>> (width - length)
  | _, _, _ => true

def Block.contains (block : Block) (width : Nat) (groups : List Nat) : Bool :=
  covers width block.length block.base groups

/-- A mask of the leading bits of a group clears the others. -/
theorem and_mask {n high low : Nat} (bounded : n < 2 ^ (high + low)) :
    n &&& ((2 ^ high - 1) <<< low) = (n >>> low) <<< low := by
  apply Nat.eq_of_testBit_eq
  intro i
  rw [Nat.testBit_and, Nat.testBit_shiftLeft, Nat.testBit_shiftLeft, Nat.testBit_two_pow_sub_one,
    Nat.testBit_shiftRight]
  by_cases below : i < low
  · simp [Nat.not_le.mpr below]
  · have reaches : low ≤ i := Nat.le_of_not_lt below
    rw [Nat.add_sub_cancel' reaches]
    by_cases inside : i < high + low
    · have leading : i - low < high := by omega
      simp [reaches, leading]
    · have clear : n.testBit i = false := by
        apply Nat.testBit_lt_two_pow
        calc n < 2 ^ (high + low) := bounded
          _ ≤ 2 ^ i := Nat.pow_le_pow_right (by omega) (by omega)
      simp [clear]

end SiliconIam.Theory.Blocks
