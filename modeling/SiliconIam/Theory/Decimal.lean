/-
# Theory.Decimal -- decimal text of integers, as a program prints and reads it

`decimal` prints a natural number without leading zeros and `ofInt` an integer
with its sign; `readInt` reads an optional sign and any digits, leading zeros
included, so several texts are read as one number and only one of them is
printed.  `readInt_ofInt` is the round trip; a reader that compares the printed
number with its input accepts the printed text only.
-/
import SiliconIam.Theory.Hex
import Mathlib.Tactic.IntervalCases

namespace SiliconIam.Theory.Decimal

open SiliconIam.Theory.Hex (Bytes)

set_option autoImplicit false

/-- The digit of a number below ten. -/
def digit (n : Nat) : UInt8 := UInt8.ofNat (48 + n)

def isDigit (c : UInt8) : Bool := 48 ≤ c && c ≤ 57

/-- The last `fuel` digits; every number has fewer digits than its successor counts. -/
def lastDigits : Nat → Nat → Bytes
  | 0, _ => []
  | fuel + 1, n => if n < 10 then [digit n] else lastDigits fuel (n / 10) ++ [digit (n % 10)]

def decimal (n : Nat) : Bytes := lastDigits (n + 1) n

def ofInt (n : Int) : Bytes :=
  if n < 0 then 45 :: decimal n.natAbs else decimal n.natAbs

def readDigit (sum : Nat) (c : UInt8) : Nat := 10 * sum + (c.toNat - 48)

def readNat (digits : Bytes) : Option Nat :=
  if digits ≠ [] ∧ digits.all isDigit then some (digits.foldl readDigit 0) else none

/-- An optional sign and digits. -/
def readInt : Bytes → Option Int
  | 45 :: digits => (readNat digits).map fun n : Nat => -(n : Int)
  | 43 :: digits => (readNat digits).map Int.ofNat
  | digits => (readNat digits).map Int.ofNat

theorem digit_spec {n : Nat} (small : n < 10) :
    isDigit (digit n) = true ∧ (digit n).toNat - 48 = n ∧ digit n ≠ 45 ∧ digit n ≠ 43 := by
  interval_cases n <;> decide

theorem lastDigits_digits (fuel n : Nat) : (lastDigits fuel n).all isDigit = true := by
  induction fuel generalizing n with
  | zero => rfl
  | succ fuel ih =>
      rw [lastDigits]
      split
      · rename_i small
        simp [digit_spec small]
      · have small : n % 10 < 10 := by omega
        simp only [List.all_append, ih, List.all_cons, List.all_nil, Bool.and_true, Bool.true_and]
        exact (digit_spec small).1

theorem foldl_lastDigits {fuel n : Nat} (enough : n < fuel) :
    (lastDigits fuel n).foldl readDigit 0 = n := by
  induction fuel generalizing n with
  | zero => omega
  | succ fuel ih =>
      rw [lastDigits]
      split
      · rename_i small
        simp [readDigit, digit_spec small]
      · have small : n % 10 < 10 := by omega
        rw [List.foldl_append, ih (by omega)]
        simp only [List.foldl_cons, List.foldl_nil, readDigit, digit_spec small]
        omega

theorem lastDigits_ne_nil (fuel n : Nat) : lastDigits (fuel + 1) n ≠ [] := by
  rw [lastDigits]
  split <;> simp

theorem readNat_decimal (n : Nat) : readNat (decimal n) = some n := by
  rw [readNat, decimal, if_pos ⟨lastDigits_ne_nil n n, lastDigits_digits _ _⟩,
    foldl_lastDigits (Nat.lt_succ_self n)]

theorem readInt_ofInt (n : Int) : readInt (ofInt n) = some n := by
  rw [ofInt]
  split
  · rw [readInt, readNat_decimal, Option.map_some]
    congr 1
    omega
  · have reads := readNat_decimal n.natAbs
    cases text : decimal n.natAbs with
    | nil => exact absurd text (lastDigits_ne_nil _ _)
    | cons c rest =>
        have first : isDigit c = true := by
          have all := lastDigits_digits (n.natAbs + 1) n.natAbs
          rw [← decimal, text] at all
          simp only [List.all_cons, Bool.and_eq_true] at all
          exact all.1
        have minus : c ≠ 45 := by
          rintro rfl
          exact absurd first (by decide)
        have plus : c ≠ 43 := by
          rintro rfl
          exact absurd first (by decide)
        rw [text] at reads
        have same : readInt (c :: rest) = (readNat (c :: rest)).map Int.ofNat := by
          rw [readInt]
          · rintro digits same
            cases same
            exact minus rfl
          · rintro digits same
            cases same
            exact plus rfl
        rw [same, reads, Option.map_some]
        congr 1
        simp only [Int.ofNat_eq_natCast]
        omega

end SiliconIam.Theory.Decimal
