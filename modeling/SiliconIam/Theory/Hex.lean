/-
# Theory.Hex -- byte strings and their hexadecimal text

Byte strings are lists of bytes.  `encode` writes two lowercase digits a byte;
`decode` reads digits of either case and refuses odd lengths and any other
symbol (`decode_symbols`, `decode_of_symbols`).  `decode_encode` is the round
trip, and `encode_digits` says that what is written is lowercase digits only.
-/
import Mathlib.Data.List.Basic

namespace SiliconIam.Theory.Hex

set_option autoImplicit false

/-- A byte string. -/
abbrev Bytes := List UInt8

/-- The bytes of an ASCII literal. -/
def ascii (text : String) : Bytes := text.toList.map fun c => c.val.toUInt8

/-- A property of bytes that holds of all 256 of them holds of every byte. -/
theorem forall_byte {P : UInt8 → Prop} (all : ∀ n : Fin 256, P (UInt8.ofFin n)) (b : UInt8) :
    P b := all b.toFin

/-- The lowercase digit of a value below sixteen. -/
def digit (n : UInt8) : UInt8 := if n < 10 then 48 + n else 87 + n

/-- `0-9`, `a-f` and `A-F`, as values. -/
def value (c : UInt8) : Option UInt8 :=
  if 48 ≤ c ∧ c ≤ 57 then some (c - 48)
  else if 97 ≤ c ∧ c ≤ 102 then some (c - 87)
  else if 65 ≤ c ∧ c ≤ 70 then some (c - 55)
  else none

/-- A lowercase hexadecimal digit, as `encode` writes them. -/
def IsDigit (c : UInt8) : Prop := (48 ≤ c ∧ c ≤ 57) ∨ (97 ≤ c ∧ c ≤ 102)

instance : DecidablePred IsDigit := fun c => by unfold IsDigit; infer_instance

def encode : Bytes → Bytes
  | [] => []
  | b :: rest => digit (b / 16) :: digit (b % 16) :: encode rest

def decode : Bytes → Option Bytes
  | [] => some []
  | [_] => none
  | hi :: lo :: rest => do
      let h ← value hi
      let l ← value lo
      let tail ← decode rest
      pure ((h * 16 + l) :: tail)

set_option maxRecDepth 20000 in
theorem value_digits (b : UInt8) :
    value (digit (b / 16)) = some (b / 16) ∧ value (digit (b % 16)) = some (b % 16) ∧
      b / 16 * 16 + b % 16 = b := by
  revert b
  apply forall_byte
  decide

set_option maxRecDepth 20000 in
theorem isDigit_digits (b : UInt8) : IsDigit (digit (b / 16)) ∧ IsDigit (digit (b % 16)) := by
  revert b
  apply forall_byte
  decide

@[simp] theorem encode_length (bytes : Bytes) : (encode bytes).length = 2 * bytes.length := by
  induction bytes with
  | nil => rfl
  | cons b rest ih => simp only [encode, List.length_cons, ih]; omega

@[simp] theorem decode_encode (bytes : Bytes) : decode (encode bytes) = some bytes := by
  induction bytes with
  | nil => rfl
  | cons b rest ih =>
      obtain ⟨hi, lo, byte⟩ := value_digits b
      simp [encode, decode, hi, lo, byte, ih]

theorem encode_digits {bytes : Bytes} {c : UInt8} (mem : c ∈ encode bytes) : IsDigit c := by
  induction bytes with
  | nil => simp [encode] at mem
  | cons b rest ih =>
      obtain ⟨hi, lo⟩ := isDigit_digits b
      simp only [encode, List.mem_cons] at mem
      rcases mem with rfl | rfl | mem
      · exact hi
      · exact lo
      · exact ih mem

theorem decode_length {text bytes : Bytes} (read : decode text = some bytes) :
    text.length = 2 * bytes.length := by
  induction text using decode.induct generalizing bytes with
  | case1 => simp_all [decode]
  | case2 => simp [decode] at read
  | case3 hi lo rest ih =>
      simp only [decode, Option.bind_eq_bind, Option.bind_eq_some_iff, Option.pure_def,
        Option.some.injEq] at read
      obtain ⟨h, -, l, -, tail, below, rfl⟩ := read
      have := ih below
      simp only [List.length_cons]
      omega

/-- What can be read is digits only, of either case. -/
theorem decode_symbols {text bytes : Bytes} (read : decode text = some bytes) {c : UInt8}
    (mem : c ∈ text) : (value c).isSome := by
  induction text using decode.induct generalizing bytes with
  | case1 => simp at mem
  | case2 => simp [decode] at read
  | case3 hi lo rest ih =>
      simp only [decode, Option.bind_eq_bind, Option.bind_eq_some_iff, Option.pure_def,
        Option.some.injEq] at read
      obtain ⟨h, hiValue, l, loValue, tail, below, rfl⟩ := read
      simp only [List.mem_cons] at mem
      rcases mem with rfl | rfl | mem
      · simp [hiValue]
      · simp [loValue]
      · exact ih below mem

/-- An even number of digits can be read. -/
theorem decode_of_symbols {text : Bytes} {n : Nat} (length : text.length = 2 * n)
    (symbols : ∀ c ∈ text, (value c).isSome) : ∃ bytes, decode text = some bytes := by
  induction text using decode.induct generalizing n with
  | case1 => exact ⟨[], rfl⟩
  | case2 => simp only [List.length_cons, List.length_nil] at length; omega
  | case3 hi lo rest ih =>
      simp only [List.length_cons] at length
      obtain ⟨h, hiValue⟩ := Option.isSome_iff_exists.mp (symbols hi (by simp))
      obtain ⟨l, loValue⟩ := Option.isSome_iff_exists.mp (symbols lo (by simp))
      obtain ⟨tail, below⟩ := ih (n := n - 1) (by omega)
        fun c mem => symbols c (List.mem_cons_of_mem _ (List.mem_cons_of_mem _ mem))
      exact ⟨(h * 16 + l) :: tail, by simp [decode, hiValue, loValue, below]⟩

end SiliconIam.Theory.Hex
