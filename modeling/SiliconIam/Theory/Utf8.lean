/-
# Theory.Utf8 -- slicing text by byte offsets

Programs that keep text as UTF-8 slice it by byte offset, and a slice that would cut a
character fails.  `encode` is the bytes of a text, `isCharBoundary` where it can be cut,
and `sliceFrom` and `sliceTo` the two slices, without an answer where the program would
stop.

No first byte of a character is a continuation byte, so a text that begins with ASCII
can be cut behind it (`isCharBoundary_of_ascii`).  That needs the bytes to come from a
text: the same is false of byte strings.
-/
import SiliconIam.Theory.Hex

namespace SiliconIam.Theory.Utf8

open SiliconIam.Theory.Hex (Bytes)

set_option autoImplicit false

/-- The bytes of a text. -/
def encode (text : List Char) : Bytes := text.flatMap String.utf8EncodeChar

def isAscii (b : UInt8) : Bool := b < 128

/-- A byte that does not begin a character. -/
def isContinuation (b : UInt8) : Bool := 128 ≤ b && b < 192

def isCharBoundary (bytes : Bytes) (index : Nat) : Bool :=
  if index = 0 then true
  else
    match bytes[index]? with
    | some b => !isContinuation b
    | none => index = bytes.length

/-- What follows the offset. -/
def sliceFrom (bytes : Bytes) (index : Nat) : Option Bytes :=
  if isCharBoundary bytes index then some (bytes.drop index) else none

/-- What comes before the offset. -/
def sliceTo (bytes : Bytes) (index : Nat) : Option Bytes :=
  if isCharBoundary bytes index then some (bytes.take index) else none

theorem not_isContinuation_of_isAscii {b : UInt8} (ascii : isAscii b = true) :
    isContinuation b = false := by
  have small : b < 128 := of_decide_eq_true ascii
  simp [isContinuation, UInt8.not_le.mpr small]

theorem isContinuation_ofNat {n : Nat} (byte : n < 256) :
    isContinuation (UInt8.ofNat n) = decide (128 ≤ n ∧ n < 192) := by
  have value : (UInt8.ofNat n).toNat = n := by
    rw [UInt8.toNat_ofNat']
    omega
  rw [isContinuation, Bool.eq_iff_iff, Bool.and_eq_true, decide_eq_true_eq, decide_eq_true_eq,
    decide_eq_true_eq, UInt8.le_iff_toNat_le, UInt8.lt_iff_toNat_lt, value]
  rfl

theorem isAscii_ofNat {n : Nat} (byte : n < 256) :
    isAscii (UInt8.ofNat n) = decide (n < 128) := by
  have value : (UInt8.ofNat n).toNat = n := by
    rw [UInt8.toNat_ofNat']
    omega
  rw [isAscii, Bool.eq_iff_iff, decide_eq_true_eq, decide_eq_true_eq, UInt8.lt_iff_toNat_lt, value]
  rfl

/-- A leading byte outside ASCII. -/
theorem lead {n : Nat} (low : 192 ≤ n) (byte : n < 256) (rest : Bytes) :
    ∃ b tail, UInt8.ofNat n :: rest = b :: tail ∧ isContinuation b = false ∧
      (isAscii b = true → tail = []) := by
  refine ⟨_, _, rfl, ?_, ?_⟩
  · rw [isContinuation_ofNat byte, decide_eq_false_iff_not]
    omega
  · intro ascii
    rw [isAscii_ofNat byte, decide_eq_true_eq] at ascii
    omega

/-- A character begins with a byte that says so, and one that begins with ASCII is that
byte. -/
theorem encodeChar_head (c : Char) :
    ∃ b rest, String.utf8EncodeChar c = b :: rest ∧ isContinuation b = false ∧
      (isAscii b = true → rest = []) := by
  unfold String.utf8EncodeChar
  by_cases one : c.val.toNat ≤ 127
  · rw [if_pos one]
    refine ⟨_, [], rfl, ?_, fun _ => rfl⟩
    rw [isContinuation_ofNat (by omega), decide_eq_false_iff_not]
    omega
  · rw [if_neg one]
    split
    · exact lead (by omega) (by omega) _
    · split
      · exact lead (by omega) (by omega) _
      · exact lead (by omega) (by omega) _

theorem encode_cons (c : Char) (text : List Char) :
    encode (c :: text) = String.utf8EncodeChar c ++ encode text := by
  rfl

/-- A text does not begin within a character. -/
theorem encode_head {text : List Char} {b : UInt8} {rest : Bytes} (first : encode text = b :: rest) :
    isContinuation b = false := by
  cases text with
  | nil => cases first
  | cons c text =>
      obtain ⟨head, tail, bytes, begins, -⟩ := encodeChar_head c
      rw [encode_cons, bytes] at first
      cases first
      exact begins

/-- Behind leading ASCII the rest is a text again. -/
theorem encode_of_ascii {text : List Char} {front rest : Bytes}
    (split : encode text = front ++ rest) (ascii : front.all isAscii = true) :
    ∃ later, encode later = rest := by
  induction front generalizing text with
  | nil => exact ⟨text, split⟩
  | cons b front ih =>
      obtain ⟨here, ascii⟩ := Bool.and_eq_true_iff.mp ascii
      cases text with
      | nil => cases split
      | cons c text =>
          obtain ⟨head, tail, bytes, -, single⟩ := encodeChar_head c
          rw [encode_cons, bytes] at split
          obtain ⟨same, split⟩ := List.cons.inj split
          rw [single (same ▸ here)] at split
          exact ih split ascii

/-- A text can be cut behind leading ASCII. -/
theorem isCharBoundary_of_ascii {text : List Char} {front rest : Bytes}
    (split : encode text = front ++ rest) (ascii : front.all isAscii = true) :
    isCharBoundary (encode text) front.length = true := by
  obtain ⟨later, same⟩ := encode_of_ascii split ascii
  unfold isCharBoundary
  by_cases start : front.length = 0
  · rw [if_pos start]
  · rw [if_neg start, split, List.getElem?_append_right (Nat.le_refl _), Nat.sub_self]
    cases rest with
    | nil => simp
    | cons b rest =>
        have begins := encode_head same
        simp [begins]

/-- An ASCII text can be cut anywhere. -/
theorem isCharBoundary_of_all {bytes : Bytes} (ascii : bytes.all isAscii = true) {index : Nat}
    (within : index ≤ bytes.length) : isCharBoundary bytes index = true := by
  unfold isCharBoundary
  split
  · rfl
  · cases found : bytes[index]? with
    | some b =>
        have here := List.all_eq_true.mp ascii b (List.mem_of_getElem? found)
        simp [not_isContinuation_of_isAscii here]
    | none =>
        have past := List.getElem?_eq_none_iff.mp found
        simp only [decide_eq_true_eq]
        omega

end SiliconIam.Theory.Utf8
