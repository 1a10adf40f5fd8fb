/-
# Domain.Uuid -- the UUID crate, as the identifier code sees it

A `Uuid` is sixteen bytes.  Parsing and printing belong to a crate outside this
repository, so they are a parameter (`UuidCrate`); what the identifier code
relies on is the crate's documented behaviour, `UuidCrate.Documented`: text is
read exactly when it is one of the four documented spellings of a UUID
(`Spells`: simple, hyphenated, braced and URN, digits of either case), and a
UUID prints as its lowercase hyphenated spelling.

`reference` is one implementation with that behaviour, so the assumption can be
met (`reference_documented`), and it computes.
-/
import SiliconIam.Theory.Hex

namespace SiliconIam.Domain

open SiliconIam.Theory.Hex (Bytes ascii)

set_option autoImplicit false

/-- Sixteen opaque bytes. -/
structure Uuid where
  bytes : Bytes
  length_eq : bytes.length = 16
deriving DecidableEq

theorem Uuid.ext_bytes {u v : Uuid} (same : u.bytes = v.bytes) : u = v := by
  cases u; cases v; simpa using same

variable {text : Bytes}

namespace Uuid

/-- The hyphen between the groups of the hyphenated spelling. -/
def hyphen : UInt8 := 45

/-- Split one group of `n` symbols and the hyphen after it off the front. -/
def takeGroup (n : Nat) (text : Bytes) : Option (Bytes × Bytes) :=
  if (text.take n).length = n ∧ (text.drop n).head? = some hyphen then
    some (text.take n, text.drop (n + 1))
  else none

theorem takeGroup_eq_some_iff {n : Nat} {group rest : Bytes} :
    takeGroup n text = some (group, rest) ↔
      group.length = n ∧ text = group ++ hyphen :: rest := by
  unfold takeGroup
  constructor
  · intro split
    obtain ⟨h, split⟩ := Option.ite_none_right_eq_some.mp split
    obtain ⟨rfl, rfl⟩ := split
    refine ⟨h.1, ?_⟩
    obtain ⟨tail, drop⟩ : ∃ tail, text.drop n = hyphen :: tail := by
      cases hd : text.drop n with
      | nil => simp [hd] at h
      | cons c tail =>
          rw [hd, List.head?_cons, Option.some.injEq] at h
          exact ⟨tail, by rw [h.2]⟩
    have after : text.drop (n + 1) = tail := by
      rw [← List.drop_drop, drop, List.drop_one, List.tail_cons]
    rw [after, ← drop, List.take_append_drop]
  · rintro ⟨rfl, rfl⟩
    simp

/-- The 32 digits of an 8-4-4-4-12 text. -/
def ungroup (text : Bytes) : Option Bytes := do
  let (a, text) ← takeGroup 8 text
  let (b, text) ← takeGroup 4 text
  let (c, text) ← takeGroup 4 text
  let (d, text) ← takeGroup 4 text
  if text.length = 12 then some (a ++ (b ++ (c ++ (d ++ text)))) else none

/-- 32 digits as an 8-4-4-4-12 text. -/
def group (digits : Bytes) : Bytes :=
  digits.take 8 ++ hyphen :: ((digits.drop 8).take 4 ++ hyphen ::
    ((digits.drop 12).take 4 ++ hyphen :: ((digits.drop 16).take 4 ++ hyphen :: digits.drop 20)))

theorem ungroup_group {digits : Bytes} (length : digits.length = 32) :
    ungroup (group digits) = some digits := by
  have split : ∀ n m, (digits.drop n).take m ++ digits.drop (n + m) = digits.drop n := by
    intro n m
    rw [← List.drop_drop, List.take_append_drop]
  have first : ∀ (n : Nat) (g rest : Bytes), g.length = n →
      takeGroup n (g ++ hyphen :: rest) = some (g, rest) :=
    fun n g rest h => takeGroup_eq_some_iff.mpr ⟨h, rfl⟩
  unfold ungroup group
  rw [first 8 _ _ (by simp [length])]
  simp only [Option.bind_eq_bind, Option.bind_some]
  rw [first 4 _ _ (by simp [length])]
  simp only [Option.bind_some]
  rw [first 4 _ _ (by simp [length])]
  simp only [Option.bind_some]
  rw [first 4 _ _ (by simp [length])]
  simp only [Option.bind_some]
  rw [if_pos (by simp [length]), split 16 4, split 12 4, split 8 4, List.take_append_drop]

theorem ungroup_length {digits : Bytes} (read : ungroup text = some digits) :
    text.length = 36 ∧ digits.length = 32 := by
  unfold ungroup at read
  simp only [Option.bind_eq_bind, Option.bind_eq_some_iff, Prod.exists] at read
  obtain ⟨a, t₁, h₁, b, t₂, h₂, c, t₃, h₃, d, t₄, h₄, last⟩ := read
  obtain ⟨la, rfl⟩ := takeGroup_eq_some_iff.mp h₁
  obtain ⟨lb, rfl⟩ := takeGroup_eq_some_iff.mp h₂
  obtain ⟨lc, rfl⟩ := takeGroup_eq_some_iff.mp h₃
  obtain ⟨ld, rfl⟩ := takeGroup_eq_some_iff.mp h₄
  split at last
  · simp only [Option.some.injEq] at last
    subst last
    simp only [List.length_append, List.length_cons]
    omega
  · simp at last

/-- The marks around the braced spelling, and the opening of the URN one. -/
def openBrace : Bytes := [123]

def closeBrace : Bytes := [125]

def urnPrefix : Bytes := ascii "urn:uuid:"

/-- `text` spells `u` in one of the four documented formats. -/
inductive Spells : Bytes → Uuid → Prop
  | simple {text : Bytes} {u : Uuid} (digits : Theory.Hex.decode text = some u.bytes) :
      Spells text u
  | hyphenated {text digits : Bytes} {u : Uuid} (groups : ungroup text = some digits)
      (read : Theory.Hex.decode digits = some u.bytes) : Spells text u
  | braced {text digits : Bytes} {u : Uuid} (groups : ungroup text = some digits)
      (read : Theory.Hex.decode digits = some u.bytes) : Spells (openBrace ++ text ++ closeBrace) u
  | urn {text digits : Bytes} {u : Uuid} (groups : ungroup text = some digits)
      (read : Theory.Hex.decode digits = some u.bytes) : Spells (urnPrefix ++ text) u

/-! ## The spellings as texts -/

/-- 32 hexadecimal digits of either case. -/
def simpleText (text : Bytes) : Bool :=
  text.length = 32 && text.all fun c => (Theory.Hex.value c).isSome

/-- Hexadecimal digits of either case in groups of 8-4-4-4-12. -/
def hyphenatedText (text : Bytes) : Bool :=
  match ungroup text with
  | some digits => digits.all fun c => (Theory.Hex.value c).isSome
  | none => false

theorem exists_decode_of_digits {digits : Bytes} (length : digits.length = 32)
    (all : ∀ c ∈ digits, (Theory.Hex.value c).isSome) :
    ∃ u : Uuid, Theory.Hex.decode digits = some u.bytes := by
  obtain ⟨bytes, read⟩ := Theory.Hex.decode_of_symbols (n := 16) length all
  have := Theory.Hex.decode_length read
  exact ⟨⟨bytes, by omega⟩, read⟩

theorem simpleText_iff :
    simpleText text = true ↔ ∃ u : Uuid, Theory.Hex.decode text = some u.bytes := by
  simp only [simpleText, Bool.and_eq_true, decide_eq_true_eq, List.all_eq_true]
  constructor
  · rintro ⟨length, all⟩
    exact exists_decode_of_digits length all
  · rintro ⟨u, read⟩
    have := Theory.Hex.decode_length read
    exact ⟨by rw [this, u.length_eq], fun c mem => Theory.Hex.decode_symbols read mem⟩

theorem hyphenatedText_iff :
    hyphenatedText text = true ↔
      ∃ digits, ungroup text = some digits ∧
        ∃ u : Uuid, Theory.Hex.decode digits = some u.bytes := by
  unfold hyphenatedText
  constructor
  · intro shaped
    split at shaped
    · rename_i digits groups
      simp only [List.all_eq_true] at shaped
      exact ⟨digits, groups, exists_decode_of_digits (ungroup_length groups).2 shaped⟩
    · simp at shaped
  · rintro ⟨digits, groups, u, read⟩
    simp only [groups, List.all_eq_true]
    exact fun c mem => Theory.Hex.decode_symbols read mem

/-- The four formats, told apart by their text alone. -/
theorem spells_iff :
    (∃ u, Spells text u) ↔
      simpleText text = true ∨ hyphenatedText text = true ∨
        (∃ inner, text = openBrace ++ inner ++ closeBrace ∧ hyphenatedText inner = true) ∨
        ∃ inner, text = urnPrefix ++ inner ∧ hyphenatedText inner = true := by
  constructor
  · rintro ⟨u, spells⟩
    cases spells with
    | simple digits => exact .inl (simpleText_iff.mpr ⟨u, digits⟩)
    | hyphenated groups read => exact .inr (.inl (hyphenatedText_iff.mpr ⟨_, groups, u, read⟩))
    | braced groups read =>
        exact .inr (.inr (.inl ⟨_, rfl, hyphenatedText_iff.mpr ⟨_, groups, u, read⟩⟩))
    | urn groups read =>
        exact .inr (.inr (.inr ⟨_, rfl, hyphenatedText_iff.mpr ⟨_, groups, u, read⟩⟩))
  · rintro (simple | hyphenated | ⟨inner, rfl, hyphenated⟩ | ⟨inner, rfl, hyphenated⟩)
    · obtain ⟨u, read⟩ := simpleText_iff.mp simple
      exact ⟨u, .simple read⟩
    · obtain ⟨digits, groups, u, read⟩ := hyphenatedText_iff.mp hyphenated
      exact ⟨u, .hyphenated groups read⟩
    · obtain ⟨digits, groups, u, read⟩ := hyphenatedText_iff.mp hyphenated
      exact ⟨u, .braced groups read⟩
    · obtain ⟨digits, groups, u, read⟩ := hyphenatedText_iff.mp hyphenated
      exact ⟨u, .urn groups read⟩

end Uuid

/-- The two operations of the UUID crate that the repository calls. -/
structure UuidCrate where
  parseStr : Bytes → Option Uuid
  display : Uuid → Bytes

/-- What the crate's documentation promises of them. -/
structure UuidCrate.Documented (crate : UuidCrate) : Prop where
  parses : ∀ text u, crate.parseStr text = some u ↔ Uuid.Spells text u
  prints : ∀ u, crate.display u = Uuid.group (Theory.Hex.encode u.bytes)

theorem UuidCrate.Documented.round_trip {crate : UuidCrate} (documented : crate.Documented)
    (u : Uuid) : crate.parseStr (crate.display u) = some u := by
  rw [documented.parses, documented.prints]
  exact .hyphenated (Uuid.ungroup_group (by simp [u.length_eq])) (Theory.Hex.decode_encode _)

/-! ## One implementation -/

namespace Uuid

def ofBytes (bytes : Bytes) : Option Uuid :=
  if length : bytes.length = 16 then some ⟨bytes, length⟩ else none

def readSimple (text : Bytes) : Option Uuid := (Theory.Hex.decode text).bind ofBytes

def readHyphenated (text : Bytes) : Option Uuid := (ungroup text).bind readSimple

theorem readSimple_eq_some_iff {u : Uuid} :
    readSimple text = some u ↔ Theory.Hex.decode text = some u.bytes := by
  simp only [readSimple, Option.bind_eq_some_iff, ofBytes]
  constructor
  · rintro ⟨bytes, read, length⟩
    split at length
    · simp only [Option.some.injEq] at length
      subst length
      exact read
    · simp at length
  · intro read
    exact ⟨u.bytes, read, by simp [u.length_eq]⟩

theorem readHyphenated_eq_some_iff {u : Uuid} :
    readHyphenated text = some u ↔
      ∃ digits, ungroup text = some digits ∧ Theory.Hex.decode digits = some u.bytes := by
  simp only [readHyphenated, Option.bind_eq_some_iff, readSimple_eq_some_iff]

/-- Parsing by the length of the text, as the documented formats allow. -/
def referenceParse (text : Bytes) : Option Uuid :=
  if text.length = 32 then readSimple text
  else if text.length = 36 then readHyphenated text
  else if text.take 1 = openBrace ∧ text.drop 37 = closeBrace then
    readHyphenated ((text.drop 1).take 36)
  else if text.take 9 = urnPrefix then readHyphenated (text.drop 9)
  else none

def reference : UuidCrate where
  parseStr := referenceParse
  display u := group (Theory.Hex.encode u.bytes)

theorem referenceParse_sound {u : Uuid} (read : referenceParse text = some u) :
    Spells text u := by
  unfold referenceParse at read
  split at read
  · exact .simple (readSimple_eq_some_iff.mp read)
  · split at read
    · obtain ⟨digits, groups, read⟩ := readHyphenated_eq_some_iff.mp read
      exact .hyphenated groups read
    · split at read
      · rename_i braces
        obtain ⟨digits, groups, read⟩ := readHyphenated_eq_some_iff.mp read
        have whole : text = openBrace ++ (text.drop 1).take 36 ++ closeBrace := by
          conv_lhs => rw [← List.take_append_drop 1 text, ← List.take_append_drop 36 (text.drop 1)]
          rw [braces.1, List.drop_drop, braces.2, List.append_assoc]
        rw [whole]
        exact .braced groups read
      · obtain ⟨urn, read⟩ := Option.ite_none_right_eq_some.mp read
        obtain ⟨digits, groups, read⟩ := readHyphenated_eq_some_iff.mp read
        rw [← List.take_append_drop 9 text, urn]
        exact .urn groups read

theorem referenceParse_complete {u : Uuid} (spells : Spells text u) :
    referenceParse text = some u := by
  have length : ∀ {inner digits : Bytes}, ungroup inner = some digits → inner.length = 36 :=
    fun groups => (ungroup_length groups).1
  cases spells with
  | simple digits =>
      have := Theory.Hex.decode_length digits
      rw [u.length_eq] at this
      rw [referenceParse, if_pos this]
      exact readSimple_eq_some_iff.mpr digits
  | hyphenated groups read =>
      rw [referenceParse, if_neg (by rw [length groups]; decide), if_pos (length groups)]
      exact readHyphenated_eq_some_iff.mpr ⟨_, groups, read⟩
  | @braced inner digits _ groups read =>
      have whole : (openBrace ++ inner ++ closeBrace).length = 38 := by
        simp only [List.length_append, length groups]
        rfl
      rw [referenceParse, if_neg (by rw [whole]; decide), if_neg (by rw [whole]; decide),
        if_pos (by constructor <;> simp [openBrace, closeBrace, length groups])]
      have middle : ((openBrace ++ inner ++ closeBrace).drop 1).take 36 = inner := by
        simp [openBrace, closeBrace, ← length groups]
      rw [middle]
      exact readHyphenated_eq_some_iff.mpr ⟨_, groups, read⟩
  | @urn inner digits _ groups read =>
      have whole : (urnPrefix ++ inner).length = 45 := by
        simp only [List.length_append, length groups]
        rfl
      have opening : (urnPrefix ++ inner).take 1 ≠ openBrace := by
        rw [List.take_append_of_le_length (by decide)]
        decide
      rw [referenceParse, if_neg (by rw [whole]; decide), if_neg (by rw [whole]; decide),
        if_neg (fun braces => opening braces.1), if_pos (by simp [ascii, urnPrefix])]
      exact readHyphenated_eq_some_iff.mpr ⟨_, groups, read⟩

/-- The assumption on the crate can be met. -/
theorem reference_documented : reference.Documented where
  parses _ _ := ⟨referenceParse_sound, referenceParse_complete⟩
  prints _ := rfl

end Uuid

end SiliconIam.Domain
