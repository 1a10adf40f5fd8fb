/-
# Theory.JsonText -- JSON as it is written

`Doc` is a JSON text with everything that its value forgets: the whitespace, the spelling
of strings, the order and the repetition of names.  `render` writes it down byte for
byte, `Valid` says that it is JSON, and `value` is what it stands for.  A program that
edits a text in place is a function on `Doc` that keeps all but the tokens it replaces.

Strings are read by `decode`: escapes are undone, and a surrogate has to come with its
other half.  A number or a name is one token whose own grammar plays no part here.
-/
import SiliconIam.Theory.Hex

namespace SiliconIam.Theory.JsonText

open SiliconIam.Theory.Hex (Bytes)

set_option autoImplicit false

/-! ## Bytes -/

def quote : UInt8 := 34

def backslash : UInt8 := 92

def comma : UInt8 := 44

def colon : UInt8 := 58

def openBrace : UInt8 := 123

def closeBrace : UInt8 := 125

def openBracket : UInt8 := 91

def closeBracket : UInt8 := 93

def isSpace (b : UInt8) : Bool := b = 32 || b = 9 || b = 10 || b = 13

/-- A byte of a number or of `true`, `false` and `null`. -/
def isLiteral (b : UInt8) : Bool :=
  (48 ≤ b && b ≤ 57) || (97 ≤ b && b ≤ 122) || b = 69 || b = 43 || b = 45 || b = 46

/-! ## Strings -/

/-- A piece of a string, before surrogates are put together. -/
inductive CodeUnit where
  | byte (b : UInt8)
  | escaped (unit : Nat)
  deriving DecidableEq, Repr

def simpleEscape (e : UInt8) : Option UInt8 :=
  if e = quote then some quote
  else if e = backslash then some backslash
  else if e = 47 then some 47
  else if e = 98 then some 8
  else if e = 102 then some 12
  else if e = 110 then some 10
  else if e = 114 then some 13
  else if e = 116 then some 9
  else none

def hexUnit (a b c d : UInt8) : Option Nat :=
  match Hex.value a, Hex.value b, Hex.value c, Hex.value d with
  | some a, some b, some c, some d =>
      some (a.toNat * 4096 + b.toNat * 256 + c.toNat * 16 + d.toNat)
  | _, _, _, _ => none

/-- The pieces of what follows an opening quote, up to the closing one, which is last. -/
def lex : Bytes → Option (List CodeUnit)
  | [] => none
  | b :: rest =>
      if b = quote then if rest = [] then some [] else none
      else if b = backslash then
        match rest with
        | [] => none
        | e :: rest =>
            if e = 117 then
              match rest with
              | d₁ :: d₂ :: d₃ :: d₄ :: rest =>
                  match hexUnit d₁ d₂ d₃ d₄ with
                  | some unit => (lex rest).map (CodeUnit.escaped unit :: ·)
                  | none => none
              | _ => none
            else
              match simpleEscape e with
              | some byte => (lex rest).map (CodeUnit.byte byte :: ·)
              | none => none
      else if b < 32 then none
      else (lex rest).map (CodeUnit.byte b :: ·)

def isHighSurrogate (unit : Nat) : Bool := 0xD800 ≤ unit && unit < 0xDC00

def isLowSurrogate (unit : Nat) : Bool := 0xDC00 ≤ unit && unit < 0xE000

def utf8 (code : Nat) : Bytes := String.utf8EncodeChar (Char.ofNat code)

theorem utf8_ascii {b : UInt8} (ascii : b < 128) : utf8 b.toNat = [b] := by
  have small : b.toNat < 128 := ascii
  have value : (Char.ofNat b.toNat).val.toNat = b.toNat := by
    have valid : b.toNat.isValidChar := Or.inl (by omega)
    rw [Char.ofNat, dif_pos valid]
    rfl
  unfold utf8 String.utf8EncodeChar
  rw [value]
  simp only [show b.toNat ≤ 127 by omega, if_true]
  simp

/-- The text of the pieces. -/
def assemble : List CodeUnit → Option Bytes
  | [] => some []
  | .byte b :: rest => (assemble rest).map (b :: ·)
  | .escaped unit :: rest =>
      if isLowSurrogate unit then none
      else if isHighSurrogate unit then
        match rest with
        | .escaped low :: rest =>
            if isLowSurrogate low then
              (assemble rest).map
                (utf8 ((unit - 0xD800) * 1024 + (low - 0xDC00) + 0x10000) ++ ·)
            else none
        | _ => none
      else (assemble rest).map (utf8 unit ++ ·)

/-- The text of a string token without its opening quote. -/
def decode (inner : Bytes) : Option Bytes := (lex inner).bind assemble

/-- A byte that stands for itself in a string. -/
def isPlain (b : UInt8) : Bool := 32 ≤ b && b ≠ quote && b ≠ backslash

def escapeByte (b : UInt8) : Bytes :=
  if b = quote then [backslash, quote]
  else if b = backslash then [backslash, backslash]
  else if b = 8 then [backslash, 98]
  else if b = 12 then [backslash, 102]
  else if b = 10 then [backslash, 110]
  else if b = 13 then [backslash, 114]
  else if b = 9 then [backslash, 116]
  else if b < 32 then [backslash, 117, 48, 48, Hex.digit (b / 16), Hex.digit (b % 16)]
  else [b]

/-- The string token of a text. -/
def encode (text : Bytes) : Bytes := quote :: (text.flatMap escapeByte ++ [quote])

theorem escapeByte_of_isPlain {b : UInt8} (plain : isPlain b = true) : escapeByte b = [b] := by
  simp only [isPlain, Bool.and_eq_true, decide_eq_true_eq, ne_eq] at plain
  obtain ⟨⟨printable, notQuote⟩, notBackslash⟩ := plain
  have control : ¬ b < 32 := UInt8.not_lt.mpr printable
  have other : ∀ c : UInt8, c < 32 → b ≠ c := fun c small same => control (same ▸ small)
  rw [escapeByte, if_neg notQuote, if_neg notBackslash, if_neg (other 8 (by decide)),
    if_neg (other 12 (by decide)), if_neg (other 10 (by decide)), if_neg (other 13 (by decide)),
    if_neg (other 9 (by decide)), if_neg control]

theorem flatMap_escapeByte {text : Bytes} (plain : text.all isPlain = true) :
    text.flatMap escapeByte = text := by
  induction text with
  | nil => rfl
  | cons b text ih =>
      obtain ⟨here, rest⟩ := Bool.and_eq_true_iff.mp plain
      rw [List.flatMap_cons, escapeByte_of_isPlain here, ih rest]
      rfl

theorem lex_plain {text : Bytes} (plain : text.all isPlain = true) :
    lex (text ++ [quote]) = some (text.map CodeUnit.byte) := by
  induction text with
  | nil => rfl
  | cons b text ih =>
      obtain ⟨here, rest⟩ := Bool.and_eq_true_iff.mp plain
      simp only [isPlain, Bool.and_eq_true, decide_eq_true_eq, ne_eq] at here
      rw [List.cons_append]
      unfold lex
      rw [if_neg here.1.2, if_neg here.2, if_neg (UInt8.not_lt.mpr here.1.1), ih rest]
      rfl

theorem assemble_bytes (text : Bytes) : assemble (text.map CodeUnit.byte) = some text := by
  induction text with
  | nil => rfl
  | cons b text ih => rw [List.map_cons, assemble, ih]; rfl

/-- A text of plain bytes is its own spelling. -/
theorem decode_plain {text : Bytes} (plain : text.all isPlain = true) :
    decode (text ++ [quote]) = some text := by
  rw [decode, lex_plain plain, Option.bind_some, assemble_bytes]

/-! ## Documents -/

/-- A name and what is written around it: blank, the token, blank, colon, blank. -/
structure Label where
  before : Bytes
  content : Bytes
  between : Bytes
  after : Bytes
  deriving DecidableEq, Repr

mutual

inductive Doc where
  | literal (text : Bytes)
  | string (content : Bytes)
  | emptyArray (blank : Bytes)
  | array (items : Items)
  | emptyObject (blank : Bytes)
  | object (members : Members)

/-- The elements of an array, each with the blanks around it. -/
inductive Items where
  | last (before : Bytes) (value : Doc) (after : Bytes)
  | more (before : Bytes) (value : Doc) (after : Bytes) (rest : Items)

/-- The members of an object, each with the blanks around it. -/
inductive Members where
  | last (label : Label) (value : Doc) (after : Bytes)
  | more (label : Label) (value : Doc) (after : Bytes) (rest : Members)

end

/-- A string token of a content. -/
def token (content : Bytes) : Bytes := quote :: (content ++ [quote])

def Label.render (label : Label) : Bytes :=
  label.before ++ (token label.content ++ (label.between ++ colon :: label.after))

mutual

def Doc.render : Doc → Bytes
  | .literal text => text
  | .string content => token content
  | .emptyArray blank => openBracket :: (blank ++ [closeBracket])
  | .array items => openBracket :: items.render
  | .emptyObject blank => openBrace :: (blank ++ [closeBrace])
  | .object members => openBrace :: members.render

def Items.render : Items → Bytes
  | .last before value after => before ++ (value.render ++ (after ++ [closeBracket]))
  | .more before value after rest => before ++ (value.render ++ (after ++ comma :: rest.render))

def Members.render : Members → Bytes
  | .last label value after => label.render ++ (value.render ++ (after ++ [closeBrace]))
  | .more label value after rest =>
      label.render ++ (value.render ++ (after ++ comma :: rest.render))

end

/-! ## Validity -/

def Blank (blank : Bytes) : Prop := blank.all isSpace = true

def Label.Valid (label : Label) : Prop :=
  Blank label.before ∧ (decode (label.content ++ [quote])).isSome ∧ Blank label.between ∧
    Blank label.after

mutual

def Doc.Valid : Doc → Prop
  | .literal text => text ≠ [] ∧ text.all isLiteral = true
  | .string content => (decode (content ++ [quote])).isSome
  | .emptyArray blank => Blank blank
  | .array items => items.Valid
  | .emptyObject blank => Blank blank
  | .object members => members.Valid

def Items.Valid : Items → Prop
  | .last before value after => Blank before ∧ value.Valid ∧ Blank after
  | .more before value after rest => Blank before ∧ value.Valid ∧ Blank after ∧ rest.Valid

def Members.Valid : Members → Prop
  | .last label value after => label.Valid ∧ value.Valid ∧ Blank after
  | .more label value after rest => label.Valid ∧ value.Valid ∧ Blank after ∧ rest.Valid

end

/-! ## Values -/

/-- A JSON value, with the members of an object in order. -/
inductive Value where
  | literal (text : Bytes)
  | string (text : Bytes)
  | array (items : List Value)
  | object (members : List (Bytes × Value))

/-- The text of a string that can be read. -/
def textOf (content : Bytes) : Bytes := (decode (content ++ [quote])).getD []

mutual

def Doc.value : Doc → Value
  | .literal text => .literal text
  | .string content => .string (textOf content)
  | .emptyArray _ => .array []
  | .array items => .array items.values
  | .emptyObject _ => .object []
  | .object members => .object members.values

def Items.values : Items → List Value
  | .last _ value _ => [value.value]
  | .more _ value _ rest => value.value :: rest.values

def Members.values : Members → List (Bytes × Value)
  | .last label value _ => [(textOf label.content, value.value)]
  | .more label value _ rest => (textOf label.content, value.value) :: rest.values

end

end SiliconIam.Theory.JsonText
