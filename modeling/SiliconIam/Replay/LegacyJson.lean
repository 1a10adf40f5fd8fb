/-
# Replay.LegacyJson -- rewriting a request body for its historical digest

`legacyJson` goes over the bytes of a request once.  It keeps the depth, the last key it
saw and no tree, copies everything but the tokens it replaces, and gives the input back
if a string in it cannot be read.

On a JSON object it renames the three job description members, writes the legacy id for
the value of a member that `identityField` names, unless that member is `id`, `carbon_id`
or `silicon_id`, and keeps every other byte (`legacyJson_object`).  `legacy` is the same
edit on the document, and `legacy_values` says what it does to the object's value.
-/
import SiliconIam.Domain.Uuid
import SiliconIam.Theory.JsonText

namespace SiliconIam.Replay

open SiliconIam.Theory
open SiliconIam.Theory.Hex (Bytes ascii)
open SiliconIam.Theory.JsonText
open SiliconIam.Domain (Uuid UuidCrate)

set_option autoImplicit false

/-! ## The scanner -/

/-- `identity_field`. -/
def identityField (key : Bytes) : Bool :=
  !(ascii "encryption_").isPrefixOf key &&
    (key = ascii "id" || key = ascii "application_id" || key = ascii "source_application_id" ||
      key = ascii "subject_id" || key = ascii "actor_id" || key = ascii "target_id" ||
      key = ascii "created_by_carbon_id" || (ascii "principal_id").isSuffixOf key ||
      (ascii "_application_id").isSuffixOf key || key = ascii "carbon_id" ||
      key = ascii "silicon_id")

/-- What follows an opening quote up to its closing one, and the rest. -/
def scanString : Bytes → Bytes × Bytes
  | [] => ([], [])
  | b :: rest =>
      if b = backslash then
        match rest with
        | [] => ([b], [])
        | e :: rest => (b :: e :: (scanString rest).1, (scanString rest).2)
      else if b = quote then ([b], rest)
      else (b :: (scanString rest).1, (scanString rest).2)

theorem scanString_length (text : Bytes) : (scanString text).2.length ≤ text.length := by
  fun_induction scanString text with
  | case1 => exact Nat.le_refl 0
  | case2 => exact Nat.zero_le _
  | case3 e rest ih => exact Nat.le_add_right_of_le (Nat.le_add_right_of_le ih)
  | case4 rest notEscape => exact Nat.le_succ _
  | case5 b rest notEscape notQuote ih => exact Nat.le_add_right_of_le ih

def isAsciiWhitespace (b : UInt8) : Bool := b = 32 || b = 9 || b = 10 || b = 12 || b = 13

/-- A string is a key if a colon comes next. -/
def isKey (rest : Bytes) : Bool := rest.find? (fun b => !isAsciiWhitespace b) = some colon

def renamed (name : Bytes) : Option Bytes :=
  if name = ascii "job_description" then some (ascii "job_role")
  else if name = ascii "old_job_description" then some (ascii "old_job_role")
  else if name = ascii "new_job_description" then some (ascii "new_job_role")
  else none

/-- The keys whose values are left alone although they name an identity. -/
def keptField (key : Bytes) : Bool :=
  key = ascii "id" || key = ascii "carbon_id" || key = ascii "silicon_id"

def deeper (depth : Nat) (b : UInt8) : Nat :=
  if b = openBrace ∨ b = openBracket then depth + 1
  else if b = closeBrace ∨ b = closeBracket then depth - 1
  else depth

section

variable (crate : UuidCrate) (lookup : Bytes → Option Uuid)

def legacySpelling (key value : Bytes) : Option Bytes :=
  if identityField key && !keptField key then (lookup value).map crate.display else none

def keyReplacement (depth : Nat) (value : Bytes) : Option Bytes :=
  if depth = 1 then renamed value else none

def valueReplacement (depth : Nat) (key value : Bytes) : Option Bytes :=
  if depth = 1 then legacySpelling crate lookup key value else none

/-- The replacement as a token, or the token that was there. -/
def written (raw : Bytes) (replacement : Option Bytes) : Bytes :=
  (replacement.map encode).getD raw

/-- The loop of `legacy_json` from an offset on: what it still writes, or nothing if it
returns early. -/
def scan (rest key : Bytes) (depth : Nat) : Option Bytes :=
  match rest with
  | [] => some []
  | b :: rest =>
      if b = quote then
        match decode (scanString rest).1 with
        | none => none
        | some value =>
            if isKey (scanString rest).2 then
              (scan (scanString rest).2 value depth).map
                (written (quote :: (scanString rest).1) (keyReplacement depth value) ++ ·)
            else
              (scan (scanString rest).2 key depth).map
                (written (quote :: (scanString rest).1)
                  (valueReplacement crate lookup depth key value) ++ ·)
      else (scan rest key (deeper depth b)).map (utf8 b.toNat ++ ·)
termination_by rest.length
decreasing_by
  all_goals simp only [List.length_cons]
  all_goals first
    | exact Nat.lt_succ_of_le (scanString_length _)
    | exact Nat.lt_succ_self _

/-- `legacy_json`. -/
def legacyJson (input : Bytes) : Bytes := (scan crate lookup input [] 0).getD input

/-! ## The same edit on a document -/

def rename (label : Label) : Label :=
  match renamed (textOf label.content) with
  | some name => { label with content := name }
  | none => label

def legacyDoc (key : Bytes) : Doc → Doc
  | .string content =>
      match legacySpelling crate lookup key (textOf content) with
      | some text => .string text
      | none => .string content
  | doc => doc

def legacyMembers : Members → Members
  | .last label value after =>
      .last (rename label) (legacyDoc crate lookup (textOf label.content) value) after
  | .more label value after rest =>
      .more (rename label) (legacyDoc crate lookup (textOf label.content) value) after
        (legacyMembers rest)

/-- The edit of a member's value. -/
def legacyValue (key : Bytes) : Value → Value
  | .string text => .string ((legacySpelling crate lookup key text).getD text)
  | value => value

def legacyMember (member : Bytes × Value) : Bytes × Value :=
  ((renamed member.1).getD member.1, legacyValue crate lookup member.1 member.2)

end

/-! ## Bytes that are copied -/

/-- ASCII that opens nothing and closes nothing. -/
def isQuiet (b : UInt8) : Bool :=
  b < 128 && b ≠ quote && b ≠ openBrace && b ≠ openBracket && b ≠ closeBrace && b ≠ closeBracket

variable {b : UInt8}

theorem quiet_of_isSpace (space : isSpace b = true) : isQuiet b = true := by
  simp only [isSpace, Bool.or_eq_true, decide_eq_true_eq] at space
  rcases space with ((rfl | rfl) | rfl) | rfl <;> rfl

set_option maxRecDepth 20000 in
theorem quiet_of_isLiteral (literal : isLiteral b = true) : isQuiet b = true := by
  revert literal
  revert b
  apply Hex.forall_byte
  decide

/-! ## Strings -/

theorem scanString_byte (plain : b ≠ quote ∧ b ≠ backslash) (rest : Bytes) :
    scanString (b :: rest) = (b :: (scanString rest).1, (scanString rest).2) := by
  conv_lhs => unfold scanString
  rw [if_neg plain.2, if_neg plain.1]

theorem scanString_quote (rest : Bytes) : scanString (quote :: rest) = ([quote], rest) := by
  unfold scanString
  rw [if_neg (by decide), if_pos rfl]

theorem scanString_escape (e : UInt8) (rest : Bytes) :
    scanString (backslash :: e :: rest) =
      (backslash :: e :: (scanString rest).1, (scanString rest).2) := rfl

theorem plain_of_value {d : UInt8} {v : UInt8} (digit : Hex.value d = some v) :
    d ≠ quote ∧ d ≠ backslash := by
  constructor
  · rintro rfl
    cases digit
  · rintro rfl
    cases digit

theorem plain_of_hexUnit {d₁ d₂ d₃ d₄ : UInt8} {unit : Nat}
    (read : hexUnit d₁ d₂ d₃ d₄ = some unit) :
    (d₁ ≠ quote ∧ d₁ ≠ backslash) ∧ (d₂ ≠ quote ∧ d₂ ≠ backslash) ∧
      (d₃ ≠ quote ∧ d₃ ≠ backslash) ∧ d₄ ≠ quote ∧ d₄ ≠ backslash := by
  unfold hexUnit at read
  split at read
  · rename_i one two three four
    exact ⟨plain_of_value one, plain_of_value two, plain_of_value three, plain_of_value four⟩
  · cases read

/-- A string ends where it is read to end. -/
theorem scanString_of_lex {inner : Bytes} {pieces : List CodeUnit}
    (read : lex inner = some pieces) (rest : Bytes) : scanString (inner ++ rest) = (inner, rest) := by
  fun_induction lex inner generalizing pieces with
  | case2 => exact scanString_quote rest
  | case5 d₁ d₂ d₃ d₄ inner unit digits _ ih =>
      obtain ⟨pieces, read, -⟩ := Option.map_eq_some_iff.mp read
      obtain ⟨one, two, three, four⟩ := plain_of_hexUnit digits
      rw [List.cons_append, List.cons_append, scanString_escape, List.cons_append,
        scanString_byte one, List.cons_append, scanString_byte two, List.cons_append,
        scanString_byte three, List.cons_append, scanString_byte four, ih read]
  | case8 e inner notUnit byte escape _ ih =>
      obtain ⟨pieces, read, -⟩ := Option.map_eq_some_iff.mp read
      rw [List.cons_append, List.cons_append, scanString_escape, ih read]
  | case11 b inner notQuote notBackslash printable ih =>
      obtain ⟨pieces, read, -⟩ := Option.map_eq_some_iff.mp read
      rw [List.cons_append, scanString_byte ⟨notQuote, notBackslash⟩, ih read]
  | case1 => cases read
  | case3 => cases read
  | case4 => cases read
  | case6 => cases read
  | case7 => cases read
  | case9 => cases read
  | case10 => cases read

theorem scanString_token {content : Bytes} (valid : (decode (content ++ [quote])).isSome)
    (rest : Bytes) :
    scanString (content ++ quote :: rest) = (content ++ [quote], rest) ∧
      decode (content ++ [quote]) = some (textOf content) := by
  obtain ⟨text, read⟩ := Option.isSome_iff_exists.mp valid
  constructor
  · obtain ⟨pieces, lexed, -⟩ := Option.bind_eq_some_iff.mp read
    have split := scanString_of_lex lexed rest
    rwa [List.append_assoc] at split
  · rw [textOf, read]
    rfl

/-! ## Runs of the scanner -/

variable {text : Bytes}

section

variable {crate : UuidCrate} {lookup : Bytes → Option Uuid}

theorem scan_nil (key : Bytes) (depth : Nat) : scan crate lookup [] key depth = some [] := by
  rw [scan]

theorem scan_ascii (ascii : b < 128) (other : b ≠ quote) (rest key : Bytes)
    (depth : Nat) :
    scan crate lookup (b :: rest) key depth =
      (scan crate lookup rest key (deeper depth b)).map (b :: ·) := by
  rw [scan, if_neg other, utf8_ascii ascii]
  rfl

theorem scan_quiet (quiet : text.all isQuiet = true) (rest key : Bytes)
    (depth : Nat) :
    scan crate lookup (text ++ rest) key depth =
      (scan crate lookup rest key depth).map (text ++ ·) := by
  induction text with
  | nil =>
      exact Option.map_id'.symm
  | cons b text ih =>
      obtain ⟨here, all⟩ := Bool.and_eq_true_iff.mp quiet
      simp only [isQuiet, Bool.and_eq_true, decide_eq_true_eq] at here
      obtain ⟨⟨⟨⟨⟨ascii, notQuote⟩, b₁⟩, b₂⟩, b₃⟩, b₄⟩ := here
      rw [List.cons_append, scan_ascii ascii notQuote, deeper, if_neg (not_or.mpr ⟨b₁, b₂⟩),
        if_neg (not_or.mpr ⟨b₃, b₄⟩), ih all, Option.map_map]
      rfl

/-- A string that is a key. -/
theorem scan_key {content rest : Bytes} (valid : (decode (content ++ [quote])).isSome)
    (follows : isKey rest = true) (key : Bytes) (depth : Nat) :
    scan crate lookup (token content ++ rest) key depth =
      (scan crate lookup rest (textOf content) depth).map
        (written (token content) (keyReplacement depth (textOf content)) ++ ·) := by
  obtain ⟨ends, read⟩ := scanString_token valid rest
  have shape : token content ++ rest = quote :: (content ++ quote :: rest) := by
    simp [token]
  rw [shape, scan, if_pos rfl, ends]
  rw [read]
  dsimp only
  rw [if_pos follows]
  rfl

/-- A string that is a value. -/
theorem scan_value {content rest : Bytes} (valid : (decode (content ++ [quote])).isSome)
    (follows : isKey rest = false) (key : Bytes) (depth : Nat) :
    scan crate lookup (token content ++ rest) key depth =
      (scan crate lookup rest key depth).map
        (written (token content) (valueReplacement crate lookup depth key (textOf content))
          ++ ·) := by
  obtain ⟨ends, read⟩ := scanString_token valid rest
  have shape : token content ++ rest = quote :: (content ++ quote :: rest) := by
    simp [token]
  rw [shape, scan, if_pos rfl, ends]
  rw [read]
  dsimp only
  rw [if_neg (Bool.eq_false_iff.mp follows)]
  rfl

end

/-! ## Below the members of the object -/

section

variable (crate : UuidCrate) (lookup : Bytes → Option Uuid)

/-- The text is copied on the way from one depth to another, whatever comes after it. -/
def Copies (text : Bytes) (before after : Nat) : Prop :=
  ∀ rest key, ∃ key', scan crate lookup (text ++ rest) key before =
    (scan crate lookup rest key' after).map (text ++ ·)

end

section

variable {crate : UuidCrate} {lookup : Bytes → Option Uuid}

theorem Copies.append {one two : Bytes} {before middle after : Nat}
    (first : Copies crate lookup one before middle) (second : Copies crate lookup two middle after) :
    Copies crate lookup (one ++ two) before after := by
  intro rest key
  obtain ⟨key', here⟩ := first (two ++ rest) key
  obtain ⟨key'', there⟩ := second rest key'
  refine ⟨key'', ?_⟩
  rw [List.append_assoc, here, there, Option.map_map]
  congr 1
  funext text
  exact (List.append_assoc one two text).symm

theorem copies_byte (ascii : b < 128) (other : b ≠ quote) (depth : Nat) :
    Copies crate lookup [b] depth (deeper depth b) :=
  fun rest key => ⟨key, scan_ascii ascii other rest key depth⟩

theorem copies_quiet (quiet : text.all isQuiet = true) (depth : Nat) :
    Copies crate lookup text depth depth :=
  fun rest key => ⟨key, scan_quiet quiet rest key depth⟩

theorem copies_cons {before after : Nat} (ascii : b < 128)
    (other : b ≠ quote) (rest : Copies crate lookup text (deeper before b) after) :
    Copies crate lookup (b :: text) before after :=
  (copies_byte ascii other before).append rest

theorem quiet_of_blank {blank : Bytes} (valid : Blank blank) : blank.all isQuiet = true := by
  rw [List.all_eq_true]
  exact fun b mem => quiet_of_isSpace (List.all_eq_true.mp valid b mem)

/-- A string below the members is copied, be it a key or a value. -/
theorem copies_token {content : Bytes} (valid : (decode (content ++ [quote])).isSome) {depth : Nat}
    (deep : 2 ≤ depth) : Copies crate lookup (token content) depth depth := by
  intro rest key
  have other : depth ≠ 1 := by omega
  by_cases follows : isKey rest = true
  · refine ⟨textOf content, ?_⟩
    rw [scan_key valid follows, keyReplacement, if_neg other]
    rfl
  · refine ⟨key, ?_⟩
    rw [scan_value valid (Bool.not_eq_true _ ▸ follows), valueReplacement, if_neg other]
    rfl

theorem copies_label {label : Label} (valid : label.Valid) {depth : Nat} (deep : 2 ≤ depth) :
    Copies crate lookup label.render depth depth := by
  obtain ⟨before, content, between, after⟩ := valid
  exact (copies_quiet (quiet_of_blank before) depth).append ((copies_token content deep).append
    ((copies_quiet (quiet_of_blank between) depth).append
      (copies_cons (by decide) (by decide) (copies_quiet (quiet_of_blank after) depth))))

theorem copies_close {blank : Bytes} (valid : Blank blank) (ascii : b < 128)
    (other : b ≠ quote) {depth next : Nat} (closes : deeper depth b = next) :
    Copies crate lookup (blank ++ [b]) depth next :=
  (copies_quiet (quiet_of_blank valid) depth).append (closes ▸ copies_byte ascii other depth)

mutual

theorem copies_doc : ∀ doc : Doc, doc.Valid → ∀ depth, 1 ≤ depth →
    (∀ content, doc = .string content → 2 ≤ depth) → Copies crate lookup doc.render depth depth
  | .literal text, valid, depth, _, _ => by
      apply copies_quiet
      rw [List.all_eq_true]
      exact fun b mem => quiet_of_isLiteral (List.all_eq_true.mp valid.2 b mem)
  | .string content, valid, _, _, strings => copies_token valid (strings content rfl)
  | .emptyArray _, valid, _, _, _ =>
      copies_cons (by decide) (by decide) (copies_close valid (by decide) (by decide) rfl)
  | .array items, valid, depth, deep, _ =>
      copies_cons (by decide) (by decide) (copies_items items valid (depth + 1) (by omega))
  | .emptyObject _, valid, _, _, _ =>
      copies_cons (by decide) (by decide) (copies_close valid (by decide) (by decide) rfl)
  | .object members, valid, depth, deep, _ =>
      copies_cons (by decide) (by decide) (copies_members members valid (depth + 1) (by omega))

theorem copies_items : ∀ items : Items, items.Valid → ∀ depth, 2 ≤ depth →
    Copies crate lookup items.render depth (depth - 1)
  | .last _ value _, ⟨before, valid, after⟩, depth, deep =>
      (copies_quiet (quiet_of_blank before) depth).append
        ((copies_doc value valid depth (by omega) fun _ _ => deep).append
          (copies_close after (by decide) (by decide) rfl))
  | .more _ value _ rest, ⟨before, valid, after, others⟩, depth, deep =>
      (copies_quiet (quiet_of_blank before) depth).append
        ((copies_doc value valid depth (by omega) fun _ _ => deep).append
          ((copies_quiet (quiet_of_blank after) depth).append
            (copies_cons (by decide) (by decide) (copies_items rest others depth deep))))

theorem copies_members : ∀ members : Members, members.Valid → ∀ depth, 2 ≤ depth →
    Copies crate lookup members.render depth (depth - 1)
  | .last _ value _, ⟨label, valid, after⟩, depth, deep =>
      (copies_label label deep).append
        ((copies_doc value valid depth (by omega) fun _ _ => deep).append
          (copies_close after (by decide) (by decide) rfl))
  | .more _ value _ rest, ⟨label, valid, after, others⟩, depth, deep =>
      (copies_label label deep).append
        ((copies_doc value valid depth (by omega) fun _ _ => deep).append
          ((copies_quiet (quiet_of_blank after) depth).append
            (copies_cons (by decide) (by decide) (copies_members rest others depth deep))))

end

/-! ## The members of the object -/

theorem isKey_of_blank {blank : Bytes} (valid : Blank blank) (other : isAsciiWhitespace b = false)
    (rest : Bytes) : isKey (blank ++ b :: rest) = decide (b = colon) := by
  unfold isKey
  induction blank with
  | nil => simp [other]
  | cons c blank ih =>
      obtain ⟨space, blanks⟩ := Bool.and_eq_true_iff.mp valid
      have white : isAsciiWhitespace c = true := by
        simp only [isSpace, Bool.or_eq_true, decide_eq_true_eq] at space
        rcases space with ((rfl | rfl) | rfl) | rfl <;> rfl
      rw [List.cons_append, List.find?_cons_of_neg (by simp [white])]
      exact ih blanks

/-- What replaces a token is plain text. -/
theorem plain_of_renamed {name new : Bytes} (found : renamed name = some new) :
    new.all isPlain = true := by
  unfold renamed at found
  split at found
  · cases found
    decide
  · split at found
    · cases found
      decide
    · split at found
      · cases found
        decide
      · cases found

set_option maxRecDepth 20000 in
theorem plain_of_isDigit (digit : Hex.IsDigit b) : isPlain b = true := by
  revert digit
  revert b
  apply Hex.forall_byte
  decide

theorem mem_group {digits : Bytes} (mem : b ∈ Uuid.group digits) :
    b = Uuid.hyphen ∨ b ∈ digits := by
  simp only [Uuid.group, List.mem_append, List.mem_cons] at mem
  rcases mem with one | same | two | same | three | same | four | same | five
  · exact .inr (List.mem_of_mem_take one)
  · exact .inl same
  · exact .inr (List.mem_of_mem_drop (List.mem_of_mem_take two))
  · exact .inl same
  · exact .inr (List.mem_of_mem_drop (List.mem_of_mem_take three))
  · exact .inl same
  · exact .inr (List.mem_of_mem_drop (List.mem_of_mem_take four))
  · exact .inl same
  · exact .inr (List.mem_of_mem_drop five)

theorem plain_of_legacySpelling (documented : crate.Documented) {key value : Bytes}
    (found : legacySpelling crate lookup key value = some text) : text.all isPlain = true := by
  unfold legacySpelling at found
  split at found
  · obtain ⟨id, -, rfl⟩ := Option.map_eq_some_iff.mp found
    rw [documented.prints, List.all_eq_true]
    intro b mem
    rcases mem_group mem with rfl | mem
    · rfl
    · exact plain_of_isDigit (Hex.encode_digits mem)
  · cases found

theorem encode_of_plain (plain : text.all isPlain = true) :
    encode text = token text := by
  rw [encode, flatMap_escapeByte plain]
  rfl

/-- A label is written under its new name. -/
theorem scan_label {label : Label} (valid : label.Valid) (rest key : Bytes) :
    scan crate lookup (label.render ++ rest) key 1 =
      (scan crate lookup rest (textOf label.content) 1).map ((rename label).render ++ ·) := by
  obtain ⟨before, content, between, after⟩ := valid
  have token_ : written (token label.content) (keyReplacement 1 (textOf label.content)) =
      token (rename label).content := by
    unfold keyReplacement rename
    cases found : renamed (textOf label.content) with
    | none => rfl
    | some name => exact encode_of_plain (plain_of_renamed found)
  have blanks : (rename label).before = label.before ∧ (rename label).between = label.between ∧
      (rename label).after = label.after := by
    unfold rename
    split <;> exact ⟨rfl, rfl, rfl⟩
  have shape : label.render ++ rest = label.before ++ (token label.content ++
      (label.between ++ colon :: (label.after ++ rest))) := by
    simp [Label.render]
  rw [shape, scan_quiet (quiet_of_blank before),
    scan_key content (isKey_of_blank between (by decide) _), token_,
    scan_quiet (quiet_of_blank between), scan_ascii (by decide) (by decide),
    scan_quiet (quiet_of_blank after)]
  simp only [Option.map_map]
  congr 1
  funext text
  simp [Label.render, blanks]

variable (lookup) in
/-- A value of the object is written as the edit has it. -/
theorem scan_doc (documented : crate.Documented) {doc : Doc} (valid : doc.Valid) {rest : Bytes}
    (follows : isKey rest = false) (key : Bytes) :
    ∃ key', scan crate lookup (doc.render ++ rest) key 1 =
      (scan crate lookup rest key' 1).map ((legacyDoc crate lookup key doc).render ++ ·) := by
  cases doc with
  | string content =>
      refine ⟨key, ?_⟩
      rw [show (Doc.string content).render = token content from rfl, scan_value valid follows,
        valueReplacement, if_pos rfl, legacyDoc]
      cases found : legacySpelling crate lookup key (textOf content) with
      | none => rfl
      | some text =>
          rw [written, Option.map_some, Option.getD_some,
            encode_of_plain (plain_of_legacySpelling documented found)]
          rfl
  | literal text =>
      exact copies_doc (.literal text) valid 1 (Nat.le_refl 1) (fun _ same => by cases same) rest key
  | emptyArray blank =>
      exact copies_doc (.emptyArray blank) valid 1 (Nat.le_refl 1) (fun _ same => by cases same)
        rest key
  | array items =>
      exact copies_doc (.array items) valid 1 (Nat.le_refl 1) (fun _ same => by cases same) rest key
  | emptyObject blank =>
      exact copies_doc (.emptyObject blank) valid 1 (Nat.le_refl 1) (fun _ same => by cases same)
        rest key
  | object members =>
      exact copies_doc (.object members) valid 1 (Nat.le_refl 1) (fun _ same => by cases same)
        rest key

variable (lookup) in
theorem scan_members (documented : crate.Documented) : ∀ members : Members, members.Valid →
    ∀ rest key, ∃ key', scan crate lookup (members.render ++ rest) key 1 =
      (scan crate lookup rest key' 0).map ((legacyMembers crate lookup members).render ++ ·)
  | .last label value after, ⟨named, valid, blank⟩, rest, key => by
      have close : isKey (after ++ closeBrace :: rest) = false := by
        rw [isKey_of_blank blank (by decide)]
        rfl
      obtain ⟨key', here⟩ := scan_doc lookup documented valid close
        (textOf label.content)
      refine ⟨key', ?_⟩
      have shape : (Members.last label value after).render ++ rest =
          label.render ++ (value.render ++ (after ++ closeBrace :: rest)) := by
        simp [Members.render]
      rw [shape, scan_label named, here, scan_quiet (quiet_of_blank blank),
        scan_ascii (by decide) (by decide)]
      simp only [Option.map_map]
      congr 1
      funext text
      simp [legacyMembers, Members.render]
  | .more label value after others, ⟨named, valid, blank, valids⟩, rest, key => by
      have next : isKey (after ++ comma :: (others.render ++ rest)) = false := by
        rw [isKey_of_blank blank (by decide)]
        rfl
      obtain ⟨key', here⟩ := scan_doc lookup documented valid next
        (textOf label.content)
      obtain ⟨key'', there⟩ := scan_members documented others valids rest key'
      refine ⟨key'', ?_⟩
      have shape : (Members.more label value after others).render ++ rest =
          label.render ++ (value.render ++ (after ++ comma :: (others.render ++ rest))) := by
        simp [Members.render]
      rw [shape, scan_label named, here, scan_quiet (quiet_of_blank blank),
        scan_ascii (by decide) (by decide), show deeper 1 comma = 1 from rfl, there]
      simp only [Option.map_map]
      congr 1
      funext text
      simp [legacyMembers, Members.render]

/-! ## The value of the edited object -/

theorem valid_of_plain (plain : text.all isPlain = true) :
    (decode (text ++ [quote])).isSome ∧ textOf text = text := by
  rw [textOf, decode_plain plain]
  exact ⟨rfl, rfl⟩

theorem rename_valid {label : Label} (valid : label.Valid) :
    (rename label).Valid ∧
      textOf (rename label).content = (renamed (textOf label.content)).getD (textOf label.content) := by
  unfold rename
  cases found : renamed (textOf label.content) with
  | none => exact ⟨valid, rfl⟩
  | some name =>
      obtain ⟨read, same⟩ := valid_of_plain (plain_of_renamed found)
      exact ⟨⟨valid.1, read, valid.2.2⟩, same⟩

variable (lookup) in
theorem legacyDoc_valid (documented : crate.Documented) (key : Bytes) {doc : Doc}
    (valid : doc.Valid) :
    (legacyDoc crate lookup key doc).Valid ∧
      (legacyDoc crate lookup key doc).value = legacyValue crate lookup key doc.value := by
  cases doc with
  | string content =>
      simp only [legacyDoc, Doc.value, legacyValue]
      cases found : legacySpelling crate lookup key (textOf content) with
      | none => exact ⟨valid, rfl⟩
      | some text =>
          obtain ⟨read, same⟩ := valid_of_plain (plain_of_legacySpelling documented found)
          refine ⟨read, ?_⟩
          rw [Option.getD_some]
          exact congrArg Value.string same
  | literal text => exact ⟨valid, rfl⟩
  | emptyArray blank => exact ⟨valid, rfl⟩
  | array items => exact ⟨valid, rfl⟩
  | emptyObject blank => exact ⟨valid, rfl⟩
  | object members => exact ⟨valid, rfl⟩

variable (lookup) in
theorem legacyMembers_valid (documented : crate.Documented) : ∀ members : Members,
    members.Valid → (legacyMembers crate lookup members).Valid ∧
      (legacyMembers crate lookup members).values =
        members.values.map (legacyMember crate lookup)
  | .last label value after, ⟨named, valid, blank⟩ => by
      obtain ⟨label_, name⟩ := rename_valid named
      obtain ⟨doc, same⟩ := legacyDoc_valid lookup documented
        (textOf label.content) valid
      refine ⟨⟨label_, doc, blank⟩, ?_⟩
      simp only [legacyMembers, Members.values, name, same]
      rfl
  | .more label value after rest, ⟨named, valid, blank, valids⟩ => by
      obtain ⟨label_, name⟩ := rename_valid named
      obtain ⟨doc, same⟩ := legacyDoc_valid lookup documented
        (textOf label.content) valid
      obtain ⟨others, sames⟩ := legacyMembers_valid documented rest valids
      refine ⟨⟨label_, doc, blank, others⟩, ?_⟩
      simp only [legacyMembers, Members.values, name, same, sames]
      rfl

end

/-- On an object text, with blanks around it, the scanner makes the edit of its members and
nothing else: every byte outside the replaced tokens is the one that was there. -/
theorem legacyJson_object (crate : UuidCrate) (documented : crate.Documented)
    (lookup : Bytes → Option Uuid) (before after : Bytes) (blanks : Blank before ∧ Blank after) :
    (∀ members : Members, members.Valid →
      legacyJson crate lookup (before ++ ((Doc.object members).render ++ after)) =
          before ++ ((Doc.object (legacyMembers crate lookup members)).render ++ after) ∧
        (Doc.object (legacyMembers crate lookup members)).Valid ∧
        (Doc.object (legacyMembers crate lookup members)).value =
          .object (members.values.map (legacyMember crate lookup))) ∧
    ∀ blank, Blank blank →
      legacyJson crate lookup (before ++ ((Doc.emptyObject blank).render ++ after)) =
        before ++ ((Doc.emptyObject blank).render ++ after) := by
  have ends : ∀ key, scan crate lookup after key 0 = some after := by
    intro key
    have copied : scan crate lookup (after ++ []) key 0 =
        (scan crate lookup [] key 0).map (after ++ ·) := scan_quiet (quiet_of_blank blanks.2) [] key 0
    simpa [scan_nil] using copied
  refine ⟨?_, ?_⟩
  · intro members valid
    obtain ⟨same, values⟩ := legacyMembers_valid lookup documented members valid
    refine ⟨?_, same, congrArg Value.object values⟩
    obtain ⟨key', inside⟩ := scan_members lookup documented members valid after []
    rw [legacyJson, scan_quiet (quiet_of_blank blanks.1),
      show (Doc.object members).render = openBrace :: members.render from rfl, List.cons_append,
      scan_ascii (by decide) (by decide), show deeper 0 openBrace = 1 from rfl, inside, ends]
    rfl
  · intro blank valid
    have object_ : Copies crate lookup (Doc.emptyObject blank).render 0 0 :=
      copies_cons (by decide) (by decide) (copies_close valid (by decide) (by decide) rfl)
    obtain ⟨key', copied⟩ := object_ after []
    rw [legacyJson, scan_quiet (quiet_of_blank blanks.1), copied, ends]
    rfl

/-- An identity that every lookup finds. -/
def firstId : Uuid := { bytes := List.replicate 15 0 ++ [1], length_eq := rfl }

def findsSaket (text : Bytes) : Option Uuid := if text = ascii "saket" then some firstId else none

def actorMember : Members :=
  .last ⟨[32], ascii "actor_id", [], [32]⟩ (.string (ascii "saket")) []

theorem legacyJson_actor_id :
    legacyJson Uuid.reference findsSaket (ascii "\x7b \"actor_id\": \"saket\"\x7d ") =
      ascii "\x7b \"actor_id\": \"00000000-0000-0000-0000-000000000001\"\x7d " := by
  have read : (decode (ascii "saket" ++ [quote])).isSome := by decide +kernel
  have valid : actorMember.Valid := ⟨⟨rfl, by decide +kernel, rfl, rfl⟩, read, rfl⟩
  have edited := ((legacyJson_object Uuid.reference Uuid.reference_documented findsSaket [] [32]
    ⟨rfl, rfl⟩).1 actorMember valid).1
  rw [show [] ++ ((Doc.object actorMember).render ++ [32]) =
      ascii "\x7b \"actor_id\": \"saket\"\x7d " by decide +kernel,
    show [] ++ ((Doc.object (legacyMembers Uuid.reference findsSaket actorMember)).render ++ [32]) =
      ascii "\x7b \"actor_id\": \"00000000-0000-0000-0000-000000000001\"\x7d " by
        decide +kernel] at edited
  exact edited

/-- A member that names no identity is renamed, and one that names an identity is kept. -/
theorem legacyJson_job_description :
    identityField (ascii "carbon_id") = true ∧
    legacyJson Uuid.reference findsSaket
        (ascii "\x7b\"job_description\":\"Chef\",\"carbon_id\":\"saket\"\x7d") =
      ascii "\x7b\"job_role\":\"Chef\",\"carbon_id\":\"saket\"\x7d" := by
  decide +kernel

end SiliconIam.Replay
