/-
# Domain.Id -- storage references: identity handles and resource UUIDs

One string space holds two kinds of reference.  `IdentityId.parse` accepts the
handle grammar (`service/…`, `c:…`, `si:…` and bare application handles);
`Id.fromStr` tries the UUID crate first and the handle grammar second, and the
serde and database decoders go through it.

A resource UUID always survives printing and parsing (`fromStr_resource`).  A
handle survives exactly when it is not itself the text of a UUID: of the four
spellings the crate reads, the braced and URN ones contain symbols no handle has
in that place, but a bare handle may be 32 hexadecimal digits, or 8-4-4-4-12 of
them (`uuid_spelling_iff_of_handle`).
-/
import SiliconIam.Domain.Uuid

namespace SiliconIam.Domain

open SiliconIam.Theory.Hex (Bytes ascii)

set_option autoImplicit false

/-! ## The handle grammar -/

/-- The symbols of one handle segment: `a-z`, `0-9`, `_` and `-`. -/
def partSymbol (c : UInt8) : Bool :=
  (97 ≤ c && c ≤ 122) || (48 ≤ c && c ≤ 57) || c = 95 || c = 45

def validPart (bytes : Bytes) (minimum maximum : Nat) : Bool :=
  minimum ≤ bytes.length && bytes.length ≤ maximum && bytes.all partSymbol

def serviceMark : Bytes := ascii "service/"

def carbonMark : Bytes := ascii "c:"

def siliconMark : Bytes := ascii "si:"

/-- `valid_identity`: a marked handle is judged by its own segment only, anything
else as a bare application handle. -/
def validIdentity (bytes : Bytes) : Bool :=
  if serviceMark.isPrefixOf bytes then validPart (bytes.drop 8) 3 63
  else if carbonMark.isPrefixOf bytes then validPart (bytes.drop 2) 3 30
  else if siliconMark.isPrefixOf bytes then validPart (bytes.drop 3) 3 50
  else
    match bytes with
    | [] => false
    | first :: _ => 97 ≤ first && first ≤ 122 && validPart bytes 1 80

/-- `split_once`: the text before and after the first `mark`. -/
def splitOnce (mark : UInt8) : Bytes → Option (Bytes × Bytes)
  | [] => none
  | c :: rest =>
      if c = mark then some ([], rest)
      else (splitOnce mark rest).map fun parts => (c :: parts.1, parts.2)

/-- The accepted texts of `legacy_application_encryption_id`: `org>app`. -/
def validLegacyApplication (bytes : Bytes) : Bool :=
  match splitOnce 62 bytes with
  | none => false
  | some (org, app) =>
      validPart org 3 50 && validPart app 1 80 && bytes.length ≤ 131

/-- The single error of this module, with its message. -/
structure InvalidIdentity where
deriving DecidableEq

def InvalidIdentity.message : InvalidIdentity → String
  | _ => "identity must be a canonical carbon_id, silicon_id, app_id, or service handle"

/-- A bounded handle.  The two constructors of the source are the only way to
make one, and each has checked its grammar. -/
structure IdentityId where
  bytes : Bytes
  constructed : validIdentity bytes = true ∨ validLegacyApplication bytes = true
deriving DecidableEq

def IdentityId.asStr (identity : IdentityId) : Bytes := identity.bytes

theorem IdentityId.ext_bytes {i j : IdentityId} (same : i.bytes = j.bytes) : i = j := by
  cases i; cases j; simpa using same

def IdentityId.parse (value : Bytes) : Except InvalidIdentity IdentityId :=
  if valid : validIdentity value = true then .ok ⟨value, .inl valid⟩ else .error ⟨⟩

/-- A reference to an identity or to an independently identified resource. -/
inductive Id where
  | resource (uuid : Uuid)
  | identity (handle : IdentityId)
deriving DecidableEq

namespace Id

def identityOf (value : Bytes) : Except InvalidIdentity Id :=
  (IdentityId.parse value).map .identity

/-- The decoder of pre-schema application contexts; never public input. -/
def legacyApplicationEncryptionId (value : Bytes) : Except InvalidIdentity Id :=
  if valid : validLegacyApplication value = true then .ok (.identity ⟨value, .inr valid⟩)
  else .error ⟨⟩

/-- Sixteen raw bytes, or the handle's text. -/
def asBytes : Id → Bytes
  | .resource uuid => uuid.bytes
  | .identity handle => handle.asStr

section Text

variable (crate : UuidCrate)

/-- `FromStr`, and `Id::parse`: the UUID crate first, the handle grammar second. -/
def fromStr (value : Bytes) : Except InvalidIdentity Id :=
  match crate.parseStr value with
  | some uuid => .ok (.resource uuid)
  | none => identityOf value

def display : Id → Bytes
  | .resource uuid => crate.display uuid
  | .identity handle => handle.asStr

/-- `Deserialize`: the same parser, its error as a message. -/
def deserialize (value : Bytes) : Except String Id :=
  (fromStr crate value).mapError InvalidIdentity.message

/-- A column value as PostgreSQL types it. -/
inductive PgValue where
  | uuid (value : Uuid)
  | text (value : Bytes)

def encode : Id → PgValue
  | .resource uuid => .uuid uuid
  | .identity handle => .text handle.asStr

/-- `Decode`: a `uuid` column is a resource, any text goes through the parser. -/
def decode : PgValue → Except InvalidIdentity Id
  | .uuid value => .ok (.resource value)
  | .text value => fromStr crate value

end Text

end Id

/-! ## Local application identifiers -/

/-- `is_ascii_lowercase` and `is_ascii_digit`. -/
def asciiLowercase (c : UInt8) : Bool := 97 ≤ c && c ≤ 122

def asciiDigit (c : UInt8) : Bool := 48 ≤ c && c ≤ 57

/-- A refused request field: the field's path and the rule it broke. -/
structure ValidationError where
  field : String
  message : String
deriving DecidableEq

def localAppIdError : ValidationError where
  field := "app_id"
  message := "must be 1-80 lowercase ASCII characters, start with a letter, and contain only " ++
    "letters, digits, '_' or '-'"

def localAppId (value : Bytes) : Except ValidationError Unit :=
  if !(1 ≤ value.length && value.length ≤ 80) ||
      !(value.zipIdx.all fun (c, index) =>
        (index != 0 && (asciiDigit c || c = 95 || c = 45)) || asciiLowercase c) then
    .error localAppIdError
  else .ok ()

/-! ## Handles that are the text of a UUID -/

variable {bytes : Bytes} {c : UInt8}

theorem validPart_mem {minimum maximum : Nat}
    (valid : validPart bytes minimum maximum = true) (mem : c ∈ bytes) :
    partSymbol c = true := by
  simp only [validPart, Bool.and_eq_true, List.all_eq_true] at valid
  exact valid.2 c mem

theorem splitOnce_eq_some {mark : UInt8} {before after : Bytes}
    (split : splitOnce mark bytes = some (before, after)) : bytes = before ++ mark :: after := by
  induction bytes generalizing before with
  | nil => simp [splitOnce] at split
  | cons c rest ih =>
      simp only [splitOnce] at split
      split at split
      · rename_i eq
        obtain ⟨rfl, rfl⟩ := split
        rw [eq, List.nil_append]
      · simp only [Option.map_eq_some_iff, Prod.mk.injEq, Prod.exists] at split
        obtain ⟨left, right, found, rfl, rfl⟩ := split
        rw [ih found, List.cons_append]

theorem partSymbol_ascii (symbol : partSymbol c = true) : c < 128 := by
  simp only [partSymbol, Bool.or_eq_true, Bool.and_eq_true, decide_eq_true_eq] at symbol
  rcases symbol with (((⟨-, h⟩ | ⟨-, h⟩) | rfl) | rfl)
  · exact UInt8.lt_of_le_of_lt h (by decide)
  · exact UInt8.lt_of_le_of_lt h (by decide)
  · decide
  · decide

theorem ascii_of_marked {mark : Bytes} {minimum maximum : Nat}
    (marked : mark.isPrefixOf bytes = true) (symbols : ∀ c ∈ mark, c < 128)
    (valid : validPart (bytes.drop mark.length) minimum maximum = true)
    (mem : c ∈ bytes) : c < 128 := by
  obtain ⟨rest, rfl⟩ := List.isPrefixOf_iff_prefix.mp marked
  rw [List.drop_left] at valid
  rcases List.mem_append.mp mem with mem | mem
  · exact symbols c mem
  · exact partSymbol_ascii (validPart_mem valid mem)

theorem validIdentity_ascii (valid : validIdentity bytes = true)
    (mem : c ∈ bytes) : c < 128 := by
  unfold validIdentity at valid
  split at valid
  · rename_i marked
    have symbols : ∀ c ∈ serviceMark, c < 128 := by decide +kernel
    exact ascii_of_marked marked symbols valid mem
  · split at valid
    · rename_i marked
      have symbols : ∀ c ∈ carbonMark, c < 128 := by decide +kernel
      exact ascii_of_marked marked symbols valid mem
    · split at valid
      · rename_i marked
        have symbols : ∀ c ∈ siliconMark, c < 128 := by decide +kernel
        exact ascii_of_marked marked symbols valid mem
      · split at valid
        · simp at valid
        · simp only [Bool.and_eq_true] at valid
          exact partSymbol_ascii (validPart_mem valid.2 mem)

theorem validLegacyApplication_ascii
    (valid : validLegacyApplication bytes = true) (mem : c ∈ bytes) : c < 128 := by
  unfold validLegacyApplication at valid
  split at valid
  · simp at valid
  · rename_i org app split
    simp only [Bool.and_eq_true] at valid
    rw [splitOnce_eq_some split] at mem
    rcases List.mem_append.mp mem with mem | mem
    · exact partSymbol_ascii (validPart_mem valid.1.1 mem)
    · rcases List.mem_cons.mp mem with rfl | mem
      · decide
      · exact partSymbol_ascii (validPart_mem valid.1.2 mem)

/-- However it was constructed, a handle is ASCII. -/
theorem IdentityId.ascii (handle : IdentityId) (mem : c ∈ handle.bytes) : c < 128 := by
  rcases handle.constructed with valid | valid
  · exact validIdentity_ascii valid mem
  · exact validLegacyApplication_ascii valid mem

/-- A handle that starts with none of the three marks is a bare one. -/
theorem validIdentity_bare (valid : validIdentity bytes = true)
    (service : serviceMark.isPrefixOf bytes = false)
    (carbon : carbonMark.isPrefixOf bytes = false)
    (silicon : siliconMark.isPrefixOf bytes = false) :
    validPart bytes 1 80 = true := by
  unfold validIdentity at valid
  simp only [service, carbon, silicon, Bool.false_eq_true, if_false] at valid
  split at valid
  · simp at valid
  · simp only [Bool.and_eq_true] at valid
    exact valid.2

/-- No handle opens with a brace. -/
theorem validIdentity_not_braced {inner : Bytes} :
    validIdentity (Uuid.openBrace ++ inner) = false := by
  rw [Bool.eq_false_iff]
  intro valid
  have bare := validIdentity_bare valid rfl rfl rfl
  exact absurd (validPart_mem bare (c := 123) (by simp [Uuid.openBrace])) (by decide)

/-- No handle opens as a URN: `urn` is no mark and a bare handle has no colon. -/
theorem validIdentity_not_urn {inner : Bytes} :
    validIdentity (Uuid.urnPrefix ++ inner) = false := by
  rw [Bool.eq_false_iff]
  intro valid
  have bare := validIdentity_bare valid rfl rfl rfl
  exact absurd (validPart_mem bare (c := 58) (List.mem_append_left _ (by decide))) (by decide)

/-- The text is 32 hexadecimal digits, or 8-4-4-4-12 of them. -/
def uuidShaped (text : Bytes) : Bool := Uuid.simpleText text || Uuid.hyphenatedText text

/-- **Which handles the UUID crate also reads.**  Exactly the ones with the
simple or the hyphenated shape; the other two formats contain no handle. -/
theorem uuid_spelling_iff_of_handle {crate : UuidCrate} (documented : crate.Documented)
    {value : Bytes} (valid : validIdentity value = true) :
    crate.parseStr value = none ↔ uuidShaped value = false := by
  have read : (∃ u, crate.parseStr value = some u) ↔ uuidShaped value = true := by
    simp only [documented.parses, Uuid.spells_iff, uuidShaped, Bool.or_eq_true]
    constructor
    · rintro (simple | hyphenated | ⟨inner, rfl, -⟩ | ⟨inner, rfl, -⟩)
      · exact .inl simple
      · exact .inr hyphenated
      · simp [validIdentity_not_braced] at valid
      · simp [validIdentity_not_urn] at valid
    · rintro (simple | hyphenated)
      · exact .inl simple
      · exact .inr (.inl hyphenated)
  rw [Bool.eq_false_iff, ne_eq, ← read, ← Option.isSome_iff_exists,
    Option.not_isSome_iff_eq_none]

theorem identityOf_asStr {handle : IdentityId} (valid : validIdentity handle.bytes = true) :
    Id.identityOf handle.asStr = .ok (.identity handle) := by
  simp [Id.identityOf, IdentityId.parse, IdentityId.asStr, valid, Except.map]

theorem parse_ok_iff {value : Bytes} {handle : IdentityId} :
    IdentityId.parse value = .ok handle ↔ validIdentity value = true ∧ handle.bytes = value := by
  unfold IdentityId.parse
  constructor
  · intro parsed
    split at parsed
    · rename_i valid
      simp only [Except.ok.injEq] at parsed
      subst parsed
      exact ⟨valid, rfl⟩
    · simp at parsed
  · rintro ⟨valid, rfl⟩
    rw [dif_pos valid]

/-- A text of segment symbols only carries no mark: every mark has a symbol that
is none of them. -/
theorem isPrefixOf_eq_false_of_symbol {mark value : Bytes} (marked : c ∈ mark)
    (foreign : partSymbol c = false) (symbols : ∀ d ∈ value, partSymbol d = true) :
    mark.isPrefixOf value = false := by
  rw [Bool.eq_false_iff]
  intro isPrefix
  obtain ⟨rest, rfl⟩ := List.isPrefixOf_iff_prefix.mp isPrefix
  have := symbols c (List.mem_append_left _ marked)
  simp [foreign] at this

theorem localAppId_ok_iff {value : Bytes} :
    localAppId value = .ok () ↔
      (1 ≤ value.length ∧ value.length ≤ 80) ∧
        ∀ pair ∈ value.zipIdx,
          (pair.2 ≠ 0 ∧ (asciiDigit pair.1 = true ∨ pair.1 = 95 ∨ pair.1 = 45)) ∨
            asciiLowercase pair.1 = true := by
  unfold localAppId
  split
  · rename_i refused
    simp only [reduceCtorEq, false_iff]
    rintro ⟨length, symbols⟩
    simp only [Bool.or_eq_true, Bool.not_eq_true', Bool.and_eq_false_iff, decide_eq_false_iff_not,
      List.all_eq_false] at refused
    rcases refused with outside | ⟨pair, mem, bad⟩
    · omega
    · apply bad
      simpa [or_assoc] using symbols pair mem
  · rename_i kept
    simp only [true_iff]
    simp only [Bool.or_eq_true, Bool.not_eq_true', Bool.and_eq_false_iff, decide_eq_false_iff_not,
      not_or, Bool.not_eq_false, List.all_eq_true, not_not] at kept
    refine ⟨⟨kept.1.1, kept.1.2⟩, fun pair mem => ?_⟩
    simpa [or_assoc] using kept.2 pair mem

/-- The application-id validator accepts handles only. -/
theorem validIdentity_of_localAppId {value : Bytes} (accepted : localAppId value = .ok ()) :
    validIdentity value = true := by
  obtain ⟨length, symbols⟩ := localAppId_ok_iff.mp accepted
  have lower : ∀ {c : UInt8}, asciiLowercase c = true → partSymbol c = true := by
    intro c h
    simp only [asciiLowercase] at h
    simp [partSymbol, h]
  have allowed : ∀ c ∈ value, partSymbol c = true := by
    intro c mem
    obtain ⟨n, inside, rfl⟩ := List.mem_iff_getElem.mp mem
    have pair : (value[n], n) ∈ value.zipIdx := by
      rw [List.mem_zipIdx_iff_getElem?]
      simp
    rcases symbols _ pair with ⟨-, digit | underscore | dash⟩ | h
    · simp only [asciiDigit] at digit
      simp [partSymbol, digit]
    · have same : value[n] = 95 := underscore
      simp [partSymbol, same]
    · have same : value[n] = 45 := dash
      simp [partSymbol, same]
    · exact lower h
  unfold validIdentity
  rw [isPrefixOf_eq_false_of_symbol (c := 47) (by decide) (by decide) allowed,
    isPrefixOf_eq_false_of_symbol (c := 58) (by decide) (by decide) allowed,
    isPrefixOf_eq_false_of_symbol (c := 58) (by decide) (by decide) allowed]
  cases value with
  | nil => simp at length
  | cons first rest =>
      have head := symbols (first, 0) (by simp)
      simp only [ne_eq, not_true_eq_false, false_and, false_or, asciiLowercase,
        Bool.and_eq_true, decide_eq_true_eq] at head
      simp only [Bool.false_eq_true, if_false, Bool.and_eq_true, decide_eq_true_eq, validPart,
        List.all_eq_true]
      exact ⟨head, length, allowed⟩

/-! ## Round trips -/

/-- The identifiers of the public grammar: a resource UUID, or a handle that
`IdentityId::parse` returned. -/
def Id.Accepted : Id → Prop
  | .resource _ => True
  | .identity handle => ∃ value, IdentityId.parse value = .ok handle

/-- The handle's text has the shape of a UUID. -/
def Id.handleUuidShaped : Id → Bool
  | .resource _ => false
  | .identity handle => uuidShaped handle.bytes

/-- The printed text, read back by all three parsers, is the value again. -/
structure Id.RoundTrips (crate : UuidCrate) (id : Id) : Prop where
  fromStr : Id.fromStr crate (id.display crate) = .ok id
  deserialize : Id.deserialize crate (id.display crate) = .ok id
  decode : Id.decode crate (.text (id.display crate)) = .ok id

theorem Id.roundTrips_iff_fromStr {crate : UuidCrate} {id : Id} :
    id.RoundTrips crate ↔ Id.fromStr crate (id.display crate) = .ok id := by
  constructor
  · exact fun trip => trip.fromStr
  · intro read
    exact ⟨read, by simp [Id.deserialize, read, Except.mapError], read⟩

theorem fromStr_resource {crate : UuidCrate} (documented : crate.Documented) (uuid : Uuid) :
    Id.fromStr crate ((Id.resource uuid).display crate) = .ok (.resource uuid) := by
  simp [Id.fromStr, Id.display, documented.round_trip]

theorem fromStr_identity_iff {crate : UuidCrate} {handle : IdentityId}
    (valid : validIdentity handle.bytes = true) :
    Id.fromStr crate ((Id.identity handle).display crate) = .ok (.identity handle) ↔
      crate.parseStr handle.bytes = none := by
  have own : Id.identityOf handle.bytes = .ok (.identity handle) := identityOf_asStr valid
  unfold Id.fromStr Id.display IdentityId.asStr
  cases read : crate.parseStr handle.bytes with
  | none => simp [own]
  | some uuid => simp

/-- **The round trip holds exactly off the UUID-shaped handles.**  And the
validators let those through: what either of them accepts is read as a UUID
exactly when it has that shape. -/
theorem round_trip_iff (crate : UuidCrate) (documented : crate.Documented) :
    (∀ id : Id, id.Accepted → (id.RoundTrips crate ↔ id.handleUuidShaped = false)) ∧
      ∀ value : Bytes,
        ((∃ handle, IdentityId.parse value = .ok handle) ∨ localAppId value = .ok ()) →
          (crate.parseStr value = none ↔ uuidShaped value = false) := by
  refine ⟨fun id accepted => ?_, fun value accepted => ?_⟩
  · rw [Id.roundTrips_iff_fromStr]
    cases id with
    | resource uuid => simp [fromStr_resource documented, Id.handleUuidShaped]
    | identity handle =>
        obtain ⟨value, parsed⟩ := accepted
        obtain ⟨valid, rfl⟩ := parse_ok_iff.mp parsed
        rw [fromStr_identity_iff valid, uuid_spelling_iff_of_handle documented valid]
        rfl
  · apply uuid_spelling_iff_of_handle documented
    rcases accepted with ⟨handle, parsed⟩ | accepted
    · exact (parse_ok_iff.mp parsed).1
    · exact validIdentity_of_localAppId accepted

/-! ## Poles -/

/-- Thirty-two letters `a`: a bare application handle, and a simple UUID. -/
def hexHandleText : Bytes := List.replicate 32 97

def hexHandle : IdentityId := ⟨hexHandleText, .inl (by decide)⟩

/-- The identifier of this service itself. -/
def iamHandle : IdentityId := ⟨ascii "iam", .inl (by decide)⟩

theorem round_trip_iff_reference :
    (Id.identity iamHandle).RoundTrips Uuid.reference ∧
      Uuid.reference.parseStr iamHandle.bytes = none := by
  obtain ⟨trips, reads⟩ := round_trip_iff Uuid.reference Uuid.reference_documented
  have accepted : (Id.identity iamHandle).Accepted := ⟨ascii "iam", by decide⟩
  exact ⟨(trips _ accepted).mpr (by decide), (reads _ (.inr (by decide))).mpr (by decide)⟩

/-- Both validators accept the handle, and its printed text reads back as a
resource. -/
theorem hex_handle_reads_as_resource :
    (Id.identity hexHandle).Accepted ∧ localAppId hexHandleText = .ok () ∧
      ¬ (Id.identity hexHandle).RoundTrips Uuid.reference ∧
      Uuid.reference.parseStr hexHandleText ≠ none := by
  refine ⟨⟨hexHandleText, by decide⟩, by decide, fun trip => ?_, by decide⟩
  exact absurd trip.fromStr (by decide)

end SiliconIam.Domain
