/-
# Webhook.Verification -- which deliveries a receiver accepts

The sender writes event id, timestamp, key version and signature into four
headers; the receiver reads each of them back with a decoder of its own and
compares the printed value with the header, so only the sender's spelling
passes (`parsePositiveI64_ok`, `parseUuidHeader_ok`, `decodeSignature_ok`).
`verifyAt_ok` is the whole check as a statement about values.

The signature covers the timestamp, a dot and the body; the event id is bound
through the body, which has to name the id of the header.  Neither it nor the
signature covers the key version, and `rebind_version` puts one secret under two
versions (`rebound_versions_accept`).

HMAC-SHA256, the UUID crate and the reading of the event from the body are
parameters.
-/
import SiliconIam.Theory.Decimal
import SiliconIam.Auth.OboSignature

namespace SiliconIam.Webhook.Verification

open SiliconIam.Theory
open SiliconIam.Theory.Hex (Bytes ascii)
open SiliconIam.Domain (Uuid UuidCrate)
open SiliconIam.Auth.OboSignature (HeaderMap getAll toStr isLowerHex isAsciiGraphic)

set_option autoImplicit false

/-! ## Values -/

def eventIdHeader : String := "x-silicon-iam-event-id"

def timestampHeader : String := "x-silicon-iam-timestamp"

def keyVersionHeader : String := "x-silicon-iam-key-version"

def signatureHeader : String := "x-silicon-iam-signature"

inductive WebhookError where
  | invalidSecret
  | invalidKeyVersion
  | keyVersionAlreadyExists (version : Int)
  | unknownKeyVersion (version : Int)
  | missingHeader (name : String)
  | duplicateHeader (name : String)
  | invalidHeader (name : String)
  | timestampOutsideTolerance
  | bodyTooLarge (actual limit : Nat)
  | invalidSignature
  | invalidPayload
  | eventIdMismatch
deriving DecidableEq

/-- The range of `i64`. -/
def isI64 (n : Int) : Prop := -9223372036854775808 ≤ n ∧ n ≤ 9223372036854775807

instance : DecidablePred isI64 := fun n => by unfold isI64; infer_instance

/-- `i64`. -/
structure I64 where
  val : Int
  range : isI64 val
deriving DecidableEq

/-- `as u64`. -/
def asU64 (n : Int) : Int := n % 18446744073709551616

/-- `i64::abs_diff`: a wrapping subtraction of the smaller one. -/
def absDiff (a b : I64) : Int :=
  if a.val < b.val then asU64 (asU64 b.val - asU64 a.val) else asU64 (asU64 a.val - asU64 b.val)

/-- The wrapping subtraction never wraps. -/
theorem absDiff_eq (a b : I64) : absDiff a b = (a.val - b.val).natAbs := by
  obtain ⟨a, ha⟩ := a
  obtain ⟨b, hb⟩ := b
  simp only [isI64] at ha hb
  simp only [absDiff, asU64]
  split <;> omega

/-! ## Secrets -/

structure WebhookSecret where
  value : Bytes
  valid : (32 ≤ value.length ∧ value.length ≤ 512) ∧ value.all isAsciiGraphic = true
deriving DecidableEq

def WebhookSecret.new (secret : Bytes) : Except WebhookError WebhookSecret :=
  if valid : (32 ≤ secret.length ∧ secret.length ≤ 512) ∧ secret.all isAsciiGraphic = true then
    .ok ⟨secret, valid⟩
  else .error .invalidSecret

def validateVersion (version : Int) : Except WebhookError Unit :=
  if version ≤ 0 then .error .invalidKeyVersion else .ok ()

/-- `BTreeMap<i64, WebhookSecret>`. -/
structure WebhookSecretKeyring where
  secrets : List (Int × WebhookSecret)

namespace WebhookSecretKeyring

def get (keyring : WebhookSecretKeyring) (version : Int) : Option WebhookSecret :=
  keyring.secrets.lookup version

def new (version : Int) (secret : WebhookSecret) : Except WebhookError WebhookSecretKeyring :=
  match validateVersion version with
  | .error error => .error error
  | .ok () => .ok ⟨[(version, secret)]⟩

def insert (keyring : WebhookSecretKeyring) (version : Int) (secret : WebhookSecret) :
    Except WebhookError WebhookSecretKeyring :=
  match validateVersion version with
  | .error error => .error error
  | .ok () =>
      if (keyring.get version).isSome then .error (.keyVersionAlreadyExists version)
      else .ok ⟨(version, secret) :: keyring.secrets⟩

def rebindVersion (keyring : WebhookSecretKeyring) (existingVersion newVersion : Int) :
    Except WebhookError WebhookSecretKeyring :=
  match validateVersion newVersion with
  | .error error => .error error
  | .ok () =>
      if (keyring.get newVersion).isSome then .error (.keyVersionAlreadyExists newVersion)
      else
        match keyring.get existingVersion with
        | none => .error (.unknownKeyVersion existingVersion)
        | some secret => .ok ⟨(newVersion, secret) :: keyring.secrets⟩

def secret (keyring : WebhookSecretKeyring) (version : Int) : Except WebhookError WebhookSecret :=
  match keyring.get version with
  | none => .error (.unknownKeyVersion version)
  | some secret => .ok secret

end WebhookSecretKeyring

/-! ## Header decoders -/

def exactlyOneHeader (headers : HeaderMap) (name : String) : Except WebhookError Bytes :=
  match getAll headers name with
  | [] => .error (.missingHeader name)
  | value :: more =>
      if more ≠ [] then .error (.duplicateHeader name)
      else
        match toStr value with
        | none => .error (.invalidHeader name)
        | some value => .ok value

/-- `str::parse::<i64>`. -/
def parseI64 (value : Bytes) : Option I64 :=
  (Decimal.readInt value).bind fun n => if range : isI64 n then some ⟨n, range⟩ else none

def parsePositiveI64 (name : String) (value : Bytes) : Except WebhookError I64 :=
  match parseI64 value with
  | none => .error (.invalidHeader name)
  | some parsed =>
      if parsed.val ≤ 0 ∨ Decimal.ofInt parsed.val ≠ value then .error (.invalidHeader name)
      else .ok parsed

def decodeLowerHex (byte : UInt8) : Option UInt8 :=
  if 48 ≤ byte ∧ byte ≤ 57 then some (byte - 48)
  else if 97 ≤ byte ∧ byte ≤ 102 then some (byte - 97 + 10)
  else none

/-- The loop over the digits, two for each byte. -/
def decodeDigits : Bytes → Option Bytes
  | high :: low :: rest =>
      match decodeLowerHex high, decodeLowerHex low, decodeDigits rest with
      | some high, some low, some bytes => some ((high <<< 4 ||| low) :: bytes)
      | _, _, _ => none
  | _ => some []

def signatureMark : Bytes := ascii "v1="

def decodeSignature (value : Bytes) : Except WebhookError Bytes :=
  if signatureMark.isPrefixOf value then
    let encoded := value.drop signatureMark.length
    if encoded.length ≠ 64 ∨ encoded.all isLowerHex = false then .error .invalidSignature
    else
      match decodeDigits encoded with
      | none => .error .invalidSignature
      | some signature => .ok signature
  else .error .invalidSignature

/-! ## Sending and receiving -/

/-- HMAC-SHA256: key, text, and 32 bytes. -/
abbrev Mac := Bytes → Bytes → { tag : Bytes // tag.length = 32 }

/-- What is authenticated: timestamp, a dot, the body. -/
def signedText (timestamp : Int) (body : Bytes) : Bytes := Decimal.ofInt timestamp ++ 46 :: body

section

variable (mac : Mac) (crate : UuidCrate)

/-- The sender's `signature`. -/
def signature (secret : Bytes) (timestamp : Int) (body : Bytes) : Bytes :=
  signatureMark ++ Hex.encode (mac secret (signedText timestamp body))

def parseUuidHeader (name : String) (value : Bytes) : Except WebhookError Uuid :=
  match crate.parseStr value with
  | none => .error (.invalidHeader name)
  | some parsed => if crate.display parsed ≠ value then .error (.invalidHeader name) else .ok parsed

/-- The event a body holds, as far as the headers are concerned. -/
structure VerifiedWebhook (Event : Type) where
  eventId : Uuid
  event : Event

structure WebhookVerifier where
  keyring : WebhookSecretKeyring
  tolerance : Nat
  maxBodyBytes : Nat

variable {Event : Type} (readEvent : Bytes → Except WebhookError (VerifiedWebhook Event))

def parseAuthenticatedEvent (body : Bytes) (headerEventId : Uuid) :
    Except WebhookError (VerifiedWebhook Event) :=
  match readEvent body with
  | .error error => .error error
  | .ok read => if read.eventId ≠ headerEventId then .error .eventIdMismatch else .ok read

/-- `verify_at` from its four header values on. -/
def verifyValues (verifier : WebhookVerifier) (body : Bytes) (now : I64)
    (eventIdText timestampText keyVersionText signatureText : Bytes) :
    Except WebhookError (VerifiedWebhook Event) := do
  let eventId ← parseUuidHeader crate eventIdHeader eventIdText
  let timestamp ← parsePositiveI64 timestampHeader timestampText
  let keyVersion ← parsePositiveI64 keyVersionHeader keyVersionText
  if absDiff now timestamp > verifier.tolerance then .error .timestampOutsideTolerance
  else if body.length > verifier.maxBodyBytes then
    .error (.bodyTooLarge body.length verifier.maxBodyBytes)
  else
    let supplied ← decodeSignature signatureText
    let secret ← verifier.keyring.secret keyVersion.val
    if (mac secret.value (timestampText ++ 46 :: body)).val ≠ supplied then
      .error .invalidSignature
    else parseAuthenticatedEvent readEvent body eventId

def verifyAt (verifier : WebhookVerifier) (headers : HeaderMap) (body : Bytes) (now : I64) :
    Except WebhookError (VerifiedWebhook Event) := do
  let eventIdText ← exactlyOneHeader headers eventIdHeader
  let timestampText ← exactlyOneHeader headers timestampHeader
  let keyVersionText ← exactlyOneHeader headers keyVersionHeader
  let signatureText ← exactlyOneHeader headers signatureHeader
  verifyValues mac crate readEvent verifier body now eventIdText timestampText keyVersionText
    signatureText

end

/-! ## Each decoder accepts one spelling -/

theorem exactlyOneHeader_ok {headers : HeaderMap} {name : String} {value : Bytes} :
    exactlyOneHeader headers name = .ok value ↔
      getAll headers name = [value] ∧ toStr value = some value := by
  rw [exactlyOneHeader]
  cases found : getAll headers name with
  | nil => simp
  | cons first more =>
      simp only [ne_eq, List.cons.injEq]
      by_cases single : more = []
      · rw [if_neg (by simp [single])]
        simp only [single, and_true]
        cases text : toStr first with
        | none =>
            simp only [reduceCtorEq, false_iff]
            rintro ⟨rfl, read⟩
            rw [text] at read
            cases read
        | some same =>
            have : same = first := by
              simp only [toStr] at text
              split at text
              · cases text
                rfl
              · cases text
            subst this
            constructor
            · intro read
              cases read
              exact ⟨rfl, text⟩
            · rintro ⟨rfl, -⟩
              rfl
      · simp [single]

theorem parseI64_ofInt (n : I64) : parseI64 (Decimal.ofInt n.val) = some n := by
  simp [parseI64, Decimal.readInt_ofInt, n.range]

theorem parsePositiveI64_ok {name : String} {value : Bytes} {n : I64} :
    parsePositiveI64 name value = .ok n ↔ 0 < n.val ∧ value = Decimal.ofInt n.val := by
  rw [parsePositiveI64]
  constructor
  · intro parsed
    cases read : parseI64 value with
    | none => simp [read] at parsed
    | some m =>
        simp only [read] at parsed
        split at parsed
        · cases parsed
        · rename_i legal
          cases parsed
          simp only [not_or, Int.not_le, ne_eq, not_not] at legal
          exact ⟨legal.1, legal.2.symm⟩
  · rintro ⟨positive, rfl⟩
    rw [parseI64_ofInt]
    simpa using positive

theorem parseUuidHeader_ok {crate : UuidCrate} (documented : crate.Documented) {name : String}
    {value : Bytes} {u : Uuid} :
    parseUuidHeader crate name value = .ok u ↔ value = crate.display u := by
  rw [parseUuidHeader]
  constructor
  · intro parsed
    cases read : crate.parseStr value with
    | none => simp [read] at parsed
    | some v =>
        simp only [read] at parsed
        split at parsed
        · cases parsed
        · rename_i same
          cases parsed
          exact (not_not.mp same).symm
  · rintro rfl
    simp [documented.round_trip]

set_option maxRecDepth 20000 in
theorem decodeLowerHex_digits (b : UInt8) :
    decodeLowerHex (Hex.digit (b / 16)) = some (b / 16) ∧
      decodeLowerHex (Hex.digit (b % 16)) = some (b % 16) ∧ (b / 16) <<< 4 ||| (b % 16) = b := by
  revert b
  apply Hex.forall_byte
  decide

theorem decodeDigits_encode (bytes : Bytes) : decodeDigits (Hex.encode bytes) = some bytes := by
  induction bytes with
  | nil => rfl
  | cons b rest ih =>
      obtain ⟨high, low, byte⟩ := decodeLowerHex_digits b
      simp [Hex.encode, decodeDigits, high, low, byte, ih]

set_option maxRecDepth 20000 in
theorem digit_of_decodeLowerHex (c : UInt8) :
    decodeLowerHex c = none ∨
      ∃ v : Fin 16, decodeLowerHex c = some (UInt8.ofNat v) ∧ Hex.digit (UInt8.ofNat v) = c := by
  revert c
  apply Hex.forall_byte
  decide

theorem halves (high low : Fin 16) :
    (UInt8.ofNat high <<< 4 ||| UInt8.ofNat low) / 16 = UInt8.ofNat high ∧
      (UInt8.ofNat high <<< 4 ||| UInt8.ofNat low) % 16 = UInt8.ofNat low := by
  revert high low
  decide

theorem encode_decodeDigits {text bytes : Bytes} {n : Nat} (length : text.length = 2 * n)
    (read : decodeDigits text = some bytes) : Hex.encode bytes = text ∧ bytes.length = n := by
  induction n generalizing text bytes with
  | zero =>
      have empty : text = [] := List.eq_nil_of_length_eq_zero length
      subst empty
      cases read
      exact ⟨rfl, rfl⟩
  | succ n ih =>
      obtain ⟨high, low, rest, rfl⟩ : ∃ high low rest, text = high :: low :: rest := by
        cases text with
        | nil => simp at length
        | cons high text =>
            cases text with
            | nil =>
                simp only [List.length_cons, List.length_nil] at length
                omega
            | cons low rest => exact ⟨high, low, rest, rfl⟩
      simp only [List.length_cons] at length
      obtain none_ | ⟨h, highValue, highDigit⟩ := digit_of_decodeLowerHex high
      · simp [decodeDigits, none_] at read
      obtain none_ | ⟨l, lowValue, lowDigit⟩ := digit_of_decodeLowerHex low
      · simp [decodeDigits, none_] at read
      cases later : decodeDigits rest with
      | none => simp [decodeDigits, later] at read
      | some tail =>
          simp only [decodeDigits, highValue, lowValue, later, Option.some.injEq] at read
          obtain ⟨same, count⟩ := ih (by omega) later
          obtain ⟨upper, lower⟩ := halves h l
          subst read
          rw [Hex.encode, upper, lower, highDigit, lowDigit, same, List.length_cons, count]
          exact ⟨rfl, rfl⟩

set_option maxRecDepth 20000 in
theorem isLowerHex_of_isDigit (c : UInt8) : Hex.IsDigit c → isLowerHex c = true := by
  revert c
  apply Hex.forall_byte
  decide

/-- `decode_signature` inverts the sender's encoding and rejects everything else. -/
theorem decodeSignature_ok {value tag : Bytes} :
    decodeSignature value = .ok tag ↔
      tag.length = 32 ∧ value = signatureMark ++ Hex.encode tag := by
  rw [decodeSignature]
  constructor
  · intro read
    split at read
    · rename_i marked
      obtain ⟨encoded, rfl⟩ := List.isPrefixOf_iff_prefix.mp marked
      simp only [List.drop_left] at read
      split at read
      · cases read
      · rename_i legal
        have length : encoded.length = 2 * 32 := by
          by_contra other
          exact legal (.inl other)
        cases digits : decodeDigits encoded with
        | none => simp [digits] at read
        | some bytes =>
            simp only [digits] at read
            cases read
            obtain ⟨same, count⟩ := encode_decodeDigits length digits
            exact ⟨count, by rw [same]⟩
    · cases read
  · rintro ⟨length, rfl⟩
    have all_ : (Hex.encode tag).all isLowerHex = true := by
      rw [List.all_eq_true]
      exact fun c mem => isLowerHex_of_isDigit c (Hex.encode_digits mem)
    simp [length, all_, decodeDigits_encode]

/-! ## The whole check -/

/-- The four headers as the sender writes them for these values. -/
structure Sent (crate : UuidCrate) (headers : HeaderMap) (eventId : Uuid)
    (timestamp keyVersion : Int) (signature : Bytes) : Prop where
  eventId : getAll headers eventIdHeader = [crate.display eventId]
  timestamp : getAll headers timestampHeader = [Decimal.ofInt timestamp]
  keyVersion : getAll headers keyVersionHeader = [Decimal.ofInt keyVersion]
  signature : getAll headers signatureHeader = [signature]

/-- What a verifier demands of the values. -/
structure Authentic {Event : Type} (readEvent : Bytes → Except WebhookError (VerifiedWebhook Event))
    (verifier : WebhookVerifier) (body : Bytes) (now : I64) (timestamp keyVersion : Int)
    (secret : WebhookSecret) (webhook : VerifiedWebhook Event) : Prop where
  positive : 0 < timestamp ∧ 0 < keyVersion
  fresh : (now.val - timestamp).natAbs ≤ verifier.tolerance
  bounded : body.length ≤ verifier.maxBodyBytes
  known : verifier.keyring.get keyVersion = some secret
  event : readEvent body = .ok webhook

theorem secret_ok {keyring : WebhookSecretKeyring} {version : Int} {secret : WebhookSecret} :
    keyring.secret version = .ok secret ↔ keyring.get version = some secret := by
  rw [WebhookSecretKeyring.secret]
  cases keyring.get version with
  | none => simp
  | some other => simp

theorem parseAuthenticatedEvent_ok {Event : Type}
    {readEvent : Bytes → Except WebhookError (VerifiedWebhook Event)} {body : Bytes} {id : Uuid}
    {webhook : VerifiedWebhook Event} :
    parseAuthenticatedEvent readEvent body id = .ok webhook ↔
      readEvent body = .ok webhook ∧ webhook.eventId = id := by
  rw [parseAuthenticatedEvent]
  cases readEvent body with
  | error error => simp
  | ok other =>
      simp only
      by_cases same : other.eventId = id
      · rw [if_neg (by simpa using same)]
        constructor
        · intro read
          cases read
          exact ⟨rfl, same⟩
        · rintro ⟨read, -⟩
          exact read
      · rw [if_pos same]
        simp only [reduceCtorEq, false_iff]
        rintro ⟨read, named⟩
        cases read
        exact same named

theorem bind_ok {α β : Type} {x : Except WebhookError α} {f : α → Except WebhookError β} {b : β} :
    (x >>= f) = .ok b ↔ ∃ a, x = .ok a ∧ f a = .ok b := by
  cases x with
  | error error => simp [bind, Except.bind]
  | ok a => simp [bind, Except.bind]

theorem ite_error_ok {α : Type} {P : Prop} [Decidable P] {e : WebhookError}
    {x : Except WebhookError α} {a : α} :
    (if P then .error e else x) = .ok a ↔ ¬ P ∧ x = .ok a := by
  by_cases h : P <;> simp [h]

section

variable {mac : Mac} {crate : UuidCrate} {Event : Type}
variable {readEvent : Bytes → Except WebhookError (VerifiedWebhook Event)}

theorem verifyValues_ok (documented : crate.Documented) {verifier : WebhookVerifier} {body : Bytes}
    {now : I64} {id time version tag : Bytes} {webhook : VerifiedWebhook Event} :
    verifyValues mac crate readEvent verifier body now id time version tag = .ok webhook ↔
      ∃ (timestamp keyVersion : I64) (secret : WebhookSecret),
        (id = crate.display webhook.eventId ∧ time = Decimal.ofInt timestamp.val ∧
          version = Decimal.ofInt keyVersion.val ∧
          tag = signature mac secret.value timestamp.val body) ∧
        Authentic readEvent verifier body now timestamp.val keyVersion.val secret webhook := by
  simp only [verifyValues, bind_ok, ite_error_ok, parseUuidHeader_ok documented,
    parsePositiveI64_ok, decodeSignature_ok, secret_ok, parseAuthenticatedEvent_ok, absDiff_eq]
  constructor
  · rintro ⟨eventId, rfl, timestamp, ⟨past, rfl⟩, keyVersion, ⟨named, rfl⟩, fresh, short, supplied,
      ⟨length, rfl⟩, secret, known, same, event, rfl⟩
    have tag := not_not.mp same
    refine ⟨timestamp, keyVersion, secret, ⟨rfl, rfl, rfl, ?_⟩, ⟨past, named⟩, by omega, by omega,
      known, event⟩
    rw [signature, signedText, tag]
  · rintro ⟨timestamp, keyVersion, secret, ⟨rfl, rfl, rfl, rfl⟩, authentic⟩
    have fresh := authentic.fresh
    have short := authentic.bounded
    refine ⟨webhook.eventId, rfl, timestamp, ⟨authentic.positive.1, rfl⟩, keyVersion,
      ⟨authentic.positive.2, rfl⟩, by omega, by omega,
      (mac secret.value (signedText timestamp.val body)).val,
      ⟨(mac secret.value (signedText timestamp.val body)).property, rfl⟩, secret, authentic.known,
      ?_, authentic.event, rfl⟩
    simp [signedText]

end

/-! The sender's texts are header values. -/

theorem toStr_of_printable {value : Bytes} (printable : ∀ c ∈ value, 32 ≤ c ∧ c < 127) :
    toStr value = some value := by
  rw [toStr, if_pos]
  rw [List.all_eq_true]
  intro c mem
  simp [printable c mem]

set_option maxRecDepth 20000 in
theorem printable_of_hex (c : UInt8) : Hex.IsDigit c → 32 ≤ c ∧ c < 127 := by
  revert c
  apply Hex.forall_byte
  decide

set_option maxRecDepth 20000 in
theorem printable_of_digit (c : UInt8) : Decimal.isDigit c = true → 32 ≤ c ∧ c < 127 := by
  revert c
  apply Hex.forall_byte
  decide

theorem mem_group {digits : Bytes} {c : UInt8} (mem : c ∈ Uuid.group digits) :
    c = Uuid.hyphen ∨ c ∈ digits := by
  simp only [Uuid.group, List.mem_append, List.mem_cons] at mem
  rcases mem with mem | rfl | mem | rfl | mem | rfl | mem | rfl | mem
  · exact .inr (List.mem_of_mem_take mem)
  · exact .inl rfl
  · exact .inr (List.mem_of_mem_drop (List.mem_of_mem_take mem))
  · exact .inl rfl
  · exact .inr (List.mem_of_mem_drop (List.mem_of_mem_take mem))
  · exact .inl rfl
  · exact .inr (List.mem_of_mem_drop (List.mem_of_mem_take mem))
  · exact .inl rfl
  · exact .inr (List.mem_of_mem_drop mem)

theorem toStr_display {crate : UuidCrate} (documented : crate.Documented) (u : Uuid) :
    toStr (crate.display u) = some (crate.display u) := by
  apply toStr_of_printable
  rw [documented.prints]
  intro c mem
  rcases mem_group mem with rfl | mem
  · decide
  · exact printable_of_hex c (Hex.encode_digits mem)

theorem toStr_ofInt (n : Int) : toStr (Decimal.ofInt n) = some (Decimal.ofInt n) := by
  have digits : ∀ c ∈ Decimal.decimal n.natAbs, 32 ≤ c ∧ c < 127 := fun c mem =>
    printable_of_digit c (List.all_eq_true.mp (Decimal.lastDigits_digits _ _) c mem)
  apply toStr_of_printable
  intro c mem
  rw [Decimal.ofInt] at mem
  split at mem
  · rcases List.mem_cons.mp mem with rfl | mem
    · decide
    · exact digits c mem
  · exact digits c mem

theorem toStr_signature (mac : Mac) (secret : Bytes) (timestamp : Int) (body : Bytes) :
    toStr (signature mac secret timestamp body) = some (signature mac secret timestamp body) := by
  apply toStr_of_printable
  intro c mem
  rcases List.mem_append.mp mem with mem | mem
  · have mark : signatureMark.all (fun d => 32 ≤ d && d < 127) = true := rfl
    simpa using List.all_eq_true.mp mark c mem
  · exact printable_of_hex c (Hex.encode_digits mem)

section

variable {mac : Mac} {crate : UuidCrate} {Event : Type}
variable {readEvent : Bytes → Except WebhookError (VerifiedWebhook Event)}

theorem verifyAt_ok (documented : crate.Documented) {verifier : WebhookVerifier}
    {headers : HeaderMap} {body : Bytes} {now : I64} {webhook : VerifiedWebhook Event} :
    verifyAt mac crate readEvent verifier headers body now = .ok webhook ↔
      ∃ (timestamp keyVersion : I64) (secret : WebhookSecret),
        Sent crate headers webhook.eventId timestamp.val keyVersion.val
          (signature mac secret.value timestamp.val body) ∧
        Authentic readEvent verifier body now timestamp.val keyVersion.val secret webhook := by
  simp only [verifyAt, bind_ok, exactlyOneHeader_ok, verifyValues_ok documented]
  constructor
  · rintro ⟨id, ⟨oneId, -⟩, time, ⟨oneTime, -⟩, version, ⟨oneVersion, -⟩, tag, ⟨oneTag, -⟩,
      timestamp, keyVersion, secret, ⟨rfl, rfl, rfl, rfl⟩, authentic⟩
    exact ⟨timestamp, keyVersion, secret, ⟨oneId, oneTime, oneVersion, oneTag⟩, authentic⟩
  · rintro ⟨timestamp, keyVersion, secret, sent, authentic⟩
    exact ⟨_, ⟨sent.eventId, toStr_display documented _⟩, _, ⟨sent.timestamp, toStr_ofInt _⟩, _,
      ⟨sent.keyVersion, toStr_ofInt _⟩, _, ⟨sent.signature, toStr_signature _ _ _ _⟩, timestamp,
      keyVersion, secret, ⟨rfl, rfl, rfl, rfl⟩, authentic⟩

/-- The header stands there once and is read as this number, in whatever spelling. -/
def Reads (headers : HeaderMap) (name : String) (n : I64) : Prop :=
  ∃ text, getAll headers name = [text] ∧ parseI64 text = some n

theorem eq_of_reads {headers : HeaderMap} {name : String} {n m : I64} (reads : Reads headers name n)
    (spelled : getAll headers name = [Decimal.ofInt m.val]) : m = n := by
  obtain ⟨text, one, read⟩ := reads
  rw [spelled, List.cons.injEq] at one
  rw [← one.1, parseI64_ofInt] at read
  exact Option.some.inj read

/-- **Canonical deliveries.** A delivery is accepted exactly when its four headers are, once each,
the sender's spelling of an event id, a positive timestamp within the tolerance, a positive key
version and the signature of timestamp and body under that version's secret, and the body is short
enough and holds an event with that id.  Two accepted header lists for one body whose timestamps
and key versions are read as the same numbers agree in all four headers.  `decodeSignature`
inverts the sender's encoding and rejects every other string. -/
theorem accepts_canonical (documented : crate.Documented) (verifier : WebhookVerifier)
    (body : Bytes) (now : I64) :
    (∀ headers webhook, verifyAt mac crate readEvent verifier headers body now = .ok webhook ↔
      ∃ (timestamp keyVersion : I64) (secret : WebhookSecret),
        Sent crate headers webhook.eventId timestamp.val keyVersion.val
          (signature mac secret.value timestamp.val body) ∧
        Authentic readEvent verifier body now timestamp.val keyVersion.val secret webhook) ∧
    (∀ headers others webhook other later timestamp keyVersion,
      verifyAt mac crate readEvent verifier headers body now = .ok webhook →
      verifyAt mac crate readEvent verifier others body later = .ok other →
      Reads headers timestampHeader timestamp → Reads others timestampHeader timestamp →
      Reads headers keyVersionHeader keyVersion → Reads others keyVersionHeader keyVersion →
      webhook = other ∧
        ∀ name ∈ [eventIdHeader, timestampHeader, keyVersionHeader, signatureHeader],
          getAll headers name = getAll others name) ∧
    ∀ value tag, decodeSignature value = .ok tag ↔
      tag.length = 32 ∧ value = signatureMark ++ Hex.encode tag := by
  refine ⟨fun headers webhook => verifyAt_ok documented, ?_, fun value tag => decodeSignature_ok⟩
  intro headers others webhook other later timestamp keyVersion accepted accepted' time time'
    version version'
  obtain ⟨t, v, secret, sent, authentic⟩ := (verifyAt_ok documented).mp accepted
  obtain ⟨t', v', secret', sent', authentic'⟩ := (verifyAt_ok documented).mp accepted'
  have event := authentic.event.symm.trans authentic'.event
  cases event
  obtain rfl := eq_of_reads time sent.timestamp
  obtain rfl := eq_of_reads time' sent'.timestamp
  obtain rfl := eq_of_reads version sent.keyVersion
  obtain rfl := eq_of_reads version' sent'.keyVersion
  have key := authentic.known.symm.trans authentic'.known
  cases key
  refine ⟨rfl, fun name mem => ?_⟩
  simp only [List.mem_cons, List.not_mem_nil, or_false] at mem
  rcases mem with rfl | rfl | rfl | rfl
  · exact sent.eventId.trans sent'.eventId.symm
  · exact sent.timestamp.trans sent'.timestamp.symm
  · exact sent.keyVersion.trans sent'.keyVersion.symm
  · exact sent.signature.trans sent'.signature.symm

end

/-! ## One secret under two versions -/

/-- A stand-in with 32-byte tags that depend on key and text. -/
def shortMac : Mac := fun key text =>
  ⟨(key.take 16 ++ text.take 16 ++ List.replicate 32 0).take 32, by simp; omega⟩

def sampleSecret : WebhookSecret := ⟨List.replicate 32 97, by decide⟩

/-- After `rebind_version(1, 2)`. -/
def rebound : WebhookSecretKeyring := ⟨[(2, sampleSecret), (1, sampleSecret)]⟩

def reboundVerifier : WebhookVerifier where
  keyring := rebound
  tolerance := 300
  maxBodyBytes := 1024 * 1024

def sampleId : Uuid := ⟨List.replicate 16 1, by decide⟩

def sampleNow : I64 := ⟨1700000000, by decide⟩

/-- An event with the sample's id. -/
def sampleBody : Bytes :=
  ascii "\x7b\"spec_version\":\"1.0\"," ++
    ascii "\"event_id\":\"01010101-0101-0101-0101-010101010101\"," ++
    ascii "\"event_type\":\"organization.membership.created.v1\"," ++
    ascii "\"occurred_at\":\"2023-11-14T22:13:20Z\",\"organization_id\":null," ++
    ascii "\"aggregate\":\x7b\"type\":\"membership\"," ++
    ascii "\"id\":\"00000000-0000-0000-0000-000000000002\",\"version\":1\x7d," ++
    ascii "\"data\":\x7b\"name\":\"Ada\"\x7d\x7d"

def readSample (body : Bytes) : Except WebhookError (VerifiedWebhook Unit) :=
  if body = sampleBody then .ok ⟨sampleId, ()⟩ else .error .invalidPayload

/-- The headers of one delivery under a key version. -/
def headersFor (body : Bytes) (version : Int) : HeaderMap :=
  [(eventIdHeader, Uuid.reference.display sampleId),
    (timestampHeader, Decimal.ofInt sampleNow.val),
    (keyVersionHeader, Decimal.ofInt version),
    (signatureHeader, signature shortMac sampleSecret.value sampleNow.val body)]

theorem headersFor_sent (body : Bytes) (version : Int) :
    Sent Uuid.reference (headersFor body version) sampleId sampleNow.val version
      (signature shortMac sampleSecret.value sampleNow.val body) :=
  ⟨rfl, rfl, rfl, rfl⟩

def sampleHeaders (version : Int) : HeaderMap := headersFor sampleBody version

theorem sample_accepted (version : I64) (one : version.val = 1 ∨ version.val = 2) :
    verifyAt shortMac Uuid.reference readSample reboundVerifier (sampleHeaders version.val)
      sampleBody sampleNow = .ok ⟨sampleId, ()⟩ := by
  apply (verifyAt_ok Uuid.reference_documented).mpr
  refine ⟨sampleNow, version, sampleSecret, headersFor_sent _ _, ⟨by decide, ?_⟩, by decide,
    by decide +kernel, ?_, if_pos rfl⟩
  · omega
  · rcases one with h | h <;> rw [h] <;> rfl

theorem accepts_canonical_sample :
    ∃ (timestamp keyVersion : I64) (secret : WebhookSecret),
      Sent Uuid.reference (sampleHeaders 1) sampleId timestamp.val keyVersion.val
        (signature shortMac secret.value timestamp.val sampleBody) ∧
      Authentic readSample reboundVerifier sampleBody sampleNow timestamp.val keyVersion.val secret
        ⟨sampleId, ()⟩ :=
  ((accepts_canonical Uuid.reference_documented reboundVerifier sampleBody sampleNow).1 _ _).mp
    (sample_accepted ⟨1, by decide⟩ (.inl rfl))

/-- Two header lists of one event, with one timestamp and one signature, that differ in the key
version are both accepted. -/
theorem rebound_versions_accept :
    (WebhookSecretKeyring.new 1 sampleSecret).bind (fun ring => ring.rebindVersion 1 2) =
        .ok rebound ∧
      verifyAt shortMac Uuid.reference readSample reboundVerifier (sampleHeaders 1) sampleBody
        sampleNow = .ok ⟨sampleId, ()⟩ ∧
      verifyAt shortMac Uuid.reference readSample reboundVerifier (sampleHeaders 2) sampleBody
        sampleNow = .ok ⟨sampleId, ()⟩ ∧
      getAll (sampleHeaders 1) keyVersionHeader ≠ getAll (sampleHeaders 2) keyVersionHeader :=
  ⟨rfl, sample_accepted ⟨1, by decide⟩ (.inl rfl),
    sample_accepted ⟨2, by decide⟩ (.inr rfl), by decide⟩

end SiliconIam.Webhook.Verification
