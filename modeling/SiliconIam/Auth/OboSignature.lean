/-
# Auth.OboSignature -- what the signature of a delegation exchange binds

An application signs five components of its exchange, joined by dots: timestamp,
method, registered endpoint path, body hash and idempotency key.  Timestamp and
method end where the string says they end: a timestamp has no dot, a method has
no slash and a path begins with one.  Path, hash and key do not: a path and a key
may contain dots, so a long key can give up its front to a longer path
(`Exchange.Shifted`).

`canonical_eq_iff` is the exact law: two accepted exchanges have one canonical
string only when they agree in every component or one is the shift of the other.
`signature_binds` carries it to verification: a signature is accepted only for
those, or it shows a collision of the MAC.
-/
import SiliconIam.Theory.Framing
import SiliconIam.Domain.Id

namespace SiliconIam.Auth.OboSignature

open SiliconIam.Theory
open SiliconIam.Theory.Hex (Bytes ascii)
open SiliconIam.Domain (asciiDigit asciiLowercase)

set_option autoImplicit false

inductive ApiError where
  | invalidClient
  | preconditionRequired (precondition : String)
  | validation (field message : String)
deriving DecidableEq

/-! ## Symbols -/

def isAsciiUppercase (c : UInt8) : Bool := 65 ≤ c && c ≤ 90

def isAsciiGraphic (c : UInt8) : Bool := 33 ≤ c && c ≤ 126

def isAsciiControl (c : UInt8) : Bool := c ≤ 31 || c = 127

/-- Space, tab, line feed, form feed and carriage return. -/
def isAsciiWhitespace (c : UInt8) : Bool := c = 32 || c = 9 || c = 10 || c = 12 || c = 13

/-- The symbols of a body hash: `0-9` and `a-f`. -/
def isLowerHex (c : UInt8) : Bool := asciiDigit c || (97 ≤ c && c ≤ 102)

/-! ## Headers -/

/-- Names with their values, in the order they were received. -/
abbrev HeaderMap := List (String × Bytes)

def getAll (headers : HeaderMap) (name : String) : List Bytes :=
  (headers.filter fun header => header.1 = name).map Prod.snd

/-- `HeaderValue::to_str`: visible ASCII, space and tab. -/
def toStr (value : Bytes) : Option Bytes :=
  if value.all fun c => (32 ≤ c && c < 127) || c = 9 then some value else none

def timestampHeader : String := "x-obo-timestamp"

def signatureHeader : String := "x-obo-signature"

def preconditionOf (name : String) : String :=
  if name = timestampHeader then "X-OBO-Timestamp"
  else if name = signatureHeader then "X-OBO-Signature"
  else name

def exactlyOneHeader (headers : HeaderMap) (name : String) : Except ApiError Bytes :=
  match getAll headers name with
  | [] => .error (.preconditionRequired (preconditionOf name))
  | value :: more =>
      match toStr value with
      | none => .error .invalidClient
      | some value => if more ≠ [] then .error .invalidClient else .ok value

def requiredKey (headers : HeaderMap) : Except ApiError Bytes :=
  match getAll headers "idempotency-key" with
  | [] => .error (.preconditionRequired "Idempotency-Key")
  | value :: more =>
      match toStr value with
      | none => .error (.preconditionRequired "Idempotency-Key")
      | some rawKey =>
          if more ≠ [] then .error (.validation "idempotency_key" "must be supplied exactly once")
          else if !(16 ≤ rawKey.length && rawKey.length ≤ 255) || !rawKey.all isAsciiGraphic then
            .error (.validation "idempotency_key"
              "must contain 16 to 255 non-whitespace ASCII characters")
          else .ok rawKey

/-! ## The signed headers -/

structure SignedExchange where
  timestamp : Bytes
  signedAt : Int
  signature : Bytes
  idempotencyKey : Bytes
deriving DecidableEq

/-- Nanoseconds, the resolution of `OffsetDateTime`. -/
def secondNanos : Int := 1000000000

def signatureToleranceSeconds : Int := 60

def maxI64 : Nat := 9223372036854775807

/-- The last second of the year 9999. -/
def maxUnixTimestamp : Nat := 253402300799

def parseDigits (digits : Bytes) : Nat :=
  digits.foldl (fun value c => value * 10 + (c.toNat - 48)) 0

def ensureSignatureFresh (signedAt now : Int) : Except ApiError Unit :=
  if signedAt < now - signatureToleranceSeconds * secondNanos ∨
      signedAt > now + signatureToleranceSeconds * secondNanos then
    .error .invalidClient
  else .ok ()

/-- `parse::<i64>` of what was checked to be digits, and `from_unix_timestamp`. -/
def unixTimestamp (timestamp : Bytes) : Except ApiError Int :=
  let seconds := parseDigits timestamp
  if seconds > maxI64 then .error .invalidClient
  else if seconds > maxUnixTimestamp then .error .invalidClient
  else .ok (seconds * secondNanos)

def canonicalTimestamp (timestamp : Bytes) : Bool :=
  !(timestamp.isEmpty || timestamp.length > 20 || !timestamp.all asciiDigit ||
    (timestamp.length > 1 && timestamp.head? = some 48))

def signedExchange (headers : HeaderMap) (now : Int) : Except ApiError SignedExchange :=
  match exactlyOneHeader headers timestampHeader with
  | .error error => .error error
  | .ok timestamp =>
      if !canonicalTimestamp timestamp then .error .invalidClient
      else
        match unixTimestamp timestamp with
        | .error error => .error error
        | .ok signedAt =>
            match ensureSignatureFresh signedAt now with
            | .error error => .error error
            | .ok () =>
                match exactlyOneHeader headers signatureHeader with
                | .error error => .error error
                | .ok signatureHex =>
                    if signatureHex.length ≠ 64 || !signatureHex.all isLowerHex then
                      .error .invalidClient
                    else
                      match Hex.decode signatureHex with
                      | none => .error .invalidClient
                      | some signature =>
                          match requiredKey headers with
                          | .error error => .error error
                          | .ok idempotencyKey =>
                              .ok { timestamp, signedAt, signature, idempotencyKey }

/-! ## The downstream request -/

structure CanonicalRequest where
  method : Bytes
  bodySha256 : Bytes
  bodySha256Hex : Bytes
deriving DecidableEq

/-- What a method may contain after its first letter, besides letters: digits and
the punctuation of an HTTP token. -/
def methodSymbol (c : UInt8) : Bool :=
  asciiDigit c || c = 33 || c = 35 || c = 36 || c = 37 || c = 38 || c = 39 || c = 42 || c = 43 ||
    c = 45 || c = 46 || c = 94 || c = 95 || c = 96 || c = 124 || c = 126

def validMethod : Bytes → Bool
  | [] => false
  | first :: rest =>
      rest.length < 32 && isAsciiUppercase first &&
        rest.all fun c => isAsciiUppercase c || methodSymbol c

def canonicalRequest (method bodySha256 : Bytes) : Except ApiError CanonicalRequest :=
  if !validMethod method then
    .error (.validation "request.method"
      "must be a canonical uppercase HTTP method containing at most 32 characters")
  else if bodySha256.length ≠ 64 || !bodySha256.all isLowerHex then
    .error (.validation "request.body_sha256"
      "must be exactly 64 lowercase hexadecimal characters")
  else
    match Hex.decode bodySha256 with
    | none =>
        .error (.validation "request.body_sha256"
          "must be exactly 64 lowercase hexadecimal characters")
    | some digest =>
        .ok { method := method, bodySha256 := digest, bodySha256Hex := bodySha256 }

/-! ## Registered endpoints -/

/-- An endpoint as an application configures it. -/
structure ApplicationOboEndpoint (Metadata : Type) where
  endpointId : Bytes
  path : Bytes
  metadata : Metadata
  ttlSeconds : Int

def maxOboEndpoints : Nat := 50

def oboEndpointId (value : Bytes) : Except ApiError Unit :=
  if !(3 ≤ value.length && value.length ≤ 128) ||
      !((value.take 1).all asciiLowercase &&
        (value.drop 1).all fun c =>
          asciiLowercase c || asciiDigit c || c = 95 || c = 46 || c = 58 || c = 45) then
    .error (.validation "endpoint_id"
      "must be 3-128 characters, start with a lowercase letter, and contain only lowercase ASCII letters, digits, '_', '.', ':', or '-'")
  else .ok ()

def invalidEndpointPath (path : Bytes) : Bool :=
  path.length > 2048 || !(ascii "/").isPrefixOf path || (ascii "//").isPrefixOf path ||
    (path.contains 63 || path.contains 35) ||
    (path.any fun c => isAsciiControl c || isAsciiWhitespace c) ||
    ((path.splitOn 47).any fun part => part = ascii "." || part = ascii "..")

section Endpoints

variable {Metadata : Type} (oboMetadata : Metadata → Except ApiError Unit)

/-- The loop of `obo_endpoints` with the identifiers and the paths seen so far.
`oboMetadata` is its two checks of the metadata definition. -/
def oboEndpointsFrom (identifiers paths : List Bytes) :
    List (ApplicationOboEndpoint Metadata) → Except ApiError Unit
  | [] => .ok ()
  | endpoint :: rest =>
      if endpoint.ttlSeconds ≤ 0 then
        .error (.validation "obo_endpoints.ttl_seconds" "must be a positive integer in seconds")
      else
        match oboEndpointId endpoint.endpointId with
        | .error error => .error error
        | .ok () =>
            if identifiers.contains endpoint.endpointId then
              .error (.validation "obo_endpoints" "contains duplicate endpoint_id values")
            else if invalidEndpointPath endpoint.path then
              .error (.validation "obo_endpoints" "contains an invalid absolute endpoint path")
            else if paths.contains endpoint.path then
              .error (.validation "obo_endpoints" "contains duplicate endpoint paths")
            else
              match oboMetadata endpoint.metadata with
              | .error error => .error error
              | .ok () =>
                  oboEndpointsFrom (endpoint.endpointId :: identifiers) (endpoint.path :: paths)
                    rest

def oboEndpoints (values : List (ApplicationOboEndpoint Metadata)) : Except ApiError Unit :=
  if values.length > maxOboEndpoints then
    .error (.validation "obo_endpoints" "must contain at most 50 endpoints")
  else oboEndpointsFrom oboMetadata [] [] values

end Endpoints

/-! ## Signing -/

/-- What one exchange is verified from: its headers, its request and the path of
the endpoint it names. -/
structure Exchange where
  signed : SignedExchange
  request : CanonicalRequest
  endpointPath : Bytes
deriving DecidableEq

namespace Exchange

/-- Timestamp, method, path, body hash and key. -/
def components (exchange : Exchange) : Bytes × Bytes × Bytes × Bytes × Bytes :=
  (exchange.signed.timestamp, exchange.request.method, exchange.endpointPath,
    exchange.request.bodySha256Hex, exchange.signed.idempotencyKey)

def canonical (exchange : Exchange) : Bytes :=
  exchange.signed.timestamp ++ 46 :: (exchange.request.method ++ 46 :: (exchange.endpointPath ++
    46 :: (exchange.request.bodySha256Hex ++ 46 :: exchange.signed.idempotencyKey)))

/-- Every part was accepted by its own check. -/
structure Accepted {Metadata : Type} (oboMetadata : Metadata → Except ApiError Unit)
    (exchange : Exchange) : Prop where
  signed : ∃ headers now, signedExchange headers now = .ok exchange.signed
  request : ∃ method bodySha256, canonicalRequest method bodySha256 = .ok exchange.request
  path : ∃ endpoints, oboEndpoints oboMetadata endpoints = .ok () ∧
    ∃ endpoint ∈ endpoints, endpoint.path = exchange.endpointPath

/-- `later` has the longer path: it runs on over the other's body hash into the
front of the other's key, and the rest of that key holds the hash and the key of
`later`. -/
structure Shifted (earlier later : Exchange) : Prop where
  timestamp : earlier.signed.timestamp = later.signed.timestamp
  method : earlier.request.method = later.request.method
  runs : ∃ front : Bytes,
    later.endpointPath ++ [46] =
        earlier.endpointPath ++ 46 :: (earlier.request.bodySha256Hex ++ 46 :: front) ∧
      earlier.signed.idempotencyKey =
        front ++ later.request.bodySha256Hex ++ 46 :: later.signed.idempotencyKey

end Exchange

/-- `verify_exchange_signature`.  The HMAC accepts a secret of any length, so its
initialization error is not reachable. -/
def verifyExchangeSignature (mac : Bytes → Bytes → Bytes) (secret : Bytes) (exchange : Exchange) :
    Except ApiError Unit :=
  if mac secret exchange.canonical = exchange.signed.signature then .ok ()
  else .error .invalidClient

/-- Two messages with one tag under one key. -/
def Collision (mac : Bytes → Bytes → Bytes) (secret message message' : Bytes) : Prop :=
  message ≠ message' ∧ mac secret message = mac secret message'

/-! ## What the checks leave -/

theorem signedExchange_ok {headers : HeaderMap} {now : Int} {signed : SignedExchange}
    (accepted : signedExchange headers now = .ok signed) :
    canonicalTimestamp signed.timestamp ∧ ensureSignatureFresh signed.signedAt now = .ok () ∧
      requiredKey headers = .ok signed.idempotencyKey := by
  unfold signedExchange at accepted
  split at accepted
  · cases accepted
  · split at accepted
    · cases accepted
    · next digits =>
        split at accepted
        · cases accepted
        · split at accepted
          · cases accepted
          · next fresh =>
              split at accepted
              · cases accepted
              · split at accepted
                · cases accepted
                · split at accepted
                  · cases accepted
                  · split at accepted
                    · cases accepted
                    · next key =>
                        cases accepted
                        exact ⟨by simpa using digits, fresh, key⟩

theorem canonicalRequest_ok {method bodySha256 : Bytes} {request : CanonicalRequest}
    (accepted : canonicalRequest method bodySha256 = .ok request) :
    validMethod request.method ∧ request.bodySha256Hex.length = 64 ∧
      request.bodySha256Hex.all isLowerHex ∧
      Hex.decode request.bodySha256Hex = some request.bodySha256 := by
  unfold canonicalRequest at accepted
  split at accepted
  · cases accepted
  · next method =>
      split at accepted
      · cases accepted
      · next shape =>
          split at accepted
          · cases accepted
          · next digest =>
              cases accepted
              simp only [ne_eq, Bool.or_eq_true, decide_eq_true_eq, Bool.not_eq_true', not_or,
                Decidable.not_not, Bool.not_eq_false] at shape
              exact ⟨by simpa using method, shape.1, shape.2, digest⟩

theorem oboEndpointsFrom_path {Metadata : Type} {oboMetadata : Metadata → Except ApiError Unit}
    {identifiers paths : List Bytes} {values : List (ApplicationOboEndpoint Metadata)}
    (accepted : oboEndpointsFrom oboMetadata identifiers paths values = .ok ()) :
    ∀ endpoint ∈ values, invalidEndpointPath endpoint.path = false := by
  induction values generalizing identifiers paths with
  | nil => simp
  | cons first rest ih =>
      unfold oboEndpointsFrom at accepted
      split at accepted
      · cases accepted
      · split at accepted
        · cases accepted
        · split at accepted
          · cases accepted
          · split at accepted
            · cases accepted
            · next valid =>
                split at accepted
                · cases accepted
                · split at accepted
                  · cases accepted
                  · intro endpoint mem
                    rcases List.mem_cons.mp mem with rfl | mem
                    · simpa using valid
                    · exact ih accepted endpoint mem

/-! ## Where the components end -/

theorem dot_not_mem_timestamp {timestamp : Bytes} (digits : canonicalTimestamp timestamp) :
    46 ∉ timestamp := by
  intro dot
  simp only [canonicalTimestamp, Bool.not_eq_true', Bool.or_eq_false_iff, Bool.not_eq_false',
    List.all_eq_true] at digits
  exact absurd (digits.1.2 46 dot) (by decide)

theorem dot_not_mem_bodySha256 {text : Bytes} (digits : text.all isLowerHex) : 46 ∉ text := by
  intro dot
  exact absurd (List.all_eq_true.mp digits 46 dot) (by decide)

theorem slash_not_mem_method {method : Bytes} (valid : validMethod method) : 47 ∉ method := by
  intro slash
  cases method with
  | nil => cases slash
  | cons first rest =>
      simp only [validMethod, Bool.and_eq_true, List.all_eq_true] at valid
      rcases List.mem_cons.mp slash with rfl | inRest
      · exact absurd valid.1.2 (by decide)
      · exact absurd (valid.2 47 inRest) (by decide)

theorem path_begins {path : Bytes} (valid : invalidEndpointPath path = false) :
    ∃ rest, path = 47 :: rest := by
  simp only [invalidEndpointPath, Bool.or_eq_false_iff, Bool.not_eq_false'] at valid
  obtain ⟨rest, same⟩ := List.isPrefixOf_iff_prefix.mp valid.1.1.1.1.2
  exact ⟨rest, by rw [← same]; rfl⟩

/-- What an accepted exchange looks like, as far as its separators go. -/
structure Exchange.Delimited (exchange : Exchange) : Prop where
  timestamp : 46 ∉ exchange.signed.timestamp
  method : 47 ∉ exchange.request.method
  path : ∃ rest, exchange.endpointPath = 47 :: rest
  bodySha256 : 46 ∉ exchange.request.bodySha256Hex

theorem Exchange.Accepted.delimited {Metadata : Type}
    {oboMetadata : Metadata → Except ApiError Unit} {exchange : Exchange}
    (accepted : exchange.Accepted oboMetadata) : exchange.Delimited := by
  obtain ⟨headers, now, signed⟩ := accepted.signed
  obtain ⟨method, bodySha256, request⟩ := accepted.request
  obtain ⟨endpoints, configured, endpoint, mem, path⟩ := accepted.path
  have digits := (signedExchange_ok signed).1
  obtain ⟨methodValid, -, hexDigits, -⟩ := canonicalRequest_ok request
  have pathValid : invalidEndpointPath exchange.endpointPath = false := by
    unfold oboEndpoints at configured
    split at configured
    · cases configured
    · rw [← path]
      exact oboEndpointsFrom_path configured endpoint mem
  exact
    { timestamp := dot_not_mem_timestamp digits
      method := slash_not_mem_method methodValid
      path := path_begins pathValid
      bodySha256 := dot_not_mem_bodySha256 hexDigits }

/-! ## The exact law -/

namespace Exchange

/-- A timestamp in front of a dot, and a method in front of a dot and a slash. -/
theorem canonical_eq_parts {a b : Exchange} (da : a.Delimited) (db : b.Delimited) :
    a.canonical = b.canonical ↔
      a.signed.timestamp = b.signed.timestamp ∧ a.request.method = b.request.method ∧
        a.endpointPath ++ 46 :: (a.request.bodySha256Hex ++ 46 :: a.signed.idempotencyKey) =
          b.endpointPath ++ 46 :: (b.request.bodySha256Hex ++ 46 :: b.signed.idempotencyKey) := by
  constructor
  · intro same
    obtain ⟨timestamp, rest⟩ := Framing.append_stop_inj da.timestamp db.timestamp same
    obtain ⟨pathA, beginsA⟩ := da.path
    obtain ⟨pathB, beginsB⟩ := db.path
    -- The slash that opens the path is the first one after the timestamp.
    have freeA : 47 ∉ a.request.method ++ [46] := by simp [da.method]
    have freeB : 47 ∉ b.request.method ++ [46] := by simp [db.method]
    rw [beginsA, beginsB] at rest
    have opened : (a.request.method ++ [46]) ++ 47 :: (pathA ++
          46 :: (a.request.bodySha256Hex ++ 46 :: a.signed.idempotencyKey)) =
        (b.request.method ++ [46]) ++ 47 :: (pathB ++
          46 :: (b.request.bodySha256Hex ++ 46 :: b.signed.idempotencyKey)) := by
      simpa using rest
    obtain ⟨method, tail⟩ := Framing.append_stop_inj freeA freeB opened
    refine ⟨timestamp, List.append_cancel_right method, ?_⟩
    rw [beginsA, beginsB, List.cons_append, List.cons_append, tail]
  · rintro ⟨timestamp, method, tail⟩
    unfold canonical
    rw [timestamp, method, tail]

theorem components_eq_iff {a b : Exchange} :
    a.components = b.components ↔
      a.signed.timestamp = b.signed.timestamp ∧ a.request.method = b.request.method ∧
        a.endpointPath = b.endpointPath ∧ a.request.bodySha256Hex = b.request.bodySha256Hex ∧
        a.signed.idempotencyKey = b.signed.idempotencyKey := by
  simp only [components, Prod.mk.injEq]

/-- The canonical string leaves exactly one doubt: where the path ends. -/
theorem canonical_eq_iff {a b : Exchange} (da : a.Delimited) (db : b.Delimited) :
    a.canonical = b.canonical ↔ a.components = b.components ∨ a.Shifted b ∨ b.Shifted a := by
  rw [canonical_eq_parts da db, components_eq_iff,
    Framing.front_word_rest_eq_iff da.bodySha256 db.bodySha256]
  constructor
  · rintro ⟨timestamp, method, ⟨path, word, key⟩ | runs | runs⟩
    · exact .inl ⟨timestamp, method, path, word, key⟩
    · exact .inr (.inl ⟨timestamp, method, runs⟩)
    · exact .inr (.inr ⟨timestamp.symm, method.symm, runs⟩)
  · rintro (⟨timestamp, method, path, word, key⟩ | shift | shift)
    · exact ⟨timestamp, method, .inl ⟨path, word, key⟩⟩
    · exact ⟨shift.timestamp, shift.method, .inr (.inl shift.runs)⟩
    · exact ⟨shift.timestamp.symm, shift.method.symm, .inr (.inr shift.runs)⟩

end Exchange

/-- **What a signature binds.**  The canonical strings of two accepted exchanges are
equal exactly when the exchanges agree in all five components or one is the shift
of the other; and the tag an application made for one exchange is accepted for
another only in these cases, or when the two strings are a collision of the MAC. -/
theorem signature_binds {Metadata : Type} (oboMetadata : Metadata → Except ApiError Unit)
    (mac : Bytes → Bytes → Bytes) :
    (∀ a b : Exchange, a.Accepted oboMetadata → b.Accepted oboMetadata →
      (a.canonical = b.canonical ↔ a.components = b.components ∨ a.Shifted b ∨ b.Shifted a)) ∧
    ∀ (a b : Exchange) (secret : Bytes), a.Accepted oboMetadata → b.Accepted oboMetadata →
      b.signed.signature = mac secret a.canonical →
      verifyExchangeSignature mac secret b = .ok () →
      a.components = b.components ∨ a.Shifted b ∨ b.Shifted a ∨
        Collision mac secret a.canonical b.canonical := by
  have strings : ∀ a b : Exchange, a.Accepted oboMetadata → b.Accepted oboMetadata →
      (a.canonical = b.canonical ↔ a.components = b.components ∨ a.Shifted b ∨ b.Shifted a) :=
    fun a b acceptedA acceptedB =>
      Exchange.canonical_eq_iff acceptedA.delimited acceptedB.delimited
  refine ⟨strings, ?_⟩
  intro a b secret acceptedA acceptedB made verified
  by_cases same : a.canonical = b.canonical
  · rcases (strings a b acceptedA acceptedB).mp same with equal | shift | shift
    · exact .inl equal
    · exact .inr (.inl shift)
    · exact .inr (.inr (.inl shift))
  · unfold verifyExchangeSignature at verified
    split at verified
    · next tag => exact .inr (.inr (.inr ⟨same, made.symm.trans tag.symm⟩))
    · cases verified

/-! ## Two requests with one string -/

namespace Scenario

def signatureHex : Bytes := List.replicate 64 48

def hashA : Bytes := List.replicate 64 97

def hashB : Bytes := List.replicate 64 98

def shortKey : Bytes := ascii "0123456789abcdef"

def longKey : Bytes := hashB ++ 46 :: shortKey

def shortPath : Bytes := ascii "/files"

def longPath : Bytes := shortPath ++ 46 :: hashA

def headers (key : Bytes) : HeaderMap :=
  [(timestampHeader, ascii "1700000000"), (signatureHeader, signatureHex),
    ("idempotency-key", key)]

def signedWith (key : Bytes) : SignedExchange where
  timestamp := ascii "1700000000"
  signedAt := 1700000000 * secondNanos
  signature := List.replicate 32 0
  idempotencyKey := key

def requestWith (hash : Bytes) (byte : UInt8) : CanonicalRequest where
  method := ascii "POST"
  bodySha256 := List.replicate 32 byte
  bodySha256Hex := hash

def endpoints : List (ApplicationOboEndpoint Unit) :=
  [{ endpointId := ascii "files.upload", path := shortPath, metadata := (), ttlSeconds := 300 },
    { endpointId := ascii "files.other", path := longPath, metadata := (), ttlSeconds := 300 }]

/-- The hash of `a` bodies sent to the short path. -/
def short : Exchange :=
  { signed := signedWith longKey, request := requestWith hashA 170, endpointPath := shortPath }

/-- The hash of `b` bodies sent to the long path. -/
def long : Exchange :=
  { signed := signedWith shortKey, request := requestWith hashB 187, endpointPath := longPath }

theorem endpoints_configured : oboEndpoints (fun _ : Unit => .ok ()) endpoints = .ok () := by
  decide +kernel

theorem short_accepted : short.Accepted fun _ : Unit => .ok () where
  signed := ⟨headers longKey, 1700000000 * secondNanos, by decide +kernel⟩
  request := ⟨ascii "POST", hashA, by decide +kernel⟩
  path := ⟨endpoints, endpoints_configured, _, List.mem_cons_self, rfl⟩

theorem long_accepted : long.Accepted fun _ : Unit => .ok () where
  signed := ⟨headers shortKey, 1700000000 * secondNanos, by decide +kernel⟩
  request := ⟨ascii "POST", hashB, by decide +kernel⟩
  path := ⟨endpoints, endpoints_configured, _, List.mem_cons_of_mem _ List.mem_cons_self, rfl⟩

end Scenario

/-- Two accepted exchanges with different paths, body hashes and keys are signed as
one string, so either one's tag is accepted for both. -/
theorem signature_ambiguous :
    ∃ a b : Exchange, a.Accepted (fun _ : Unit => .ok ()) ∧ b.Accepted (fun _ : Unit => .ok ()) ∧
      a.components ≠ b.components ∧ a.canonical = b.canonical ∧
      ∀ (mac : Bytes → Bytes → Bytes) (secret : Bytes),
        a.signed.signature = mac secret a.canonical →
        verifyExchangeSignature mac secret
          { b with signed := { b.signed with signature := a.signed.signature } } = .ok () := by
  have same : Scenario.short.canonical = Scenario.long.canonical := by decide +kernel
  refine ⟨Scenario.short, Scenario.long, Scenario.short_accepted, Scenario.long_accepted,
    by decide +kernel, same, ?_⟩
  intro mac secret made
  rw [made, same]
  exact if_pos rfl

end SiliconIam.Auth.OboSignature
