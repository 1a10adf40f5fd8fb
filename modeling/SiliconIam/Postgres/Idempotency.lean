/-
# Postgres.Idempotency -- records, digest candidates, classification

The functions of the idempotency layer, one transaction's view at a time.

A record is keyed by the digests of caller and key under one pepper version.  A
later pod finds it again by trying every retained version, and during the
identity cutover the caller's and the payload's former spellings as well: the
`DigestCandidate`s of a request.  `claimCandidates_eq` says what they are, one
candidate for every retained version of every spelling, the request's own caller
first; `classifyExisting_eq` says what a found record answers.

Instants are microseconds.
-/
import Mathlib.Data.List.Sort
import SiliconIam.Crypto.Digest
import SiliconIam.Crypto.Encryption

namespace SiliconIam.Postgres.Idempotency

open SiliconIam.Theory.Hex (Bytes ascii)
open SiliconIam.Domain (Id)
open SiliconIam.Crypto

set_option autoImplicit false

deriving instance DecidableEq for SecretDigest

/-! ## Contract types -/

def second : Nat := 1000000

def idempotencyTtlHours : Nat := 24

def minSecretReplaySeconds : Nat := 1

def maxSecretReplaySeconds : Nat := 10 * 60

def maxReplayBodyBytes : Nat := 64 * 1024

def advisoryLockDomain : Bytes := ascii "silicon-iam:v1:application-idempotency-lock"

def isAsciiGraphic (byte : UInt8) : Bool := 33 ≤ byte && byte ≤ 126

/-- A validated opaque client-supplied key. -/
structure IdempotencyKey where
  bytes : Bytes
  valid : 16 ≤ bytes.length ∧ bytes.length ≤ 255 ∧ bytes.all isAsciiGraphic
deriving DecidableEq

def IdempotencyKey.parse (value : Bytes) : Option IdempotencyKey :=
  if valid : 16 ≤ value.length ∧ value.length ≤ 255 ∧ value.all isAsciiGraphic then
    some ⟨value, valid⟩
  else none

/-- The availability window of a response with a one-time secret. -/
structure OneTimeResponseReplayTtl where
  seconds : Nat
  bounds : minSecretReplaySeconds ≤ seconds ∧ seconds ≤ maxSecretReplaySeconds
deriving DecidableEq

def OneTimeResponseReplayTtl.new (seconds subsecNanos : Nat) : Option OneTimeResponseReplayTtl :=
  if bounds : minSecretReplaySeconds ≤ seconds ∧ seconds ≤ maxSecretReplaySeconds then
    if subsecNanos ≠ 0 then none else some ⟨seconds, bounds⟩
  else none

def OneTimeResponseReplayTtl.default : OneTimeResponseReplayTtl :=
  ⟨maxSecretReplaySeconds, by decide⟩

structure IdempotencyRequest where
  route : Bytes
  callerScope : Bytes
  key : IdempotencyKey
  requestPayload : Bytes
  containsOneTimeSecret : Bool
deriving DecidableEq

structure ReplayResponse where
  status : Nat
  body : Bytes
deriving DecidableEq

inductive AppError where
  | conflict (code : String)
  | internal (category : String)
deriving DecidableEq

/-- The ring that peppers digests, and the service that seals responses. -/
structure CryptoService where
  tokenPeppers : Keyring
  encryption : EncryptionService

inductive RecordStatus where
  | processing
  | completed
  | failed
  | expired
deriving DecidableEq

/-- A row of `idempotency_records`. -/
structure Record where
  id : Id
  digestKeyVersion : Int16
  callerScopeDigest : Bytes
  route : Bytes
  idempotencyKeyDigest : Bytes
  requestDigest : Bytes
  status : RecordStatus
  containsOneTimeSecret : Bool
  createdAt : Nat
  expiresAt : Nat
  responseStatus : Option Nat
  response : Option EncryptedValue
  responseExpiresAt : Option Nat
deriving DecidableEq

structure DigestCandidate where
  caller : SecretDigest Bytes
  key : SecretDigest Bytes
  request : SecretDigest Bytes
deriving DecidableEq

/-! ## Routes -/

def isLowercase (byte : UInt8) : Bool := 97 ≤ byte && byte ≤ 122

def isDigit (byte : UInt8) : Bool := 48 ≤ byte && byte ≤ 57

def isStaticRouteSegment (segment : Bytes) : Bool :=
  segment ≠ ascii "." && segment ≠ ascii ".." &&
    segment.all fun byte =>
      isLowercase byte || isDigit byte || byte == 45 || byte == 95 || byte == 46

def isRouteParameterName (value : Bytes) : Bool :=
  value ≠ [] && value.zipIdx.all fun (byte, index) =>
    isLowercase byte || byte == 95 || (0 < index && isDigit byte)

/-- A colon and a name. -/
def isNamedRouteSegment : Bytes → Bool
  | 58 :: value => isRouteParameterName value
  | _ => false

/-- A name between braces. -/
def isBracedRouteSegment : Bytes → Bool
  | 123 :: rest => rest.getLast? == some 125 && isRouteParameterName rest.dropLast
  | _ => false

/-- `str::split_once`. -/
def splitOnce (separator : UInt8) : Bytes → Option (Bytes × Bytes)
  | [] => none
  | byte :: rest =>
      if byte = separator then some ([], rest)
      else (splitOnce separator rest).map fun (left, right) => (byte :: left, right)

def validateRoute (route : Bytes) : Except AppError Unit :=
  match splitOnce 32 route with
  | none => .error (.internal "idempotency_route")
  | some (method, path) =>
      if 255 < route.length ∨
          method ∉ [ascii "POST", ascii "PUT", ascii "PATCH", ascii "DELETE"] ∨
          path.length < 2 ∨ path.head? ≠ some 47 ∨ path.getLast? = some 47 ∨
          ((path.splitOn 47).drop 1).any (fun segment =>
            segment == [] || !isStaticRouteSegment segment && !isNamedRouteSegment segment &&
              !isBracedRouteSegment segment) then
        .error (.internal "idempotency_route")
      else .ok ()

/-! ## Candidates -/

section Digests

variable (mac : Key → Bytes → Bytes) (plane : Option Id)

def digestAtVersion (digests : List (SecretDigest Bytes)) (version : Int16) :
    Option (SecretDigest Bytes) :=
  digests.find? fun digest => digest.keyVersion = version

/-- `ok_or_else(|| internal(category))`. -/
def orInternal {α : Type} (category : String) : Option α → Except AppError α
  | some value => .ok value
  | none => .error (.internal category)

/-- The loop body of `raw_digest_candidates`. -/
def candidateOf (keys requests : List (SecretDigest Bytes)) (callerDigest : SecretDigest Bytes) :
    Except AppError DigestCandidate := do
  let keyDigest ← orInternal "idempotency_digest_versions"
    (digestAtVersion keys callerDigest.keyVersion)
  let requestDigest ← orInternal "idempotency_digest_versions"
    (digestAtVersion requests callerDigest.keyVersion)
  pure { caller := callerDigest, key := keyDigest, request := requestDigest }

def rawDigestCandidates (ring : Keyring) (caller key request : Bytes) :
    Except AppError (List DigestCandidate) := do
  let callers := digestSecrets mac ring plane .idempotencyCallerScope caller
  let keys := digestSecrets mac ring plane .idempotencyKey key
  let requests := digestSecrets mac ring plane .idempotencyRequest request
  let candidates ← callers.mapM (candidateOf keys requests)
  if candidates.length ≠ keys.length ∨ candidates.length ≠ requests.length then
    .error (.internal "idempotency_digest_versions")
  else pure (candidates.insertionSort fun a b => a.caller.keyVersion ≤ b.caller.keyVersion)

/-- `translated` is what the cutover bridge answers for this caller and payload. -/
def digestCandidates (ring : Keyring) (caller key request : Bytes)
    (translated : Option (Bytes × Bytes)) : Except AppError (List DigestCandidate) := do
  let candidates ← rawDigestCandidates mac plane ring caller key request
  match translated with
  | some (legacyCaller, legacyRequest) => do
      let underLegacyCaller ← rawDigestCandidates mac plane ring legacyCaller key request
      let underLegacyRequest ← rawDigestCandidates mac plane ring legacyCaller key legacyRequest
      pure (candidates ++ underLegacyCaller ++ underLegacyRequest)
  | none => pure candidates

/-- The candidates of `claim_with_legacy` and `replay_if_present_with_legacy`. -/
def claimCandidates (ring : Keyring) (request : IdempotencyRequest)
    (translated legacy : Option (Bytes × Bytes)) : Except AppError (List DigestCandidate) := do
  validateRoute request.route
  let candidates ← digestCandidates mac plane ring request.callerScope request.key.bytes
    request.requestPayload translated
  match legacy with
  | some (caller, payload) => do
      let extended ← rawDigestCandidates mac plane ring caller request.key.bytes payload
      pure (candidates ++ extended)
  | none => pure candidates

/-- The candidate new reservations are stored under. -/
def currentCandidate (ring : Keyring) (request : IdempotencyRequest)
    (candidates : List DigestCandidate) : Except AppError DigestCandidate :=
  match digestSecret mac ring plane .idempotencyCallerScope request.callerScope with
  | .error _ => .error (.internal "idempotency_digest")
  | .ok currentCallerDigest =>
      orInternal "idempotency_digest_versions"
        (candidates.find? fun candidate => candidate.caller = currentCallerDigest)

/-- The request digest a found record is compared with: that of the candidate
which spells the record's own request, if one does. -/
def matchingRequest (candidates : List DigestCandidate) (candidate : DigestCandidate)
    (stored : Bytes) : SecretDigest Bytes :=
  match candidates.find? fun item =>
      item.caller = candidate.caller ∧ item.key = candidate.key ∧ stored = item.request.bytes with
  | some item => item.request
  | none => candidate.request

/-! ## What the candidates are -/

/-- The candidate of one spelling under one pepper. -/
def candidateAt (key : Bytes) (spelling : Bytes × Bytes) (entry : Int16 × Key) :
    DigestCandidate where
  caller := keyedDigest mac plane entry.2 entry.1 digestDomain
    DigestPurpose.idempotencyCallerScope.label spelling.1
  key := keyedDigest mac plane entry.2 entry.1 digestDomain
    DigestPurpose.idempotencyKey.label key
  request := keyedDigest mac plane entry.2 entry.1 digestDomain
    DigestPurpose.idempotencyRequest.label spelling.2

/-- The callers and payloads under which a request is looked up, its own first. -/
def spellings (request : IdempotencyRequest) (translated legacy : Option (Bytes × Bytes)) :
    List (Bytes × Bytes) :=
  (request.callerScope, request.requestPayload) ::
    ((match translated with
      | some (legacyCaller, legacyRequest) =>
          [(legacyCaller, request.requestPayload), (legacyCaller, legacyRequest)]
      | none => []) ++ legacy.toList)

variable {mac plane}

@[simp] theorem keyedDigest_keyVersion (key : Key) (version : Int16)
    (domain purpose value : Bytes) :
    (keyedDigest mac plane key version domain purpose value).keyVersion = version := rfl

theorem digestAtVersion_eq {ring : Keyring} {entry : Int16 × Key} (mem : entry ∈ ring.keys)
    (purpose : DigestPurpose) (secret : Bytes) :
    digestAtVersion (digestSecrets mac ring plane purpose secret) entry.1 =
      some (keyedDigest mac plane entry.2 entry.1 digestDomain purpose.label secret) := by
  have retained : ring.Retains entry.1 entry.2 := Keyring.retains_of_mem mem
  have look : lookupKey ring.keys entry.1 = some entry.2 := by
    unfold Keyring.Retains Keyring.key at retained
    split at retained
    · rename_i look
      cases retained
      exact look
    · cases retained
  simp only [lookupKey, Option.map_eq_some_iff] at look
  obtain ⟨found, find, value⟩ := look
  have version : found.1 = entry.1 := by simpa using List.find?_some find
  have asked : (fun item : Int16 × Key => decide (item.1 = entry.1)) =
      fun item => item.1 == entry.1 := rfl
  simp only [digestAtVersion, digestSecrets, List.find?_map, Function.comp_def, keyedDigest,
    asked, find, Option.map_some, version, value]

/-- Every retained version has one candidate, in version order. -/
theorem rawDigestCandidates_eq (ring : Keyring) (caller key request : Bytes) :
    rawDigestCandidates mac plane ring caller key request =
      .ok (ring.keys.map (candidateAt mac plane key (caller, request))) := by
  have each : ∀ entries : List (Int16 × Key), (∀ entry ∈ entries, entry ∈ ring.keys) →
      (entries.map fun entry => keyedDigest mac plane entry.2 entry.1 digestDomain
          DigestPurpose.idempotencyCallerScope.label caller).mapM
        (candidateOf (digestSecrets mac ring plane .idempotencyKey key)
          (digestSecrets mac ring plane .idempotencyRequest request)) =
      Except.ok (entries.map (candidateAt mac plane key (caller, request))) := by
    intro entries
    induction entries with
    | nil => exact fun _ => rfl
    | cons entry rest ih =>
        intro mem
        have later := ih fun item inRest => mem item (List.mem_cons_of_mem _ inRest)
        have own := mem entry List.mem_cons_self
        have first : candidateOf (digestSecrets mac ring plane .idempotencyKey key)
            (digestSecrets mac ring plane .idempotencyRequest request)
            (keyedDigest mac plane entry.2 entry.1 digestDomain
              DigestPurpose.idempotencyCallerScope.label caller) =
            .ok (candidateAt mac plane key (caller, request) entry) := by
          simp only [candidateOf, keyedDigest_keyVersion, digestAtVersion_eq own]
          rfl
        rw [List.map_cons, List.mapM_cons, first, later]
        rfl
  have ordered : (ring.keys.map (candidateAt mac plane key (caller, request))).Pairwise
      fun a b => a.caller.keyVersion ≤ b.caller.keyVersion :=
    List.pairwise_map.mpr (ring.ordered.imp fun less => Int16.le_of_lt less)
  have callers : digestSecrets mac ring plane .idempotencyCallerScope caller =
      ring.keys.map fun entry => keyedDigest mac plane entry.2 entry.1 digestDomain
        DigestPurpose.idempotencyCallerScope.label caller := rfl
  unfold rawDigestCandidates
  dsimp only
  rw [callers, each ring.keys fun _ mem => mem]
  simp [bind, Except.bind, pure, Except.pure, digestSecrets, ordered.insertionSort_eq]

/-- **The candidates of a request**: every spelling under every retained version. -/
theorem claimCandidates_eq {request : IdempotencyRequest} (ring : Keyring)
    (translated legacy : Option (Bytes × Bytes)) (route : validateRoute request.route = .ok ()) :
    claimCandidates mac plane ring request translated legacy =
      .ok ((spellings request translated legacy).flatMap fun spelling =>
        ring.keys.map (candidateAt mac plane request.key.bytes spelling)) := by
  unfold claimCandidates digestCandidates spellings
  cases translated <;> cases legacy <;>
    simp [route, rawDigestCandidates_eq, bind, Except.bind, pure, Except.pure]

/-- Refused routes are the only way to have no candidates. -/
theorem claimCandidates_eq_error {request : IdempotencyRequest} {ring : Keyring}
    {translated legacy : Option (Bytes × Bytes)} {error : AppError}
    (refused : claimCandidates mac plane ring request translated legacy = .error error) :
    validateRoute request.route = .error error := by
  cases route : validateRoute request.route with
  | ok valid => rw [claimCandidates_eq ring translated legacy route] at refused; cases refused
  | error other => simpa [claimCandidates, route, bind, Except.bind] using refused

theorem planeValue_injective (plane : Option Id) {x y : Bytes}
    (same : planeValue plane x = planeValue plane y) : x = y := by
  cases plane with
  | none => exact same
  | some environment => exact List.append_cancel_left same

/-- Under one version and purpose, in one plane, a digest determines key and value. -/
theorem keyedDigest_inj (ideal : IdealMac mac) {version : Int16} {purpose : DigestPurpose}
    {key key' : Key} {x y : Bytes}
    (same : (keyedDigest mac plane key version digestDomain purpose.label x).bytes =
      (keyedDigest mac plane key' version digestDomain purpose.label y).bytes) :
    key = key' ∧ x = y := by
  obtain ⟨sameKey, message⟩ := ideal _ _ _ _ same
  have whole : (secretInput purpose version plane x).message =
      (secretInput purpose version plane y).message := message
  rw [DigestInput.message_eq, DigestInput.message_eq] at whole
  exact ⟨sameKey, planeValue_injective plane (List.append_cancel_left whole)⟩

variable (mac plane)

/-! ## Locks -/

/-- `i64::from_be_bytes`. -/
def i64FromBeBytes (bytes : Bytes) : Int :=
  (UInt64.ofNat (bytes.foldl (fun acc byte => acc * 256 + byte.toNat) 0)).toInt64.toInt

def advisoryLockId (sha256 : Bytes → Bytes) (route : Bytes) (candidate : DigestCandidate) : Int :=
  i64FromBeBytes ((sha256
    (advisoryLockDomain ++ candidate.caller.bytes ++ route ++ candidate.key.bytes)).take 8)

/-- `Vec::dedup`: drop consecutive repetitions. -/
def dedup : List Int → List Int
  | [] => []
  | lock :: rest => if rest.head? = some lock then dedup rest else lock :: dedup rest

/-- The locks of a claim, in the order in which it takes them. -/
def rotationLocks (sha256 : Bytes → Bytes) (route : Bytes) (candidates : List DigestCandidate) :
    List Int :=
  dedup ((candidates.map (advisoryLockId sha256 route)).insertionSort (· ≤ ·))

theorem mem_dedup {lock : Int} : ∀ {locks : List Int}, lock ∈ dedup locks ↔ lock ∈ locks
  | [] => by simp [dedup]
  | first :: rest => by
      rw [dedup]
      split
      · rename_i repeated
        have again : first ∈ rest := List.mem_of_mem_head? repeated
        rw [mem_dedup, List.mem_cons]
        constructor
        · exact .inr
        · rintro (rfl | later)
          · exact again
          · exact later
      · rw [List.mem_cons, List.mem_cons, mem_dedup]

/-- A claim takes the lock of each of its candidates, and no other. -/
theorem mem_rotationLocks {sha256 : Bytes → Bytes} {route : Bytes}
    {candidates : List DigestCandidate} {lock : Int} :
    lock ∈ rotationLocks sha256 route candidates ↔
      ∃ candidate ∈ candidates, advisoryLockId sha256 route candidate = lock := by
  rw [rotationLocks, mem_dedup, List.mem_insertionSort, List.mem_map]

/-! ## Rows -/

/-- The row the unique key of a candidate selects. -/
def matchesCandidate (route : Bytes) (candidate : DigestCandidate) (row : Record) : Bool :=
  row.digestKeyVersion = candidate.caller.keyVersion ∧
    row.callerScopeDigest = candidate.caller.bytes ∧ row.route = route ∧
    row.idempotencyKeyDigest = candidate.key.bytes

def responseIsAvailable (row : Record) (transactionTimestamp : Nat) : Bool :=
  match row.responseExpiresAt with
  | some expiry => transactionTimestamp < expiry
  | none => false

def responseContext (id : Id) : EncryptionContext := .global .idempotencySecretResponse id

def classifyExisting (aead : Aead) (crypto : CryptoService) (existing : Record)
    (responseAvailable : Bool) (expected : SecretDigest Bytes) : Except AppError ReplayResponse :=
  if existing.requestDigest ≠ expected.bytes then .error (.conflict "idempotency_conflict")
  else
    match existing.status with
    | .processing => .error (.conflict "idempotency_in_progress")
    | .failed => .error (.conflict "idempotency_outcome_unknown")
    | .expired => .error (.conflict "idempotency_expired")
    | .completed =>
        if !responseAvailable then .error (.conflict "idempotency_expired")
        else
          match existing.responseStatus, existing.response with
          | some status, some sealedBody =>
              if sealedBody.nonce.length ≠ 12 then .error (.internal "idempotency_response")
              else
                match crypto.encryption.decrypt aead plane (responseContext existing.id)
                    sealedBody with
                | .ok body => .ok { status := status, body := body }
                | .error _ => .error (.internal "idempotency_decryption")
          | _, _ => .error (.internal "idempotency_response")

/-- The row `claim_with_legacy` inserts. -/
def reservation (id : Id) (request : IdempotencyRequest) (current : DigestCandidate)
    (transactionTimestamp : Nat) : Record where
  id := id
  digestKeyVersion := current.caller.keyVersion
  callerScopeDigest := current.caller.bytes
  route := request.route
  idempotencyKeyDigest := current.key.bytes
  requestDigest := current.request.bytes
  status := .processing
  containsOneTimeSecret := request.containsOneTimeSecret
  createdAt := transactionTimestamp
  expiresAt := transactionTimestamp + idempotencyTtlHours * 3600 * second
  responseStatus := none
  response := none
  responseExpiresAt := none

/-- `complete_with_replay_ttl` on the leased row. -/
def completeWithReplayTtl (aead : Aead) (crypto : CryptoService) (nonce : Bytes)
    (transactionTimestamp : Nat) (response : ReplayResponse) (ttl : OneTimeResponseReplayTtl)
    (row : Record) : Except AppError Record :=
  if response.status < 200 ∨ 299 < response.status ∨ maxReplayBodyBytes < response.body.length then
    .error (.internal "idempotency_response")
  else
    match crypto.encryption.encrypt aead nonce (responseContext row.id) response.body with
    | .error _ => .error (.internal "idempotency_encryption")
    | .ok sealedBody =>
        if row.status ≠ .processing then .error (.internal "idempotency_lease")
        else .ok { row with
          status := .completed
          responseStatus := some response.status
          response := some sealedBody
          responseExpiresAt := some
            (if row.containsOneTimeSecret then
              min (row.createdAt + ttl.seconds * second)
                (transactionTimestamp + ttl.seconds * second)
            else row.expiresAt) }

/-- The row `cancel_for_retry` may delete. -/
def isPristine (row : Record) : Bool :=
  row.status = .processing ∧ row.responseStatus = none ∧ row.response = none ∧
    row.responseExpiresAt = none

end Digests

end SiliconIam.Postgres.Idempotency
