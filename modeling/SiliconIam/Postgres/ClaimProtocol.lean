/-
# Postgres.ClaimProtocol -- idempotent requests of many pods, interleaved

Pods start by reconciling their keyrings with the database, begin transactions,
and stop.  A claim takes its advisory locks one by one, looks its candidates up
one by one, and inserts; a lookup takes no locks.  The owner of a claim completes
or cancels it, in its own transaction or, when it committed the reservation
first, in a later one.  Every statement is a step of its own, so any interleaving
that read-committed transactions can have is a list of `Action`s; rows of an open
transaction are invisible to the others and block a second row of the same key.

What a `Stored` row keeps apart from the columns (who reserved it, the response
it was completed with), what a transaction keeps of the rows it began with, and
the log of grants are there to state the results; no step reads them, except that
a fresh record identifier is one that was never issued.
-/
import SiliconIam.Theory.Keyed
import SiliconIam.Theory.Runs
import SiliconIam.Postgres.KeyMetadata
import SiliconIam.Postgres.Idempotency

namespace SiliconIam.Postgres.Idempotency

open SiliconIam.Theory
open SiliconIam.Theory.Hex (Bytes)
open SiliconIam.Domain (Id)
open SiliconIam.Crypto
open SiliconIam.Postgres.KeyMetadata

set_option autoImplicit false

/-! ## The deployment -/

/-- The primitives, the plane requests run in, and what each key version is. -/
structure Deployment where
  mac : Key → Bytes → Bytes
  sha256 : Bytes → Bytes
  aead : Aead
  plane : Option Id
  pepper : Int16 → Key
  encryptionKey : Int16 → Key

/-- A running process.  A key version names one key throughout a deployment. -/
structure Pod (D : Deployment) where
  name : Nat
  crypto : CryptoService
  peppers : ∀ version key, crypto.tokenPeppers.Retains version key → key = D.pepper version
  encryptionKeys : ∀ version key, crypto.encryption.encryptionKeys.Retains version key →
    key = D.encryptionKey version

/-- A nonce from the operating system. -/
abbrev Nonce := { bytes : Bytes // bytes.length = 12 }

inductive Answer where
  | acquired (record : Id)
  | replay (response : ReplayResponse)
  | absent
  | refused (error : AppError)
deriving DecidableEq

/-- `claim_with_legacy` or `replay_if_present_with_legacy`. -/
inductive Kind where
  | claim
  | lookup
deriving DecidableEq

inductive Phase where
  | locking (rest : List Int)
  | looking (seen rest : List DigestCandidate)
  | granted (record : Id)
  | answered (answer : Answer)
deriving DecidableEq

structure Transaction (D : Deployment) where
  number : Nat
  pod : Pod D
  kind : Kind
  request : IdempotencyRequest
  translated : Option (Bytes × Bytes)
  legacy : Option (Bytes × Bytes)
  startedAt : Nat
  candidates : List DigestCandidate
  held : List Int
  phase : Phase
  beganWith : List Id

/-- The response a record was completed with, and until when it is replayed. -/
structure Completion where
  response : ReplayResponse
  ttl : OneTimeResponseReplayTtl
  availableUntil : Nat
deriving DecidableEq

/-- A row, with the open transaction that inserted it. -/
structure Stored where
  row : Record
  insertedBy : Option Nat
  origin : IdempotencyRequest
  completion : Option Completion
deriving DecidableEq

/-- What an idempotency key stands for: caller, route and key. -/
abbrev Slot := Bytes × Bytes × Bytes

def IdempotencyRequest.slot (request : IdempotencyRequest) : Slot :=
  (request.callerScope, request.route, request.key.bytes)

structure Grant where
  record : Id
  slot : Slot
  released : Bool
deriving DecidableEq

structure State (D : Deployment) where
  clock : Nat
  tokenVersions : Metadata
  encryptionVersions : Metadata
  pods : List (Pod D)
  running : List (Transaction D)
  records : List Stored
  grants : List Grant

def State.initial (D : Deployment) : State D where
  clock := 0
  tokenVersions := []
  encryptionVersions := []
  pods := []
  running := []
  records := []
  grants := []

inductive Action (D : Deployment) where
  | tick (duration : Nat)
  | start (pod : Pod D)
  | stop (name : Nat)
  | activateToken (expected new : Int16)
  | activateEncryption (expected new : Int16)
  | begin (number name : Nat) (kind : Kind) (request : IdempotencyRequest)
      (translated legacy : Option (Bytes × Bytes))
  | lock (number : Nat)
  | look (number : Nat)
  | insert (number : Nat) (record : Id)
  | complete (number : Nat) (nonce : Nonce) (response : ReplayResponse)
      (ttl : OneTimeResponseReplayTtl)
  | completeLater (name : Nat) (record : Id) (transactionTimestamp : Nat) (nonce : Nonce)
      (response : ReplayResponse) (ttl : OneTimeResponseReplayTtl)
  | cancel (number : Nat)
  | cancelLater (record : Id)
  | commit (number : Nat)
  | rollback (number : Nat)

namespace State

variable {D : Deployment}

/-! ## Statements -/

def pod (s : State D) (name : Nat) : Option (Pod D) := Keyed.get Pod.name s.pods name

def transaction (s : State D) (number : Nat) : Option (Transaction D) :=
  Keyed.get Transaction.number s.running number

def put (s : State D) (t : Transaction D) : State D :=
  { s with running := Keyed.put Transaction.number s.running t }

def finish (s : State D) (number : Nat) : State D :=
  { s with running := Keyed.drop Transaction.number s.running number }

/-- The rows other transactions can see. -/
def committed (s : State D) : List Stored := s.records.filter fun stored => stored.insertedBy = none

/-- `register_runtime_key_versions`. -/
def start (s : State D) (pod : Pod D) : State D :=
  let crypto := pod.crypto
  if (s.pod pod.name).isSome then s
  else
    match reconcileRuntimeKeyring s.tokenVersions crypto.tokenPeppers.currentVersion
        crypto.tokenPeppers.versions,
      reconcileRuntimeKeyring s.encryptionVersions
        crypto.encryption.encryptionKeys.currentVersion
        crypto.encryption.encryptionKeys.versions with
    | .ok tokenVersions, .ok encryptionVersions =>
        { s with
          tokenVersions := tokenVersions
          encryptionVersions := encryptionVersions
          pods := pod :: s.pods }
    | _, _ => s

def beginTransaction (s : State D) (number : Nat) (pod : Pod D) (kind : Kind)
    (request : IdempotencyRequest) (translated legacy : Option (Bytes × Bytes)) : Transaction D :=
  let opened (candidates : List DigestCandidate) (phase : Phase) : Transaction D :=
    { number := number, pod := pod, kind := kind, request := request, translated := translated,
      legacy := legacy, startedAt := s.clock, candidates := candidates, held := [],
      phase := phase, beganWith := s.committed.map fun stored => stored.row.id }
  match claimCandidates D.mac D.plane pod.crypto.tokenPeppers request translated legacy, kind with
  | .error error, _ => opened [] (.answered (.refused error))
  | .ok candidates, .claim =>
      opened candidates (.locking (rotationLocks D.sha256 request.route candidates))
  | .ok candidates, .lookup => opened candidates (.looking [] candidates)

/-- Another open transaction has the lock. -/
def heldByOther (s : State D) (number : Nat) (lock : Int) : Bool :=
  s.running.any fun other => other.number ≠ number ∧ lock ∈ other.held

/-- `pg_advisory_xact_lock`: waits while another transaction has the lock. -/
def lockStep (s : State D) (t : Transaction D) : Transaction D :=
  match t.phase with
  | .locking (lock :: rest) =>
      if s.heldByOther t.number lock then t
      else { t with held := lock :: t.held, phase := .locking rest }
  | .locking [] => { t with phase := .looking [] t.candidates }
  | _ => t

def answerOf (outcome : Except AppError ReplayResponse) : Answer :=
  match outcome with
  | .ok response => .replay response
  | .error error => .refused error

/-- `classify_existing` of the row a candidate found. -/
def classified (t : Transaction D) (row : Record) (expected : SecretDigest Bytes) : Answer :=
  answerOf (classifyExisting D.plane D.aead t.pod.crypto row
    (responseIsAvailable row t.startedAt) expected)

/-- `find_existing` of the next candidate, and what follows from its answer. -/
def lookPhase (s : State D) (t : Transaction D) : Phase :=
  match t.phase with
  | .looking seen (candidate :: rest) =>
      match s.committed.find? fun stored => matchesCandidate t.request.route candidate stored.row with
      | some stored => .answered (classified t stored.row
          (matchingRequest t.candidates candidate stored.row.requestDigest))
      | none => .looking (seen ++ [candidate]) rest
  | .looking seen [] =>
      if t.kind = .lookup then .answered .absent else .looking seen []
  | phase => phase

/-- What the insertion of `claim_with_legacy` does. -/
inductive Insertion where
  | blocked
  | decided (answer : Answer)
  | inserted (row : Record)

def insertion (s : State D) (t : Transaction D) (record : Id) : Insertion :=
  match currentCandidate D.mac D.plane t.pod.crypto.tokenPeppers t.request t.candidates with
  | .error error => .decided (.refused error)
  | .ok current =>
      match s.records.find? fun stored =>
          matchesCandidate t.request.route current stored.row with
      | some stored =>
          if stored.insertedBy ≠ none then .blocked
          else .decided (classified t stored.row current.request)
      | none =>
          if s.tokenVersions.any fun entry => entry.1 = current.caller.keyVersion then
            .inserted (reservation record t.request current t.startedAt)
          else .decided (.refused (.internal "database_operation"))

/-- The insertion applies: every candidate was looked up, and the identifier is fresh. -/
def mayInsert (s : State D) (t : Transaction D) (record : Id) : Bool :=
  decide (t.kind = .claim) && (match t.phase with | .looking _ [] => true | _ => false) &&
    s.grants.all fun grant => grant.record ≠ record

def insert (s : State D) (t : Transaction D) (record : Id) : State D :=
  match s.insertion t record with
  | .blocked => s
  | .decided answer => s.put { t with phase := .answered answer }
  | .inserted row =>
      { s.put { t with phase := .granted record } with
        records := { row := row, insertedBy := some t.number, origin := t.request,
                     completion := none } :: s.records
        grants := { record := record, slot := t.request.slot, released := false } :: s.grants }

/-- Delete rows; the grants they came from are released. -/
def withdraw (s : State D) (deleted : Stored → Bool) : State D :=
  { s with
    records := s.records.filter fun stored => !deleted stored
    grants := s.grants.map fun grant =>
      if s.records.any fun stored => deleted stored && stored.row.id = grant.record then
        { grant with released := true }
      else grant }

/-- `complete_with_replay_ttl` of a row its writer can see. -/
def completed (s : State D) (pod : Pod D) (transactionTimestamp : Nat) (stored : Stored)
    (nonce : Nonce) (response : ReplayResponse) (ttl : OneTimeResponseReplayTtl) : State D :=
  match completeWithReplayTtl D.aead pod.crypto nonce.val transactionTimestamp response ttl
      stored.row with
  | .error _ => s
  | .ok row =>
      { s with
        records := Keyed.put (fun stored => stored.row.id) s.records
          { stored with
            row := row
            completion := row.responseExpiresAt.map fun expiry =>
              { response := response, ttl := ttl, availableUntil := expiry } } }

def record (s : State D) (id : Id) (writer : Option Nat) : Option Stored :=
  s.records.find? fun stored => stored.row.id = id ∧ stored.insertedBy = writer

def publish (s : State D) (number : Nat) : State D :=
  { s with
    records := s.records.map fun stored =>
      if stored.insertedBy = some number then { stored with insertedBy := none } else stored }

/-! ## Steps -/

def act (s : State D) : Action D → State D
  | .tick duration => { s with clock := s.clock + duration }
  | .start pod => s.start pod
  | .stop name =>
      if s.running.any fun t => t.pod.name = name then s
      else { s with pods := Keyed.drop Pod.name s.pods name }
  | .activateToken expected new =>
      match activateRuntimeKeyVersion s.tokenVersions expected new with
      | .ok versions => { s with tokenVersions := versions }
      | .error _ => s
  | .activateEncryption expected new =>
      match activateRuntimeKeyVersion s.encryptionVersions expected new with
      | .ok versions => { s with encryptionVersions := versions }
      | .error _ => s
  | .begin number name kind request translated legacy =>
      match s.pod name, s.transaction number with
      | some pod, none =>
          { s with
            running := s.beginTransaction number pod kind request translated legacy :: s.running }
      | _, _ => s
  | .lock number =>
      match s.transaction number with
      | some t => s.put (s.lockStep t)
      | none => s
  | .look number =>
      match s.transaction number with
      | some t => s.put { t with phase := s.lookPhase t }
      | none => s
  | .insert number record =>
      match s.transaction number with
      | some t => if s.mayInsert t record then s.insert t record else s
      | none => s
  | .complete number nonce response ttl =>
      match s.transaction number with
      | some t =>
          match t.phase with
          | .granted id =>
              match s.record id (some number) with
              | some stored => s.completed t.pod t.startedAt stored nonce response ttl
              | none => s
          | _ => s
      | none => s
  | .completeLater name id transactionTimestamp nonce response ttl =>
      match s.pod name, s.record id none with
      | some pod, some stored =>
          if transactionTimestamp ≤ s.clock then
            s.completed pod transactionTimestamp stored nonce response ttl
          else s
      | _, _ => s
  | .cancel number =>
      s.withdraw fun stored => stored.insertedBy = some number && isPristine stored.row
  | .cancelLater id =>
      s.withdraw fun stored =>
        stored.row.id = id && stored.insertedBy = none && isPristine stored.row
  | .commit number => (s.publish number).finish number
  | .rollback number => (s.withdraw fun stored => stored.insertedBy = some number).finish number

/-- The answer a step gives, with the transaction it is given to. -/
def answer (s : State D) : Action D → Option (Transaction D × Answer)
  | .begin number name kind request translated legacy =>
      match s.pod name, s.transaction number with
      | some pod, none =>
          let t := s.beginTransaction number pod kind request translated legacy
          match t.phase with
          | .answered answer => some (t, answer)
          | _ => none
      | _, _ => none
  | .look number =>
      match s.transaction number with
      | some t =>
          match t.phase, s.lookPhase t with
          | .looking _ _, .answered answer => some (t, answer)
          | _, _ => none
      | none => none
  | .insert number record =>
      match s.transaction number with
      | some t =>
          if s.mayInsert t record then
            match s.insertion t record with
            | .blocked => none
            | .decided answer => some (t, answer)
            | .inserted _ => some (t, .acquired record)
          else none
      | none => none
  | _ => none

end State

end SiliconIam.Postgres.Idempotency
