/-
# Postgres.ClaimLookup -- what a candidate finds, and what it answers

Under an ideal MAC a candidate selects exactly the records of its version whose
owner has its caller, route and key (`matches_iff`), whatever the payloads were.
Classifying a record it finds gives the record's `verdict`: a conflict unless one
of the spellings of the request is the owner's, and otherwise what became of the
owner's claim (`classified_eq`).
-/
import SiliconIam.Postgres.ClaimProtocol

namespace SiliconIam.Postgres.Idempotency

open SiliconIam.Theory.Hex (Bytes)
open SiliconIam.Crypto

set_option autoImplicit false

variable {D : Deployment}

/-- What the results assume of the primitives. -/
structure Deployment.Ideal (D : Deployment) : Prop where
  mac : IdealMac D.mac
  aead : D.aead.Ideal

/-- The candidate of one spelling under one version. -/
def Deployment.candidate (D : Deployment) (key : Bytes) (spelling : Bytes × Bytes)
    (version : Int16) : DigestCandidate :=
  candidateAt D.mac D.plane key spelling (version, D.pepper version)

theorem Pod.map_candidateAt (pod : Pod D) (key : Bytes) (spelling : Bytes × Bytes) :
    pod.crypto.tokenPeppers.keys.map (candidateAt D.mac D.plane key spelling) =
      pod.crypto.tokenPeppers.versions.map (D.candidate key spelling) := by
  rw [Keyring.versions, List.map_map]
  apply List.map_congr_left
  rintro ⟨version, found⟩ mem
  have material := pod.peppers version found (Keyring.retains_of_mem mem)
  simp [Deployment.candidate, material]

namespace Transaction

def spellings (t : Transaction D) : List (Bytes × Bytes) :=
  Idempotency.spellings t.request t.translated t.legacy

/-- The candidates of a well-formed request, spelling by spelling. -/
def expected (t : Transaction D) : List DigestCandidate :=
  t.spellings.flatMap fun spelling =>
    t.pod.crypto.tokenPeppers.versions.map (D.candidate t.request.key.bytes spelling)

theorem mem_expected {t : Transaction D} {candidate : DigestCandidate} :
    candidate ∈ t.expected ↔ ∃ spelling ∈ t.spellings,
      ∃ version ∈ t.pod.crypto.tokenPeppers.versions,
        candidate = D.candidate t.request.key.bytes spelling version := by
  simp only [expected, List.mem_flatMap, List.mem_map, eq_comm]

/-- The request's own spelling comes first. -/
theorem expected_eq (t : Transaction D) :
    ∃ others, t.expected =
      t.pod.crypto.tokenPeppers.versions.map (D.candidate t.request.key.bytes
        (t.request.callerScope, t.request.requestPayload)) ++ others :=
  ⟨_, List.flatMap_cons⟩

theorem own_spelling (t : Transaction D) :
    (t.request.callerScope, t.request.requestPayload) ∈ t.spellings := List.mem_cons_self

end Transaction

theorem claimCandidates_expected {pod : Pod D} {request : IdempotencyRequest}
    {translated legacy : Option (Bytes × Bytes)} {candidates : List DigestCandidate}
    (made : claimCandidates D.mac D.plane pod.crypto.tokenPeppers request translated legacy =
      .ok candidates) :
    validateRoute request.route = .ok () ∧
      candidates = (Idempotency.spellings request translated legacy).flatMap fun spelling =>
        pod.crypto.tokenPeppers.versions.map (D.candidate request.key.bytes spelling) := by
  cases route : validateRoute request.route with
  | error error =>
      simp [claimCandidates, route, bind, Except.bind] at made
  | ok valid =>
      rw [claimCandidates_eq _ translated legacy route] at made
      cases made
      refine ⟨rfl, ?_⟩
      simp only [pod.map_candidateAt]

/-! ## Records -/

/-- The record is keyed and bound by its owner's request. -/
structure Faithful (D : Deployment) (stored : Stored) : Prop where
  route : validateRoute stored.origin.route = .ok ()
  ownRoute : stored.row.route = stored.origin.route
  caller : stored.row.callerScopeDigest = (D.candidate stored.origin.key.bytes
    (stored.origin.callerScope, stored.origin.requestPayload) stored.row.digestKeyVersion).caller.bytes
  key : stored.row.idempotencyKeyDigest = (D.candidate stored.origin.key.bytes
    (stored.origin.callerScope, stored.origin.requestPayload) stored.row.digestKeyVersion).key.bytes
  request : stored.row.requestDigest = (D.candidate stored.origin.key.bytes
    (stored.origin.callerScope, stored.origin.requestPayload) stored.row.digestKeyVersion).request.bytes

/-- **What a candidate selects.** -/
theorem matches_iff (ideal : D.Ideal) {stored : Stored} (faithful : Faithful D stored)
    (route key : Bytes) (spelling : Bytes × Bytes) (version : Int16) :
    matchesCandidate route (D.candidate key spelling version) stored.row ↔
      stored.row.digestKeyVersion = version ∧ stored.origin.slot = (spelling.1, route, key) := by
  simp only [matchesCandidate, decide_eq_true_eq, IdempotencyRequest.slot, Prod.mk.injEq,
    faithful.caller, faithful.key, faithful.ownRoute]
  constructor
  · rintro ⟨sameVersion, caller, sameRoute, sameKey⟩
    subst sameVersion
    have sameCaller := (keyedDigest_inj ideal.mac caller).2
    have sameKey := (keyedDigest_inj ideal.mac sameKey).2
    exact ⟨rfl, sameCaller, sameRoute, sameKey⟩
  · rintro ⟨rfl, caller, rfl, rfl⟩
    refine ⟨rfl, ?_, rfl, rfl⟩
    simp only [Deployment.candidate, candidateAt, caller]

/-- A completed record keeps a body that its pod sealed, and is available for its
replay window or for the record's own lifetime. -/
structure Completed (D : Deployment) (row : Record) (completion : Completion) : Prop where
  status : row.status = .completed
  responseStatus : row.responseStatus = some completion.response.status
  responseExpiresAt : row.responseExpiresAt = some completion.availableUntil
  made : ∃ (pod : Pod D) (nonce : Nonce) (body : EncryptedValue),
    pod.crypto.encryption.encrypt D.aead nonce.val (responseContext row.id)
      completion.response.body = .ok body ∧ row.response = some body
  window : if row.containsOneTimeSecret then
      completion.availableUntil ≤ row.createdAt + completion.ttl.seconds * second
    else completion.availableUntil = row.createdAt + idempotencyTtlHours * 3600 * second

/-- The columns are those of an open reservation, or of the completion. -/
structure Settled (D : Deployment) (stored : Stored) : Prop where
  expiresAt : stored.row.expiresAt = stored.row.createdAt + idempotencyTtlHours * 3600 * second
  stage : match stored.completion with
    | none => stored.row.status = .processing ∧ stored.row.response = none
    | some completion => Completed D stored.row completion

/-- What a record answers to a transaction that finds it. -/
def verdict (stored : Stored) (t : Transaction D) : Answer :=
  if (stored.origin.callerScope, stored.origin.requestPayload) ∈ t.spellings then
    match stored.completion with
    | none => .refused (.conflict "idempotency_in_progress")
    | some completion =>
        if t.startedAt < completion.availableUntil then .replay completion.response
        else .refused (.conflict "idempotency_expired")
  else .refused (.conflict "idempotency_conflict")

/-- The digest compared with is the record's exactly when one of the request's
spellings is the owner's. -/
theorem matchingRequest_iff (ideal : D.Ideal) {stored : Stored} (faithful : Faithful D stored)
    {t : Transaction D} {candidate : DigestCandidate} (mem : candidate ∈ t.expected)
    (found : matchesCandidate t.request.route candidate stored.row) :
    stored.row.requestDigest =
        (matchingRequest t.expected candidate stored.row.requestDigest).bytes ↔
      (stored.origin.callerScope, stored.origin.requestPayload) ∈ t.spellings := by
  obtain ⟨spelling, spelled, version, held, rfl⟩ := Transaction.mem_expected.mp mem
  obtain ⟨rfl, slot⟩ := (matches_iff ideal faithful _ _ _ _).mp found
  simp only [IdempotencyRequest.slot, Prod.mk.injEq] at slot
  obtain ⟨caller, route, key⟩ := slot
  unfold matchingRequest
  cases find : t.expected.find? fun item =>
      item.caller = (D.candidate t.request.key.bytes spelling
          stored.row.digestKeyVersion).caller ∧
        item.key = (D.candidate t.request.key.bytes spelling stored.row.digestKeyVersion).key ∧
        stored.row.requestDigest = item.request.bytes with
  | some item =>
      have chosen := List.find?_some find
      simp only [decide_eq_true_eq] at chosen
      obtain ⟨sameCaller, -, sameRequest⟩ := chosen
      obtain ⟨other, otherSpelled, v, -, rfl⟩ :=
        Transaction.mem_expected.mp (List.mem_of_find?_eq_some find)
      have version : v = stored.row.digestKeyVersion := congrArg SecretDigest.keyVersion sameCaller
      subst version
      have same := (keyedDigest_inj ideal.mac (congrArg SecretDigest.bytes sameCaller)).2
      have payload : stored.origin.requestPayload = other.2 := by
        rw [faithful.request] at sameRequest
        exact (keyedDigest_inj ideal.mac sameRequest).2
      have owner : (stored.origin.callerScope, stored.origin.requestPayload) = other :=
        Prod.ext (caller.trans same.symm) payload
      exact ⟨fun _ => owner ▸ otherSpelled, fun _ => sameRequest⟩
  | none =>
      rw [List.find?_eq_none] at find
      constructor
      · intro same
        exact absurd (decide_eq_true ⟨rfl, rfl, same⟩) (find _ mem)
      · intro owner
        have ownMem := Transaction.mem_expected.mpr ⟨_, owner, _, held, rfl⟩
        have chosen : (D.candidate t.request.key.bytes
            (stored.origin.callerScope, stored.origin.requestPayload)
            stored.row.digestKeyVersion).caller =
            (D.candidate t.request.key.bytes spelling stored.row.digestKeyVersion).caller := by
          simp only [Deployment.candidate, candidateAt, caller]
        have request := faithful.request
        exact absurd (decide_eq_true ⟨chosen, rfl, request⟩) (find _ ownMem)

/-- The pod can open what the record keeps. -/
def Openable (pod : Pod D) (row : Record) : Prop :=
  ∀ body, row.response = some body →
    body.keyVersion ∈ pod.crypto.encryption.encryptionKeys.versions

theorem encrypt_fields {service : EncryptionService} {aead : Aead} {nonce plaintext : Bytes}
    {context : EncryptionContext} {body : EncryptedValue}
    (made : service.encrypt aead nonce context plaintext = .ok body) :
    body.keyVersion = service.encryptionKeys.currentVersion ∧ body.nonce = nonce := by
  obtain ⟨key, own, -⟩ := service.encryptionKeys.current_ok
  simp only [EncryptionService.encrypt, own, bind, Except.bind, pure, Except.pure,
    Except.ok.injEq] at made
  subst made
  exact ⟨rfl, rfl⟩

theorem decrypt_completed (ideal : D.Ideal) {pod : Pod D} {row : Record} {completion : Completion}
    (completed : Completed D row completion) (openable : Openable pod row) :
    ∃ body, row.response = some body ∧ body.nonce.length = 12 ∧
      pod.crypto.encryption.decrypt D.aead D.plane (responseContext row.id) body =
        .ok completion.response.body := by
  obtain ⟨owner, nonce, body, made, response⟩ := completed.made
  refine ⟨body, response, ?_, ?_⟩
  · rw [(encrypt_fields made).2]
    exact nonce.property
  · apply EncryptionService.decrypt_after_rotation ideal.aead D.plane made
    intro key retained
    obtain ⟨key', held⟩ := Keyring.mem_versions.mp (openable body response)
    rw [owner.encryptionKeys _ _ retained, ← pod.encryptionKeys _ _ held]
    exact held

/-- **What classification answers.** -/
theorem classified_eq (ideal : D.Ideal) {stored : Stored}
    (settled : Settled D stored) {t : Transaction D} (openable : Openable t.pod stored.row)
    {expected : SecretDigest Bytes}
    (spelled : stored.row.requestDigest = expected.bytes ↔
      (stored.origin.callerScope, stored.origin.requestPayload) ∈ t.spellings) :
    State.classified t stored.row expected = verdict stored t := by
  unfold State.classified classifyExisting verdict
  by_cases owner : (stored.origin.callerScope, stored.origin.requestPayload) ∈ t.spellings
  · rw [if_pos owner, if_neg (not_not.mpr (spelled.mpr owner))]
    have stage := settled.stage
    cases done : stored.completion with
    | none =>
        rw [done] at stage
        simp only [stage.1]
        rfl
    | some completion =>
        rw [done] at stage
        obtain ⟨body, response, nonce, opened⟩ := decrypt_completed ideal stage openable
        simp only [stage.status, responseIsAvailable, stage.responseExpiresAt,
          stage.responseStatus, response, nonce, opened]
        by_cases available : t.startedAt < completion.availableUntil
        · simp [available, State.answerOf]
        · simp [available, State.answerOf]
  · rw [if_neg owner, if_pos fun same => owner (spelled.mp same)]
    rfl

/-- **What completion writes.** -/
theorem completeWithReplayTtl_eq_ok {aead : Aead} {crypto : CryptoService} {nonce : Bytes}
    {transactionTimestamp : Nat} {response : ReplayResponse} {ttl : OneTimeResponseReplayTtl}
    {row after : Record}
    (ok : completeWithReplayTtl aead crypto nonce transactionTimestamp response ttl row =
      .ok after) :
    row.status = .processing ∧ ∃ body,
      crypto.encryption.encrypt aead nonce (responseContext row.id) response.body = .ok body ∧
      after = { row with
        status := .completed
        responseStatus := some response.status
        response := some body
        responseExpiresAt := some
          (if row.containsOneTimeSecret then
            min (row.createdAt + ttl.seconds * second)
              (transactionTimestamp + ttl.seconds * second)
          else row.expiresAt) } := by
  unfold completeWithReplayTtl at ok
  split at ok
  · cases ok
  split at ok
  · cases ok
  rename_i body made
  split at ok
  · cases ok
  rename_i open'
  cases ok
  exact ⟨not_not.mp open', body, made, rfl⟩

/-- A reservation is stored under the request's own spelling and the pod's
current version. -/
theorem currentCandidate_eq {t : Transaction D} :
    currentCandidate D.mac D.plane t.pod.crypto.tokenPeppers t.request t.expected =
      .ok (D.candidate t.request.key.bytes (t.request.callerScope, t.request.requestPayload)
        t.pod.crypto.tokenPeppers.currentVersion) := by
  obtain ⟨key, own, retained⟩ := t.pod.crypto.tokenPeppers.current_ok
  have material := t.pod.peppers _ _ retained
  obtain ⟨others, whole⟩ := t.expected_eq
  set versions := t.pod.crypto.tokenPeppers.versions with versionsEq
  set current := t.pod.crypto.tokenPeppers.currentVersion with currentEq
  set own' := D.candidate t.request.key.bytes (t.request.callerScope, t.request.requestPayload)
  have held : current ∈ versions := Keyring.mem_versions.mpr ⟨key, retained⟩
  have digest : digestSecret D.mac t.pod.crypto.tokenPeppers D.plane .idempotencyCallerScope
      t.request.callerScope = .ok (own' current).caller := by
    simp only [digestSecret, own, bind, Except.bind, pure, Except.pure]
    rw [material]
    rfl
  have first : ∃ item, (versions.map own').find?
      (fun candidate => candidate.caller = (own' current).caller) = some item := by
    rw [← Option.isSome_iff_exists, List.find?_isSome]
    exact ⟨own' current, List.mem_map.mpr ⟨current, held, rfl⟩, by simp⟩
  obtain ⟨item, find⟩ := first
  have same := List.find?_some find
  obtain ⟨version, -, rfl⟩ := List.mem_map.mp (List.mem_of_find?_eq_some find)
  have version : version = current := by
    simp only [decide_eq_true_eq] at same
    exact congrArg SecretDigest.keyVersion same
  subst version
  unfold currentCandidate
  simp only [digest, whole, List.find?_append, find, Option.some_or, orInternal]

end SiliconIam.Postgres.Idempotency
