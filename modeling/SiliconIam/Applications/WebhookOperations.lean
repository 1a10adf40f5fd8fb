/-
# Applications.WebhookOperations -- the operations on webhook destinations

Every operation that writes an application's webhook endpoints or signing keys:
creation, replacement, approval and secret rotation of the ordinary interface,
configuration, publication, approval and secret rotation of the Honeycomb
management interface, and deletion by an administrator.  Each runs in one
transaction under the lock of the application row, so it is one function of the
store; what it asks of tables outside the model (authority, step-up, host
resolution, the other parts of a configuration) is an answer in its call.

Identifiers are drawn from the call's `generated` sequence and transaction time
is its `now`.  `handle` is one request, `next` the committed state after it.
-/
import SiliconIam.Applications.WebhookTables
import Mathlib.Data.List.Sort

namespace SiliconIam.Applications

open SiliconIam.Theory.Hex (Bytes)

set_option autoImplicit false

inductive ApiError where
  | notFound
  | preconditionFailed
  | stepUpRequired
  | forbidden (code : String)
  | conflict (code : String)
  | validation (field message : String)
  | internal (category : String)
deriving DecidableEq

/-- Where the service runs, and the two functions it takes from elsewhere: the
digest of a URL and the parser that accepts one or says why not. -/
structure Platform where
  testing : Bool
  sha256 : String → Bytes
  webhookUrl : String → Except String Unit

def require (holds : Prop) [Decidable holds] (error : ApiError) : Except ApiError Unit :=
  if holds then .ok () else .error error

def orElse {α : Type} (found : Option α) (error : ApiError) : Except ApiError α :=
  match found with
  | some a => .ok a
  | none => .error error

def validateUrl (p : Platform) (url : String) : Except ApiError Unit :=
  (p.webhookUrl url).mapError (.validation "webhook_url")

def validSecret (value : String) : Bool :=
  32 ≤ value.utf8ByteSize && value.utf8ByteSize ≤ 512 &&
    value.toList.all fun c => 33 ≤ c.toNat && c.toNat ≤ 126

def webhookSecret (value : String) : Except ApiError Unit :=
  require (validSecret value)
    (.validation "webhook_secret" "must contain 32 to 512 non-whitespace ASCII characters")

def optionalWebhookSecret : Option String → Except ApiError Unit
  | none => .ok ()
  | some value => webhookSecret value

/-- The application, locked, when the caller's authority covers it. -/
def resolveApp (s : Store) (permitted : Bool) (app : String) : Except ApiError Application :=
  orElse (if permitted then s.application? app else none) .notFound

def bumpApplication (s : Store) (app : String) : Store :=
  s.setApplication app (fun a => { a with version := a.version + 1 }) fun _ => rfl

/-! ## Creation -/

/-- `scopesApproved`: no scope that is asked for is critical. -/
structure CreateCall where
  application : String
  url : String
  secret : String
  permitted : Bool
  scopesApproved : Bool
  generated : Nat → Nat
  now : Nat

/-- Public by default; `scopes::configure` updates the row that was inserted. -/
def createdApplication (call : CreateCall) : Application where
  id := call.application
  reviewStatus := if call.scopesApproved then .verified else .underReview
  visibilityPublic := true
  deleted := false
  configurationRevision := 0
  version := 2

/-- A testing plane has no operator review, so its endpoint is usable at once. -/
def createdEndpoint (p : Platform) (call : CreateCall) : Endpoint where
  id := call.generated 0
  application := call.application
  url := call.url
  urlDigest := p.sha256 call.url
  status := if p.testing then .active else .pendingReview
  createdAt := call.now

def createdKey (call : CreateCall) : SigningKey where
  id := call.generated 1
  application := call.application
  endpoint := call.generated 0
  secretVersion := 1
  secret := call.secret
  status := .active
  createdAt := call.now

def create (p : Platform) (s : Store) (call : CreateCall) : Except ApiError Store := do
  validateUrl p call.url
  webhookSecret call.secret
  require (call.permitted = true) .notFound
  let s ← orElse (s.insertApplication (createdApplication call)) (.conflict "application_conflict")
  let s ← orElse (s.insertEndpoint (createdEndpoint p call)) (.conflict "application_conflict")
  orElse (s.insertKey (createdKey call)) (.internal "webhook_secret_insert")

/-! ## Replacement -/

structure ReplaceCall where
  application : String
  expected : Nat
  url : String
  secret : Option String
  permitted : Bool
  resolves : Except String Unit
  generated : Nat → Nat
  generatedSecret : String
  now : Nat

/-- Whether the request would change nothing that the service can compare. -/
def unchangedReplacement (s : Store) (app : String) (oldKey : SigningKey) (call : ReplaceCall) :
    Bool :=
  let matchesActive := s.loadedUrl app .active = some call.url
  let matchesPending := s.loadedUrl app .pendingReview = some call.url
  match call.secret with
  | none => matchesActive ∨ matchesPending
  | some supplied =>
      (matchesActive ∨ (s.loadedUrl app .active = none ∧ matchesPending)) ∧
        oldKey.secret = supplied

/-- The secret of the new key: as supplied, else generated in a testing plane,
else the one in use. -/
def replacementSecret (p : Platform) (oldKey : SigningKey) (call : ReplaceCall) : String :=
  call.secret.getD (if p.testing then call.generatedSecret else oldKey.secret)

def replacementEndpoint (p : Platform) (call : ReplaceCall) : Endpoint where
  id := call.generated 0
  application := call.application
  url := call.url
  urlDigest := p.sha256 call.url
  status := if p.testing then .active else .pendingReview
  createdAt := call.now

def replacementKey (p : Platform) (oldKey : SigningKey) (version : Nat) (call : ReplaceCall) :
    SigningKey where
  id := call.generated 1
  application := call.application
  endpoint := call.generated 0
  secretVersion := version
  secret := replacementSecret p oldKey call
  status := .active
  createdAt := call.now

/-- A testing plane has no reviewer: there the active endpoint goes too. -/
def replaced (p : Platform) (app : String) (e : Endpoint) : Bool :=
  e.application = app ∧ (e.status = .pendingReview ∨ (p.testing ∧ e.status = .active))

def replace (p : Platform) (s : Store) (call : ReplaceCall) : Except ApiError Store := do
  validateUrl p call.url
  optionalWebhookSecret call.secret
  require (call.permitted = true) .notFound
  call.resolves.mapError (.validation "webhook_url")
  let app ← resolveApp s call.permitted call.application
  require (app.version = call.expected) .preconditionFailed
  let oldKey ← orElse (s.replacementSigningKey app.id) (.internal "webhook_signing_key_missing")
  require (unchangedReplacement s app.id oldKey call = false)
    (.conflict "application_webhook_unchanged")
  let s := s.retireEndpoints (replaced p app.id) .retired (by decide)
  let version := s.nextSigningSecretVersion app.id
  let s ← orElse (s.insertEndpoint (replacementEndpoint p call)) (.conflict "webhook_url_conflict")
  let s ← orElse (s.insertKey (replacementKey p oldKey version call))
    (.internal "webhook_signing_key_rebind")
  return bumpApplication s app.id

/-! ## Approval -/

/-- `seen` is the endpoint and URL that the preflight transaction read. -/
structure ApproveCall where
  application : String
  expected : Nat
  seen : Nat × String
  permitted : Bool
  stepUp : Bool

def requireApprovableApplication (status : ReviewStatus) : Except ApiError Unit :=
  require (status = .verified ∨ status = .underReview)
    (.conflict "application_webhook_approval_state_conflict")

def superseded (app : String) (approved : Nat) (e : Endpoint) : Bool :=
  e.application = app ∧ e.Live ∧ e.id ≠ approved

def approve (s : Store) (call : ApproveCall) : Except ApiError Store := do
  let app ← resolveApp s call.permitted call.application
  require (app.version = call.expected) .preconditionFailed
  requireApprovableApplication app.reviewStatus
  let pending ← orElse (s.pendingEndpointForApproval app.id)
    (.conflict "application_webhook_no_pending_endpoint")
  require ((pending.id, pending.url) = call.seen) .preconditionFailed
  require (call.stepUp = true) .stepUpRequired
  let s := s.retireEndpoints (superseded app.id pending.id) .retired (by decide)
  let s ← orElse
    (s.activateEndpoint fun e =>
      e.application = app.id ∧ e.id = pending.id ∧ e.status = .pendingReview)
    (.internal "webhook_approval_activate")
  return bumpApplication s app.id

structure WebhookApproval where
  application : String
  expectedIamRevision : Nat
  pendingEndpointId : Nat
  permitted : Bool
  stepUp : Bool

def webhookApproval (s : Store) (call : WebhookApproval) : Except ApiError Store := do
  let app ← resolveApp s call.permitted call.application
  require (app.version = call.expectedIamRevision) (.conflict "iam_revision_conflict")
  let pending ← orElse
    (s.endpoints.find? fun e =>
      e.application = app.id ∧ e.id = call.pendingEndpointId ∧ e.status = .pendingReview)
    .notFound
  require (call.stepUp = true) .stepUpRequired
  let s := s.retireEndpoints (superseded app.id pending.id) .retired (by decide)
  let s ← orElse (s.activateEndpoint fun e => e.id = pending.id)
    (.internal "honeycomb_webhook_activate")
  return bumpApplication s app.id

/-! ## Secret rotation -/

structure RotateCall where
  application : String
  expected : Nat
  secret : String
  permitted : Bool
  stepUp : Bool
  generated : Nat → Nat
  now : Nat

def installedKey (app : String) (call : RotateCall) (version i endpoint : Nat) : SigningKey where
  id := call.generated i
  application := app
  endpoint := endpoint
  secretVersion := version
  secret := call.secret
  status := .active
  createdAt := call.now

/-- One new active key for each endpoint, the `i`-th one at version `versionAt i`. -/
def installKeys (app : String) (call : RotateCall) (versionAt : Nat → Nat) :
    Nat → List Nat → Store → Option Store
  | _, [], s => some s
  | i, endpoint :: rest, s =>
      (s.insertKey (installedKey app call (versionAt i) i endpoint)).bind
        (installKeys app call versionAt (i + 1) rest)

def liveEndpoints (s : Store) (app : String) : List Endpoint :=
  (s.endpointsOf app).filter fun e => e.Live

/-- `ORDER BY (status = 'active') DESC, created_at DESC, id DESC`. -/
def newestFirst (e f : Endpoint) : Bool :=
  toLex (if f.status = .active then 1 else 0, toLex (f.createdAt, f.id)) ≤
    (toLex (if e.status = .active then 1 else 0, toLex (e.createdAt, e.id)) : ℕ ×ₗ (ℕ ×ₗ ℕ))

def rotateSecret (s : Store) (call : RotateCall) : Except ApiError Store := do
  webhookSecret call.secret
  let app ← resolveApp s call.permitted call.application
  require (app.version = call.expected) .preconditionFailed
  require (call.stepUp = true) .stepUpRequired
  let endpoints := ((liveEndpoints s app.id).insertionSort (newestFirst · ·)).map Endpoint.id
  require (endpoints ≠ []) (.conflict "application_webhook_not_configured")
  let first := s.nextSigningSecretVersion app.id
  let s := s.retireKeys
    (fun k => k.application = app.id ∧ k.endpoint ∈ endpoints ∧ k.status = .active)
    .retiring (by decide)
  -- every destination gets the secret under one version
  let s ← orElse (installKeys app.id call (fun _ => first) 0 endpoints s)
    (.internal "webhook_secret_rotation_insert")
  return bumpApplication s app.id

/-- The rotation of the management interface: a version for each endpoint, and
every active key of the application retires. -/
def rotate (s : Store) (call : RotateCall) : Except ApiError Store := do
  webhookSecret call.secret
  let app ← resolveApp s call.permitted call.application
  require (app.version = call.expected) (.conflict "iam_revision_conflict")
  require (call.stepUp = true) .stepUpRequired
  let endpoints := ((liveEndpoints s app.id).map Endpoint.id).insertionSort (· ≤ ·)
  require (endpoints ≠ []) (.conflict "application_webhook_not_configured")
  let version := s.latestSecretVersion app.id
  let s := s.retireKeys (fun k => k.application = app.id ∧ k.status = .active) .retiring (by decide)
  let s ← orElse (installKeys app.id call (fun i => version + (i + 1)) 0 endpoints s)
    (.internal "webhook_rotation_write")
  return bumpApplication s app.id

/-! ## Configuration -/

structure Webhook where
  url : String
  secret : Option String

/-- `applied` is whether every other part of the configuration is accepted, and
`status` the review status these parts leave; they write the application row
`writes` times. -/
structure ConfigureCall where
  application : String
  configurationRevision : Nat
  expectedIamRevision : Nat
  visibilityPublic : Bool
  webhook : Webhook
  permitted : Bool
  applied : Except ApiError Unit
  status : ReviewStatus
  writes : Nat
  generated : Nat → Nat
  now : Nat

/-- The live endpoint of this URL digest. -/
def configured (p : Platform) (s : Store) (app url : String) : Option Endpoint :=
  s.endpoints.find? fun e => e.application = app ∧ e.urlDigest = p.sha256 url ∧ e.Live

/-- The presented secret of a destination that is in place must be the one in use. -/
def presentedSecret (s : Store) (current : Endpoint) : Option String → Except ApiError Unit
  | none => .ok ()
  | some presented => do
      let key ← orElse
        (s.keys.find? fun k => k.endpoint = current.id ∧ k.status = .active)
        (.internal "honeycomb_webhook_existing_key")
      require (key.secret = presented) (.conflict "webhook_secret_rotation_required")

def destinationEndpoint (p : Platform) (s : Store) (app url : String) (fresh : Nat) : Nat :=
  ((s.endpoints.find? fun e => e.application = app ∧ e.urlDigest = p.sha256 url).map
    Endpoint.id).getD fresh

def configuredEndpoint (p : Platform) (app url : String) (endpoint now : Nat) : Endpoint where
  id := endpoint
  application := app
  url := url
  urlDigest := p.sha256 url
  status := .pendingReview
  createdAt := now

def configuredKey (app secret : String) (endpoint id version now : Nat) : SigningKey where
  id := id
  application := app
  endpoint := endpoint
  secretVersion := version
  secret := secret
  status := .active
  createdAt := now

def configureWebhook (p : Platform) (s : Store) (app : String) (webhook : Webhook)
    (generated : Nat → Nat) (now : Nat) : Except ApiError Store :=
  match configured p s app webhook.url with
  | some current => do
      presentedSecret s current webhook.secret
      return s
  | none => do
      let secret ← orElse webhook.secret
        (.validation "webhook.secret" "a signing secret is required for a new destination")
      let endpoint := destinationEndpoint p s app webhook.url (generated 0)
      -- a changed destination stays pending until a stepped-up approval
      let s := s.retireEndpoints
        (fun e => e.application = app ∧ e.status = .pendingReview) .retired (by decide)
      let s ← orElse (s.upsertEndpoint (configuredEndpoint p app webhook.url endpoint now))
        (.internal "honeycomb_webhook_insert")
      let s := s.retireKeys
        (fun k => k.endpoint = endpoint ∧ (k.status = .active ∨ k.status = .retiring))
        .retired (by decide)
      orElse
        (s.insertKey
          (configuredKey app secret endpoint (generated 1) (s.nextSigningSecretVersion app) now))
        (.internal "honeycomb_webhook_key")

def validateConfiguration (p : Platform) (call : ConfigureCall) : Except ApiError Unit := do
  require (0 < call.configurationRevision)
    (.validation "revision"
      "configuration revision must be positive and expected IAM revision nonnegative")
  validateUrl p call.webhook.url
  optionalWebhookSecret call.webhook.secret

/-- The application row once the other parts of a configuration are written. -/
def prepared (s : Store) (call : ConfigureCall) : Store :=
  s.setApplication call.application
    (fun a => { a with
      reviewStatus := call.status
      visibilityPublic := call.visibilityPublic
      version := a.version + call.writes }) fun _ => rfl

def revised (s : Store) (call : ConfigureCall) : Store :=
  bumpApplication
    (s.setApplication call.application
      (fun a => { a with
        configurationRevision := call.configurationRevision
        version := a.version + 1 }) fun _ => rfl) call.application

/-- Everything but the webhook, then the webhook, then the revision. -/
def applyConfiguration (p : Platform) (s : Store) (call : ConfigureCall) : Except ApiError Store := do
  call.applied
  let s ← configureWebhook p (prepared s call) call.application call.webhook call.generated call.now
  return revised s call

def configure (p : Platform) (s : Store) (call : ConfigureCall) : Except ApiError Store := do
  validateConfiguration p call
  require (call.permitted = true) .notFound
  match s.application? call.application with
  | some app => do
      require (app.configurationRevision < call.configurationRevision)
        (.conflict "configuration_revision_conflict")
      require (app.version = call.expectedIamRevision) (.conflict "iam_revision_conflict")
      -- a public configuration waits for its activation and changes nothing
      if call.visibilityPublic then return s else applyConfiguration p s call
  | none => do
      require (call.expectedIamRevision = 0) (.conflict "iam_revision_conflict")
      require (call.visibilityPublic = false) (.conflict "create_private_before_publication")
      let s ← orElse
        (s.insertApplication ⟨call.application, .verified, false, false, 0, 1⟩)
        (.conflict "application_already_exists")
      applyConfiguration p s call

/-- The activation of a reviewed public configuration; `permitted` covers the
checks of the publication plan. -/
def activate (p : Platform) (s : Store) (call : ConfigureCall) : Except ApiError Store := do
  validateConfiguration p call
  let app ← resolveApp s call.permitted call.application
  require (app.version = call.expectedIamRevision)
    (.conflict "publication_revision_or_plan_conflict")
  applyConfiguration p s call

/-! ## Deletion and other writes of the application row -/

structure DeleteCall where
  application : String
  expected : Nat
  permitted : Bool
  stepUp : Bool

def compromisedKey (app : String) (k : SigningKey) : Bool :=
  k.application = app ∧ (k.status = .active ∨ k.status = .retiring)

def retireApplicationCredentials (s : Store) (app : String) : Store :=
  (s.retireKeys (compromisedKey app) .compromised (by decide)).retireEndpoints
    (fun e => e.application = app ∧ e.Live) .disabled (by decide)

def markDeleted (s : Store) (app : String) : Store :=
  s.setApplication app
    (fun a => { a with reviewStatus := .deleted, deleted := true, version := a.version + 1 })
    fun _ => rfl

def delete (s : Store) (call : DeleteCall) : Except ApiError Store := do
  let app ← resolveApp s call.permitted call.application
  require (app.reviewStatus ≠ .deleted) (.conflict "application_review_state_conflict")
  require (app.version = call.expected) .preconditionFailed
  require (call.stepUp = true) .stepUpRequired
  return bumpApplication (retireApplicationCredentials (markDeleted s app.id) app.id) app.id

/-- Any other write of the application row: profile, scopes, suspension, reactivation. -/
structure ReviseCall where
  application : String
  status : ReviewStatus
  visibilityPublic : Bool

def revise (s : Store) (call : ReviseCall) : Store :=
  s.setApplication call.application
    (fun a => { a with
      reviewStatus := call.status
      visibilityPublic := call.visibilityPublic
      version := a.version + 1 }) fun _ => rfl

/-! ## Requests -/

inductive Request where
  | create (call : CreateCall)
  | replace (call : ReplaceCall)
  | approve (call : ApproveCall)
  | webhookApproval (call : WebhookApproval)
  | rotateSecret (call : RotateCall)
  | rotate (call : RotateCall)
  | configure (call : ConfigureCall)
  | activate (call : ConfigureCall)
  | delete (call : DeleteCall)
  | revise (call : ReviseCall)

def handle (p : Platform) (s : Store) : Request → Except ApiError Store
  | .create call => create p s call
  | .replace call => replace p s call
  | .approve call => approve s call
  | .webhookApproval call => webhookApproval s call
  | .rotateSecret call => rotateSecret s call
  | .rotate call => rotate s call
  | .configure call => configure p s call
  | .activate call => activate p s call
  | .delete call => delete s call
  | .revise call => .ok (revise s call)

/-- The committed state after a request: a refused one is rolled back. -/
def next (p : Platform) (s : Store) (request : Request) : Store :=
  match handle p s request with
  | .ok t => t
  | .error _ => s

/-- The application a request is about. -/
def Request.application : Request → String
  | .create call => call.application
  | .replace call => call.application
  | .approve call => call.application
  | .webhookApproval call => call.application
  | .rotateSecret call => call.application
  | .rotate call => call.application
  | .configure call => call.application
  | .activate call => call.application
  | .delete call => call.application
  | .revise call => call.application

def Request.generated : Request → Option (Nat → Nat)
  | .create call => some call.generated
  | .replace call => some call.generated
  | .rotateSecret call => some call.generated
  | .rotate call => some call.generated
  | .configure call => some call.generated
  | .activate call => some call.generated
  | _ => none

/-- What is relied on of generated identifiers: no two are equal, and none is in use. -/
structure Unused (s : Store) (generated : Nat → Nat) : Prop where
  injective : Function.Injective generated
  endpoints : ∀ i, ∀ e ∈ s.endpoints, e.id ≠ generated i
  keys : ∀ i, ∀ k ∈ s.keys, k.id ≠ generated i

def Fresh (s : Store) (request : Request) : Prop :=
  ∀ generated ∈ request.generated, Unused s generated

end SiliconIam.Applications
