/-
# Applications.ManagementOperations -- the management requests of Honeycomb

A management request is one transaction.  It claims its operation id: an advisory
lock on the service and the idempotency key, a look at the rows of either, and an
insert where there is none (`lockKey`, `lookup`, `insertOperation`).  A claimed operation
then does its work, and `complete` writes the public result, the encrypted
response where there is a secret, and a management event.  A configuration that
would make an application public only answers as pending; `activate` applies it
later, and completes the operations it names.

Other transactions run between any two statements.  Row security shows a
transaction the operations of its own actor; the unique indexes see all of them.
An operation of a test environment commits twice: it starts, and a retry or the
same request finishes it.

What is asked of other tables (authority, step-up, scope approvals, the reviews of
a plan, webhook material) is an answer in the request.  Every committed transaction
leaves a `Receipt`: what it answered and what it changed.
-/
import SiliconIam.Applications.WebhookTables
import SiliconIam.Theory.Transactions

namespace SiliconIam.Applications.Honeycomb

open SiliconIam.Theory SiliconIam.Theory.Transactions

set_option autoImplicit false

/-! ## Rows -/

/-- The parts of a configuration that an application record shows. -/
structure Settings where
  name : Option String
  logoUrl : Option String
  baseUrl : Option String
  webhookUrl : String
  webhookScope : List String
  appScope : List String
  oboEndpoints : List String
  oboReviewMessage : Option String
  testingIdleDays : Nat
deriving DecidableEq

structure ManagedApplication where
  id : Nat
  organization : Nat
  version : Nat
  visibilityPublic : Bool
  reviewStatus : ReviewStatus
  deleted : Bool
  configurationRevision : Nat
  settings : Settings
deriving DecidableEq

/-- What the configuration digest covers. -/
structure Desired where
  application : Nat
  organization : Nat
  configurationRevision : Nat
  visibilityPublic : Bool
  disabled : Bool
  webhookSecret : Option String
  settings : Settings
deriving DecidableEq

structure AcceptedConfiguration extends Desired where
  operation : Nat
  expectedIamRevision : Nat
  publicationApproved : Bool
deriving DecidableEq

/-- `sha256` is the digest of an encoded configuration.  The functions on operations
run with the rights of their owner, whom row security may or may not bind. -/
structure Platform where
  sha256 : Desired → Nat
  ownerBypassesRowSecurity : Bool

/-- The operation, the revision precondition and the approval are left out. -/
def configurationDigest (platform : Platform) (input : AcceptedConfiguration) : Nat :=
  platform.sha256 input.toDesired

inductive Kind where
  | configure
  | bundleConfigure
  | rotateSecret
  | rotateWebhookSecret
  | scopeDecision
  | webhookApproval
  | publicationPlan
  | publicationDecision
  | publicationActivation
  | testing (operation : String)
deriving DecidableEq

/-- `resource_id`; the texts of different kinds of resources differ. -/
inductive Resource where
  | application (id : Nat)
  | bundle (id : Nat)
  | testingEnvironment (id : Nat)
  | testingApplication (environment application : Nat)
deriving DecidableEq

def Resource.environment : Resource → Option Nat
  | .application _ | .bundle _ => none
  | .testingEnvironment id | .testingApplication id _ => some id

inductive Value where
  | number (value : Nat)
  | text (value : String)
  | texts (values : List String)
  | flag (value : Bool)
  | digest (value : Nat)
  | record (application : ManagedApplication)
deriving DecidableEq

/-- A field of a response: a plain value, or a secret that was generated. -/
inductive Field where
  | plain (value : Value)
  | secret (generated : Nat)
deriving DecidableEq

/-- The fields of a JSON object. -/
abbrev Response := List (String × Field)

namespace Response

def get (response : Response) (name : String) : Option Field :=
  (response.find? fun field => field.1 = name).map Prod.snd

def remove (response : Response) (name : String) : Response :=
  response.filter fun field => field.1 ≠ name

def set (response : Response) (name : String) (value : Value) : Response :=
  response.remove name ++ [(name, .plain value)]

/-- The public result of an operation. -/
def redact (response : Response) : Response := (response.remove "app_secret").remove "key"

def status (response : Response) : String :=
  match response.get "state" with
  | some (.plain (.text status)) => status
  | _ => "accepted"

end Response

def plainFields (fields : List (String × Value)) : Response :=
  fields.map fun field => (field.1, .plain field.2)

/-- Who asked for an operation and for what; the digests are of the body and the key. -/
structure Binding where
  service : Nat
  actor : Nat
  kind : Kind
  resource : Resource
  requestDigest : Nat
  idempotencyDigest : Nat
deriving DecidableEq

/-- `response` is what the stored ciphertext decrypts to. -/
structure StoredOperation where
  id : Nat
  binding : Binding
  environment : Option Nat
  state : String
  completed : Bool
  iamRevision : Option Nat
  result : Response
  response : Option Response
  responseExpiresAt : Option Nat
deriving DecidableEq

structure ManagementEvent where
  operation : Nat
  service : Nat
  resource : Resource
  revision : Nat
  eventType : String
  payload : Response
  environment : Option Nat
deriving DecidableEq

structure PublicationPlan where
  id : Nat
  service : Nat
  request : Nat
  application : Nat
  configurationRevision : Nat
  configurationDigest : Nat
  requestedScope : List String
deriving DecidableEq

/-- A request as it claims its operation; the times are the clock of the pod. -/
structure Ticket where
  operation : Nat
  binding : Binding
  claimedAt : Nat
  completedAt : Nat
deriving DecidableEq

inductive Answer where
  | conflict
  | replayed (response : Response)
  | started
  | completed (response : Response)
deriving DecidableEq

/-- What a transaction answered and changed.  `application` is the application whose
configuration it replaced and the revision it set, `requested` the configuration that
was asked for; it completed the pending operations `completes`, and purged `purges`. -/
structure Receipt where
  operation : Nat
  binding : Binding
  time : Nat
  answer : Answer
  application : Option (Nat × Nat)
  requested : Option Desired
  completes : List Nat
  purges : Option Nat
deriving DecidableEq

structure Db where
  operations : Table StoredOperation.id
  applications : Table ManagedApplication.id
  plans : Table PublicationPlan.id
  events : List ManagementEvent
  receipts : List Receipt

/-- A row as it is afterwards, a line of a log, or the purge of an environment's
events. -/
inductive Write where
  | operation (row : StoredOperation)
  | application (row : ManagedApplication)
  | plan (row : PublicationPlan)
  | event (event : ManagementEvent)
  | purgeEvents (service environment : Nat)
  | receipt (receipt : Receipt)
deriving DecidableEq

def ManagementEvent.purge (event : ManagementEvent) (environment : Nat) : ManagementEvent :=
  { event with
    payload := plainFields [("operation_id", .number event.operation),
      ("environment_id", .number environment), ("iam_revision", .number event.revision),
      ("purged", .flag true)] }

def Db.apply (db : Db) : Write → Db
  | .operation row => { db with operations := db.operations.upsert row }
  | .application row => { db with applications := db.applications.upsert row }
  | .plan row => { db with plans := db.plans.upsert row }
  | .event event => { db with events := db.events ++ [event] }
  | .purgeEvents service environment =>
      { db with
        events := db.events.map fun event =>
          if event.service = service ∧ event.environment = some environment then
            event.purge environment
          else event }
  | .receipt receipt => { db with receipts := db.receipts ++ [receipt] }

/-- Advisory locks on keys, row locks, and entries of unique indexes that a write
has taken or given up. -/
inductive Lock where
  | key (service idempotencyDigest : Nat)
  | operation (id : Nat)
  | index (service : Nat) (environment : Option Nat) (idempotencyDigest : Nat)
  | application (id : Nat)
  | plan (id : Nat)
  | planRequest (service request : Nat)
deriving DecidableEq

/-! ## Claiming an operation -/

inductive Claim where
  | unclaimed
  | locked
  | missing
  | conflict
  | replay (row : StoredOperation) (response : Response)
  | acquired (row : StoredOperation)
  | finished
deriving DecidableEq

/-- `accepted`: the activation has passed the checks of its plan. -/
structure Memory where
  claim : Claim
  application : Option ManagedApplication
  accepted : Bool
deriving DecidableEq

abbrev Statement := Transactions.Statement Db Write Lock Memory

def lockKey (ticket : Ticket) : Statement where
  locks := fun _ _ => [.key ticket.binding.service ticket.binding.idempotencyDigest]
  effect := fun _ m _ =>
    match m.claim with
    | .unclaimed => some ({ m with claim := .locked }, [])
    | _ => none

/-- The operations of this actor with the id or the key. -/
def matching (db : Db) (ticket : Ticket) : List StoredOperation :=
  db.operations.rows.filter fun row =>
    row.binding.actor = ticket.binding.actor ∧ row.binding.service = ticket.binding.service ∧
      (row.id = ticket.operation ∨
        row.binding.idempotencyDigest = ticket.binding.idempotencyDigest)

/-- The operation stays completed; a secret that has expired is not generated again. -/
def StoredOperation.replay (row : StoredOperation) (now : Nat) : Option Response :=
  match row.responseExpiresAt with
  | some expiry =>
      if now < expiry then row.response
      else some (row.result.set "secret_replay_expired" (.flag true))
  | none => some row.result

/-- None where a stored response cannot be decrypted. -/
def classify (ticket : Ticket) : List StoredOperation → Option Claim
  | [] => some .missing
  | row :: _ =>
      if row.id ≠ ticket.operation ∨ row.binding ≠ ticket.binding then some .conflict
      else if row.completed then (row.replay ticket.claimedAt).map (.replay row)
      else some (.acquired row)

def lookup (ticket : Ticket) : Statement where
  locks := fun _ db => (matching db ticket).map fun row => .operation row.id
  effect := fun _ m db =>
    match m.claim with
    | .locked => (classify ticket (matching db ticket)).map fun claim =>
        ({ m with claim := claim }, [])
    | _ => none

def Ticket.fresh (ticket : Ticket) : StoredOperation where
  id := ticket.operation
  binding := ticket.binding
  environment := none
  state := "pending"
  completed := false
  iamRevision := none
  result := []
  response := none
  responseExpiresAt := none

/-- Whether an entry of the unique index on keys is taken by another operation. -/
def indexTaken (db : Db) (operation service : Nat) (environment : Option Nat)
    (idempotencyDigest : Nat) : Bool :=
  db.operations.any fun row => row.id ≠ operation ∧ row.binding.service = service ∧
    row.environment = environment ∧ row.binding.idempotencyDigest = idempotencyDigest

/-- The insert of a new operation; a unique violation is a conflict. -/
def insertClaim (db : Db) (ticket : Ticket) : Claim :=
  if db.operations.any (fun row => row.id = ticket.operation) ||
      indexTaken db ticket.operation ticket.binding.service none ticket.binding.idempotencyDigest then
    .conflict
  else .acquired ticket.fresh

def insertOperation (ticket : Ticket) : Statement where
  locks := fun m _ =>
    match m.claim with
    | .missing => [.operation ticket.operation,
        .index ticket.binding.service none ticket.binding.idempotencyDigest]
    | _ => []
  effect := fun _ m db =>
    match m.claim with
    | .missing =>
        match insertClaim db ticket with
        | .acquired row => some ({ m with claim := .acquired row }, [.operation row])
        | claim => some ({ m with claim := claim }, [])
    | _ => some (m, [])

/-- The three statements with nothing in between. -/
def claim (db : Db) (ticket : Ticket) : Option Claim :=
  (classify ticket (matching db ticket)).map fun found =>
    match found with
    | .missing => insertClaim db ticket
    | found => found

/-! ## Completing it -/

/-- What a claimed operation is about to write beside its own row. -/
structure Work where
  application : Option ManagedApplication := none
  configured : Bool := false
  plan : Option PublicationPlan := none
  others : List StoredOperation := []
  completes : List Nat := []
  purges : Option Nat := none
  completed : Bool := true
  response : Response
  secret : Bool := false
  revision : Nat
  requested : Option Desired := none

/-- The row of a completed operation; an encrypted response is kept for ten minutes. -/
def complete (row : StoredOperation) (now : Nat) (response : Response) (secret : Bool)
    (revision : Nat) : StoredOperation :=
  { row with
    state := response.status
    completed := true
    iamRevision := some revision
    result := response.redact
    response := if secret then some response else none
    responseExpiresAt := if secret then some (now + 600) else none }

def eventType (kind : Kind) (status : String) : String :=
  match kind with
  | .configure =>
      if status = "pending" then "application.configuration.pending"
      else "application.configuration.accepted"
  | .bundleConfigure => "bundle.configuration.accepted"
  | .rotateSecret => "application.credential.rotated"
  | .rotateWebhookSecret => "application.webhook_secret.rotated"
  | .scopeDecision => "application.scope.decided"
  | .webhookApproval => "application.webhook.activated"
  | _ => "management.operation.completed"

def completionEvent (row : StoredOperation) (response : Response) (revision : Nat) :
    ManagementEvent where
  operation := row.id
  service := row.binding.service
  resource := row.binding.resource
  revision := revision
  eventType := eventType row.binding.kind response.status
  payload := response.redact
  environment := row.environment

/-- Operations of a test environment enter it in the statement before their work. -/
def StoredOperation.enter (row : StoredOperation) : StoredOperation :=
  { row with environment := row.binding.resource.environment }

namespace Work

variable (work : Work)

def row (ticket : Ticket) (row : StoredOperation) : StoredOperation :=
  if work.completed then
    complete row.enter ticket.completedAt work.response work.secret work.revision
  else { row.enter with result := work.response }

def receipt (ticket : Ticket) (row : StoredOperation) : Receipt where
  operation := row.id
  binding := row.binding
  time := ticket.completedAt
  answer := if work.completed then .completed work.response else .started
  application := if work.configured then
      work.application.map fun a => (a.id, a.configurationRevision) else none
  requested := work.requested
  completes := work.completes
  purges := work.purges

/-- `ON CONFLICT DO NOTHING` on the operation, the type and the revision. -/
def event (row : StoredOperation) (db : Db) : List Write :=
  let event := completionEvent row.enter work.response work.revision
  if work.completed && !db.events.any (fun other => other.operation = event.operation &&
      other.eventType = event.eventType && other.revision = event.revision) then
    [.event event]
  else []

def writes (ticket : Ticket) (row : StoredOperation) (db : Db) : List Write :=
  work.application.toList.map .application ++ work.plan.toList.map .plan ++
    work.others.map .operation ++
    work.purges.toList.map (.purgeEvents row.binding.service) ++ [.operation (work.row ticket row)] ++ work.event row db ++
    [.receipt (work.receipt ticket row)]

def locks (row : StoredOperation) : List Lock :=
  work.application.toList.map (fun a => .application a.id) ++
    work.plan.toList.flatMap (fun plan => [.plan plan.id, .planRequest plan.service plan.request]) ++
    work.others.map (fun other => .operation other.id) ++
    if row.environment = row.binding.resource.environment then [] else
      [.index row.binding.service row.binding.resource.environment row.binding.idempotencyDigest]

end Work

def Ticket.receipt (ticket : Ticket) (answer : Answer) : Receipt where
  operation := ticket.operation
  binding := ticket.binding
  time := ticket.claimedAt
  answer := answer
  application := none
  requested := none
  completes := []
  purges := none

/-- The rest of a transaction, once its claim is decided.  The rows that the work reads
are locked by then. -/
def finish (ticket : Ticket) (work : Memory → StoredOperation → Db → Option Work) : Statement where
  locks := fun m db =>
    match m.claim with
    | .acquired row => (work m row db).elim [] fun work => work.locks row
    | _ => []
  effect := fun _ m db =>
    match m.claim with
    | .conflict => some ({ m with claim := .finished }, [.receipt (ticket.receipt .conflict)])
    | .replay _ response =>
        some ({ m with claim := .finished }, [.receipt (ticket.receipt (.replayed response))])
    | .acquired row =>
        match work m row db with
        | none => none
        | some work =>
            if row.environment ≠ row.binding.resource.environment &&
                indexTaken db row.id row.binding.service row.binding.resource.environment
                  row.binding.idempotencyDigest then none
            else some ({ m with claim := .finished }, work.writes ticket row db)
    | _ => none

/-! ## Configuration -/

/-- What `apply_configuration` finds in the scopes, the webhook and the endpoints. -/
structure Applied where
  scopeMissing : Bool
  accepted : Bool
  fullyApproved : Bool
deriving DecidableEq

/-- The application, if it is not deleted and belongs to the organization. -/
def currentApplication (db : Db) (app : Nat) (organization : Option Nat) :
    Option ManagedApplication :=
  db.applications.find? fun a =>
    a.id = app ∧ a.deleted = false ∧ organization.all (fun id => id = a.organization)

/-- `SELECT … FOR UPDATE`; only a row that is found is locked. -/
def readApplication (app : Nat) (organization : Option Nat) : Statement where
  locks := fun m db =>
    match m.claim with
    | .acquired _ => (currentApplication db app organization).toList.map fun a => .application a.id
    | _ => []
  effect := fun _ m db =>
    match m.claim with
    | .acquired _ => some ({ m with application := currentApplication db app organization }, [])
    | _ => some (m, [])

def configuredStatus (input : AcceptedConfiguration) (previouslyPublic fullyApproved : Bool) :
    ReviewStatus :=
  if input.disabled then .suspended
  else if input.visibilityPublic ∧
      (input.publicationApproved = false ∨ (previouslyPublic = false ∧ fullyApproved = false)) then
    .underReview
  else .verified

/-- Six statements update the row, each bumping its version. -/
def applyConfiguration (input : AcceptedConfiguration) (applied : Applied)
    (existing : Option ManagedApplication) (db : Db) : Option ManagedApplication := do
  let previouslyPublic := existing.any fun a => a.visibilityPublic && a.reviewStatus = .verified
  let published := existing.any fun a => !a.visibilityPublic && input.visibilityPublic
  guard (published → input.publicationApproved = true ∧ applied.scopeMissing = false)
  guard (existing = none → db.applications.any (fun a => a.id = input.application) = false)
  guard (applied.accepted = true)
  return {
    id := input.application
    organization := existing.elim input.organization ManagedApplication.organization
    version := existing.elim 1 ManagedApplication.version + 6
    visibilityPublic := input.visibilityPublic
    reviewStatus := configuredStatus input previouslyPublic applied.fullyApproved
    deleted := false
    configurationRevision := input.configurationRevision
    settings := input.settings }

/-- The answer to a configuration that waits for its activation. -/
def pendingResponse (platform : Platform) (input : AcceptedConfiguration) (scopeMissing : Bool)
    (app : ManagedApplication) : Response :=
  plainFields [("operation_id", .number input.operation), ("state", .text "pending"),
    ("configuration_revision", .number input.configurationRevision),
    ("iam_revision", .number app.version), ("effective_configuration", .record app),
    ("configuration_digest", .digest (configurationDigest platform input)),
    ("required_publication", .flag true), ("required_critical_scopes", .flag scopeMissing)]

def pendingWork (platform : Platform) (input : AcceptedConfiguration) (scopeMissing : Bool)
    (app : ManagedApplication) : Work where
  response := pendingResponse platform input scopeMissing app
  revision := app.version
  requested := some input.toDesired

/-- A new application comes with a secret. -/
def configuredWork (input : AcceptedConfiguration) (secret : Option Nat)
    (app : ManagedApplication) : Work where
  application := some app
  configured := true
  response :=
    plainFields [("operation_id", .number input.operation),
      ("state", .text (if app.reviewStatus = .underReview then "pending" else "accepted")),
      ("configuration_revision", .number input.configurationRevision),
      ("iam_revision", .number app.version), ("application_id", .number app.id),
      ("effective_configuration", .record app)] ++
      secret.toList.map fun secret => ("app_secret", .secret secret)
  secret := secret.isSome
  revision := app.version
  requested := some input.toDesired

def configure (platform : Platform) (input : AcceptedConfiguration) (applied : Applied)
    (secret : Nat) (m : Memory) (_ : StoredOperation) (db : Db) : Option Work :=
  match m.application with
  | some existing => do
      let current ← db.applications.find? fun a => a.id = existing.id
      guard (current.configurationRevision < input.configurationRevision)
      guard (existing.version = input.expectedIamRevision)
      if input.visibilityPublic then
        return pendingWork platform input (!existing.visibilityPublic && applied.scopeMissing) existing
      else (applyConfiguration input applied (some existing) db).map (configuredWork input none)
  | none => do
      guard (input.expectedIamRevision = 0)
      guard (input.visibilityPublic = false)
      (applyConfiguration input applied none db).map (configuredWork input (some secret))

/-! ## Publication -/

/-- A saved revision is published as it is; a higher one may carry edits. -/
def matchesCurrent (desired : Desired) (app : ManagedApplication) : Prop :=
  app.configurationRevision = desired.configurationRevision →
    app.visibilityPublic = false ∧ app.reviewStatus = .verified ∧
      app.organization = desired.organization ∧ app.settings = desired.settings

instance (desired : Desired) (app : ManagedApplication) : Decidable (matchesCurrent desired app) :=
  inferInstanceAs (Decidable (_ → _))

/-- Whether the desired revision is older than what the application has. -/
def outdated (desired : Desired) (app : ManagedApplication) : Prop :=
  desired.configurationRevision < app.configurationRevision ∨
    desired.configurationRevision = app.configurationRevision ∧ app.visibilityPublic = true

instance (desired : Desired) (app : ManagedApplication) : Decidable (outdated desired app) :=
  inferInstanceAs (Decidable (_ ∨ _))

def PublicationPlan.covers (platform : Platform) (desired : Desired) (app : ManagedApplication)
    (plan : PublicationPlan) : Prop :=
  plan.application = app.id ∧ plan.configurationRevision = desired.configurationRevision ∧
    plan.configurationDigest = platform.sha256 desired ∧
    plan.requestedScope = desired.settings.appScope

instance (platform : Platform) (desired : Desired) (app : ManagedApplication)
    (plan : PublicationPlan) : Decidable (plan.covers platform desired app) :=
  inferInstanceAs (Decidable (_ ∧ _))

structure PlanRequest where
  request : Nat
  plan : Nat
  desired : Desired
  webhookMatches : Bool
deriving DecidableEq

def planWork (plan : PublicationPlan) (inserted : Option PublicationPlan)
    (app : ManagedApplication) : Work where
  plan := inserted
  response := plainFields [("state", .text "accepted"), ("request_id", .number plan.request),
    ("plan_id", .number plan.id), ("app_id", .number plan.application),
    ("configuration_revision", .number plan.configurationRevision), ("visibility", .text "public")]
  revision := app.version

def plan (platform : Platform) (service : Nat) (input : PlanRequest) (m : Memory)
    (_ : StoredOperation) (db : Db) : Option Work := do
  let app ← m.application
  guard (matchesCurrent input.desired app ∧ input.webhookMatches = true)
  match db.plans.find? fun plan => plan.service = service ∧ plan.request = input.request with
  | some plan => do
      guard (plan.covers platform input.desired app)
      return planWork plan none app
  | none => do
      guard (¬ outdated input.desired app)
      guard (db.plans.all fun plan => plan.id ≠ input.plan)
      let inserted : PublicationPlan :=
        { id := input.plan, service, request := input.request, application := app.id
          configurationRevision := input.desired.configurationRevision
          configurationDigest := platform.sha256 input.desired
          requestedScope := input.desired.settings.appScope }
      return planWork inserted (some inserted) app

structure ActivationRequest where
  operation : Nat
  request : Nat
  plan : Nat
  expectedIamRevision : Nat
  desired : Desired
  configurationOperations : List Nat
  webhookMatches : Bool
  gatesApproved : Bool
deriving DecidableEq

def ActivationRequest.configuration (input : ActivationRequest) : AcceptedConfiguration :=
  { input.desired with
    operation := input.operation
    expectedIamRevision := input.expectedIamRevision
    publicationApproved := true }

/-- The rows that a function on operations sees. -/
def Platform.sees (platform : Platform) (actor : Nat) (row : StoredOperation) : Bool :=
  platform.ownerBypassesRowSecurity || row.binding.actor = actor

/-- An operation that an activation of this revision may complete. -/
def pendingConfiguration (platform : Platform) (binding : Binding) (desired : Desired)
    (row : StoredOperation) : Prop :=
  platform.sees binding.actor row = true ∧ row.binding.service = binding.service ∧
    row.binding.kind = .configure ∧ row.binding.resource = .application desired.application ∧
    row.state = "pending" ∧
    row.result.get "configuration_revision" =
      some (.plain (.number desired.configurationRevision))

instance (platform : Platform) (binding : Binding) (desired : Desired) (row : StoredOperation) :
    Decidable (pendingConfiguration platform binding desired row) :=
  inferInstanceAs (Decidable (_ ∧ _))

/-- `honeycomb_publication_accept`. -/
def acceptable (platform : Platform) (binding : Binding) (input : ActivationRequest) (db : Db)
    (app : ManagedApplication) : Prop :=
  input.desired.visibilityPublic = true ∧ input.desired.disabled = false ∧
    app.id = input.desired.application ∧ matchesCurrent input.desired app ∧ input.webhookMatches = true ∧
    db.plans.any (fun plan => plan.id = input.plan ∧ plan.service = binding.service ∧
      plan.request = input.request ∧ plan.covers platform input.desired app) = true ∧
    ¬ outdated input.desired app ∧ app.version = input.expectedIamRevision ∧
    input.gatesApproved = true ∧
    ∀ pending ∈ input.configurationOperations,
      db.operations.any (fun row => row.id = pending ∧
        pendingConfiguration platform binding input.desired row ∧
        row.result.get "configuration_digest" =
          some (.plain (.digest (platform.sha256 input.desired)))) = true

instance (platform : Platform) (binding : Binding) (input : ActivationRequest) (db : Db)
    (app : ManagedApplication) : Decidable (acceptable platform binding input db app) :=
  inferInstanceAs (Decidable (_ ∧ _))

def accept (platform : Platform) (ticket : Ticket) (input : ActivationRequest) : Statement where
  locks := fun m _ =>
    match m.claim with
    | .acquired _ => [.plan input.plan]
    | _ => []
  effect := fun _ m db =>
    match m.claim, m.application with
    | .acquired _, some app =>
        if acceptable platform ticket.binding input db app then
          some ({ m with accepted := true }, [])
        else none
    | .acquired _, none => none
    | _, _ => some (m, [])

def activationResponse (input : ActivationRequest) (app : ManagedApplication) : Response :=
  plainFields [("operation_id", .number input.operation), ("request_id", .number input.request),
    ("publication_request_id", .number input.request), ("plan_id", .number input.plan),
    ("app_id", .number app.id), ("configuration_revision", .number app.configurationRevision),
    ("state", .text "accepted"), ("visibility", .text "public"),
    ("iam_revision", .number app.version), ("effective_configuration", .record app)]

/-- `honeycomb_publication_complete_pending`. -/
def StoredOperation.adopt (row : StoredOperation) (response : Response) (revision : Nat) :
    StoredOperation :=
  { row with
    state := "accepted"
    completed := true
    iamRevision := some revision
    result := response.set "operation_id" (.number row.id) }

def activationWork (platform : Platform) (binding : Binding) (input : ActivationRequest) (db : Db)
    (app : ManagedApplication) : Work :=
  let pending := db.operations.rows.filter fun row =>
    row.id ∈ input.configurationOperations ∧
      pendingConfiguration platform binding input.desired row
  let response := activationResponse input app
  { application := some app
    configured := true
    others := pending.map fun row => row.adopt response app.version
    completes := pending.map StoredOperation.id
    response
    revision := app.version
    requested := some input.desired }

/-- The grants update the row twice before the configuration is applied. -/
def activate (platform : Platform) (binding : Binding) (input : ActivationRequest)
    (applied : Applied) (m : Memory) (_ : StoredOperation) (db : Db) : Option Work := do
  guard (m.accepted = true)
  let current ← db.applications.find? fun a => a.id = input.desired.application
  let app ← applyConfiguration input.configuration applied
    (some { current with version := current.version + 2 }) db
  guard (input.expectedIamRevision < app.version ∧ app.visibilityPublic = true ∧
    app.reviewStatus = .verified)
  return activationWork platform binding input db app

/-! ## Other operations -/

/-- An operation on the application at the expected revision, which is bumped. -/
def revise (expectedIamRevision : Nat) (permitted : Bool) (fields : Nat → List (String × Value))
    (secret : Option Nat) (m : Memory) (_ : StoredOperation) (_ : Db) : Option Work := do
  let app ← m.application
  guard (app.version = expectedIamRevision ∧ permitted = true)
  return {
    application := some { app with version := app.version + 1 }
    response := plainFields (fields (app.version + 1)) ++
      secret.toList.map fun secret => ("app_secret", .secret secret)
    secret := secret.isSome
    revision := app.version + 1 }

structure Revision where
  operation : Nat
  application : Nat
  expectedIamRevision : Nat
  permitted : Bool
deriving DecidableEq

def rotate (input : Revision) (secret credentialVersion : Nat) :
    Memory → StoredOperation → Db → Option Work :=
  revise input.expectedIamRevision input.permitted
    (fun revision => [("operation_id", .number input.operation), ("state", .text "accepted"),
      ("iam_revision", .number revision), ("app_id", .number input.application),
      ("credential_version", .number credentialVersion)])
    (some secret)

def rotateWebhookSecret (input : Revision) (version : Nat) :
    Memory → StoredOperation → Db → Option Work :=
  revise input.expectedIamRevision input.permitted
    (fun revision => [("operation_id", .number input.operation), ("state", .text "accepted"),
      ("iam_revision", .number revision), ("app_id", .number input.application),
      ("webhook_secret_version", .number version)])
    none

def scopeDecision (input : Revision) (decision : String) (scopes : List String) :
    Memory → StoredOperation → Db → Option Work :=
  revise input.expectedIamRevision input.permitted
    (fun revision => [("operation_id", .number input.operation), ("state", .text "accepted"),
      ("iam_revision", .number revision), ("app_id", .number input.application),
      ("decision", .text decision), ("scopes", .texts scopes)])
    none

def webhookApproval (input : Revision) (pendingEndpoint : Nat) :
    Memory → StoredOperation → Db → Option Work :=
  revise input.expectedIamRevision input.permitted
    (fun revision => [("operation_id", .number input.operation), ("state", .text "accepted"),
      ("iam_revision", .number revision), ("app_id", .number input.application),
      ("webhook_endpoint_id", .number pendingEndpoint)])
    none

structure DecisionRequest where
  operation : Nat
  request : Nat
  plan : Nat
  application : Nat
  configurationRevision : Nat
  provider : String
  scopes : List String
  decision : String
  eligible : Bool
deriving DecidableEq

/-- `honeycomb_publication_decide`, without the row of the decision. -/
def decidePublication (service : Nat) (input : DecisionRequest) (m : Memory) (_ : StoredOperation)
    (db : Db) : Option Work := do
  let app ← m.application
  guard (db.plans.any (fun plan => plan.id = input.plan ∧ plan.service = service ∧
    plan.request = input.request ∧ plan.application = app.id ∧
    plan.configurationRevision = input.configurationRevision) = true)
  guard (¬ (input.configurationRevision < app.configurationRevision ∨
    input.configurationRevision = app.configurationRevision ∧ app.visibilityPublic = true))
  guard (input.eligible = true)
  return {
    response := plainFields [("operation_id", .number input.operation),
      ("decision_id", .number input.operation), ("state", .text "accepted"),
      ("request_id", .number input.request), ("plan_id", .number input.plan),
      ("app_id", .number input.application),
      ("configuration_revision", .number input.configurationRevision),
      ("provider", .text input.provider), ("scopes", .texts input.scopes),
      ("decision", .text input.decision)]
    revision := app.version }

/-- The bundle is in tables of its own; `revision` is the one it then has. -/
def configureBundle (operation : Nat) (revision : Option Nat) (effective : String) (_ : Memory)
    (_ : StoredOperation) (_ : Db) : Option Work :=
  revision.map fun revision =>
    { response := plainFields [("operation_id", .number operation), ("state", .text "accepted"),
        ("iam_revision", .number revision), ("effective_configuration", .text effective)]
      revision }

/-- The first transaction of an operation of a test environment. -/
def startTesting (snapshot : Option (List (String × Value))) (_ : Memory) (_ : StoredOperation)
    (_ : Db) : Option Work :=
  snapshot.map fun snapshot =>
    { completed := false, response := plainFields snapshot, revision := 0 }

/-- `honeycomb_testing_purge_receipts`. -/
def StoredOperation.purge (row : StoredOperation) (now environment : Nat) : StoredOperation :=
  { row with
    response := none
    responseExpiresAt := row.responseExpiresAt.map fun _ => now
    result := plainFields [("operation_id", .number row.id), ("state", .text row.state),
      ("environment_id", .number environment), ("iam_revision", .number (row.iamRevision.getD 0)),
      ("purged", .flag true)] }

structure TestingResult where
  fields : List (String × Value)
  appSecret : Option Nat
  key : Option Nat
  revision : Nat
  purge : Option Nat
deriving DecidableEq

/-- The transaction that completes an operation of a test environment. -/
def finishTesting (platform : Platform) (ticket : Ticket) (result : Option TestingResult)
    (_ : Memory) (row : StoredOperation) (db : Db) : Option Work := do
  let result ← result
  return {
    others := result.purge.elim [] fun environment =>
      (db.operations.rows.filter fun other => other.id ≠ row.id ∧
        other.binding.service = ticket.binding.service ∧
        other.environment = some environment ∧
        platform.sees ticket.binding.actor other = true).map
      (fun other => other.purge ticket.completedAt environment)
    purges := result.purge
    response := plainFields ([("operation_id", .number ticket.operation),
        ("state", .text "accepted"), ("iam_revision", .number result.revision)] ++ result.fields) ++
      result.appSecret.toList.map (fun secret => ("app_secret", .secret secret)) ++
      result.key.toList.map (fun key => ("key", .secret key))
    secret := result.appSecret.isSome || result.key.isSome
    revision := result.revision }

/-- Any other transaction that writes an application: none sets the revision of its
configuration. -/
def writeApplication (row : ManagedApplication) : Statement where
  locks := fun _ _ => [.application row.id]
  effect := fun _ m db =>
    match m.claim with
    | .unclaimed =>
        some ({ m with claim := .finished }, [.application { row with
          configurationRevision := (db.applications.find? fun a => a.id = row.id).elim 0
            ManagedApplication.configurationRevision }])
    | _ => none

/-! ## Requests -/

/-- What the headers, the body and the clock of a request say. -/
structure Call where
  service : Nat
  actor : Nat
  requestDigest : Nat
  idempotencyDigest : Nat
  claimedAt : Nat
  completedAt : Nat
  permitted : Bool
deriving DecidableEq

def Call.ticket (call : Call) (operation : Nat) (kind : Kind) (resource : Resource) : Ticket where
  operation := operation
  binding := ⟨call.service, call.actor, kind, resource, call.requestDigest, call.idempotencyDigest⟩
  claimedAt := call.claimedAt
  completedAt := call.completedAt

inductive Request where
  | configure (call : Call) (input : AcceptedConfiguration) (applied : Applied) (secret : Nat)
  | plan (call : Call) (input : PlanRequest)
  | decide (call : Call) (input : DecisionRequest)
  | activate (call : Call) (input : ActivationRequest) (applied : Applied)
  | rotate (call : Call) (input : Revision) (secret credentialVersion : Nat)
  | rotateWebhookSecret (call : Call) (input : Revision) (version : Nat)
  | scopeDecision (call : Call) (input : Revision) (decision : String) (scopes : List String)
  | webhookApproval (call : Call) (input : Revision) (pendingEndpoint : Nat)
  | configureBundle (call : Call) (operation bundle : Nat) (revision : Option Nat)
      (effective : String)
  | startTesting (call : Call) (operation environment : Nat) (app : Option Nat) (kind : String)
      (snapshot : Option (List (String × Value)))
  | finishTesting (call : Call) (operation environment : Nat) (app : Option Nat) (kind : String)
      (result : Option TestingResult)
  | writeApplication (row : ManagedApplication)
deriving DecidableEq

/-- Authority is checked before the claim, also of a replay. -/
def authorize (permitted : Bool) : Statement where
  locks := fun _ _ => []
  effect := fun _ m _ => if permitted then some (m, []) else none

/-- A request that claims its operation before its other statements. -/
def claimed (permitted : Bool) (ticket : Ticket) (statements : List Statement)
    (work : Memory → StoredOperation → Db → Option Work) : List Statement :=
  [authorize permitted, lockKey ticket, lookup ticket, insertOperation ticket] ++ statements ++
    [finish ticket work]

def testingResource (environment : Nat) : Option Nat → Resource
  | none => .testingEnvironment environment
  | some app => .testingApplication environment app

def program (platform : Platform) : Request → List Statement
  | .configure call input applied secret =>
      claimed call.permitted
        (call.ticket input.operation .configure (.application input.application))
        [readApplication input.application (some input.organization)]
        (configure platform input applied secret)
  | .plan call input =>
      claimed call.permitted
        (call.ticket input.request .publicationPlan (.application input.desired.application))
        [readApplication input.desired.application none] (plan platform call.service input)
  | .decide call input =>
      claimed call.permitted
        (call.ticket input.operation .publicationDecision (.application input.application))
        [readApplication input.application none] (decidePublication call.service input)
  | .activate call input applied =>
      let ticket := call.ticket input.operation .publicationActivation
        (.application input.desired.application)
      claimed call.permitted ticket
        [readApplication input.desired.application none, accept platform ticket input]
        (activate platform ticket.binding input applied)
  | .rotate call input secret credentialVersion =>
      claimed call.permitted
        (call.ticket input.operation .rotateSecret (.application input.application))
        [readApplication input.application none] (rotate input secret credentialVersion)
  | .rotateWebhookSecret call input version =>
      claimed call.permitted
        (call.ticket input.operation .rotateWebhookSecret (.application input.application))
        [readApplication input.application none] (rotateWebhookSecret input version)
  | .scopeDecision call input decision scopes =>
      claimed call.permitted
        (call.ticket input.operation .scopeDecision (.application input.application))
        [readApplication input.application none] (scopeDecision input decision scopes)
  | .webhookApproval call input pendingEndpoint =>
      claimed call.permitted
        (call.ticket input.operation .webhookApproval (.application input.application))
        [readApplication input.application none] (webhookApproval input pendingEndpoint)
  | .configureBundle call operation bundle revision effective =>
      claimed call.permitted (call.ticket operation .bundleConfigure (.bundle bundle)) []
        (configureBundle operation revision effective)
  | .startTesting call operation environment app kind snapshot =>
      claimed call.permitted
        (call.ticket operation (.testing kind) (testingResource environment app)) []
        (startTesting snapshot)
  | .finishTesting call operation environment app kind result =>
      let ticket := call.ticket operation (.testing kind) (testingResource environment app)
      claimed call.permitted ticket [] (finishTesting platform ticket result)
  | .writeApplication row => [writeApplication row]

def engine (platform : Platform) : Engine Db Write Lock Memory Request where
  apply := Db.apply
  excludes := fun k l => k = l
  symmetric := fun k l => by simp [eq_comm]
  memory := ⟨.unclaimed, none, false⟩
  program := program platform

end SiliconIam.Applications.Honeycomb
