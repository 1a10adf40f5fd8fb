/-
# Applications.ReviewDecisions -- who decides the review status of an application

Two authorities write `review_status`: a platform administrator decides, and the
owner configures.  A decision also writes the application's principal and ends
what was derived from the application; a configuration writes the status alone.
`World` holds the reviewed applications beside the credentials of `Auth.Authority`
and the deliveries of `Webhook.DeliveryLease`, and every exchange runs in the
`view`, where an application is current while its review status is `verified`.

Operations are functions of the state under the lock of the application row.
What they ask of tables outside the model (capabilities, step-up, the reviews of
a publication plan) is an answer in the call.  `decisionTarget`,
`configurationTarget` and `activationTarget` are the checks an operation makes
before it writes.
-/
import SiliconIam.Applications.WebhookEffects
import SiliconIam.Auth.CredentialUse
import SiliconIam.Webhook.DeliveryLease

namespace SiliconIam.Applications.Review

open SiliconIam.Theory
open SiliconIam.Auth
open SiliconIam.Auth.Authority (Db Credential AccessToken AccessContext ApplicationIdentity
  OboExchangeRequest OboVerifyRequest SecuritySettings ShortLivedTokenRequest TokenClass)
open SiliconIam.Webhook

set_option autoImplicit false

/-! ## Rows -/

inductive ApprovalBasis where
  | providerApproval
  | noncritical
  | privateExemption
deriving DecidableEq

/-- A row of `iam.application_approved_scopes` that is not revoked. -/
structure Approval where
  scope : String
  basis : ApprovalBasis
deriving DecidableEq

structure ReviewedApplication where
  id : Nat
  organization : Nat
  reviewStatus : ReviewStatus
  deletedAt : Option Nat
  visibilityPublic : Bool
  appScope : List String
  approvals : List Approval
  configurationRevision : Nat
  version : Nat
deriving DecidableEq

/-- A delivery to a webhook endpoint of the application. -/
structure DeliveryRow where
  id : Nat
  application : Nat
  lease : DeliveryLease.System

structure World where
  clock : Nat
  db : Db
  reviews : Table ReviewedApplication.id
  deliveries : Table DeliveryRow.id

/-- `handle` is the public identifier of an application; `critical` is the scope
catalog's. -/
structure Settings where
  security : SecuritySettings
  lease : DeliveryLease.Settings
  handle : Nat → String
  critical : String → Bool

def ReviewedApplication.row (p : Settings) (a : ReviewedApplication) : Authority.Application where
  id := a.id
  appId := p.handle a.id
  organization := a.organization
  verified := a.reviewStatus = .verified
  deletedAt := a.deletedAt
  isPrivate := !a.visibilityPublic
  approvedScopes := (a.approvals.map Approval.scope).insertionSort (· ≤ ·)

/-- The database that the exchanges read. -/
def World.view (p : Settings) (w : World) : Db :=
  { w.db with
    directory := { w.db.directory with
      applications := w.reviews.rows.map (ReviewedApplication.row p) } }

/-! ## Statements -/

/-- An update of `iam.applications`: the trigger on it bumps the version. -/
def World.setReview (w : World) (app : Nat) (set : ReviewedApplication → ReviewedApplication)
    (keeps : ∀ a, (set a).id = a.id) : World :=
  { w with
    reviews := w.reviews.update (fun a => a.id = app)
      (fun a => { set a with version := a.version + 1 }) keeps }

def World.setStatus (w : World) (app : Nat) (status : ReviewStatus) : World :=
  w.setReview app (fun a => { a with reviewStatus := status }) fun _ => rfl

/-- The application, locked, if it is not deleted. -/
def World.application? (w : World) (app : Nat) : Option ReviewedApplication :=
  w.reviews.find? fun a => a.id = app ∧ a.deletedAt = none

def isApplication (app : Nat) (principal : Authority.Principal) : Bool :=
  principal.id = app && principal.kind = .application

def suspendPrincipal (db : Db) (app : Nat) : Db :=
  { db with
    principals := db.principals.update (isApplication app)
      (fun principal =>
        { principal with status := .suspended, authEpoch := principal.authEpoch + 1 }) fun _ => rfl }

def deletePrincipal (db : Db) (app : Nat) : Db :=
  { db with
    principals := db.principals.update
      (fun principal => isApplication app principal && principal.status != .deleted)
      (fun principal =>
        { principal with status := .deleted, authEpoch := principal.authEpoch + 1 }) fun _ => rfl }

def restorePrincipal (db : Db) (app : Nat) : Db :=
  { db with
    principals := db.principals.update
      (fun principal => isApplication app principal && principal.status != .deleted)
      (fun principal => { principal with status := .active }) fun _ => rfl }

theorem deny_id (now : Nat) (request : Authority.AuthorizationRequest) :
    (request.deny now).id = request.id :=
  rfl

theorem withdrawn_id (review : ReviewedApplication) :
    ({ review with approvals := [] } : ReviewedApplication).id = review.id :=
  rfl

theorem consumed_id (now : Nat) (code : Authority.AuthorizationCode) :
    ({ code with consumedAt := some now } : Authority.AuthorizationCode).id = code.id :=
  rfl

/-- The rows below are retired with the secrets and the webhook keys. -/
def retireApplicationCredentials (w : World) (now app : Nat) : World :=
  { w with
    reviews := w.reviews.update (fun a => a.id = app) (fun a => { a with approvals := [] })
      withdrawn_id
    db := { w.db with
      directory := { w.db.directory with
        endpoints := w.db.directory.endpoints.map fun e =>
          if e.application = app then { e with active := false } else e }
      codes := w.db.codes.update (fun code => code.application = app && code.consumedAt.isNone)
        (fun code => { code with consumedAt := some now }) (consumed_id now)
      requests := w.db.requests.update
        (fun request => request.application = app &&
          (request.status = .pending || request.status = .approved))
        (Authority.AuthorizationRequest.deny now) (deny_id now) } }

/-- What was derived from the application: its families and tokens, the tokens
issued for it, its consents, its proofs and the deliveries that are not done. -/
def revokeApplicationAuthority (p : Settings) (w : World) (now app : Nat) (reason : String) :
    World :=
  { w with
    db := Authority.revokeApplicationAuthority w.db now app reason
    deliveries := w.deliveries.update (fun row => row.application = app)
      (fun row => { row with lease := DeliveryLease.act p.lease row.lease .cancel }) fun _ => rfl }

/-! ## Administration -/

inductive AdminDecision where
  | approve
  | reject
  | suspend
  | reactivate
  | delete
  | approvePendingChanges
  | rejectPendingChanges
deriving DecidableEq

structure DecisionCall where
  application : Nat
  decision : AdminDecision
  approvedScopes : Option (List String)
  reason : Option String
  permitted : Bool
  expected : Nat
  stepUp : Bool

/-- The checks after these two of the source always pass. -/
def validateAdminDecision (call : DecisionCall) : Except ApiError Unit := do
  require (call.approvedScopes = none ∧ call.decision ≠ .approve ∧
      call.decision ≠ .approvePendingChanges ∧ call.decision ≠ .rejectPendingChanges)
    (.validation "decision"
      "critical permissions are decided through their application-specific scope request")
  require (∀ reason ∈ call.reason, reason ≠ "" ∧ reason.length ≤ 2000)
    (.validation "reason" "must contain 1 to 2000 characters")

def transitionAllowed : AdminDecision → ReviewStatus → Bool
  | .approve, current | .reject, current => current = .underReview
  | .suspend, current | .approvePendingChanges, current | .rejectPendingChanges, current =>
      current = .verified
  | .reactivate, current => current = .suspended
  | .delete, current => current ≠ .deleted

def AdminDecision.nextStatus : AdminDecision → Option ReviewStatus
  | .approve | .reactivate => some .verified
  | .reject => some .rejected
  | .suspend => some .suspended
  | .delete => some .deleted
  | .approvePendingChanges | .rejectPendingChanges => none

def decisionTarget (w : World) (call : DecisionCall) : Except ApiError ReviewedApplication := do
  validateAdminDecision call
  require (call.permitted = true) (.forbidden "forbidden")
  let app ← orElse (w.application? call.application) .notFound
  require (transitionAllowed call.decision app.reviewStatus = true)
    (.conflict "application_review_state_conflict")
  require (app.version = call.expected) .preconditionFailed
  require (call.stepUp = true) .stepUpRequired
  return app

def World.markDecided (w : World) (now app : Nat) (decision : AdminDecision) : World :=
  w.setReview app
    (fun a => { a with
      reviewStatus := decision.nextStatus.getD a.reviewStatus
      deletedAt := if decision.nextStatus = some .deleted then some now else a.deletedAt })
    fun _ => rfl

/-- The status column, then the principal and everything derived. -/
def World.decided (p : Settings) (w : World) (now app : Nat) (decision : AdminDecision) : World :=
  let w := w.markDecided now app decision
  match decision.nextStatus with
  | some .deleted =>
      let w := { w with db := deletePrincipal w.db app }
      let w := retireApplicationCredentials w now app
      revokeApplicationAuthority p w now app "application_deleted"
  | some .suspended =>
      let w := { w with db := suspendPrincipal w.db app }
      revokeApplicationAuthority p w now app "application_suspended"
  | some .verified => { w with db := restorePrincipal w.db app }
  | _ => w

def adminDecide (p : Settings) (w : World) (call : DecisionCall) : Except ApiError World := do
  let app ← decisionTarget w call
  return w.decided p w.clock app.id call.decision

/-! ## Configuration -/

/-- `applied` is whether the other parts of the configuration are accepted. -/
structure ConfigureCall where
  application : Nat
  organization : Nat
  configurationRevision : Nat
  expectedIamRevision : Nat
  visibilityPublic : Bool
  disabled : Bool
  publicationApproved : Bool
  scopes : List String
  valid : Except ApiError Unit
  permitted : Bool
  applied : Except ApiError Unit

/-- The scopes stay approved that are still asked for; noncritical ones are approved
at once, and critical ones too while the application is private. -/
def configuredApprovals (p : Settings) (names : List String) (a : ReviewedApplication) :
    List Approval :=
  let kept := a.approvals.filter fun approval => names.contains approval.scope
  kept ++ (names.filter fun scope =>
      (!p.critical scope || !a.visibilityPublic) && !kept.any fun b => b.scope = scope).map
    fun scope => ⟨scope, if p.critical scope then .privateExemption else .noncritical⟩

/-- An application under review is verified once nothing it asks for is unapproved. -/
def configureApplicationScopes (p : Settings) (names : List String) (w : World) (now app : Nat) :
    World :=
  { w.setReview app
      (fun a => { a with
        appScope := names
        approvals := configuredApprovals p names a
        reviewStatus :=
          if a.reviewStatus = .underReview ∧
              names.all (fun scope => (configuredApprovals p names a).any fun b => b.scope = scope)
          then .verified else a.reviewStatus })
      (fun _ => rfl) with
    db := { w.db with
      access := w.db.access.update
        (fun token => token.client = some app && token.revokedAt.isNone &&
          token.scopes.any fun scope => !names.contains scope)
        (AccessToken.revokeUnrevoked now "application_scope_revoked") fun _ => rfl } }

def publicScopeMissing (p : Settings) (names : List String) (a : ReviewedApplication) : Bool :=
  names.any fun scope => p.critical scope && !a.approvals.contains ⟨scope, .providerApproval⟩

/-- Everything asked for is approved, and not only because the application is private. -/
def fullyApproved (w : World) (app : Nat) : Bool :=
  w.reviews.any fun a => a.id = app && a.appScope.all fun scope =>
    a.approvals.any fun b => b.scope = scope && b.basis ≠ .privateExemption

/-- The trigger that keeps a private exemption from becoming a public approval. -/
def exemptionBecomesPublic (p : Settings) (w : World) (call : ConfigureCall) : Bool :=
  w.reviews.any fun a => a.id = call.application && !a.visibilityPublic && call.visibilityPublic &&
    a.approvals.any fun b =>
      b.basis ≠ .providerApproval && a.appScope.contains b.scope && p.critical b.scope

def createApplication (w : World) (call : ConfigureCall) : Except ApiError World := do
  let db ← orElse (Authority.createPrincipal w.db ⟨call.application, .application, .active, 1⟩)
    (.conflict "application_already_exists")
  let reviews ← orElse
    (w.reviews.insert
      { id := call.application, organization := call.organization
        reviewStatus := if call.visibilityPublic then .underReview else .verified
        deletedAt := none, visibilityPublic := call.visibilityPublic, appScope := []
        approvals := [], configurationRevision := 0, version := 1 })
    (.conflict "application_already_exists")
  return { w with db, reviews }

def createIfFresh (w : World) (call : ConfigureCall) :
    Option ReviewedApplication → Except ApiError World
  | none => createApplication w call
  | some _ => .ok w

/-- The status a configuration leaves. -/
def configuredStatus (call : ConfigureCall) (previouslyPublic fullyApproved : Bool) : ReviewStatus :=
  if call.disabled then .suspended
  else if call.visibilityPublic ∧
      (call.publicationApproved = false ∨ (previouslyPublic = false ∧ fullyApproved = false)) then
    .underReview
  else .verified

def applyConfiguration (p : Settings) (w : World) (call : ConfigureCall)
    (existing : Option ReviewedApplication) : Except ApiError World := do
  let previouslyPublic := existing.any fun a => a.visibilityPublic && a.reviewStatus = .verified
  let published := existing.any fun a => !a.visibilityPublic && call.visibilityPublic
  require (published → call.publicationApproved) (.conflict "publication_approval_required")
  require (published → existing.any (publicScopeMissing p call.scopes) = false)
    (.conflict "public_scope_approval_required")
  let w ← createIfFresh w call existing
  call.applied
  let w := configureApplicationScopes p call.scopes w w.clock call.application
  require (exemptionBecomesPublic p w call = false)
    (.validation "configuration" "invalid accepted configuration")
  let w := w.setReview call.application
    (fun a => { a with visibilityPublic := call.visibilityPublic }) fun _ => rfl
  let w := configureApplicationScopes p call.scopes w w.clock call.application
  let w := w.setStatus call.application
    (configuredStatus call previouslyPublic (fullyApproved w call.application))
  let w := w.setReview call.application
    (fun a => { a with configurationRevision := call.configurationRevision }) fun _ => rfl
  return w.setReview call.application (fun a => a) fun _ => rfl

def configurationTarget (w : World) (call : ConfigureCall) :
    Except ApiError (Option ReviewedApplication) := do
  call.valid
  require (call.permitted = true) .notFound
  match (w.application? call.application).filter (·.organization = call.organization) with
  | some app => do
      require (app.configurationRevision < call.configurationRevision)
        (.conflict "configuration_revision_conflict")
      require (app.version = call.expectedIamRevision) (.conflict "iam_revision_conflict")
      return some app
  | none => do
      require (call.expectedIamRevision = 0) (.conflict "iam_revision_conflict")
      require (call.visibilityPublic = false) (.conflict "create_private_before_publication")
      return none

/-- A public configuration of an existing application waits for its activation. -/
def configure (p : Settings) (w : World) (call : ConfigureCall) : Except ApiError World := do
  let existing ← configurationTarget w call
  if call.visibilityPublic then return w else applyConfiguration p w call existing

/-- `planCurrent` covers the reviews of the plan; `decided` are the scopes they
grant, and `unchanged` whether the effective configuration is the desired one. -/
structure ActivationCall extends ConfigureCall where
  planCurrent : Bool
  unchanged : Bool
  decided : List String

def activationTarget (w : World) (call : ActivationCall) : Except ApiError ReviewedApplication := do
  call.valid
  require (call.visibilityPublic = true ∧ call.publicationApproved = true ∧ call.disabled = false)
    (.validation "visibility" "publication requires public visibility")
  require (call.permitted = true) .notFound
  let app ← orElse (w.application? call.application) .notFound
  require (app.configurationRevision = call.configurationRevision →
      app.visibilityPublic = false ∧ app.reviewStatus = .verified ∧ call.unchanged)
    (.conflict "publication_configuration_revision_conflict")
  require (call.planCurrent = true ∧ app.configurationRevision ≤ call.configurationRevision ∧
      app.version = call.expectedIamRevision)
    (.conflict "publication_revision_or_plan_conflict")
  return app

/-- A provider's approval takes the place of any other approval of the scope. -/
def grantDecided (decided : List String) (a : ReviewedApplication) : ReviewedApplication :=
  { a with
    approvals := a.approvals.filter (fun b => !decided.contains b.scope) ++
      decided.dedup.map fun scope => ⟨scope, .providerApproval⟩ }

def activate (p : Settings) (w : World) (call : ActivationCall) : Except ApiError World := do
  let app ← activationTarget w call
  let w := configureApplicationScopes p call.scopes w w.clock app.id
  let w := w.setReview app.id (grantDecided call.decided) fun _ => rfl
  let current ← orElse (w.application? app.id) (.internal "publication_configuration_read")
  let w ← applyConfiguration p w call.toConfigureCall (some current)
  require ((w.application? app.id).any fun a => a.visibilityPublic && a.reviewStatus = .verified)
    (.conflict "publication_activation_incomplete")
  return w

/-! ## Exchanges -/

inductive Exchange where
  | consent (access : AccessContext) (input : ShortLivedTokenRequest) (fresh : Authority.Fresh)
  | code (client : ApplicationIdentity) (supplied : List Nat) (fresh : Authority.Fresh)
  | refresh (client : ApplicationIdentity) (supplied : List Nat) (fresh : Authority.Fresh)
  | oboExchange (client : ApplicationIdentity) (access : AccessContext)
      (request : OboExchangeRequest) (replayed : Option Nat) (fresh : Authority.Fresh)
  | oboVerify (client : ApplicationIdentity) (supplied : List Nat) (request : OboVerifyRequest)
  | authenticate (tokenClass : TokenClass) (supplied : List Nat)
  | introspect (client : ApplicationIdentity) (access : AccessContext)
      (orgContext : Option String)
  | introspectRefreshToken (client : ApplicationIdentity) (supplied : List Nat)
      (orgContext : Option String)

def Exchange.action (now : Nat) : Exchange → Authority.Action
  | .consent access input fresh => .issueForSelection now access input fresh
  | .code client supplied fresh => .exchangeAuthorizationCode now client supplied fresh
  | .refresh client supplied fresh => .exchangeRefreshToken now client supplied fresh
  | .oboExchange client access request replayed fresh =>
      .oboExchange now client access request replayed fresh
  | .oboVerify client supplied request => .oboVerify now client supplied request
  | .authenticate tokenClass supplied => .authenticate now tokenClass supplied
  | .introspect client access orgContext => .introspect now client access orgContext
  | .introspectRefreshToken client supplied orgContext =>
      .introspectRefreshToken now client supplied orgContext

/-! ## Runs -/

/-- `directory` is any change of the people, organizations and endpoints that an
exchange looks at, `expand` the insertion of a delivery. -/
inductive Act where
  | decide (call : DecisionCall)
  | configure (call : ConfigureCall)
  | activate (call : ActivationCall)
  | exchange (exchange : Exchange)
  | directory (directory : Authority.Directory)
  | expand (delivery application : Nat)
  | deliver (delivery : Nat) (action : DeliveryLease.Action)

/-- An operation, and how long after the previous one it runs. -/
structure Event where
  elapsed : Nat
  act : Act

/-- The committed state after a request: a refused one is rolled back. -/
def committed (w : World) : Except ApiError World → World
  | .ok t => t
  | .error _ => w

/-- One operation at the time `w.clock`. -/
def act (p : Settings) (w : World) : Act → World
  | .decide call => committed w (adminDecide p w call)
  | .configure call => committed w (configure p w call)
  | .activate call => committed w (activate p w call)
  | .exchange exchange =>
      { w with db := Authority.next p.security (w.view p) (exchange.action w.clock) }
  | .directory directory => { w with db := { w.db with directory := directory } }
  | .expand delivery application =>
      match w.deliveries.insert ⟨delivery, application, DeliveryLease.fresh w.clock⟩ with
      | some deliveries => { w with deliveries := deliveries }
      | none => w
  | .deliver delivery action =>
      { w with
        deliveries := w.deliveries.update (fun row => row.id = delivery)
          (fun row => { row with
            lease := DeliveryLease.act p.lease { row.lease with clock := w.clock } action })
          fun _ => rfl }

def World.advance (w : World) (elapsed : Nat) : World := { w with clock := w.clock + elapsed }

def next (p : Settings) (w : World) (e : Event) : World := act p (w.advance e.elapsed) e.act

/-- The credentials that an event accepts. -/
def accepted (p : Settings) (w : World) (e : Event) : List Credential :=
  match e.act with
  | .exchange exchange =>
      Authority.accepted p.security (w.view p) (exchange.action (w.clock + e.elapsed))
  | _ => []

/-- A worker takes the delivery on, or begins to send it. -/
def takesOn (s : DeliveryLease.System) : DeliveryLease.Action → Bool
  | .claim worker =>
      match s.workers worker with
      | .idle => s.delivery.claimable s.clock
      | _ => false
  | .beginAttempt worker =>
      match s.workers worker with
      | .claimed _ => s.delivery.holds worker && s.delivery.live s.clock
      | _ => false
  | _ => false

def attempted (w : World) (e : Event) : List Nat :=
  match e.act with
  | .deliver delivery action =>
      (w.deliveries.rows.filter fun row =>
        row.id = delivery && takesOn { row.lease with clock := w.clock + e.elapsed } action).map
        DeliveryRow.id
  | _ => []

end SiliconIam.Applications.Review
