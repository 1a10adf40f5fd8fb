/-
# Auth.WebhookAudience -- who an event of an organization is delivered to

The transaction that commits an event captures a projection for every application
that a consent, a scope approved for it and a selected membership in the
organization entitle to the event (`capturedApplications`).  A worker later expands
the event: the endpoints that `listWorkerCapturedApplicationWebhookRecipients`
returns then get a delivery each, and a delivery loads its projection when it is
sent (`loadProjection`).

Between these any transaction may change consents, approvals, memberships,
principals, applications and endpoints.  `Changes` is what it may do to a consent
or a membership: the row stays, and one that a transaction withdraws carries the
time at which that transaction began.  Transactions do not commit in the order in
which they began.  What the event's own transaction writes after its capture is a
transaction of the event's time that follows; a worker that crashes takes no step,
and an event may be expanded again.

The text of a projection is what `project` makes of the state its transaction sees.
Old projections are deleted once their event is done; that is left out.
-/
import SiliconIam.Auth.WebhookRecipients
import SiliconIam.Theory.Keyed
import Mathlib.Data.List.Dedup

namespace SiliconIam.Auth.WebhookAudience

open SiliconIam.Theory
open SiliconIam.Auth.Authority

set_option autoImplicit false

/-! ## Capture -/

/-- A row of `list_organization_member_webhook_authorizations`. -/
structure AuthorizationRow where
  application : Nat
  membership : Nat
  scope : String
  authorizedAfter : Bool
deriving DecidableEq

section Capture

variable (db : Db) (rows : WebhookRows)

/-- A scope approved for an application at the time or later. -/
def approvedAt (at_ : Nat) (approved : ScopeApproval) : Bool :=
  approved.revokedAt.isNone || stampedSince at_ approved.revokedAt

def activePrincipal (id : Nat) : Bool :=
  db.principals.any fun principal => principal.id = id && principal.status = .active

/-- An application that events of the organization may go to. -/
def takesEvents (organization application : Nat) : Bool :=
  db.directory.applications.any fun app =>
    app.id = application && app.current && visibleTo (some organization) app &&
      db.principals.any fun principal =>
        principal.id = app.id && principal.kind = .application && principal.status = .active

/-- The scopes under which a consent of another member's shows a membership. -/
def directoryScope (scope : String) : Bool :=
  matchesPattern "directory.%" scope || matchesPattern "organization.%" scope

/-- The scope shows the membership to an application with this consent. -/
def scopeShows (consent : Consent) (member : Membership) (scope : String) : Bool :=
  (matchesPattern "self.%" scope || directoryScope scope) &&
    (member.principal = consent.subject || directoryScope scope) &&
    (scope ≠ "directory.carbons.read" || member.principalKind = .carbon) &&
    (scope ≠ "directory.silicons.read" || member.principalKind = .silicon)

/-- The members that stand at the time, with their principals. -/
def standing (organization at_ : Nat) : List Membership :=
  db.directory.memberships.filter fun member =>
    member.organization = organization && memberAt rows at_ member &&
      db.principals.any fun principal =>
        principal.id = member.principal && principal.kind = member.principalKind &&
          subjectAt rows at_ principal

/-- A consent that is in force at the time for a selected member. -/
def selects (at_ : Nat) (consent : Consent) (selected : Membership) : Bool :=
  consent.subject = selected.principal && consent.subjectKind = selected.principalKind &&
    consent.selectedMemberships.contains selected.id && consentAt at_ consent

def memberActive (member : Membership) : Bool := member.active && activePrincipal db member.principal

/-- `list_organization_member_webhook_authorizations`. -/
def listOrganizationMemberWebhookAuthorizations (organization : Nat) (memberships : List Nat)
    (at_ : Nat) : List AuthorizationRow :=
  ((standing db rows organization at_).filter fun member => memberships.contains member.id).flatMap
    fun member => (standing db rows organization at_).flatMap fun selected =>
      (db.consents.rows.filter fun consent =>
        selects at_ consent selected && takesEvents db organization consent.application).flatMap
        fun consent => (consent.scopes.filter (scopeShows consent member)).flatMap fun scope =>
          (rows.approvals.filter fun approved => approved.application = consent.application &&
            approved.scope = scope && approvedAt at_ approved).map fun approved =>
              { application := consent.application
                membership := member.id
                scope := scope
                authorizedAfter := consent.active && approved.revokedAt.isNone &&
                  memberActive db member && memberActive db selected }

/-- `list_organization_webhook_scope_authorizations`. -/
def listOrganizationWebhookScopeAuthorizations (organization : Nat) (scope : String) (at_ : Nat) :
    List (Nat × Bool) :=
  (standing db rows organization at_).flatMap fun selected =>
    (db.consents.rows.filter fun consent =>
      consent.subject = selected.principal && consent.selectedMemberships.contains selected.id &&
        consentAt at_ consent && consent.scopes.contains scope &&
        rows.grants.any (fun granted => granted.consent = consent.id && granted.grantedAt ≤ at_) &&
        takesEvents db organization consent.application).flatMap fun consent =>
      (rows.approvals.filter fun approved => approved.application = consent.application &&
        approved.scope = scope && approved.approvedAt ≤ at_ && approvedAt at_ approved).map
          fun approved =>
            (consent.application, consent.active && approved.revokedAt.isNone &&
              memberActive db selected)

end Capture

/-- The events that go out as they are, and the scope they need. -/
def rawOrganizationScope (eventType : String) : Option String :=
  if eventType = "organization.created.v1" then some "self.organizations.read"
  else if eventType = "organization.tag_created.v1" then some "organization.tags.read"
  else if eventType ∈ ["organization.invitation.created.v1",
      "organization.invitation.accepted.v1", "organization.invitation.revoked.v1"] then
    some "organization.invitations.read"
  else if eventType ∈ ["organization.role_change.requested.v1",
      "organization.tag_change.requested.v1", "organization.approval.decided.v1"] then
    some "organization.governance.read"
  else none

def containsText (text part : String) : Bool :=
  text.toList.tails.any part.toList.isPrefixOf

def aggregateScope (eventType : String) : String :=
  if containsText eventType ".trust." then "organization.trust.read"
  else if containsText eventType ".tag_" then "organization.tags.read"
  else "self.membership.read"

/-- An event as its transaction records it; `named` are the memberships that its metadata
and its states name, or that have its tag. -/
structure Recording where
  id : Nat
  eventType : String
  organization : Nat
  createdAt : Nat
  named : List Nat
deriving DecidableEq

namespace Recording

variable (r : Recording)

def event : OutboxEvent where
  id := r.id
  eventType := r.eventType
  organization := some r.organization
  createdAt := r.createdAt

def affectedMembershipIds (db : Db) : List Nat :=
  if r.eventType ∈ ["organization.updated.v1", "organization.trust.default_updated.v1"] then
    (db.directory.memberships.filter fun member =>
      member.organization = r.organization && member.active).map Membership.id
  else r.named

def memberAuthorizations (db : Db) (rows : WebhookRows) : List AuthorizationRow :=
  listOrganizationMemberWebhookAuthorizations db rows r.organization (r.affectedMembershipIds db)
    r.createdAt

def scopeAuthorizations (db : Db) (rows : WebhookRows) (scope : String) : List Nat :=
  (listOrganizationWebhookScopeAuthorizations db rows r.organization scope r.createdAt).map Prod.fst

/-- The applications that get a projection of the event. -/
def capturedApplications (db : Db) (rows : WebhookRows) : List Nat :=
  if !capturedEventTypes.contains r.eventType || r.eventType = "carbon.updated.v1" then []
  else
    match rawOrganizationScope r.eventType with
    | some scope => (r.scopeAuthorizations db rows scope).dedup
    | none =>
        if r.eventType = "organization.updated.v1" then
          (((r.memberAuthorizations db rows).filter fun row =>
            row.scope = "self.organizations.read").map AuthorizationRow.application).dedup
        else
          ((r.memberAuthorizations db rows).map AuthorizationRow.application ++
            if matchesPattern "organization.%" (aggregateScope r.eventType) then
              r.scopeAuthorizations db rows (aggregateScope r.eventType)
            else []).dedup

end Recording

/-! ## Steps -/

/-- A projection with its text. -/
structure Projection (π : Type) extends WebhookEventProjection where
  payload : π

structure Delivery where
  event : Nat
  endpoint : Nat
  signingKey : Nat
deriving DecidableEq

structure State (π : Type) where
  db : Db
  rows : WebhookRows
  events : List OutboxEvent
  projections : List (Projection π)
  deliveries : List Delivery

/-- A transaction of the time `at_` leaves the rows `db` and `rows`; `accepts` are the
endpoints that are subscribed to an event. -/
inductive Event where
  | transaction (at_ : Nat) (db : Db) (rows : WebhookRows)
  | record (r : Recording) (db : Db) (rows : WebhookRows)
  | expand (now : Nat) (event : OutboxEvent) (accepts : List Nat)

variable {π : Type}

namespace State

variable (s : State π)

def webhookRows : WebhookRows :=
  { s.rows with projections := s.projections.map Projection.toWebhookEventProjection }

def recipients (now : Nat) (event : OutboxEvent) : List (Nat × Nat) :=
  listWorkerCapturedApplicationWebhookRecipients s.db s.webhookRows now event

/-- `INSERT … ON CONFLICT DO NOTHING`: one delivery for an event and an endpoint. -/
def insertRecipient (deliveries : List Delivery) (event : Nat) (recipient : Nat × Nat) :
    List Delivery :=
  if deliveries.any fun d => d.event = event && d.endpoint = recipient.1 then deliveries
  else deliveries ++ [⟨event, recipient.1, recipient.2⟩]

/-- `expand_application_recipients`. -/
def expand (now : Nat) (event : OutboxEvent) (accepts : List Nat) : State π :=
  { s with
    deliveries := ((s.recipients now event).filter fun recipient =>
      accepts.contains recipient.1).foldl (fun deliveries recipient =>
        insertRecipient deliveries event.id recipient) s.deliveries }

/-- `get_worker_application_webhook_event_projection`: the text of the projection. -/
def loadProjection (event : OutboxEvent) (application : Nat) : Option π :=
  if capturedEventTypes.contains event.eventType &&
      s.db.directory.applications.any (fun app => app.id = application &&
        (event.organization.isNone || visibleTo event.organization app)) &&
      event.organization.all (fun organization =>
        consentedAt s.db s.rows application organization event.createdAt) then
    (s.projections.find? fun projection =>
      projection.outboxEvent = event.id && projection.application = application).map
        Projection.payload
  else none

/-- `load_event_data`, for the application that the delivery's endpoint belongs to. -/
def loadEventData (delivery : Delivery) : Option π := do
  let endpoint ← Keyed.get WebhookEndpoint.id s.rows.endpoints delivery.endpoint
  let event ← Keyed.get OutboxEvent.id s.events delivery.event
  s.loadProjection event endpoint.application

end State

section Steps

variable (project : Db → WebhookRows → Recording → Nat → π)

def next (s : State π) : Event → State π
  | .transaction _ db rows => { s with db := db, rows := rows }
  | .record r db rows =>
      { s with
        db := db
        rows := rows
        events := s.events ++ [r.event]
        projections := s.projections ++ (r.capturedApplications db rows).map fun application =>
          { outboxEvent := r.id, application, payload := project db rows r application } }
  | .expand now event accepts => s.expand now event accepts

/-- The membership's row says that it was suspended or removed at the time. -/
def endsAt (rows : WebhookRows) (id at_ : Nat) : Bool :=
  rows.membershipEnds.any fun ended =>
    ended.row = id && (ended.endedAt = some at_ || ended.suspendedAt = some at_)

def endsKept (before after_ : WebhookRows) (id : Nat) : Bool :=
  before.membershipEnds.all fun ended => ended.row ≠ id || after_.membershipEnds.contains ended

/-- The consent is in force, or has been out of it since the same time as before. -/
def consentKept (old new : Consent) : Prop :=
  new.active = true ∨ old.active = false ∧ new.revokedAt = old.revokedAt

def memberKept (rows rows' : WebhookRows) (old new : Membership) : Prop :=
  new.active = true ∨ old.active = false ∧ endsKept rows rows' new.id = true

instance (old new : Consent) : Decidable (consentKept old new) :=
  inferInstanceAs (Decidable (_ ∨ _))

instance (rows rows' : WebhookRows) (old new : Membership) :
    Decidable (memberKept rows rows' old new) :=
  inferInstanceAs (Decidable (_ ∨ _))

/-- What a transaction of the time `at_` may do to consents, memberships and endpoints. -/
structure Changes (at_ : Nat) (db : Db) (rows : WebhookRows) (db' : Db) (rows' : WebhookRows) :
    Prop where
  consents : ∀ old ∈ db.consents, ∃ new ∈ db'.consents, new.id = old.id ∧
    new.application = old.application ∧ new.subject = old.subject ∧
      (consentKept old new ∨ new.revokedAt = some at_)
  memberships : ∀ old ∈ db.directory.memberships, ∃ new ∈ db'.directory.memberships,
    new.id = old.id ∧ new.organization = old.organization ∧ new.principal = old.principal ∧
      (memberKept rows rows' old new ∨ endsAt rows' new.id at_ = true)
  endpoints : ∀ old ∈ rows.endpoints, ∃ new ∈ rows'.endpoints,
    new.id = old.id ∧ new.application = old.application
  endpointKeys : (rows'.endpoints.map WebhookEndpoint.id).Nodup

instance (at_ : Nat) (db : Db) (rows : WebhookRows) (db' : Db) (rows' : WebhookRows) :
    Decidable (Changes at_ db rows db' rows') :=
  decidable_of_iff (_ ∧ _ ∧ _ ∧ _)
    ⟨fun ⟨consents, memberships, endpoints, keys⟩ => ⟨consents, memberships, endpoints, keys⟩,
      fun changes => ⟨changes.1, changes.2, changes.3, changes.4⟩⟩

def Valid (s : State π) : Event → Prop
  | .transaction at_ db rows => Changes at_ s.db s.rows db rows
  | .record r db rows => Changes r.createdAt s.db s.rows db rows ∧ ∀ e ∈ s.events, e.id ≠ r.id
  | .expand _ event _ => event ∈ s.events

instance (s : State π) : DecidablePred (Valid s)
  | .transaction _ _ _ => inferInstanceAs (Decidable (Changes _ _ _ _ _))
  | .record _ _ _ => inferInstanceAs (Decidable (_ ∧ _))
  | .expand _ _ _ => inferInstanceAs (Decidable (_ ∈ _))

def start (db : Db) (rows : WebhookRows) : State π where
  db := db
  rows := rows
  events := []
  projections := []
  deliveries := []

end Steps

end SiliconIam.Auth.WebhookAudience
