/-
# Auth.WebhookRecipients -- the applications an event is delivered to

An event is delivered to an application as of the time the event happened: a consent
revoked since, or a member removed since, still counts.  A captured event goes to the
applications it was captured for (`listWorkerCapturedApplicationWebhookRecipients`), any
other to those that pass `applicationWebhookHasEventScope` as well.

The columns that only these queries read are rows of their own here (`WebhookRows`); a
membership or a principal that is not active is looked up there for its end.
-/
import SiliconIam.Auth.AuthorityChecks

namespace SiliconIam.Auth.Authority

set_option autoImplicit false

/-! ## Rows -/

structure OutboxEvent where
  id : Nat
  eventType : String
  organization : Option Nat
  createdAt : Nat
deriving DecidableEq

structure WebhookEndpoint where
  id : Nat
  application : Nat
  active : Bool
deriving DecidableEq

inductive SigningKeyStatus where
  | active
  | retiring
  | retired
  | compromised
deriving DecidableEq

structure WebhookSigningKey where
  id : Nat
  endpoint : Nat
  application : Nat
  status : SigningKeyStatus
  retiresAt : Option Nat
  secretVersion : Nat
deriving DecidableEq

/-- `iam.application_webhook_event_projections`: the event was captured for the
application. -/
structure WebhookEventProjection where
  outboxEvent : Nat
  application : Nat
deriving DecidableEq

/-- When a membership was removed or a principal deleted, and when it was suspended. -/
structure RowEnd where
  row : Nat
  endedAt : Option Nat
  suspendedAt : Option Nat
deriving DecidableEq

/-- `iam.application_approved_scopes` with its times. -/
structure ScopeApproval where
  application : Nat
  scope : String
  approvedAt : Nat
  revokedAt : Option Nat
deriving DecidableEq

structure ConsentGranted where
  consent : Nat
  grantedAt : Nat
deriving DecidableEq

structure WebhookRows where
  endpoints : List WebhookEndpoint
  signingKeys : List WebhookSigningKey
  projections : List WebhookEventProjection
  membershipEnds : List RowEnd
  principalEnds : List RowEnd
  approvals : List ScopeApproval
  grants : List ConsentGranted

/-- A stamp that is set, at the time or later. -/
def stampedSince (at_ : Nat) (stamp : Option Nat) : Bool := stamp.any fun time => at_ ≤ time

def endedSince (ends : List RowEnd) (row at_ : Nat) : Bool :=
  ends.any fun ended =>
    ended.row = row && (stampedSince at_ ended.endedAt || stampedSince at_ ended.suspendedAt)

/-- Active, or no longer active only since. -/
def memberAt (rows : WebhookRows) (at_ : Nat) (member : Membership) : Bool :=
  member.active || endedSince rows.membershipEnds member.id at_

def subjectAt (rows : WebhookRows) (at_ : Nat) (subject : Principal) : Bool :=
  subject.status = .active || endedSince rows.principalEnds subject.id at_

def consentAt (at_ : Nat) (consent : Consent) : Bool :=
  consent.active || stampedSince at_ consent.revokedAt

/-! ## Captured events -/

/-- A private application only takes events of its own organization. -/
def visibleTo (organization : Option Nat) (application : Application) : Bool :=
  !application.isPrivate || organization = some application.organization

def capturedEventTypes : List String :=
  ["carbon.updated.v1", "organization.created.v1", "organization.tag_created.v1",
    "organization.invitation.created.v1", "organization.invitation.accepted.v1",
    "organization.invitation.revoked.v1", "organization.role_change.requested.v1",
    "organization.tag_change.requested.v1", "organization.approval.decided.v1",
    "organization.updated.v1", "organization.ownership_transferred.v1",
    "organization.tag_updated.v1", "organization.tag_archived.v1",
    "organization.trust.default_updated.v1", "organization.trust.rule_created.v1",
    "organization.trust.rule_updated.v1", "organization.trust.rule_archived.v1",
    "organization.membership.created.v1", "organization.membership.reactivated.v1",
    "organization.membership.removed.v1", "organization.membership.updated.v1",
    "organization.membership.authorization_updated.v1", "organization.admin.promoted.v1",
    "organization.admin.demoted.v1", "organization.silicon.created.v1",
    "organization.silicon.updated.v1", "organization.silicon.removed.v1",
    "organization.silicon.credential_rotated.v1"]

/-- The newest active key of an endpoint, or else its newest retiring one. -/
def currentSigningKey (rows : WebhookRows) (now application endpoint : Nat) :
    Option WebhookSigningKey :=
  let usable := rows.signingKeys.filter fun key =>
    key.application = application && key.endpoint = endpoint &&
      (key.status = .active || key.status = .retiring) &&
      (key.retiresAt.isNone || key.retiresAt.any fun time => now < time)
  match (usable.filter fun key => key.status = .active).maxOn? WebhookSigningKey.secretVersion with
  | some key => some key
  | none => usable.maxOn? WebhookSigningKey.secretVersion

/-- A consent to the application, of the event's time, that selects a membership in the
event's organization which its subject then had. -/
def consentedAt (db : Db) (rows : WebhookRows) (application organization at_ : Nat) : Bool :=
  db.consents.any fun consent =>
    consent.application = application && consentAt at_ consent &&
      db.directory.memberships.any fun member =>
        consent.selectedMemberships.contains member.id && member.principal = consent.subject &&
          member.organization = organization && memberAt rows at_ member

def capturedFor (db : Db) (rows : WebhookRows) (event : OutboxEvent) (application : Application) :
    Bool :=
  application.current &&
    db.principals.any (fun principal =>
      principal.id = application.id && principal.kind = .application &&
        principal.status = .active) &&
    (match event.organization with
      | none => true
      | some organization =>
          visibleTo (some organization) application &&
            consentedAt db rows application.id organization event.createdAt)

/-- The endpoints and signing keys of a captured event, in the order of the endpoints. -/
def listWorkerCapturedApplicationWebhookRecipients (db : Db) (rows : WebhookRows) (now : Nat)
    (event : OutboxEvent) : List (Nat × Nat) :=
  if capturedEventTypes.contains event.eventType then
    (rows.projections.flatMap fun projection =>
      (db.directory.applications.filter fun application =>
        projection.outboxEvent = event.id && application.id = projection.application &&
          capturedFor db rows event application).flatMap fun application =>
        rows.endpoints.filterMap fun endpoint =>
          if endpoint.application = application.id && endpoint.active then
            (currentSigningKey rows now application.id endpoint.id).map fun key =>
              (endpoint.id, key.id)
          else none).mergeSort fun a b => a.1 ≤ b.1
  else []

theorem mem_capturedRecipients {db : Db} {rows : WebhookRows} {now : Nat} {event : OutboxEvent}
    {recipient : Nat × Nat} :
    recipient ∈ listWorkerCapturedApplicationWebhookRecipients db rows now event ↔
      capturedEventTypes.contains event.eventType = true ∧
        ∃ projection ∈ rows.projections, projection.outboxEvent = event.id ∧
          ∃ application ∈ db.directory.applications, application.id = projection.application ∧
            capturedFor db rows event application = true ∧
              ∃ endpoint ∈ rows.endpoints, endpoint.application = application.id ∧
                endpoint.active = true ∧ ∃ key,
                  currentSigningKey rows now application.id endpoint.id = some key ∧
                    (endpoint.id, key.id) = recipient := by
  unfold listWorkerCapturedApplicationWebhookRecipients
  split
  · rename_i known
    simp only [known, true_and, List.mem_mergeSort, List.mem_flatMap, List.mem_filter,
      List.mem_filterMap, Bool.and_eq_true, decide_eq_true_eq]
    constructor
    · rintro ⟨projection, held, application, ⟨mem, ⟨own, same⟩, holds⟩, endpoint, endpointMem,
        chosen⟩
      split at chosen
      · rename_i usable
        obtain ⟨key, found, rfl⟩ := Option.map_eq_some_iff.mp chosen
        exact ⟨projection, held, own, application, mem, same, holds, endpoint, endpointMem, usable.1,
          usable.2, key, found, rfl⟩
      · cases chosen
    · rintro ⟨projection, held, own, application, mem, same, holds, endpoint, endpointMem, belongs,
        active, key, found, rfl⟩
      refine ⟨projection, held, application, ⟨mem, ⟨own, same⟩, holds⟩, endpoint, endpointMem, ?_⟩
      rw [if_pos ⟨belongs, active⟩, found]
      rfl
  · rename_i unknown
    simp only [List.not_mem_nil, false_iff, not_and]
    exact fun known => absurd known unknown

/-! ## Event scopes -/

/-- SQL `LIKE` without an escape character. -/
def like : List Char → List Char → Bool
  | [], text => text.isEmpty
  | '%' :: pattern, text => text.tails.any (like pattern)
  | '_' :: pattern, text =>
      match text with
      | [] => false
      | _ :: rest => like pattern rest
  | c :: pattern, text =>
      match text with
      | [] => false
      | d :: rest => c == d && like pattern rest

def matchesPattern (pattern text : String) : Bool := like pattern.toList text.toList

def applicationWebhookEventScope (event : String) : Option String :=
  if matchesPattern "organization.invitation.%" event then some "organization.invitations.read"
  else if matchesPattern "organization.role_change.%" event ||
      matchesPattern "organization.tag_change.%" event ||
      matchesPattern "organization.approval.%" event then
    some "organization.governance.read"
  else if matchesPattern "organization.tag_%" event then some "organization.tags.read"
  else if matchesPattern "organization.trust.%" event then some "organization.trust.read"
  else if event = "organization.created.v1" || event = "organization.updated.v1" then
    some "self.organizations.read"
  else none

/-- Logouts and events about applications need no scope. -/
def unscopedEvent (event : String) : Bool :=
  event = "session.logout" || matchesPattern "application.%" event

def scopedConsentAt (db : Db) (rows : WebhookRows) (application organization : Nat) (scope : String)
    (at_ : Nat) : Bool :=
  db.consents.any fun consent =>
    consent.application = application && consent.scopes.contains scope &&
      consentAt at_ consent &&
      rows.grants.any (fun granted => granted.consent = consent.id && granted.grantedAt ≤ at_) &&
      rows.approvals.any (fun approved =>
        approved.application = application && approved.scope = scope &&
          approved.approvedAt ≤ at_ &&
          (approved.revokedAt.isNone || stampedSince at_ approved.revokedAt)) &&
      db.directory.memberships.any fun selected =>
        consent.selectedMemberships.contains selected.id && selected.principal = consent.subject &&
          selected.organization = organization && memberAt rows at_ selected &&
          db.principals.any fun subject =>
            subject.id = selected.principal && subject.kind = selected.principalKind &&
              subjectAt rows at_ subject

def applicationWebhookHasEventScope (db : Db) (rows : WebhookRows) (endpointId : Nat)
    (organization : Option Nat) (event : String) (at_ : Nat) : Bool :=
  unscopedEvent event ||
    match organization, applicationWebhookEventScope event with
    | some organization, some scope =>
        rows.endpoints.any fun endpoint =>
          endpoint.id = endpointId &&
            db.directory.applications.any (fun application =>
              application.id = endpoint.application &&
                visibleTo (some organization) application) &&
            scopedConsentAt db rows endpoint.application organization scope at_
    | _, _ => false

end SiliconIam.Auth.Authority
