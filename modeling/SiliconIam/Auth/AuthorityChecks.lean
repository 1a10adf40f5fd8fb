/-
# Auth.AuthorityChecks -- the authority functions of the database

The private functions the acceptance queries call: which applications and
consents are current, which memberships and external scopes an access token
reaches, and the locking lookups of client and subject authority.  Each keeps the
conjuncts of its own query, because they do not all check the same things:
`applicationTokenAllowsExternalScope` leaves the session's epoch out, and
`applicationPrivateTokenIsCurrent` the subject kind.

`CurrentSession` is what the session conjuncts of the complete queries amount
to; the lemmas at the end read it off each of them.
-/
import SiliconIam.Auth.AuthorityRows

namespace SiliconIam.Auth.Authority

open SiliconIam.Theory

set_option autoImplicit false

/-- The transaction-local settings that row access and the functions below read. -/
structure DatabaseContext where
  principal : Option Nat
  organization : Option Nat
  application : Option Nat
deriving DecidableEq

/-- The client of a request, as its own authentication resolved it. -/
structure ApplicationIdentity where
  application : Nat
  appId : String
  organization : Nat
  authEpoch : Nat
deriving DecidableEq

/-! ## Applications and consents -/

def restrictedIamScopes : List String :=
  ["organization.silicons.credentials.rotate", "organization.sso.read", "organization.sso.manage",
    "organization.invitations.create", "organization.silicons.create",
    "organization.member_tags.update", "organization.job_roles.update",
    "organization.silicon_access.update", "organization.trust.update",
    "organization.admins.promote", "organization.capabilities.update",
    "organization.change_requests.decide", "organizations.join"]

def applicationIamScopeAllowed (db : Db) (app : Nat) (scope : String) : Bool :=
  if restrictedIamScopes.contains scope then
    db.directory.applications.any fun application =>
      application.id = app &&
        db.directory.organizations.any fun org =>
          org.id = application.organization && org.active && org.trustedOrg &&
            org.allowedRestrictedIamScopes.contains scope
  else true

def activeOrganization (db : Db) (id : Nat) : Bool :=
  db.directory.organizations.any fun org => org.id = id && org.active

def applicationAllowsSubject (db : Db) (app subject : Nat) (org : Option Nat) : Bool :=
  db.directory.applications.any fun application =>
    application.id = app && application.current &&
      activeOrganization db application.organization &&
      (!application.isPrivate ||
        ((org.isNone || org = some application.organization) &&
          db.directory.memberships.any fun member =>
            member.organization = application.organization && member.principal = subject &&
              member.active &&
              db.principals.any fun principal =>
                principal.id = member.principal && principal.status = .active))

def applicationPrivateConsentIsCurrent (db : Db) (app consentId : Nat) : Bool :=
  db.directory.applications.any fun application =>
    application.id = app &&
      (!application.isPrivate ||
        db.consents.any fun consent =>
          consent.id = consentId && consent.application = application.id && consent.active &&
            consent.selectedMemberships.length = 1 &&
            (consent.organization.isNone ||
              consent.organization = some application.organization) &&
            db.directory.memberships.any fun member =>
              consent.selectedMemberships.contains member.id &&
                member.principal = consent.subject && member.principalKind = consent.subjectKind &&
                member.organization = application.organization && member.active &&
                activeOrganization db member.organization &&
                (consent.membership.isNone || consent.membership = some member.id))

/-- A consent of the token's client, subject, session and organization binding. -/
def Consent.binds (token : AccessToken) (consent : Consent) : Bool :=
  some consent.application = token.client && consent.subject = token.subject &&
    consent.parentSession = token.session && consent.organization = token.organization &&
    consent.membership = token.membership && consent.active

def Consent.covers (token : AccessToken) (consent : Consent) : Bool :=
  consent.binds token && consent.subjectKind = token.subjectKind

def applicationPrivateTokenIsCurrent (db : Db) (tokenId : Nat) : Bool :=
  db.access.any fun token =>
    token.id = tokenId &&
      match token.client with
      | none => true
      | some client =>
          db.consents.any fun consent =>
            consent.binds token && applicationPrivateConsentIsCurrent db client consent.id

def lockApplicationPrivateConsent (db : Db) (app consentId : Nat) : Bool :=
  match db.directory.applications.find? fun application => application.id = app with
  | none => false
  | some application =>
      !application.isPrivate || applicationPrivateConsentIsCurrent db app consentId

def lockCurrentApplicationClient (db : Db) (client : ApplicationIdentity) : Bool :=
  db.directory.applications.any fun application =>
    application.id = client.application && application.current &&
      db.principals.any fun principal =>
        principal.id = application.id && principal.kind = .application &&
          principal.status = .active && principal.authEpoch = client.authEpoch

def lockedApplicationApprovedScopes (db : Db) (app : Nat) : List String :=
  match db.directory.applications.find? fun application => application.id = app with
  | none => []
  | some application => application.approvedScopes

/-! ## What an access token reaches -/

def applicationTokenAllowsMembership (db : Db) (context : DatabaseContext) (now : Nat)
    (tokenId membershipId : Nat) : Bool :=
  db.access.any fun token =>
    token.id = tokenId && token.tokenClass = .applicationAccess && token.unexpired now &&
      db.consents.any fun consent =>
        consent.covers token && consent.selectedMemberships.contains membershipId &&
          db.directory.memberships.any fun membership =>
            membership.id = membershipId && membership.principal = token.subject &&
              membership.principalKind = token.subjectKind && membership.active &&
              activeOrganization db membership.organization &&
              (token.organization.isNone ||
                (token.organization = some membership.organization &&
                  token.membership = some membership.id &&
                  token.membershipAuthzEpoch = some membership.authzEpoch)) &&
              db.principals.any fun subject =>
                subject.id = token.subject && subject.status = .active &&
                  subject.authEpoch = token.subjectAuthEpoch &&
                  db.sessions.any fun session =>
                    session.id = token.session && session.live now &&
                      session.subject = subject.id && session.authEpoch = subject.authEpoch &&
                      db.directory.applications.any fun application =>
                        some application.id = token.client &&
                          some application.id = token.audienceApplication &&
                          application.appId = token.audience && application.current &&
                          applicationAllowsSubject db application.id token.subject
                            (some membership.organization) &&
                          applicationPrivateConsentIsCurrent db application.id consent.id &&
                          (context.principal = some subject.id ||
                            (context.principal = some application.id &&
                              context.application = some application.id)) &&
                          db.principals.any fun client =>
                            client.id = application.id && client.status = .active &&
                              some client.authEpoch = token.clientAuthEpoch

/-- The scope an endpoint of an audience needs. -/
def oboScope (audience : Application) (endpointId : String) : String :=
  "obo:" ++ audience.appId ++ ":" ++ endpointId

def applicationTokenAllowsExternalScope (db : Db) (context : DatabaseContext) (now : Nat)
    (tokenId audienceId : Nat) (endpointId : String) : Bool :=
  db.access.any fun token =>
    token.id = tokenId && token.tokenClass = .applicationAccess && token.unexpired now &&
      db.directory.applications.any fun issuer =>
        some issuer.id = token.client && some issuer.id = token.audienceApplication &&
          issuer.appId = token.audience && issuer.current &&
          (context.principal = some token.subject ||
            (context.principal = some issuer.id && context.application = some issuer.id)) &&
          db.directory.applications.any fun audience =>
            audience.id = audienceId && audience.current &&
              token.scopes.contains (oboScope audience endpointId) &&
              issuer.approvedScopes.contains (oboScope audience endpointId) &&
              applicationAllowsSubject db audience.id token.subject context.organization &&
              db.directory.endpoints.any (fun endpoint =>
                endpoint.application = audience.id && endpoint.endpointId = endpointId &&
                  endpoint.active) &&
              db.consents.any fun consent =>
                consent.application = issuer.id && consent.subject = token.subject &&
                  consent.parentSession = token.session && consent.active &&
                  consent.scopes.contains (oboScope audience endpointId) &&
                  applicationPrivateConsentIsCurrent db issuer.id consent.id &&
                  db.sessions.any (fun session =>
                    session.id = token.session && session.live now) &&
                  db.principals.any fun subject =>
                    subject.id = token.subject && subject.status = .active &&
                      subject.authEpoch = token.subjectAuthEpoch

/-! ## Subject authority -/

/-- The session conjuncts of the complete authority queries: the session of the
subject, issued at the subject's current epoch and live. -/
def currentSession (db : Db) (now : Nat) (subject : Principal) (session : Nat) : Option Session :=
  db.sessions.find? fun row =>
    row.id = session && row.subject = subject.id && row.subjectKind = subject.kind &&
      row.authEpoch = subject.authEpoch && row.live now

structure SubjectAuthority where
  subjectAuthEpoch : Nat
  membershipAuthzEpoch : Option Nat
  orgId : Option String
  subjectPublicId : String
  sessionIdleExpiresAt : Nat
  sessionAbsoluteExpiresAt : Nat
deriving DecidableEq

/-- An active membership of the subject in an active organization. -/
def activeMembership (db : Db) (subject : Principal) (organization membership : Nat) :
    Option (Organization × Membership) := do
  let org ← db.directory.organizations.find? fun org => org.id = organization && org.active
  let member ← db.directory.memberships.find? fun member =>
    member.organization = org.id && member.id = membership && member.principal = subject.id &&
      member.principalKind = subject.kind && member.active
  pure (org, member)

def currentConsent (db : Db) (application consentId session : Nat) (subject : Principal)
    (organization membership : Option Nat) : Option Consent :=
  db.consents.find? fun consent =>
    consent.id = consentId && consent.application = application &&
      consent.subject = subject.id && consent.subjectKind = subject.kind &&
      consent.organization = organization && consent.membership = membership &&
      consent.parentSession = session && consent.active

/-- The arguments of `lock_current_application_oauth_subject_authority` after the
application and the consent. -/
structure SubjectBinding where
  session : Nat
  subject : Nat
  subjectKind : PrincipalKind
  organization : Option Nat
  membership : Option Nat
deriving DecidableEq

def activeSubject (db : Db) (binding : SubjectBinding) : Option Principal :=
  db.principals.find? fun principal =>
    principal.id = binding.subject && principal.kind = binding.subjectKind &&
      principal.status = .active

def liveCarbon (db : Db) (id : Nat) : Option Carbon :=
  db.directory.carbons.find? fun carbon => carbon.id = id && carbon.deletedAt.isNone

def lockCurrentApplicationOauthSubjectAuthority (db : Db) (now : Nat) (application consentId : Nat)
    (binding : SubjectBinding) : Option SubjectAuthority :=
  if binding.organization.isNone != binding.membership.isNone then none
  else if !lockApplicationPrivateConsent db application consentId then none
  else match binding.subjectKind, binding.organization, binding.membership with
    | .carbon, some organization, some membership => do
        let principal ← activeSubject db binding
        let carbon ← liveCarbon db principal.id
        let session ← currentSession db now principal binding.session
        let (org, member) ← activeMembership db principal organization membership
        let _ ← currentConsent db application consentId session.id principal (some org.id)
          (some member.id)
        pure
          { subjectAuthEpoch := principal.authEpoch
            membershipAuthzEpoch := some member.authzEpoch
            orgId := some org.orgId
            subjectPublicId := carbon.carbonId
            sessionIdleExpiresAt := session.idleExpiresAt
            sessionAbsoluteExpiresAt := session.absoluteExpiresAt }
    | .carbon, _, _ => do
        let principal ← activeSubject db binding
        let carbon ← liveCarbon db principal.id
        let session ← currentSession db now principal binding.session
        let _ ← currentConsent db application consentId session.id principal none none
        pure
          { subjectAuthEpoch := principal.authEpoch
            membershipAuthzEpoch := none
            orgId := none
            subjectPublicId := carbon.carbonId
            sessionIdleExpiresAt := session.idleExpiresAt
            sessionAbsoluteExpiresAt := session.absoluteExpiresAt }
    | .silicon, organization, membership => do
        let principal ← activeSubject db binding
        let silicon ← db.directory.silicons.find? fun silicon =>
          silicon.id = principal.id &&
            (organization.isNone || organization = some silicon.organization) &&
            (membership.isNone || membership = some silicon.membership) &&
            silicon.provisioned && silicon.deletedAt.isNone
        let session ← currentSession db now principal binding.session
        let (org, member) ← activeMembership db principal silicon.organization silicon.membership
        let _ ← currentConsent db application consentId session.id principal organization membership
        pure
          { subjectAuthEpoch := principal.authEpoch
            membershipAuthzEpoch := membership.map fun _ => member.authzEpoch
            orgId := organization.map fun _ => org.orgId
            subjectPublicId := silicon.globalSiliconId
            sessionIdleExpiresAt := session.idleExpiresAt
            sessionAbsoluteExpiresAt := session.absoluteExpiresAt }
    | .application, _, _ => none

/-! ## What the checks establish -/

/-- The session is live and was issued at its subject's current epoch. -/
def CurrentSession (db : Db) (now : Nat) (session : Nat) : Prop :=
  ∃ row ∈ db.sessions, row.id = session ∧ row.live now = true ∧
    ∃ subject ∈ db.principals, subject.id = row.subject ∧ subject.authEpoch = row.authEpoch

variable {subject : Principal}

theorem currentSession_spec {db : Db} {now session : Nat} {row : Session}
    (found : currentSession db now subject session = some row) :
    row ∈ db.sessions ∧ row.id = session ∧ row.subject = subject.id ∧
      row.authEpoch = subject.authEpoch ∧ row.live now = true := by
  obtain ⟨mem, holds⟩ := Table.find?_spec found
  simp only [Bool.and_eq_true, decide_eq_true_eq] at holds
  obtain ⟨⟨⟨⟨id, subject⟩, -⟩, epoch⟩, live⟩ := holds
  exact ⟨mem, id, subject, epoch, live⟩

theorem CurrentSession.of_currentSession {db : Db} {now session : Nat}
    {row : Session} (mem : subject ∈ db.principals)
    (found : currentSession db now subject session = some row) : CurrentSession db now session := by
  obtain ⟨held, id, own, epoch, live⟩ := currentSession_spec found
  exact ⟨row, held, id, live, subject, mem, own.symm, epoch.symm⟩

/-- What subject authority stands on. -/
structure AuthorityRests (db : Db) (now application consentId : Nat) (binding : SubjectBinding)
    (authority : SubjectAuthority) (subject : Principal) (session : Session) (consent : Consent) :
    Prop where
  subjectFound : activeSubject db binding = some subject
  notApplication : binding.subjectKind ≠ .application
  sessionFound : currentSession db now subject binding.session = some session
  epoch : authority.subjectAuthEpoch = subject.authEpoch
  consentFound : currentConsent db application consentId session.id subject binding.organization
    binding.membership = some consent
  privateConsent : lockApplicationPrivateConsent db application consentId = true

theorem activeSubject_spec {db : Db} {binding : SubjectBinding}
    (found : activeSubject db binding = some subject) :
    subject ∈ db.principals ∧ subject.id = binding.subject ∧ subject.kind = binding.subjectKind ∧
      subject.status = .active := by
  obtain ⟨mem, holds⟩ := Table.find?_spec found
  simp only [Bool.and_eq_true, decide_eq_true_eq] at holds
  exact ⟨mem, holds.1.1, holds.1.2, holds.2⟩

theorem activeMembership_spec {db : Db} {organization membership : Nat}
    {org : Organization} {member : Membership}
    (found : activeMembership db subject organization membership = some (org, member)) :
    org ∈ db.directory.organizations ∧ org.id = organization ∧ org.active = true ∧
      member ∈ db.directory.memberships ∧ member.organization = org.id ∧
      member.id = membership ∧ member.principal = subject.id ∧
      member.principalKind = subject.kind ∧ member.active = true := by
  simp only [activeMembership, Option.bind_eq_bind, Option.bind_eq_some_iff] at found
  obtain ⟨org, orgFound, member, memberFound, same⟩ := found
  obtain ⟨rfl, rfl⟩ := Prod.mk.inj (Option.some.inj same)
  have orgHolds := List.find?_some orgFound
  have memberHolds := List.find?_some memberFound
  simp only [Bool.and_eq_true, decide_eq_true_eq] at orgHolds memberHolds
  obtain ⟨⟨⟨⟨own, id⟩, principal⟩, kind⟩, active⟩ := memberHolds
  exact ⟨List.mem_of_find?_eq_some orgFound, orgHolds.1, orgHolds.2,
    List.mem_of_find?_eq_some memberFound, own, id, principal, kind, active⟩

theorem currentConsent_spec {db : Db} {application consentId session : Nat}
    {organization membership : Option Nat} {consent : Consent}
    (found : currentConsent db application consentId session subject organization membership =
      some consent) :
    consent ∈ db.consents ∧ consent.id = consentId ∧ consent.application = application ∧
      consent.subject = subject.id ∧ consent.subjectKind = subject.kind ∧
      consent.organization = organization ∧ consent.membership = membership ∧
      consent.parentSession = session ∧ consent.active = true := by
  obtain ⟨mem, holds⟩ := Table.find?_spec found
  simp only [Bool.and_eq_true, decide_eq_true_eq] at holds
  obtain ⟨⟨⟨⟨⟨⟨⟨id, app⟩, own⟩, kind⟩, org⟩, member⟩, parent⟩, active⟩ := holds
  exact ⟨mem, id, app, own, kind, org, member, parent, active⟩

theorem authorityRests {db : Db} {now application consentId : Nat} {binding : SubjectBinding}
    {authority : SubjectAuthority}
    (found : lockCurrentApplicationOauthSubjectAuthority db now application consentId binding =
      some authority) :
    ∃ subject session consent,
      AuthorityRests db now application consentId binding authority subject session consent := by
  unfold lockCurrentApplicationOauthSubjectAuthority at found
  obtain ⟨paired, found⟩ := Option.ite_none_left_eq_some.mp found
  obtain ⟨locked, found⟩ := Option.ite_none_left_eq_some.mp found
  replace locked : lockApplicationPrivateConsent db application consentId = true := by
    simpa using locked
  split at found
  all_goals simp only [Option.bind_eq_bind, Option.bind_eq_some_iff, reduceCtorEq] at found
  · -- a Carbon bound to an organization
    rename_i organization membership kind named boundTo
    obtain ⟨subject, own, carbon, -, row, current, ⟨org, member⟩, joined, consent, granted,
      same⟩ := found
    obtain ⟨-, orgId, -, -, -, memberId, -⟩ := activeMembership_spec joined
    rw [orgId, memberId, ← named, ← boundTo] at granted
    refine ⟨subject, row, consent, own, ?_, current, ?_, granted, locked⟩
    · simp [kind]
    · rw [← Option.some.inj same]
  · -- a Carbon bound to none
    rename_i kind unnamed
    obtain ⟨subject, own, carbon, -, row, current, consent, granted, same⟩ := found
    have unbound : binding.organization = none ∧ binding.membership = none := by
      cases organization : binding.organization with
      | none => simpa [organization] using paired
      | some org =>
          cases membership : binding.membership with
          | none => simp [organization, membership] at paired
          | some member => exact (unnamed org member organization membership).elim
    refine ⟨subject, row, consent, own, ?_, current, ?_, ?_, locked⟩
    · simp [kind]
    · rw [← Option.some.inj same]
    · rw [unbound.1, unbound.2]
      exact granted
  · rename_i kind
    obtain ⟨subject, own, silicon, -, row, current, ⟨org, member⟩, joined, consent, granted,
      same⟩ := found
    refine ⟨subject, row, consent, own, ?_, current, ?_, granted, locked⟩
    · simp [kind]
    · rw [← Option.some.inj same]

/-- Subject authority is authority of a current session. -/
theorem CurrentSession.of_subjectAuthority {db : Db} {now application consentId : Nat}
    {binding : SubjectBinding} {authority : SubjectAuthority}
    (found : lockCurrentApplicationOauthSubjectAuthority db now application consentId binding =
      some authority) : CurrentSession db now binding.session := by
  obtain ⟨subject, session, consent, rests⟩ := authorityRests found
  exact .of_currentSession (activeSubject_spec rests.subjectFound).1 rests.sessionFound

/-- A membership is only reached through a current session of the token. -/
theorem CurrentSession.of_allowsMembership {db : Db} {context : DatabaseContext}
    {now tokenId membershipId : Nat}
    (allowed : applicationTokenAllowsMembership db context now tokenId membershipId = true) :
    ∃ token ∈ db.access, token.id = tokenId ∧ CurrentSession db now token.session := by
  obtain ⟨token, mem, holds⟩ := Table.any_spec allowed
  simp only [Bool.and_eq_true, decide_eq_true_eq] at holds
  obtain ⟨⟨⟨id, -⟩, -⟩, consents⟩ := holds
  obtain ⟨consent, -, holds⟩ := Table.any_spec consents
  simp only [Bool.and_eq_true] at holds
  obtain ⟨-, members⟩ := holds
  obtain ⟨member, -, holds⟩ := List.any_eq_true.mp members
  simp only [Bool.and_eq_true] at holds
  obtain ⟨-, subjects⟩ := holds
  obtain ⟨subject, subjectMem, holds⟩ := Table.any_spec subjects
  simp only [Bool.and_eq_true] at holds
  obtain ⟨-, sessions⟩ := holds
  obtain ⟨row, rowMem, holds⟩ := Table.any_spec sessions
  simp only [Bool.and_eq_true, decide_eq_true_eq] at holds
  obtain ⟨⟨⟨⟨own, live⟩, subjectId⟩, epoch⟩, -⟩ := holds
  exact ⟨token, mem, id, row, rowMem, own, live, subject, subjectMem, subjectId.symm, epoch.symm⟩

end SiliconIam.Auth.Authority
