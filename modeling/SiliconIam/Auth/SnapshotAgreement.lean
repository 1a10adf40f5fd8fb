/-
# Auth.SnapshotAgreement -- the listed and the selected snapshots of one token

A token that is bound to no organization is introspected with `X-Org-ID` or without.
Both forms reach the same organizations (`Reach`): they stand on the same chain of
rows (`TokenRows`) and the same memberships of the consent.  They cut the token's scopes
differently, though.  A listed snapshot keeps the scopes that are approved and still
consented to, a selected one those that are approved; and only a selected one leaves
out the identity when its scope is gone.  So the two agree, and show nothing that is
no longer granted, exactly when the consent still covers what is approved and the
identity is among it (`snapshots_agree_iff`).

A proof's snapshot is cut by the consent as well (`verified_governed`).
-/
import SiliconIam.Auth.Disclosure
import SiliconIam.Auth.ProofUse
import SiliconIam.Theory.Keyed

namespace SiliconIam.Auth.Authority

open SiliconIam.Theory

set_option autoImplicit false

/-- The keys of the directory's tables. -/
structure DirectoryKeys (directory : Directory) : Prop where
  applications : ∀ a ∈ directory.applications, ∀ b ∈ directory.applications, a.id = b.id → a = b
  organizations : ∀ a ∈ directory.organizations, ∀ b ∈ directory.organizations, a.id = b.id → a = b
  orgIds : ∀ a ∈ directory.organizations, ∀ b ∈ directory.organizations, a.orgId = b.orgId → a = b
  memberships : ∀ a ∈ directory.memberships, ∀ b ∈ directory.memberships, a.id = b.id → a = b
  members : ∀ a ∈ directory.memberships, ∀ b ∈ directory.memberships,
    a.organization = b.organization → a.principal = b.principal → a = b

section Agreement

variable {now : Nat} {db : Db} {client : ApplicationIdentity} {supplied : List Nat}
  {access : AccessContext}

/-! ## The chain of rows -/

/-- The client presents a live token of its own that is bound to no organization. -/
structure Presents (db : Db) (now : Nat) (client : ApplicationIdentity) (supplied : List Nat)
    (access : AccessContext) : Prop where
  authenticated : authenticate db now .applicationAccess supplied = some access
  locked : lockCurrentApplicationClient db client = true
  current : (accessIntrospectionMetadata db now client access).isSome = true
  unbound : access.organization = none ∧ access.membership = none

/-- The rows behind a live token that is bound to no organization. -/
structure TokenRows (db : Db) (now : Nat) (client : ApplicationIdentity) (access : AccessContext)
    (token : AccessToken) (subject : Principal) (session : Session) (application : Application)
    (principal : Principal) : Prop where
  held : token ∈ db.access
  own : token.id = access.token
  tokenClass : token.tokenClass = .applicationAccess
  clientId : token.client = some client.application
  audienceApplication : token.audienceApplication = some client.application
  audience : token.audience = client.appId
  subjectId : token.subject = access.subject.id
  subjectKind : token.subjectKind = access.subject.kind
  organization : token.organization = none
  membership : token.membership = none
  unexpired : token.unexpired now = true
  applicationHeld : application ∈ db.directory.applications
  applicationId : application.id = client.application
  appId : application.appId = client.appId
  applicationCurrent : application.current = true
  principalHeld : principal ∈ db.principals
  principalId : principal.id = client.application
  principalKind : principal.kind = .application
  principalActive : principal.status = .active
  principalEpoch : token.clientAuthEpoch = some principal.authEpoch
  clientEpoch : principal.authEpoch = client.authEpoch
  subjectFound : (db.principals.find? fun subject =>
    subject.id = token.subject && subject.kind = token.subjectKind && subject.status = .active &&
      subject.authEpoch = token.subjectAuthEpoch) = some subject
  sessionFound : currentSession db now subject token.session = some session

theorem Presents.rows (presents : Presents db now client supplied access) :
    ∃ token subject session application principal,
      TokenRows db now client access token subject session application principal := by
  obtain ⟨metadata, found⟩ := Option.isSome_iff_exists.mp presents.current
  simp only [accessIntrospectionMetadata, Option.bind_eq_bind, Option.bind_eq_some_iff] at found
  obtain ⟨token, tokenFound, application, applicationFound, principal, principalFound, subject,
    subjectFound, session, sessionFound, -⟩ := found
  obtain ⟨held, holds⟩ := Table.find?_spec tokenFound
  simp only [Bool.and_eq_true, decide_eq_true_eq] at holds
  obtain ⟨⟨⟨⟨⟨⟨⟨⟨⟨⟨own, tokenClass⟩, clientId⟩, audienceApplication⟩, audience⟩, subjectId⟩,
    subjectKind⟩, -⟩, organization⟩, membership⟩, unexpired⟩ := holds
  have applicationHeld := List.mem_of_find?_eq_some applicationFound
  have suits := List.find?_some applicationFound
  simp only [Bool.and_eq_true, decide_eq_true_eq] at suits
  obtain ⟨⟨⟨applicationClient, -⟩, appId⟩, applicationCurrent⟩ := suits
  have applicationId := Option.some.inj (applicationClient.trans clientId)
  obtain ⟨principalHeld, principalHolds⟩ := Table.find?_spec principalFound
  simp only [Bool.and_eq_true, decide_eq_true_eq] at principalHolds
  obtain ⟨⟨⟨principalId, principalKind⟩, principalActive⟩, principalEpoch⟩ := principalHolds
  have locked := presents.locked
  simp only [lockCurrentApplicationClient, List.any_eq_true, Table.any_eq_true, Bool.and_eq_true,
    decide_eq_true_eq] at locked
  obtain ⟨other, -, ⟨otherId, -⟩, row, rowHeld, ⟨⟨rowId, -⟩, -⟩, rowEpoch⟩ := locked
  have same : row = principal := by
    refine Table.unique rowHeld principalHeld ?_
    rw [rowId, otherId, principalId, applicationId]
  refine ⟨token, subject, session, application, principal, ?_⟩
  exact
    { held, own, tokenClass, clientId, audienceApplication, audience, subjectId
      subjectKind, unexpired, applicationHeld, applicationId, applicationCurrent, principalHeld
      principalKind, principalActive, subjectFound, sessionFound
      organization := organization.trans presents.unbound.1
      membership := membership.trans presents.unbound.2
      appId := appId.trans audience
      principalId := principalId.trans applicationId
      principalEpoch := principalEpoch.symm
      clientEpoch := same ▸ rowEpoch }

/-! ## The organizations it reaches -/

variable {token : AccessToken} {subject : Principal} {session : Session} {application : Application}
  {principal : Principal}

/-- The settings of an introspection that names no organization. -/
def listingContext (client : ApplicationIdentity) (access : AccessContext) : DatabaseContext where
  principal := some access.subject.id
  organization := none
  application := some client.application

/-- The token reaches the organization through the membership. -/
structure Reach (db : Db) (now : Nat) (client : ApplicationIdentity) (access : AccessContext)
    (subject : Principal) (org : Organization) (member : Membership) (publicId : String) : Prop where
  orgHeld : org ∈ db.directory.organizations
  active : org.active = true
  memberHeld : member ∈ db.directory.memberships
  within : member.organization = org.id
  principal : member.principal = subject.id
  kind : member.principalKind = subject.kind
  memberActive : member.active = true
  named : publicIdentifier db subject org.id member.id = some publicId
  allowed :
    applicationTokenAllowsMembership db (listingContext client access) now access.token member.id = true

def reachAuthorization (client : ApplicationIdentity) (subject : Principal) (org : Organization)
    (member : Membership) (publicId : String) (scopes : List String) : ApplicationAuthorization where
  principal := subject.id
  actorKind := subject.kind
  publicId := publicId
  organization := org.id
  orgId := org.orgId
  membership := member.id
  authorizationEpoch := member.authzEpoch
  audience := client.appId
  scopes := scopes

/-- The scopes of a selected snapshot: the token's that are approved. -/
def selectedScopes (db : Db) (client : ApplicationIdentity) (token : AccessToken) : List String :=
  token.scopes.filter fun scope =>
    (lockedApplicationApprovedScopes db client.application).contains scope

variable {org : Organization} {member : Membership} {publicId : String}

theorem Reach.organization (keys : DirectoryKeys db.directory)
    (reach : Reach db now client access subject org member publicId) :
    (db.directory.organizations.find? fun org => org.id = member.organization && org.active) =
      some org := by
  apply Keyed.find?_of_only reach.orgHeld
  · simp [reach.within, reach.active]
  · intro other mem holds
    simp only [Bool.and_eq_true, decide_eq_true_eq] at holds
    exact keys.organizations other mem org reach.orgHeld (holds.1.trans reach.within)

namespace TokenRows

variable (rows : TokenRows db now client access token subject session application principal)
include rows

theorem application_only (keys : DirectoryKeys db.directory) {other : Application}
    (mem : other ∈ db.directory.applications) (id : other.id = client.application) :
    other = application :=
  keys.applications other mem application rows.applicationHeld (id.trans rows.applicationId.symm)

theorem listed (keys : DirectoryKeys db.directory) :
    listedToken db now access client = some (token, subject) := by
  have tokenFound : (db.access.find? fun token =>
      token.id = access.token && token.subject = access.subject.id &&
        token.tokenClass = .applicationAccess && token.organization.isNone &&
        token.membership.isNone && token.unexpired now &&
        token.client = some client.application &&
        token.audienceApplication = some client.application) = some token := by
    apply Table.find?_eq_some_of_key rows.held
    · simp [rows.own, rows.subjectId, rows.tokenClass, rows.organization, rows.membership,
        rows.unexpired, rows.clientId, rows.audienceApplication]
    · intro other mem holds
      simp only [Bool.and_eq_true, decide_eq_true_eq] at holds
      exact holds.1.1.1.1.1.1.1.trans rows.own.symm
  have applicationFound : (db.directory.applications.find? fun application =>
      application.id = client.application && application.appId = token.audience &&
        application.current) = some application := by
    apply Keyed.find?_of_only rows.applicationHeld
    · simp [rows.applicationId, rows.appId, rows.audience, rows.applicationCurrent]
    · intro other mem holds
      simp only [Bool.and_eq_true, decide_eq_true_eq] at holds
      exact rows.application_only keys mem holds.1.1
  have principalFound : (db.principals.find? fun principal =>
      principal.id = application.id && principal.kind = .application &&
        principal.status = .active && principal.authEpoch = client.authEpoch &&
        some principal.authEpoch = token.clientAuthEpoch) = some principal := by
    apply Table.find?_eq_some_of_key rows.principalHeld
    · simp [rows.principalId, rows.applicationId, rows.principalKind, rows.principalActive,
        rows.clientEpoch, rows.principalEpoch]
    · intro other mem holds
      simp only [Bool.and_eq_true, decide_eq_true_eq] at holds
      rw [holds.1.1.1.1, rows.applicationId, rows.principalId]
  unfold listedToken
  rw [tokenFound, Option.bind_eq_bind, Option.bind_some, rows.subjectFound, Option.bind_eq_bind,
    Option.bind_some, rows.sessionFound, Option.bind_eq_bind, Option.bind_some, applicationFound,
    Option.bind_eq_bind, Option.bind_some, principalFound]
  rfl

/-- The listing has the organizations that the token reaches. -/
theorem mem_listing (keys : DirectoryKeys db.directory) :
    ∃ list, listCurrentApplicationAuthorizations db (listingContext client access) now access
        client = some list ∧
      ∀ authorization, authorization ∈ list ↔ ∃ org member publicId,
        Reach db now client access subject org member publicId ∧
          authorization =
            reachAuthorization client subject org member publicId (listedScopes db client token) := by
  unfold listCurrentApplicationAuthorizations
  rw [rows.listed keys]
  refine ⟨_, rfl, fun authorization => ?_⟩
  rw [List.mem_filterMap]
  constructor
  · rintro ⟨member, memberHeld, made⟩
    obtain ⟨org, orgFound, made⟩ := Option.bind_eq_some_iff.mp made
    obtain ⟨publicId, named, made⟩ := Option.bind_eq_some_iff.mp made
    have suits := List.find?_some orgFound
    simp only [Bool.and_eq_true, decide_eq_true_eq] at suits made
    split at made
    · rename_i holds
      obtain ⟨⟨⟨principal_, kind⟩, memberActive⟩, allowed⟩ := holds
      obtain rfl := Option.some.inj made
      refine ⟨org, member, publicId, ?_, rfl⟩
      exact
        { orgHeld := List.mem_of_find?_eq_some orgFound
          active := suits.2
          within := suits.1.symm
          principal := principal_
          memberHeld, kind, memberActive, named, allowed }
    · cases made
  · rintro ⟨org, member, publicId, reach, rfl⟩
    refine ⟨member, reach.memberHeld, ?_⟩
    rw [reach.organization keys, Option.bind_eq_bind, Option.bind_some, reach.named, Option.bind_eq_bind,
      Option.bind_some, if_pos]
    · rfl
    · simp only [Bool.and_eq_true, decide_eq_true_eq]
      exact ⟨⟨⟨reach.principal, reach.kind⟩, reach.memberActive⟩, reach.allowed⟩

theorem token_only {other : AccessToken} (mem : other ∈ db.access) (id : other.id = access.token) :
    other = token :=
  Table.unique mem rows.held (id.trans rows.own.symm)

theorem subject_spec : subject ∈ db.principals ∧ subject.id = access.subject.id ∧
    subject.kind = access.subject.kind ∧ subject.status = .active := by
  obtain ⟨mem, holds⟩ := Table.find?_spec rows.subjectFound
  simp only [Bool.and_eq_true, decide_eq_true_eq] at holds
  exact ⟨mem, holds.1.1.1.trans rows.subjectId, holds.1.1.2.trans rows.subjectKind, holds.1.2⟩

/-- The handle of an organization that the token reaches selects the membership. -/
theorem selects (keys : DirectoryKeys db.directory) (reach : Reach db now client access subject org member publicId) :
    selectReachableOrganization db org.orgId access.subject = some (org.id, member.id) := by
  obtain ⟨subjectHeld, subjectId, subjectKind, subjectActive⟩ := rows.subject_spec
  have orgFound : (db.directory.organizations.find? fun other =>
      other.orgId = org.orgId && other.active) = some org := by
    apply Keyed.find?_of_only reach.orgHeld
    · simp [reach.active]
    · intro other mem holds
      simp only [Bool.and_eq_true, decide_eq_true_eq] at holds
      exact keys.orgIds other mem org reach.orgHeld holds.1
  have memberFound : (db.directory.memberships.find? fun member =>
      member.organization = org.id && member.principal = access.subject.id &&
        member.principalKind = access.subject.kind && member.active) = some member := by
    apply Keyed.find?_of_only reach.memberHeld
    · simp [reach.within, reach.principal, reach.kind, reach.memberActive, subjectId, subjectKind]
    · intro other mem holds
      simp only [Bool.and_eq_true, decide_eq_true_eq] at holds
      apply keys.members other mem member reach.memberHeld
      · exact holds.1.1.1.trans reach.within.symm
      · rw [holds.1.1.2, reach.principal, subjectId]
  have principalFound : activePrincipal db member.principal member.principalKind = some subject := by
    apply Table.find?_eq_some_of_key subjectHeld
    · simp [reach.principal, reach.kind, subjectActive]
    · intro other mem holds
      simp only [Bool.and_eq_true, decide_eq_true_eq] at holds
      exact holds.1.1.trans reach.principal
  unfold selectReachableOrganization
  rw [orgFound, Option.bind_eq_bind, Option.bind_some, memberFound, Option.bind_eq_bind,
    Option.bind_some, principalFound]
  rfl

/-- The rows of an authorization in an organization that the token reaches. -/
theorem authorized (keys : DirectoryKeys db.directory) (reach : Reach db now client access subject org member publicId) :
    authorizationRows db now token org.id member.id client none = some
      { token, subject, session, member, org, publicId
        issuer := application
        issuerPrincipal := principal
        audience := application } := by
  have memberFound : (db.directory.memberships.find? fun other =>
      other.id = member.id && other.organization = org.id && other.principal = subject.id &&
        other.principalKind = subject.kind && other.active &&
        (token.organization.isNone ||
          (token.membership = some other.id && token.organization = some other.organization &&
            token.membershipAuthzEpoch = some other.authzEpoch))) = some member := by
    apply Keyed.find?_of_only reach.memberHeld
    · simp [reach.within, reach.principal, reach.kind, reach.memberActive, rows.organization]
    · intro other mem holds
      simp only [Bool.and_eq_true, decide_eq_true_eq] at holds
      exact keys.memberships other mem member reach.memberHeld holds.1.1.1.1.1
  have issuerFound : (db.directory.applications.find? fun issuer =>
      some issuer.id = token.client && some issuer.id = token.audienceApplication &&
        issuer.appId = token.audience && issuer.current) = some application := by
    apply Keyed.find?_of_only rows.applicationHeld
    · simp [rows.clientId, rows.audienceApplication, rows.applicationId, rows.appId, rows.audience,
        rows.applicationCurrent]
    · intro other mem holds
      simp only [Bool.and_eq_true, decide_eq_true_eq] at holds
      exact rows.application_only keys mem
        (Option.some.inj (holds.1.1.1.trans rows.clientId))
  have audienceFound : currentApplication db client.application = some application := by
    apply Keyed.find?_of_only rows.applicationHeld
    · simp [rows.applicationId, rows.applicationCurrent]
    · intro other mem holds
      simp only [Bool.and_eq_true, decide_eq_true_eq] at holds
      exact rows.application_only keys mem holds.1
  have issuerPrincipalFound : (db.principals.find? fun principal =>
      principal.id = application.id && principal.kind = .application &&
        principal.status = .active && some principal.authEpoch = token.clientAuthEpoch) =
      some principal := by
    apply Table.find?_eq_some_of_key rows.principalHeld
    · simp [rows.principalId, rows.applicationId, rows.principalKind, rows.principalActive,
        rows.principalEpoch]
    · intro other mem holds
      simp only [Bool.and_eq_true, decide_eq_true_eq] at holds
      rw [holds.1.1.1, rows.applicationId, rows.principalId]
  have audiencePrincipalFound : (db.principals.find? fun principal =>
      principal.id = application.id && principal.kind = .application &&
        principal.status = .active && principal.authEpoch = client.authEpoch) =
      some principal := by
    apply Table.find?_eq_some_of_key rows.principalHeld
    · simp [rows.principalId, rows.applicationId, rows.principalKind, rows.principalActive,
        rows.clientEpoch]
    · intro other mem holds
      simp only [Bool.and_eq_true, decide_eq_true_eq] at holds
      rw [holds.1.1.1, rows.applicationId, rows.principalId]
  unfold authorizationRows
  rw [rows.subjectFound, Option.bind_eq_bind, Option.bind_some, rows.sessionFound,
    Option.bind_eq_bind, Option.bind_some, memberFound, Option.bind_eq_bind, Option.bind_some,
    reach.organization keys, Option.bind_eq_bind, Option.bind_some, issuerFound, Option.bind_eq_bind,
    Option.bind_some, issuerPrincipalFound, Option.bind_eq_bind, Option.bind_some, audienceFound,
    Option.bind_some, audiencePrincipalFound, Option.bind_some, reach.named, Option.bind_some, if_pos]
  · rfl
  · simp [rows.unexpired]

/-- The selected snapshot of an organization that the token reaches. -/
theorem snapshot (keys : DirectoryKeys db.directory) (reach : Reach db now client access subject org member publicId) :
    getCurrentApplicationAuthorization db (subjectContext client access.subject.id org.id) now
        access.token access.subject.id org.id member.id client none =
      .ok (some (reachAuthorization client subject org member publicId
        (selectedScopes db client token))) := by
  have tokenFound : authorizationToken db (subjectContext client access.subject.id org.id) now
      access.token access.subject.id org.id member.id client none = some token := by
    apply Table.find?_eq_some_of_key rows.held
    · have allowed : applicationTokenAllowsMembership db
          (subjectContext client access.subject.id org.id) now token.id member.id = true := by
        rw [rows.own]
        exact reach.allowed
      simp [rows.own ▸ allowed, rows.own, rows.subjectId, rows.organization, rows.membership,
        rows.tokenClass, rows.clientId]
    · intro other mem holds
      simp only [Bool.and_eq_true, decide_eq_true_eq] at holds
      exact holds.1.1.1.1.1.trans rows.own.symm
  unfold getCurrentApplicationAuthorization
  rw [tokenFound, Option.bind_some, rows.authorized keys reach]
  show Except.ok (some (AuthorizationRows.snapshot _ (snapshotScopes db _ none))) = _
  have audience : application.appId = client.appId := rows.appId
  simp [AuthorizationRows.snapshot, reachAuthorization, audience, snapshotScopes, selectedScopes,
    rows.applicationId]

/-- An organization whose snapshot is selected is one that the token reaches. -/
theorem reach_of_snapshot (keys : DirectoryKeys db.directory) {orgId : String}
    {organization membership : Nat} {authorization : ApplicationAuthorization}
    (selected : selectReachableOrganization db orgId access.subject = some (organization, membership))
    (disclosed : getCurrentApplicationAuthorization db
      (subjectContext client access.subject.id organization) now access.token access.subject.id
        organization membership client none = .ok (some authorization)) :
    ∃ org member publicId, Reach db now client access subject org member publicId ∧
      org.orgId = orgId ∧ authorization =
        reachAuthorization client subject org member publicId (selectedScopes db client token) := by
  have again := disclosed
  unfold getCurrentApplicationAuthorization at disclosed
  split at disclosed
  · cases disclosed
  · rename_i found taken
    obtain ⟨other, tokenFound, rowsFound⟩ := Option.bind_eq_some_iff.mp taken
    obtain ⟨otherHeld, holds⟩ := Table.find?_spec tokenFound
    simp only [Bool.and_eq_true, decide_eq_true_eq] at holds
    obtain ⟨⟨⟨⟨⟨otherId, -⟩, -⟩, allowed⟩, -⟩, -⟩ := holds
    obtain rfl := rows.token_only otherHeld otherId
    simp only [authorizationRows, rows.subjectFound, Option.bind_eq_bind, Option.bind_some,
      Option.bind_eq_some_iff] at rowsFound
    obtain ⟨-, -, member, memberFound, org, orgFound, -, -, -, -, -, -, -, -, publicId, named, -⟩ :=
      rowsFound
    have memberHolds := List.find?_some memberFound
    have orgHolds := List.find?_some orgFound
    simp only [Bool.and_eq_true, decide_eq_true_eq] at memberHolds orgHolds
    obtain ⟨⟨⟨⟨⟨memberId, memberOrg⟩, memberPrincipal⟩, memberKind⟩, memberActive⟩, -⟩ := memberHolds
    have orgHeld := List.mem_of_find?_eq_some orgFound
    have reach : Reach db now client access subject org member publicId :=
      { orgHeld
        active := orgHolds.2
        memberHeld := List.mem_of_find?_eq_some memberFound
        within := orgHolds.1.symm
        principal := memberPrincipal
        kind := memberKind
        memberActive, named
        allowed := by
          rw [← otherId, memberId]
          exact allowed }
    have sameOrg : org.id = organization := orgHolds.1.trans memberOrg
    rw [← sameOrg, ← memberId] at again
    have disclosed := (rows.snapshot keys reach).symm.trans again
    obtain ⟨handled, handledFound, selected⟩ := Option.bind_eq_some_iff.mp selected
    obtain ⟨chosen, -, selected⟩ := Option.bind_eq_some_iff.mp selected
    obtain ⟨-, -, selected⟩ := Option.bind_eq_some_iff.mp selected
    have handledId : handled.id = organization := congrArg Prod.fst (Option.some.inj selected)
    have handledHolds := List.find?_some handledFound
    simp only [Bool.and_eq_true, decide_eq_true_eq] at handledHolds
    have same : handled = org := keys.organizations handled (List.mem_of_find?_eq_some handledFound)
      org orgHeld (handledId.trans sameOrg.symm)
    refine ⟨org, member, publicId, reach, same ▸ handledHolds.1, ?_⟩
    exact (Option.some.inj (Except.ok.inj disclosed)).symm

end TokenRows

/-! ## The two forms of introspection -/

namespace Presents

variable (presents : Presents db now client supplied access)
include presents

theorem client_eq (rows : TokenRows db now client access token subject session application principal) :
    access.client = some client.application := by
  have done := presents.authenticated
  simp only [authenticate, Option.bind_eq_bind, Option.bind_eq_some_iff] at done
  obtain ⟨other, found, session, -, subject, -, done⟩ := done
  split at done
  · have same := Option.some.inj done
    have id : other.id = access.token := congrArg AccessContext.token same
    have named : other.client = access.client := congrArg AccessContext.client same
    rw [← named, rows.token_only (Table.find?_spec found).1 id]
    exact rows.clientId
  · cases done

/-- The second transaction runs for a token that is presented. -/
theorem introspect_eq (orgContext : Option String) :
    introspectForApplication db now client supplied orgContext =
      introspect db now client access orgContext := by
  unfold introspectForApplication
  rw [presents.authenticated]
  rfl

/-- Without a header: all organizations that the token reaches. -/
theorem lists (rows : TokenRows db now client access token subject session application principal)
    (keys : DirectoryKeys db.directory) :
    ∃ answer, introspectForApplication db now client supplied none = some answer ∧
      answer.authorization = none ∧
      ∀ authorization, authorization ∈ answer.authorizations.getD [] ↔ ∃ org member publicId,
        Reach db now client access subject org member publicId ∧
          authorization =
            reachAuthorization client subject org member publicId (listedScopes db client token) := by
  obtain ⟨metadata, current⟩ := Option.isSome_iff_exists.mp presents.current
  obtain ⟨list, listing, mem⟩ := rows.mem_listing keys
  rw [presents.introspect_eq, introspect, if_neg (not_not_intro (presents.client_eq rows)),
    presents.locked, current]
  simp only [introspectionSelection, presents.unbound.1, presents.unbound.2]
  have listing : listCurrentApplicationAuthorizations db
      { principal := some access.subject.id, organization := none
        application := some client.application } now access client = some list := listing
  simp only [Bool.not_true, Bool.false_eq_true, if_false, Option.bind_eq_bind, Option.bind_some,
    listing]
  exact ⟨_, rfl, rfl, mem⟩

/-- With the handle of an organization: active for those that the token reaches. -/
theorem selects (rows : TokenRows db now client access token subject session application principal)
    (keys : DirectoryKeys db.directory)
    (reach : Reach db now client access subject org member publicId) :
    ∃ answer, introspectForApplication db now client supplied (some org.orgId) = some answer ∧
      answer.authorization = some
        (reachAuthorization client subject org member publicId (selectedScopes db client token)) := by
  obtain ⟨metadata, current⟩ := Option.isSome_iff_exists.mp presents.current
  rw [presents.introspect_eq, introspect, if_neg (not_not_intro (presents.client_eq rows)),
    presents.locked, current]
  simp only [introspectionSelection, presents.unbound.1, presents.unbound.2, rows.selects keys reach,
    rows.snapshot keys reach, Bool.not_true, Bool.false_eq_true, if_false, Option.bind_eq_bind,
    Option.bind_some, Option.map_some]
  exact ⟨_, rfl, rfl⟩

theorem selected_spec
    (rows : TokenRows db now client access token subject session application principal)
    (keys : DirectoryKeys db.directory) {orgId : String} {answer : Introspection}
    (told : introspectForApplication db now client supplied (some orgId) = some answer) :
    answer.authorizations = none ∧ ∃ org member publicId,
      Reach db now client access subject org member publicId ∧ org.orgId = orgId ∧
        answer.authorization = some
          (reachAuthorization client subject org member publicId (selectedScopes db client token)) := by
  obtain ⟨metadata, current⟩ := Option.isSome_iff_exists.mp presents.current
  rw [presents.introspect_eq, introspect, if_neg (not_not_intro (presents.client_eq rows)),
    presents.locked, current] at told
  simp only [introspectionSelection, presents.unbound.1, presents.unbound.2, Bool.not_true,
    Bool.false_eq_true, if_false, Option.bind_eq_bind, Option.bind_some,
    Option.bind_eq_some_iff, Option.map_eq_some_iff] at told
  obtain ⟨-, ⟨⟨organization, membership⟩, selected, rfl⟩, told⟩ := told
  dsimp only at told
  split at told
  · rename_i disclosed
    obtain rfl := Option.some.inj told
    obtain ⟨org, member, publicId, reach, handle, same⟩ :=
      rows.reach_of_snapshot keys selected disclosed
    exact ⟨rfl, org, member, publicId, reach, handle, congrArg some same⟩
  · cases told

end Presents

/-! ## Scopes -/

/-- The application of the token is approved for the scope. -/
def ApprovedFor (db : Db) (application : Nat) (scope : String) : Prop :=
  ∃ row ∈ db.directory.applications, row.id = application ∧ scope ∈ row.approvedScopes

theorem approvedFor_iff (keys : DirectoryKeys db.directory) {id : Nat} {scope : String} :
    (lockedApplicationApprovedScopes db id).contains scope = true ↔ ApprovedFor db id scope := by
  unfold lockedApplicationApprovedScopes
  rw [List.contains_iff_mem]
  split
  · rename_i absent
    constructor
    · intro mem
      cases mem
    · rintro ⟨row, mem, own, -⟩
      exact absurd (decide_eq_true own) (List.find?_eq_none.mp absent row mem)
  · rename_i found held
    have own : found.id = id := by simpa using List.find?_some held
    constructor
    · exact fun approved => ⟨found, List.mem_of_find?_eq_some held, own, approved⟩
    · rintro ⟨row, mem, rowId, approved⟩
      rw [keys.applications found (List.mem_of_find?_eq_some held) row mem (own.trans rowId.symm)]
      exact approved

theorem mem_selectedScopes (keys : DirectoryKeys db.directory) {scope : String} :
    scope ∈ selectedScopes db client token ↔
      scope ∈ token.scopes ∧ ApprovedFor db client.application scope := by
  rw [selectedScopes, List.mem_filter, approvedFor_iff keys]

theorem Presents.consent (presents : Presents db now client supplied access)
    (rows : TokenRows db now client access token subject session application principal) :
    ∃ consent ∈ db.consents, consent.covers token = true := by
  have done := presents.authenticated
  simp only [authenticate, Option.bind_eq_bind, Option.bind_eq_some_iff] at done
  obtain ⟨other, found, row, -, person, -, done⟩ := done
  split at done
  · rename_i current
    have id : other.id = access.token := congrArg AccessContext.token (Option.some.inj done)
    obtain rfl := rows.token_only (Table.find?_spec found).1 id
    simp only [accessCurrent, clientCurrent, rows.clientId, Bool.and_eq_true, List.any_eq_true,
      Table.any_eq_true] at current
    obtain ⟨⟨-, -, app, -, -, consent, mem, covers⟩, -⟩ := current
    exact ⟨consent, mem, covers⟩
  · cases done

namespace TokenRows

variable (rows : TokenRows db now client access token subject session application principal)
include rows

/-- A listed snapshot has the scopes that are within the token's ceiling. -/
theorem mem_listedScopes (keys : DirectoryKeys db.directory) (grants : Grants db) {consent : Consent}
    (held : consent ∈ db.consents) (covers : consent.covers token = true) {scope : String} :
    scope ∈ listedScopes db client token ↔ WithinCeiling db token scope := by
  rw [listedScopes, List.mem_filter, Bool.and_eq_true, approvedFor_iff keys, Table.any_eq_true]
  constructor
  · rintro ⟨stored, ⟨row, rowHeld, rowId, approved⟩, other, otherHeld, granted⟩
    rw [Bool.and_eq_true] at granted
    obtain ⟨otherCovers, granted⟩ := granted
    have active : other.active = true := by
      simp only [Consent.covers, Consent.binds, Bool.and_eq_true] at otherCovers
      exact otherCovers.1.2
    exact .of_grants grants stored rowHeld (by rw [rows.clientId, rowId]) approved otherHeld
      (Consent.ofSession_of_covers otherCovers) active (List.contains_iff_mem.mp granted)
  · rintro ⟨stored, ⟨row, rowHeld, named, approved⟩, other, otherHeld, own, only, active, granted⟩
    have rowId : row.id = client.application := Option.some.inj (named.symm.trans rows.clientId)
    have same := only consent held (Consent.ofSession_of_covers covers)
    refine ⟨stored, ⟨row, rowHeld, rowId, approved⟩, consent, held, ?_⟩
    rw [covers, Bool.true_and, same]
    exact List.contains_iff_mem.mpr granted

end TokenRows

/-! ## Verified proofs -/

theorem oboScope_undisclosed (audience : Application) (endpointId : String) :
    oboScope audience endpointId ∉ disclosureScopes := by
  intro mem
  have starts : (oboScope audience endpointId).toList.head? = some 'o' := by
    simp [oboScope, String.toList_append]
  have others : ∀ scope ∈ disclosureScopes, scope.toList.head? = some 's' := by decide
  rw [others _ mem] at starts
  exact absurd starts (by decide)

/-- The snapshot of a proof is within the ceiling of the token it was exchanged for, and
within what the application it is shown to is approved for. -/
theorem verified_scopes (keys : DirectoryKeys db.directory) (grants : Grants db)
    {request : OboVerifyRequest} {result : OboAccessResult} {after : Db}
    (done : oboVerify db now client supplied request = .ok (result, after)) (held : token ∈ db.access)
    (own : result.proof.parentAccessToken = token.id) :
    ∀ scope ∈ disclosureScopes, scope ∈ result.authorization.scopes →
      WithinCeiling db token scope ∧ ApprovedFor db client.application scope := by
  obtain ⟨current, verified, -⟩ := oboVerify_eq_ok done
  have snapshot := verified.snapshot
  unfold getCurrentApplicationAuthorization at snapshot
  split at snapshot
  · cases snapshot
  · rename_i rows taken
    obtain ⟨other, tokenFound, rowsFound⟩ := Option.bind_eq_some_iff.mp taken
    obtain ⟨otherHeld, otherHolds⟩ := Table.find?_spec tokenFound
    simp only [Bool.and_eq_true, decide_eq_true_eq] at otherHolds
    obtain rfl := Table.unique otherHeld held (otherHolds.1.1.1.1.1.trans own)
    simp only [authorizationRows, Option.bind_eq_bind, Option.bind_eq_some_iff] at rowsFound
    obtain ⟨subject, -, session, -, member, -, org, -, issuer, issuerFound, issuerPrincipal, -,
      audience, audienceFound, audiencePrincipal, -, publicId, -, made⟩ := rowsFound
    split at made
    · obtain rfl := Option.some.inj made
      dsimp only at snapshot
      split at snapshot
      · cases snapshot
      · rename_i consent consentFound
        split at snapshot
        · cases snapshot
        · split at snapshot
          · cases snapshot
          · have scopes := congrArg (Option.map ApplicationAuthorization.scopes)
              (Except.ok.inj snapshot)
            have scopes := Option.some.inj scopes
            have issuerHolds := List.find?_some issuerFound
            have audienceHolds := List.find?_some audienceFound
            simp only [Bool.and_eq_true, decide_eq_true_eq] at issuerHolds audienceHolds
            obtain ⟨consentHeld, consentHolds⟩ := Table.find?_spec consentFound
            simp only [Bool.and_eq_true] at consentHolds
            intro scope disclosed mem
            rw [← scopes] at mem
            rcases List.mem_cons.mp mem with rfl | mem
            · exact absurd disclosed (oboScope_undisclosed _ _)
            · obtain ⟨kept, consented⟩ := List.mem_filter.mp mem
              obtain ⟨stored, cut⟩ := List.mem_filter.mp kept
              simp only [Bool.and_eq_true, Option.isNone_some, Bool.false_or] at cut
              refine ⟨?_, ?_⟩
              · refine .of_grants grants stored (List.mem_of_find?_eq_some issuerFound)
                  issuerHolds.1.1.1.symm (List.contains_iff_mem.mp cut.2.2) consentHeld
                  (Consent.ofSession_of_covers consentHolds.1) ?_ (List.contains_iff_mem.mp consented)
                have covers := consentHolds.1
                simp only [Consent.covers, Consent.binds, Bool.and_eq_true] at covers
                exact covers.1.2
              · rw [← audienceHolds.1]
                exact (approvedFor_iff keys).mp cut.1
    · cases made

/-! ## Agreement -/

/-- The snapshots of a token agree and show what is granted now. -/
structure SnapshotsHold (db : Db) (columns : SnapshotRows) (now : Nat) (client : ApplicationIdentity)
    (supplied : List Nat) (token : AccessToken) : Prop where
  /-- An organization is listed when the introspection for it is active. -/
  reached : ∀ answer orgId, introspectForApplication db now client supplied none = some answer →
    ((∃ snapshot ∈ answer.listed columns, snapshot.orgId = orgId) ↔
      (introspectForApplication db now client supplied (some orgId)).isSome = true)
  agree : ∀ answer selected, introspectForApplication db now client supplied none = some answer →
    ∀ snapshot ∈ answer.listed columns,
      introspectForApplication db now client supplied (some snapshot.orgId) = some selected →
        selected.selected columns = some snapshot
  listed : ∀ answer, introspectForApplication db now client supplied none = some answer →
    ∀ snapshot ∈ answer.listed columns, snapshot.Governed (WithinCeiling db token)
  selected : ∀ answer orgId, introspectForApplication db now client supplied (some orgId) =
    some answer → ∀ snapshot, answer.selected columns = some snapshot →
      snapshot.Governed (WithinCeiling db token)
  /-- The snapshot of a proof that was exchanged for the token. -/
  verified : ∀ audience proof request (result : OboAccessResult) after,
    oboVerify db now audience proof request = .ok (result, after) →
      result.proof.parentAccessToken = token.id →
        (result.snapshot columns).Governed fun scope =>
          WithinCeiling db token scope ∧ ApprovedFor db audience.application scope

/-- Some organization is reached by the token. -/
def ReachesSome (db : Db) (now : Nat) (client : ApplicationIdentity) (access : AccessContext) : Prop :=
  ∃ subject ∈ db.principals, subject.id = access.subject.id ∧
    ∃ org member publicId, Reach db now client access subject org member publicId

/-- The consent covers every scope of the token that is approved, and the identity is
among them. -/
structure FullyConsented (db : Db) (client : ApplicationIdentity) (token : AccessToken) : Prop where
  approved : ∀ scope ∈ token.scopes, ApprovedFor db client.application scope →
    WithinCeiling db token scope
  identity : WithinCeiling db token "self.identity.read"

section Iff

variable {columns : SnapshotRows} {consent : Consent}
  (presents : Presents db now client supplied access)
  (rows : TokenRows db now client access token subject session application principal)
  (keys : DirectoryKeys db.directory) (grants : Grants db)
include presents rows keys grants

/-- What a listing shows of an organization that the token reaches. -/
theorem SnapshotsHold.consented (held : SnapshotsHold db columns now client supplied token)
    (reach : Reach db now client access subject org member publicId) :
    FullyConsented db client token := by
  obtain ⟨consent, consentHeld, covers⟩ := presents.consent rows
  obtain ⟨answer, told, -, mem⟩ := presents.lists rows keys
  obtain ⟨other, selected, chosen⟩ := presents.selects rows keys reach
  have shown : listedSnapshot columns (reachAuthorization client subject org member publicId
      (listedScopes db client token)) ∈ answer.listed columns :=
    List.mem_map_of_mem ((mem _).mpr ⟨org, member, publicId, reach, rfl⟩)
  have same := held.agree answer other told _ shown selected
  rw [Introspection.selected, chosen, Option.map_some] at same
  have scopes := congrArg AuthorizationSnapshot.scopes (Option.some.inj same)
  have cut : selectedScopes db client token = listedScopes db client token := by
    unfold currentSnapshot at scopes
    split at scopes
    · exact scopes
    · exact scopes
  constructor
  · intro scope stored approved
    have kept := (mem_selectedScopes keys).mpr ⟨stored, approved⟩
    rw [cut] at kept
    exact (rows.mem_listedScopes keys grants consentHeld covers).mp kept
  · exact (held.listed answer told _ shown).actorType rfl

/-- With everything consented to, both forms cut the scopes to the same. -/
theorem FullyConsented.scopes_eq (full : FullyConsented db client token) :
    selectedScopes db client token = listedScopes db client token := by
  obtain ⟨consent, consentHeld, covers⟩ := presents.consent rows
  apply List.filter_congr
  intro scope stored
  by_cases approved : ApprovedFor db client.application scope
  · have within := full.approved scope stored approved
    have kept := (rows.mem_listedScopes keys grants consentHeld covers).mpr within
    have both := (List.mem_filter.mp kept).2
    rw [both]
    exact (approvedFor_iff keys).mpr approved
  · have absent := fun contained => approved ((approvedFor_iff keys).mp contained)
    rw [Bool.not_eq_true _ |>.mp absent, Bool.false_and]

theorem FullyConsented.holds (full : ReachesSome db now client access → FullyConsented db client token) :
    SnapshotsHold db columns now client supplied token := by
  obtain ⟨consent, consentHeld, covers⟩ := presents.consent rows
  obtain ⟨listing, told, -, mem⟩ := presents.lists rows keys
  obtain ⟨subjectHeld, subjectId, -, -⟩ := rows.subject_spec
  have reached : ∀ {org member publicId}, Reach db now client access subject org member publicId →
      FullyConsented db client token :=
    fun reach => full ⟨subject, subjectHeld, subjectId, _, _, _, reach⟩
  have ceiling : ∀ scope, scope ∈ listedScopes db client token → WithinCeiling db token scope :=
    fun scope => (rows.mem_listedScopes keys grants consentHeld covers).mp
  have shows : ∀ answer, introspectForApplication db now client supplied none = some answer →
      ∀ snapshot ∈ answer.listed columns, ∃ org member publicId,
        Reach db now client access subject org member publicId ∧
          snapshot = listedSnapshot columns
            (reachAuthorization client subject org member publicId (listedScopes db client token)) := by
    intro answer again snapshot shown
    obtain rfl := Option.some.inj (told.symm.trans again)
    obtain ⟨authorization, held, rfl⟩ := List.mem_map.mp shown
    obtain ⟨org, member, publicId, reach, rfl⟩ := (mem authorization).mp held
    exact ⟨org, member, publicId, reach, rfl⟩
  constructor
  · intro answer orgId again
    constructor
    · rintro ⟨snapshot, shown, rfl⟩
      obtain ⟨org, member, publicId, reach, rfl⟩ := shows answer again snapshot shown
      obtain ⟨other, selected, -⟩ := presents.selects rows keys reach
      exact Option.isSome_iff_exists.mpr ⟨other, selected⟩
    · intro active
      obtain ⟨other, selected⟩ := Option.isSome_iff_exists.mp active
      obtain ⟨-, org, member, publicId, reach, rfl, -⟩ := presents.selected_spec rows keys selected
      obtain rfl := Option.some.inj (told.symm.trans again)
      exact ⟨_, List.mem_map_of_mem ((mem _).mpr ⟨org, member, publicId, reach, rfl⟩), rfl⟩
  · intro answer selected again snapshot shown chosen
    obtain ⟨org, member, publicId, reach, rfl⟩ := shows answer again snapshot shown
    obtain ⟨other, selectedToo, authorization⟩ := presents.selects rows keys reach
    obtain rfl := Option.some.inj (selectedToo.symm.trans chosen)
    have full := reached reach
    have cut := full.scopes_eq presents rows keys grants
    rw [Introspection.selected, authorization, Option.map_some, cut]
    refine congrArg some (currentSnapshot_eq_listed.mpr ?_)
    exact (rows.mem_listedScopes keys grants consentHeld covers).mpr full.identity
  · intro answer again snapshot shown
    obtain ⟨org, member, publicId, reach, rfl⟩ := shows answer again snapshot shown
    exact (listedSnapshot_governed fun scope _ kept => ceiling scope kept).mpr (reached reach).identity
  · intro answer orgId selected snapshot shown
    obtain ⟨-, org, member, publicId, reach, -, authorization⟩ :=
      presents.selected_spec rows keys selected
    rw [Introspection.selected, authorization, Option.map_some] at shown
    obtain rfl := Option.some.inj shown
    apply currentSnapshot_governed
    intro scope _ kept
    rw [reachAuthorization, (reached reach).scopes_eq presents rows keys grants] at kept
    exact ceiling scope kept
  · intro audience proof request result after done own
    exact currentSnapshot_governed (verified_scopes keys grants done rows.held own)

end Iff

end Agreement

/-- In every state of every run, the snapshots of a live token agree and show what is
granted now exactly when the token reaches no organization or is fully consented to. -/
theorem snapshots_agree_iff (settings : SecuritySettings) (directory : Directory)
    (actions : List Action) (columns : SnapshotRows) (now : Nat) (client : ApplicationIdentity)
    (supplied : List Nat) (access : AccessContext) (token : AccessToken)
    (keys : DirectoryKeys (Runs.after (next settings) (.empty directory) actions).directory)
    (presents : Presents (Runs.after (next settings) (.empty directory) actions) now client supplied
      access)
    (held : token ∈ (Runs.after (next settings) (.empty directory) actions).access)
    (own : token.id = access.token) :
    SnapshotsHold (Runs.after (next settings) (.empty directory) actions) columns now client supplied
        token ↔
      (ReachesSome (Runs.after (next settings) (.empty directory) actions) now client access →
        FullyConsented (Runs.after (next settings) (.empty directory) actions) client token) := by
  have grants : Grants (Runs.after (next settings) (.empty directory) actions) :=
    (Grants.empty directory).runs actions
  obtain ⟨other, subject, session, application, principal, rows⟩ := presents.rows
  obtain rfl := rows.token_only held own
  constructor
  · rintro holds ⟨person, personHeld, personId, org, member, publicId, reach⟩
    obtain ⟨subjectHeld, subjectId, -, -⟩ := rows.subject_spec
    obtain rfl := Table.unique personHeld subjectHeld (personId.trans subjectId.symm)
    exact holds.consented presents rows keys grants reach
  · exact fun full => FullyConsented.holds presents rows keys grants full

namespace Reconsent

open Scenario (ada crm directory fresh principal)

/-- The application is approved for the identity and the membership. -/
def disclosing : Directory :=
  { directory with
    applications := directory.applications.map fun application =>
      { application with approvedScopes := ["self.identity.read", "self.membership.read"] } }

def request (scopes : List String) : ShortLivedTokenRequest where
  appId := "crm"
  orgIds := ["acme"]
  scopes := scopes

/-- Ada lets the application have both scopes; the token 32 is issued. -/
def granted : List Action :=
  [.createPrincipal 0 (principal 1 .carbon), .createPrincipal 0 (principal 4 .application),
    .issueLoginSession 10 1 (fresh 10),
    .issueForSelection 20 ada (request ["self.identity.read", "self.membership.read"]) (fresh 20),
    .exchangeAuthorizationCode 30 crm [1026] (fresh 30)]

/-- Then she consents again, to her identity alone. -/
def narrowed : List Action :=
  granted ++ [.issueForSelection 40 ada (request ["self.identity.read"]) (fresh 50)]

/-- What authenticating the token returns while it has these scopes. -/
def bearer (scopes : List String) : AccessContext where
  token := 32
  session := 10
  subject := { kind := .carbon, id := 1 }
  client := some 4
  audienceApplication := some 4
  audience := "crm"
  organization := none
  membership := none
  scopes := scopes
  assuranceLevel := 1

def columns : SnapshotRows where
  details := fun _ => { version := 1, orgRole := "owner" }
  tags := []
  assignments := []
  testingEnvironment := none

end Reconsent

open Reconsent Scenario in
/-- Before Ada narrows her consent, the two forms agree. -/
theorem snapshots_agree_granted :
    ∃ token ∈ (Runs.after (next ttls) (.empty disclosing) granted).access, token.id = 32 ∧
      SnapshotsHold (Runs.after (next ttls) (.empty disclosing) granted) columns 50 crm [1032]
        token := by
  have keys : DirectoryKeys (Runs.after (next ttls) (.empty disclosing) granted).directory :=
    ⟨by decide +kernel, by decide +kernel, by decide +kernel, by decide +kernel, by decide +kernel⟩
  have presents : Presents (Runs.after (next ttls) (.empty disclosing) granted) 50 crm [1032]
      (bearer ["self.identity.read", "self.membership.read"]) :=
    ⟨by decide +kernel, by decide +kernel, by decide +kernel, rfl, rfl⟩
  have grants : Grants (Runs.after (next ttls) (.empty disclosing) granted) :=
    (Grants.empty disclosing).runs granted
  have facts : ∃ token ∈ (Runs.after (next ttls) (.empty disclosing) granted).access, token.id = 32 ∧
      "self.identity.read" ∈ token.scopes ∧
        ∃ application ∈ (Runs.after (next ttls) (.empty disclosing) granted).directory.applications,
          token.client = some application.id ∧
            ∃ consent ∈ (Runs.after (next ttls) (.empty disclosing) granted).consents,
              (token.client = some consent.application ∧ consent.subject = token.subject ∧
                consent.parentSession = token.session) ∧ consent.active = true ∧
                  ∀ scope ∈ token.scopes,
                    scope ∈ application.approvedScopes ∧ scope ∈ consent.scopes := by
    decide +kernel
  obtain ⟨token, held, own, identity, application, applicationHeld, named, consent, consentHeld,
    ofSession, active, all_⟩ := facts
  have within : ∀ scope ∈ token.scopes,
      WithinCeiling (Runs.after (next ttls) (.empty disclosing) granted) token scope :=
    fun scope stored => .of_grants grants stored applicationHeld named (all_ scope stored).1
      consentHeld ofSession active (all_ scope stored).2
  refine ⟨token, held, own, ?_⟩
  refine (snapshots_agree_iff ttls disclosing granted columns 50 crm [1032]
    (bearer ["self.identity.read", "self.membership.read"]) token keys presents held own).mpr ?_
  exact fun _ => ⟨fun scope stored _ => within scope stored, within _ identity⟩

open Reconsent Scenario in
/-- After she has, the introspection for her organization still discloses her role. -/
theorem selected_discloses_withdrawn :
    ¬ ∀ (settings : SecuritySettings) (directory : Directory) (actions : List Action)
      (columns : SnapshotRows) (now : Nat) (client : ApplicationIdentity) (supplied : List Nat)
      (access : AccessContext), ∀ token ∈ (Runs.after (next settings) (.empty directory) actions).access,
        Presents (Runs.after (next settings) (.empty directory) actions) now client supplied access →
          token.id = access.token →
            SnapshotsHold (Runs.after (next settings) (.empty directory) actions) columns now client
              supplied token := by
  intro claimed
  have presents : Presents (Runs.after (next ttls) (.empty disclosing) narrowed) 50 crm [1032]
      (bearer ["self.identity.read"]) :=
    ⟨by decide +kernel, by decide +kernel, by decide +kernel, rfl, rfl⟩
  have found : ∃ token ∈ (Runs.after (next ttls) (.empty disclosing) narrowed).access,
      token.id = 32 := by
    decide +kernel
  have shown : (introspectForApplication (Runs.after (next ttls) (.empty disclosing) narrowed) 50 crm
      [1032] (some "acme")).any (fun answer => (answer.selected columns).any fun snapshot =>
        snapshot.orgRole = some "owner") = true := by
    decide +kernel
  have withdrawn : ∀ consent ∈ (Runs.after (next ttls) (.empty disclosing) narrowed).consents,
      "self.membership.read" ∉ consent.scopes := by
    decide +kernel
  obtain ⟨token, held, own⟩ := found
  have holds := claimed ttls disclosing narrowed columns 50 crm [1032] (bearer ["self.identity.read"])
    token held presents own
  obtain ⟨answer, told, shown⟩ := Option.any_eq_true _ _ |>.mp shown
  obtain ⟨snapshot, selected, role⟩ := Option.any_eq_true _ _ |>.mp shown
  have within := (holds.selected answer "acme" told snapshot selected).orgRole
    (by rw [of_decide_eq_true role]; rfl)
  obtain ⟨consent, mem, -, -, -, granted⟩ := within.consented
  exact withdrawn consent mem granted

end SiliconIam.Auth.Authority
