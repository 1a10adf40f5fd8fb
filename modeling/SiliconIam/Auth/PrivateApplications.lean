/-
# Auth.PrivateApplications -- a private application serves its own organization

While an application is private, what it is served rests on one consent, and the
consent selects one membership: an active one of the subject in the owning
organization (`Confined`).  The consent is the only one of the application, the
subject and the session (`Grants`), so a selection made while the application was
public, wider than that, leaves nothing to be served (`Confined.single`); the next
approval replaces it.

Events are different.  They go by what held when they happened, so an application
can be sent an event of its organization although the member is gone
(`removed_member_still_selects`).
-/
import Mathlib.Data.List.Dedup
import SiliconIam.Auth.ProofUse
import SiliconIam.Auth.WebhookRecipients

namespace SiliconIam.Auth.Authority

open SiliconIam.Theory

set_option autoImplicit false

section Private

variable {settings : SecuritySettings} {now : Nat} {db after : Db} {app org subject session : Nat}

/-! ## Confinement -/

/-- The application under this id is private and owned by the organization. -/
def PrivateTo (db : Db) (app org : Nat) : Prop :=
  ∀ application ∈ db.directory.applications, application.id = app →
    application.isPrivate = true ∧ application.organization = org

structure ActiveMember (db : Db) (org subject : Nat) (member : Membership) : Prop where
  held : member ∈ db.directory.memberships
  organization : member.organization = org
  organizationActive : activeOrganization db org = true
  principal : member.principal = subject
  active : member.active = true

def Consent.grants (app subject session : Nat) (consent : Consent) : Prop :=
  consent.application = app ∧ consent.subject = subject ∧ consent.parentSession = session

/-- The consent in force selects one membership, an active one of the subject in the
organization, and nothing else. -/
structure Confined (db : Db) (app org subject session : Nat) : Prop where
  consent : ∃ consent ∈ db.consents, consent.grants app subject session ∧ consent.active = true ∧
    (∀ other ∈ db.consents, other.grants app subject session → other = consent) ∧
      ∃ member, ActiveMember db org subject member ∧ consent.selectedMemberships = [member.id]

theorem Grants.grants_unique (grants : Grants db) {a b : Consent} (ma : a ∈ db.consents)
    (mb : b ∈ db.consents) (first : a.grants app subject session)
    (second : b.grants app subject session) : a = b := by
  refine grants.unique a ma b mb ?_
  have organization : a.organization = b.organization :=
    (grants.unbound a ma).trans (grants.unbound b mb).symm
  unfold Consent.grantKey
  rw [first.1, first.2.1, first.2.2, second.1, second.2.1, second.2.2, organization]

/-- A consent that selects several memberships confines nothing. -/
theorem Confined.single (confined : Confined db app org subject session) {consent : Consent}
    (mem : consent ∈ db.consents) (own : consent.grants app subject session) :
    ∃ member, ActiveMember db org subject member ∧ consent.selectedMemberships = [member.id] := by
  obtain ⟨held, -, -, -, only, member, active, selected⟩ := confined.consent
  obtain rfl := only consent mem own
  exact ⟨member, active, selected⟩

/-! ## The private consent -/

theorem PrivateTo.consent_confined (isPrivate : PrivateTo db app org) (grants : Grants db)
    {consentId : Nat} (current : applicationPrivateConsentIsCurrent db app consentId = true) :
    ∃ consent ∈ db.consents, consent.id = consentId ∧ consent.application = app ∧
      Confined db app org consent.subject consent.parentSession := by
  simp only [applicationPrivateConsentIsCurrent, List.any_eq_true, Bool.and_eq_true,
    decide_eq_true_eq] at current
  obtain ⟨application, held, own, consents⟩ := current
  obtain ⟨hidden, owner⟩ := isPrivate application held own
  simp only [hidden, Bool.not_true, Bool.false_or, Table.any_eq_true, List.any_eq_true,
    Bool.and_eq_true, decide_eq_true_eq] at consents
  obtain ⟨consent, mem, ⟨⟨⟨⟨id, named⟩, active⟩, single⟩, -⟩, member, memberMem, ⟨⟨⟨⟨⟨selected,
    principal⟩, -⟩, organization⟩, memberActive⟩, orgActive⟩, -⟩ := consents
  have grant : consent.grants app consent.subject consent.parentSession :=
    ⟨named.trans own, rfl, rfl⟩
  have one : consent.selectedMemberships = [member.id] := by
    obtain ⟨only, list⟩ := List.length_eq_one_iff.mp single
    have same : member.id = only := by simpa [list] using selected
    rw [list, same]
  refine ⟨consent, mem, id, named.trans own, consent, mem, grant, active, ?_, member, ?_, one⟩
  · exact fun other otherMem otherGrant => grants.grants_unique otherMem mem otherGrant grant
  · exact
      { held := memberMem
        organization := organization.trans owner
        organizationActive := by rw [← owner, ← organization]; exact orgActive
        principal := principal
        active := memberActive }

theorem PrivateTo.allows_member (isPrivate : PrivateTo db app org) {organization : Option Nat}
    (allowed : applicationAllowsSubject db app subject organization = true) :
    (∃ member, ActiveMember db org subject member) ∧
      (organization = none ∨ organization = some org) := by
  simp only [applicationAllowsSubject, List.any_eq_true, Bool.and_eq_true, decide_eq_true_eq]
    at allowed
  obtain ⟨application, held, ⟨⟨own, -⟩, orgActive⟩, member⟩ := allowed
  obtain ⟨hidden, owner⟩ := isPrivate application held own
  simp only [hidden, Bool.not_true, Bool.false_or, List.any_eq_true, Bool.and_eq_true,
    decide_eq_true_eq, Bool.or_eq_true, Option.isNone_iff_eq_none, owner] at member orgActive
  obtain ⟨within, member, memberMem, ⟨⟨organization, principal⟩, active⟩, -⟩ := member
  exact ⟨⟨member, memberMem, organization, orgActive, principal, active⟩, within⟩

theorem PrivateTo.lock_confined (isPrivate : PrivateTo db app org) (grants : Grants db)
    {consentId : Nat} (locked : lockApplicationPrivateConsent db app consentId = true) :
    ∃ consent ∈ db.consents, consent.id = consentId ∧ consent.application = app ∧
      Confined db app org consent.subject consent.parentSession := by
  unfold lockApplicationPrivateConsent at locked
  split at locked
  · simp at locked
  · rename_i application found
    have own : application.id = app := by simpa using List.find?_some found
    have hidden := (isPrivate application (List.mem_of_find?_eq_some found) own).1
    simp only [hidden, Bool.not_true, Bool.false_or] at locked
    exact isPrivate.consent_confined grants locked

/-- Subject authority for a private application is confined. -/
theorem PrivateTo.authority_confined (isPrivate : PrivateTo db app org) (grants : Grants db)
    {consentId : Nat} {binding : SubjectBinding} {authority : SubjectAuthority}
    (found : lockCurrentApplicationOauthSubjectAuthority db now app consentId binding =
      some authority) : Confined db app org binding.subject binding.session := by
  obtain ⟨principal, row, consent, rests⟩ := authorityRests found
  obtain ⟨mem, id, -, own, -, -, -, parent, -⟩ := currentConsent_spec rests.consentFound
  obtain ⟨-, named, -⟩ := activeSubject_spec rests.subjectFound
  obtain ⟨-, rowId, -⟩ := currentSession_spec rests.sessionFound
  obtain ⟨held, heldMem, same, -, confined⟩ := isPrivate.lock_confined grants rests.privateConsent
  obtain rfl := Table.unique heldMem mem (same.trans id.symm)
  rw [own, parent, named, rowId] at confined
  exact confined

/-- A token of a private application only reaches memberships that its consent
confines it to. -/
theorem PrivateTo.reach_confined (isPrivate : PrivateTo db app org) (grants : Grants db)
    {context : DatabaseContext} {membershipId : Nat} {token : AccessToken}
    (mem : token ∈ db.access) (client : token.client = some app)
    (allowed : applicationTokenAllowsMembership db context now token.id membershipId = true) :
    Confined db app org token.subject token.session := by
  obtain ⟨other, otherMem, holds⟩ := Table.any_spec allowed
  simp only [Bool.and_eq_true, decide_eq_true_eq, Table.any_eq_true, List.any_eq_true] at holds
  obtain ⟨⟨⟨same, -⟩, -⟩, consent, consentMem, ⟨covers, -⟩, member, -, -, principal, -, -, row, -, -,
    application, -, ⟨⟨⟨⟨⟨⟨named, -⟩, -⟩, -⟩, -⟩, current⟩, -⟩, -⟩ := holds
  obtain rfl := Table.unique otherMem mem same
  obtain rfl : application.id = app := Option.some.inj (named.trans client)
  obtain ⟨held, heldMem, sameId, -, confined⟩ := isPrivate.consent_confined grants current
  obtain rfl := Table.unique heldMem consentMem sameId
  obtain ⟨-, own, parent⟩ := Consent.ofSession_of_covers covers
  rw [own, parent] at confined
  exact confined

/-- A private audience is only reached for its own members, in its own organization. -/
theorem PrivateTo.audience_member (isPrivate : PrivateTo db app org) {context : DatabaseContext}
    {tokenId : Nat} {endpointId : String}
    (allowed : applicationTokenAllowsExternalScope db context now tokenId app endpointId = true) :
    ∃ token ∈ db.access, token.id = tokenId ∧ (∃ member, ActiveMember db org token.subject member) ∧
      (context.organization = none ∨ context.organization = some org) := by
  simp only [applicationTokenAllowsExternalScope, Table.any_eq_true, List.any_eq_true,
    Bool.and_eq_true, decide_eq_true_eq] at allowed
  obtain ⟨token, mem, ⟨⟨same, -⟩, -⟩, issuer, -, -, audience, -, ⟨⟨⟨⟨⟨⟨own, -⟩, -⟩, -⟩, subject⟩, -⟩,
    -⟩⟩ := allowed
  rw [own] at subject
  exact ⟨token, mem, same, isPrivate.allows_member subject⟩

/-! ## Ways in -/

variable {supplied : List Nat} {access : AccessContext}

theorem PrivateTo.bearer (isPrivate : PrivateTo db app org) (grants : Grants db)
    {tokenClass : TokenClass}
    (done : authenticate db now tokenClass supplied = some access) (client : access.client = some app) :
    Confined db app org access.subject.id access.session := by
  obtain ⟨token, found, done⟩ := Option.bind_eq_some_iff.mp done
  obtain ⟨row, -, done⟩ := Option.bind_eq_some_iff.mp done
  obtain ⟨principal, -, done⟩ := Option.bind_eq_some_iff.mp done
  obtain ⟨current, done⟩ := Option.ite_none_right_eq_some.mp done
  obtain rfl := Option.some.inj done
  simp only [accessCurrent, Bool.and_eq_true] at current
  obtain ⟨⟨⟨⟨⟨⟨⟨private_, -⟩, -⟩, -⟩, -⟩, -⟩, -⟩, -⟩ := current
  obtain ⟨other, otherMem, holds⟩ := Table.any_spec private_
  simp only [Bool.and_eq_true, decide_eq_true_eq] at holds client
  obtain ⟨same, consents⟩ := holds
  obtain rfl := Table.unique otherMem (Table.find?_spec found).1 same
  simp only [client, Table.any_eq_true, Bool.and_eq_true] at consents
  obtain ⟨consent, consentMem, binds, privateConsent⟩ := consents
  simp only [Consent.binds, Bool.and_eq_true, decide_eq_true_eq] at binds
  obtain ⟨⟨⟨⟨⟨-, own⟩, parent⟩, -⟩, -⟩, -⟩ := binds
  obtain ⟨held, heldMem, sameId, -, confined⟩ := isPrivate.consent_confined grants privateConsent
  obtain rfl := Table.unique heldMem consentMem sameId
  rw [own, parent] at confined
  exact confined

variable {client : ApplicationIdentity} {fresh : Fresh}

theorem PrivateTo.codeExchange
    (isPrivate : PrivateTo db client.application org) (grants : Grants db) {row : AuthorizationCodeRow} {result : AppTokenResponse × Db}
    (lookup : authorizationCodeLookup db now client supplied = some row)
    (done : exchangeAuthorizationCode db settings now client supplied fresh = .ok result) :
    Confined db client.application org row.request.subject row.request.session := by
  obtain ⟨other, authority, -, otherLookup, locked, -⟩ := exchangeAuthorizationCode_eq_ok done
  obtain rfl := Option.some.inj (lookup.symm.trans otherLookup)
  exact isPrivate.authority_confined grants locked

theorem PrivateTo.refresh
    (isPrivate : PrivateTo db client.application org) (grants : Grants db) {row : RefreshCandidateRow} {response : AppTokenResponse}
    (lookup : refreshTokenCandidate db client supplied = some row)
    (done : exchangeRefreshToken db settings now client supplied fresh =
      .ok (.issued response, after)) :
    Confined db client.application org row.family.subject row.family.session := by
  obtain ⟨other, otherLookup, -, ⟨-, replayed, -⟩ | ⟨-, -, authority, -, locked, -⟩⟩ :=
    exchangeRefreshToken_eq_ok done
  · cases replayed
  · obtain rfl := Option.some.inj (lookup.symm.trans otherLookup)
    exact isPrivate.authority_confined grants locked

theorem PrivateTo.introspectRefresh
    (isPrivate : PrivateTo db client.application org) (grants : Grants db)
    {orgContext : Option String} {answer : Introspection} {row : RefreshCandidateRow}
    (lookup : refreshTokenCandidate db client supplied = some row)
    (done : introspectRefreshToken db now client supplied orgContext = some answer) :
    Confined db client.application org row.family.subject row.family.session := by
  obtain ⟨authority, locked, -⟩ := introspectRefreshToken_spec lookup done
  exact isPrivate.authority_confined grants locked

/-- The token something goes back to, with the subject it serves. -/
def ServesThrough (db : Db) (app org tokenId subject : Nat) : Prop :=
  ∃ token ∈ db.access, token.id = tokenId ∧ token.subject = subject ∧
    Confined db app org subject token.session

theorem PrivateTo.issuerExchange
    (isPrivate : PrivateTo db client.application org) (grants : Grants db)
    {request : OboExchangeRequest} {replayed : Option Nat}
    {result : Option OboProofResponse × Db}
    (done : oboExchange db now client access request replayed fresh = .ok result) :
    ServesThrough db client.application org access.token access.subject.id := by
  obtain ⟨-, -, organization, membership, authority, -, locked, -⟩ := oboExchange_eq_ok done
  obtain ⟨parent, from_, -⟩ := exchangeAuthority_spec locked
  have confined := isPrivate.reach_confined grants from_.held from_.client from_.reaches
  rw [from_.subject] at confined
  exact ⟨parent, from_.held, from_.own, from_.subject, confined⟩

theorem PrivateTo.issuerVerify (grants : Grants db) {request : OboVerifyRequest} {result : OboAccessResult}
    (done : oboVerify db now client supplied request = .ok (result, after))
    (isPrivate : PrivateTo db result.proof.issuerApplication org) :
    ServesThrough db result.proof.issuerApplication org result.proof.parentAccessToken
      result.proof.subject := by
  obtain ⟨current, verified, -⟩ := oboVerify_eq_ok done
  obtain ⟨token, mem, own, subject, -, allowed⟩ := snapshot_token verified.snapshot
  obtain ⟨parent, parentMem, parentCurrent⟩ := (VerifiedNow.of_verified grants done).parent
  obtain rfl := Table.unique mem parentMem (own.trans parentCurrent.id.symm)
  have confined := isPrivate.reach_confined grants mem parentCurrent.client allowed
  rw [subject] at confined
  exact ⟨token, mem, own, subject, confined⟩

theorem PrivateTo.audienceExchange
    {request : OboExchangeRequest} {replayed : Option Nat}
    {result : Option OboProofResponse × Db}
    (done : oboExchange db now client access request replayed fresh = .ok result) :
    ∃ audience ∈ db.directory.applications, audience.appId = request.audience ∧
      ∀ org, PrivateTo db audience.id org → ∃ member, ActiveMember db org access.subject.id member := by
  obtain ⟨-, -, organization, membership, authority, -, locked, -⟩ := oboExchange_eq_ok done
  obtain ⟨parent, from_, audience, held, named, external⟩ := exchangeAuthority_spec locked
  refine ⟨audience, held, named, fun org isPrivate => ?_⟩
  obtain ⟨token, mem, same, member, -⟩ := isPrivate.audience_member external
  obtain rfl := Table.unique mem from_.held same
  rw [from_.subject] at member
  exact member

theorem PrivateTo.audienceVerify
    (isPrivate : PrivateTo db client.application org)
    {request : OboVerifyRequest} {result : OboAccessResult}
    (done : oboVerify db now client supplied request = .ok (result, after)) :
    (∃ member, ActiveMember db org result.proof.subject member) ∧
      result.proof.organization = org := by
  obtain ⟨current, verified, -⟩ := oboVerify_eq_ok done
  have epochs := verified.epochs
  have context := verified.context
  simp only [applicationOboLoadCurrentContext, Option.bind_eq_bind, Option.bind_eq_some_iff]
    at context
  obtain ⟨_, -, _, -, _, -, _, -, _, -, _, -, _, -, _, -, _, -, same⟩ := context
  obtain rfl := Option.some.inj same
  simp only [CurrentProofContext.matches, Bool.and_eq_true] at epochs
  obtain ⟨parent, parentMem, holds⟩ := Table.any_spec epochs.2
  simp only [Bool.and_eq_true, decide_eq_true_eq] at holds
  obtain ⟨⟨⟨⟨⟨⟨⟨⟨-, -⟩, subject⟩, -⟩, -⟩, -⟩, -⟩, -⟩, external⟩ := holds.1
  obtain ⟨token, mem, own, member, organization⟩ := isPrivate.audience_member external
  obtain rfl := Table.unique mem parentMem own
  rw [subject] at member
  exact ⟨member, by simpa [subjectContext] using organization⟩

/-- An authorization that an introspection discloses. -/
def Introspection.discloses (answer : Introspection) (authorization : ApplicationAuthorization) :
    Prop :=
  answer.authorization = some authorization ∨
    ∃ listed, answer.authorizations = some listed ∧ authorization ∈ listed

theorem listed_reaches {context : DatabaseContext} {listed : List ApplicationAuthorization}
    {authorization : ApplicationAuthorization}
    (done : listCurrentApplicationAuthorizations db context now access client = some listed)
    (mem : authorization ∈ listed) :
    ∃ membership, applicationTokenAllowsMembership db context now access.token membership =
      true := by
  simp only [listCurrentApplicationAuthorizations, Option.bind_eq_bind, Option.bind_eq_some_iff]
    at done
  obtain ⟨⟨token, subject⟩, -, same⟩ := done
  obtain rfl := Option.some.inj same
  obtain ⟨member, -, found⟩ := List.mem_filterMap.mp mem
  simp only [Option.bind_eq_some_iff] at found
  obtain ⟨organization, -, publicId, -, shown⟩ := found
  split at shown
  · rename_i reached
    simp only [Bool.and_eq_true] at reached
    exact ⟨member.id, reached.2⟩
  · simp at shown

theorem PrivateTo.introspected
    (isPrivate : PrivateTo db client.application org) (grants : Grants db)
    {orgContext : Option String} {answer : Introspection} {authorization : ApplicationAuthorization}
    (done : introspect db now client access orgContext = some answer)
    (disclosed : answer.discloses authorization) :
    Confined db client.application org access.subject.id access.session := by
  unfold introspect at done
  split at done
  · simp at done
  split at done
  · simp at done
  simp only [Option.bind_eq_bind, Option.bind_eq_some_iff] at done
  obtain ⟨metadata, found, selection, -, done⟩ := done
  obtain ⟨token, mem, own, named, subject, sessionId, -⟩ := metadata_token found
  obtain ⟨context, membership, reached⟩ : ∃ context membership,
      applicationTokenAllowsMembership db context now access.token membership = true := by
    split at done
    · split at done
      · rename_i snapshot
        obtain ⟨other, -, same, -, -, allowed⟩ := snapshot_token snapshot
        exact ⟨_, _, same ▸ allowed⟩
      · simp at done
    · obtain ⟨listed, listing, same⟩ := Option.bind_eq_some_iff.mp done
      obtain rfl := Option.some.inj same
      rcases disclosed with one | ⟨several, same, member⟩
      · simp at one
      · obtain rfl := Option.some.inj same
        exact ⟨_, listed_reaches listing member⟩
  rw [← own] at reached
  have confined := isPrivate.reach_confined grants mem named reached
  rw [subject, sessionId] at confined
  exact confined

/-! ## Approvals -/

/-- The public identifiers of organizations are unique. -/
def UniqueOrgIds (directory : Directory) : Prop :=
  ∀ a ∈ directory.organizations, ∀ b ∈ directory.organizations, a.orgId = b.orgId → a = b

theorem privateApplication_of_mem {application : Application}
    (mem : application ∈ db.directory.applications)
    (isPrivate : PrivateTo db application.id org) : privateApplication db application.id = true := by
  refine List.any_eq_true.mpr ⟨application, mem, ?_⟩
  simp [(isPrivate application mem rfl).1]

/-- A private application is only given a membership in its own organization. -/
theorem PrivateTo.selection {application : Application}
    (isPrivate : PrivateTo db application.id org) (unique : UniqueOrgIds db.directory)
    (mem : application ∈ db.directory.applications) {orgIds : List String} {selected : List Nat}
    (done : lockAccountLoginOrganizationSelection db now subject session orgIds application.id =
      .ok selected) (complete : selected.length = orgIds.length) :
    ∃ member, ActiveMember db org subject member ∧ selected = [member.id] := by
  unfold lockAccountLoginOrganizationSelection at done
  split at done
  · simp at done
  split at done
  · simp at done
  rename_i refused
  rw [privateApplication_of_mem mem isPrivate, Bool.true_and, Bool.not_eq_true',
    Bool.not_eq_false] at refused
  unfold ownOrganizationOnly at refused
  split at refused
  · rename_i orgId _
    simp only [List.any_eq_true, Bool.and_eq_true, decide_eq_true_eq] at refused
    obtain ⟨row, rowMem, same, own, ownMem, ⟨owner, named⟩, allowed⟩ := refused
    rw [← same] at isPrivate
    obtain ⟨-, ownedBy⟩ := isPrivate row rowMem rfl
    simp only [List.isEmpty_cons, Bool.not_false, if_true, Except.ok.injEq] at done
    unfold lockLoginOrganizationSelection at done
    split at done
    · obtain ⟨only, list⟩ := List.length_eq_one_iff.mp complete
      rw [← done] at list
      obtain ⟨member, found, rest⟩ := List.map_eq_singleton_iff.mp list
      have picked : member ∈ db.directory.memberships.filter fun member =>
          member.principal = subject && member.active &&
            db.directory.organizations.any fun org =>
              org.id = member.organization && org.active && [orgId].contains org.orgId := by
        rw [found]
        exact List.mem_singleton_self member
      obtain ⟨held, holds⟩ := List.mem_filter.mp picked
      simp only [Bool.and_eq_true, decide_eq_true_eq, List.any_eq_true] at holds
      obtain ⟨⟨principal, active⟩, chosen, chosenMem, ⟨id, orgActive⟩, listed⟩ := holds
      have sameOrg : chosen = own :=
        unique chosen chosenMem own ownMem (by simpa [named] using listed)
      rw [sameOrg, owner, ownedBy] at id
      refine ⟨member, ⟨held, id.symm, ?_, principal, active⟩, ?_⟩
      · refine List.any_eq_true.mpr ⟨chosen, chosenMem, ?_⟩
        simp [sameOrg, owner, ownedBy, ← orgActive]
      · rw [← done, found]
        rfl
    · rw [← done] at complete
      simp at complete
  · simp at refused

/-- Approving for a private application leaves what was selected now. -/
theorem consentUpsert_replaces (grants : Grants db) {request : AuthorizationRequest}
    {selected : List Nat} (unbound : request.organization = none)
    (isPrivate : privateApplication db request.application = true)
    (done : consentUpsert db request selected fresh = some after) :
    ∀ consent ∈ after.consents,
      consent.grants request.application request.subject request.session →
        consent.selectedMemberships = selected.dedup := by
  intro consent mem own
  simp only [consentUpsert, isPrivate] at done
  have conflicts (old : Consent) (held : old ∈ db.consents)
      (granted : old.grants request.application request.subject request.session) :
      Consent.forRequest request old = true := by
    simp [Consent.forRequest, granted.1, granted.2.1, granted.2.2, unbound, grants.unbound old held]
  split at done
  · obtain rfl := Option.some.inj done
    obtain ⟨old, held, rfl⟩ := Table.of_mem_updated mem rfl
    split
    · rfl
    · rename_i other
      rw [if_neg other] at own
      exact absurd (conflicts old held own) other
  · rename_i fresh_
    obtain ⟨-, -, consents, inserted, rfl⟩ := insertConsent_eq_some done
    rcases ((Table.insert_spec inserted).2 consent).mp mem with rfl | held
    · rfl
    · exact absurd (Table.any_eq_true.mpr ⟨consent, held, conflicts consent held own⟩) fresh_

theorem approveRequest_consents {request : AuthorizationRequest} {selected : List Nat} (done : approveRequest db settings now request selected fresh = .ok after) :
    ∃ granted, consentUpsert db request selected fresh = some granted ∧
      after.consents = granted.consents := by
  unfold approveRequest at done
  split at done
  · simp at done
  · rename_i granted granting
    refine ⟨granted, granting, ?_⟩
    simp only at done
    split at done
    · split at done
      · simp at done
      · rename_i issued issuing
        obtain rfl := Except.ok.inj done
        obtain ⟨-, codes, -, rfl⟩ := insertCode_eq_some issuing
        rfl
    · simp at done

theorem PrivateTo.approval (grants : Grants db) (unique : UniqueOrgIds db.directory) {input : ShortLivedTokenRequest}
    (done : issueForSelection db settings now access input fresh = .ok after) :
    ∃ application ∈ db.directory.applications, application.appId = input.appId ∧
      ∀ org, PrivateTo db application.id org →
        ∃ member, ActiveMember db org access.subject.id member ∧
          ∀ consent ∈ after.consents,
            consent.grants application.id access.subject.id access.session →
              consent.selectedMemberships = [member.id] := by
  unfold issueForSelection at done
  split at done
  · simp at done
  split at done
  · simp at done
  rename_i application found
  have named := List.find?_some found
  simp only [Bool.and_eq_true, decide_eq_true_eq] at named
  refine ⟨application, List.mem_of_find?_eq_some found, named.1.1.1, fun org isPrivate => ?_⟩
  split at done
  · simp at done
  split at done
  · simp at done
  split at done
  · simp at done
  rename_i selected selecting
  split at done
  · simp at done
  rename_i complete
  obtain ⟨member, active, rfl⟩ := isPrivate.selection unique (List.mem_of_find?_eq_some found)
    selecting (not_not.mp complete)
  refine ⟨member, active, fun consent mem own => ?_⟩
  simp only [mintShortLivedToken] at done
  split at done
  · simp at done
  · rename_i requested requesting
    obtain ⟨-, -, requests, -, rfl⟩ := insertRequest_eq_some requesting
    obtain ⟨granted, granting, same⟩ := approveRequest_consents done
    rw [same] at mem
    have replaced : consent.selectedMemberships = [member.id].dedup := by
      refine consentUpsert_replaces ?_ rfl ?_ granting consent mem own
      · exact ⟨grants.unique, grants.unbound⟩
      · exact privateApplication_of_mem (List.mem_of_find?_eq_some found) isPrivate
    rw [replaced, List.Nodup.dedup (List.nodup_singleton _)]

/-! ## Events -/

/-- The application's organization is the event's, and a consent of the event's time
selects a membership that its subject then had there. -/
def EventAuthority (db : Db) (rows : WebhookRows) (app org at_ : Nat) : Prop :=
  ∃ consent ∈ db.consents, consent.application = app ∧ consentAt at_ consent = true ∧
    ∃ member ∈ db.directory.memberships, member.id ∈ consent.selectedMemberships ∧
      member.principal = consent.subject ∧ member.organization = org ∧
        memberAt rows at_ member = true

theorem PrivateTo.visible (isPrivate : PrivateTo db app org) {organization : Option Nat}
    {application : Application} (mem : application ∈ db.directory.applications)
    (own : application.id = app) (visible : visibleTo organization application = true) :
    organization = some org := by
  obtain ⟨hidden, owner⟩ := isPrivate application mem own
  simpa [visibleTo, hidden, owner] using visible

theorem captured_authority {rows : WebhookRows} {event : OutboxEvent} {recipient : Nat × Nat}
    (selected : recipient ∈ listWorkerCapturedApplicationWebhookRecipients db rows now event) :
    ∃ endpoint ∈ rows.endpoints, endpoint.id = recipient.1 ∧ endpoint.active = true ∧
      ∀ org, PrivateTo db endpoint.application org → event.organization = none ∨
        event.organization = some org ∧
          EventAuthority db rows endpoint.application org event.createdAt := by
  obtain ⟨-, projection, -, -, application, mem, -, holds, endpoint, held, belongs, active, key, -,
    rfl⟩ := mem_capturedRecipients.mp selected
  refine ⟨endpoint, held, rfl, active, fun org isPrivate => ?_⟩
  rw [belongs] at isPrivate ⊢
  simp only [capturedFor, Bool.and_eq_true] at holds
  obtain ⟨-, ruled⟩ := holds
  split at ruled
  · rename_i absent
    exact .inl absent
  · rename_i organization named
    simp only [Bool.and_eq_true, consentedAt, Table.any_eq_true, List.any_eq_true,
      decide_eq_true_eq] at ruled
    obtain ⟨visible, consent, consentMem, ⟨granted, current⟩, member, memberMem, ⟨⟨picked,
      principal⟩, within⟩, present⟩ := ruled
    obtain rfl := Option.some.inj (isPrivate.visible mem rfl visible)
    exact .inr ⟨named, consent, consentMem, granted, current, member, memberMem,
      by simpa using picked, principal, within, present⟩

theorem scoped_authority {rows : WebhookRows} {endpointId at_ : Nat} {organization : Option Nat}
    {event : String} (needsScope : unscopedEvent event = false)
    (selected : applicationWebhookHasEventScope db rows endpointId organization event at_ = true) :
    ∃ endpoint ∈ rows.endpoints, endpoint.id = endpointId ∧
      ∀ org, PrivateTo db endpoint.application org →
        organization = some org ∧ EventAuthority db rows endpoint.application org at_ := by
  simp only [applicationWebhookHasEventScope, needsScope, Bool.false_or] at selected
  split at selected
  · simp only [List.any_eq_true, Bool.and_eq_true, decide_eq_true_eq, scopedConsentAt,
      Table.any_eq_true] at selected
    obtain ⟨endpoint, held, ⟨own, application, mem, named, visible⟩, consent, consentMem,
      ⟨⟨⟨⟨granted, -⟩, current⟩, -⟩, -⟩, member, memberMem, ⟨⟨⟨picked, principal⟩, within⟩,
        present⟩, -⟩ := selected
    refine ⟨endpoint, held, own, fun org isPrivate => ?_⟩
    obtain rfl := Option.some.inj (isPrivate.visible mem named visible)
    exact ⟨rfl, consent, consentMem, granted, current, member, memberMem, by simpa using picked,
      principal, within, present⟩
  · simp at selected

/-- What a state serves for private applications. -/
structure PrivateApplicationsHeld (settings : SecuritySettings) (db : Db) : Prop where
  /-- The access token of a private application. -/
  bearer : ∀ now tokenClass supplied access app org, PrivateTo db app org →
    authenticate db now tokenClass supplied = some access → access.client = some app →
      Confined db app org access.subject.id access.session
  code : ∀ now (client : ApplicationIdentity) supplied fresh row result org,
    PrivateTo db client.application org → authorizationCodeLookup db now client supplied = some row →
      exchangeAuthorizationCode db settings now client supplied fresh = .ok result →
        Confined db client.application org row.request.subject row.request.session
  refresh : ∀ now (client : ApplicationIdentity) supplied fresh row response after org,
    PrivateTo db client.application org → refreshTokenCandidate db client supplied = some row →
      exchangeRefreshToken db settings now client supplied fresh = .ok (.issued response, after) →
        Confined db client.application org row.family.subject row.family.session
  /-- An OBO exchange by a private application. -/
  exchange : ∀ now (client : ApplicationIdentity) (access : AccessContext) request replayed fresh
    result org, PrivateTo db client.application org →
      oboExchange db now client access request replayed fresh = .ok result →
        ServesThrough db client.application org access.token access.subject.id
  /-- The verification of a proof that a private application exchanged. -/
  verify : ∀ now client supplied request (result : OboAccessResult) after org,
    oboVerify db now client supplied request = .ok (result, after) →
      PrivateTo db result.proof.issuerApplication org →
        ServesThrough db result.proof.issuerApplication org result.proof.parentAccessToken
          result.proof.subject
  /-- A private audience is exchanged for, and verifies, for its own members. -/
  audience : ∀ now client (access : AccessContext) (request : OboExchangeRequest) replayed fresh
    result, oboExchange db now client access request replayed fresh = .ok result →
      ∃ audience ∈ db.directory.applications, audience.appId = request.audience ∧
        ∀ org, PrivateTo db audience.id org →
          ∃ member, ActiveMember db org access.subject.id member
  audienceVerify : ∀ now (client : ApplicationIdentity) supplied request (result : OboAccessResult)
    after org, PrivateTo db client.application org →
      oboVerify db now client supplied request = .ok (result, after) →
        (∃ member, ActiveMember db org result.proof.subject member) ∧
          result.proof.organization = org
  introspected : ∀ now (client : ApplicationIdentity) (access : AccessContext) orgContext answer
    authorization org, PrivateTo db client.application org →
      introspect db now client access orgContext = some answer →
        answer.discloses authorization →
          Confined db client.application org access.subject.id access.session
  introspectedRefresh : ∀ now (client : ApplicationIdentity) supplied orgContext answer row org,
    PrivateTo db client.application org → refreshTokenCandidate db client supplied = some row →
      introspectRefreshToken db now client supplied orgContext = some answer →
        Confined db client.application org row.family.subject row.family.session
  /-- A selection of several memberships confines no subject and no session. -/
  widened : ∀ consent ∈ db.consents, 1 < consent.selectedMemberships.length →
    ∀ app org subject session, consent.grants app subject session →
      ¬ Confined db app org subject session
  /-- An approval leaves a private application one membership of its organization. -/
  approval : UniqueOrgIds db.directory → ∀ now (access : AccessContext)
    (input : ShortLivedTokenRequest) fresh after,
      issueForSelection db settings now access input fresh = .ok after →
        ∃ application ∈ db.directory.applications, application.appId = input.appId ∧
          ∀ org, PrivateTo db application.id org →
            ∃ member, ActiveMember db org access.subject.id member ∧
              ∀ consent ∈ after.consents,
                consent.grants application.id access.subject.id access.session →
                  consent.selectedMemberships = [member.id]
  /-- An event goes by its own time. -/
  captured : ∀ now rows event,
    ∀ recipient ∈ listWorkerCapturedApplicationWebhookRecipients db rows now event,
      ∃ endpoint ∈ rows.endpoints, endpoint.id = recipient.1 ∧ endpoint.active = true ∧
        ∀ org, PrivateTo db endpoint.application org → event.organization = none ∨
          event.organization = some org ∧
            EventAuthority db rows endpoint.application org event.createdAt
  byScope : ∀ rows endpointId organization event at_, unscopedEvent event = false →
    applicationWebhookHasEventScope db rows endpointId organization event at_ = true →
      ∃ endpoint ∈ rows.endpoints, endpoint.id = endpointId ∧
        ∀ org, PrivateTo db endpoint.application org →
          organization = some org ∧ EventAuthority db rows endpoint.application org at_

end Private

/-- In every run, what a private application is served is served to the members of
its organization under a consent for that membership alone; events go by their own
time. -/
theorem private_applications_held (settings : SecuritySettings) (directory : Directory)
    (actions : List Action) :
    PrivateApplicationsHeld settings (Runs.after (next settings) (.empty directory) actions) := by
  have grants : Grants (Runs.after (next settings) (.empty directory) actions) :=
    (Grants.empty directory).runs actions
  exact
    { bearer := fun _ _ _ _ _ _ isPrivate done client => isPrivate.bearer grants done client
      code := fun _ _ _ _ _ _ _ isPrivate lookup done => isPrivate.codeExchange grants lookup done
      refresh := fun _ _ _ _ _ _ _ _ isPrivate lookup done => isPrivate.refresh grants lookup done
      exchange := fun _ _ _ _ _ _ _ _ isPrivate done => isPrivate.issuerExchange grants done
      verify := fun _ _ _ _ _ _ _ done isPrivate => PrivateTo.issuerVerify grants done isPrivate
      audience := fun _ _ _ _ _ _ _ done => PrivateTo.audienceExchange done
      audienceVerify := fun _ _ _ _ _ _ _ isPrivate done => isPrivate.audienceVerify done
      introspected := fun _ _ _ _ _ _ _ isPrivate done shown =>
        isPrivate.introspected grants done shown
      introspectedRefresh := fun _ _ _ _ _ _ _ isPrivate lookup done =>
        isPrivate.introspectRefresh grants lookup done
      widened := by
        intro consent mem several app org subject session own confined
        obtain ⟨member, -, one⟩ := confined.single mem own
        simp [one] at several
      approval := fun unique _ _ _ _ _ done => PrivateTo.approval grants unique done
      captured := fun _ _ _ _ selected => captured_authority selected
      byScope := fun _ _ _ _ _ needsScope selected => scoped_authority needsScope selected }

namespace Scenario

/-- The application is private, and Ada's membership is gone when `gone` says so. -/
def privateDirectory (gone : Bool) : Directory :=
  { directory with
    applications := directory.applications.map fun application =>
      { application with isPrivate := application.id = 4 }
    memberships := directory.memberships.map fun member => { member with active := !gone } }

/-- Ada logs in to the private application and is removed at 45. -/
def removal : List Action := login ++ [.configure 45 (privateDirectory true)]

def webhookRows : WebhookRows where
  endpoints := [{ id := 70, application := 4, active := true }]
  signingKeys :=
    [{ id := 71, endpoint := 70, application := 4, status := .active, retiresAt := none
       secretVersion := 1 }]
  projections := [{ outboxEvent := 80, application := 4 }]
  membershipEnds := [{ row := 3, endedAt := some 45, suspendedAt := none }]
  principalEnds := []
  approvals := []
  grants := []

def membershipUpdated : OutboxEvent where
  id := 80
  eventType := "organization.membership.updated.v1"
  organization := some 2
  createdAt := 40

end Scenario

open Scenario in
/-- An event of before the removal is delivered after it: the private application is
selected although the subject is no member any more. -/
theorem removed_member_still_selects :
    ¬ ∀ (settings : SecuritySettings) (directory : Directory) (actions : List Action)
      (rows : WebhookRows) (now : Nat) (event : OutboxEvent) (recipient : Nat × Nat) (app org : Nat),
      recipient ∈ listWorkerCapturedApplicationWebhookRecipients
          (Runs.after (next settings) (.empty directory) actions) rows now event →
        { id := recipient.1, application := app, active := true } ∈ rows.endpoints →
        PrivateTo (Runs.after (next settings) (.empty directory) actions) app org →
          ∃ subject session,
            Confined (Runs.after (next settings) (.empty directory) actions) app org subject
              session := by
  intro claimed
  let db := Runs.after (next ttls) (.empty (privateDirectory false)) removal
  have selected : listWorkerCapturedApplicationWebhookRecipients db webhookRows 50
      membershipUpdated = [(70, 71)] := by
    decide +kernel
  have owned : ∀ application ∈ db.directory.applications, application.id = 4 →
      application.isPrivate = true ∧ application.organization = 2 := by
    decide +kernel
  have gone : ∀ member ∈ db.directory.memberships, member.active = false := by
    decide +kernel
  obtain ⟨subject, session, confined⟩ := claimed ttls (privateDirectory false) removal webhookRows 50
    membershipUpdated (70, 71) 4 2 (by rw [selected]; exact List.mem_singleton_self _)
    (List.mem_singleton_self _) owned
  obtain ⟨consent, -, -, -, -, member, active, -⟩ := confined.consent
  cases active.active.symm.trans (gone member active.held)

end SiliconIam.Auth.Authority
