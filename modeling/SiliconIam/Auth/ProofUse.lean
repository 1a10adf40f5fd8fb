/-
# Auth.ProofUse -- an OBO proof is verified once, for what it was issued for

`VerifiedNow` is what holds at a successful verification: the request is the one the
proof is bound to, and everything the proof was issued under is current.  The
verification consumes the proof, so it is the only one (`verifications`); one that
fails writes nothing.

The bound columns are those the exchange wrote (`verified_as_issued`).
-/
import SiliconIam.Auth.ScopeCeiling

namespace SiliconIam.Auth.Authority

open SiliconIam.Theory

set_option autoImplicit false

section Proofs

variable {settings : SecuritySettings} {now : Nat} {db after : Db} {client : ApplicationIdentity}
  {supplied : List Nat} {request : OboVerifyRequest} {result : OboAccessResult}

/-! ## What a verification rests on -/

/-- The application is registered and active, at this epoch. -/
def CurrentApplication (db : Db) (id epoch : Nat) : Prop :=
  (∃ application ∈ db.directory.applications, application.id = id ∧ application.current = true) ∧
    ∃ principal ∈ db.principals, principal.id = id ∧ principal.kind = .application ∧
      principal.status = .active ∧ principal.authEpoch = epoch

/-- The token a proof was exchanged for is usable, in a current session and under a
consent that still selects the membership and grants the endpoint's scope. -/
structure ParentCurrent (db : Db) (now : Nat) (proof : OboProof) (parent : AccessToken) : Prop where
  id : parent.id = proof.parentAccessToken
  client : parent.client = some proof.issuerApplication
  subject : parent.subject = proof.subject
  unrevoked : parent.revokedAt = none
  unexpired : now < parent.expiresAt
  subjectEpoch : parent.subjectAuthEpoch = proof.subjectAuthEpoch
  clientEpoch : parent.clientAuthEpoch = some proof.issuerAuthEpoch
  session : CurrentSession db now parent.session
  consent : ∃ consent ∈ db.consents, consent.covers parent = true ∧
    proof.membership ∈ consent.selectedMemberships ∧
      ∃ audience ∈ db.directory.applications, audience.id = proof.audienceApplication ∧
        oboScope audience proof.endpointId ∈ consent.scopes

/-- What holds when a proof is verified. -/
structure VerifiedNow (db : Db) (now : Nat) (client : ApplicationIdentity)
    (request : OboVerifyRequest) (proof : OboProof) : Prop where
  held : proof ∈ db.proofs
  unconsumed : proof.consumedAt = none
  unrevoked : proof.revokedAt = none
  unexpired : now < proof.expiresAt
  audience : proof.audienceApplication = client.application
  method : request.method = proof.requestMethod
  path : request.path = proof.requestPath
  body : request.bodySha256 = proof.requestBodySha256
  parent : ∃ parent ∈ db.access, ParentCurrent db now proof parent
  subject : ∃ principal ∈ db.principals, principal.id = proof.subject ∧
    principal.status = .active ∧ principal.authEpoch = proof.subjectAuthEpoch
  member : ∃ member ∈ db.directory.memberships, member.id = proof.membership ∧
    member.organization = proof.organization ∧ member.principal = proof.subject ∧
      member.active = true ∧ member.authzEpoch = proof.membershipAuthzEpoch
  issuer : CurrentApplication db proof.issuerApplication proof.issuerAuthEpoch
  audienceCurrent : CurrentApplication db proof.audienceApplication proof.audienceAuthEpoch
  endpoint : ∃ endpoint ∈ db.directory.endpoints,
    endpoint.application = proof.audienceApplication ∧ endpoint.endpointId = proof.endpointId ∧
      endpoint.path = proof.requestPath ∧ endpoint.version = proof.endpointVersion ∧
        endpoint.active = true

theorem currentApplication_spec {id : Nat} {application : Application}
    (found : currentApplication db id = some application) :
    application ∈ db.directory.applications ∧ application.id = id ∧ application.current = true := by
  have holds := List.find?_some found
  simp only [Bool.and_eq_true, decide_eq_true_eq] at holds
  exact ⟨List.mem_of_find?_eq_some found, holds.1, holds.2⟩

theorem activePrincipal_spec {id : Nat} {kind : PrincipalKind} {principal : Principal}
    (found : activePrincipal db id kind = some principal) :
    principal ∈ db.principals ∧ principal.id = id ∧ principal.kind = kind ∧
      principal.status = .active := by
  obtain ⟨mem, holds⟩ := Table.find?_spec found
  simp only [Bool.and_eq_true, decide_eq_true_eq] at holds
  exact ⟨mem, holds.1.1, holds.1.2, holds.2⟩

theorem CurrentApplication.of_found {id : Nat} {application : Application} {principal : Principal}
    (application_ : currentApplication db id = some application)
    (principal_ : activePrincipal db application.id .application = some principal) :
    CurrentApplication db id principal.authEpoch := by
  obtain ⟨mem, own, current⟩ := currentApplication_spec application_
  obtain ⟨principalMem, named, kind, active⟩ := activePrincipal_spec principal_
  exact ⟨⟨application, mem, own, current⟩, principal, principalMem, named.trans own, kind, active,
    rfl⟩

/-- The consent through which a token reaches a membership. -/
theorem allowsMembership_consent {context : DatabaseContext} {tokenId membershipId : Nat}
    {token : AccessToken} (mem : token ∈ db.access) (own : token.id = tokenId)
    (allowed : applicationTokenAllowsMembership db context now tokenId membershipId = true) :
    CurrentSession db now token.session ∧
      ∃ consent ∈ db.consents, consent.covers token = true ∧
        membershipId ∈ consent.selectedMemberships := by
  constructor
  · obtain ⟨other, otherMem, same, current⟩ := CurrentSession.of_allowsMembership allowed
    obtain rfl := Table.unique otherMem mem (same.trans own.symm)
    exact current
  · obtain ⟨other, otherMem, holds⟩ := Table.any_spec allowed
    simp only [Bool.and_eq_true, decide_eq_true_eq] at holds
    obtain ⟨⟨⟨same, -⟩, -⟩, consents⟩ := holds
    obtain rfl := Table.unique otherMem mem (same.trans own.symm)
    obtain ⟨consent, consentMem, holds⟩ := Table.any_spec consents
    simp only [Bool.and_eq_true, List.contains_eq_mem, decide_eq_true_eq] at holds
    exact ⟨consent, consentMem, holds.1.1, holds.1.2⟩

theorem Consent.ofSession_of_covers {token : AccessToken} {consent : Consent}
    (covers : consent.covers token = true) : consent.ofSession token := by
  simp only [Consent.covers, Consent.binds, Bool.and_eq_true, decide_eq_true_eq] at covers
  obtain ⟨⟨⟨⟨⟨⟨application, subject⟩, session⟩, -⟩, -⟩, -⟩, -⟩ := covers
  exact ⟨application.symm, subject, session⟩

/-- The parent of a verified proof. -/
theorem parentActive_spec (grants : Grants db) {context : DatabaseContext} {proof : OboProof}
    {subject issuer : Principal} {member : Membership} {audience : Nat}
    (own : proof.audienceApplication = audience)
    (subjectEpoch : subject.authEpoch = proof.subjectAuthEpoch)
    (issuerEpoch : issuer.authEpoch = proof.issuerAuthEpoch)
    (active : parentActive db context now proof subject issuer member audience = true) :
    ∃ parent ∈ db.access, ParentCurrent db now proof parent := by
  obtain ⟨parent, mem, holds⟩ := Table.any_spec active
  simp only [Bool.and_eq_true, decide_eq_true_eq] at holds
  obtain ⟨⟨⟨⟨⟨⟨⟨⟨id, issued⟩, named⟩, epoch⟩, -⟩, clientEpoch⟩, usable⟩, reaches⟩, allowed⟩ := holds.1
  obtain ⟨unrevoked, unexpired⟩ := AccessToken.unexpired_spec usable
  obtain ⟨session, consent, consentMem, covers, selected⟩ :=
    allowsMembership_consent mem rfl reaches
  obtain ⟨token, tokenMem, same, row, rowMem, rowOwn, within⟩ := externalScope_within grants allowed
  obtain rfl := Table.unique tokenMem mem same
  obtain ⟨other, otherMem, ofSession, -, -, granted⟩ := within.consented
  obtain rfl := grants.ofSession_unique otherMem consentMem ofSession
    (Consent.ofSession_of_covers covers)
  exact ⟨token, mem,
    { id := id
      client := issued
      subject := named
      unrevoked := unrevoked
      unexpired := unexpired
      subjectEpoch := epoch.trans subjectEpoch
      clientEpoch := clientEpoch.trans (congrArg some issuerEpoch)
      session := session
      consent := ⟨other, otherMem, covers, selected, row, rowMem, rowOwn.trans own.symm, granted⟩ }⟩

theorem VerifiedNow.of_verified (grants : Grants db)
    (done : oboVerify db now client supplied request = .ok (result, after)) :
    VerifiedNow db now client request result.proof := by
  obtain ⟨current, verified, -⟩ := oboVerify_eq_ok done
  obtain ⟨mem, named⟩ := Table.find?_spec verified.lookup
  simp only [Bool.and_eq_true, decide_eq_true_eq] at named
  have own := named.1.1.2
  have binding := verified.binding
  simp only [requestBindingMatches, Bool.and_eq_true, decide_eq_true_eq] at binding
  have epochs := verified.epochs
  have endpointActive := verified.endpoint
  have context := verified.context
  simp only [applicationOboLoadCurrentContext, Option.bind_eq_bind, Option.bind_eq_some_iff]
    at context
  obtain ⟨org, orgFound, member, memberFound, subject, subjectFound, publicId, -, issuer,
    issuerFound, issuerPrincipal, issuerActive, audience, audienceFound, audiencePrincipal,
    audienceActive, endpoint, endpointFound, same⟩ := context
  obtain rfl := Option.some.inj same
  simp only [CurrentProofContext.matches, Bool.and_eq_true, decide_eq_true_eq] at epochs
  simp only [Bool.and_eq_true, decide_eq_true_eq] at endpointActive
  obtain ⟨⟨⟨⟨subjectEpoch, memberEpoch⟩, issuerEpoch⟩, audienceEpoch⟩, active⟩ := epochs
  have orgHolds := List.find?_some orgFound
  have memberHolds := List.find?_some memberFound
  have endpointHolds := List.find?_some endpointFound
  simp only [Bool.and_eq_true, decide_eq_true_eq] at orgHolds memberHolds endpointHolds
  obtain ⟨⟨⟨⟨memberOrg, memberId⟩, memberPrincipal⟩, -⟩, memberActive⟩ := memberHolds
  obtain ⟨subjectMem, subjectId, -, subjectStatus⟩ := activePrincipal_spec subjectFound
  obtain ⟨-, audienceId, -⟩ := currentApplication_spec audienceFound
  exact
    { held := mem
      unconsumed := verified.unconsumed
      unrevoked := verified.unrevoked
      unexpired := verified.unexpired
      audience := own
      method := binding.1.1.symm
      path := binding.1.2.symm
      body := binding.2.symm
      parent := parentActive_spec grants own subjectEpoch issuerEpoch active
      subject := ⟨subject, subjectMem, subjectId.trans memberPrincipal, subjectStatus, subjectEpoch⟩
      member := ⟨member, List.mem_of_find?_eq_some memberFound, memberId,
        memberOrg.trans orgHolds.1, memberPrincipal, memberActive, memberEpoch⟩
      issuer := issuerEpoch ▸ .of_found issuerFound issuerActive
      audienceCurrent := own ▸ audienceEpoch ▸ .of_found audienceFound audienceActive
      endpoint := ⟨endpoint, List.mem_of_find?_eq_some endpointFound,
        endpointHolds.1.trans (audienceId.trans own.symm), endpointHolds.2, endpointActive.1.1,
        endpointActive.1.2, endpointActive.2⟩ }

/-! ## Single use -/

/-- The proof that a verification accepted. -/
def verifications (db : Db) : Action → List Nat
  | .oboVerify now client supplied request =>
      match oboVerify db now client supplied request with
      | .ok (result, _) => [result.proof.id]
      | .error _ => []
  | _ => []

theorem verified_accepted {action : Action} {id : Nat} (verified : id ∈ verifications db action) :
    .oboProof id ∈ accepted settings db action := by
  cases action with
  | oboVerify now client supplied request =>
      simp only [verifications] at verified
      simp only [accepted]
      cases done : oboVerify db now client supplied request with
      | error _ =>
          rw [done] at verified
          exact absurd verified List.not_mem_nil
      | ok answer =>
          rw [done] at verified
          obtain rfl := List.mem_singleton.mp verified
          exact List.mem_cons_self
  | _ => exact absurd verified List.not_mem_nil

theorem verification_spends (ids : Ids db) {action : Action} {id : Nat}
    (verified : id ∈ verifications db action) : Spent (next settings db action) (.oboProof id) := by
  cases action with
  | oboVerify now client supplied request =>
      simp only [verifications] at verified
      split at verified
      · rename_i result after done
        obtain rfl := List.mem_singleton.mp verified
        obtain ⟨current, checked, -, consumed⟩ := oboVerify_eq_ok done
        have mem := (Table.find?_spec checked.lookup).1
        show Spent (committed db (oboVerify db now client supplied request)) _
        rw [done, committed, consumed]
        refine ⟨ids.proofs _ mem, fun proof proofMem own => ?_⟩
        obtain ⟨old, oldMem, rfl⟩ := Table.of_mem_updated proofMem rfl
        by_cases picked : proofConsumable now result.proof.id old = true
        · rw [if_pos picked]
          exact .inl rfl
        · rw [if_neg picked] at own
          obtain rfl := Table.unique oldMem mem own
          have consumable : proofConsumable now result.proof.id result.proof = true := by
            simp [proofConsumable, checked.unconsumed, checked.unrevoked, checked.unexpired]
          exact absurd consumable picked
      · simp at verified
  | _ => exact absurd verified List.not_mem_nil

theorem verifications_le_one (settings : SecuritySettings) (ids : Ids db) (actions : List Action)
    (id : Nat) : (Runs.given (next settings) verifications db actions).count id ≤ 1 := by
  have stays (db : Db) (action : Action) (spent : Spent db (.oboProof id)) :
      Spent (next settings db action) (.oboProof id) :=
    spent.evolves (next_evolves settings db action)
  have bars (db : Db) (action : Action) (spent : Spent db (.oboProof id)) :
      id ∉ verifications db action := by
    intro verified
    have taken : .oboProof id ∈ accepted settings db action := verified_accepted verified
    exact spent.not_accepted taken
  have once (db : Db) (action : Action) : (verifications db action).Nodup := by
    cases action with
    | oboVerify =>
        simp only [verifications]
        split <;> simp
    | _ => exact List.nodup_nil
  exact Runs.count_given_le_one
    (fun db action (held : Ids db) => held.evolves (next_evolves settings db action)) stays bars once
    (fun _ _ held verified => verification_spends held verified) actions db ids

/-! ## What a proof was issued for -/

theorem OboProof.fixed_of_unused {proof : OboProof} (unconsumed : proof.consumedAt = none)
    (unrevoked : proof.revokedAt = none) : proof.fixed = proof := by
  cases proof
  simp_all [OboProof.fixed]

/-- A verified proof is, column for column, the one that its exchange wrote. -/
theorem verified_as_issued {proof : OboProof} (inserted : insertProof db proof = some after)
    (ids : Ids db) (unconsumed : proof.consumedAt = none) (unrevoked : proof.revokedAt = none)
    (later : List Action) {final : Db}
    (done : oboVerify (Runs.after (next settings) after later) now client supplied request =
      .ok (result, final)) (same : result.proof.id = proof.id) : result.proof = proof := by
  have kept : proof.id ∈ (Runs.after (next settings) after later).drawn ∧
      ∀ row ∈ (Runs.after (next settings) after later).proofs, row.id = proof.id →
        row.fixed = proof.fixed := by
    refine Runs.after_of_invariant (I := fun db => proof.id ∈ db.drawn ∧
      ∀ row ∈ db.proofs, row.id = proof.id → row.fixed = proof.fixed) ?_ later after ⟨?_, ?_⟩
    · rintro db action ⟨drawn, kept⟩
      have evolves := next_evolves settings db action
      refine ⟨evolves.drawn _ drawn, fun row rowMem own => ?_⟩
      obtain ⟨old, held, step⟩ := evolves.proofs.continues rowMem (own ▸ drawn)
      exact step.fixed.symm.trans (kept old held ((OboProof.keyed _ _ step.fixed).trans own))
    · obtain ⟨-, proofs, -, rfl⟩ := insertProof_eq_some inserted
      exact List.mem_cons_self
    · obtain ⟨free, proofs, own, rfl⟩ := insertProof_eq_some inserted
      intro row rowMem sameId
      rcases ((Table.insert_spec own).2 row).mp rowMem with rfl | held
      · rfl
      · exact absurd (sameId ▸ ids.proofs row held) free
  obtain ⟨current, verified, -⟩ := oboVerify_eq_ok done
  have mem := (Table.find?_spec verified.lookup).1
  calc result.proof = result.proof.fixed :=
        (OboProof.fixed_of_unused verified.unconsumed verified.unrevoked).symm
    _ = proof.fixed := kept.2 _ mem same
    _ = proof := OboProof.fixed_of_unused unconsumed unrevoked

/-- What binds the proofs of a state. -/
structure ProofsBound (settings : SecuritySettings) (db : Db) : Prop where
  /-- A verification rests on everything the proof was issued under. -/
  verified : ∀ now client supplied request result after,
    oboVerify db now client supplied request = .ok (result, after) →
      VerifiedNow db now client request result.proof
  /-- One that fails changes nothing, the proof included. -/
  failed : ∀ now client supplied request error,
    oboVerify db now client supplied request = .error error →
      next settings db (.oboVerify now client supplied request) = db
  /-- A proof issued here is later verified as the request that it was issued for. -/
  issued : ∀ now client access request fresh response after,
    oboExchange db now client access request none fresh = .ok (response, after) →
      ∃ organization membership authority,
        lockCurrentApplicationOboExchangeAuthority db (clientContext client organization) now client
          access organization membership request.audience request.endpointId = some authority ∧
        ∀ later now' client' supplied request' result final,
          oboVerify (Runs.after (next settings) after later) now' client' supplied request' =
              .ok (result, final) → result.proof.id = fresh.proof →
            result.proof =
              newProof now client access organization membership request authority fresh

theorem ProofsBound.of_sound (sound : Sound db) (grants : Grants db) : ProofsBound settings db where
  verified := fun _ _ _ _ _ _ done => .of_verified grants done
  failed := by
    intro now client supplied request error done
    show committed db (oboVerify db now client supplied request) = db
    rw [done]
    rfl
  issued := by
    intro now client access request fresh response after done
    obtain ⟨-, -, organization, membership, authority, -, locked, -, ⟨proofId, repeated, -⟩ |
      ⟨-, inserting⟩⟩ := oboExchange_eq_ok done
    · cases repeated
    · exact ⟨organization, membership, authority, locked,
        fun later _ _ _ _ _ _ verified same =>
          verified_as_issued inserting sound.ids rfl rfl later verified same⟩

end Proofs

/-- In every run a proof is verified at most once, by its audience and for what it was
issued for, while everything it was issued under is current; a failed verification
leaves it as it was. -/
theorem obo_proofs_single_use (settings : SecuritySettings) (directory : Directory)
    (actions : List Action) :
    (∀ id, (Runs.given (next settings) verifications (.empty directory) actions).count id ≤ 1) ∧
      ProofsBound settings (Runs.after (next settings) (.empty directory) actions) :=
  ⟨verifications_le_one settings (Ids.empty directory) actions,
    .of_sound ((Sound.empty directory).runs actions) ((Grants.empty directory).runs actions)⟩

end SiliconIam.Auth.Authority
