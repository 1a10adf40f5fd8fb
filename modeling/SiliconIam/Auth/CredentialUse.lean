/-
# Auth.CredentialUse -- accepted and spent credentials

`Acceptance` lists the ways a credential is accepted, each with the result of the
operation.  A `Spent` credential is one whose rows are revoked, consumed or closed;
it stays so whatever happens (`Spent.evolves`), and nothing accepts it
(`Spent.not_accepted`).  A credential that is spent by its own acceptance is
therefore accepted at most once in a run (`acceptances_le_one`).
-/
import SiliconIam.Auth.AuthorityInvariant

namespace SiliconIam.Auth.Authority

open SiliconIam.Theory
open SiliconIam.Theory.Runs (AllSteps)

set_option autoImplicit false

section Use

variable {settings : SecuritySettings} {now : Nat} {db after : Db} {credential : Credential}

/-! ## Acceptances -/

inductive Acceptance (settings : SecuritySettings) (db : Db) : Action → Credential → Prop
  | authenticate {now : Nat} {tokenClass : TokenClass} {supplied : List Nat} {access : AccessContext}
      (done : authenticate db now tokenClass supplied = some access) :
      Acceptance settings db (.authenticate now tokenClass supplied) (.accessToken access.token)
  | rotate {now : Nat} {supplied : List Nat} {fresh : Fresh} {row : RefreshLookupRow}
      {response : TokenResponse} {after : Db} (lookup : refreshLookup db supplied = some row)
      (done : rotateRefreshToken db settings now supplied fresh = .ok (.rotated response, after)) :
      Acceptance settings db (.rotateRefreshToken now supplied fresh) (.refreshToken row.token.id)
  | code {now : Nat} {client : ApplicationIdentity} {supplied : List Nat} {fresh : Fresh}
      {row : AuthorizationCodeRow} {result : AppTokenResponse × Db}
      (lookup : authorizationCodeLookup db now client supplied = some row)
      (done : exchangeAuthorizationCode db settings now client supplied fresh = .ok result) :
      Acceptance settings db (.exchangeAuthorizationCode now client supplied fresh)
        (.authorizationCode row.code.id)
  | refresh {now : Nat} {client : ApplicationIdentity} {supplied : List Nat} {fresh : Fresh}
      {row : RefreshCandidateRow} {response : AppTokenResponse} {after : Db}
      (lookup : refreshTokenCandidate db client supplied = some row)
      (done : exchangeRefreshToken db settings now client supplied fresh =
        .ok (.issued response, after)) :
      Acceptance settings db (.exchangeRefreshToken now client supplied fresh)
        (.refreshToken row.token.id)
  | exchange {now : Nat} {client : ApplicationIdentity} {access : AccessContext}
      {request : OboExchangeRequest} {replayed : Option Nat} {fresh : Fresh}
      {result : Option OboProofResponse × Db}
      (done : oboExchange db now client access request replayed fresh = .ok result) :
      Acceptance settings db (.oboExchange now client access request replayed fresh)
        (.accessToken access.token)
  | replay {now : Nat} {client : ApplicationIdentity} {access : AccessContext}
      {request : OboExchangeRequest} {proofId : Nat} {fresh : Fresh}
      {result : Option OboProofResponse × Db}
      (done : oboExchange db now client access request (some proofId) fresh = .ok result) :
      Acceptance settings db (.oboExchange now client access request (some proofId) fresh)
        (.oboProof proofId)
  | verify {now : Nat} {client : ApplicationIdentity} {supplied : List Nat}
      {request : OboVerifyRequest} {result : OboAccessResult} {after : Db}
      (done : oboVerify db now client supplied request = .ok (result, after)) :
      Acceptance settings db (.oboVerify now client supplied request) (.oboProof result.proof.id)
  | verifyParent {now : Nat} {client : ApplicationIdentity} {supplied : List Nat}
      {request : OboVerifyRequest} {result : OboAccessResult} {after : Db}
      (done : oboVerify db now client supplied request = .ok (result, after)) :
      Acceptance settings db (.oboVerify now client supplied request)
        (.accessToken result.proof.parentAccessToken)
  | introspect {now : Nat} {client : ApplicationIdentity} {access : AccessContext}
      {orgContext : Option String} {answer : Introspection}
      (done : introspect db now client access orgContext = some answer) :
      Acceptance settings db (.introspect now client access orgContext) (.accessToken access.token)
  | introspectRefresh {now : Nat} {client : ApplicationIdentity} {supplied : List Nat}
      {orgContext : Option String} {answer : Introspection} {row : RefreshCandidateRow}
      (lookup : refreshTokenCandidate db client supplied = some row)
      (done : introspectRefreshToken db now client supplied orgContext = some answer) :
      Acceptance settings db (.introspectRefreshToken now client supplied orgContext)
        (.refreshToken row.token.id)

theorem Acceptance.of_accepted {action : Action} (taken : credential ∈ accepted settings db action) :
    Acceptance settings db action credential := by
  cases action with
  | authenticate now tokenClass supplied =>
      simp only [accepted] at taken
      split at taken
      · rename_i access done
        obtain rfl := List.mem_singleton.mp taken
        exact .authenticate done
      · simp at taken
  | rotateRefreshToken now supplied fresh =>
      simp only [accepted] at taken
      split at taken
      · rename_i response after row done lookup
        obtain rfl := List.mem_singleton.mp taken
        exact .rotate lookup done
      · simp at taken
  | exchangeAuthorizationCode now client supplied fresh =>
      simp only [accepted] at taken
      split at taken
      · rename_i result row done lookup
        obtain rfl := List.mem_singleton.mp taken
        exact .code lookup done
      · simp at taken
  | exchangeRefreshToken now client supplied fresh =>
      simp only [accepted] at taken
      split at taken
      · rename_i response after row done lookup
        obtain rfl := List.mem_singleton.mp taken
        exact .refresh lookup done
      · simp at taken
  | oboExchange now client access request replayed fresh =>
      simp only [accepted] at taken
      split at taken
      · rename_i result done
        rcases List.mem_cons.mp taken with rfl | repeated
        · exact .exchange done
        · cases replayed with
          | none => simp at repeated
          | some proofId =>
              obtain rfl : credential = .oboProof proofId := by simpa using repeated
              exact .replay done
      · simp at taken
  | oboVerify now client supplied request =>
      simp only [accepted] at taken
      split at taken
      · rename_i result after done
        rcases List.mem_cons.mp taken with rfl | parent
        · exact .verify done
        · obtain rfl := List.mem_singleton.mp parent
          exact .verifyParent done
      · simp at taken
  | introspect now client access orgContext =>
      simp only [accepted] at taken
      split at taken
      · rename_i answer done
        obtain rfl := List.mem_singleton.mp taken
        exact .introspect done
      · simp at taken
  | introspectRefreshToken now client supplied orgContext =>
      simp only [accepted] at taken
      split at taken
      · rename_i answer row done lookup
        obtain rfl := List.mem_singleton.mp taken
        exact .introspectRefresh lookup done
      · simp at taken
  | _ => simp [accepted] at taken

/-! ## Spent credentials -/

/-- Whatever rows the credential still has, none of them is usable. -/
def Spent (db : Db) : Credential → Prop
  | .accessToken id => id ∈ db.drawn ∧
      ∀ token ∈ db.access, token.id = id → token.revokedAt.isSome = true
  | .refreshToken id => id ∈ db.drawn ∧ ∀ token ∈ db.tokens, token.id = id →
      token.consumedAt.isSome = true ∨ token.family ∈ db.drawn ∧
        ∀ family ∈ db.families, family.id = token.family → family.status ≠ .active
  | .authorizationCode id => id ∈ db.drawn ∧
      ∀ code ∈ db.codes, code.id = id → code.consumedAt.isSome = true
  | .oboProof id => id ∈ db.drawn ∧
      ∀ proof ∈ db.proofs, proof.id = id → proof.consumedAt.isSome = true ∨
        proof.revokedAt.isSome = true

theorem Spent.evolves (evolves : Evolves now db after) (spent : Spent db credential) :
    Spent after credential := by
  cases credential with
  | accessToken id =>
      refine ⟨evolves.drawn _ spent.1, fun token mem own => ?_⟩
      obtain ⟨old, held, step⟩ := evolves.access.continues mem (own ▸ spent.1)
      exact step.marks .revoked (spent.2 old held ((AccessToken.keyed _ _ step.fixed).trans own))
  | refreshToken id =>
      refine ⟨evolves.drawn _ spent.1, fun token mem own => ?_⟩
      obtain ⟨old, held, step⟩ := evolves.tokens.continues mem (own ▸ spent.1)
      have owner : old.family = token.family := (congrArg RefreshToken.family step.fixed :)
      rcases spent.2 old held ((RefreshToken.keyed _ _ step.fixed).trans own) with
        consumed | ⟨drawn, closed⟩
      · exact .inl (step.marks .consumed consumed)
      · rw [owner] at drawn closed
        refine .inr ⟨evolves.drawn _ drawn, fun family familyMem named => ?_⟩
        obtain ⟨before, beforeMem, familyStep⟩ :=
          evolves.families.continues familyMem (named ▸ drawn)
        have same : before.id = family.id := Family.keyed _ _ familyStep.fixed
        exact familyStep.marks () (closed before beforeMem (same.trans named))
  | authorizationCode id =>
      refine ⟨evolves.drawn _ spent.1, fun code mem own => ?_⟩
      obtain ⟨old, held, step⟩ := evolves.codes.continues mem (own ▸ spent.1)
      exact step.marks () (spent.2 old held ((AuthorizationCode.keyed _ _ step.fixed).trans own))
  | oboProof id =>
      refine ⟨evolves.drawn _ spent.1, fun proof mem own => ?_⟩
      obtain ⟨old, held, step⟩ := evolves.proofs.continues mem (own ▸ spent.1)
      exact (spent.2 old held ((OboProof.keyed _ _ step.fixed).trans own)).imp
        (step.marks .consumed) (step.marks .revoked)

theorem AccessToken.unexpired_spec {token : AccessToken} (unexpired : token.unexpired now = true) :
    token.revokedAt = none ∧ now < token.expiresAt := by
  simpa [AccessToken.unexpired] using unexpired

theorem Spent.not_unexpired {token : AccessToken} (mem : token ∈ db.access)
    (unexpired : token.unexpired now = true) : ¬ Spent db (.accessToken token.id) := by
  intro spent
  have := spent.2 token mem rfl
  simp [(AccessToken.unexpired_spec unexpired).1] at this

theorem Spent.not_allowsMembership {context : DatabaseContext} {tokenId membershipId : Nat}
    (allowed : applicationTokenAllowsMembership db context now tokenId membershipId = true) :
    ¬ Spent db (.accessToken tokenId) := by
  obtain ⟨token, mem, holds⟩ := Table.any_spec allowed
  simp only [Bool.and_eq_true, decide_eq_true_eq] at holds
  obtain ⟨⟨⟨rfl, -⟩, unexpired⟩, -⟩ := holds
  exact Spent.not_unexpired mem unexpired

theorem Spent.not_refreshable {token : RefreshToken} {family : Family} (mem : token ∈ db.tokens)
    (familyMem : family ∈ db.families) (own : family.id = token.family)
    (unconsumed : token.consumedAt = none) (active : family.status = .active) :
    ¬ Spent db (.refreshToken token.id) := by
  intro spent
  rcases spent.2 token mem rfl with consumed | ⟨-, closed⟩
  · simp [unconsumed] at consumed
  · exact closed family familyMem own active

theorem introspectRefreshToken_spec {client : ApplicationIdentity} {supplied : List Nat}
    {orgContext : Option String} {answer : Introspection} {row : RefreshCandidateRow}
    (lookup : refreshTokenCandidate db client supplied = some row)
    (done : introspectRefreshToken db now client supplied orgContext = some answer) :
    ∃ authority, lockCurrentApplicationOauthSubjectAuthority db now client.application
      row.consent.id row.binding = some authority ∧
        refreshUsable now row.token row.family = true := by
  unfold introspectRefreshToken at done
  split at done
  · simp at done
  · simp only [Option.bind_eq_bind, Option.bind_eq_some_iff] at done
    obtain ⟨other, otherLookup, authority, standing, ⟨token, family⟩, locked, done⟩ := done
    obtain rfl := Option.some.inj (lookup.symm.trans otherLookup)
    obtain ⟨rfl, rfl⟩ := refreshCredentialLock_eq (refreshTokenCandidate_spec lookup) locked
    split at done
    · rename_i usable
      simp only [Bool.and_eq_true] at usable
      exact ⟨authority, standing, usable.2⟩
    · simp at done

/-- The parent token of an exchange. -/
structure ExchangedFrom (db : Db) (context : DatabaseContext) (now : Nat)
    (client : ApplicationIdentity) (access : AccessContext) (membership : Nat)
    (parent : AccessToken) : Prop where
  held : parent ∈ db.access
  own : parent.id = access.token
  client : parent.client = some client.application
  subject : parent.subject = access.subject.id
  unexpired : parent.unexpired now = true
  reaches : applicationTokenAllowsMembership db context now parent.id membership = true

theorem exchangeAuthority_spec {context : DatabaseContext} {client : ApplicationIdentity}
    {access : AccessContext} {organization membership : Nat} {audienceAppId endpointId : String}
    {authority : ExchangeAuthority}
    (locked : lockCurrentApplicationOboExchangeAuthority db context now client access organization
      membership audienceAppId endpointId = some authority) :
    ∃ parent, ExchangedFrom db context now client access membership parent ∧
      ∃ audience ∈ db.directory.applications, audience.appId = audienceAppId ∧
        applicationTokenAllowsExternalScope db context now parent.id audience.id endpointId =
          true := by
  simp only [lockCurrentApplicationOboExchangeAuthority, Option.bind_eq_bind,
    Option.bind_eq_some_iff] at locked
  obtain ⟨org, -, issuer, issuerFound, principal, -, member, memberFound, subject, subjectFound,
    parent, parentFound, session, -, audience, audienceFound, audiencePrincipal, -, endpoint,
    endpointFound, allowed⟩ := locked
  have issuerHolds := List.find?_some issuerFound
  have memberHolds := List.find?_some memberFound
  have audienceHolds := List.find?_some audienceFound
  have endpointHolds := List.find?_some endpointFound
  obtain ⟨-, subjectHolds⟩ := Table.find?_spec subjectFound
  obtain ⟨mem, holds⟩ := Table.find?_spec parentFound
  simp only [Bool.and_eq_true, decide_eq_true_eq]
    at issuerHolds memberHolds audienceHolds endpointHolds subjectHolds holds
  obtain ⟨⟨⟨⟨-, memberId⟩, named⟩, -⟩, -⟩ := memberHolds
  obtain ⟨⟨⟨⟨⟨⟨⟨⟨⟨⟨⟨own, -⟩, reaches⟩, issued⟩, -⟩, -⟩, subjectId⟩, -⟩, -⟩, -⟩, -⟩, unexpired⟩ := holds
  rw [memberId] at reaches
  obtain ⟨external, allowed⟩ := Option.ite_none_right_eq_some.mp allowed
  rw [endpointHolds.1.2] at external
  exact ⟨parent,
    { held := mem
      own := own
      client := issued.trans (congrArg some issuerHolds.1)
      subject := subjectId.trans (subjectHolds.1.1.trans named)
      unexpired := unexpired
      reaches := reaches },
    audience, List.mem_of_find?_eq_some audienceFound, audienceHolds.1, external⟩

/-- An authorization snapshot is only taken of a token that reaches the membership. -/
theorem snapshot_token {context : DatabaseContext} {tokenId subjectId organization membership : Nat}
    {audience : ApplicationIdentity} {proofId : Option Nat}
    {authorization : ApplicationAuthorization}
    (snapshot : getCurrentApplicationAuthorization db context now tokenId subjectId organization
      membership audience proofId = .ok (some authorization)) :
    ∃ token ∈ db.access, token.id = tokenId ∧ token.subject = subjectId ∧
      (proofId.isSome = true ∨ token.client = some audience.application) ∧
        applicationTokenAllowsMembership db context now token.id membership = true := by
  unfold getCurrentApplicationAuthorization at snapshot
  split at snapshot
  · simp at snapshot
  · rename_i rows taken
    obtain ⟨token, found, -⟩ := Option.bind_eq_some_iff.mp taken
    obtain ⟨mem, holds⟩ := Table.find?_spec found
    simp only [Bool.and_eq_true, Bool.or_eq_true, decide_eq_true_eq] at holds
    obtain ⟨⟨⟨⟨⟨own, subject⟩, -⟩, allowed⟩, -⟩, client⟩ := holds
    exact ⟨token, mem, own, subject, client, allowed⟩

/-- The token introspection finds. -/
theorem metadata_token {client : ApplicationIdentity} {access : AccessContext}
    {metadata : AccessIntrospectionMetadata}
    (found : accessIntrospectionMetadata db now client access = some metadata) :
    ∃ token ∈ db.access, token.id = access.token ∧ token.client = some client.application ∧
      token.subject = access.subject.id ∧ token.session = access.session ∧
        token.unexpired now = true ∧ CurrentSession db now token.session := by
  simp only [accessIntrospectionMetadata, Option.bind_eq_bind, Option.bind_eq_some_iff] at found
  obtain ⟨token, tokenFound, application, -, principal, -, subject, subjectFound, session, current,
    -⟩ := found
  obtain ⟨mem, holds⟩ := Table.find?_spec tokenFound
  simp only [Bool.and_eq_true, decide_eq_true_eq] at holds
  obtain ⟨⟨⟨⟨⟨⟨⟨⟨⟨⟨own, -⟩, client⟩, -⟩, -⟩, named⟩, -⟩, sessionId⟩, -⟩, -⟩, unexpired⟩ := holds
  exact ⟨token, mem, own, client, named, sessionId, unexpired,
    .of_currentSession (Table.find?_spec subjectFound).1 current⟩

/-- Nothing accepts a spent credential. -/
theorem Acceptance.not_spent {action : Action} (taken : Acceptance settings db action credential) :
    ¬ Spent db credential := by
  cases taken with
  | authenticate done =>
      simp only [Authority.authenticate, Option.bind_eq_bind, Option.bind_eq_some_iff] at done
      obtain ⟨token, tokenFound, session, -, subject, -, done⟩ := done
      split at done
      · rename_i current
        obtain rfl := Option.some.inj done
        simp only [accessCurrent, Bool.and_eq_true, decide_eq_true_eq] at current
        obtain ⟨⟨⟨⟨⟨⟨⟨-, unexpired⟩, -⟩, -⟩, -⟩, -⟩, -⟩, -⟩ := current
        exact Spent.not_unexpired (Table.find?_spec tokenFound).1 unexpired
      · simp at done
  | rotate lookup done =>
      obtain ⟨row, otherLookup, ⟨-, replayed, -⟩ | ⟨unconsumed, active, -⟩⟩ :=
        rotateRefreshToken_eq_ok done
      · cases replayed
      · obtain rfl := Option.some.inj (lookup.symm.trans otherLookup)
        have found := refreshLookup_spec lookup
        exact Spent.not_refreshable found.token found.family found.familyOwn unconsumed
          (RefreshLookupRow.active_spec active).2.2.1
  | code lookup done =>
      have found := authorizationCodeLookup_spec lookup
      intro spent
      have := spent.2 _ found.code rfl
      simp [found.unconsumed] at this
  | refresh lookup done =>
      obtain ⟨row, otherLookup, -, ⟨-, replayed, -⟩ | ⟨usable, -⟩⟩ := exchangeRefreshToken_eq_ok done
      · cases replayed
      · obtain rfl := Option.some.inj (lookup.symm.trans otherLookup)
        have found := refreshTokenCandidate_spec lookup
        obtain ⟨unconsumed, -, -, active, -⟩ := refreshUsable_spec usable
        exact Spent.not_refreshable found.token found.family found.familyOwn unconsumed active
  | exchange done =>
      obtain ⟨-, -, organization, membership, authority, -, locked, -⟩ := oboExchange_eq_ok done
      obtain ⟨parent, from_, -⟩ := exchangeAuthority_spec locked
      rw [← from_.own]
      exact Spent.not_unexpired from_.held from_.unexpired
  | replay done =>
      obtain ⟨-, -, organization, membership, authority, -, -, -, ⟨proofId, same, -, -, live⟩ |
        ⟨absent, -⟩⟩ := oboExchange_eq_ok done
      · obtain rfl := Option.some.inj same
        obtain ⟨proof, mem, holds⟩ := Table.any_spec live
        simp only [Bool.and_eq_true, decide_eq_true_eq, Option.isNone_iff_eq_none] at holds
        obtain ⟨⟨⟨⟨⟨⟨⟨⟨⟨⟨⟨⟨own, -⟩, -⟩, unconsumed⟩, unrevoked⟩, -⟩, -⟩, -⟩, -⟩, -⟩, -⟩, -⟩, -⟩ :=
          holds
        intro spent
        have := spent.2 proof mem own
        simp [unconsumed, unrevoked] at this
      · simp at absent
  | verify done =>
      obtain ⟨current, verified, -⟩ := oboVerify_eq_ok done
      intro spent
      have := spent.2 _ (Table.find?_spec verified.lookup).1 rfl
      simp [verified.unconsumed, verified.unrevoked] at this
  | verifyParent done =>
      obtain ⟨current, verified, -⟩ := oboVerify_eq_ok done
      obtain ⟨token, -, own, -, -, allowed⟩ := snapshot_token verified.snapshot
      rw [own] at allowed
      exact Spent.not_allowsMembership allowed
  | introspect done =>
      unfold Authority.introspect at done
      split at done
      · simp at done
      · split at done
        · simp at done
        · simp only [Option.bind_eq_bind, Option.bind_eq_some_iff] at done
          obtain ⟨metadata, found, -⟩ := done
          obtain ⟨token, mem, own, -, -, -, unexpired, -⟩ := metadata_token found
          rw [← own]
          exact Spent.not_unexpired mem unexpired
  | introspectRefresh lookup done =>
      have found := refreshTokenCandidate_spec lookup
      obtain ⟨-, -, usable⟩ := introspectRefreshToken_spec lookup done
      obtain ⟨unconsumed, -, -, active, -⟩ :=
        refreshUsable_spec usable
      exact Spent.not_refreshable found.token found.family found.familyOwn unconsumed active

theorem Spent.not_accepted {action : Action} (spent : Spent db credential) :
    credential ∉ accepted settings db action :=
  fun taken => (Acceptance.of_accepted taken).not_spent spent

/-! ## Single use -/

/-- The credentials accepted along a run, in order. -/
def acceptances (settings : SecuritySettings) : Db → List Action → List Credential
  | _, [] => []
  | db, action :: rest =>
      accepted settings db action ++ acceptances settings (next settings db action) rest

theorem acceptances_eq_given (db : Db) (actions : List Action) :
    acceptances settings db actions = Runs.given (next settings) (accepted settings) db actions := by
  induction actions generalizing db with
  | nil => rfl
  | cons action rest ih => rw [acceptances, Runs.given, ih]

theorem accepted_nodup (settings : SecuritySettings) (db : Db) (action : Action) :
    (accepted settings db action).Nodup := by
  cases action with
  | authenticate | rotateRefreshToken | exchangeAuthorizationCode | exchangeRefreshToken
  | oboVerify | introspect | introspectRefreshToken =>
      simp only [accepted]
      split <;> simp
  | oboExchange now client access request replayed fresh =>
      simp only [accepted]
      split
      · cases replayed <;> simp
      · simp
  | _ => exact List.nodup_nil

/-- What its own acceptance spends is accepted at most once. -/
theorem acceptances_le_one {I : Db → Prop} (keeps : ∀ db action, I db → I (next settings db action))
    (spends : ∀ db action, I db → credential ∈ accepted settings db action →
      Spent (next settings db action) credential) (actions : List Action) (db : Db) (held : I db) :
    (acceptances settings db actions).count credential ≤ 1 := by
  rw [acceptances_eq_given]
  have stays (db : Db) (action : Action) (spent : Spent db credential) :
      Spent (next settings db action) credential :=
    spent.evolves (next_evolves settings db action)
  exact Runs.count_given_le_one keeps stays (fun _ _ => Spent.not_accepted)
    (accepted_nodup settings) spends actions db held

/-- An exchange consumes its code. -/
theorem code_spends (ids : Ids db) {action : Action} {id : Nat}
    (taken : .authorizationCode id ∈ accepted settings db action) :
    Spent (next settings db action) (.authorizationCode id) := by
  cases Acceptance.of_accepted taken with
  | @code now client supplied fresh row result lookup done =>
      obtain ⟨other, authority, -, otherLookup, -, -, issue⟩ := exchangeAuthorizationCode_eq_ok done
      obtain rfl := Option.some.inj (lookup.symm.trans otherLookup)
      obtain ⟨opened, issued, opening, issuing, renewing, -⟩ := issueTokens_first issue
      have found := authorizationCodeLookup_spec lookup
      have consumed : Spent (consumeCode db now row) (.authorizationCode row.code.id) := by
        refine ⟨ids.codes _ found.code, fun code mem own => ?_⟩
        obtain ⟨old, -, rfl⟩ := Table.of_mem_updated mem rfl
        split
        · rfl
        · rename_i other
          rw [if_neg other] at own
          simp [own] at other
      have evolves : Evolves now (consumeCode db now row) result.2 :=
        (Evolves.insertFamily opening).trans
          ((Evolves.insertAccessToken issuing).trans (.insertRefreshToken renewing))
      show Spent (committed db (exchangeAuthorizationCode db settings now client supplied fresh)) _
      rw [done]
      exact consumed.evolves evolves

end Use

end SiliconIam.Auth.Authority
