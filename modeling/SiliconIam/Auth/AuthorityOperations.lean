/-
# Auth.AuthorityOperations -- the operations taken apart

One lemma says what a successful operation did (`rotateRefreshToken_eq_ok`,
`exchangeRefreshToken_eq_ok`, `oboVerify_eq_ok`, …), with everything it checked, and
one what it wrote.  `next_writes` puts them together: every step of the system is a
list of writes, so an invariant of the system only has to be kept by `Write`.
-/
import SiliconIam.Auth.AuthorityWrites

namespace SiliconIam.Auth.Authority

open SiliconIam.Theory

set_option autoImplicit false

/-! ## First-party tokens -/

variable {supplied : List Nat}

section FirstParty

variable {settings : SecuritySettings} {now : Nat} {db after : Db} {fresh : Fresh}

/-- The rows of one token pair, in the order they are written. -/
theorem insertTokenPairWithId_eq_ok {context : TokenPairContext} {response : TokenResponse}
    (done : insertTokenPairWithId db settings now context fresh = .ok (response, after)) :
    ∃ tokenClass issued renewed,
      insertAccessToken db (pairAccessToken settings now context tokenClass fresh) = some issued ∧
        insertRefreshToken issued
            (freshRefreshToken .refreshToken context.family context.parentRefreshToken
              context.refreshExpiresAt fresh) = some renewed ∧
          ((context.parentRefreshToken = none ∧ after = renewed) ∨
            ∃ parent, context.parentRefreshToken = some parent ∧
              after = consumeParent renewed now parent fresh.refresh) := by
  unfold insertTokenPairWithId at done
  cases known : pairTokenClass context.subjectKind with
  | none => simp [known] at done
  | some tokenClass =>
      simp only [known] at done
      split at done
      · simp at done
      · rename_i issued issuing
        split at done
        · simp at done
        · rename_i renewed renewing
          refine ⟨tokenClass, issued, renewed, issuing, renewing, ?_⟩
          split at done
          · rename_i root
            exact .inl ⟨root, (Prod.mk.inj (Except.ok.inj done)).2.symm⟩
          · rename_i parent own
            split at done
            · exact .inr ⟨parent, own, (Prod.mk.inj (Except.ok.inj done)).2.symm⟩
            · simp at done

/-- What the lookup of a first-party refresh token found. -/
structure RefreshLookupRow.Found (db : Db) (supplied : List Nat) (row : RefreshLookupRow) :
    Prop where
  token : row.token ∈ db.tokens
  purpose : row.token.purpose = .refreshToken
  supplied : supplied.contains row.token.digest = true
  family : row.family ∈ db.families
  familyOwn : row.family.id = row.token.family
  session : row.session ∈ db.sessions
  sessionOwn : row.session.id = row.family.session
  principal : row.principal ∈ db.principals
  principalOwn : row.principal.id = row.session.subject

theorem refreshLookup_spec {row : RefreshLookupRow}
    (found : refreshLookup db supplied = some row) : row.Found db supplied := by
  simp only [refreshLookup, Option.bind_eq_bind, Option.bind_eq_some_iff] at found
  obtain ⟨token, tokenFound, family, familyFound, session, sessionFound, principal, principalFound,
    subject, -, same⟩ := found
  obtain rfl := Option.some.inj same
  obtain ⟨token, named⟩ := Table.find?_spec tokenFound
  obtain ⟨family, owning⟩ := Table.find?_spec familyFound
  obtain ⟨session, parent⟩ := Table.find?_spec sessionFound
  obtain ⟨principal, subject⟩ := Table.find?_spec principalFound
  simp only [Bool.and_eq_true, decide_eq_true_eq] at named owning parent subject
  exact ⟨token, named.1, named.2, family, owning, session, parent.1, principal, subject.1⟩

theorem RefreshLookupRow.active_spec {row : RefreshLookupRow} (active : row.active now = true) :
    row.token.revokedAt = none ∧ now < row.token.expiresAt ∧ row.family.status = .active ∧
      now < row.family.absoluteExpiresAt ∧ row.session.live now = true ∧
      row.principal.status = .active ∧ row.session.authEpoch = row.principal.authEpoch := by
  simp only [RefreshLookupRow.active, Bool.and_eq_true, decide_eq_true_eq,
    Option.isNone_iff_eq_none] at active
  obtain ⟨⟨⟨⟨⟨⟨revoked, expires⟩, status⟩, absolute⟩, live⟩, principal⟩, epoch⟩ := active
  exact ⟨revoked, expires, status, absolute, live, principal, epoch⟩

/-- A rotation is one pair of the family and the touch of its session, unless the
token was consumed before. -/
theorem rotateRefreshToken_eq_ok {result : RefreshResult}
    (done : rotateRefreshToken db settings now supplied fresh = .ok (result, after)) :
    ∃ row, refreshLookup db supplied = some row ∧
      ((row.token.consumedAt.isSome = true ∧ result = .replayRevoked ∧
          after = revokeReplayedFamily db now row) ∨
        (row.token.consumedAt = none ∧ row.active now = true ∧ ∃ response inserted,
          result = .rotated response ∧
            insertTokenPairWithId db settings now row.pairContext fresh = .ok (response, inserted) ∧
            touchSession inserted row.session.id = .ok after)) := by
  unfold rotateRefreshToken at done
  split at done
  · simp at done
  · rename_i row found
    refine ⟨row, found, ?_⟩
    split at done
    · rename_i consumed
      obtain ⟨rfl, rfl⟩ := Prod.mk.inj (Except.ok.inj done)
      exact .inl ⟨consumed, rfl, rfl⟩
    · rename_i unconsumed
      split at done
      · simp at done
      · rename_i active
        split at done
        · simp at done
        · rename_i response inserted inserting
          split at done
          · simp at done
          · rename_i touched touching
            obtain ⟨rfl, rfl⟩ := Prod.mk.inj (Except.ok.inj done)
            exact .inr ⟨by simpa using unconsumed, by simpa using active, response, inserted, rfl,
              inserting, touching⟩

theorem Writes.rotateRefreshToken {result : RefreshResult}
    (done : rotateRefreshToken db settings now supplied fresh = .ok (result, after)) :
    Writes now db after := by
  obtain ⟨row, lookup, ⟨-, -, rfl⟩ | ⟨unconsumed, active, response, inserted, -, inserting,
    touching⟩⟩ := rotateRefreshToken_eq_ok done
  · have found := refreshLookup_spec lookup
    exact (Write.revokeReplayedFamily db now row found.sessionOwn found.family).writes
  · have found := refreshLookup_spec lookup
    obtain ⟨-, -, status, -, live, -, epoch⟩ := RefreshLookupRow.active_spec active
    obtain ⟨tokenClass, issued, renewed, issuing, renewing, ⟨root, -⟩ | ⟨parent, own, rfl⟩⟩ :=
      insertTokenPairWithId_eq_ok inserting
    · simp [RefreshLookupRow.pairContext] at root
    · obtain rfl := Option.some.inj own
      have pair : Pair db row.family (some row.token.id)
          (pairAccessToken settings now row.pairContext tokenClass fresh)
          (freshRefreshToken .refreshToken row.family.id (some row.token.id)
            row.family.absoluteExpiresAt fresh) :=
        { issued := ⟨row.session, found.session, rfl, rfl, epoch⟩
          linked := .inl rfl
          family := rfl
          parent := rfl
          unconsumed := rfl }
      have rotated : Write now db (consumeParent renewed now row.token.id fresh.refresh) :=
        .rotate found.family status found.token found.familyOwn.symm unconsumed pair issuing renewing
      have held : row.session ∈ (consumeParent renewed now row.token.id fresh.refresh).sessions := by
        obtain ⟨-, access, -, rfl⟩ := insertAccessToken_eq_some issuing
        obtain ⟨-, -, tokens, -, rfl⟩ := insertRefreshToken_eq_some renewing
        exact found.session
      exact rotated.writes.append (Write.touchSession touching held rfl live).writes

/-- A login is its session and the family opened under it. -/
theorem Writes.issueSession {session : Session} {publicId : String}
    {organization membership membershipAuthzEpoch : Option Nat} {response : TokenResponse}
    (done : issueSession db settings now session publicId organization membership
      membershipAuthzEpoch fresh = .ok (response, after)) : Writes now db after := by
  unfold Authority.issueSession at done
  split at done
  · simp at done
  · rename_i started starting
    split at done
    · simp at done
    · rename_i opened opening
      obtain ⟨tokenClass, issued, renewed, issuing, renewing, ⟨-, rfl⟩ | ⟨parent, child, -⟩⟩ :=
        insertTokenPairWithId_eq_ok done
      · have held : session ∈ started.sessions := by
          obtain ⟨-, -, sessions, inserted, rfl⟩ := insertSubjectSession_eq_some starting
          exact ((Table.insert_spec inserted).2 session).mpr (.inl rfl)
        have active : (firstPartyFamily session fresh).status = .active := rfl
        refine (Write.session starting).writes.append
          (Write.openFamily active ?_ ?_ opening issuing renewing).writes
        · intro client first
          simp [firstPartyFamily] at first
        · exact
            { issued := ⟨session, held, rfl, rfl, rfl⟩
              linked := .inl rfl
              family := rfl
              parent := rfl
              unconsumed := rfl }
      · simp at child

end FirstParty

/-! ## Tokens of applications -/

section Applications

variable {settings : SecuritySettings} {now : Nat} {db after : Db} {client : ApplicationIdentity}
  {fresh : Fresh}

def openedFamily (settings : SecuritySettings) (now : Nat) (client : ApplicationIdentity)
    (subject : TokenSubject) (scopes : List String) (fresh : Fresh) : Family where
  id := fresh.family
  session := subject.session
  subject := subject.principal
  client := some client.application
  consent := some subject.consentGrant
  status := .active
  absoluteExpiresAt := now + settings.refreshFamilyTtl
  revokedAt := none
  compromisedAt := none
  revocationReason := none
  scopes := scopes

variable {response : AppTokenResponse}

/-- The first pair of an application's family. -/
theorem issueTokens_first {subject : TokenSubject} {scopes : List String}
    (done : issueTokens db settings now client subject scopes none none fresh =
      .ok (response, after)) :
    ∃ opened issued,
      insertFamily db (openedFamily settings now client subject scopes fresh) = some opened ∧
        insertAccessToken opened
            (applicationAccessToken settings now client subject scopes fresh.family fresh) =
          some issued ∧
          insertRefreshToken issued
              (freshRefreshToken .oauthRefreshToken fresh.family none
                (familyExpiry issued fresh.family) fresh) = some after ∧
            response.scope = scopes := by
  unfold issueTokens at done
  split at done
  · simp at done
  · split at done
    · simp at done
    · rename_i family opened opening
      obtain ⟨opened, inserting, same⟩ := Option.map_eq_some_iff.mp opening
      obtain ⟨rfl, rfl⟩ := Prod.mk.inj same
      split at done
      · simp at done
      · rename_i issued issuing
        split at done
        · simp at done
        · rename_i renewed renewing
          obtain ⟨rfl, rfl⟩ := Prod.mk.inj (Except.ok.inj done)
          exact ⟨opened, issued, inserting, issuing, renewing, rfl⟩

/-- The next pair of an application's family. -/
theorem issueTokens_next {subject : TokenSubject} {scopes : List String} {family parent : Nat}
    (done : issueTokens db settings now client subject scopes (some family) (some parent) fresh =
      .ok (response, after)) :
    ∃ issued renewed,
      insertAccessToken db
          (applicationAccessToken settings now client subject scopes family fresh) = some issued ∧
        insertRefreshToken issued
            (freshRefreshToken .oauthRefreshToken family (some parent) (familyExpiry issued family)
              fresh) = some renewed ∧
          after = consumeParent renewed now parent fresh.refresh ∧ response.scope = scopes := by
  unfold issueTokens at done
  split at done
  · simp at done
  · simp only [issueFamily] at done
    split at done
    · simp at done
    · rename_i issued issuing
      split at done
      · simp at done
      · rename_i renewed renewing
        split at done
        · obtain ⟨rfl, rfl⟩ := Prod.mk.inj (Except.ok.inj done)
          exact ⟨issued, renewed, issuing, renewing, rfl, rfl⟩
        · simp at done

/-- Tokens of an authority are issued under its session. -/
theorem AuthorityRests.issued {application consentId : Nat} {binding : SubjectBinding}
    {authority : SubjectAuthority} {subject : Principal} {session : Session} {consent : Consent}
    (rests : AuthorityRests db now application consentId binding authority subject session consent)
    {token : AccessToken} (own : token.session = binding.session)
    (named : token.subject = binding.subject)
    (epoch : token.subjectAuthEpoch = authority.subjectAuthEpoch) : Issued db token := by
  obtain ⟨mem, id, subjectOwn, subjectEpoch, -⟩ := currentSession_spec rests.sessionFound
  obtain ⟨-, subjectId, -⟩ := activeSubject_spec rests.subjectFound
  refine ⟨session, mem, id.trans own.symm, ?_, ?_⟩
  · rw [subjectOwn, subjectId, named]
  · rw [subjectEpoch, epoch, rests.epoch]

theorem AuthorityRests.referenced {application consentId : Nat} {binding : SubjectBinding}
    {authority : SubjectAuthority} {subject : Principal} {session : Session} {consent : Consent}
    (rests : AuthorityRests db now application consentId binding authority subject session consent)
    {family : Family} (own : family.consent = some consentId)
    (named : family.subject = binding.subject) : family.Referenced db := by
  obtain ⟨consentMem, consentOwn, -⟩ := currentConsent_spec rests.consentFound
  obtain ⟨mem, subjectId, -⟩ := activeSubject_spec rests.subjectFound
  exact fun _ _ => ⟨⟨consent, consentMem, own.trans (congrArg some consentOwn.symm)⟩,
    ⟨subject, mem, subjectId.trans named.symm⟩⟩

/-- What the lookup of a code found. -/
structure AuthorizationCodeRow.Found (db : Db) (now : Nat) (client : ApplicationIdentity)
    (supplied : List Nat) (row : AuthorizationCodeRow) : Prop where
  code : row.code ∈ db.codes
  supplied : supplied.contains row.code.digest = true
  client : row.code.application = client.application
  unconsumed : row.code.consumedAt = none
  unexpired : now < row.code.expiresAt
  request : row.request ∈ db.requests
  requestOwn : row.request.id = row.code.request
  approved : row.request.status = .approved
  consent : row.consent ∈ db.consents
  consentActive : row.consent.active = true

theorem authorizationCodeLookup_spec {row : AuthorizationCodeRow}
    (found : authorizationCodeLookup db now client supplied = some row) :
    row.Found db now client supplied := by
  simp only [authorizationCodeLookup, Option.bind_eq_bind, Option.bind_eq_some_iff] at found
  obtain ⟨code, codeFound, request, requestFound, principal, -, session, -, consent, consentFound,
    same⟩ := found
  obtain rfl := Option.some.inj same
  obtain ⟨codeMem, named⟩ := Table.find?_spec codeFound
  obtain ⟨requestMem, approved⟩ := Table.find?_spec requestFound
  obtain ⟨consentMem, granted⟩ := Table.find?_spec consentFound
  simp only [Bool.and_eq_true, decide_eq_true_eq, Option.isNone_iff_eq_none] at named approved granted
  obtain ⟨⟨⟨supplied, own⟩, unconsumed⟩, unexpired⟩ := named
  exact ⟨codeMem, supplied, own, unconsumed, unexpired, requestMem, approved.1, approved.2,
    consentMem, granted.2⟩

/-- A code exchange consumes its code and opens a family with the requested scopes. -/
theorem exchangeAuthorizationCode_eq_ok
    (done : exchangeAuthorizationCode db settings now client supplied fresh =
      .ok (response, after)) :
    ∃ row authority, lockCurrentApplicationClient db client = true ∧
      authorizationCodeLookup db now client supplied = some row ∧
        lockCurrentApplicationOauthSubjectAuthority db now client.application row.consent.id
            row.binding = some authority ∧
          authorizedCodeExchangeScopes db client row = some row.request.scopes ∧
            issueTokens (consumeCode db now row) settings now client
                (authority.tokenSubject row.binding row.consent.id) row.request.scopes none none
                fresh = .ok (response, after) := by
  unfold exchangeAuthorizationCode at done
  split at done
  · simp at done
  · rename_i current
    split at done
    · simp at done
    · rename_i row lookup
      split at done
      · simp at done
      · rename_i authority locked
        split at done
        · simp at done
        · rename_i scopes authorized
          have same : scopes = row.request.scopes := by
            simp only [authorizedCodeExchangeScopes, Option.ite_none_right_eq_some,
              Option.some.injEq] at authorized
            exact authorized.2.symm
          subst same
          exact ⟨row, authority, by simpa using current, lookup, locked, authorized, done⟩

theorem Writes.exchangeAuthorizationCode
    (done : exchangeAuthorizationCode db settings now client supplied fresh =
      .ok (response, after)) : Writes now db after := by
  obtain ⟨row, authority, -, -, locked, -, issuing⟩ := exchangeAuthorizationCode_eq_ok done
  obtain ⟨subject, session, consent, rests⟩ := authorityRests locked
  obtain ⟨opened, issued, opening, issuing, renewing, -⟩ := issueTokens_first issuing
  let family := openedFamily settings now client (authority.tokenSubject row.binding row.consent.id)
    row.request.scopes fresh
  have referenced : family.Referenced (consumeCode db now row) := rests.referenced rfl rfl
  have pair : Pair (consumeCode db now row) family none
      (applicationAccessToken settings now client
        (authority.tokenSubject row.binding row.consent.id) row.request.scopes fresh.family fresh)
      (freshRefreshToken .oauthRefreshToken fresh.family none (familyExpiry issued fresh.family)
        fresh) :=
    { issued := rests.issued rfl rfl rfl
      linked := .inr ⟨rfl, ⟨rfl, rfl, rfl⟩, List.Subset.refl _⟩
      family := rfl
      parent := rfl
      unconsumed := rfl }
  exact (Write.consumeCode db now row).writes.append
    (Write.openFamily rfl referenced pair opening issuing renewing).writes

/-- What the lookup of an application's refresh token found. -/
structure RefreshCandidateRow.Found (db : Db) (client : ApplicationIdentity) (supplied : List Nat)
    (row : RefreshCandidateRow) : Prop where
  token : row.token ∈ db.tokens
  purpose : row.token.purpose = .oauthRefreshToken
  supplied : supplied.contains row.token.digest = true
  family : row.family ∈ db.families
  familyOwn : row.family.id = row.token.family
  client : row.family.client = some client.application
  consent : row.consent ∈ db.consents
  consentOwn : row.family.consent = some row.consent.id
  principal : row.principal ∈ db.principals
  principalOwn : row.principal.id = row.family.subject

theorem refreshTokenCandidate_spec {row : RefreshCandidateRow}
    (found : refreshTokenCandidate db client supplied = some row) :
    row.Found db client supplied := by
  simp only [refreshTokenCandidate, Option.bind_eq_bind, Option.bind_eq_some_iff] at found
  obtain ⟨token, tokenFound, family, familyFound, principal, principalFound, consent, consentFound,
    same⟩ := found
  obtain rfl := Option.some.inj same
  obtain ⟨tokenMem, named⟩ := Table.find?_spec tokenFound
  obtain ⟨familyMem, owning⟩ := Table.find?_spec familyFound
  obtain ⟨principalMem, subject⟩ := Table.find?_spec principalFound
  obtain ⟨consentMem, granted⟩ := Table.find?_spec consentFound
  simp only [Bool.and_eq_true, decide_eq_true_eq] at named owning subject granted
  exact ⟨tokenMem, named.1, named.2, familyMem, owning.1, owning.2, consentMem, granted.symm,
    principalMem, subject⟩

/-- The locked rows are the candidate's own. -/
theorem refreshCredentialLock_eq {row : RefreshCandidateRow}
    (found : row.Found db client supplied) {token : RefreshToken} {family : Family}
    (locked : refreshCredentialLock db client row = some (token, family)) :
    token = row.token ∧ family = row.family := by
  simp only [refreshCredentialLock, Option.bind_eq_bind, Option.bind_eq_some_iff] at locked
  obtain ⟨token, tokenFound, family, familyFound, same⟩ := locked
  obtain ⟨rfl, rfl⟩ := Prod.mk.inj (Option.some.inj same)
  obtain ⟨tokenMem, named⟩ := Table.find?_spec tokenFound
  obtain ⟨familyMem, owning⟩ := Table.find?_spec familyFound
  simp only [Bool.and_eq_true, decide_eq_true_eq] at named owning
  exact ⟨Table.unique tokenMem found.token named.1,
    Table.unique familyMem found.family owning.1.1.1.1.2⟩

theorem refreshCredentialLock_found {row : RefreshCandidateRow}
    (found : row.Found db client supplied) :
    refreshCredentialLock db client row = some (row.token, row.family) := by
  have token : (db.tokens.find? fun token =>
      token.id = row.token.id && token.digest = row.token.digest) = some row.token :=
    Table.find?_eq_some_of_key found.token (by simp) fun other _ holds => by
      simp only [Bool.and_eq_true, decide_eq_true_eq] at holds
      exact holds.1
  have family : (db.families.find? fun family =>
      family.id = row.token.family && family.id = row.family.id &&
        family.client = some client.application && family.session = row.family.session &&
        family.subject = row.family.subject && family.consent = some row.consent.id) =
      some row.family :=
    Table.find?_eq_some_of_key found.family
      (by simp [found.familyOwn, found.client, found.consentOwn]) fun other _ holds => by
        simp only [Bool.and_eq_true, decide_eq_true_eq] at holds
        exact holds.1.1.1.1.2
  simp only [refreshCredentialLock, Option.bind_eq_bind, token, Option.bind_some, family]
  rfl

theorem refreshUsable_spec {token : RefreshToken} {family : Family}
    (usable : refreshUsable now token family = true) :
    token.consumedAt = none ∧ token.revokedAt = none ∧ now < token.expiresAt ∧
      family.status = .active ∧ now < family.absoluteExpiresAt := by
  simp only [refreshUsable, Bool.and_eq_true, decide_eq_true_eq, Option.isNone_iff_eq_none] at usable
  obtain ⟨⟨⟨⟨unconsumed, unrevoked⟩, expires⟩, status⟩, absolute⟩ := usable
  exact ⟨unconsumed, unrevoked, expires, status, absolute⟩

/-- A refresh is the next pair of the family, unless the token was consumed before. -/
theorem exchangeRefreshToken_eq_ok {result : RefreshExchange}
    (done : exchangeRefreshToken db settings now client supplied fresh = .ok (result, after)) :
    ∃ row, refreshTokenCandidate db client supplied = some row ∧
      refreshCredentialLock db client row = some (row.token, row.family) ∧
      ((row.token.consumedAt.isSome = true ∧ result = .reuseDetected ∧
          after = compromiseRefreshFamily db now row.family.id row.family.session
            client.application) ∨
        (refreshUsable now row.token row.family = true ∧
          lockCurrentApplicationClient db client = true ∧ ∃ authority response,
            lockCurrentApplicationOauthSubjectAuthority db now client.application row.consent.id
                row.binding = some authority ∧
              refreshIssuanceScopes db client row ≠ [] ∧ result = .issued response ∧
                issueTokens db settings now client
                    (authority.tokenSubject row.binding row.consent.id)
                    (refreshIssuanceScopes db client row) (some row.family.id) (some row.token.id)
                    fresh = .ok (response, after))) := by
  unfold exchangeRefreshToken at done
  split at done
  · simp at done
  · rename_i row lookup
    refine ⟨row, lookup, ?_⟩
    simp only at done
    split at done
    · simp at done
    · rename_i token family locked
      obtain ⟨rfl, rfl⟩ := refreshCredentialLock_eq (refreshTokenCandidate_spec lookup) locked
      refine ⟨locked, ?_⟩
      split at done
      · rename_i consumed
        obtain ⟨rfl, rfl⟩ := Prod.mk.inj (Except.ok.inj done)
        exact .inl ⟨consumed, rfl, rfl⟩
      · split at done
        · simp at done
        · rename_i usable
          simp only [Bool.or_eq_true, Bool.not_eq_true', not_or, Bool.not_eq_false] at usable
          split at done
          · simp at done
          · rename_i authority rests
            split at done
            · simp at done
            · rename_i remaining
              split at done
              · simp at done
              · rename_i response issued issuing
                obtain ⟨rfl, rfl⟩ := Prod.mk.inj (Except.ok.inj done)
                exact .inr ⟨usable.1, usable.2, authority, response, rests,
                  by simpa using remaining, rfl, issuing⟩

theorem Writes.exchangeRefreshToken {result : RefreshExchange}
    (done : exchangeRefreshToken db settings now client supplied fresh = .ok (result, after)) :
    Writes now db after := by
  obtain ⟨row, lookup, -, ⟨-, -, rfl⟩ | ⟨usable, -, authority, response, locked, -, -, issue⟩⟩ :=
    exchangeRefreshToken_eq_ok done
  · have found := refreshTokenCandidate_spec lookup
    exact (Write.compromiseRefreshFamily db now found.family found.client).writes
  · have found := refreshTokenCandidate_spec lookup
    obtain ⟨unconsumed, -, -, active, -⟩ := refreshUsable_spec usable
    obtain ⟨subject, session, consent, rests⟩ := authorityRests locked
    obtain ⟨issued, renewed, issuing, renewing, rfl, -⟩ := issueTokens_next issue
    have pair : Pair db row.family (some row.token.id)
        (applicationAccessToken settings now client
          (authority.tokenSubject row.binding row.consent.id)
          (refreshIssuanceScopes db client row) row.family.id fresh)
        (freshRefreshToken .oauthRefreshToken row.family.id (some row.token.id)
          (familyExpiry issued row.family.id) fresh) :=
      { issued := rests.issued rfl rfl rfl
        linked := .inr ⟨rfl, ⟨rfl, rfl, found.client.symm⟩, List.filter_sublist.subset⟩
        family := rfl
        parent := rfl
        unconsumed := rfl }
    exact (Write.rotate found.family active found.token found.familyOwn.symm unconsumed pair
      issuing renewing).writes

theorem testingActor_mem {publicId : String} {actor : Principal × String}
    (found : testingActor db publicId = some actor) : actor.1 ∈ db.principals := by
  obtain ⟨principal, own, rfl⟩ := Option.map_eq_some_iff.mp found
  exact List.mem_of_find?_eq_some own

theorem Writes.exchangeTestingActor {actorId : String}
    (done : exchangeTestingActor db settings now client actorId fresh = .ok (response, after)) :
    Writes now db after := by
  unfold Authority.exchangeTestingActor at done
  split at done
  · simp at done
  · split at done
    · simp at done
    · rename_i actor publicId found
      simp only at done
      split at done
      · simp at done
      · rename_i granted granting
        obtain ⟨started, starting, granting⟩ := Option.bind_eq_some_iff.mp granting
        obtain ⟨opened, issued, opening, issuing, renewing, -⟩ := issueTokens_first done
        obtain ⟨-, -, sessions, sessionsInsert, rfl⟩ := insertSubjectSession_eq_some starting
        obtain ⟨-, -, consents, consentsInsert, rfl⟩ := insertConsent_eq_some granting
        have held := ((Table.insert_spec sessionsInsert).2 _).mpr (.inl rfl)
        have consentHeld := ((Table.insert_spec consentsInsert).2 _).mpr (.inl rfl)
        refine (Write.session starting).writes.append ((Write.consent rfl granting).writes.append
          (Write.openFamily rfl ?_ ?_ opening issuing renewing).writes)
        · exact fun _ _ => ⟨⟨_, consentHeld, rfl⟩, ⟨actor, testingActor_mem found, rfl⟩⟩
        · exact
            { issued := ⟨_, held, rfl, rfl, rfl⟩
              linked := .inr ⟨rfl, ⟨rfl, rfl, rfl⟩, List.Subset.refl _⟩
              family := rfl
              parent := rfl
              unconsumed := rfl }

end Applications

/-! ## Codes and proofs -/

section Codes

variable {settings : SecuritySettings} {now : Nat} {db after : Db} {fresh : Fresh}

theorem Writes.consentUpsert {request : AuthorizationRequest} {selected : List Nat}
    (unbound : request.organization = none)
    (done : consentUpsert db request selected fresh = some after) : Writes now db after := by
  simp only [Authority.consentUpsert] at done
  split at done
  · obtain rfl := Option.some.inj done
    exact (Write.approveConsent db now request _ selected).writes
  · exact (Write.consent unbound done).writes

theorem Writes.approveRequest {request : AuthorizationRequest} {selected : List Nat}
    (unbound : request.organization = none)
    (done : approveRequest db settings now request selected fresh = .ok after) :
    Writes now db after := by
  simp only [Authority.approveRequest] at done
  split at done
  · simp at done
  · rename_i granted granting
    split at done
    · split at done
      · simp at done
      · rename_i issued issuing
        obtain rfl := Except.ok.inj done
        refine (Writes.consentUpsert unbound granting).append
          ((Write.decideRequest granted now _ ?_).writes.append (Write.code issuing).writes)
        intro row picked
        simp only [Bool.and_eq_true, decide_eq_true_eq] at picked
        exact picked.1.2
    · simp at done

theorem Writes.issueForSelection {access : AccessContext} {input : ShortLivedTokenRequest}
    (done : issueForSelection db settings now access input fresh = .ok after) :
    Writes now db after := by
  unfold Authority.issueForSelection at done
  split at done
  · simp at done
  · split at done
    · simp at done
    · split at done
      · simp at done
      · split at done
        · simp at done
        · split at done
          · simp at done
          · split at done
            · simp at done
            · simp only [mintShortLivedToken] at done
              split at done
              · simp at done
              · rename_i requested requesting
                exact (Write.request requesting).writes.append (.approveRequest rfl done)

/-- A new exchange inserts its proof, a repeated one writes nothing. -/
theorem oboExchange_eq_ok {client : ApplicationIdentity} {access : AccessContext}
    {request : OboExchangeRequest} {replayed : Option Nat} {response : Option OboProofResponse}
    (done : oboExchange db now client access request replayed fresh = .ok (response, after)) :
    signatureFresh request.signedAt now = true ∧ access.client = some client.application ∧
      ∃ organization membership authority,
        selectedMembership
            (resolveApplicationOboMemberships db (clientContext client client.organization) now
              access.token access.subject.id request.orgId) = .ok (organization, membership) ∧
          lockCurrentApplicationOboExchangeAuthority db (clientContext client organization) now
              client access organization membership request.audience request.endpointId =
            some authority ∧
          request.checks authority.endpoint = .ok () ∧
            ((∃ proofId, replayed = some proofId ∧ response = none ∧ after = db ∧
                exchangeReplayIsLive db (subjectContext client access.subject.id organization) now
                  proofId client.application organization = true) ∨
              (replayed = none ∧
                insertProof db (newProof now client access organization membership request
                  authority fresh) = some after)) := by
  unfold oboExchange at done
  split at done
  · simp at done
  · rename_i signed
    split at done
    · simp at done
    · rename_i own
      split at done
      · simp at done
      · rename_i organization membership selected
        split at done
        · simp at done
        · rename_i authority locked
          split at done
          · simp at done
          · rename_i checked
            refine ⟨by simpa using signed, not_not.mp own, organization, membership, authority,
              selected, locked, checked, ?_⟩
            split at done
            · rename_i proofId
              split at done
              · rename_i live
                obtain ⟨rfl, rfl⟩ := Prod.mk.inj (Except.ok.inj done)
                exact .inl ⟨proofId, rfl, rfl, rfl, live⟩
              · simp at done
            · simp only at done
              split at done
              · simp at done
              · rename_i inserted inserting
                obtain ⟨rfl, rfl⟩ := Prod.mk.inj (Except.ok.inj done)
                exact .inr ⟨rfl, inserting⟩

theorem Writes.oboExchange {client : ApplicationIdentity} {access : AccessContext}
    {request : OboExchangeRequest} {replayed : Option Nat} {response : Option OboProofResponse}
    (done : oboExchange db now client access request replayed fresh = .ok (response, after)) :
    Writes now db after := by
  obtain ⟨-, -, organization, membership, authority, -, -, -, ⟨_, -, -, rfl, -⟩ | ⟨-, inserting⟩⟩ :=
    oboExchange_eq_ok done
  · exact .refl now after
  · exact (Write.proof inserting).writes

/-- Everything a verification checked, in the order of the source. -/
structure Verified (db : Db) (now : Nat) (client : ApplicationIdentity) (supplied : List Nat)
    (request : OboVerifyRequest) (proof : OboProof) (current : CurrentProofContext)
    (authorization : ApplicationAuthorization) : Prop where
  lookup : lookupApplicationOboProof db client supplied = some proof
  unconsumed : proof.consumedAt = none
  unrevoked : proof.revokedAt = none
  unexpired : now < proof.expiresAt
  binding : requestBindingMatches proof request = true
  context : applicationOboLoadCurrentContext db
    (subjectContext client proof.subject proof.organization) now proof client.application =
      some current
  epochs : current.matches proof = true
  endpoint : current.endpointActive = true
  snapshot : getCurrentApplicationAuthorization db
    (subjectContext client proof.subject proof.organization) now proof.parentAccessToken
      proof.subject proof.organization proof.membership client (some proof.id) =
        .ok (some authorization)
  epoch : authorization.authorizationEpoch = proof.membershipAuthzEpoch
  consumable : db.proofs.any (proofConsumable now proof.id) = true

theorem oboVerify_eq_ok {client : ApplicationIdentity}
    {request : OboVerifyRequest} {result : OboAccessResult}
    (done : oboVerify db now client supplied request = .ok (result, after)) :
    ∃ current, Verified db now client supplied request result.proof current result.authorization ∧
      result =
        { proof := result.proof
          audience := client.appId
          authorization := result.authorization
          subjectPublicId := current.subjectPublicId
          orgId := current.orgId
          consumedAt := now } ∧
      after =
        { db with
          proofs := db.proofs.update (proofConsumable now result.proof.id)
            (fun proof => { proof with consumedAt := some now }) fun _ => rfl } := by
  unfold oboVerify at done
  split at done
  · simp at done
  · rename_i proof lookup
    split at done
    · simp at done
    · rename_i unconsumed
      split at done
      · simp at done
      · rename_i usable
        simp only [Bool.or_eq_true, decide_eq_true_eq, not_or, Nat.not_le, Bool.not_eq_true,
          Option.isSome_eq_false_iff, Option.isNone_iff_eq_none] at usable unconsumed
        split at done
        · simp at done
        · rename_i binding
          simp only at done
          split at done
          · simp at done
          · rename_i current context
            split at done
            · simp at done
            · rename_i epochs
              split at done
              · simp at done
              · rename_i endpoint
                split at done
                · simp at done
                · simp at done
                · rename_i authorization snapshot
                  split at done
                  · simp at done
                  · rename_i epoch
                    split at done
                    · rename_i consumable
                      obtain ⟨rfl, rfl⟩ := Prod.mk.inj (Except.ok.inj done)
                      exact ⟨current,
                        { lookup := lookup
                          unconsumed := unconsumed
                          unrevoked := usable.1
                          unexpired := usable.2
                          binding := by simpa using binding
                          context := context
                          epochs := by simpa using epochs
                          endpoint := by simpa using endpoint
                          snapshot := snapshot
                          epoch := not_not.mp epoch
                          consumable := consumable }, rfl, rfl⟩
                    · simp at done

theorem Writes.oboVerify {client : ApplicationIdentity}
    {request : OboVerifyRequest} {result : OboAccessResult}
    (done : oboVerify db now client supplied request = .ok (result, after)) :
    Writes now db after := by
  obtain ⟨current, -, -, rfl⟩ := oboVerify_eq_ok done
  exact (Write.consumeProof db now _).writes

end Codes

/-! ## The system -/

theorem Writes.committed {ε α : Type} {now : Nat} {db : Db} {result : Except ε (α × Db)}
    (writes : ∀ value after, result = .ok (value, after) → Writes now db after) :
    Writes now db (committed db result) := by
  cases done : result with
  | error _ => exact .refl now db
  | ok result => exact writes result.1 result.2 done

theorem next_writes (settings : SecuritySettings) (db : Db) (action : Action) :
    Writes action.now db (next settings db action) := by
  cases action with
  | authenticate | introspect | introspectRefreshToken => exact .refl _ db
  | rotateRefreshToken => exact .committed fun _ _ done => .rotateRefreshToken done
  | exchangeAuthorizationCode => exact .committed fun _ _ done => .exchangeAuthorizationCode done
  | exchangeRefreshToken => exact .committed fun _ _ done => .exchangeRefreshToken done
  | oboExchange => exact .committed fun _ _ done => .oboExchange done
  | oboVerify => exact .committed fun _ _ done => .oboVerify done
  | issueLoginSession now principal fresh =>
      refine .committed fun response after done => ?_
      unfold issueLoginSession at done
      split at done
      · simp at done
      · split at done
        · simp at done
        · exact .issueSession done
  | issueSiliconSession => exact .committed fun _ _ done => .issueSession done
  | exchangeTestingActor => exact .committed fun _ _ done => .exchangeTestingActor done
  | issueForSelection now access input fresh =>
      simp only [next]
      split
      · rename_i done
        exact .issueForSelection done
      · exact .refl now db
  | revokeOne now principal session reason => exact .revokeOne db now principal session reason
  | revokeAll now principal => exact .revokeAll db now principal
  | rotateSiliconCredential now silicon => exact (Write.rotateSiliconCredential db now silicon).writes
  | removeSilicon now silicon => exact (Write.removeSilicon db now silicon).writes
  | revokeAccessToken now client supplied =>
      exact (Write.revokeAccessToken db now client supplied).writes
  | revokeRefreshFamily now client supplied =>
      exact (Write.revokeRefreshFamily db now client supplied).writes
  | revokeApplicationAuthority now application reason =>
      exact (Write.revokeApplicationAuthority db now application reason).writes
  | close now reason selection => exact (Write.close db now reason selection).writes
  | purge now selection => exact (Write.purge db now selection).writes
  | changePrincipal now id status raise => exact (Write.changePrincipal db now id status raise).writes
  | createPrincipal now principal =>
      show Writes now db ((createPrincipal db principal).getD db)
      cases done : createPrincipal db principal with
      | none => exact .refl now db
      | some after => exact (Write.principal done).writes
  | configure now directory => exact (Write.configure db now directory).writes

theorem next_evolves (settings : SecuritySettings) (db : Db) (action : Action) :
    Evolves action.now db (next settings db action) :=
  (next_writes settings db action).evolves

end SiliconIam.Auth.Authority
