/-
# Auth.EndedSessions -- an ended session confers nothing

A session ends when its row leaves `active`, when its subject's epoch is raised, or
when one of its expiries passes.  `accepted_current` says that whatever operation
accepts a credential, the session the credential was derived from is current in the
very rows of that transaction; `EndedBy.evolves` that an ended session never becomes
current again.  Together they give `ended_confers_nothing` for every run, whichever
rows the ending path revoked.
-/
import SiliconIam.Auth.CredentialUse

namespace SiliconIam.Auth.Authority

open SiliconIam.Theory
open SiliconIam.Theory.Runs (AllSteps allSteps_of_forall)

set_option autoImplicit false

variable {settings : SecuritySettings} {now : Nat} {db : Db}

/-! ## Ended sessions -/

/-- Ended by its status or by its subject's epoch. -/
def Ended (db : Db) (session : Nat) : Prop :=
  session ∈ db.drawn ∧ ∀ row ∈ db.sessions, row.id = session →
    row.status ≠ .active ∨
      ∀ subject ∈ db.principals, subject.id = row.subject → row.authEpoch < subject.authEpoch

/-- One of its expiries has passed. -/
def Expired (since : Nat) (db : Db) (session : Nat) : Prop :=
  session ∈ db.drawn ∧ ∀ row ∈ db.sessions, row.id = session →
    row.idleExpiresAt ≤ since ∨ row.absoluteExpiresAt ≤ since

variable {session : Nat}

theorem Ended.not_current (ended : Ended db session) :
    ¬ CurrentSession db now session := by
  rintro ⟨row, mem, own, live, subject, subjectMem, named, epoch⟩
  simp only [Session.live, Bool.and_eq_true, decide_eq_true_eq] at live
  rcases ended.2 row mem own with closed | raised
  · exact closed live.1.1
  · have := raised subject subjectMem named
    omega

theorem Expired.not_current {since : Nat} (expired : Expired since db session)
    (past : since ≤ now) : ¬ CurrentSession db now session := by
  rintro ⟨row, mem, own, live, -⟩
  simp only [Session.live, Bool.and_eq_true, decide_eq_true_eq] at live
  have := expired.2 row mem own
  omega

theorem Ended.evolves {after : Db} (epochs : Epochs db)
    (evolves : Evolves now db after) (ended : Ended db session) : Ended after session := by
  refine ⟨evolves.drawn _ ended.1, fun row mem own => ?_⟩
  obtain ⟨old, held, step⟩ := evolves.sessions.continues mem (own ▸ ended.1)
  have same : old.id = row.id := Session.keyed _ _ step.fixed
  have subject : old.subject = row.subject := (congrArg Session.subject step.fixed :)
  have epoch : old.authEpoch = row.authEpoch := (congrArg Session.authEpoch step.fixed :)
  rcases ended.2 old held (same.trans own) with closed | raised
  · exact .inl (step.marks .ended closed)
  · right
    intro principal principalMem named
    have known : principal.id ∈ db.drawn := by
      rw [named, ← subject]
      exact epochs.subjects old held
    obtain ⟨before, beforeMem, grown⟩ := evolves.principals.continues principalMem known
    have sameId : before.id = principal.id := Principal.keyed _ _ grown.fixed
    have raise : before.authEpoch ≤ principal.authEpoch := grown.marks _ (Nat.le_refl _)
    have := raised before beforeMem (sameId.trans (named.trans subject.symm))
    omega

/-- Only a live session is touched, so an expiry that has passed stays passed. -/
theorem Expired.evolves {after : Db} {since : Nat} (past : since ≤ now)
    (evolves : Evolves now db after) (expired : Expired since db session) :
    Expired since after session := by
  refine ⟨evolves.drawn _ expired.1, fun row mem own => ?_⟩
  obtain ⟨old, held, step⟩ := evolves.sessions.continues mem (own ▸ expired.1)
  have same : old.id = row.id := Session.keyed _ _ step.fixed
  have absolute : old.absoluteExpiresAt = row.absoluteExpiresAt :=
    (congrArg Session.absoluteExpiresAt step.fixed :)
  rcases expired.2 old held (same.trans own) with idle | passed
  · exact .inl (step.marks (.idle since) (fun _ => idle) past)
  · omega

/-! ## The session of a credential -/

/-- Whatever rows the credential still has lead to this session. -/
def LeadsTo (db : Db) (session : Nat) : Credential → Prop
  | .accessToken id => id ∈ db.drawn ∧ ∀ token ∈ db.access, token.id = id → token.session = session
  | .refreshToken id => id ∈ db.drawn ∧ ∃ owner ∈ db.drawn,
      (∀ token ∈ db.tokens, token.id = id → token.family = owner) ∧
        ∀ family ∈ db.families, family.id = owner → family.session = session
  | .authorizationCode id => id ∈ db.drawn ∧ ∃ owner ∈ db.drawn,
      (∀ code ∈ db.codes, code.id = id → code.request = owner) ∧
        ∀ request ∈ db.requests, request.id = owner → request.session = session
  | .oboProof id => id ∈ db.drawn ∧ ∃ owner ∈ db.drawn,
      (∀ proof ∈ db.proofs, proof.id = id → proof.parentAccessToken = owner) ∧
        ∀ token ∈ db.access, token.id = owner → token.session = session

variable {credential : Credential}

theorem DerivedFrom.leadsTo (ids : Ids db)
    (derived : DerivedFrom db session credential) : LeadsTo db session credential := by
  cases credential with
  | accessToken id =>
      obtain ⟨token, mem, rfl, rfl⟩ := derived
      exact ⟨ids.access token mem, fun other held same => by rw [Table.unique held mem same]⟩
  | refreshToken id =>
      obtain ⟨token, mem, rfl, family, familyMem, own, rfl⟩ := derived
      exact ⟨ids.tokens token mem, family.id, ids.families family familyMem,
        fun other held same => by rw [Table.unique held mem same, own],
        fun other held same => by rw [Table.unique held familyMem same]⟩
  | authorizationCode id =>
      obtain ⟨code, mem, rfl, request, requestMem, own, rfl⟩ := derived
      exact ⟨ids.codes code mem, request.id, ids.requests request requestMem,
        fun other held same => by rw [Table.unique held mem same, own],
        fun other held same => by rw [Table.unique held requestMem same]⟩
  | oboProof id =>
      obtain ⟨proof, mem, rfl, token, tokenMem, own, rfl⟩ := derived
      exact ⟨ids.proofs proof mem, token.id, ids.access token tokenMem,
        fun other held same => by rw [Table.unique held mem same, own],
        fun other held same => by rw [Table.unique held tokenMem same]⟩

/-- No column that leads to the session ever changes. -/
theorem LeadsTo.evolves {after : Db}
    (evolves : Evolves now db after) (leads : LeadsTo db session credential) :
    LeadsTo after session credential := by
  have access (id : Nat) (drawn : id ∈ db.drawn)
      (held : ∀ token ∈ db.access, token.id = id → token.session = session) :
      ∀ token ∈ after.access, token.id = id → token.session = session := by
    intro token mem same
    obtain ⟨old, oldMem, step⟩ := evolves.access.continues mem (same ▸ drawn)
    have kept : old.session = token.session := (congrArg AccessToken.session step.fixed :)
    rw [← kept]
    exact held old oldMem ((AccessToken.keyed _ _ step.fixed).trans same)
  cases credential with
  | accessToken id => exact ⟨evolves.drawn _ leads.1, access id leads.1 leads.2⟩
  | refreshToken id =>
      obtain ⟨drawn, owner, ownerDrawn, named, owned⟩ := leads
      refine ⟨evolves.drawn _ drawn, owner, evolves.drawn _ ownerDrawn, ?_, ?_⟩
      · intro token mem same
        obtain ⟨old, oldMem, step⟩ := evolves.tokens.continues mem (same ▸ drawn)
        have kept : old.family = token.family := (congrArg RefreshToken.family step.fixed :)
        rw [← kept]
        exact named old oldMem ((RefreshToken.keyed _ _ step.fixed).trans same)
      · intro family mem same
        obtain ⟨old, oldMem, step⟩ := evolves.families.continues mem (same ▸ ownerDrawn)
        have kept : old.session = family.session := (congrArg Family.session step.fixed :)
        rw [← kept]
        exact owned old oldMem ((Family.keyed _ _ step.fixed).trans same)
  | authorizationCode id =>
      obtain ⟨drawn, owner, ownerDrawn, named, owned⟩ := leads
      refine ⟨evolves.drawn _ drawn, owner, evolves.drawn _ ownerDrawn, ?_, ?_⟩
      · intro code mem same
        obtain ⟨old, oldMem, step⟩ := evolves.codes.continues mem (same ▸ drawn)
        have kept : old.request = code.request := (congrArg AuthorizationCode.request step.fixed :)
        rw [← kept]
        exact named old oldMem ((AuthorizationCode.keyed _ _ step.fixed).trans same)
      · intro request mem same
        obtain ⟨old, oldMem, step⟩ := evolves.requests.continues mem (same ▸ ownerDrawn)
        have kept : old.session = request.session :=
          (congrArg AuthorizationRequest.session step.fixed :)
        rw [← kept]
        exact owned old oldMem ((AuthorizationRequest.keyed _ _ step.fixed).trans same)
  | oboProof id =>
      obtain ⟨drawn, owner, ownerDrawn, named, owned⟩ := leads
      refine ⟨evolves.drawn _ drawn, owner, evolves.drawn _ ownerDrawn, ?_,
        access owner ownerDrawn owned⟩
      intro proof mem same
      obtain ⟨old, oldMem, step⟩ := evolves.proofs.continues mem (same ▸ drawn)
      have kept : old.parentAccessToken = proof.parentAccessToken :=
        (congrArg OboProof.parentAccessToken step.fixed :)
      rw [← kept]
      exact named old oldMem ((OboProof.keyed _ _ step.fixed).trans same)

theorem LeadsTo.derived {other : Nat}
    (leads : LeadsTo db session credential) (derived : DerivedFrom db other credential) :
    other = session := by
  cases credential with
  | accessToken id =>
      obtain ⟨token, mem, own, rfl⟩ := derived
      exact leads.2 token mem own
  | refreshToken id =>
      obtain ⟨-, owner, -, named, owned⟩ := leads
      obtain ⟨token, mem, own, family, familyMem, familyOwn, rfl⟩ := derived
      exact owned family familyMem (familyOwn.trans (named token mem own))
  | authorizationCode id =>
      obtain ⟨-, owner, -, named, owned⟩ := leads
      obtain ⟨code, mem, own, request, requestMem, requestOwn, rfl⟩ := derived
      exact owned request requestMem (requestOwn.trans (named code mem own))
  | oboProof id =>
      obtain ⟨-, owner, -, named, owned⟩ := leads
      obtain ⟨proof, mem, own, token, tokenMem, tokenOwn, rfl⟩ := derived
      exact owned token tokenMem (tokenOwn.trans (named proof mem own))

/-! ## What an acceptance stands on -/

/-- The credential was derived from a session that is current. -/
def Current (db : Db) (now : Nat) (credential : Credential) : Prop :=
  ∃ session, DerivedFrom db session credential ∧ CurrentSession db now session

variable {supplied : List Nat}

theorem authenticate_current {tokenClass : TokenClass} {access : AccessContext}
    (epochs : Epochs db) (done : authenticate db now tokenClass supplied = some access) :
    Current db now (.accessToken access.token) := by
  simp only [authenticate, Option.bind_eq_bind, Option.bind_eq_some_iff] at done
  obtain ⟨token, tokenFound, session, sessionFound, subject, subjectFound, done⟩ := done
  obtain ⟨current, done⟩ := Option.ite_none_right_eq_some.mp done
  obtain rfl := Option.some.inj done
  obtain ⟨tokenMem, -⟩ := Table.find?_spec tokenFound
  obtain ⟨sessionMem, own⟩ := Table.find?_spec sessionFound
  obtain ⟨subjectMem, named⟩ := Table.find?_spec subjectFound
  simp only [accessCurrent, Bool.and_eq_true, decide_eq_true_eq] at own named current
  obtain ⟨⟨⟨⟨⟨-, epoch⟩, live⟩, -⟩, -⟩, -⟩ := current
  obtain ⟨-, issued⟩ := epochs.issued token tokenMem session sessionMem own.1
  refine ⟨token.session, ⟨token, tokenMem, rfl, rfl⟩, session, sessionMem, own.1, live, subject,
    subjectMem, ?_, ?_⟩
  · exact named.1.trans own.2.symm
  · exact epoch.trans issued.symm

theorem rotateRefreshToken_current {fresh : Fresh} {row : RefreshLookupRow}
    {response : TokenResponse} {after : Db} (lookup : refreshLookup db supplied = some row)
    (done : rotateRefreshToken db settings now supplied fresh = .ok (.rotated response, after)) :
    Current db now (.refreshToken row.token.id) := by
  obtain ⟨found, foundLookup, ⟨-, replayed, -⟩ | ⟨-, active, -⟩⟩ := rotateRefreshToken_eq_ok done
  · cases replayed
  · obtain rfl := Option.some.inj (lookup.symm.trans foundLookup)
    have found := refreshLookup_spec lookup
    obtain ⟨-, -, -, -, live, -, epoch⟩ := RefreshLookupRow.active_spec active
    exact ⟨row.family.session,
      ⟨row.token, found.token, rfl, row.family, found.family, found.familyOwn, rfl⟩,
      row.session, found.session, found.sessionOwn, live, row.principal, found.principal,
      found.principalOwn, epoch.symm⟩

variable {client : ApplicationIdentity}

theorem exchangeAuthorizationCode_current
    {fresh : Fresh} {row : AuthorizationCodeRow} {result : AppTokenResponse × Db}
    (lookup : authorizationCodeLookup db now client supplied = some row)
    (done : exchangeAuthorizationCode db settings now client supplied fresh = .ok result) :
    Current db now (.authorizationCode row.code.id) := by
  obtain ⟨other, authority, -, otherLookup, locked, -⟩ := exchangeAuthorizationCode_eq_ok done
  obtain rfl := Option.some.inj (lookup.symm.trans otherLookup)
  have found := authorizationCodeLookup_spec lookup
  exact ⟨row.request.session,
    ⟨row.code, found.code, rfl, row.request, found.request, found.requestOwn, rfl⟩,
    .of_subjectAuthority locked⟩

theorem candidate_derived
    {row : RefreshCandidateRow} (lookup : refreshTokenCandidate db client supplied = some row) :
    DerivedFrom db row.family.session (.refreshToken row.token.id) :=
  have found := refreshTokenCandidate_spec lookup
  ⟨row.token, found.token, rfl, row.family, found.family, found.familyOwn, rfl⟩

theorem exchangeRefreshToken_current
    {fresh : Fresh} {row : RefreshCandidateRow} {response : AppTokenResponse} {after : Db}
    (lookup : refreshTokenCandidate db client supplied = some row)
    (done : exchangeRefreshToken db settings now client supplied fresh =
      .ok (.issued response, after)) : Current db now (.refreshToken row.token.id) := by
  obtain ⟨other, otherLookup, -, ⟨-, replayed, -⟩ | ⟨-, -, authority, -, locked, -⟩⟩ :=
    exchangeRefreshToken_eq_ok done
  · cases replayed
  · obtain rfl := Option.some.inj (lookup.symm.trans otherLookup)
    exact ⟨row.family.session, candidate_derived lookup, .of_subjectAuthority locked⟩

/-- Reaching a membership through a token makes the token's session current. -/
theorem Current.of_allowsMembership {context : DatabaseContext} {tokenId membershipId : Nat}
    (allowed : applicationTokenAllowsMembership db context now tokenId membershipId = true) :
    Current db now (.accessToken tokenId) := by
  obtain ⟨token, mem, own, current⟩ := CurrentSession.of_allowsMembership allowed
  exact ⟨token.session, ⟨token, mem, own, rfl⟩, current⟩

/-- A proof is derived from the session of its parent token. -/
theorem Current.of_parent {proof : OboProof} (mem : proof ∈ db.proofs)
    (parent : Current db now (.accessToken proof.parentAccessToken)) :
    Current db now (.oboProof proof.id) := by
  obtain ⟨session, ⟨token, tokenMem, own, named⟩, current⟩ := parent
  exact ⟨session, ⟨proof, mem, rfl, token, tokenMem, own, named⟩, current⟩

theorem exchangeParent_current {access : AccessContext}
    {context : DatabaseContext} {organization membership : Nat} {audience endpoint : String}
    {authority : ExchangeAuthority}
    (locked : lockCurrentApplicationOboExchangeAuthority db context now client access organization
      membership audience endpoint = some authority) :
    Current db now (.accessToken access.token) := by
  obtain ⟨parent, from_, -⟩ := exchangeAuthority_spec locked
  have allowed := from_.reaches
  rw [from_.own] at allowed
  exact .of_allowsMembership allowed

theorem exchangeReplay_current {context : DatabaseContext} {proofId issuer organization : Nat}
    (live : exchangeReplayIsLive db context now proofId issuer organization = true) :
    Current db now (.oboProof proofId) := by
  obtain ⟨proof, mem, holds⟩ := Table.any_spec live
  simp only [Bool.and_eq_true, decide_eq_true_eq] at holds
  obtain ⟨⟨⟨⟨⟨⟨⟨⟨⟨⟨⟨⟨own, -⟩, -⟩, -⟩, -⟩, -⟩, -⟩, -⟩, -⟩, -⟩, -⟩, -⟩, issuers⟩ := holds
  obtain ⟨issuer, -, holds⟩ := Table.any_spec issuers
  simp only [Bool.and_eq_true] at holds
  obtain ⟨subject, -, holds⟩ := Table.any_spec holds.2
  simp only [Bool.and_eq_true] at holds
  obtain ⟨member, -, holds⟩ := List.any_eq_true.mp holds.2
  simp only [Bool.and_eq_true] at holds
  obtain ⟨parent, -, holds⟩ := Table.any_spec holds.2
  simp only [Bool.and_eq_true, decide_eq_true_eq] at holds
  obtain ⟨⟨⟨⟨⟨⟨⟨named, -⟩, -⟩, -⟩, allowed⟩, -⟩, -⟩, -⟩ := holds
  rw [named] at allowed
  exact own ▸ .of_parent mem (.of_allowsMembership allowed)

theorem oboVerify_current
    {request : OboVerifyRequest} {result : OboAccessResult} {after : Db}
    (done : oboVerify db now client supplied request = .ok (result, after)) :
    Current db now (.oboProof result.proof.id) ∧
      Current db now (.accessToken result.proof.parentAccessToken) := by
  obtain ⟨current, verified, -⟩ := oboVerify_eq_ok done
  obtain ⟨token, -, own, -, -, allowed⟩ := snapshot_token verified.snapshot
  rw [own] at allowed
  have parent := Current.of_allowsMembership allowed
  exact ⟨.of_parent (Table.find?_spec verified.lookup).1 parent, parent⟩

theorem introspect_current {access : AccessContext}
    {orgContext : Option String} {answer : Introspection}
    (done : introspect db now client access orgContext = some answer) :
    Current db now (.accessToken access.token) := by
  unfold introspect at done
  split at done
  · simp at done
  · split at done
    · simp at done
    · simp only [Option.bind_eq_bind, Option.bind_eq_some_iff] at done
      obtain ⟨metadata, found, -⟩ := done
      obtain ⟨token, mem, own, -, -, -, -, current⟩ := metadata_token found
      exact ⟨token.session, ⟨token, mem, own, rfl⟩, current⟩

theorem introspectRefreshToken_current
    {orgContext : Option String} {answer : Introspection} {row : RefreshCandidateRow}
    (lookup : refreshTokenCandidate db client supplied = some row)
    (done : introspectRefreshToken db now client supplied orgContext = some answer) :
    Current db now (.refreshToken row.token.id) := by
  obtain ⟨authority, locked, -⟩ := introspectRefreshToken_spec lookup done
  exact ⟨row.family.session, candidate_derived lookup, .of_subjectAuthority locked⟩

/-- Whatever accepts a credential, the credential's session is current. -/
theorem accepted_current (epochs : Epochs db) {action : Action}
    (taken : Acceptance settings db action credential) : Current db action.now credential := by
  cases taken with
  | authenticate done => exact authenticate_current epochs done
  | rotate lookup done => exact rotateRefreshToken_current lookup done
  | code lookup done => exact exchangeAuthorizationCode_current lookup done
  | refresh lookup done => exact exchangeRefreshToken_current lookup done
  | exchange done =>
      obtain ⟨-, -, organization, membership, authority, -, locked, -⟩ := oboExchange_eq_ok done
      exact exchangeParent_current locked
  | replay done =>
      obtain ⟨-, -, organization, membership, authority, -, -, -, ⟨proofId, same, -, -, live⟩ |
        ⟨absent, -⟩⟩ := oboExchange_eq_ok done
      · obtain rfl := Option.some.inj same
        exact exchangeReplay_current live
      · simp at absent
  | verify done => exact (oboVerify_current done).1
  | verifyParent done => exact (oboVerify_current done).2
  | introspect done => exact introspect_current done
  | introspectRefresh lookup done => exact introspectRefreshToken_current lookup done

/-! ## Runs -/

/-- Once a session has ended, no later step accepts a credential derived from it, be it
derived when the session ended or since. -/
theorem ended_confers_nothing (settings : SecuritySettings) (start : Db) (sound : Sound start)
    (before later : List Action) (session since : Nat)
    (ended : Ended (Runs.after (next settings) start before) session ∨
      Expired since (Runs.after (next settings) start before) session ∧
        ∀ action ∈ later, since ≤ action.now) :
    AllSteps (next settings)
      (fun db action => ∀ credential,
        DerivedFrom (Runs.after (next settings) start before) session credential ∨
            DerivedFrom db session credential →
          credential ∉ accepted settings db action)
      (Runs.after (next settings) start before) later := by
  replace sound : Sound (Runs.after (next settings) start before) := sound.runs before
  generalize Runs.after (next settings) start before = ending at sound ended ⊢
  obtain ⟨since, ended, clock⟩ : ∃ since, (Ended ending session ∨ Expired since ending session) ∧
      ∀ action ∈ later, since ≤ action.now := by
    rcases ended with closed | ⟨passed, clock⟩
    · exact ⟨0, .inl closed, fun _ _ => Nat.zero_le _⟩
    · exact ⟨since, .inr passed, clock⟩
  let Inv (db : Db) : Prop := Sound db ∧ (Ended db session ∨ Expired since db session) ∧
    ∀ credential, DerivedFrom ending session credential → LeadsTo db session credential
  have start : Inv ending := ⟨sound, ended, fun _ derived => derived.leadsTo sound.ids⟩
  have past : AllSteps (next settings) (fun _ action => since ≤ action.now) ending later :=
    allSteps_of_forall later clock ending
  refine AllSteps.imp ?_ ?_ later ending start past
  · rintro db action ⟨sound, ended, leads⟩ past
    have evolves := next_evolves settings db action
    exact ⟨sound.next action, ended.imp (.evolves sound.epochs evolves) (.evolves past evolves),
      fun credential derived => (leads credential derived).evolves evolves⟩
  · rintro db action ⟨sound, ended, leads⟩ past credential derived taken
    obtain ⟨own, ownDerived, current⟩ := accepted_current sound.epochs (.of_accepted taken)
    have same : own = session := by
      rcases derived with earlier | derived
      · exact (leads credential earlier).derived ownDerived
      · exact ownDerived.unique derived
    subst same
    rcases ended with closed | passed
    · exact closed.not_current current
    · exact passed.not_current past current

/-! ### A login whose session is revoked -/

namespace Scenario

def ttls : SecuritySettings where
  accessTokenTtl := 100
  refreshFamilyTtl := 1000
  authorizationCodeTtl := 60

def directory : Directory where
  carbons := [{ id := 1, carbonId := "ada", deletedAt := none }]
  silicons := []
  organizations :=
    [{ id := 2, orgId := "acme", active := true, trustedOrg := false
       allowedRestrictedIamScopes := [] }]
  memberships :=
    [{ id := 3, organization := 2, principal := 1, principalKind := .carbon, active := true
       authzEpoch := 1 }]
  applications :=
    [{ id := 4, appId := "crm", organization := 2, verified := true, deletedAt := none
       isPrivate := false, approvedScopes := ["self.identity.read", "obo:ledger:post"] },
     { id := 5, appId := "ledger", organization := 2, verified := true, deletedAt := none
       isPrivate := false, approvedScopes := ["self.identity.read"] }]
  endpoints :=
    [{ application := 5, endpointId := "post", path := "/entries", metadataDefinition := ""
       version := 1, active := true, ttlSeconds := 30 }]

/-- The identifiers `n`, …; a digest is the identifier plus a thousand. -/
def fresh (n : Nat) : Fresh where
  session := n
  family := n + 1
  access := n + 2
  accessDigest := n + 1002
  refresh := n + 3
  refreshDigest := n + 1003
  request := n + 4
  consent := n + 5
  code := n + 6
  codeDigest := n + 1006
  proof := n + 7
  proofDigest := n + 1007

def crm : ApplicationIdentity where
  application := 4
  appId := "crm"
  organization := 2
  authEpoch := 1

def principal (id : Nat) (kind : PrincipalKind) : Principal where
  id := id
  kind := kind
  status := .active
  authEpoch := 1

/-- What authenticating Ada's own access token returned. -/
def ada : AccessContext where
  token := 12
  session := 10
  subject := { kind := .carbon, id := 1 }
  client := none
  audienceApplication := none
  audience := "silicon-iam"
  organization := none
  membership := none
  scopes := ["iam.self"]
  assuranceLevel := 1

def scopes : List String := ["self.identity.read", "obo:ledger:post"]

/-- Ada logs in under session 10 and lets the application have a code, which it
exchanges for its family 31 with the tokens 32 and 33. -/
def login : List Action :=
  [.createPrincipal 0 (principal 1 .carbon), .createPrincipal 0 (principal 4 .application),
    .createPrincipal 0 (principal 5 .application), .issueLoginSession 10 1 (fresh 10),
    .issueForSelection 20 ada { appId := "crm", orgIds := ["acme"], scopes := scopes } (fresh 20),
    .exchangeAuthorizationCode 30 crm [1026] (fresh 30)]

def logout : List Action := login ++ [.revokeOne 40 1 10 "user_logout"]

end Scenario

open Scenario in
/-- Ada's session is revoked between two refreshes of the application: the first one is
accepted, and of what follows the revocation nothing is. -/
theorem ended_confers_nothing_login :
    accepted ttls (Runs.after (next ttls) (.empty directory) login)
        (.exchangeRefreshToken 40 crm [1033] (fresh 40)) = [.refreshToken 33] ∧
      AllSteps (next ttls)
        (fun db action => ∀ credential,
          DerivedFrom (Runs.after (next ttls) (.empty directory) logout) 10 credential ∨
              DerivedFrom db 10 credential →
            credential ∉ accepted ttls db action)
        (Runs.after (next ttls) (.empty directory) logout)
        [.exchangeRefreshToken 50 crm [1033] (fresh 50), .authenticate 50 .applicationAccess [1032],
          .rotateRefreshToken 50 [1013] (fresh 60)] :=
  ⟨by decide +kernel,
    ended_confers_nothing ttls (.empty directory) (.empty directory) logout _ 10 0
      (.inl ⟨by decide +kernel, by decide +kernel⟩)⟩

end SiliconIam.Auth.Authority
