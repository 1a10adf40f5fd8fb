/-
# Auth.FamilyContainment -- a reused refresh token closes one family

Each refresh family is one chain, so at most one of its tokens can be exchanged.
Presenting a spent token of a family compromises it: nothing issued from the family
is accepted afterwards (`FamilyOnly`, `reuse_contained`), and no row outside the
family changes.  When the family was closed before, presenting the token changes
nothing, and the access tokens are revoked already because every path that closes a
family revokes them (`Links`).

A client's operations leave the families and tokens of every other client as they
were (`OwnRowsOnly`).
-/
import SiliconIam.Auth.EndedSessions

namespace SiliconIam.Auth.Authority

open SiliconIam.Theory
open SiliconIam.Theory.Runs (AllSteps)

set_option autoImplicit false

/-- The application that an operation acts for. -/
def Action.client : Action → Option ApplicationIdentity
  | .exchangeAuthorizationCode _ client .. | .exchangeRefreshToken _ client ..
  | .oboExchange _ client .. | .oboVerify _ client .. | .introspect _ client ..
  | .introspectRefreshToken _ client .. | .exchangeTestingActor _ client ..
  | .revokeAccessToken _ client .. | .revokeRefreshFamily _ client .. => some client
  | _ => none

section Containment

variable {settings : SecuritySettings} {now : Nat} {db after : Db} {client : ApplicationIdentity}
  {fresh : Fresh} {credential : Credential}

/-! ## Chains -/

/-- A family has at most one token that is not consumed. -/
theorem Chain.unconsumed_unique {family : Nat} {chain : List RefreshToken}
    (whole : Chain db family chain) {a b : RefreshToken} (ma : a ∈ db.tokens) (mb : b ∈ db.tokens)
    (ownA : a.family = family) (ownB : b.family = family) (unconsumedA : a.consumedAt = none)
    (unconsumedB : b.consumedAt = none) : a = b := by
  have inA := (whole.members a.link).mpr ⟨a, ma, ownA, rfl⟩
  have inB := (whole.members b.link).mpr ⟨b, mb, ownB, rfl⟩
  have same : a.link = b.link := by
    refine whole.lineage.unique inA inB ?_ ?_
    · show ¬ a.consumedAt.isSome = true
      simp [unconsumedA]
    · show ¬ b.consumedAt.isSome = true
      simp [unconsumedB]
  exact Table.unique ma mb (congrArg RefreshToken.id same :)

/-! ## Reuse -/

/-- Nothing outside the family and what was issued from it differs. -/
structure FamilyOnly (family : Nat) (db after : Db) : Prop where
  directory : after.directory = db.directory
  principals : after.principals = db.principals
  sessions : after.sessions = db.sessions
  requests : after.requests = db.requests
  codes : after.codes = db.codes
  consents : after.consents = db.consents
  proofs : after.proofs = db.proofs
  families : ∀ row, row.id ≠ family → (row ∈ after.families ↔ row ∈ db.families)
  tokens : ∀ token, token.family ≠ family → (token ∈ after.tokens ↔ token ∈ db.tokens)
  access : ∀ token, token.oauthRefreshFamily ≠ some family →
    (token ∈ after.access ↔ token ∈ db.access)

theorem FamilyOnly.refl (family : Nat) (db : Db) : FamilyOnly family db db where
  directory := rfl
  principals := rfl
  sessions := rfl
  requests := rfl
  codes := rfl
  consents := rfl
  proofs := rfl
  families := fun _ _ => Iff.rfl
  tokens := fun _ _ => Iff.rfl
  access := fun _ _ => Iff.rfl

theorem FamilyOnly.compromise (db : Db) (now family session client : Nat) :
    FamilyOnly family db (compromiseRefreshFamily db now family session client) := by
  unfold compromiseRefreshFamily
  split
  · exact
      { FamilyOnly.refl family db with
        families := Table.Updated.elsewhere rfl fun row _ picked => by
          simp only [Bool.and_eq_true, decide_eq_true_eq] at picked
          exact ⟨fun other => other picked.1, fun other => other picked.1⟩
        tokens := Table.Updated.elsewhere rfl fun token _ picked => by
          have own : token.family = family := by simpa using picked
          exact ⟨fun other => other own, fun other => other own⟩
        access := Table.Updated.elsewhere rfl fun token _ picked => by
          simp only [familyAccessToken, Bool.and_eq_true, decide_eq_true_eq] at picked
          exact ⟨fun other => other picked.1.1, fun other => other picked.1.1⟩ }
  · exact .refl family db

/-- The refresh and access tokens of a family, and the proofs of those access tokens. -/
def IssuedFrom (db : Db) (family : Nat) : Credential → Prop
  | .refreshToken id => ∃ token ∈ db.tokens, token.id = id ∧ token.family = family
  | .accessToken id => ∃ token ∈ db.access, token.id = id ∧ token.oauthRefreshFamily = some family
  | _ => False

/-- The family is there, and closed. -/
def ClosedFamily (db : Db) (family : Nat) : Prop :=
  family ∈ db.drawn ∧ ∀ row ∈ db.families, row.id = family → row.status ≠ .active

theorem ClosedFamily.evolves {family : Nat} (evolves : Evolves now db after)
    (closed : ClosedFamily db family) : ClosedFamily after family := by
  refine ⟨evolves.drawn _ closed.1, fun row mem own => ?_⟩
  obtain ⟨old, held, step⟩ := evolves.families.continues mem (own ▸ closed.1)
  exact step.marks () (closed.2 old held ((Family.keyed _ _ step.fixed).trans own))

variable {family : Family}

theorem compromise_closes (known : family.id ∈ db.drawn) (session client : Nat) :
    ClosedFamily (compromiseRefreshFamily db now family.id session client) family.id := by
  unfold compromiseRefreshFamily
  split
  · refine ⟨known, fun row rowMem own => ?_⟩
    obtain ⟨old, held, rfl⟩ := Table.of_mem_updated rowMem rfl
    by_cases picked : (old.id = family.id && old.status = .active) = true
    · rw [if_pos picked]
      simp [Family.compromise]
    · rw [if_neg picked] at own ⊢
      intro active
      simp [own, active] at picked
  · rename_i inactive
    refine ⟨known, fun row rowMem own active => inactive ?_⟩
    exact List.any_eq_true.mpr ⟨row, rowMem, by simp [own, active]⟩

/-- The refresh token a client presents: the one its secret digests to. -/
def presented (db : Db) (supplied : List Nat) : Option RefreshToken :=
  db.tokens.find? fun token => token.purpose = .oauthRefreshToken && supplied.contains token.digest

/-- Presenting a consumed token of one's own family is a reuse, whatever else holds. -/
theorem reuse_detected (sound : Sound db) {supplied : List Nat} {token : RefreshToken} (found : presented db supplied = some token)
    (consumed : token.consumedAt.isSome = true) (mem : family ∈ db.families)
    (own : family.id = token.family) (held : family.client = some client.application) :
    exchangeRefreshToken db settings now client supplied fresh =
      .ok (.reuseDetected,
        compromiseRefreshFamily db now family.id family.session client.application) := by
  obtain ⟨⟨consent, consentMem, named⟩, principal, principalMem, subject⟩ :=
    sound.links.referenced family mem _ held
  have familyFound : (db.families.find? fun row =>
      row.id = token.family && row.client = some client.application) = some family :=
    Table.find?_eq_some_of_key mem (by simp [own, held]) fun other _ holds => by
      simp only [Bool.and_eq_true, decide_eq_true_eq] at holds
      exact holds.1.trans own.symm
  have principalFound : (db.principals.find? fun row => row.id = family.subject) = some principal :=
    Table.find?_eq_some_of_key principalMem (by simp [subject]) fun other _ holds => by
      rw [of_decide_eq_true holds, subject]
  have consentFound : (db.consents.find? fun row => some row.id = family.consent) = some consent :=
    Table.find?_eq_some_of_key consentMem (by simp [named]) fun other _ holds => by
      exact Option.some.inj ((of_decide_eq_true holds).trans named)
  have candidate : refreshTokenCandidate db client supplied =
      some { token := token, family := family, principal := principal, consent := consent } := by
    simp only [refreshTokenCandidate, Option.bind_eq_bind]
    rw [show db.tokens.find? _ = some token from found, Option.bind_some, familyFound,
      Option.bind_some, principalFound, Option.bind_some, consentFound]
    rfl
  have locked := refreshCredentialLock_found (refreshTokenCandidate_spec candidate)
  unfold exchangeRefreshToken
  simp only [candidate, locked, consumed, if_true]

/-- The family is closed, and so is every access token issued from it. -/
structure Contained (family : Nat) (db : Db) : Prop where
  closed : ClosedFamily db family
  access : ∀ token ∈ db.access, token.oauthRefreshFamily = some family →
    token.revokedAt.isSome = true

/-- A token of another family joins none that is closed. -/
theorem Contained.insertAccess {closed : Nat} {token : AccessToken}
    (linked : LinkedTo family token) (other : family.id ≠ closed)
    (done : insertAccessToken db token = some after) (contained : Contained closed db) :
    Contained closed after := by
  have evolves : Evolves 0 db after := .insertAccessToken done
  refine ⟨contained.closed.evolves evolves, fun row mem own => ?_⟩
  obtain ⟨-, access, inserted, rfl⟩ := insertAccessToken_eq_some done
  rcases ((Table.insert_spec inserted).2 row).mp mem with rfl | held
  · rcases linked with unlinked | ⟨named, -, -⟩
    · simp [unlinked] at own
    · exact absurd (Option.some.inj (named.symm.trans own)) other
  · exact contained.access row held own

theorem Contained.write {family : Nat} (write : Write now db after)
    (contained : Contained family db) : Contained family after := by
  have closed := contained.closed.evolves write.evolves
  cases write with
  | quiet quiet =>
      refine ⟨closed, fun token mem own => ?_⟩
      obtain ⟨old, held, step⟩ := quiet.access token mem
      exact step.marks .revoked (contained.access old held (AccessToken.linked_before step own))
  | record evolves _ access => exact ⟨closed, fun token mem => contained.access token (access ▸ mem)⟩
  | session done =>
      obtain ⟨-, -, sessions, -, rfl⟩ := insertSubjectSession_eq_some done
      exact ⟨closed, contained.access⟩
  | @openFamily opened issued _ opening _ _ _ _ pair opens issuing done =>
      have evolves : Evolves now db opened := .insertFamily opens
      obtain ⟨unused, families, -, rfl⟩ := insertFamily_eq_some opens
      have before : Contained family _ := ⟨contained.closed.evolves evolves, contained.access⟩
      have issued := before.insertAccess pair.linked
        (fun same => unused (same ▸ contained.closed.1)) issuing
      obtain ⟨-, -, tokens, -, rfl⟩ := insertRefreshToken_eq_some done
      exact ⟨closed, issued.access⟩
  | rotate mem active _ _ _ pair issuing done =>
      have issued := contained.insertAccess pair.linked
        (fun same => contained.closed.2 _ mem same active) issuing
      obtain ⟨-, -, tokens, -, rfl⟩ := insertRefreshToken_eq_some done
      exact ⟨closed, issued.access⟩

theorem Contained.next {family : Nat} (action : Action) (contained : Contained family db) :
    Contained family (next settings db action) :=
  (next_writes settings db action).invariant (fun _ _ held write => held.write write) contained

/-- Nothing issued from a family that is closed with its access tokens is usable. -/
theorem Contained.spent {family : Nat} (sound : Sound db) (contained : Contained family db)
    (issued : IssuedFrom db family credential) : Spent db credential := by
  cases credential with
  | refreshToken id =>
      obtain ⟨token, mem, rfl, own⟩ := issued
      refine ⟨sound.ids.tokens token mem, fun other otherMem same => .inr ?_⟩
      rw [Table.unique otherMem mem same, own]
      exact contained.closed
  | accessToken id =>
      obtain ⟨token, mem, rfl, linked⟩ := issued
      refine ⟨sound.ids.access token mem, fun other otherMem same => ?_⟩
      rw [Table.unique otherMem mem same]
      exact contained.access token mem linked
  | authorizationCode id => exact issued.elim
  | oboProof id => exact issued.elim

/-- A reuse contains the family it was found in. -/
theorem compromise_contained (sound : Sound db) (mem : family ∈ db.families)
    (held : family.client = some client.application) :
    Contained family.id
      (compromiseRefreshFamily db now family.id family.session client.application) := by
  have known := sound.ids.families family mem
  refine ⟨compromise_closes known family.session client.application, fun row rowMem own => ?_⟩
  unfold compromiseRefreshFamily at rowMem
  split at rowMem
  · obtain ⟨old, oldMem, rfl⟩ := Table.of_mem_updated rowMem rfl
    by_cases picked : familyAccessToken family.id family.session client.application old = true
    · rw [if_pos picked]
      rfl
    · rw [if_neg picked] at own ⊢
      obtain ⟨belongs, -, -⟩ := sound.links.linked old oldMem family mem own
      simp [familyAccessToken, own, belongs.1, belongs.2.2, held] at picked
  · rename_i inactive
    obtain ⟨-, -, revoked⟩ := sound.links.linked row rowMem family mem own
    exact revoked fun active => inactive (List.any_eq_true.mpr ⟨family, mem, by simp [active]⟩)

/-! ## Clients -/

/-- The families and tokens of other clients, and the first-party ones, are as they were. -/
structure OwnRowsOnly (client : Nat) (db after : Db) : Prop where
  families : ∀ family, family.client ≠ some client →
    (family ∈ after.families ↔ family ∈ db.families)
  tokens : ∀ family ∈ db.families, family.client ≠ some client → ∀ token,
    token.family = family.id → (token ∈ after.tokens ↔ token ∈ db.tokens)
  access : ∀ token, token.client ≠ some client → (token ∈ after.access ↔ token ∈ db.access)

namespace OwnRowsOnly

variable {app : Nat}

theorem of_same (families : after.families = db.families) (tokens : after.tokens = db.tokens)
    (access : after.access = db.access) : OwnRowsOnly app db after where
  families := fun _ _ => by rw [families]
  tokens := fun _ _ _ _ _ => by rw [tokens]
  access := fun _ _ => by rw [access]

theorem trans {a b c : Db} (first : OwnRowsOnly app a b) (second : OwnRowsOnly app b c) :
    OwnRowsOnly app a c where
  families := fun family other => (second.families family other).trans (first.families family other)
  tokens := fun family mem other token own =>
    (second.tokens family ((first.families family other).mpr mem) other token own).trans
      (first.tokens family mem other token own)
  access := fun token other => (second.access token other).trans (first.access token other)

/-- What comes before may touch the other tables. -/
theorem after_same {a b c : Db} (rest : OwnRowsOnly app b c) (families : b.families = a.families)
    (tokens : b.tokens = a.tokens) (access : b.access = a.access) : OwnRowsOnly app a c :=
  (of_same families tokens access).trans rest

theorem insertFamily (own : family.client = some app)
    (done : insertFamily db family = some after) : OwnRowsOnly app db after := by
  obtain ⟨-, families, inserted, rfl⟩ := insertFamily_eq_some done
  refine ⟨fun row other => ?_, fun _ _ _ _ _ => Iff.rfl, fun _ _ => Iff.rfl⟩
  rw [(Table.insert_spec inserted).2]
  exact or_iff_right fun same => other (same ▸ own)

theorem insertAccess {token : AccessToken} (own : token.client = some app)
    (done : insertAccessToken db token = some after) : OwnRowsOnly app db after := by
  obtain ⟨-, access, inserted, rfl⟩ := insertAccessToken_eq_some done
  refine ⟨fun _ _ => Iff.rfl, fun _ _ _ _ _ => Iff.rfl, fun row other => ?_⟩
  rw [(Table.insert_spec inserted).2]
  exact or_iff_right fun same => other (same ▸ own)

/-- A token of another client's family is not the one inserted. -/
theorem insertRefresh {token : RefreshToken} (mem : family ∈ db.families)
    (own : family.client = some app) (named : token.family = family.id)
    (done : insertRefreshToken db token = some after) : OwnRowsOnly app db after := by
  obtain ⟨-, -, tokens, inserted, rfl⟩ := insertRefreshToken_eq_some done
  refine ⟨fun _ _ => Iff.rfl, fun other otherMem foreign row owner => ?_, fun _ _ => Iff.rfl⟩
  rw [(Table.insert_spec inserted).2]
  refine or_iff_right fun same => foreign ?_
  rw [Table.unique otherMem mem (owner.symm.trans (same ▸ named)), own]

theorem consumeParent {parent : RefreshToken} {replacement : Nat}
    (mem : family ∈ db.families) (own : family.client = some app) (held : parent ∈ db.tokens)
    (named : parent.family = family.id) :
    OwnRowsOnly app db (consumeParent db now parent.id replacement) := by
  refine ⟨fun _ _ => Iff.rfl, fun other otherMem foreign => ?_, fun _ _ => Iff.rfl⟩
  refine Table.Updated.elsewhere rfl fun row rowMem picked => ?_
  obtain rfl := Table.unique rowMem held (by simpa using picked)
  have apart (same : row.family = other.id) : False :=
    foreign (Table.unique otherMem mem (same.symm.trans named) ▸ own)
  exact ⟨apart, apart⟩

/-- Updates that pick the rows of one family of the client. -/
theorem closeFamily (now : Nat) {set : Family → Family} {revoke : AccessToken → AccessToken}
    (mem : family ∈ db.families) (own : family.client = some app)
    (families : Table.Updated (fun row => row.id = family.id && row.status = .active) set
      db.families after.families)
    (tokens : Table.Updated (fun token => token.family = family.id) (RefreshToken.revoke now)
      db.tokens after.tokens)
    (access : Table.Updated (familyAccessToken family.id family.session app) revoke
      db.access after.access)
    (keeps : ∀ row, (set row).client = row.client)
    (accessKeeps : ∀ token, (revoke token).client = token.client) : OwnRowsOnly app db after where
  families := families.elsewhere fun row rowMem picked => by
    simp only [Bool.and_eq_true, decide_eq_true_eq] at picked
    obtain rfl := Table.unique rowMem mem picked.1
    exact ⟨fun other => other own, fun other => other ((keeps row).trans own)⟩
  tokens := fun other otherMem foreign => tokens.elsewhere fun row _ picked => by
    have named : row.family = family.id := by simpa using picked
    have apart (same : row.family = other.id) : False :=
      foreign (Table.unique otherMem mem (same.symm.trans named) ▸ own)
    exact ⟨apart, apart⟩
  access := access.elsewhere fun token _ picked => by
    simp only [familyAccessToken, Bool.and_eq_true, decide_eq_true_eq] at picked
    exact ⟨fun other => other picked.2, fun other => other ((accessKeeps token).trans picked.2)⟩

theorem compromise (mem : family ∈ db.families)
    (own : family.client = some app) :
    OwnRowsOnly app db (compromiseRefreshFamily db now family.id family.session app) := by
  unfold compromiseRefreshFamily
  split
  · exact closeFamily now mem own rfl rfl rfl (fun _ => rfl) fun _ => rfl
  · exact of_same rfl rfl rfl

end OwnRowsOnly

/-- The first pair of a family of the client. -/
theorem OwnRowsOnly.issueFirst {subject : TokenSubject} {scopes : List String}
    {response : AppTokenResponse}
    (done : issueTokens db settings now client subject scopes none none fresh =
      .ok (response, after)) : OwnRowsOnly client.application db after := by
  obtain ⟨opened, issued, opening, issuing, renewing, -⟩ := issueTokens_first done
  have family : OwnRowsOnly client.application db opened := .insertFamily rfl opening
  have access : OwnRowsOnly client.application opened issued := .insertAccess rfl issuing
  obtain ⟨-, families, inserted, rfl⟩ := insertFamily_eq_some opening
  have held := ((Table.insert_spec inserted).2 _).mpr (.inl rfl)
  obtain ⟨-, rows, -, rfl⟩ := insertAccessToken_eq_some issuing
  exact family.trans (access.trans (.insertRefresh held rfl rfl renewing))

theorem OwnRowsOnly.issueNext {subject : TokenSubject} {scopes : List String}
    {parent : RefreshToken} {response : AppTokenResponse} (mem : family ∈ db.families)
    (own : family.client = some client.application) (held : parent ∈ db.tokens)
    (named : parent.family = family.id)
    (done : issueTokens db settings now client subject scopes (some family.id) (some parent.id)
      fresh = .ok (response, after)) : OwnRowsOnly client.application db after := by
  obtain ⟨issued, renewed, issuing, renewing, rfl, -⟩ := issueTokens_next done
  have access : OwnRowsOnly client.application db issued := .insertAccess rfl issuing
  obtain ⟨-, rows, -, same⟩ := insertAccessToken_eq_some issuing
  replace mem : family ∈ issued.families := by
    rw [same]
    exact mem
  have refresh : OwnRowsOnly client.application issued renewed := .insertRefresh mem own rfl renewing
  obtain ⟨-, -, tokens, inserted, rfl⟩ := insertRefreshToken_eq_some renewing
  have still : parent ∈ tokens := by
    refine ((Table.insert_spec inserted).2 parent).mpr (.inr ?_)
    rw [same]
    exact held
  exact access.trans (refresh.trans (.consumeParent mem own still named))

/-- An operation for a client changes no family and no token of another. -/
theorem next_ownRowsOnly {action : Action} (own : action.client = some client) :
    OwnRowsOnly client.application db (next settings db action) := by
  have committed {ε α : Type} {result : Except ε (α × Db)}
      (each : ∀ value after, result = .ok (value, after) →
        OwnRowsOnly client.application db after) :
      OwnRowsOnly client.application db (committed db result) := by
    cases done : result with
    | error _ => exact .of_same rfl rfl rfl
    | ok result => exact each result.1 result.2 done
  cases action with
  | exchangeAuthorizationCode =>
      obtain rfl := Option.some.inj own
      refine committed fun response after done => ?_
      obtain ⟨row, authority, -, -, -, -, issue⟩ := exchangeAuthorizationCode_eq_ok done
      have pair := OwnRowsOnly.issueFirst issue
      exact pair.after_same rfl rfl rfl
  | exchangeRefreshToken =>
      obtain rfl := Option.some.inj own
      refine committed fun result after done => ?_
      obtain ⟨row, lookup, -, ⟨-, -, rfl⟩ | ⟨-, -, authority, response, -, -, -, issue⟩⟩ :=
        exchangeRefreshToken_eq_ok done
      · have found := refreshTokenCandidate_spec lookup
        exact .compromise found.family found.client
      · have found := refreshTokenCandidate_spec lookup
        exact .issueNext found.family found.client found.token found.familyOwn.symm issue
  | oboExchange =>
      refine committed fun response after done => ?_
      obtain ⟨-, -, organization, membership, authority, -, -, -, ⟨_, -, -, rfl, -⟩ |
        ⟨-, inserting⟩⟩ := oboExchange_eq_ok done
      · exact .of_same rfl rfl rfl
      · obtain ⟨-, proofs, -, rfl⟩ := insertProof_eq_some inserting
        exact .of_same rfl rfl rfl
  | oboVerify =>
      refine committed fun result after done => ?_
      obtain ⟨current, -, -, rfl⟩ := oboVerify_eq_ok done
      exact .of_same rfl rfl rfl
  | introspect | introspectRefreshToken => exact .of_same rfl rfl rfl
  | exchangeTestingActor =>
      obtain rfl := Option.some.inj own
      refine committed fun response after done => ?_
      unfold exchangeTestingActor at done
      split at done
      · simp at done
      · split at done
        · simp at done
        · simp only at done
          split at done
          · simp at done
          · rename_i granted granting
            obtain ⟨started, starting, granting⟩ := Option.bind_eq_some_iff.mp granting
            obtain ⟨-, -, sessions, -, rfl⟩ := insertSubjectSession_eq_some starting
            obtain ⟨-, -, consents, -, rfl⟩ := insertConsent_eq_some granting
            have pair := OwnRowsOnly.issueFirst done
            exact pair.after_same rfl rfl rfl
  | revokeAccessToken =>
      obtain rfl := Option.some.inj own
      refine ⟨fun _ _ => Iff.rfl, fun _ _ _ _ _ => Iff.rfl, Table.Updated.elsewhere rfl ?_⟩
      intro token _ picked
      simp only [Bool.and_eq_true, decide_eq_true_eq] at picked
      exact ⟨fun other => other picked.1.2, fun other => other picked.1.2⟩
  | revokeRefreshFamily now other supplied =>
      obtain rfl := Option.some.inj own
      show OwnRowsOnly other.application db (revokeRefreshFamily db now other supplied)
      unfold revokeRefreshFamily
      split
      · exact .of_same rfl rfl rfl
      · rename_i family found
        obtain ⟨mem, held, -⟩ := clientFamily_spec found
        split
        · exact .closeFamily now mem held rfl rfl rfl (fun _ => rfl) fun _ => rfl
        · exact .of_same rfl rfl rfl
  | _ => cases own

/-- Updates that leave the families of the tokens leave what was issued from one. -/
theorem IssuedFrom.updated {family : Nat} {p : RefreshToken → Bool}
    {set : RefreshToken → RefreshToken} {q : AccessToken → Bool} {revoke : AccessToken → AccessToken}
    (issued : IssuedFrom db family credential)
    (tokens : Table.Updated p set db.tokens after.tokens)
    (access : Table.Updated q revoke db.access after.access)
    (sets : ∀ row, (set row).id = row.id ∧ (set row).family = row.family)
    (revokes : ∀ row, (revoke row).id = row.id ∧
      (revoke row).oauthRefreshFamily = row.oauthRefreshFamily) :
    IssuedFrom after family credential := by
  cases credential with
  | refreshToken id =>
      obtain ⟨token, mem, rfl, own⟩ := issued
      refine ⟨_, tokens.mem.mpr ⟨token, mem, rfl⟩, ?_⟩
      split
      · exact ⟨(sets token).1, (sets token).2.trans own⟩
      · exact ⟨rfl, own⟩
  | accessToken id =>
      obtain ⟨token, mem, rfl, linked⟩ := issued
      refine ⟨_, access.mem.mpr ⟨token, mem, rfl⟩, ?_⟩
      split
      · exact ⟨(revokes token).1, (revokes token).2.trans linked⟩
      · exact ⟨rfl, linked⟩
  | authorizationCode id => exact issued.elim
  | oboProof id => exact issued.elim

/-- What was issued from the family before a reuse is spent after it. -/
theorem compromise_spends (sound : Sound db) (mem : family ∈ db.families)
    (held : family.client = some client.application) (issued : IssuedFrom db family.id credential) :
    Spent (compromiseRefreshFamily db now family.id family.session client.application)
      credential := by
  have after := sound.write (Write.compromiseRefreshFamily db now mem held)
  refine (compromise_contained sound mem held).spent after ?_
  unfold compromiseRefreshFamily
  split
  · exact issued.updated rfl rfl (fun _ => ⟨rfl, rfl⟩) fun _ => ⟨rfl, rfl⟩
  · exact issued

/-- What is spent, and what is issued from a contained family, is not accepted again. -/
theorem Contained.never_accepted {family : Nat} {before : Credential → Prop} (sound : Sound db)
    (contained : Contained family db) (spent : ∀ credential, before credential → Spent db credential)
    (later : List Action) :
    AllSteps (Authority.next settings)
      (fun db action => ∀ credential, before credential ∨ IssuedFrom db family credential →
        credential ∉ accepted settings db action) db later := by
  refine Runs.allSteps_of_invariant (I := fun db => Sound db ∧ Contained family db ∧
    ∀ credential, before credential → Spent db credential) ?_ ?_ later db ⟨sound, contained, spent⟩
  · rintro db action ⟨sound, contained, spent⟩
    have evolves := next_evolves settings db action
    exact ⟨sound.next action, contained.next action,
      fun credential earlier => (spent credential earlier).evolves evolves⟩
  · rintro db action ⟨sound, contained, spent⟩ credential (earlier | issued)
    · exact (spent credential earlier).not_accepted
    · exact (contained.spent sound issued).not_accepted

end Containment

/-- In every run a code is exchanged once, a family is one chain with one token left
to exchange, and an operation for a client stays among the client's own rows.  A
consumed token presented again closes its family, with what was issued from it, and
nothing else. -/
theorem refresh_families_contained (settings : SecuritySettings) (directory : Directory)
    (actions : List Action) :
    (∀ code, (acceptances settings (.empty directory) actions).count (.authorizationCode code) ≤ 1) ∧
      ∀ db, db = Runs.after (next settings) (.empty directory) actions →
        (∀ family ∈ db.families, (∃ chain, Chain db family.id chain) ∧
          ∀ a ∈ db.tokens, ∀ b ∈ db.tokens, a.family = family.id → b.family = family.id →
            a.consumedAt = none → b.consumedAt = none → a = b) ∧
        (∀ (now : Nat) (client : ApplicationIdentity) (supplied : List Nat) (fresh : Fresh),
          ∀ token family, presented db supplied = some token → token.consumedAt.isSome = true →
            family ∈ db.families → family.id = token.family →
            family.client = some client.application →
            ∃ after,
              exchangeRefreshToken db settings now client supplied fresh =
                .ok (.reuseDetected, after) ∧
              next settings db (.exchangeRefreshToken now client supplied fresh) = after ∧
              FamilyOnly family.id db after ∧
              ∀ later, AllSteps (next settings)
                (fun then_ action => ∀ credential,
                  IssuedFrom db family.id credential ∨ IssuedFrom then_ family.id credential →
                    credential ∉ accepted settings then_ action) after later) ∧
        ∀ action client, action.client = some client →
          OwnRowsOnly client.application db (next settings db action) := by
  have empty := Sound.empty directory
  constructor
  · exact fun code => acceptances_le_one (fun db action (held : Sound db) => held.next action)
      (fun db action held taken => code_spends held.ids taken) actions _ empty
  · rintro db rfl
    have sound : Sound (Runs.after (next settings) (.empty directory) actions) := empty.runs actions
    generalize Runs.after (next settings) (.empty directory) actions = db at sound ⊢
    refine ⟨fun family mem => ?_, ?_, fun action client own => next_ownRowsOnly own⟩
    · obtain ⟨chain, whole⟩ := sound.chains.chains family mem
      exact ⟨⟨chain, whole⟩, fun a ma b mb => whole.unconsumed_unique ma mb⟩
    · intro now client supplied fresh token family found consumed mem own held
      have reuse : exchangeRefreshToken db settings now client supplied fresh = _ :=
        reuse_detected sound found consumed mem own held
      have taken : next settings db (.exchangeRefreshToken now client supplied fresh) =
          compromiseRefreshFamily db now family.id family.session client.application := by
        show committed db (exchangeRefreshToken db settings now client supplied fresh) = _
        rw [reuse]
        rfl
      refine ⟨_, reuse, taken, .compromise db now family.id family.session client.application,
        Contained.never_accepted ?_ (compromise_contained sound mem held)
          fun credential issued => compromise_spends sound mem held issued⟩
      exact sound.write (Write.compromiseRefreshFamily db now mem held)

namespace Scenario

/-- The application has refreshed its tokens once, under family 31: token 33 is
consumed, and 43 is the one to exchange. -/
def refreshed : List Action := login ++ [.exchangeRefreshToken 40 crm [1033] (fresh 40)]

end Scenario

open Scenario in
/-- The consumed token comes again: the family is closed, and the next token of it,
which would have been exchanged, is not. -/
theorem refresh_families_contained_replay :
    accepted ttls (Runs.after (next ttls) (.empty directory) refreshed)
        (.exchangeRefreshToken 50 crm [1043] (fresh 50)) = [.refreshToken 43] ∧
      ∃ after,
        next ttls (Runs.after (next ttls) (.empty directory) refreshed)
            (.exchangeRefreshToken 50 crm [1033] (fresh 50)) = after ∧
          FamilyOnly 31 (Runs.after (next ttls) (.empty directory) refreshed) after ∧
          .refreshToken 43 ∉ accepted ttls after
            (.exchangeRefreshToken 60 crm [1043] (fresh 60)) := by
  refine ⟨by decide +kernel, ?_⟩
  obtain ⟨-, contained⟩ := refresh_families_contained ttls directory refreshed
  obtain ⟨-, reuse, -⟩ := contained _ rfl
  have consumed : (presented (Runs.after (next ttls) (.empty directory) refreshed) [1033]).any
      (fun token => token.consumedAt.isSome && token.family = 31) = true := by decide +kernel
  obtain ⟨token, found, consumed⟩ := (Option.any_eq_true _ _).mp consumed
  simp only [Bool.and_eq_true, decide_eq_true_eq] at consumed
  have issued : IssuedFrom (Runs.after (next ttls) (.empty directory) refreshed) 31
      (.refreshToken 43) := by
    show ∃ token ∈ _, _
    decide +kernel
  obtain ⟨family, mem, named, client⟩ : ∃ family ∈
      (Runs.after (next ttls) (.empty directory) refreshed).families,
      family.id = 31 ∧ family.client = some crm.application := by decide +kernel
  obtain ⟨after, -, taken, only, later⟩ := reuse 50 crm [1033] (fresh 50) token family found
    consumed.1 mem (named.trans consumed.2.symm) client
  rw [named] at only later
  have unusable := later [.exchangeRefreshToken 60 crm [1043] (fresh 60)]
  exact ⟨after, taken, only, unusable.1 _ (.inl issued)⟩

end SiliconIam.Auth.Authority
