/-
# Auth.RefreshIntrospection -- introspection of a refresh token and its exchange

Introspection and exchange check the same things of a refresh token and cut its
scopes down to the same ones, but exchange also refuses a token that has no scope
left.  So the two agree exactly when an otherwise usable token still has one
(`introspection_agrees_iff`).

That nothing else can stop the exchange of a usable token needs an invariant: no
other token already names it as its parent (`Parented`).
-/
import SiliconIam.Auth.ScopeCeiling

namespace SiliconIam.Auth.Authority

open SiliconIam.Theory

set_option autoImplicit false

section Refreshing

variable {settings : SecuritySettings} {now : Nat} {db after : Db} {client : ApplicationIdentity}
  {supplied : List Nat} {fresh : Fresh}

/-! ## Parents -/

/-- A refresh token that another one names as its parent is consumed. -/
structure Parented (db : Db) : Prop where
  drawn : ∀ token ∈ db.tokens, ∀ parent, token.parent = some parent → parent ∈ db.drawn
  consumed : ∀ token ∈ db.tokens, ∀ parent ∈ db.tokens, token.parent = some parent.id →
    parent.consumedAt.isSome = true

theorem Parented.empty (directory : Directory) : Parented (.empty directory) where
  drawn := fun _ mem => absurd mem Table.not_mem_empty
  consumed := fun _ mem => absurd mem Table.not_mem_empty

theorem Parented.of_same (drawn : ∀ id ∈ db.drawn, id ∈ after.drawn)
    (tokens : after.tokens = db.tokens) (parented : Parented db) : Parented after where
  drawn := fun token mem parent named => drawn _ (parented.drawn token (tokens ▸ mem) parent named)
  consumed := tokens ▸ parented.consumed

theorem Parented.quiet (drawn : ∀ id ∈ db.drawn, id ∈ after.drawn) (keeps : KeepsTokens db after)
    (parented : Parented db) : Parented after where
  drawn := by
    intro token mem parent named
    obtain ⟨old, held, same⟩ := keeps.sound token mem
    have own : old.parent = token.parent := (congrArg RefreshToken.parent same :)
    exact drawn _ (parented.drawn old held parent (own.trans named))
  consumed := by
    intro token mem parent parentMem named
    obtain ⟨old, held, same⟩ := keeps.sound token mem
    obtain ⟨before, beforeMem, sameParent⟩ := keeps.sound parent parentMem
    have own : old.parent = token.parent := (congrArg RefreshToken.parent same :)
    have id : before.id = parent.id := (congrArg RefreshToken.id sameParent :)
    have used : before.consumedAt = parent.consumedAt :=
      (congrArg RefreshToken.consumedAt sameParent :)
    rw [← used]
    exact parented.consumed old held before beforeMem (own.trans (id ▸ named))

theorem Parented.insertFamily {family : Family} (done : insertFamily db family = some after)
    (parented : Parented db) : Parented after := by
  have evolves : Evolves 0 db after := .insertFamily done
  obtain ⟨-, families, -, rfl⟩ := insertFamily_eq_some done
  exact parented.of_same evolves.drawn rfl

theorem Parented.insertAccess {token : AccessToken} (done : insertAccessToken db token = some after)
    (parented : Parented db) : Parented after := by
  have evolves : Evolves 0 db after := .insertAccessToken done
  obtain ⟨-, access, -, rfl⟩ := insertAccessToken_eq_some done
  exact parented.of_same evolves.drawn rfl

/-- A first token names no parent, and is too new to be one. -/
theorem Parented.insertFirst {token : RefreshToken} (first : token.parent = none)
    (done : insertRefreshToken db token = some after) (parented : Parented db) :
    Parented after := by
  obtain ⟨unused, -, tokens, inserted, rfl⟩ := insertRefreshToken_eq_some done
  have member := (Table.insert_spec inserted).2
  constructor
  · intro row mem parent named
    rcases (member row).mp mem with rfl | held
    · simp [first] at named
    · exact List.mem_cons_of_mem _ (parented.drawn row held parent named)
  · intro row mem parent parentMem named
    rcases (member row).mp mem with rfl | held
    · simp [first] at named
    · rcases (member parent).mp parentMem with rfl | parentHeld
      · exact absurd (parented.drawn row held _ named) unused
      · exact parented.consumed row held parent parentHeld named

theorem Parented.rotate {issued renewed : Db} {parent refresh : RefreshToken} {token : AccessToken}
    (ids : Ids db) (held : parent ∈ db.tokens) (named : refresh.parent = some parent.id)
    (drawn : ∀ id ∈ db.drawn, id ∈ (consumeParent renewed now parent.id refresh.id).drawn)
    (issuing : insertAccessToken db token = some issued)
    (done : insertRefreshToken issued refresh = some renewed) (parented : Parented db) :
    Parented (consumeParent renewed now parent.id refresh.id) := by
  have member := rotate_members now held issuing done
  have unused : refresh.id ∉ db.drawn := by
    obtain ⟨-, access, -, rfl⟩ := insertAccessToken_eq_some issuing
    obtain ⟨free, -⟩ := insertRefreshToken_eq_some done
    exact fun used => free (List.mem_cons_of_mem _ used)
  constructor
  · intro row mem other own
    rcases (member row).mp mem with rfl | rfl | ⟨rowHeld, -⟩
    · obtain rfl := Option.some.inj (named.symm.trans own)
      exact drawn _ (ids.tokens parent held)
    · exact drawn _ (parented.drawn parent held other own)
    · exact drawn _ (parented.drawn row rowHeld other own)
  · intro row mem other otherMem own
    rcases (member other).mp otherMem with rfl | rfl | ⟨otherHeld, apart⟩
    · -- the new token is nobody's parent
      exfalso
      rcases (member row).mp mem with rfl | rfl | ⟨rowHeld, -⟩
      · exact unused (Option.some.inj (named.symm.trans own) ▸ ids.tokens parent held)
      · exact unused (parented.drawn parent held _ own)
      · exact unused (parented.drawn row rowHeld _ own)
    · rfl
    · rcases (member row).mp mem with rfl | rfl | ⟨rowHeld, -⟩
      · exact absurd (Option.some.inj (own.symm.trans named)) apart
      · exact parented.consumed parent held other otherHeld own
      · exact parented.consumed row rowHeld other otherHeld own

theorem Parented.write (ids : Ids db) (write : Write now db after) (parented : Parented db) :
    Parented after := by
  have drawn := write.evolves.drawn
  cases write with
  | quiet _ _ keeps => exact parented.quiet drawn keeps
  | record _ _ _ _ tokens => exact parented.of_same drawn tokens
  | session done =>
      obtain ⟨-, -, sessions, -, rfl⟩ := insertSubjectSession_eq_some done
      exact parented.of_same drawn rfl
  | openFamily _ _ pair opening issuing done =>
      exact ((parented.insertFamily opening).insertAccess issuing).insertFirst pair.parent done
  | rotate _ _ held _ _ pair issuing done =>
      exact parented.rotate ids held pair.parent drawn issuing done

theorem Parented.runs (ids : Ids db) (parented : Parented db) (actions : List Action) :
    Parented (Runs.after (next settings) db actions) := by
  refine (Runs.after_of_invariant (I := fun db => Ids db ∧ Parented db) ?_ actions db
    ⟨ids, parented⟩).2
  rintro db action ⟨ids, parented⟩
  refine (next_writes settings db action).invariant (I := fun db => Ids db ∧ Parented db) ?_
    ⟨ids, parented⟩
  rintro db after ⟨ids, parented⟩ write
  exact ⟨ids.evolves write.evolves, parented.write ids write⟩

/-! ## Issuing -/

/-- What the issuance of tokens draws is new. -/
structure Fresh.New (fresh : Fresh) (db : Db) : Prop where
  access : fresh.access ∉ db.drawn
  refresh : fresh.refresh ∉ db.drawn
  distinct : fresh.refresh ≠ fresh.access
  accessDigest : ∀ token ∈ db.access, token.digest ≠ fresh.accessDigest
  refreshDigest : ∀ token ∈ db.tokens, token.digest ≠ fresh.refreshDigest

theorem insertAccessToken_issues (ids : Ids db) (token : AccessToken) (unused : token.id ∉ db.drawn)
    (digest : ∀ other ∈ db.access, other.digest ≠ token.digest) :
    ∃ issued, insertAccessToken db token = some issued := by
  have apart : ∀ other ∈ db.access, other.id ≠ token.id :=
    fun other mem same => unused (same ▸ ids.access other mem)
  obtain ⟨access, inserted⟩ := Table.insert_of_free apart
  have free : (Authority.unused db token.id &&
      db.access.all fun other => other.digest != token.digest) = true := by
    simpa [unused_iff, unused, Table.all_spec] using digest
  exact ⟨_, by rw [insertAccessToken, if_pos free, inserted]; rfl⟩

theorem insertRefreshToken_issues (ids : Ids db) (token : RefreshToken)
    (unused : token.id ∉ db.drawn) (digest : ∀ other ∈ db.tokens, other.digest ≠ token.digest)
    (childless : ∀ other ∈ db.tokens, other.parent = none ∨ other.parent ≠ token.parent) :
    ∃ issued, insertRefreshToken db token = some issued := by
  have apart : ∀ other ∈ db.tokens, other.id ≠ token.id :=
    fun other mem same => unused (same ▸ ids.tokens other mem)
  obtain ⟨tokens, inserted⟩ := Table.insert_of_free apart
  have free : (Authority.unused db token.id && db.tokens.all fun other =>
      other.digest != token.digest && (other.parent.isNone || other.parent != token.parent)) =
        true := by
    simp only [Bool.and_eq_true, unused_iff, Table.all_spec]
    refine ⟨unused, fun other mem => ?_⟩
    simpa using And.intro (digest other mem) (childless other mem)
  exact ⟨_, by rw [insertRefreshToken, if_pos free, inserted]; rfl⟩

/-- A usable token can always be exchanged for the next pair. -/
theorem issueTokens_issues (ids : Ids db) (parented : Parented db) (new : fresh.New db)
    {subject : TokenSubject} (kind : subject.subjectKind ≠ .application) (scopes : List String)
    (family : Nat) {parent : RefreshToken} (held : parent ∈ db.tokens)
    (unconsumed : parent.consumedAt = none) (unrevoked : parent.revokedAt = none) :
    ∃ response after,
      issueTokens db settings now client subject scopes (some family) (some parent.id) fresh =
        .ok (response, after) := by
  obtain ⟨issued, issuing⟩ := insertAccessToken_issues ids
    (applicationAccessToken settings now client subject scopes family fresh) new.access
    new.accessDigest
  have evolves : Evolves now db issued := .insertAccessToken issuing
  obtain ⟨-, access, -, same⟩ := insertAccessToken_eq_some issuing
  have tokens : issued.tokens = db.tokens := by rw [same]
  have drawn : fresh.refresh ∉ issued.drawn := by
    rw [same]
    exact fun mem => (List.mem_cons.mp mem).elim new.distinct new.refresh
  have childless : ∀ other ∈ issued.tokens, other.parent = none ∨ other.parent ≠ some parent.id := by
    intro other mem
    rw [tokens] at mem
    refine .inr fun named => ?_
    have used := parented.consumed other mem parent held named
    simp [unconsumed] at used
  obtain ⟨renewed, renewing⟩ := insertRefreshToken_issues (ids.evolves evolves)
    (freshRefreshToken .oauthRefreshToken family (some parent.id) (familyExpiry issued family) fresh)
    drawn (tokens ▸ new.refreshDigest) childless
  have still : (renewed.tokens.any fun token =>
      token.id = parent.id && token.consumedAt.isNone && token.revokedAt.isNone) = true := by
    obtain ⟨-, -, rows, inserted, rfl⟩ := insertRefreshToken_eq_some renewing
    refine Table.any_eq_true.mpr ⟨parent, ?_, by simp [unconsumed, unrevoked]⟩
    exact ((Table.insert_spec inserted).2 parent).mpr (.inr (tokens ▸ held))
  simp only [issueTokens, if_neg kind, issueFamily, issuing, renewing, still, if_true]
  exact ⟨_, _, rfl⟩

/-! ## Agreement -/

/-- A refresh token that passes every check that introspection and exchange share. -/
structure Exchangeable (db : Db) (now : Nat) (client : ApplicationIdentity) (supplied : List Nat)
    (row : RefreshCandidateRow) (authority : SubjectAuthority) : Prop where
  lookup : refreshTokenCandidate db client supplied = some row
  application : lockCurrentApplicationClient db client = true
  authority : lockCurrentApplicationOauthSubjectAuthority db now client.application row.consent.id
    row.binding = some authority
  usable : refreshUsable now row.token row.family = true

variable {row : RefreshCandidateRow} {authority : SubjectAuthority}

/-- The candidate's consent is active and the client's. -/
theorem Exchangeable.consent
    (live : Exchangeable db now client supplied row authority) :
    row.consent.application = client.application ∧ row.consent.active = true := by
  have found := refreshTokenCandidate_spec live.lookup
  obtain ⟨subject, session, consent, rests⟩ := authorityRests live.authority
  obtain ⟨mem, own, application, -, -, -, -, -, active⟩ := currentConsent_spec rests.consentFound
  obtain rfl := Table.unique mem found.consent own
  exact ⟨application, active⟩

/-- Introspection reports the scopes that an exchange would issue. -/
theorem Exchangeable.scopes
    (live : Exchangeable db now client supplied row authority) :
    refreshFamilyScopes db row = refreshIssuanceScopes db client row := by
  have found := refreshTokenCandidate_spec live.lookup
  obtain ⟨application, active⟩ := live.consent
  obtain ⟨-, -, -, open_, -⟩ := refreshUsable_spec live.usable
  have family : (db.families.find? fun family =>
      family.id = row.family.id && family.consent = some row.consent.id &&
        family.status = .active) = some row.family :=
    Table.find?_eq_some_of_key found.family (by simp [found.consentOwn, open_])
      fun other _ holds => by
        simp only [Bool.and_eq_true, decide_eq_true_eq] at holds
        exact holds.1.1
  have granted (scope : String) : (db.consents.any fun consent =>
      consent.id = row.consent.id && consent.active && consent.scopes.contains scope) =
        row.consent.scopes.contains scope := by
    rw [Bool.eq_iff_iff, Table.any_eq_true]
    constructor
    · rintro ⟨consent, mem, holds⟩
      simp only [Bool.and_eq_true, decide_eq_true_eq] at holds
      obtain rfl := Table.unique mem found.consent holds.1.1
      exact holds.2
    · intro holds
      exact ⟨row.consent, found.consent, by simp only [active, holds, decide_true, Bool.and_self]⟩
  simp only [refreshFamilyScopes, family, refreshIssuanceScopes, granted, application]

/-- Without an organization in the request, introspection checks nothing more. -/
theorem introspection_active_iff :
    (introspectRefreshToken db now client supplied none).isSome = true ↔
      ∃ row authority, Exchangeable db now client supplied row authority := by
  constructor
  · intro active
    obtain ⟨answer, done⟩ := Option.isSome_iff_exists.mp active
    unfold introspectRefreshToken at done
    obtain ⟨current, done⟩ := Option.ite_none_left_eq_some.mp done
    simp only [Option.bind_eq_bind, Option.bind_eq_some_iff] at done
    obtain ⟨row, lookup, authority, rests, ⟨token, family⟩, locked, done⟩ := done
    obtain ⟨rfl, rfl⟩ := refreshCredentialLock_eq (refreshTokenCandidate_spec lookup) locked
    split at done
    · rename_i usable
      exact ⟨row, authority, lookup, by simpa using current, rests, usable⟩
    · simp at done
  · rintro ⟨row, authority, live⟩
    have locked := refreshCredentialLock_found (refreshTokenCandidate_spec live.lookup)
    simp [introspectRefreshToken, live.application, live.lookup, live.authority, locked,
      organizationFilterMatches, live.usable]

theorem introspection_scope {answer : Introspection} (live : Exchangeable db now client supplied row authority)
    (done : introspectRefreshToken db now client supplied none = some answer) :
    answer.scope = refreshIssuanceScopes db client row := by
  have locked := refreshCredentialLock_found (refreshTokenCandidate_spec live.lookup)
  simp only [introspectRefreshToken, live.application, live.lookup, live.authority, locked,
    organizationFilterMatches, live.usable, Bool.not_true, Bool.false_eq_true, if_false,
    Option.bind_eq_bind, Option.bind_some, Bool.and_self, if_true] at done
  rw [← live.scopes, ← Option.some.inj done]

/-- A live token is exchanged as long as a scope is left. -/
theorem exchange_issues (sound : Sound db) (parented : Parented db) (new : fresh.New db)
    (live : Exchangeable db now client supplied row authority)
    (left : refreshIssuanceScopes db client row ≠ []) :
    ∃ response after, exchangeRefreshToken db settings now client supplied fresh =
      .ok (.issued response, after) := by
  have found := refreshTokenCandidate_spec live.lookup
  have locked := refreshCredentialLock_found found
  obtain ⟨unconsumed, unrevoked, -⟩ := refreshUsable_spec live.usable
  obtain ⟨subject, session, consent, rests⟩ := authorityRests live.authority
  have kind : (authority.tokenSubject row.binding row.consent.id).subjectKind ≠ .application :=
    rests.notApplication
  obtain ⟨response, after, issuing⟩ : ∃ response after, issueTokens db settings now client
      (authority.tokenSubject row.binding row.consent.id) (refreshIssuanceScopes db client row)
      (some row.family.id) (some row.token.id) fresh = .ok (response, after) :=
    issueTokens_issues sound.ids parented new kind _ _ found.token unconsumed unrevoked
  refine ⟨response, after, ?_⟩
  have nonempty : (refreshIssuanceScopes db client row).isEmpty = false := by simpa using left
  simp only [exchangeRefreshToken, live.lookup, locked, live.authority, live.application,
    live.usable, unconsumed, Option.isSome_none, Bool.false_eq_true, if_false, Bool.not_true,
    Bool.or_self, nonempty, issuing]

theorem exchange_issued {response : AppTokenResponse}
    (done : exchangeRefreshToken db settings now client supplied fresh =
      .ok (.issued response, after)) :
    ∃ row authority, Exchangeable db now client supplied row authority ∧
      refreshIssuanceScopes db client row ≠ [] ∧
        response.scope = refreshIssuanceScopes db client row := by
  obtain ⟨row, lookup, -, ⟨-, replayed, -⟩ | ⟨usable, current, authority, answer, rests, left, same,
    issuing⟩⟩ := exchangeRefreshToken_eq_ok done
  · cases replayed
  · obtain rfl := RefreshExchange.issued.inj same
    obtain ⟨-, -, -, -, -, scope⟩ := issueTokens_next issuing
    exact ⟨row, authority, ⟨lookup, current, rests, usable⟩, left, scope⟩

/-- Introspection reports the token active exactly when its exchange issues tokens, with
the scopes that it would issue. -/
def IntrospectionAgrees (db : Db) (settings : SecuritySettings) (now : Nat)
    (client : ApplicationIdentity) (supplied : List Nat) (fresh : Fresh) : Prop :=
  ((introspectRefreshToken db now client supplied none).isSome = true ↔
      ∃ response after, exchangeRefreshToken db settings now client supplied fresh =
        .ok (.issued response, after)) ∧
    ∀ answer response after, introspectRefreshToken db now client supplied none = some answer →
      exchangeRefreshToken db settings now client supplied fresh = .ok (.issued response, after) →
        answer.scope = response.scope

/-- A token that passes the checks both make has a scope of its family's snapshot that
its consent grants and its application is approved for. -/
def ScopeLeft (db : Db) (now : Nat) (client : ApplicationIdentity) (supplied : List Nat) : Prop :=
  ∀ row authority, Exchangeable db now client supplied row authority →
    ∃ scope ∈ row.family.scopes, scope ∈ row.consent.scopes ∧
      scope ∈ lockedApplicationApprovedScopes db client.application

theorem scopeLeft_iff :
    (∃ scope ∈ row.family.scopes, scope ∈ row.consent.scopes ∧
        scope ∈ lockedApplicationApprovedScopes db client.application) ↔
      refreshIssuanceScopes db client row ≠ [] := by
  simp [refreshIssuanceScopes, List.filter_eq_nil_iff]

end Refreshing

/-- In every reachable state, introspection and exchange of a refresh token agree exactly
when a token that passes the shared checks has a scope left. -/
theorem introspection_agrees_iff (settings : SecuritySettings) (directory : Directory)
    (actions : List Action) (now : Nat) (client : ApplicationIdentity) (supplied : List Nat)
    (fresh : Fresh) (new : fresh.New (Runs.after (next settings) (.empty directory) actions)) :
    IntrospectionAgrees (Runs.after (next settings) (.empty directory) actions) settings now client
        supplied fresh ↔
      ScopeLeft (Runs.after (next settings) (.empty directory) actions) now client supplied := by
  have sound : Sound (Runs.after (next settings) (.empty directory) actions) :=
    (Sound.empty directory).runs actions
  have parented : Parented (Runs.after (next settings) (.empty directory) actions) :=
    (Parented.empty directory).runs (Ids.empty directory) actions
  constructor
  · rintro ⟨active, -⟩ row authority live
    obtain ⟨response, after, done⟩ := active.mp (introspection_active_iff.mpr ⟨row, authority, live⟩)
    obtain ⟨other, granted, issued, left, -⟩ := exchange_issued done
    obtain rfl := Option.some.inj (issued.lookup.symm.trans live.lookup)
    exact scopeLeft_iff.mpr left
  · intro left
    refine ⟨⟨fun active => ?_, ?_⟩, ?_⟩
    · obtain ⟨row, authority, live⟩ := introspection_active_iff.mp active
      exact exchange_issues sound parented new live (scopeLeft_iff.mp (left row authority live))
    · rintro ⟨response, after, done⟩
      obtain ⟨row, authority, live, -⟩ := exchange_issued done
      exact introspection_active_iff.mpr ⟨row, authority, live⟩
    · intro answer response after told done
      obtain ⟨row, authority, live, -, scope⟩ := exchange_issued done
      exact (introspection_scope live told).trans scope.symm

open Scenario in
/-- Ada's application may exchange its refresh token, and introspection says so. -/
theorem introspection_agrees_login :
    IntrospectionAgrees (Runs.after (next ttls) (.empty directory) login) ttls 40 crm [1033]
      (fresh 40) := by
  refine (introspection_agrees_iff ttls directory login 40 crm [1033] (fresh 40)
    ⟨by decide +kernel, by decide +kernel, by decide, by decide +kernel, by decide +kernel⟩).mpr ?_
  intro row authority live
  have left : (refreshTokenCandidate (Runs.after (next ttls) (.empty directory) login) crm
      [1033]).all (fun row => row.family.scopes.any fun scope => row.consent.scopes.contains scope &&
        (lockedApplicationApprovedScopes (Runs.after (next ttls) (.empty directory) login)
          crm.application).contains scope) = true := by
    decide +kernel
  rw [live.lookup] at left
  simpa using left

namespace Scenario

/-- The application's approvals are revoked after Ada logged in. -/
def unapproved : List Action :=
  login ++ [.configure 35 { directory with
    applications := directory.applications.map fun app => { app with approvedScopes := [] } }]

end Scenario

open Scenario in
/-- With no scope left, introspection still reports the token active, and its exchange
is refused. -/
theorem introspection_active_without_scopes :
    ¬ IntrospectionAgrees (Runs.after (next ttls) (.empty directory) unapproved) ttls 40 crm [1033]
      (fresh 40) := by
  rintro ⟨active, -⟩
  obtain ⟨response, after, done⟩ := active.mp (by decide +kernel)
  have refused : (exchangeRefreshToken (Runs.after (next ttls) (.empty directory) unapproved) ttls 40
      crm [1033] (fresh 40)).isOk = false := by
    decide +kernel
  rw [done] at refused
  cases refused

end SiliconIam.Auth.Authority
