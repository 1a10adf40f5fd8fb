/-
# Auth.AuthorityWrites -- what a transaction can do to the rows

`Write` lists what a transaction of the system can do to the rows: mark or drop
some, insert one row, open a refresh family with its first pair of tokens, or
exchange the last refresh token of a family for the next pair.  The marking writes
are derived here, one for each statement of the source; what the operations do
with them is `Auth.AuthorityOperations`.

An access token is written together with a refresh token, and never later linked
to another family; that is what `Pair` records.
-/
import SiliconIam.Auth.AuthorityEvolution
import Mathlib.Logic.Relation

namespace SiliconIam.Auth.Authority

open SiliconIam.Theory

set_option autoImplicit false

/-! ## Writes -/

/-- The columns a family shares with the access tokens issued from it. -/
def AccessToken.BelongsTo (family : Family) (token : AccessToken) : Prop :=
  token.session = family.session ∧ token.subject = family.subject ∧ token.client = family.client

/-- Whoever closes a family closes the access tokens issued from it. -/
def ClosesLinked (db after : Db) : Prop :=
  ∀ family ∈ after.families, family.status ≠ .active →
    (∃ old ∈ db.families, old.id = family.id ∧ old.status ≠ .active) ∨
      ∀ token ∈ after.access, token.oauthRefreshFamily = some family.id →
        token.BelongsTo family → token.revokedAt.isSome = true

/-- Everything of a refresh token but its revocation. -/
def RefreshToken.link (token : RefreshToken) : RefreshToken := { token with revokedAt := none }

/-- The refresh tokens of a family that stays are only revoked. -/
structure KeepsTokens (db after : Db) : Prop where
  sound : ∀ row ∈ after.tokens, ∃ old ∈ db.tokens, old.link = row.link
  complete : ∀ family ∈ after.families, ∀ old ∈ db.tokens, old.family = family.id →
    ∃ row ∈ after.tokens, old.link = row.link

/-- The token's session is the subject's, and of the epoch the token was issued at. -/
def Issued (db : Db) (token : AccessToken) : Prop :=
  ∃ session ∈ db.sessions, session.id = token.session ∧ session.subject = token.subject ∧
    session.authEpoch = token.subjectAuthEpoch

/-- A token issued from an application's family names it and stays within its scopes. -/
def LinkedTo (family : Family) (token : AccessToken) : Prop :=
  token.oauthRefreshFamily = none ∨
    token.oauthRefreshFamily = some family.id ∧ token.BelongsTo family ∧
      token.scopes ⊆ family.scopes

/-- The pair of tokens issued from a family, after `parent`. -/
structure Pair (db : Db) (family : Family) (parent : Option Nat) (token : AccessToken)
    (refresh : RefreshToken) : Prop where
  issued : Issued db token
  linked : LinkedTo family token
  family : refresh.family = family.id
  parent : refresh.parent = parent
  unconsumed : refresh.consumedAt = none

/-- The rows an application's family refers to. -/
def Family.Referenced (db : Db) (family : Family) : Prop :=
  ∀ client, family.client = some client →
    (∃ consent ∈ db.consents, family.consent = some consent.id) ∧
      ∃ principal ∈ db.principals, principal.id = family.subject

/-- Consents are told apart by their unique key, and bound to no organization. -/
structure Grants (db : Db) : Prop where
  unique : ∀ a ∈ db.consents, ∀ b ∈ db.consents, a.grantKey = b.grantKey → a = b
  unbound : ∀ consent ∈ db.consents, consent.organization = none

theorem Grants.of_same {db after : Db} (same : after.consents = db.consents) (grants : Grants db) :
    Grants after where
  unique := same ▸ grants.unique
  unbound := same ▸ grants.unbound

/-- One write.  `record` inserts into one of the other tables. -/
inductive Write (now : Nat) (db : Db) : Db → Prop
  | quiet {after : Db} (quiet : Quiet now db after) (closes : ClosesLinked db after)
      (keeps : KeepsTokens db after) : Write now db after
  | record {after : Db} (evolves : Evolves now db after) (sessions : after.sessions = db.sessions)
      (access : after.access = db.access) (families : after.families = db.families)
      (tokens : after.tokens = db.tokens) (grants : Grants db → Grants after) :
      Write now db after
  | session {after : Db} {row : Session} (done : insertSubjectSession db row = some after) :
      Write now db after
  | openFamily {opened issued after : Db} {family : Family} {token : AccessToken}
      {refresh : RefreshToken} (active : family.status = .active)
      (referenced : family.Referenced db) (pair : Pair db family none token refresh)
      (opening : insertFamily db family = some opened)
      (issuing : insertAccessToken opened token = some issued)
      (done : insertRefreshToken issued refresh = some after) : Write now db after
  | rotate {issued renewed : Db} {family : Family} {parent refresh : RefreshToken}
      {token : AccessToken} (mem : family ∈ db.families) (active : family.status = .active)
      (held : parent ∈ db.tokens) (own : parent.family = family.id)
      (unconsumed : parent.consumedAt = none) (pair : Pair db family (some parent.id) token refresh)
      (issuing : insertAccessToken db token = some issued)
      (done : insertRefreshToken issued refresh = some renewed) :
      Write now db (consumeParent renewed now parent.id refresh.id)

/-- The writes of one transaction. -/
def Writes (now : Nat) : Db → Db → Prop := Relation.ReflTransGen (Write now)

theorem Write.writes {now : Nat} {db after : Db} (write : Write now db after) :
    Writes now db after :=
  .single write

theorem Writes.refl (now : Nat) (db : Db) : Writes now db db := Relation.ReflTransGen.refl

theorem Writes.append {now : Nat} {a b c : Db} (first : Writes now a b) (second : Writes now b c) :
    Writes now a c :=
  Relation.ReflTransGen.trans first second

/-- What every write keeps, a transaction keeps. -/
theorem Writes.invariant {now : Nat} {I : Db → Prop}
    (keeps : ∀ db after, I db → Write now db after → I after) {db after : Db}
    (writes : Writes now db after) (start : I db) : I after := by
  induction writes with
  | refl => exact start
  | tail _ write ih => exact keeps _ _ ih write

theorem Quiet.consumeParent (db : Db) (now parent replacement : Nat) :
    Quiet now db (consumeParent db now parent replacement) :=
  { Quiet.refl now db with
    tokens := .update rfl fun token _ _ => RefreshToken.consume_continues replacement token }

theorem Write.evolves {now : Nat} {db after : Db} (write : Write now db after) :
    Evolves now db after := by
  cases write with
  | quiet quiet => exact quiet.evolves
  | record evolves => exact evolves
  | session done => exact .insertSubjectSession done
  | openFamily _ _ _ opening issuing done =>
      exact (Evolves.insertFamily opening).trans
        ((Evolves.insertAccessToken issuing).trans (.insertRefreshToken done))
  | rotate _ _ _ _ _ _ issuing done =>
      exact (Evolves.insertAccessToken issuing).trans
        ((Evolves.insertRefreshToken done).trans (Quiet.consumeParent _ _ _ _).evolves)

theorem Writes.evolves {now : Nat} {db after : Db} (writes : Writes now db after) :
    Evolves now db after := by
  induction writes with
  | refl => exact .refl now db
  | tail _ write ih => exact ih.trans write.evolves

/-! ## Rows of the other tables -/

section Records

variable {now : Nat} {db after : Db}

theorem Write.principal {row : Principal} (done : createPrincipal db row = some after) :
    Write now db after := by
  have evolves : Evolves now db after := .createPrincipal done
  obtain ⟨-, principals, -, rfl⟩ := createPrincipal_eq_some done
  exact .record evolves rfl rfl rfl rfl (.of_same rfl)

theorem Write.consent {row : Consent} (unbound : row.organization = none)
    (done : insertConsent db row = some after) : Write now db after := by
  have evolves : Evolves now db after := .insertConsent done
  obtain ⟨-, own, consents, inserted, rfl⟩ := insertConsent_eq_some done
  have member := (Table.insert_spec inserted).2
  refine .record evolves rfl rfl rfl rfl fun grants => ⟨?_, ?_⟩
  · intro a ma b mb same
    rcases (member a).mp ma with rfl | heldA <;> rcases (member b).mp mb with rfl | heldB
    · rfl
    · exact absurd same.symm (own b heldB)
    · exact absurd same (own a heldA)
    · exact grants.unique a heldA b heldB same
  · intro consent mem
    rcases (member consent).mp mem with rfl | held
    · exact unbound
    · exact grants.unbound consent held

theorem Write.request {row : AuthorizationRequest} (done : insertRequest db row = some after) :
    Write now db after := by
  have evolves : Evolves now db after := .insertRequest done
  obtain ⟨-, -, requests, -, rfl⟩ := insertRequest_eq_some done
  exact .record evolves rfl rfl rfl rfl (.of_same rfl)

theorem Write.code {row : AuthorizationCode} (done : insertCode db row = some after) :
    Write now db after := by
  have evolves : Evolves now db after := .insertCode done
  obtain ⟨-, codes, -, rfl⟩ := insertCode_eq_some done
  exact .record evolves rfl rfl rfl rfl (.of_same rfl)

theorem Write.proof {row : OboProof} (done : insertProof db row = some after) :
    Write now db after := by
  have evolves : Evolves now db after := .insertProof done
  obtain ⟨-, proofs, -, rfl⟩ := insertProof_eq_some done
  exact .record evolves rfl rfl rfl rfl (.of_same rfl)

end Records

/-! ## Marking writes -/

section Marking

variable {now : Nat} {db after : Db}

theorem ClosesLinked.of_families (same : after.families = db.families) : ClosesLinked db after :=
  fun family mem closed => .inl ⟨family, same ▸ mem, rfl, closed⟩

/-- The families picked are closed together with what was issued from them. -/
theorem ClosesLinked.update {p : Family → Bool} {set : Family → Family}
    (families : Table.Updated p set db.families after.families)
    (fixes : ∀ row, (set row).fixed = row.fixed)
    (closes : ∀ family ∈ db.families, p family = true → ∀ token ∈ after.access,
      token.oauthRefreshFamily = some family.id → token.BelongsTo family →
        token.revokedAt.isSome = true) : ClosesLinked db after := by
  intro family mem closed
  obtain ⟨old, held, rfl⟩ := families.mem.mp mem
  by_cases picked : p old = true
  · simp only [if_pos picked] at closed ⊢
    refine .inr fun token tokenMem linked belongs => closes old held picked token tokenMem ?_ ?_
    · rw [linked, Family.keyed _ _ (fixes old)]
    · have same := fixes old
      obtain ⟨session, subject, client⟩ := belongs
      exact ⟨session.trans (congrArg Family.session same :),
        subject.trans (congrArg Family.subject same :), client.trans (congrArg Family.client same :)⟩
  · simp only [if_neg picked] at closed ⊢
    exact .inl ⟨old, held, rfl, closed⟩

theorem KeepsTokens.of_tokens (same : after.tokens = db.tokens) : KeepsTokens db after where
  sound := fun row mem => ⟨row, same ▸ mem, rfl⟩
  complete := fun _ _ old mem _ => ⟨old, same.symm ▸ mem, rfl⟩

theorem KeepsTokens.revoke {p : RefreshToken → Bool}
    (tokens : Table.Updated p (RefreshToken.revoke now) db.tokens after.tokens) :
    KeepsTokens db after where
  sound := by
    intro row mem
    obtain ⟨old, held, rfl⟩ := tokens.mem.mp mem
    refine ⟨old, held, ?_⟩
    split <;> rfl
  complete := by
    intro _ _ old held _
    refine ⟨if p old then old.revoke now else old, ?_, ?_⟩
    · exact tokens.mem.mpr ⟨old, held, rfl⟩
    · split <;> rfl

/-- A write that leaves the refresh families and their tokens alone. -/
theorem Write.marking (quiet : Quiet now db after) (families : after.families = db.families)
    (tokens : after.tokens = db.tokens) : Write now db after :=
  .quiet quiet (.of_families families) (.of_tokens tokens)

/-- After an update that revokes, every token it meant to revoke is revoked. -/
theorem revoked_of_update {q : AccessToken → Bool} {set : AccessToken → AccessToken}
    {before access : Table AccessToken.id} {token : AccessToken} (mem : token ∈ access)
    (updated : Table.Updated q set before access) (sets : ∀ row, (set row).revokedAt.isSome = true)
    (meant : q token = true ∨ token.revokedAt.isSome = true) : token.revokedAt.isSome = true := by
  obtain ⟨old, -, rfl⟩ := updated.mem.mp mem
  by_cases picked : q old = true
  · rw [if_pos picked]
    exact sets old
  · rw [if_neg picked] at meant ⊢
    exact meant.resolve_left picked

theorem Write.consumeCode (db : Db) (now : Nat) (row : AuthorizationCodeRow) :
    Write now db (consumeCode db now row) :=
  .marking
    { Quiet.refl now db with
      codes := .update rfl fun _ _ _ => ⟨rfl, fun _ _ => rfl⟩
      requests := .update rfl fun _ _ _ => ⟨rfl, fun _ _ => by simp [AuthorizationRequest.marks]⟩ } rfl rfl

theorem Write.revokeReplayedFamily (db : Db) (now : Nat) (row : RefreshLookupRow)
    (own : row.session.id = row.family.session) (held : row.family ∈ db.families) :
    Write now db (revokeReplayedFamily db now row) := by
  refine .quiet ?_ (.update rfl (fun _ => rfl) ?_) (.revoke rfl)
  · exact { Quiet.refl now db with
      families := .update rfl fun family _ _ => family.compromiseReplayed_continues
      tokens := .update rfl fun token _ _ => token.revoke_continues
      access := .update rfl fun token _ _ => token.revoke_continues "refresh_replay"
      sessions := .update rfl fun session _ _ => session.revokeReplayed_continues }
  · intro family mem picked token tokenMem _ belongs
    simp only [Bool.and_eq_true, decide_eq_true_eq] at picked
    obtain rfl := Table.unique mem held picked.1
    refine revoked_of_update tokenMem rfl (fun _ => coalesce_isSome _ _) (.inl ?_)
    simpa [own] using belongs.1

theorem Write.touchSession {session : Nat} {row : Session}
    (done : touchSession db session = .ok after) (mem : row ∈ db.sessions) (own : row.id = session)
    (live : row.live now = true) : Write now db after := by
  unfold Authority.touchSession at done
  split at done
  · obtain rfl := Except.ok.inj done
    refine .marking { Quiet.refl now db with sessions := .update rfl fun other held picked => ?_ }
      rfl rfl
    simp only [Bool.and_eq_true, decide_eq_true_eq] at picked
    obtain rfl := Table.unique held mem (picked.1.trans own.symm)
    exact Session.touch_continues live
  · simp at done

theorem Write.compromiseRefreshFamily {family : Family} {client : Nat} (db : Db) (now : Nat)
    (mem : family ∈ db.families) (own : family.client = some client) :
    Write now db (compromiseRefreshFamily db now family.id family.session client) := by
  unfold Authority.compromiseRefreshFamily
  split
  · refine .quiet ?_ (.update rfl (fun _ => rfl) ?_) (.revoke rfl)
    · exact { Quiet.refl now db with
        families := .update rfl fun row _ _ => row.compromise_continues
        tokens := .update rfl fun token _ _ => token.revoke_continues
        access := .update rfl fun token _ _ => token.revoke_continues "refresh_token_reuse" }
    · intro row held picked token tokenMem linked belongs
      simp only [Bool.and_eq_true, decide_eq_true_eq] at picked
      obtain rfl := Table.unique held mem picked.1
      refine revoked_of_update tokenMem rfl (fun _ => coalesce_isSome _ _) (.inl ?_)
      simp [familyAccessToken, linked, belongs.1, belongs.2.2, own]
  · exact .marking (.refl now db) rfl rfl

theorem Write.approveConsent (db : Db) (now : Nat) (request : AuthorizationRequest)
    (isPrivate : Bool) (selected : List Nat) :
    Write now db
      { db with
        consents := db.consents.update (Consent.forRequest request)
          (Consent.approve isPrivate request selected) fun _ => rfl } :=
  .marking
    { Quiet.refl now db with
      consents := .update rfl fun _ _ _ => ⟨rfl, fun _ held => held⟩
      consentsKept := .update rfl fun _ => rfl } rfl rfl

/-- Pending requests may be decided. -/
theorem Write.decideRequest (db : Db) (now : Nat) (p : AuthorizationRequest → Bool)
    (pending : ∀ row, p row = true → row.status = .pending) :
    Write now db
      { db with
        requests := db.requests.update p
          (fun row => { row with status := .approved, decidedAt := some now }) fun _ => rfl } := by
  refine .marking { Quiet.refl now db with
    requests := .update rfl fun row _ picked => ⟨rfl, fun _ held => ?_⟩ } rfl rfl
  exact absurd (pending row picked) held.1

theorem Write.consumeProof (db : Db) (now : Nat) (p : OboProof → Bool) :
    Write now db
      { db with
        proofs := db.proofs.update p (fun proof => { proof with consumedAt := some now })
          fun _ => rfl } := by
  refine .marking { Quiet.refl now db with
    proofs := .update rfl fun row _ _ => ⟨rfl, fun mark held => ?_⟩ } rfl rfl
  cases mark with
  | consumed => rfl
  | revoked => exact held

theorem Write.revokeSessions (db : Db) (now : Nat) (p : Session → Bool) (reason : String) :
    Write now db
      { db with sessions := db.sessions.update p (Session.revoke now reason) fun _ => rfl } :=
  .marking
    { Quiet.refl now db with
      sessions := .update rfl fun session _ _ => session.revoke_continues reason } rfl rfl

theorem Write.revokeSessionTokenAuthority (db : Db) (now session : Nat) (reason : String) :
    Write now db (revokeSessionTokenAuthority db now session reason) := by
  refine .quiet ?_ (.update rfl (fun _ => rfl) ?_) (.revoke rfl)
  · exact { Quiet.refl now db with
      families := .update rfl fun family _ _ => family.revoke_continues reason
      tokens := .update rfl fun token _ _ => token.revoke_continues
      access := .update rfl fun token _ _ => token.revoke_continues reason }
  · intro family _ picked token tokenMem _ belongs
    simp only [Bool.and_eq_true, decide_eq_true_eq] at picked
    refine revoked_of_update tokenMem rfl (fun _ => coalesce_isSome _ _) (.inl ?_)
    simpa using belongs.1.trans picked.1

theorem Write.revokeSessionOauthAuthority (db : Db) (now session : Nat) :
    Write now db (revokeSessionOauthAuthority db now session) :=
  .marking
    { Quiet.refl now db with
      codes := .update rfl fun code _ _ => code.consume_continues
      requests := .update rfl fun request _ _ => request.deny_continues
      consents := .update rfl fun consent _ _ => consent.revoke_continues
      consentsKept := .update rfl fun _ => rfl } rfl rfl

theorem Write.revokeSessionOboAuthority (db : Db) (now session : Nat) :
    Write now db (revokeSessionOboAuthority db now session) :=
  .marking
    { Quiet.refl now db with proofs := .update rfl fun proof _ _ => proof.revoke_continues } rfl rfl

theorem Writes.revokeSessionAuthority (db : Db) (now session : Nat) (reason : String) :
    Writes now db (revokeSessionAuthority db now session reason) :=
  ((Write.revokeSessionTokenAuthority db now session reason).writes.append
    (Write.revokeSessionOauthAuthority _ now session).writes).append
      (Write.revokeSessionOboAuthority _ now session).writes

theorem Writes.revokeOne (db : Db) (now principal session : Nat) (reason : String) :
    Writes now db (revokeOne db now principal session reason) := by
  unfold Authority.revokeOne
  split
  · exact (Write.revokeSessions db now _ reason).writes.append (.revokeSessionAuthority _ _ _ _)
  · exact .refl now db

theorem Writes.revokeAll (db : Db) (now principal : Nat) :
    Writes now db (revokeAll db now principal) := by
  have each (sessions : List Nat) (db : Db) : Writes now db (sessions.foldl
      (fun db session => Authority.revokeSessionAuthority db now session "user_logout_all") db) := by
    induction sessions generalizing db with
    | nil => exact .refl now db
    | cons session rest ih => exact (Writes.revokeSessionAuthority db now session _).append (ih _)
  exact (Write.revokeSessions db now _ _).writes.append (each _ _)

theorem Principal.raise_continues (principal : Principal) (status : PrincipalStatus) (raise : Nat) :
    Table.Continues Principal.fixed Principal.marks principal
      { principal with status := status, authEpoch := principal.authEpoch + raise } where
  fixed := rfl
  marks epoch held := by
    simp only [Principal.marks] at held ⊢
    omega

/-- Access tokens picked by subject or client are revoked unless they were before. -/
theorem revoked_of_revokeUnrevoked {q : AccessToken → Bool} {before access : Table AccessToken.id}
    {token : AccessToken} {reason : String} (mem : token ∈ access)
    (updated : Table.Updated (fun token => q token && token.revokedAt.isNone)
      (AccessToken.revokeUnrevoked now reason) before access)
    (meant : q token = true) : token.revokedAt.isSome = true := by
  refine revoked_of_update mem updated (fun _ => rfl) ?_
  cases revoked : token.revokedAt with
  | none => exact .inl (by simp [meant])
  | some _ => exact .inr rfl

theorem Write.rotateSiliconCredential (db : Db) (now silicon : Nat) :
    Write now db (rotateSiliconCredential db now silicon) := by
  refine .quiet ?_ (.update rfl (fun _ => rfl) ?_) (.revoke rfl)
  · exact { Quiet.refl now db with
      principals := .update rfl fun principal _ _ => principal.raise_continues principal.status 1
      principalsKept := .update rfl fun _ => rfl
      sessions := .update rfl fun session _ _ => session.revoke_continues _
      families := .update rfl fun family _ _ => family.revoke_continues _
      tokens := .update rfl fun token _ _ => token.revoke_continues
      access := .update rfl fun token _ _ => token.revokeUnrevoked_continues _ }
  · intro family _ picked token tokenMem _ belongs
    simp only [Bool.and_eq_true, decide_eq_true_eq] at picked
    refine revoked_of_revokeUnrevoked tokenMem rfl ?_
    simpa using belongs.2.1.trans picked.1

theorem Write.removeSilicon (db : Db) (now silicon : Nat) :
    Write now db (removeSilicon db now silicon) := by
  refine .quiet ?_ (.update rfl (fun _ => rfl) ?_) (.of_tokens rfl)
  · exact { Quiet.refl now db with
      principals := .update rfl fun principal _ _ => principal.raise_continues .deleted 1
      principalsKept := .update rfl fun _ => rfl
      sessions := .update rfl fun session _ _ => session.revoke_continues _
      families := .update rfl fun family _ _ => family.revoke_continues _
      access := .update rfl fun token _ _ => token.revokeUnrevoked_continues _ }
  · intro family _ picked token tokenMem _ belongs
    simp only [Bool.and_eq_true, decide_eq_true_eq] at picked
    refine revoked_of_revokeUnrevoked tokenMem rfl ?_
    simpa using belongs.2.1.trans picked.1

theorem Write.revokeAccessToken (db : Db) (now : Nat) (client : ApplicationIdentity)
    (supplied : List Nat) : Write now db (revokeAccessToken db now client supplied) :=
  .marking
    { Quiet.refl now db with
      access := .update rfl fun token _ _ => token.revokeUnrevoked_continues _ } rfl rfl

theorem clientFamily_spec {client : ApplicationIdentity} {supplied : List Nat} {family : Family}
    (found : clientFamily db client supplied = some family) :
    family ∈ db.families ∧ family.client = some client.application ∧
      ∃ token ∈ db.tokens, token.purpose = .oauthRefreshToken ∧ supplied.contains token.digest ∧
        token.family = family.id := by
  simp only [clientFamily, Option.bind_eq_bind, Option.bind_eq_some_iff] at found
  obtain ⟨token, tokenFound, familyFound⟩ := found
  obtain ⟨tokenMem, tokenHolds⟩ := Table.find?_spec tokenFound
  obtain ⟨mem, holds⟩ := Table.find?_spec familyFound
  simp only [Bool.and_eq_true, decide_eq_true_eq] at tokenHolds holds
  exact ⟨mem, holds.2, token, tokenMem, tokenHolds.1, tokenHolds.2, holds.1.symm⟩

theorem Write.revokeRefreshFamily (db : Db) (now : Nat) (client : ApplicationIdentity)
    (supplied : List Nat) : Write now db (revokeRefreshFamily db now client supplied) := by
  unfold Authority.revokeRefreshFamily
  split
  · exact .marking (.refl now db) rfl rfl
  · rename_i family found
    obtain ⟨mem, own, -⟩ := clientFamily_spec found
    split
    · refine .quiet ?_ (.update rfl (fun _ => rfl) ?_) (.revoke rfl)
      · exact { Quiet.refl now db with
          families := .update rfl fun row _ _ => row.revoke_continues _
          tokens := .update rfl fun token _ _ => token.revoke_continues
          access := .update rfl fun token _ _ => token.revoke_continues _ }
      · intro row held picked token tokenMem linked belongs
        simp only [Bool.and_eq_true, decide_eq_true_eq] at picked
        obtain rfl := Table.unique held mem picked.1
        refine revoked_of_update tokenMem rfl (fun _ => coalesce_isSome _ _) (.inl ?_)
        simp [familyAccessToken, linked, belongs.1, belongs.2.2, own]
    · exact .marking (.refl now db) rfl rfl

theorem Write.revokeApplicationAuthority (db : Db) (now application : Nat) (reason : String) :
    Write now db (revokeApplicationAuthority db now application reason) := by
  refine .quiet ?_ (.update rfl (fun _ => rfl) ?_) (.revoke rfl)
  · exact { Quiet.refl now db with
      families := .update rfl fun family _ _ => family.revoke_continues _
      tokens := .update rfl fun token _ _ => token.revoke_continues
      access := .update rfl fun token _ _ => token.revokeUnrevoked_continues _
      consents := .update rfl fun consent _ _ => consent.revoke_continues
      consentsKept := .update rfl fun _ => rfl
      proofs := .update rfl fun proof _ _ => proof.revoke_continues }
  · intro family _ picked token tokenMem _ belongs
    simp only [Bool.and_eq_true, decide_eq_true_eq] at picked
    refine revoked_of_revokeUnrevoked tokenMem rfl ?_
    simp [belongs.2.2.trans picked.1]

theorem Write.close (db : Db) (now : Nat) (reason : String) (selection : Selection) :
    Write now db (close db now reason selection) :=
  .marking
    { Quiet.refl now db with
      sessions := .update rfl fun session _ _ => session.revoke_continues _
      access := .update rfl fun token _ _ => token.revoke_continues _
      requests := .update rfl fun request _ _ => request.deny_continues
      codes := .update rfl fun code _ _ => code.consume_continues
      consents := .update rfl fun consent _ _ => consent.revoke_continues
      consentsKept := .update rfl fun _ => rfl
      proofs := .update rfl fun proof _ _ => proof.revoke_continues } rfl rfl

theorem Write.purge (db : Db) (now : Nat) (selection : Selection) :
    Write now db (purge db selection) := by
  unfold Authority.purge
  split
  · refine .quiet ?_ ?_ ⟨?_, ?_⟩
    · exact { Quiet.refl now db with
        sessions := .restrict
        families := .restrict
        tokens := .restrict
        access := Table.Continued.trans .restrict
          (.update rfl fun token _ _ => token.unlink_continues)
        requests := .restrict
        codes := .restrict
        proofs := .restrict }
    · exact fun family mem closed => .inl ⟨family, (Table.mem_restrict.mp mem).1, rfl, closed⟩
    · exact fun row mem => ⟨row, (Table.mem_restrict.mp mem).1, rfl⟩
    · intro family mem old held own
      refine ⟨old, Table.mem_restrict.mpr ⟨held, ?_⟩, rfl⟩
      obtain ⟨familyMem, kept⟩ := Table.mem_restrict.mp mem
      simp only [Bool.not_eq_true'] at kept ⊢
      refine Bool.eq_false_iff.mpr fun dropped => ?_
      obtain ⟨other, otherMem, holds⟩ := Table.any_spec dropped
      simp only [Bool.and_eq_true, decide_eq_true_eq] at holds
      obtain rfl := Table.unique otherMem familyMem (holds.1.trans own)
      simp [kept] at holds
  · exact .marking (.refl now db) rfl rfl

theorem Write.changePrincipal (db : Db) (now id : Nat) (status : PrincipalStatus) (raise : Nat) :
    Write now db (changePrincipal db id status raise) :=
  .marking
    { Quiet.refl now db with
      principals := .update rfl fun principal _ _ => principal.raise_continues status raise
      principalsKept := .update rfl fun _ => rfl } rfl rfl

theorem Write.configure (db : Db) (now : Nat) (directory : Directory) :
    Write now db { db with directory := directory } :=
  .marking { Quiet.refl now db with drawn := rfl } rfl rfl

end Marking

end SiliconIam.Auth.Authority
