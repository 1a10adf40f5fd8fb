/-
# Auth.AuthorityInvariant -- what holds of the rows in every run

Four invariants of the system, each kept by every write:

* `Ids`: the identifier of every row was drawn, so a new row never takes the
  identifier of an old one;
* `Epochs`: an access token carries the subject and the epoch of its session;
* `Links`: an access token issued from a family shares the family's session,
  subject and client, stays within its scopes, and is revoked once the family is
  closed;
* `Chains`: the refresh tokens of a family form one chain, in which only the last
  one is unconsumed.

They are stated of all rows with a given identifier, so they also hold of the rows
retention has deleted.
-/
import SiliconIam.Auth.AuthorityOperations
import SiliconIam.Theory.Lineage

namespace SiliconIam.Auth.Authority

open SiliconIam.Theory

set_option autoImplicit false

variable {now : Nat} {db after : Db}

/-! ## Identifiers -/

structure Ids (db : Db) : Prop where
  principals : ∀ row ∈ db.principals, row.id ∈ db.drawn
  sessions : ∀ row ∈ db.sessions, row.id ∈ db.drawn
  access : ∀ row ∈ db.access, row.id ∈ db.drawn
  families : ∀ row ∈ db.families, row.id ∈ db.drawn
  tokens : ∀ row ∈ db.tokens, row.id ∈ db.drawn
  requests : ∀ row ∈ db.requests, row.id ∈ db.drawn
  codes : ∀ row ∈ db.codes, row.id ∈ db.drawn
  consents : ∀ row ∈ db.consents, row.id ∈ db.drawn
  proofs : ∀ row ∈ db.proofs, row.id ∈ db.drawn

theorem Ids.evolves (evolves : Evolves now db after) (ids : Ids db) : Ids after where
  principals := evolves.principals.keys Principal.keyed evolves.drawn ids.principals
  sessions := evolves.sessions.keys Session.keyed evolves.drawn ids.sessions
  access := evolves.access.keys AccessToken.keyed evolves.drawn ids.access
  families := evolves.families.keys Family.keyed evolves.drawn ids.families
  tokens := evolves.tokens.keys RefreshToken.keyed evolves.drawn ids.tokens
  requests := evolves.requests.keys AuthorizationRequest.keyed evolves.drawn ids.requests
  codes := evolves.codes.keys AuthorizationCode.keyed evolves.drawn ids.codes
  consents := evolves.consents.keys Consent.keyed evolves.drawn ids.consents
  proofs := evolves.proofs.keys OboProof.keyed evolves.drawn ids.proofs

theorem Ids.empty (directory : Directory) : Ids (.empty directory) := by
  constructor <;> exact fun _ mem => absurd mem Table.not_mem_empty

/-! ## Epochs -/

structure Epochs (db : Db) : Prop where
  subjects : ∀ session ∈ db.sessions, session.subject ∈ db.drawn
  drawn : ∀ token ∈ db.access, token.session ∈ db.drawn
  issued : ∀ token ∈ db.access, ∀ session ∈ db.sessions, session.id = token.session →
    session.subject = token.subject ∧ session.authEpoch = token.subjectAuthEpoch

theorem Epochs.empty (directory : Directory) : Epochs (.empty directory) where
  subjects := fun _ mem => absurd mem Table.not_mem_empty
  drawn := fun _ mem => absurd mem Table.not_mem_empty
  issued := fun _ mem => absurd mem Table.not_mem_empty

/-- Without new sessions and access tokens there is nothing to check. -/
theorem Epochs.of_continued (drawn : ∀ id ∈ db.drawn, id ∈ after.drawn)
    (sessions : Table.Continued Session.fixed (Session.marks now) db.sessions after.sessions)
    (access : Table.Continued AccessToken.fixed AccessToken.marks db.access after.access)
    (epochs : Epochs db) : Epochs after where
  subjects := by
    intro session mem
    obtain ⟨old, held, step⟩ := sessions session mem
    have same : old.subject = session.subject := (congrArg Session.subject step.fixed :)
    exact drawn _ (same ▸ epochs.subjects old held)
  drawn := by
    intro token mem
    obtain ⟨old, held, step⟩ := access token mem
    have same : old.session = token.session := (congrArg AccessToken.session step.fixed :)
    exact drawn _ (same ▸ epochs.drawn old held)
  issued := by
    intro token mem session sessionMem own
    obtain ⟨old, held, step⟩ := access token mem
    obtain ⟨oldSession, sessionHeld, sessionStep⟩ := sessions session sessionMem
    have tokenSame : old.session = token.session := (congrArg AccessToken.session step.fixed :)
    have sessionSame : oldSession.id = session.id := Session.keyed _ _ sessionStep.fixed
    obtain ⟨subject, epoch⟩ := epochs.issued old held oldSession sessionHeld
      (sessionSame.trans (own.trans tokenSame.symm))
    constructor
    · calc session.subject = oldSession.subject := (congrArg Session.subject sessionStep.fixed :).symm
        _ = old.subject := subject
        _ = token.subject := (congrArg AccessToken.subject step.fixed :)
    · calc session.authEpoch = oldSession.authEpoch :=
            (congrArg Session.authEpoch sessionStep.fixed :).symm
        _ = old.subjectAuthEpoch := epoch
        _ = token.subjectAuthEpoch := (congrArg AccessToken.subjectAuthEpoch step.fixed :)

/-- A new session has an identifier that no token names. -/
theorem Epochs.insertSession {session : Session} (ids : Ids db)
    (done : insertSubjectSession db session = some after) (epochs : Epochs db) : Epochs after := by
  obtain ⟨unused, ⟨principal, principalMem, own⟩, sessions, inserted, rfl⟩ :=
    insertSubjectSession_eq_some done
  have member := (Table.insert_spec inserted).2
  refine ⟨?_, fun token mem => List.mem_cons_of_mem _ (epochs.drawn token mem), ?_⟩
  · intro row mem
    rcases (member row).mp mem with rfl | held
    · exact List.mem_cons_of_mem _ (own ▸ ids.principals principal principalMem)
    · exact List.mem_cons_of_mem _ (epochs.subjects row held)
  · intro token mem row rowMem named
    rcases (member row).mp rowMem with rfl | held
    · exact absurd (named ▸ epochs.drawn token mem) unused
    · exact epochs.issued token mem row held named

variable {token : AccessToken}

theorem Epochs.insertAccess (ids : Ids db) (issued : Issued db token)
    (done : insertAccessToken db token = some after) (epochs : Epochs db) : Epochs after := by
  obtain ⟨-, access, inserted, rfl⟩ := insertAccessToken_eq_some done
  have member := (Table.insert_spec inserted).2
  obtain ⟨session, held, own, subject, epoch⟩ := issued
  refine ⟨fun row mem => List.mem_cons_of_mem _ (epochs.subjects row mem), ?_, ?_⟩
  · intro row mem
    rcases (member row).mp mem with rfl | old
    · exact List.mem_cons_of_mem _ (own ▸ ids.sessions session held)
    · exact List.mem_cons_of_mem _ (epochs.drawn row old)
  · intro row mem other otherMem named
    rcases (member row).mp mem with rfl | old
    · obtain rfl := Table.unique otherMem held (named.trans own.symm)
      exact ⟨subject, epoch⟩
    · exact epochs.issued row old other otherMem named

/-- Sessions and access tokens left as they are keep their epochs. -/
theorem Epochs.of_same (drawn : ∀ id ∈ db.drawn, id ∈ after.drawn)
    (sessions : after.sessions = db.sessions) (access : after.access = db.access)
    (epochs : Epochs db) : Epochs after where
  subjects := by
    rw [sessions]
    exact fun session mem => drawn _ (epochs.subjects session mem)
  drawn := by
    rw [access]
    exact fun token mem => drawn _ (epochs.drawn token mem)
  issued := by
    rw [sessions, access]
    exact epochs.issued

variable {family : Family}

theorem Epochs.insertFamily (done : insertFamily db family = some after)
    (epochs : Epochs db) : Epochs after := by
  obtain ⟨-, families, -, rfl⟩ := insertFamily_eq_some done
  exact epochs.of_same (fun _ => List.mem_cons_of_mem _) rfl rfl

theorem Epochs.insertRefresh {token : RefreshToken} (done : insertRefreshToken db token = some after)
    (epochs : Epochs db) : Epochs after := by
  obtain ⟨-, -, tokens, -, rfl⟩ := insertRefreshToken_eq_some done
  exact epochs.of_same (fun _ => List.mem_cons_of_mem _) rfl rfl

theorem Issued.insertFamily
    (done : insertFamily db family = some after) (issued : Issued db token) : Issued after token := by
  obtain ⟨-, families, -, rfl⟩ := insertFamily_eq_some done
  exact issued

theorem Epochs.write (ids : Ids db) (write : Write now db after) (epochs : Epochs db) :
    Epochs after := by
  have drawn := write.evolves.drawn
  cases write with
  | quiet quiet => exact epochs.of_continued drawn quiet.sessions quiet.access
  | record evolves sessions access => exact epochs.of_same drawn sessions access
  | session done => exact epochs.insertSession ids done
  | openFamily _ _ pair opening issuing done =>
      have evolves : Evolves now db _ := .insertFamily opening
      have ids := ids.evolves evolves
      exact ((epochs.insertFamily opening).insertAccess ids (pair.issued.insertFamily opening)
        issuing).insertRefresh done
  | rotate _ _ _ _ _ pair issuing done =>
      have epochs := (epochs.insertAccess ids pair.issued issuing).insertRefresh done
      exact ⟨epochs.subjects, epochs.drawn, epochs.issued⟩

/-! ## Links -/

structure Links (db : Db) : Prop where
  drawn : ∀ token ∈ db.access, ∀ family, token.oauthRefreshFamily = some family →
    family ∈ db.drawn
  linked : ∀ token ∈ db.access, ∀ family ∈ db.families,
    token.oauthRefreshFamily = some family.id →
      token.BelongsTo family ∧ token.scopes ⊆ family.scopes ∧
        (family.status ≠ .active → token.revokedAt.isSome = true)
  referenced : ∀ family ∈ db.families, family.Referenced db

theorem Links.empty (directory : Directory) : Links (.empty directory) where
  drawn := fun _ mem => absurd mem Table.not_mem_empty
  linked := fun _ mem => absurd mem Table.not_mem_empty
  referenced := fun _ mem => absurd mem Table.not_mem_empty

theorem BelongsTo.of_fixed {old : AccessToken} {before : Family}
    (tokens : old.fixed = token.fixed) (families : before.fixed = family.fixed)
    (belongs : old.BelongsTo before) : token.BelongsTo family := by
  have session : old.session = token.session := (congrArg AccessToken.session tokens :)
  have subject : old.subject = token.subject := (congrArg AccessToken.subject tokens :)
  have client : old.client = token.client := (congrArg AccessToken.client tokens :)
  have familySession : before.session = family.session := (congrArg Family.session families :)
  have familySubject : before.subject = family.subject := (congrArg Family.subject families :)
  have familyClient : before.client = family.client := (congrArg Family.client families :)
  obtain ⟨first, second, third⟩ := belongs
  exact ⟨session ▸ familySession ▸ first, subject ▸ familySubject ▸ second,
    client ▸ familyClient ▸ third⟩

/-- A link that a row has now it had before. -/
theorem AccessToken.linked_before {old : AccessToken} {family : Nat}
    (step : Table.Continues AccessToken.fixed AccessToken.marks old token)
    (linked : token.oauthRefreshFamily = some family) : old.oauthRefreshFamily = some family := by
  by_contra unlinked
  exact step.marks (.unlinked family) unlinked linked

theorem Family.Referenced.evolves (evolves : Evolves now db after)
    (referenced : family.Referenced db) : family.Referenced after := by
  intro client own
  obtain ⟨⟨consent, consentMem, named⟩, principal, principalMem, subject⟩ := referenced client own
  obtain ⟨kept, keptMem, same⟩ := evolves.consentsKept consent consentMem
  obtain ⟨keptPrincipal, keptPrincipalMem, samePrincipal⟩ :=
    evolves.principalsKept principal principalMem
  exact ⟨⟨kept, keptMem, named.trans (congrArg some same.symm)⟩, keptPrincipal, keptPrincipalMem,
    samePrincipal.trans subject⟩

theorem Family.Referenced.of_fixed {old : Family} (same : old.fixed = family.fixed)
    (referenced : old.Referenced db) : family.Referenced db := by
  have client : old.client = family.client := (congrArg Family.client same :)
  have consent : old.consent = family.consent := (congrArg Family.consent same :)
  have subject : old.subject = family.subject := (congrArg Family.subject same :)
  unfold Family.Referenced
  rw [← client, ← consent, ← subject]
  exact referenced

theorem Links.quiet (quiet : Quiet now db after) (closes : ClosesLinked db after)
    (links : Links db) : Links after where
  drawn := by
    intro token mem family linked
    obtain ⟨old, held, step⟩ := quiet.access token mem
    exact quiet.drawn ▸ links.drawn old held family (AccessToken.linked_before step linked)
  linked := by
    intro token mem family familyMem linked
    obtain ⟨old, held, step⟩ := quiet.access token mem
    obtain ⟨before, beforeMem, familyStep⟩ := quiet.families family familyMem
    have sameId : before.id = family.id := Family.keyed _ _ familyStep.fixed
    have oldLinked : old.oauthRefreshFamily = some before.id := by
      rw [sameId]
      exact AccessToken.linked_before step linked
    obtain ⟨belongs, within, closed⟩ := links.linked old held before beforeMem oldLinked
    have belongs : token.BelongsTo family := BelongsTo.of_fixed step.fixed familyStep.fixed belongs
    refine ⟨belongs, ?_, fun ended => ?_⟩
    · have scopes : old.scopes = token.scopes := (congrArg AccessToken.scopes step.fixed :)
      have ceiling : before.scopes = family.scopes := (congrArg Family.scopes familyStep.fixed :)
      exact scopes ▸ ceiling ▸ within
    · rcases closes family familyMem ended with ⟨other, otherMem, same, wasClosed⟩ | revokes
      · obtain rfl := Table.unique otherMem beforeMem (same.trans sameId.symm)
        exact step.marks .revoked (closed wasClosed)
      · exact revokes token mem linked belongs
  referenced := by
    intro family mem
    obtain ⟨before, beforeMem, step⟩ := quiet.families family mem
    exact ((links.referenced before beforeMem).of_fixed step.fixed).evolves quiet.evolves

/-- Other tables may change, and identifiers may be drawn. -/
theorem Links.of_same (evolves : Evolves now db after) (access : after.access = db.access)
    (families : after.families = db.families) (links : Links db) : Links after where
  drawn := fun token mem family linked =>
    evolves.drawn _ (links.drawn token (access ▸ mem) family linked)
  linked := fun token mem family familyMem =>
    links.linked token (access ▸ mem) family (families ▸ familyMem)
  referenced := fun family mem => (links.referenced family (families ▸ mem)).evolves evolves

theorem Links.insertFamily (referenced : family.Referenced db)
    (done : insertFamily db family = some after) (links : Links db) : Links after := by
  have evolves : Evolves 0 db after := .insertFamily done
  obtain ⟨unused, families, inserted, rfl⟩ := insertFamily_eq_some done
  have member := (Table.insert_spec inserted).2
  refine ⟨fun token mem other linked => List.mem_cons_of_mem _ (links.drawn token mem other linked),
    ?_, ?_⟩
  · intro token mem other otherMem linked
    rcases (member other).mp otherMem with rfl | held
    · exact absurd (links.drawn token mem _ linked) unused
    · exact links.linked token mem other held linked
  · intro other otherMem
    rcases (member other).mp otherMem with rfl | held
    · exact referenced.evolves evolves
    · exact (links.referenced other held).evolves evolves

theorem Links.insertAccess (ids : Ids db)
    (mem : family ∈ db.families) (active : family.status = .active) (linked : LinkedTo family token)
    (done : insertAccessToken db token = some after) (links : Links db) : Links after := by
  have evolves : Evolves 0 db after := .insertAccessToken done
  obtain ⟨-, access, inserted, rfl⟩ := insertAccessToken_eq_some done
  have member := (Table.insert_spec inserted).2
  refine ⟨?_, ?_, fun other otherMem => (links.referenced other otherMem).evolves evolves⟩
  · intro row rowMem other named
    rcases (member row).mp rowMem with rfl | held
    · rcases linked with unlinked | ⟨own, -⟩
      · simp [unlinked] at named
      · obtain rfl : family.id = other := Option.some.inj (own.symm.trans named)
        exact List.mem_cons_of_mem _ (ids.families family mem)
    · exact List.mem_cons_of_mem _ (links.drawn row held other named)
  · intro row rowMem other otherMem named
    rcases (member row).mp rowMem with rfl | held
    · rcases linked with unlinked | ⟨own, belongs, within⟩
      · simp [unlinked] at named
      · obtain rfl := Table.unique otherMem mem (Option.some.inj (named.symm.trans own))
        exact ⟨belongs, within, fun closed => absurd active closed⟩
    · exact links.linked row held other otherMem named

theorem Links.insertRefresh {token : RefreshToken} (done : insertRefreshToken db token = some after)
    (links : Links db) : Links after := by
  have evolves : Evolves 0 db after := .insertRefreshToken done
  obtain ⟨-, -, tokens, -, rfl⟩ := insertRefreshToken_eq_some done
  exact links.of_same evolves rfl rfl

theorem Links.write (ids : Ids db) (write : Write now db after) (links : Links db) :
    Links after := by
  cases write with
  | quiet quiet closes => exact links.quiet quiet closes
  | record evolves _ access families => exact links.of_same evolves access families
  | session done =>
      have evolves : Evolves now db after := .insertSubjectSession done
      obtain ⟨-, -, sessions, -, rfl⟩ := insertSubjectSession_eq_some done
      exact links.of_same evolves rfl rfl
  | openFamily active referenced pair opening issuing done =>
      have evolves : Evolves now db _ := .insertFamily opening
      have idsOpened := ids.evolves evolves
      have opened := links.insertFamily referenced opening
      obtain ⟨-, families, inserted, rfl⟩ := insertFamily_eq_some opening
      have held := ((Table.insert_spec inserted).2 _).mpr (.inl rfl)
      exact (opened.insertAccess idsOpened held active pair.linked issuing).insertRefresh done
  | rotate mem active _ _ _ pair issuing done =>
      have renewed := (links.insertAccess ids mem active pair.linked issuing).insertRefresh done
      exact renewed.of_same (Quiet.consumeParent _ now _ _).evolves rfl rfl

/-! ## Chains -/

/-- The refresh tokens of a family, newest first. -/
structure Chain (db : Db) (family : Nat) (chain : List RefreshToken) : Prop where
  members : ∀ link, link ∈ chain ↔ ∃ row ∈ db.tokens, row.family = family ∧ row.link = link
  lineage : Lineage RefreshToken.id RefreshToken.parent
    (fun token => token.consumedAt.isSome = true) chain
  newest : ∀ link ∈ chain.head?, link.consumedAt = none

structure Chains (db : Db) : Prop where
  drawn : ∀ token ∈ db.tokens, token.family ∈ db.drawn
  chains : ∀ family ∈ db.families, ∃ chain, Chain db family.id chain

theorem Chains.empty (directory : Directory) : Chains (.empty directory) where
  drawn := fun _ mem => absurd mem Table.not_mem_empty
  chains := fun _ mem => absurd mem Table.not_mem_empty

theorem RefreshToken.link_family {old row : RefreshToken} (same : old.link = row.link) :
    old.family = row.family :=
  (congrArg RefreshToken.family same :)

/-- Revoking tokens leaves every chain as it was. -/
theorem Chain.keeps {chain : List RefreshToken} (keeps : KeepsTokens db after)
    (mem : family ∈ after.families) (held : Chain db family.id chain) :
    Chain after family.id chain where
  members := by
    intro link
    rw [held.members]
    constructor
    · rintro ⟨old, oldMem, own, rfl⟩
      obtain ⟨row, rowMem, same⟩ := keeps.complete family mem old oldMem own
      exact ⟨row, rowMem, (RefreshToken.link_family same).symm.trans own, same.symm⟩
    · rintro ⟨row, rowMem, own, rfl⟩
      obtain ⟨old, oldMem, same⟩ := keeps.sound row rowMem
      exact ⟨old, oldMem, (RefreshToken.link_family same).trans own, same⟩
  lineage := held.lineage
  newest := held.newest

/-- A family keeps its chain when no token of it changes. -/
theorem Chain.of_members {family : Nat} {chain : List RefreshToken}
    (same : ∀ row, row.family = family → (row ∈ after.tokens ↔ row ∈ db.tokens))
    (held : Chain db family chain) : Chain after family chain where
  members := by
    intro link
    rw [held.members]
    constructor
    · rintro ⟨row, mem, own, rfl⟩
      exact ⟨row, (same row own).mpr mem, own, rfl⟩
    · rintro ⟨row, mem, own, rfl⟩
      exact ⟨row, (same row own).mp mem, own, rfl⟩
  lineage := held.lineage
  newest := held.newest

theorem Chains.quiet (quiet : Quiet now db after) (keeps : KeepsTokens db after)
    (chains : Chains db) : Chains after where
  drawn := by
    intro token mem
    obtain ⟨old, held, same⟩ := keeps.sound token mem
    rw [quiet.drawn, ← RefreshToken.link_family same]
    exact chains.drawn old held
  chains := by
    intro family mem
    obtain ⟨old, held, step⟩ := quiet.families family mem
    obtain ⟨chain, own⟩ := chains.chains old held
    rw [Family.keyed _ _ step.fixed] at own
    exact ⟨chain, own.keeps keeps mem⟩

theorem Chains.of_same (evolves : Evolves now db after) (families : after.families = db.families)
    (tokens : after.tokens = db.tokens) (chains : Chains db) : Chains after where
  drawn := fun token mem => evolves.drawn _ (chains.drawn token (tokens ▸ mem))
  chains := by
    intro family mem
    obtain ⟨chain, own⟩ := chains.chains family (families ▸ mem)
    exact ⟨chain, own.of_members fun row _ => by rw [tokens]⟩

variable {refresh : RefreshToken}

/-- The families and tokens after a family was opened. -/
theorem openFamily_members {opened issued : Db} (opening : insertFamily db family = some opened)
    (issuing : insertAccessToken opened token = some issued)
    (done : insertRefreshToken issued refresh = some after) :
    family.id ∉ db.drawn ∧ (∀ row, row ∈ after.families ↔ row = family ∨ row ∈ db.families) ∧
      ∀ row, row ∈ after.tokens ↔ row = refresh ∨ row ∈ db.tokens := by
  obtain ⟨unused, families, familiesInsert, rfl⟩ := insertFamily_eq_some opening
  obtain ⟨-, access, -, rfl⟩ := insertAccessToken_eq_some issuing
  obtain ⟨-, -, tokens, tokensInsert, rfl⟩ := insertRefreshToken_eq_some done
  exact ⟨unused, (Table.insert_spec familiesInsert).2, (Table.insert_spec tokensInsert).2⟩

theorem Chains.openFamily {opened issued : Db} (ids : Ids db) (nextIds : Ids after)
    (evolves : Evolves now db after) (pair : Pair db family none token refresh)
    (opening : insertFamily db family = some opened)
    (issuing : insertAccessToken opened token = some issued)
    (done : insertRefreshToken issued refresh = some after) (chains : Chains db) :
    Chains after := by
  obtain ⟨unused, families, tokens⟩ := openFamily_members opening issuing done
  refine ⟨fun row mem => ?_, fun other otherMem => ?_⟩
  · rcases (tokens row).mp mem with rfl | held
    · rw [pair.family]
      exact nextIds.families family ((families family).mpr (.inl rfl))
    · exact evolves.drawn _ (chains.drawn row held)
  · rcases (families other).mp otherMem with rfl | held
    · refine ⟨[refresh.link], ?_, pair.parent, ?_⟩
      · intro link
        rw [List.mem_singleton]
        constructor
        · rintro rfl
          exact ⟨refresh, (tokens refresh).mpr (.inl rfl), pair.family, rfl⟩
        · rintro ⟨row, mem, own, rfl⟩
          rcases (tokens row).mp mem with rfl | old
          · rfl
          · exact absurd (own ▸ chains.drawn row old) unused
      · intro link first
        obtain rfl : refresh.link = link := by simpa using first
        exact pair.unconsumed
    · obtain ⟨chain, own⟩ := chains.chains other held
      refine ⟨chain, own.of_members fun row belongs => ?_⟩
      rw [tokens]
      refine or_iff_right fun same => unused ?_
      rw [← pair.family, ← same, belongs]
      exact ids.families other held

/-- The tokens after a rotation: the child, its spent parent and the others. -/
theorem rotate_members (now : Nat) {issued renewed : Db} {parent : RefreshToken}
    (held : parent ∈ db.tokens) (issuing : insertAccessToken db token = some issued)
    (done : insertRefreshToken issued refresh = some renewed) (row : RefreshToken) :
    row ∈ (consumeParent renewed now parent.id refresh.id).tokens ↔
      row = refresh ∨
        row = { parent with consumedAt := some now, replacement := some refresh.id } ∨
          row ∈ db.tokens ∧ row.id ≠ parent.id := by
  obtain ⟨-, access, -, rfl⟩ := insertAccessToken_eq_some issuing
  obtain ⟨-, -, tokens, inserted, rfl⟩ := insertRefreshToken_eq_some done
  obtain ⟨free, member⟩ := Table.insert_spec inserted
  have child : refresh.id ≠ parent.id := fun same => free parent held same.symm
  constructor
  · intro mem
    obtain ⟨old, oldMem, rfl⟩ := Table.of_mem_updated mem rfl
    by_cases picked : old.id = parent.id
    · rcases (member old).mp oldMem with rfl | before
      · exact absurd picked child
      · obtain rfl := Table.unique before held picked
        simp
    · rcases (member old).mp oldMem with rfl | before
      · simp [picked]
      · exact .inr (.inr (by simp [picked, before]))
  · have updated : Table.Updated (fun token => token.id = parent.id)
        (fun token => { token with consumedAt := some now, replacement := some refresh.id }) tokens
        (tokens.update (fun token => token.id = parent.id)
          (fun token => { token with consumedAt := some now, replacement := some refresh.id })
          fun _ => rfl) := rfl
    rintro (rfl | rfl | ⟨before, other⟩)
    · exact updated.mem.mpr ⟨row, (member row).mpr (.inl rfl), by simp [child]⟩
    · exact updated.mem.mpr ⟨parent, (member parent).mpr (.inr held), by simp⟩
    · exact updated.mem.mpr ⟨row, (member row).mpr (.inr before), by simp [other]⟩

theorem Chains.rotate {issued renewed : Db} {parent : RefreshToken} (held : parent ∈ db.tokens) (own : parent.family = family.id)
    (unconsumed : parent.consumedAt = none)
    (evolves : Evolves now db (consumeParent renewed now parent.id refresh.id))
    (pair : Pair db family (some parent.id) token refresh)
    (issuing : insertAccessToken db token = some issued)
    (done : insertRefreshToken issued refresh = some renewed) (chains : Chains db) :
    Chains (consumeParent renewed now parent.id refresh.id) := by
  have tokens := rotate_members now held issuing done
  have families : (consumeParent renewed now parent.id refresh.id).families = db.families := by
    obtain ⟨-, access, -, rfl⟩ := insertAccessToken_eq_some issuing
    obtain ⟨-, -, rows, -, rfl⟩ := insertRefreshToken_eq_some done
    rfl
  refine ⟨fun row rowMem => ?_, fun other otherMem => ?_⟩
  · rcases (tokens row).mp rowMem with rfl | rfl | ⟨before, -⟩
    · rw [pair.family, ← own]
      exact evolves.drawn _ (chains.drawn parent held)
    · exact evolves.drawn _ (chains.drawn parent held)
    · exact evolves.drawn _ (chains.drawn row before)
  · rw [families] at otherMem
    obtain ⟨chain, whole⟩ := chains.chains other otherMem
    by_cases same : other.id = family.id
    · -- the parent is the one unspent token, so it is the newest
      have inChain := (whole.members parent.link).mpr ⟨parent, held, own.trans same.symm, rfl⟩
      have unspent : ¬ parent.link.consumedAt.isSome = true := by
        show ¬ parent.consumedAt.isSome = true
        simp [unconsumed]
      obtain _ | ⟨newest, rest⟩ := chain
      · exact absurd inChain List.not_mem_nil
      · obtain rfl := whole.lineage.eq_head inChain unspent
        let spent : RefreshToken :=
          { parent with consumedAt := some now, replacement := some refresh.id }
        refine ⟨refresh.link :: spent.link :: rest, fun link => ?_,
          whole.lineage.renew pair.parent rfl rfl, fun link first => ?_⟩
        · constructor
          · intro linkMem
            rcases List.mem_cons.mp linkMem with rfl | linkMem
            · exact ⟨refresh, (tokens refresh).mpr (.inl rfl), pair.family.trans same.symm, rfl⟩
            rcases List.mem_cons.mp linkMem with rfl | older
            · exact ⟨spent, (tokens spent).mpr (.inr (.inl rfl)), own.trans same.symm, rfl⟩
            · obtain ⟨row, rowMem, belongs, rfl⟩ :=
                (whole.members link).mp (List.mem_cons_of_mem _ older)
              refine ⟨row, (tokens row).mpr (.inr (.inr ⟨rowMem, fun named => ?_⟩)), belongs, rfl⟩
              obtain rfl := Table.unique rowMem held named
              exact unspent (whole.lineage.older_spent _ older)
          · rintro ⟨row, rowMem, belongs, rfl⟩
            rcases (tokens row).mp rowMem with rfl | rfl | ⟨before, distinct⟩
            · exact List.mem_cons_self
            · exact List.mem_cons_of_mem _ List.mem_cons_self
            · have older := (whole.members row.link).mpr ⟨row, before, belongs, rfl⟩
              rcases List.mem_cons.mp older with isParent | older
              · exact absurd (congrArg RefreshToken.id isParent :) distinct
              · exact List.mem_cons_of_mem _ (List.mem_cons_of_mem _ older)
        · obtain rfl : refresh.link = link := by simpa using first
          exact pair.unconsumed
    · refine ⟨chain, whole.of_members fun row belongs => ?_⟩
      rw [tokens]
      constructor
      · rintro (rfl | rfl | ⟨before, -⟩)
        · exact absurd (belongs.symm.trans pair.family) same
        · exact absurd (belongs.symm.trans own) same
        · exact before
      · intro before
        refine .inr (.inr ⟨before, fun named => same ?_⟩)
        obtain rfl := Table.unique before held named
        exact belongs.symm.trans own

theorem Chains.write (ids : Ids db) (write : Write now db after) (chains : Chains db) :
    Chains after := by
  have evolves := write.evolves
  cases write with
  | quiet quiet _ keeps => exact chains.quiet quiet keeps
  | record _ _ _ families tokens => exact chains.of_same evolves families tokens
  | session done =>
      obtain ⟨-, -, sessions, -, rfl⟩ := insertSubjectSession_eq_some done
      exact chains.of_same evolves rfl rfl
  | openFamily _ _ pair opening issuing done =>
      exact chains.openFamily ids (ids.evolves evolves) evolves pair opening issuing done
  | rotate _ _ held own unconsumed pair issuing done =>
      exact chains.rotate held own unconsumed evolves pair issuing done

/-! ## All of them -/

structure Sound (db : Db) : Prop where
  ids : Ids db
  epochs : Epochs db
  links : Links db
  chains : Chains db

theorem Sound.empty (directory : Directory) : Sound (.empty directory) where
  ids := .empty directory
  epochs := .empty directory
  links := .empty directory
  chains := .empty directory

theorem Sound.write (write : Write now db after) (sound : Sound db) : Sound after where
  ids := sound.ids.evolves write.evolves
  epochs := sound.epochs.write sound.ids write
  links := sound.links.write sound.ids write
  chains := sound.chains.write sound.ids write

theorem Sound.next {settings : SecuritySettings} (sound : Sound db) (action : Action) :
    Sound (next settings db action) :=
  (next_writes settings db action).invariant (fun _ _ held write => held.write write) sound

/-- Every state of every run is sound. -/
theorem Sound.runs {settings : SecuritySettings} (sound : Sound db) (actions : List Action) :
    Sound (Runs.after (Authority.next settings) db actions) :=
  Runs.after_of_invariant (fun _ action held => held.next action) actions db sound

/-! ## Whole runs -/

/-- What every operation does to the rows of one table, a run does. -/
theorem runs_evolve {α β ι : Type} {key : α → Nat} {fixed : α → β} {marks : α → ι → Prop}
    {settings : SecuritySettings} {db : Db} {actions : List Action} (rows : Db → Table key)
    (keyed : ∀ old row, fixed old = fixed row → key old = key row)
    (each : ∀ {now db after}, Evolves now db after →
      Table.Evolves db.drawn after.drawn fixed marks (rows db) (rows after)) :
    Table.Evolves db.drawn (Runs.after (next settings) db actions).drawn fixed marks (rows db)
      (rows (Runs.after (next settings) db actions)) := by
  refine (Runs.after_of_invariant (I := fun t => (∀ id ∈ db.drawn, id ∈ t.drawn) ∧
    Table.Evolves db.drawn t.drawn fixed marks (rows db) (rows t)) ?_ actions db
    ⟨fun _ held => held, .refl _⟩).2
  rintro t action ⟨grows, evolves⟩
  have step := next_evolves settings t action
  exact ⟨fun id held => step.drawn id (grows id held),
    .trans keyed grows step.drawn evolves (each step)⟩

/-- In every run an identifier that was drawn names the same row for good, whatever is purged in
between: no later row takes it over, what it was issued with never changes, and what has ended,
was consumed or was revoked stays so. -/
theorem issued_rows_last (settings : SecuritySettings) (directory : Directory)
    (earlier later : List Action) :
    let db := Runs.after (next settings) (.empty directory) earlier
    let after := Runs.after (next settings) db later
    Ids db ∧ ∀ id ∈ db.drawn,
      (∀ row ∈ after.sessions, row.id = id → ∃ old ∈ db.sessions,
        old.fixed = row.fixed ∧ (old.status ≠ .active → row.status ≠ .active)) ∧
      (∀ row ∈ after.access, row.id = id →
        ∃ old ∈ db.access, Table.Continues AccessToken.fixed AccessToken.marks old row) ∧
      (∀ row ∈ after.families, row.id = id →
        ∃ old ∈ db.families, Table.Continues Family.fixed Family.marks old row) ∧
      (∀ row ∈ after.tokens, row.id = id →
        ∃ old ∈ db.tokens, Table.Continues RefreshToken.fixed RefreshToken.marks old row) ∧
      (∀ row ∈ after.codes, row.id = id →
        ∃ old ∈ db.codes, Table.Continues AuthorizationCode.fixed AuthorizationCode.marks old row) ∧
      ∀ row ∈ after.proofs, row.id = id →
        ∃ old ∈ db.proofs, Table.Continues OboProof.fixed OboProof.marks old row := by
  intro db after
  -- An idle expiry moves back only at the time of an operation, so of a session's marks a run
  -- keeps that it has ended.
  have ended {now : Nat} {db after : Db} (evolves : Evolves now db after) :
      Table.Evolves db.drawn after.drawn Session.fixed
        (fun session (_ : Unit) => session.status ≠ .active) db.sessions after.sessions :=
    fun row mem => (evolves.sessions row mem).imp_left fun ⟨old, held, same⟩ =>
      ⟨old, held, same.fixed, fun _ => same.marks .ended⟩
  refine ⟨((Sound.empty directory).runs earlier).ids, fun _ drawn => ?_⟩
  refine ⟨?_, ?_, ?_, ?_, ?_, ?_⟩ <;> rintro row mem rfl
  · obtain ⟨old, held, same⟩ := (runs_evolve (·.sessions) Session.keyed ended).continues mem drawn
    exact ⟨old, held, same.fixed, same.marks ()⟩
  · exact (runs_evolve (·.access) AccessToken.keyed (·.access)).continues mem drawn
  · exact (runs_evolve (·.families) Family.keyed (·.families)).continues mem drawn
  · exact (runs_evolve (·.tokens) RefreshToken.keyed (·.tokens)).continues mem drawn
  · exact (runs_evolve (·.codes) AuthorizationCode.keyed (·.codes)).continues mem drawn
  · exact (runs_evolve (·.proofs) OboProof.keyed (·.proofs)).continues mem drawn

/-- In every run the stored tokens belong together: a token has its session's subject and epoch,
a token linked to a family has the family's subject, session and client, and a closed family has
no token in use. -/
theorem tokens_belong (settings : SecuritySettings) (directory : Directory)
    (actions : List Action) :
    let db := Runs.after (next settings) (.empty directory) actions
    (∀ token ∈ db.access, ∀ session ∈ db.sessions, session.id = token.session →
      session.subject = token.subject ∧ session.authEpoch = token.subjectAuthEpoch) ∧
    ∀ family ∈ db.families, family.Referenced db ∧
      ∀ token ∈ db.access, token.oauthRefreshFamily = some family.id →
        token.BelongsTo family ∧ (family.status ≠ .active → token.revokedAt.isSome = true) := by
  intro db
  have sound : Sound db := (Sound.empty directory).runs actions
  refine ⟨sound.epochs.issued, fun family mem => ⟨sound.links.referenced family mem, ?_⟩⟩
  intro token held linked
  obtain ⟨belongs, -, closed⟩ := sound.links.linked token held family mem linked
  exact ⟨belongs, closed⟩

end SiliconIam.Auth.Authority
