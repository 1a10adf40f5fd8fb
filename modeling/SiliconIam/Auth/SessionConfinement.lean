/-
# Auth.SessionConfinement -- what is derived from a session is of one principal

By the composite foreign keys (`References`) a family, a token, a request and a
consent have the subject of their session, and a proof that of its parent token.
Ending the sessions of a principal marks rows by their session, so it is `Confined`
to that principal; a login only adds rows, so it is confined to nobody.
-/
import SiliconIam.Auth.SessionRevocation

namespace SiliconIam.Auth.SessionRevocation

open SiliconIam.Theory
open SiliconIam.Auth.Authority

set_option autoImplicit false

variable {now principal : Nat} {db middle after : Db}

/-- No row of another principal is touched. -/
structure Confined (principal : Nat) (db after : Db) : Prop where
  sessions : ∀ row ∈ db.sessions, row.subject ≠ principal → row ∈ after.sessions
  families : ∀ row ∈ db.families, row.subject ≠ principal → row ∈ after.families
  tokens : ∀ family ∈ db.families, family.subject ≠ principal →
    ∀ row ∈ db.tokens, row.family = family.id → row ∈ after.tokens
  access : ∀ row ∈ db.access, row.subject ≠ principal → row ∈ after.access
  requests : ∀ row ∈ db.requests, row.subject ≠ principal → row ∈ after.requests
  codes : ∀ request ∈ db.requests, request.subject ≠ principal →
    ∀ row ∈ db.codes, row.request = request.id → row ∈ after.codes
  consents : ∀ row ∈ db.consents, row.subject ≠ principal → row ∈ after.consents
  proofs : ∀ row ∈ db.proofs, row.subject ≠ principal → row ∈ after.proofs

theorem Confined.refl (principal : Nat) (db : Db) : Confined principal db db where
  sessions _ mem _ := mem
  families _ mem _ := mem
  tokens _ _ _ _ mem _ := mem
  access _ mem _ := mem
  requests _ mem _ := mem
  codes _ _ _ _ mem _ := mem
  consents _ mem _ := mem
  proofs _ mem _ := mem

theorem Confined.trans (first : Confined principal db middle)
    (second : Confined principal middle after) : Confined principal db after where
  sessions row mem other := second.sessions row (first.sessions row mem other) other
  families row mem other := second.families row (first.families row mem other) other
  tokens family familyMem other row mem own :=
    second.tokens family (first.families family familyMem other) other row
      (first.tokens family familyMem other row mem own) own
  access row mem other := second.access row (first.access row mem other) other
  requests row mem other := second.requests row (first.requests row mem other) other
  codes request requestMem other row mem own :=
    second.codes request (first.requests request requestMem other) other row
      (first.codes request requestMem other row mem own) own
  consents row mem other := second.consents row (first.consents row mem other) other
  proofs row mem other := second.proofs row (first.proofs row mem other) other

/-! ## Ending a session -/

/-- What names another subject does not name the session. -/
theorem apart {row : Session} (held : row ∈ db.sessions) (own : row.subject = principal)
    {session subject : Nat}
    (target : ∃ other ∈ db.sessions, (other.id, other.subject) = (session, subject))
    (other : subject ≠ principal) : session ≠ row.id := by
  rintro rfl
  obtain ⟨named, mem, same⟩ := target
  obtain ⟨id, subjects⟩ := Prod.mk.inj same
  rw [Table.unique mem held id, own] at subjects
  exact other subjects.symm

theorem revokeSessionTokenAuthority_confined {row : Session} (references : References db)
    (held : row ∈ db.sessions) (own : row.subject = principal) (reason : String) :
    Confined principal db (revokeSessionTokenAuthority db now row.id reason) :=
  { Confined.refl principal db with
    families := by
      intro family mem other
      have named := apart held own (references.families family mem) other
      exact Table.mem_of_unpicked mem (by simp [named]) rfl
    tokens := by
      intro family familyMem other token mem named
      have elsewhere := apart held own (references.families family familyMem) other
      refine Table.mem_of_unpicked mem ?_ rfl
      rw [named, ← Bool.not_eq_true]
      intro picked
      obtain ⟨found, foundMem, holds⟩ := Table.any_spec picked
      simp only [Bool.and_eq_true, decide_eq_true_eq] at holds
      obtain rfl := Table.unique foundMem familyMem holds.1
      exact elsewhere holds.2
    access := by
      intro token mem other
      have named := apart held own (references.access token mem) other
      exact Table.mem_of_unpicked mem (by simp [named]) rfl }

theorem revokeSessionOauthAuthority_confined {row : Session} (references : References db)
    (held : row ∈ db.sessions) (own : row.subject = principal) :
    Confined principal db (revokeSessionOauthAuthority db now row.id) :=
  { Confined.refl principal db with
    codes := by
      intro request requestMem other code mem named
      have elsewhere := apart held own (references.requests request requestMem) other
      refine Table.mem_of_unpicked mem ?_ rfl
      rw [Bool.and_eq_false_iff]
      left
      rw [named, ← Bool.not_eq_true]
      intro picked
      obtain ⟨found, foundMem, holds⟩ := Table.any_spec picked
      simp only [Bool.and_eq_true, decide_eq_true_eq] at holds
      obtain rfl := Table.unique foundMem requestMem holds.1
      exact elsewhere holds.2
    requests := by
      intro request mem other
      have named := apart held own (references.requests request mem) other
      exact Table.mem_of_unpicked mem (by simp [named]) rfl
    consents := by
      intro consent mem other
      have named := apart held own (references.consents consent mem) other
      exact Table.mem_of_unpicked mem (by simp [named]) rfl }

theorem revokeSessionOboAuthority_confined {row : Session} (references : References db)
    (held : row ∈ db.sessions) (own : row.subject = principal) :
    Confined principal db (revokeSessionOboAuthority db now row.id) :=
  { Confined.refl principal db with
    proofs := by
      intro proof mem other
      refine Table.mem_of_unpicked mem ?_ rfl
      rw [Bool.and_eq_false_iff]
      left
      rw [Bool.and_eq_false_iff]
      left
      rw [← Bool.not_eq_true]
      intro picked
      obtain ⟨found, foundMem, holds⟩ := Table.any_spec picked
      simp only [Bool.and_eq_true, decide_eq_true_eq] at holds
      obtain ⟨parent, parentMem, same⟩ := references.proofs proof mem
      obtain ⟨parentId, subject⟩ := Prod.mk.inj same
      obtain rfl := Table.unique foundMem parentMem (holds.1.trans parentId.symm)
      refine apart held own (references.access found foundMem) ?_ holds.2
      exact fun mine => other (subject.symm.trans mine) }

/-! ## The foreign keys -/

theorem References.revokeSessionTokenAuthority (references : References db) (session : Nat)
    (reason : String) : References (revokeSessionTokenAuthority db now session reason) where
  families := references.families.trans (.update rfl fun _ => rfl) (.refl _ _)
  tokens := references.tokens.trans (.update rfl fun _ => rfl) (.update rfl fun _ => rfl)
  access := references.access.trans (.update rfl fun _ => rfl) (.refl _ _)
  requests := references.requests
  codes := references.codes
  consents := references.consents
  proofs := references.proofs.trans (.refl _ _) (.update rfl fun _ => rfl)

theorem References.revokeSessionOauthAuthority (references : References db) (session : Nat) :
    References (revokeSessionOauthAuthority db now session) where
  families := references.families
  tokens := references.tokens
  access := references.access
  requests := references.requests.trans (.update rfl fun _ => rfl) (.refl _ _)
  codes := references.codes.trans (.update rfl fun _ => rfl) (.update rfl fun _ => rfl)
  consents := references.consents.trans (.update rfl fun _ => rfl) (.refl _ _)
  proofs := references.proofs

theorem References.revokeSessionOboAuthority (references : References db) (session : Nat) :
    References (revokeSessionOboAuthority db now session) :=
  { references with proofs := references.proofs.trans (.update rfl fun _ => rfl) (.refl _ _) }

theorem References.revokeSessionAuthority (references : References db) (session : Nat)
    (reason : String) : References (revokeSessionAuthority db now session reason) :=
  ((references.revokeSessionTokenAuthority session reason).revokeSessionOauthAuthority
    session).revokeSessionOboAuthority session

theorem revokeSessionAuthority_confined {row : Session} (references : References db)
    (held : row ∈ db.sessions) (own : row.subject = principal) (reason : String) :
    Confined principal db (revokeSessionAuthority db now row.id reason) := by
  have kept : References (revokeSessionTokenAuthority db now row.id reason) :=
    references.revokeSessionTokenAuthority row.id reason
  have tokens : Confined principal db (revokeSessionTokenAuthority db now row.id reason) :=
    revokeSessionTokenAuthority_confined references held own reason
  have oauth : Confined principal _ (revokeSessionOauthAuthority _ now row.id) :=
    revokeSessionOauthAuthority_confined kept held own
  exact (tokens.trans oauth).trans
    (revokeSessionOboAuthority_confined (kept.revokeSessionOauthAuthority row.id) held own)

theorem References.withSessions {sessions : Table Session.id} {drawn : List Nat}
    (references : References db)
    (persists : Table.Persists (fun session : Session => (session.id, session.subject))
      db.sessions sessions) : References { db with sessions := sessions, drawn := drawn } :=
  { references with
    families := references.families.trans (.refl _ _) persists
    access := references.access.trans (.refl _ _) persists
    requests := references.requests.trans (.refl _ _) persists
    consents := references.consents.trans (.refl _ _) persists }

/-- The rows of the sessions that are ended. -/
theorem revokeSessions_confined (references : References db) (reason : String)
    (picked : Session → Bool) (own : ∀ row, picked row = true → row.subject = principal) :
    let revoked := { db with
      sessions := db.sessions.update picked (Session.revoke now reason) fun _ => rfl }
    Confined principal db revoked ∧ References revoked := by
  refine ⟨{ Confined.refl principal db with sessions := fun row mem other => ?_ },
    references.withSessions (.update rfl fun _ => rfl)⟩
  refine Table.mem_of_unpicked mem ?_ rfl
  rw [← Bool.not_eq_true]
  exact fun taken => other (own row taken)

/-! ## Logins -/

/-- Rows are only added. -/
structure Extends (db after : Db) : Prop where
  sessions : ∀ row ∈ db.sessions, row ∈ after.sessions
  families : ∀ row ∈ db.families, row ∈ after.families
  tokens : ∀ row ∈ db.tokens, row ∈ after.tokens
  access : ∀ row ∈ db.access, row ∈ after.access
  requests : ∀ row ∈ db.requests, row ∈ after.requests
  codes : ∀ row ∈ db.codes, row ∈ after.codes
  consents : ∀ row ∈ db.consents, row ∈ after.consents
  proofs : ∀ row ∈ db.proofs, row ∈ after.proofs

theorem Extends.refl (db : Db) : Extends db db := by
  constructor <;> exact fun _ mem => mem

theorem Extends.trans (first : Extends db middle) (second : Extends middle after) :
    Extends db after where
  sessions row mem := second.sessions row (first.sessions row mem)
  families row mem := second.families row (first.families row mem)
  tokens row mem := second.tokens row (first.tokens row mem)
  access row mem := second.access row (first.access row mem)
  requests row mem := second.requests row (first.requests row mem)
  codes row mem := second.codes row (first.codes row mem)
  consents row mem := second.consents row (first.consents row mem)
  proofs row mem := second.proofs row (first.proofs row mem)

theorem Extends.confined (extended : Extends db after) (principal : Nat) :
    Confined principal db after where
  sessions row mem _ := extended.sessions row mem
  families row mem _ := extended.families row mem
  tokens _ _ _ row mem _ := extended.tokens row mem
  access row mem _ := extended.access row mem
  requests row mem _ := extended.requests row mem
  codes _ _ _ row mem _ := extended.codes row mem
  consents row mem _ := extended.consents row mem
  proofs row mem _ := extended.proofs row mem

theorem insertSubjectSession_kept {session : Session}
    (done : insertSubjectSession db session = some after) :
    Extends db after ∧ session ∈ after.sessions ∧ (References db → References after) := by
  obtain ⟨-, -, sessions, inserted, rfl⟩ := insertSubjectSession_eq_some done
  have member := (Table.insert_spec inserted).2
  exact ⟨{ Extends.refl db with sessions := fun row mem => (member row).mpr (.inr mem) },
    (member session).mpr (.inl rfl), fun references => references.withSessions (.insert inserted)⟩

theorem insertFamily_kept {family : Family} (done : insertFamily db family = some after)
    (target : ∃ session ∈ db.sessions,
      (session.id, session.subject) = (family.session, family.subject)) :
    Extends db after ∧ after.sessions = db.sessions ∧ family ∈ after.families ∧
      (References db → References after) := by
  obtain ⟨-, families, inserted, rfl⟩ := insertFamily_eq_some done
  have member := (Table.insert_spec inserted).2
  exact ⟨{ Extends.refl db with families := fun row mem => (member row).mpr (.inr mem) }, rfl,
    (member family).mpr (.inl rfl), fun references =>
    { references with
      families := references.families.insert inserted target
      tokens := references.tokens.trans (.refl _ _) (.insert inserted) }⟩

theorem insertAccessToken_kept {token : AccessToken}
    (done : insertAccessToken db token = some after)
    (target : ∃ session ∈ db.sessions,
      (session.id, session.subject) = (token.session, token.subject)) :
    Extends db after ∧ after.families = db.families ∧ (References db → References after) := by
  obtain ⟨-, access, inserted, rfl⟩ := insertAccessToken_eq_some done
  have member := (Table.insert_spec inserted).2
  exact ⟨{ Extends.refl db with access := fun row mem => (member row).mpr (.inr mem) }, rfl,
    fun references =>
    { references with
      access := references.access.insert inserted target
      proofs := references.proofs.trans (.refl _ _) (.insert inserted) }⟩

theorem insertRefreshToken_kept {token : RefreshToken}
    (done : insertRefreshToken db token = some after)
    (target : ∃ family ∈ db.families, family.id = token.family) :
    Extends db after ∧ (References db → References after) := by
  obtain ⟨-, -, tokens, inserted, rfl⟩ := insertRefreshToken_eq_some done
  have member := (Table.insert_spec inserted).2
  exact ⟨{ Extends.refl db with tokens := fun row mem => (member row).mpr (.inr mem) },
    fun references => { references with tokens := references.tokens.insert inserted target }⟩

/-- A login adds its session, the family and the first tokens. -/
theorem issueSession_kept {settings : SecuritySettings} {session : Session} {publicId : String}
    {organization membership membershipAuthzEpoch : Option Nat} {fresh : Fresh}
    {response : TokenResponse}
    (done : issueSession db settings now session publicId organization membership
      membershipAuthzEpoch fresh = .ok (response, after)) :
    Extends db after ∧ (References db → References after) := by
  unfold issueSession at done
  split at done
  · cases done
  · rename_i opened inserting
    split at done
    · cases done
    · rename_i started opening
      obtain ⟨tokenClass, issued, renewed, issuing, renewing, ⟨-, rfl⟩ | ⟨_, given, -⟩⟩ :=
        insertTokenPairWithId_eq_ok done
      · obtain ⟨first, here, keepFirst⟩ := insertSubjectSession_kept inserting
        obtain ⟨second, sessions, family, keepSecond⟩ :=
          insertFamily_kept opening ⟨session, here, rfl⟩
        obtain ⟨third, families, keepThird⟩ :=
          insertAccessToken_kept issuing ⟨session, sessions ▸ here, rfl⟩
        obtain ⟨fourth, keepFourth⟩ :=
          insertRefreshToken_kept renewing ⟨_, families ▸ family, rfl⟩
        exact ⟨((first.trans second).trans third).trans fourth,
          fun references => keepFourth (keepThird (keepSecond (keepFirst references)))⟩
      · cases given

theorem committed_kept {ε : Type} {made : Except ε (TokenResponse × Db)}
    (kept : ∀ response after, made = .ok (response, after) →
      Extends db after ∧ (References db → References after)) :
    let after := Authority.committed db made
    Extends db after ∧ (References db → References after) := by
  cases made with
  | error _ => exact ⟨.refl db, fun references => references⟩
  | ok answer => exact kept answer.1 answer.2 rfl

theorem issueLoginSession_kept (settings : SecuritySettings) (db : Db) (now principal : Nat)
    (fresh : Fresh) :
    let after := Authority.committed db (issueLoginSession db settings now principal fresh)
    Extends db after ∧ (References db → References after) := by
  refine committed_kept fun response after done => ?_
  unfold issueLoginSession at done
  split at done
  · cases done
  · split at done
    · cases done
    · exact issueSession_kept done

theorem issueSiliconSession_kept (settings : SecuritySettings) (db : Db) (now : Nat)
    (identity : SiliconLoginIdentity) (fresh : Fresh) :
    let after := Authority.committed db (issueSiliconSession db settings now identity fresh)
    Extends db after ∧ (References db → References after) :=
  committed_kept fun _ _ done => issueSession_kept done

end SiliconIam.Auth.SessionRevocation
