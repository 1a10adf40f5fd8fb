/-
# Auth.AuthorityEvolution -- what one operation can do to the rows

Every column of a credential's row is either fixed or only ever marked: a status
leaves `active` for good, a stamp is set and stays set, an epoch grows.  `Evolves`
says so of all tables at once, and `next_evolves` says that every operation of the
system respects it; every later invariant is derived from these two.

The one column that moves both ways is a session's idle expiry.  It is moved by a
rotation of a live session, so an idle expiry that has passed stays passed for
every operation after it (`SessionMark.idle`).
-/
import SiliconIam.Auth.SessionEnding

namespace SiliconIam.Auth.Authority

open SiliconIam.Theory
open SiliconIam.Auth.RefreshFamily (coalesce)

set_option autoImplicit false

/-! ## Fixed columns and marks -/

def Principal.fixed (principal : Principal) : Principal :=
  { principal with status := .active, authEpoch := 0 }

def Principal.marks (principal : Principal) (epoch : Nat) : Prop := epoch ≤ principal.authEpoch

inductive SessionMark where
  | ended
  | idle (since : Nat)

def Session.fixed (session : Session) : Session :=
  { session with
    status := .active
    idleExpiresAt := 0
    revokedAt := none
    revocationReason := none
    version := 0 }

def Session.marks (now : Nat) (session : Session) : SessionMark → Prop
  | .ended => session.status ≠ .active
  | .idle since => since ≤ now → session.idleExpiresAt ≤ since

/-- Which family a token is linked to is lost with the family, never gained. -/
inductive AccessMark where
  | revoked
  | unlinked (family : Nat)

def AccessToken.fixed (token : AccessToken) : AccessToken :=
  { token with revokedAt := none, revocationReason := none, oauthRefreshFamily := none }

def AccessToken.marks (token : AccessToken) : AccessMark → Prop
  | .revoked => token.revokedAt.isSome = true
  | .unlinked family => token.oauthRefreshFamily ≠ some family

def Family.fixed (family : Family) : Family :=
  { family with
    status := .active
    revokedAt := none
    compromisedAt := none
    revocationReason := none }

def Family.marks (family : Family) (_ : Unit) : Prop := family.status ≠ .active

inductive RefreshMark where
  | consumed
  | revoked

def RefreshToken.fixed (token : RefreshToken) : RefreshToken :=
  { token with replacement := none, consumedAt := none, revokedAt := none }

def RefreshToken.marks (token : RefreshToken) : RefreshMark → Prop
  | .consumed => token.consumedAt.isSome = true
  | .revoked => token.revokedAt.isSome = true

def AuthorizationRequest.fixed (request : AuthorizationRequest) : AuthorizationRequest :=
  { request with status := .pending, decidedAt := none }

def AuthorizationRequest.marks (request : AuthorizationRequest) (_ : Unit) : Prop :=
  request.status ≠ .pending ∧ request.status ≠ .approved

def AuthorizationCode.fixed (code : AuthorizationCode) : AuthorizationCode :=
  { code with consumedAt := none }

def AuthorizationCode.marks (code : AuthorizationCode) (_ : Unit) : Prop :=
  code.consumedAt.isSome = true

def Consent.fixed (consent : Consent) : Consent :=
  { consent with
    membership := none
    selectedMemberships := []
    active := true
    revokedAt := none
    scopes := [] }

def Consent.marks (_ : Consent) (_ : Unit) : Prop := True

def OboProof.fixed (proof : OboProof) : OboProof :=
  { proof with consumedAt := none, revokedAt := none }

def OboProof.marks (proof : OboProof) : RefreshMark → Prop
  | .consumed => proof.consumedAt.isSome = true
  | .revoked => proof.revokedAt.isSome = true

/-- What every operation does to the rows: those there before keep their fixed
columns and their marks, and the others are new under identifiers drawn for them.
Principals and consents are never deleted. -/
structure Evolves (now : Nat) (db after : Db) : Prop where
  drawn : ∀ id ∈ db.drawn, id ∈ after.drawn
  principals : Table.Evolves db.drawn after.drawn Principal.fixed Principal.marks
    db.principals after.principals
  sessions : Table.Evolves db.drawn after.drawn Session.fixed (Session.marks now)
    db.sessions after.sessions
  access : Table.Evolves db.drawn after.drawn AccessToken.fixed AccessToken.marks
    db.access after.access
  families : Table.Evolves db.drawn after.drawn Family.fixed Family.marks db.families after.families
  tokens : Table.Evolves db.drawn after.drawn RefreshToken.fixed RefreshToken.marks
    db.tokens after.tokens
  requests : Table.Evolves db.drawn after.drawn AuthorizationRequest.fixed
    AuthorizationRequest.marks db.requests after.requests
  codes : Table.Evolves db.drawn after.drawn AuthorizationCode.fixed AuthorizationCode.marks
    db.codes after.codes
  consents : Table.Evolves db.drawn after.drawn Consent.fixed Consent.marks
    db.consents after.consents
  proofs : Table.Evolves db.drawn after.drawn OboProof.fixed OboProof.marks db.proofs after.proofs
  principalsKept : Table.Kept db.principals after.principals
  consentsKept : Table.Kept db.consents after.consents

theorem Principal.keyed (old row : Principal) (same : old.fixed = row.fixed) : old.id = row.id :=
  (congrArg Principal.id same :)

theorem Session.keyed (old row : Session) (same : old.fixed = row.fixed) : old.id = row.id :=
  (congrArg Session.id same :)

theorem AccessToken.keyed (old row : AccessToken) (same : old.fixed = row.fixed) :
    old.id = row.id :=
  (congrArg AccessToken.id same :)

theorem Family.keyed (old row : Family) (same : old.fixed = row.fixed) : old.id = row.id :=
  (congrArg Family.id same :)

theorem RefreshToken.keyed (old row : RefreshToken) (same : old.fixed = row.fixed) :
    old.id = row.id :=
  (congrArg RefreshToken.id same :)

theorem AuthorizationRequest.keyed (old row : AuthorizationRequest) (same : old.fixed = row.fixed) :
    old.id = row.id :=
  (congrArg AuthorizationRequest.id same :)

theorem AuthorizationCode.keyed (old row : AuthorizationCode) (same : old.fixed = row.fixed) :
    old.id = row.id :=
  (congrArg AuthorizationCode.id same :)

theorem Consent.keyed (old row : Consent) (same : old.fixed = row.fixed) : old.id = row.id :=
  (congrArg Consent.id same :)

theorem OboProof.keyed (old row : OboProof) (same : old.fixed = row.fixed) : old.id = row.id :=
  (congrArg OboProof.id same :)

theorem Evolves.trans {now : Nat} {a b c : Db} (first : Evolves now a b)
    (second : Evolves now b c) : Evolves now a c where
  drawn := fun id held => second.drawn id (first.drawn id held)
  principals := .trans Principal.keyed first.drawn second.drawn first.principals second.principals
  sessions := .trans Session.keyed first.drawn second.drawn first.sessions second.sessions
  access := .trans AccessToken.keyed first.drawn second.drawn first.access second.access
  families := .trans Family.keyed first.drawn second.drawn first.families second.families
  tokens := .trans RefreshToken.keyed first.drawn second.drawn first.tokens second.tokens
  requests := .trans AuthorizationRequest.keyed first.drawn second.drawn first.requests
    second.requests
  codes := .trans AuthorizationCode.keyed first.drawn second.drawn first.codes second.codes
  consents := .trans Consent.keyed first.drawn second.drawn first.consents second.consents
  proofs := .trans OboProof.keyed first.drawn second.drawn first.proofs second.proofs
  principalsKept := first.principalsKept.trans second.principalsKept
  consentsKept := first.consentsKept.trans second.consentsKept

/-- An evolution that draws no identifier: rows are marked or dropped. -/
structure Quiet (now : Nat) (db after : Db) : Prop where
  drawn : after.drawn = db.drawn
  principals : Table.Continued Principal.fixed Principal.marks db.principals after.principals
  sessions : Table.Continued Session.fixed (Session.marks now) db.sessions after.sessions
  access : Table.Continued AccessToken.fixed AccessToken.marks db.access after.access
  families : Table.Continued Family.fixed Family.marks db.families after.families
  tokens : Table.Continued RefreshToken.fixed RefreshToken.marks db.tokens after.tokens
  requests : Table.Continued AuthorizationRequest.fixed AuthorizationRequest.marks
    db.requests after.requests
  codes : Table.Continued AuthorizationCode.fixed AuthorizationCode.marks db.codes after.codes
  consents : Table.Continued Consent.fixed Consent.marks db.consents after.consents
  proofs : Table.Continued OboProof.fixed OboProof.marks db.proofs after.proofs
  principalsKept : Table.Kept db.principals after.principals
  consentsKept : Table.Kept db.consents after.consents

theorem Quiet.refl (now : Nat) (db : Db) : Quiet now db db where
  drawn := rfl
  principals := .refl _
  sessions := .refl _
  access := .refl _
  families := .refl _
  tokens := .refl _
  requests := .refl _
  codes := .refl _
  consents := .refl _
  proofs := .refl _
  principalsKept := .refl _
  consentsKept := .refl _

theorem Quiet.evolves {now : Nat} {db after : Db} (quiet : Quiet now db after) :
    Evolves now db after where
  drawn := fun _ held => quiet.drawn ▸ held
  principals := quiet.principals.evolves
  sessions := quiet.sessions.evolves
  access := quiet.access.evolves
  families := quiet.families.evolves
  tokens := quiet.tokens.evolves
  requests := quiet.requests.evolves
  codes := quiet.codes.evolves
  consents := quiet.consents.evolves
  proofs := quiet.proofs.evolves
  principalsKept := quiet.principalsKept
  consentsKept := quiet.consentsKept

theorem Evolves.refl (now : Nat) (db : Db) : Evolves now db db := (Quiet.refl now db).evolves

theorem Evolves.draw (now : Nat) (db : Db) (id : Nat) :
    Evolves now db { db with drawn := id :: db.drawn } where
  drawn := fun _ => List.mem_cons_of_mem _
  principals := .refl _
  sessions := .refl _
  access := .refl _
  families := .refl _
  tokens := .refl _
  requests := .refl _
  codes := .refl _
  consents := .refl _
  proofs := .refl _
  principalsKept := .refl _
  consentsKept := .refl _

/-! ## Marking rows -/

section Marks

variable {now : Nat}

theorem coalesce_isSome (stamp : Option Nat) (now : Nat) : (coalesce stamp now).isSome = true := rfl

theorem Session.revoke_continues (reason : String) (session : Session) :
    Table.Continues Session.fixed (Session.marks now) session (session.revoke now reason) where
  fixed := rfl
  marks
    | .ended, _ => by simp [Session.marks, Session.revoke]
    | .idle _, held => held

theorem Session.revokeReplayed_continues (session : Session) :
    Table.Continues Session.fixed (Session.marks now) session (session.revokeReplayed now) where
  fixed := rfl
  marks
    | .ended, _ => by simp [Session.marks, Session.revokeReplayed]
    | .idle _, held => held

/-- Only a live session is touched, so no expiry that has passed moves. -/
theorem Session.touch_continues {session : Session} (live : session.live now = true) :
    Table.Continues Session.fixed (Session.marks now) session session.touch where
  fixed := rfl
  marks
    | .ended, held => held
    | .idle since, held => by
        simp only [Session.live, Bool.and_eq_true, decide_eq_true_eq] at live
        intro past
        have := held past
        omega

theorem AccessToken.revoke_continues (reason : String) (token : AccessToken) :
    Table.Continues AccessToken.fixed AccessToken.marks token (token.revoke now reason) where
  fixed := rfl
  marks
    | .revoked, _ => coalesce_isSome _ _
    | .unlinked _, held => held

theorem AccessToken.revokeUnrevoked_continues (reason : String) (token : AccessToken) :
    Table.Continues AccessToken.fixed AccessToken.marks token
      (token.revokeUnrevoked now reason) where
  fixed := rfl
  marks
    | .revoked, _ => rfl
    | .unlinked _, held => held

theorem AccessToken.unlink_continues (token : AccessToken) :
    Table.Continues AccessToken.fixed AccessToken.marks token
      { token with oauthRefreshFamily := none } where
  fixed := rfl
  marks
    | .revoked, held => held
    | .unlinked _, _ => by simp [AccessToken.marks]

theorem Family.revoke_continues (reason : String) (family : Family) :
    Table.Continues Family.fixed Family.marks family (family.revoke now reason) where
  fixed := rfl
  marks _ _ := by simp [Family.marks, Family.revoke]

theorem Family.compromiseReplayed_continues (family : Family) :
    Table.Continues Family.fixed Family.marks family (family.compromiseReplayed now) where
  fixed := rfl
  marks _ _ := by simp [Family.marks, Family.compromiseReplayed]

theorem Family.compromise_continues (family : Family) :
    Table.Continues Family.fixed Family.marks family (family.compromise now) where
  fixed := rfl
  marks _ _ := by simp [Family.marks, Family.compromise]

theorem RefreshToken.revoke_continues (token : RefreshToken) :
    Table.Continues RefreshToken.fixed RefreshToken.marks token (token.revoke now) where
  fixed := rfl
  marks
    | .consumed, held => held
    | .revoked, _ => coalesce_isSome _ _

theorem RefreshToken.consume_continues (replacement : Nat) (token : RefreshToken) :
    Table.Continues RefreshToken.fixed RefreshToken.marks token
      { token with consumedAt := some now, replacement := some replacement } where
  fixed := rfl
  marks
    | .consumed, _ => rfl
    | .revoked, held => held

theorem AuthorizationCode.consume_continues (code : AuthorizationCode) :
    Table.Continues AuthorizationCode.fixed AuthorizationCode.marks code (code.consume now) where
  fixed := rfl
  marks _ _ := coalesce_isSome _ _

theorem AuthorizationRequest.deny_continues (request : AuthorizationRequest) :
    Table.Continues AuthorizationRequest.fixed AuthorizationRequest.marks request
      (request.deny now) where
  fixed := rfl
  marks _ _ := by simp [AuthorizationRequest.marks, AuthorizationRequest.deny]

theorem Consent.revoke_continues (consent : Consent) :
    Table.Continues Consent.fixed Consent.marks consent (consent.revoke now) :=
  ⟨rfl, fun _ held => held⟩

theorem OboProof.revoke_continues (proof : OboProof) :
    Table.Continues OboProof.fixed OboProof.marks proof (proof.revoke now) where
  fixed := rfl
  marks
    | .consumed, held => held
    | .revoked, _ => rfl

end Marks

/-! ## Inserts -/

section Inserts

variable {now : Nat} {db after : Db}

theorem unused_iff {id : Nat} : unused db id = true ↔ id ∉ db.drawn := by
  simp [unused]

theorem insertAccessToken_eq_some {token : AccessToken}
    (done : insertAccessToken db token = some after) :
    token.id ∉ db.drawn ∧ ∃ access, db.access.insert token = some access ∧
      after = { db with access := access, drawn := token.id :: db.drawn } := by
  unfold insertAccessToken at done
  split at done
  · rename_i free
    simp only [Bool.and_eq_true] at free
    obtain ⟨access, own, rfl⟩ := Option.map_eq_some_iff.mp done
    exact ⟨unused_iff.mp free.1, access, own, rfl⟩
  · simp at done

theorem insertRefreshToken_eq_some {token : RefreshToken}
    (done : insertRefreshToken db token = some after) :
    token.id ∉ db.drawn ∧
      (∀ other ∈ db.tokens, other.parent = none ∨ other.parent ≠ token.parent) ∧
      ∃ tokens, db.tokens.insert token = some tokens ∧
        after = { db with tokens := tokens, drawn := token.id :: db.drawn } := by
  unfold insertRefreshToken at done
  split at done
  · rename_i free
    rw [Bool.and_eq_true, Table.all_spec] at free
    obtain ⟨tokens, own, rfl⟩ := Option.map_eq_some_iff.mp done
    refine ⟨unused_iff.mp free.1, fun other mem => ?_, tokens, own, rfl⟩
    have keys := free.2 other mem
    simp only [Bool.and_eq_true, Bool.or_eq_true, bne_iff_ne, ne_eq,
      Option.isNone_iff_eq_none] at keys
    exact keys.2
  · simp at done

theorem insertFamily_eq_some {family : Family} (done : insertFamily db family = some after) :
    family.id ∉ db.drawn ∧ ∃ families, db.families.insert family = some families ∧
      after = { db with families := families, drawn := family.id :: db.drawn } := by
  unfold insertFamily at done
  split at done
  · rename_i free
    obtain ⟨families, own, rfl⟩ := Option.map_eq_some_iff.mp done
    exact ⟨unused_iff.mp free, families, own, rfl⟩
  · simp at done

theorem insertSubjectSession_eq_some {session : Session}
    (done : insertSubjectSession db session = some after) :
    session.id ∉ db.drawn ∧ (∃ principal ∈ db.principals, principal.id = session.subject) ∧
      ∃ sessions, db.sessions.insert session = some sessions ∧
        after = { db with sessions := sessions, drawn := session.id :: db.drawn } := by
  unfold insertSubjectSession at done
  split at done
  · rename_i subject
    obtain ⟨principal, mem, holds⟩ := Table.any_spec subject
    simp only [Bool.and_eq_true, decide_eq_true_eq] at holds
    unfold insertSession at done
    split at done
    · rename_i free
      obtain ⟨sessions, own, rfl⟩ := Option.map_eq_some_iff.mp done
      exact ⟨unused_iff.mp free, ⟨principal, mem, holds.1⟩, sessions, own, rfl⟩
    · simp at done
  · simp at done

theorem insertConsent_eq_some {consent : Consent} (done : insertConsent db consent = some after) :
    consent.id ∉ db.drawn ∧ (∀ other ∈ db.consents, other.grantKey ≠ consent.grantKey) ∧
      ∃ consents, db.consents.insert consent = some consents ∧
        after = { db with consents := consents, drawn := consent.id :: db.drawn } := by
  unfold insertConsent at done
  split at done
  · rename_i free
    simp only [Bool.and_eq_true] at free
    obtain ⟨consents, own, rfl⟩ := Option.map_eq_some_iff.mp done
    refine ⟨unused_iff.mp free.1, fun other mem => ?_, consents, own, rfl⟩
    simpa using Table.all_spec.mp free.2 other mem
  · simp at done

theorem insertRequest_eq_some {request : AuthorizationRequest}
    (done : insertRequest db request = some after) :
    request.id ∉ db.drawn ∧
      (∃ session ∈ db.sessions, session.id = request.session ∧ session.subject = request.subject) ∧
      ∃ requests, db.requests.insert request = some requests ∧
        after = { db with requests := requests, drawn := request.id :: db.drawn } := by
  unfold insertRequest at done
  split at done
  · rename_i free
    rw [Bool.and_eq_true] at free
    obtain ⟨session, mem, holds⟩ := Table.any_spec free.2
    simp only [Bool.and_eq_true, decide_eq_true_eq] at holds
    obtain ⟨requests, own, rfl⟩ := Option.map_eq_some_iff.mp done
    exact ⟨unused_iff.mp free.1, ⟨session, mem, holds⟩, requests, own, rfl⟩
  · simp at done

theorem insertCode_eq_some {code : AuthorizationCode} (done : insertCode db code = some after) :
    code.id ∉ db.drawn ∧ ∃ codes, db.codes.insert code = some codes ∧
      after = { db with codes := codes, drawn := code.id :: db.drawn } := by
  unfold insertCode at done
  split at done
  · rename_i free
    simp only [Bool.and_eq_true] at free
    obtain ⟨codes, own, rfl⟩ := Option.map_eq_some_iff.mp done
    exact ⟨unused_iff.mp free.1, codes, own, rfl⟩
  · simp at done

theorem insertProof_eq_some {proof : OboProof} (done : insertProof db proof = some after) :
    proof.id ∉ db.drawn ∧ ∃ proofs, db.proofs.insert proof = some proofs ∧
      after = { db with proofs := proofs, drawn := proof.id :: db.drawn } := by
  unfold insertProof at done
  split at done
  · rename_i free
    simp only [Bool.and_eq_true] at free
    obtain ⟨proofs, own, rfl⟩ := Option.map_eq_some_iff.mp done
    exact ⟨unused_iff.mp free.1, proofs, own, rfl⟩
  · simp at done

theorem createPrincipal_eq_some {principal : Principal}
    (done : createPrincipal db principal = some after) :
    principal.id ∉ db.drawn ∧ ∃ principals, db.principals.insert principal = some principals ∧
      after = { db with principals := principals, drawn := principal.id :: db.drawn } := by
  unfold createPrincipal at done
  split at done
  · rename_i free
    obtain ⟨principals, own, rfl⟩ := Option.map_eq_some_iff.mp done
    exact ⟨unused_iff.mp free, principals, own, rfl⟩
  · simp at done

theorem Evolves.insertAccessToken {token : AccessToken}
    (done : insertAccessToken db token = some after) : Evolves now db after := by
  obtain ⟨free, access, own, rfl⟩ := insertAccessToken_eq_some done
  exact { Evolves.draw now db _ with access := .insert free own }

theorem Evolves.insertRefreshToken {token : RefreshToken}
    (done : insertRefreshToken db token = some after) : Evolves now db after := by
  obtain ⟨free, -, tokens, own, rfl⟩ := insertRefreshToken_eq_some done
  exact { Evolves.draw now db _ with tokens := .insert free own }

theorem Evolves.insertFamily {family : Family} (done : insertFamily db family = some after) :
    Evolves now db after := by
  obtain ⟨free, families, own, rfl⟩ := insertFamily_eq_some done
  exact { Evolves.draw now db _ with families := .insert free own }

theorem Evolves.insertSubjectSession {session : Session}
    (done : insertSubjectSession db session = some after) : Evolves now db after := by
  obtain ⟨free, -, sessions, own, rfl⟩ := insertSubjectSession_eq_some done
  exact { Evolves.draw now db _ with sessions := .insert free own }

theorem Evolves.insertConsent {consent : Consent} (done : insertConsent db consent = some after) :
    Evolves now db after := by
  obtain ⟨free, -, consents, own, rfl⟩ := insertConsent_eq_some done
  exact { Evolves.draw now db _ with consents := .insert free own, consentsKept := .insert own }

theorem Evolves.insertRequest {request : AuthorizationRequest}
    (done : insertRequest db request = some after) : Evolves now db after := by
  obtain ⟨free, -, requests, own, rfl⟩ := insertRequest_eq_some done
  exact { Evolves.draw now db _ with requests := .insert free own }

theorem Evolves.insertCode {code : AuthorizationCode} (done : insertCode db code = some after) :
    Evolves now db after := by
  obtain ⟨free, codes, own, rfl⟩ := insertCode_eq_some done
  exact { Evolves.draw now db _ with codes := .insert free own }

theorem Evolves.insertProof {proof : OboProof} (done : insertProof db proof = some after) :
    Evolves now db after := by
  obtain ⟨free, proofs, own, rfl⟩ := insertProof_eq_some done
  exact { Evolves.draw now db _ with proofs := .insert free own }

theorem Evolves.createPrincipal {principal : Principal}
    (done : createPrincipal db principal = some after) : Evolves now db after := by
  obtain ⟨free, principals, own, rfl⟩ := createPrincipal_eq_some done
  exact { Evolves.draw now db _ with principals := .insert free own, principalsKept := .insert own }

end Inserts

end SiliconIam.Auth.Authority
