/-
# Auth.SessionPolicy -- one session ends another only under the policy

`Policy` is what is asked of an operation: a session other than the acting one is
ended only by a mature, current session that consumed a step-up for exactly this
(`Entitled`), an application ends the session of its token at most, and nobody's
rows are touched but the acting principal's.  A session can always end itself
(`LogsOut`).

The maturity queries and the updates select the sessions separately, but in one
serializable transaction: `revokeAll_sessions` and `otherActiveSessions` speak of
the same rows.
-/
import SiliconIam.Auth.SessionConfinement

namespace SiliconIam.Auth.SessionRevocation

open SiliconIam.Theory SiliconIam.Theory.Fallible
open SiliconIam.Theory.Runs (AllSteps)
open SiliconIam.Auth.Authority

set_option autoImplicit false

/-! ## What should hold -/

/-- The session on whose behalf an operation runs. -/
def Act.session : Act → Option Nat
  | .revokeSession access _ _ _ => some access.session
  | .logout command => some command.session
  | _ => none

def Act.principal : Act → Option Nat
  | .login principal _ => some principal
  | .siliconLogin identity _ => some identity.principal
  | .createChallenge access _ _ _ _ _ _ | .verifyChallenge access _ _ _ _ _ _
  | .revokeSession access _ _ _ => some access.subject.id
  | .confirmDelivery scope _ | .failDelivery scope _ => some scope.carbon
  | .logout command => some command.principal
  | .other _ _ => none

/-- What the step-up for ending another session has to be for. -/
def Act.demands : Act → Option (StepUpAction × Nat)
  | .revokeSession _ _ _ target => some (.accountSessionRevoke, target)
  | .logout command => some (.accountSessionsRevokeAll, command.principal)
  | _ => none

/-- An active session that is not active afterwards. -/
def Ended (db after : Db) (session : Nat) : Prop :=
  (∃ row ∈ db.sessions, row.id = session ∧ row.status = .active) ∧
    ∀ row ∈ after.sessions, row.id = session → row.status ≠ .active

/-- The acting session is current and mature, so is the age of the other one, and an
unused assertion of this session, for this action and target, is used up. -/
structure Entitled (settings : SecuritySettings) (w : World) (a : Act) (actor target : Nat) :
    Prop where
  current : ∃ row ∈ w.db.sessions, row.id = actor ∧ mature w row = true ∧
    ∃ subject ∈ w.db.principals, subject.id = row.subject ∧ currentFor w.clock subject row = true
  ended : ∃ row ∈ w.db.sessions, row.id = target ∧ mature w row = true
  stepUp : ∃ assertion ∈ w.assertions, assertion.session = actor ∧ assertion.consumedAt = none ∧
    challengeCompleted w assertion = true ∧
    a.demands = some (assertion.purpose, assertion.challengeScope.resource) ∧
    assertion.consume w.clock ∈ (act settings w a).assertions
  firstParty : ∀ command, a = .logout command → command.trigger = .firstPartyCarbon

structure Policy (settings : SecuritySettings) (w : World) (a : Act) : Prop where
  entitled : (∀ db references, a ≠ .other db references) →
    ∀ session, Ended w.db (act settings w a).db session →
      ∃ actor, a.session = some actor ∧ (session = actor ∨ Entitled settings w a actor session)
  application : ∀ command application token, a = .logout command →
    command.trigger = .application application token →
      ∀ row ∈ w.db.sessions, row ∈ (act settings w a).db.sessions ∨
        ∃ access ∈ w.db.access, access.id = token ∧ access.session = row.id
  confined : ∀ principal, a.principal = some principal →
    Confined principal w.db (act settings w a).db

/-- A logout of the current session with the credential of an active one. -/
def logoutOf (row : Session) (stepUp : Option (List Nat)) : LogoutCommand where
  principal := row.subject
  session := row.id
  trigger := .firstPartyCarbon
  credentialState := .active
  claim := .acquired
  stepUp := stepUp
  mode := .currentSession

/-- A Carbon's session can end itself. -/
def LogsOut (settings : SecuritySettings) (w : World) : Prop :=
  ∀ row ∈ w.db.sessions, row.subjectKind = .carbon → row.live w.clock = true → ∀ stepUp,
    Ended w.db (act settings w (.logout (logoutOf row stepUp))).db row.id

/-! ## Ending sessions -/

section Policy

variable {settings : SecuritySettings} {w t : World} {now principal : Nat} {db after : Db}

theorem revocable_spec {row : Session} (picked : revocable now principal row = true) :
    row.subject = principal ∧ row.subjectKind = .carbon ∧ row.live now = true := by
  simpa [revocable, and_assoc] using picked

theorem revokeOne_sessions (db : Db) (now principal session : Nat) (reason : String) {row : Session}
    (mem : row ∈ db.sessions) :
    row ∈ (revokeOne db now principal session reason).sessions ∨
      row.id = session ∧ revocable now principal row = true := by
  unfold revokeOne
  split
  · by_cases picked : (row.id = session && revocable now principal row) = true
    · simp only [Bool.and_eq_true, decide_eq_true_eq] at picked
      exact .inr picked
    · exact .inl (Table.mem_of_unpicked mem (by simpa using picked) rfl)
  · exact .inl mem

theorem revokeOne_kept (references : References db) (now principal session : Nat) (reason : String) :
    Confined principal db (revokeOne db now principal session reason) ∧
      References (revokeOne db now principal session reason) := by
  unfold revokeOne
  split
  · rename_i found
    obtain ⟨row, mem, holds⟩ := Table.any_spec found
    have picked := holds
    simp only [Bool.and_eq_true, decide_eq_true_eq] at holds
    obtain ⟨rfl, revoked⟩ := holds
    obtain ⟨confined, kept⟩ := revokeSessions_confined references reason
      (fun other => other.id = row.id && revocable now principal other)
      fun other taken => (revocable_spec (Bool.and_eq_true_iff.mp taken).2).1
    have ended : Session.revoke now reason row ∈ db.sessions.update
        (fun other => other.id = row.id && revocable now principal other)
        (Session.revoke now reason) fun _ => rfl := Table.mem_of_picked mem picked rfl
    have own : (Session.revoke now reason row).subject = principal := (revocable_spec revoked).1
    refine ⟨confined.trans ?_, kept.revokeSessionAuthority row.id reason⟩
    exact revokeSessionAuthority_confined kept ended own reason
  · exact ⟨.refl principal db, references⟩

/-- Ending what was derived from several sessions leaves the sessions alone. -/
theorem foldl_revoked (sessions : List Nat) (reason : String) :
    ∀ db, References db →
      (∀ session ∈ sessions, ∃ row ∈ db.sessions, row.id = session ∧ row.subject = principal) →
      let done := sessions.foldl
        (fun db session => revokeSessionAuthority db now session reason) db
      Confined principal db done ∧ References done ∧ done.sessions = db.sessions := by
  induction sessions with
  | nil => exact fun db references _ => ⟨.refl principal db, references, rfl⟩
  | cons session rest ih =>
      intro db references own
      obtain ⟨row, mem, rfl, subject⟩ := own session List.mem_cons_self
      have first : Confined principal db (revokeSessionAuthority db now row.id reason) :=
        revokeSessionAuthority_confined references mem subject reason
      obtain ⟨later, kept, same⟩ := ih (revokeSessionAuthority db now row.id reason)
        (references.revokeSessionAuthority row.id reason)
        (fun other held => own other (List.mem_cons_of_mem _ held))
      exact ⟨first.trans later, kept, same⟩

theorem revokeAll_kept (references : References db) (now principal : Nat) :
    Confined principal db (revokeAll db now principal) ∧
      References (revokeAll db now principal) ∧
      (revokeAll db now principal).sessions = db.sessions.update (revocable now principal)
        (Session.revoke now "user_logout_all") fun _ => rfl := by
  obtain ⟨confined, kept⟩ := revokeSessions_confined references "user_logout_all"
    (revocable now principal) fun row taken => (revocable_spec taken).1
  have own : ∀ session ∈ (db.sessions.rows.filter (revocable now principal)).map Session.id,
      ∃ row ∈ db.sessions.update (revocable now principal) (Session.revoke now "user_logout_all")
        fun _ => rfl, row.id = session ∧ row.subject = principal := by
    intro session mem
    obtain ⟨row, held, rfl⟩ := List.mem_map.mp mem
    obtain ⟨rowMem, picked⟩ := List.mem_filter.mp held
    exact ⟨_, Table.mem_of_picked rowMem picked rfl, rfl, (revocable_spec picked).1⟩
  obtain ⟨later, laterKept, same⟩ := foldl_revoked _ "user_logout_all" _ kept own
  exact ⟨confined.trans later, laterKept, same⟩

/-! ## Checks -/

variable {access : AccessContext}

theorem carbonContext_ok {subject : Nat}
    (done : carbonContext access = .ok subject) : subject = access.subject.id := by
  unfold carbonContext at done
  split at done
  · exact (Except.ok.inj done).symm
  · cases done

variable {outcome : Outcome}

/-- The operation of a claimed request ran, or nothing happened. -/
theorem claim_ok {claim : Claim} {operation : Except Refusal (Outcome × World)}
    (done : claim.run w operation = .ok (outcome, t)) :
    outcome = .replay ∧ t = w ∨ operation = .ok (outcome, t) := by
  cases claim with
  | acquired => exact .inr done
  | replay =>
      obtain ⟨rfl, rfl⟩ := Prod.mk.inj (Except.ok.inj done)
      exact .inl ⟨rfl, rfl⟩
  | refused refusal => cases done

theorem requireMature_ok {answer : Option Bool} {tooYoung : String} {missing : Refusal} {u : Unit}
    (done : requireMature answer tooYoung missing = .ok u) : answer = some true := by
  unfold requireMature at done
  split at done
  · rfl
  · cases done
  · cases done

theorem matureTarget_spec {target : Nat} (holds : matureTarget w principal target = some true) :
    ∃ row ∈ w.db.sessions, row.id = target ∧ mature w row = true := by
  obtain ⟨row, found, old⟩ := Option.map_eq_some_iff.mp holds
  obtain ⟨mem, named⟩ := Table.find?_spec found
  simp only [Bool.and_eq_true, decide_eq_true_eq] at named
  exact ⟨row, mem, named.1, old⟩

theorem matureCurrent_spec {current : Nat} (holds : matureCurrent w principal current = some true) :
    ∃ row ∈ w.db.sessions, row.id = current ∧ mature w row = true ∧
      ∃ subject ∈ w.db.principals, subject.id = row.subject ∧
        currentFor w.clock subject row = true := by
  obtain ⟨row, found, old⟩ := Option.map_eq_some_iff.mp holds
  obtain ⟨mem, named⟩ := Table.find?_spec found
  simp only [Bool.and_eq_true, decide_eq_true_eq] at named
  obtain ⟨subject, subjectMem, checked⟩ := Table.any_spec named.2
  simp only [Bool.and_eq_true, decide_eq_true_eq] at checked
  exact ⟨row, mem, named.1.1, old, subject, subjectMem, checked.1.1, checked.2⟩

/-- All the other sessions of the principal are mature, and so is the current one. -/
theorem authorizeAllSessionsLogout_spec {current : Nat}
    (done : authorizeAllSessionsLogout w principal current = .ok true) :
    (∀ row ∈ w.db.sessions, revocable w.clock principal row = true → row.id ≠ current →
      mature w row = true) ∧ matureCurrent w principal current = some true := by
  unfold authorizeAllSessionsLogout at done
  split at done
  · cases done
  · cases done
  · rename_i others
    obtain ⟨_, checked, -⟩ := bind_ok.mp done
    refine ⟨fun row mem picked other => ?_, requireMature_ok checked⟩
    simp only [otherSessionsMature] at others
    split at others
    · cases others
    · have all := List.all_eq_true.mp (Option.some.inj others)
      refine all row (List.mem_filter.mpr ⟨mem, ?_⟩)
      simp [picked, other]

/-- A consumed assertion was there unused, for what was asked. -/
theorem consume_spec {expected : Expectation} {supplied : List Nat}
    (done : consume w expected supplied = .ok t) :
    t.clock = w.clock ∧ t.db = w.db ∧ t.createdAt = w.createdAt ∧
      ∃ assertion ∈ w.assertions, assertion.session = expected.session ∧
        assertion.purpose = expected.action ∧ assertion.consumedAt = none ∧
        challengeCompleted w assertion = true ∧
        assertion.challengeScope.resource = expected.resource ∧
        assertion.consume w.clock ∈ t.assertions := by
  obtain ⟨-, -, done⟩ := bind_ok.mp done
  obtain ⟨assertion, found, done⟩ := bind_ok.mp done
  obtain rfl := return_ok.mp done
  obtain ⟨digest, -, candidate⟩ := List.exists_of_findSome?_eq_some (orElse_ok.mp found)
  obtain ⟨mem, holds⟩ := Table.find?_spec candidate
  simp only [consumable, Bool.and_eq_true, decide_eq_true_eq, Option.isNone_iff_eq_none] at holds
  obtain ⟨⟨⟨⟨⟨⟨⟨⟨-, -⟩, session⟩, purpose⟩, -⟩, unused⟩, -⟩, completed⟩, resource⟩ := holds
  refine ⟨rfl, rfl, rfl, assertion, mem, session, purpose, unused, completed, resource, ?_⟩
  exact Table.mem_of_picked mem (decide_eq_true rfl) rfl

/-! ## Operations -/

/-- A revocation ends its target only, and another session only if it is entitled to. -/
theorem revokeSession_spec (settings : SecuritySettings) {claim : Claim} {stepUp : Option (List Nat)}
    {target : Nat} (done : revokeSession w access claim stepUp target =
      .ok (outcome, t)) :
    t = w ∨ t.db = revokeOne w.db w.clock access.subject.id target "user_revoked" ∧
      (target = access.session ∨ Entitled settings w (.revokeSession access claim stepUp target)
        access.session target) := by
  have answered := done
  obtain ⟨subject, context, done⟩ := bind_ok.mp done
  obtain rfl := carbonContext_ok context
  rcases claim_ok done with ⟨-, rfl⟩ | done
  · exact .inl rfl
  · obtain ⟨supplied, -, done⟩ := bind_ok.mp done
    obtain ⟨used, consumed, done⟩ := bind_ok.mp done
    obtain ⟨-, -, done⟩ := bind_ok.mp done
    obtain ⟨_, authorized, done⟩ := bind_ok.mp done
    obtain ⟨-, rfl⟩ := Prod.mk.inj (return_ok.mp done)
    obtain ⟨clock, db, createdAt, assertion, mem, session, purpose, unused, completed, resource,
      left⟩ := consume_spec consumed
    refine .inr ⟨by rw [← db, ← clock]; rfl, ?_⟩
    by_cases own : access.session = target
    · exact .inl own.symm
    · right
      obtain ⟨_, ended, current⟩ := bind_ok.mp authorized
      rw [if_pos own] at current
      have ended := matureTarget_spec (requireMature_ok ended)
      have current := matureCurrent_spec (requireMature_ok current)
      simp only [mature, clock, db, createdAt] at ended current
      refine ⟨current, ended, ⟨assertion, mem, session, unused, completed, ?_, ?_⟩, ?_⟩
      · rw [purpose, resource]
        rfl
      · simp only [act, answered]
        exact left
      · exact fun command same => by cases same

/-- What a logout may do once it is admitted. -/
inductive LoggedOut (w t : World) (command : LogoutCommand) : Prop
  | one (db : t.db = revokeOne w.db w.clock command.principal command.session "user_logout")
  | all (everywhere : command.mode = .allSessions)
      (db : t.db = revokeAll w.db w.clock command.principal)
      (others : ∀ row ∈ w.db.sessions, revocable w.clock command.principal row = true →
        row.id ≠ command.session → mature w row = true)
      (current : matureCurrent w command.principal command.session = some true)
      (stepUp : ∃ assertion ∈ w.assertions, assertion.session = command.session ∧
        assertion.purpose = .accountSessionsRevokeAll ∧ assertion.consumedAt = none ∧
        challengeCompleted w assertion = true ∧
        assertion.challengeScope.resource = command.principal ∧
        assertion.consume w.clock ∈ t.assertions)

variable {command : LogoutCommand}

theorem authorizeLogoutScope_spec {all : Bool}
    (done : authorizeLogoutScope w command = .ok (all, t)) :
    all = false ∧ t = w ∨ all = true ∧ command.mode = .allSessions ∧
      authorizeAllSessionsLogout w command.principal command.session = .ok true ∧
      ∃ supplied, consume w ⟨command.session, command.principal, .accountSessionsRevokeAll,
        command.principal⟩ supplied = .ok t := by
  unfold authorizeLogoutScope at done
  split at done
  · obtain ⟨rfl, rfl⟩ := Prod.mk.inj (Except.ok.inj done)
    exact .inl ⟨rfl, rfl⟩
  · rename_i everywhere
    obtain ⟨others, authorized, done⟩ := bind_ok.mp done
    cases others with
    | false =>
        obtain ⟨rfl, rfl⟩ := Prod.mk.inj (return_ok.mp done)
        exact .inl ⟨rfl, rfl⟩
    | true =>
        obtain ⟨supplied, -, done⟩ := bind_ok.mp done
        obtain ⟨used, consumed, done⟩ := bind_ok.mp done
        obtain ⟨rfl, rfl⟩ := Prod.mk.inj (return_ok.mp done)
        exact .inr ⟨rfl, everywhere, authorized, supplied, consumed⟩

theorem executeLogout_spec (done : executeLogout w command = .ok t) :
    applicationAuthority w command = .ok () ∧ LoggedOut w t command := by
  obtain ⟨_, admitted, done⟩ := bind_ok.mp done
  obtain ⟨⟨all, used⟩, scope, done⟩ := bind_ok.mp done
  obtain rfl := return_ok.mp done
  refine ⟨admitted, ?_⟩
  rcases authorizeLogoutScope_spec scope with
    ⟨rfl, rfl⟩ | ⟨rfl, everywhere, authorized, supplied, consumed⟩
  · exact .one rfl
  · obtain ⟨others, current⟩ := authorizeAllSessionsLogout_spec authorized
    obtain ⟨clock, db, -, assertion, mem, session, purpose, unused, completed, resource, left⟩ :=
      consume_spec consumed
    exact .all everywhere (by rw [← db, ← clock]; rfl) others current
      ⟨assertion, mem, session, purpose, unused, completed, resource, left⟩

theorem logout_spec
    (done : logout w command = .ok (outcome, t)) :
    t = w ∨ validateLogoutTriggerMode command.trigger command.mode = .ok () ∧
      executeLogout w command = .ok t := by
  obtain ⟨_, valid, done⟩ := bind_ok.mp done
  split at done
  · exact .inl (Prod.mk.inj (Except.ok.inj done)).2.symm
  · cases done
  · cases done
  · rcases claim_ok done with ⟨-, rfl⟩ | done
    · exact .inl rfl
    · obtain ⟨executed, execution, done⟩ := bind_ok.mp done
      obtain ⟨-, rfl⟩ := Prod.mk.inj (return_ok.mp done)
      exact .inr ⟨valid, execution⟩

variable {session : Nat}

/-- A session whose row is not touched is not ended. -/
theorem Ended.touched (ended : Ended db after session) :
    ∃ row ∈ db.sessions, row.id = session ∧ row ∉ after.sessions := by
  obtain ⟨⟨row, mem, rfl, active⟩, gone⟩ := ended
  exact ⟨row, mem, rfl, fun kept => gone row kept rfl active⟩

theorem Ended.revokeOne {target : Nat} {reason : String}
    (ended : Ended db (revokeOne db now principal target reason) session) : session = target := by
  obtain ⟨row, mem, rfl, gone⟩ := ended.touched
  rcases revokeOne_sessions db now principal target reason mem with kept | ⟨own, -⟩
  · exact absurd kept gone
  · exact own

theorem Ended.revokeAll (references : References db)
    (ended : Ended db (revokeAll db now principal) session) :
    ∃ row ∈ db.sessions, row.id = session ∧ revocable now principal row = true := by
  obtain ⟨row, mem, rfl, gone⟩ := ended.touched
  refine ⟨row, mem, rfl, ?_⟩
  by_contra other
  refine gone ?_
  rw [(revokeAll_kept references now principal).2.2]
  exact Table.mem_of_unpicked mem (by simpa using other) rfl

theorem logout_entitled (references : References w.db)
    (ended : Ended w.db (act settings w (.logout command)).db session) :
    session = command.session ∨
      Entitled settings w (.logout command) command.session session := by
  have same : ¬ Ended w.db w.db session := fun still => by
    obtain ⟨row, mem, -, gone⟩ := still.touched
    exact gone mem
  cases done : logout w command with
  | error _ =>
      simp only [act, done, Fallible.committed] at ended
      exact absurd ended same
  | ok answer =>
      obtain ⟨outcome, t⟩ := answer
      have after : act settings w (.logout command) = t := by
        simp only [act, done, Fallible.committed]
      rw [after] at ended
      rcases logout_spec done with rfl | ⟨valid, executed⟩
      · exact absurd ended same
      · obtain ⟨-, db | ⟨everywhere, db, others, current, stepUp⟩⟩ := executeLogout_spec executed
        · rw [db] at ended
          exact .inl ended.revokeOne
        · rw [db] at ended
          by_cases own : session = command.session
          · exact .inl own
          · obtain ⟨row, mem, named, picked⟩ := ended.revokeAll references
            obtain ⟨assertion, assertionMem, actor, purpose, unused, completed, resource, left⟩ :=
              stepUp
            refine .inr ⟨matureCurrent_spec current, ⟨row, mem, named, ?_⟩,
              ⟨assertion, assertionMem, actor, unused, completed, ?_, after ▸ left⟩, ?_⟩
            · exact others row mem picked (named ▸ own)
            · rw [purpose, resource]
              rfl
            · intro other same
              cases same
              rw [everywhere] at valid
              cases trigger : command.trigger with
              | firstPartyCarbon => rfl
              | application => simp [trigger, validateLogoutTriggerMode] at valid

/-- An application's logout ends the session of its token and no other. -/
theorem logout_application {application token : Nat}
    (trigger : command.trigger = .application application token) {row : Session}
    (mem : row ∈ w.db.sessions) :
    row ∈ (act settings w (.logout command)).db.sessions ∨
      ∃ access ∈ w.db.access, access.id = token ∧ access.session = row.id := by
  cases done : logout w command with
  | error _ =>
      simp only [act, done, Fallible.committed]
      exact .inl mem
  | ok answer =>
      simp only [act, done, Fallible.committed]
      rcases logout_spec done with rfl | ⟨valid, executed⟩
      · exact .inl mem
      · obtain ⟨admitted, db | ⟨everywhere, -⟩⟩ := executeLogout_spec executed
        · rw [db]
          refine (revokeOne_sessions _ _ _ _ _ mem).imp_right fun own => ?_
          simp only [applicationAuthority, trigger] at admitted
          obtain ⟨access, held, holds⟩ := Table.any_spec (require_ok.mp admitted)
          simp only [Bool.and_eq_true, decide_eq_true_eq] at holds
          obtain ⟨⟨⟨⟨⟨⟨⟨⟨⟨⟨named, -⟩, session⟩, -⟩, -⟩, -⟩, -⟩, -⟩, -⟩, -⟩, -⟩ := holds
          exact ⟨access, held, named, session.trans own.1.symm⟩
        · rw [trigger, everywhere] at valid
          cases valid

/-! ## Every operation -/

theorem createChallenge_db {claim : Claim} {limit : Except Refusal Unit}
    {action : StepUpAction} {resource : Nat} {bound contact : Except Refusal Unit}
    (done : createChallenge w access claim limit action resource bound contact = .ok (outcome, t)) :
    t.db = w.db := by
  obtain ⟨subject, -, done⟩ := bind_ok.mp done
  rcases claim_ok done with ⟨-, rfl⟩ | done
  · rfl
  · obtain ⟨_, -, done⟩ := bind_ok.mp done
    obtain ⟨_, -, done⟩ := bind_ok.mp done
    obtain ⟨_, -, done⟩ := bind_ok.mp done
    obtain ⟨_, -, done⟩ := bind_ok.mp done
    obtain ⟨-, rfl⟩ := Prod.mk.inj (return_ok.mp done)
    rfl

theorem passChallenge_db {scope : Scope}
    {challenge assertion digest : Nat}
    (done : passChallenge w access principal scope challenge assertion digest = .ok (outcome, t)) :
    t.db = w.db := by
  obtain ⟨inserted, insertion, done⟩ := bind_ok.mp done
  obtain ⟨-, rfl⟩ := Prod.mk.inj (return_ok.mp done)
  have insertion := orElse_ok.mp insertion
  unfold insertAssertion at insertion
  split at insertion
  · cases insertion
  · obtain ⟨assertions, -, rfl⟩ := Option.map_eq_some_iff.mp insertion
    rfl

theorem verifyChallenge_db {claim : Claim} {scope : Scope}
    {challenge assertion digest : Nat} {correct : Bool}
    (done : verifyChallenge w access claim scope challenge correct assertion digest =
      .ok (outcome, t)) : t.db = w.db := by
  obtain ⟨subject, -, done⟩ := bind_ok.mp done
  rcases claim_ok done with ⟨-, rfl⟩ | done
  · rfl
  · obtain ⟨_, -, done⟩ := bind_ok.mp done
    split at done
    · split at done
      · have passed := passChallenge_db done
        exact passed
      · obtain ⟨-, rfl⟩ := Prod.mk.inj (Except.ok.inj done)
        rfl
      · cases done
      · obtain ⟨-, rfl⟩ := Prod.mk.inj (Except.ok.inj done)
        rfl
    · obtain ⟨-, rfl⟩ := Prod.mk.inj (Except.ok.inj done)
      rfl

/-- What an operation leaves: the foreign keys, and the rows of other principals. -/
structure Kept (a : Act) (db after : Db) : Prop where
  references : References after
  confined : ∀ principal, a.principal = some principal → Confined principal db after

theorem Kept.same {a : Act} (references : References db) (same : after = db) : Kept a db after := by
  subst same
  exact ⟨references, fun principal _ => .refl principal _⟩

theorem Kept.extended {a : Act} (references : References db)
    (kept : Extends db after ∧ (References db → References after)) : Kept a db after :=
  ⟨kept.2 references, fun principal _ => kept.1.confined principal⟩

theorem Kept.own {a : Act} (own : a.principal = some principal)
    (kept : Confined principal db after ∧ References after) : Kept a db after := by
  refine ⟨kept.2, fun other same => ?_⟩
  rw [own] at same
  exact Option.some.inj same ▸ kept.1

/-- The operations of a step-up leave the sessions and what is derived from them. -/
theorem act_stepUp (settings : SecuritySettings) (w : World) :
    (∀ access claim limit action resource bound contact,
      (act settings w (.createChallenge access claim limit action resource bound contact)).db = w.db) ∧
    (∀ scope challenge, (act settings w (.confirmDelivery scope challenge)).db = w.db) ∧
    ∀ access claim scope challenge correct assertion digest,
      (act settings w
        (.verifyChallenge access claim scope challenge correct assertion digest)).db = w.db := by
  refine ⟨fun access claim limit action resource bound contact => ?_, fun scope challenge => ?_,
    fun access claim scope challenge correct assertion digest => ?_⟩
  · refine committed_of (P := fun t : World => t.db = w.db) rfl fun outcome t done => ?_
    exact createChallenge_db done
  · simp only [act, confirmDelivery]
    split <;> rfl
  · refine committed_of (P := fun t : World => t.db = w.db) rfl fun outcome t done => ?_
    exact verifyChallenge_db done

theorem act_kept (settings : SecuritySettings) (references : References w.db) (a : Act) :
    Kept a w.db (act settings w a).db := by
  obtain ⟨creates, confirms, verifies⟩ := act_stepUp settings w
  cases a with
  | login principal fresh =>
      exact .extended references (issueLoginSession_kept settings w.db w.clock principal fresh)
  | siliconLogin identity fresh =>
      exact .extended references (issueSiliconSession_kept settings w.db w.clock identity fresh)
  | createChallenge => exact .same references (creates _ _ _ _ _ _ _)
  | confirmDelivery => exact .same references (confirms _ _)
  | failDelivery scope challenge => exact .same references rfl
  | verifyChallenge => exact .same references (verifies _ _ _ _ _ _ _)
  | revokeSession access claim stepUp target =>
      refine committed_of (P := fun t : World => Kept _ w.db t.db) (.same references rfl)
        fun outcome t done => ?_
      rcases revokeSession_spec settings done with rfl | ⟨db, -⟩
      · exact .same references rfl
      · rw [db]
        exact .own rfl (revokeOne_kept references _ _ _ _)
  | logout command =>
      refine committed_of (P := fun t : World => Kept _ w.db t.db) (.same references rfl)
        fun outcome t done => ?_
      rcases logout_spec done with rfl | ⟨-, executed⟩
      · exact .same references rfl
      · obtain ⟨-, db | ⟨-, db⟩⟩ := executeLogout_spec executed
        · rw [db]
          exact .own rfl (revokeOne_kept references _ _ _ _)
        · rw [db]
          obtain ⟨confined, kept, -⟩ := revokeAll_kept references w.clock command.principal
          exact .own rfl ⟨confined, kept⟩
  | other db kept => exact ⟨kept, fun principal own => by cases own⟩

theorem Ended.not_extended (ended : Ended db after session) :
    ¬ ∀ row ∈ db.sessions, row ∈ after.sessions := by
  intro extended
  obtain ⟨row, mem, -, gone⟩ := ended.touched
  exact gone (extended row mem)

theorem Ended.not_same (ended : Ended db after session) : after ≠ db := by
  rintro rfl
  exact ended.not_extended fun _ mem => mem

theorem revokeSession_entitled {claim : Claim}
    {stepUp : Option (List Nat)} {target : Nat}
    (ended : Ended w.db (act settings w (.revokeSession access claim stepUp target)).db session) :
    session = access.session ∨
      Entitled settings w (.revokeSession access claim stepUp target) access.session session := by
  cases done : revokeSession w access claim stepUp target with
  | error _ =>
      simp only [act, done, Fallible.committed] at ended
      exact absurd rfl ended.not_same
  | ok answer =>
      obtain ⟨outcome, t⟩ := answer
      have after : act settings w (.revokeSession access claim stepUp target) = t := by
        simp only [act, done, Fallible.committed]
      rw [after] at ended
      rcases revokeSession_spec settings done with rfl | ⟨db, own | entitled⟩
      · exact absurd rfl ended.not_same
      · rw [db] at ended
        exact .inl (ended.revokeOne.trans own)
      · rw [db] at ended
        exact .inr (ended.revokeOne ▸ entitled)

/-- Every operation is within the policy. -/
theorem policy (settings : SecuritySettings) (references : References w.db) (a : Act) :
    Policy settings w a where
  entitled known session ended := by
    obtain ⟨creates, confirms, verifies⟩ := act_stepUp settings w
    cases a with
    | login principal fresh =>
        have kept := issueLoginSession_kept settings w.db w.clock principal fresh
        exact absurd kept.1.sessions ended.not_extended
    | siliconLogin identity fresh =>
        have kept := issueSiliconSession_kept settings w.db w.clock identity fresh
        exact absurd kept.1.sessions ended.not_extended
    | createChallenge => exact absurd (creates _ _ _ _ _ _ _) ended.not_same
    | confirmDelivery => exact absurd (confirms _ _) ended.not_same
    | failDelivery => exact absurd rfl ended.not_same
    | verifyChallenge => exact absurd (verifies _ _ _ _ _ _ _) ended.not_same
    | revokeSession access claim stepUp target =>
        exact ⟨access.session, rfl, revokeSession_entitled ended⟩
    | logout command => exact ⟨command.session, rfl, logout_entitled references ended⟩
    | other db kept => exact absurd rfl (known db kept)
  application := by
    rintro command application token rfl trigger row mem
    exact logout_application trigger mem
  confined := (act_kept settings references a).confined

/-- Nothing is asked for a logout of the current session. -/
theorem logsOut (settings : SecuritySettings) (w : World) : LogsOut settings w := by
  intro row mem carbon live stepUp
  have revoked : (act settings w (.logout (logoutOf row stepUp))).db =
      revokeOne w.db w.clock row.subject row.id "user_logout" := rfl
  rw [revoked]
  have picked : revocable w.clock row.subject row = true := by simp [revocable, carbon, live]
  have active : row.status = .active := by
    simp only [Session.live, Bool.and_eq_true, decide_eq_true_eq] at live
    exact live.1.1
  refine ⟨⟨row, mem, rfl, active⟩, fun other otherMem own => ?_⟩
  have found : (w.db.sessions.any fun session =>
      session.id = row.id && revocable w.clock row.subject session) = true :=
    Table.any_eq_true.mpr ⟨row, mem, by simp [picked]⟩
  unfold Authority.revokeOne at otherMem
  rw [if_pos found] at otherMem
  obtain ⟨old, held, rfl⟩ := Table.of_mem_updated otherMem rfl
  split
  · simp [Session.revoke]
  · rename_i unpicked
    rw [if_neg unpicked] at own
    obtain rfl := Table.unique held mem own
    simp [picked] at unpicked

/-! ## Runs -/

/-- From every state with its foreign keys intact, each operation of a run is within the
policy, and at each of them every session can end itself. -/
theorem revocation_policy (settings : SecuritySettings) (start : World)
    (references : References start.db) (events : List Event) :
    AllSteps (next settings)
      (fun w e => Policy settings (w.advance e.elapsed) e.act ∧
        LogsOut settings (w.advance e.elapsed)) start events := by
  refine Runs.allSteps_of_invariant (I := fun w => References w.db) ?_ ?_ events start references
  · intro w e kept
    exact (act_kept (w := w.advance e.elapsed) settings kept e.act).references
  · intro w e kept
    exact ⟨policy (w := w.advance e.elapsed) settings kept e.act, logsOut settings _⟩

end Policy

/-! ### Ada ends her other session -/

namespace Scenario

open Authority.Scenario (ada directory fresh principal)

/-- The durations of a deployment. -/
def settings : SecuritySettings where
  accessTokenTtl := 1800 * Otp.second
  refreshFamilyTtl := 77760000 * Otp.second
  authorizationCodeTtl := 120 * Otp.second

/-- Ada, without a session. -/
def start : World where
  clock := 0
  db := { Db.empty directory with principals := ⟨[principal 1 .carbon], by decide⟩, drawn := [1] }
  createdAt := fun _ => 0
  challenges := fun _ => []
  assertions := .empty _

def scope : Scope := ⟨10, 1, .accountSessionRevoke, 50⟩

/-- Two logins; after twelve hours the session 10 passes a challenge and ends the
session 50, and then itself. -/
def events : List Event :=
  [⟨1, .login 1 (fresh 10)⟩, ⟨1, .login 1 (fresh 50)⟩,
    ⟨43200 * Otp.second, .createChallenge ada .acquired (.ok ()) .accountSessionRevoke 50 (.ok ()) (.ok ())⟩,
    ⟨1, .confirmDelivery scope 0⟩, ⟨1, .verifyChallenge ada .acquired scope 0 true 90 190⟩,
    ⟨1, .revokeSession ada .acquired (some [190]) 50⟩,
    ⟨1, .logout
      { principal := 1, session := 10, trigger := .firstPartyCarbon, credentialState := .active
        claim := .acquired, stepUp := none, mode := .currentSession }⟩]

end Scenario

open Scenario in
theorem revocation_policy_ada :
    AllSteps (next settings)
        (fun w e => Policy settings (w.advance e.elapsed) e.act ∧
          LogsOut settings (w.advance e.elapsed)) start events ∧
      (Runs.after (next settings) start (events.take 6)).db.sessions.rows.map
          (fun row => (row.id, row.status)) = [(50, .revoked), (10, .active)] ∧
      (Runs.after (next settings) start events).db.sessions.rows.map
          (fun row => (row.id, row.status)) = [(50, .revoked), (10, .revoked)] := by
  refine ⟨revocation_policy settings start ?_ events, by decide +kernel, by decide +kernel⟩
  constructor <;> exact fun _ mem => absurd mem Table.not_mem_empty

end SiliconIam.Auth.SessionRevocation
