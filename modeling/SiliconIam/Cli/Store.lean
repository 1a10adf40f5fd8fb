/-
# Cli.Store -- the credential document of the command line

`crates/cli/src/store.rs`: one document holds the sessions of every profile, those
of testing environments apart from production's, and the testing root keys.  A
`Scope` is one profile in production or in one testing environment; `session`,
`set_session` and `remove_session` address exactly one scope, and a change of one
scope shows at no other (`session_setSession`, `session_removeSession`).
-/
import SiliconIam.Domain.Uuid
import Mathlib.Logic.Function.Basic

namespace SiliconIam.Cli

open SiliconIam.Domain (Uuid)

set_option autoImplicit false

/-- Readings of the clock and spans of it, in nanoseconds. -/
abbrev Time := Nat

def second : Nat := 1000000000

/-- The key of a mutation: drawn at random, or given on the command line with
`--request-key`.  A drawn key is known by the number of its draw. -/
inductive IdempotencyKey where
  | generated (draw : Nat)
  | supplied (text : String)
deriving DecidableEq

inductive SessionActor where
  | carbon
  | silicon
deriving DecidableEq

inductive PendingLogoutMode where
  | currentSession
  | allSessions
deriving DecidableEq

/-- A remote logout that may have committed even if its response was lost. -/
structure PendingLogout where
  mode : PendingLogoutMode
  idempotencyKey : IdempotencyKey
deriving DecidableEq

/-- One signed-in session.  A token is known by the number of the pair it was issued in. -/
structure Session where
  accessToken : Nat
  refreshToken : Nat
  expiresAt : Time
  actorType : SessionActor
  actorId : String
  pendingRefreshKey : Option IdempotencyKey
  pendingRefreshStartedAt : Option Time
  pendingLogout : Option PendingLogout
deriving DecidableEq

/-- Renews a minute early; a refresh that was begun is always finished first. -/
def Session.needsRefresh (session : Session) (now : Time) : Bool :=
  session.pendingRefreshKey.isSome || decide (session.expiresAt ≤ now + 60 * second)

theorem Session.not_needsRefresh {session : Session} {now : Time}
    (fresh : session.needsRefresh now = false) : session.pendingRefreshKey = none := by
  simp only [needsRefresh, Bool.or_eq_false_iff, Option.isSome_eq_false_iff,
    Option.isNone_iff_eq_none] at fresh
  exact fresh.1

/-- One profile, in production or in one testing environment. -/
structure Scope where
  profile : String
  environmentId : Option Uuid
deriving DecidableEq

structure Credentials where
  sessions : String → Option Session
  testSessions : String → Uuid → Option Session
  testingEnvironmentKeys : String → Uuid → Option String

namespace Credentials

/-- What a missing file reads as. -/
def default : Credentials :=
  ⟨fun _ => none, fun _ _ => none, fun _ _ => none⟩

def session (credentials : Credentials) (scope : Scope) : Option Session :=
  match scope.environmentId with
  | some id => credentials.testSessions scope.profile id
  | none => credentials.sessions scope.profile

def setSession (credentials : Credentials) (scope : Scope) (session : Session) : Credentials :=
  match scope.environmentId with
  | some id =>
      { credentials with
        testSessions := Function.update credentials.testSessions scope.profile
          (Function.update (credentials.testSessions scope.profile) id (some session)) }
  | none =>
      { credentials with
        sessions := Function.update credentials.sessions scope.profile (some session) }

def removeSession (credentials : Credentials) (scope : Scope) : Credentials :=
  match scope.environmentId with
  | some id =>
      { credentials with
        testSessions := Function.update credentials.testSessions scope.profile
          (Function.update (credentials.testSessions scope.profile) id none) }
  | none =>
      { credentials with sessions := Function.update credentials.sessions scope.profile none }

def setTestingEnvironmentKey (credentials : Credentials) (profile : String) (id : Uuid)
    (key : String) : Credentials :=
  { credentials with
    testingEnvironmentKeys := Function.update credentials.testingEnvironmentKeys profile
      (Function.update (credentials.testingEnvironmentKeys profile) id (some key)) }

theorem session_setSession (credentials : Credentials) (scope other : Scope) (session : Session) :
    (credentials.setSession scope session).session other =
      if other = scope then some session else credentials.session other := by
  obtain ⟨profile, environment⟩ := scope
  obtain ⟨profile', environment'⟩ := other
  cases environment <;> cases environment' <;>
    simp only [setSession, Credentials.session, Scope.mk.injEq, Function.update_apply] <;>
    grind [Function.update_apply]

theorem session_removeSession (credentials : Credentials) (scope other : Scope) :
    (credentials.removeSession scope).session other =
      if other = scope then none else credentials.session other := by
  obtain ⟨profile, environment⟩ := scope
  obtain ⟨profile', environment'⟩ := other
  cases environment <;> cases environment' <;>
    simp only [removeSession, Credentials.session, Scope.mk.injEq, Function.update_apply] <;>
    grind [Function.update_apply]

@[simp] theorem session_setTestingEnvironmentKey (credentials : Credentials) (profile : String)
    (id : Uuid) (key : String) (scope : Scope) :
    (credentials.setTestingEnvironmentKey profile id key).session scope =
      credentials.session scope := rfl

@[simp] theorem setSession_keys (credentials : Credentials) (scope : Scope) (session : Session) :
    (credentials.setSession scope session).testingEnvironmentKeys =
      credentials.testingEnvironmentKeys := by
  unfold setSession
  split <;> rfl

@[simp] theorem removeSession_keys (credentials : Credentials) (scope : Scope) :
    (credentials.removeSession scope).testingEnvironmentKeys =
      credentials.testingEnvironmentKeys := by
  unfold removeSession
  split <;> rfl

theorem key_setTestingEnvironmentKey (credentials : Credentials) {profile profile' : String}
    {id id' : Uuid} (key : String) (apart : ¬ (profile' = profile ∧ id' = id)) :
    (credentials.setTestingEnvironmentKey profile id key).testingEnvironmentKeys profile' id' =
      credentials.testingEnvironmentKeys profile' id' := by
  simp only [setTestingEnvironmentKey, Function.update_apply]
  grind [Function.update_apply]

end Credentials

end SiliconIam.Cli
