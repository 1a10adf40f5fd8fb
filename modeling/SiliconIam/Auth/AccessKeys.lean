/-
# Auth.AccessKeys -- application identity proofs and their revocation

An application proves who it is with a short-lived access key.  What a key rests
on lives in three tables: the secret that minted it, the application and its
principal.  A verification joins them as they are now; that an interruption in
between is never forgotten is the work of the three revocation triggers.

Rows carry their plane: no environment is production, which has a database of its
own.  A transaction sees the rows of its own environment, as row-level security
has it.  Constraints that only refuse rows and that nothing here rests on are left
out.
-/
import SiliconIam.Crypto.Digest
import SiliconIam.Auth.Issuance

namespace SiliconIam.Auth.AccessKeys

open SiliconIam.Theory
open SiliconIam.Theory.Hex (Bytes ascii)
open SiliconIam.Crypto (SecretDigest)
open SiliconIam.Domain (asciiDigit asciiLowercase)
open SiliconIam.Auth.Authority (ApiError PrincipalKind PrincipalStatus)

set_option autoImplicit false

/-! ## Rows -/

inductive ReviewStatus where
  | underReview
  | verified
  | rejected
  | suspended
  | deleted
deriving DecidableEq

inductive SecretStatus where
  | active
  | retiring
  | retired
  | compromised
deriving DecidableEq

structure Principal where
  environment : Option Nat
  id : Bytes
  kind : PrincipalKind
  status : PrincipalStatus
  authEpoch : Nat
deriving DecidableEq

def Principal.key (principal : Principal) : Option Nat × Bytes :=
  (principal.environment, principal.id)

/-- `id` is also the `app_id` (`applications_canonical_identity`). -/
structure Application where
  environment : Option Nat
  id : Bytes
  reviewStatus : ReviewStatus
  deletedAt : Option Nat
deriving DecidableEq

def Application.key (application : Application) : Option Nat × Bytes :=
  (application.environment, application.id)

/-- Production and the testing environments are two databases. -/
def database (environment : Option Nat) : Bool := environment.isSome

variable {D : Type}

structure Secret (D : Type) where
  environment : Option Nat
  id : Nat
  application : Bytes
  digest : SecretDigest D
  status : SecretStatus

def Secret.key (secret : Secret D) : Bool × Nat := (database secret.environment, secret.id)

/-- `iam.application_access_keys`.  Times are microseconds. -/
structure AccessKey (D : Type) where
  environment : Option Nat
  id : Nat
  application : Bytes
  secret : Nat
  authEpoch : Nat
  digest : SecretDigest D
  generation : Option Nat
  issuedAt : Nat
  expiresAt : Nat
  revokedAt : Option Nat

def AccessKey.key (row : AccessKey D) : Bool × Nat := (database row.environment, row.id)

/-- `iam_private.testing_runtime_state`. -/
structure RuntimeState where
  environment : Nat
  generation : Nat
  keyVersion : Nat
  active : Bool
deriving DecidableEq

structure Db (D : Type) where
  principals : Table Principal.key
  applications : Table Application.key
  secrets : Table (Secret.key (D := D))
  keys : Table (AccessKey.key (D := D))
  runtime : Table RuntimeState.environment

def Db.empty : Db D where
  principals := .empty _
  applications := .empty _
  secrets := .empty _
  keys := .empty _
  runtime := .empty _

/-! ## Requests -/

/-- The testing environment a request was resolved to, and the version of its
lifecycle. -/
structure Plane where
  environment : Option Nat
  runtimeVersion : Option (Nat × Nat)
deriving DecidableEq

/-- An authenticated client.  A supplied secret is the list of its digests under the
retained keys. -/
structure ApplicationClient (D : Type) where
  application : Bytes
  authEpoch : Nat
  authenticatedSecret : List (SecretDigest D)

/-- The transaction-local settings. -/
structure Context where
  environment : Option Nat
  principal : Option Bytes
  application : Option Bytes
deriving DecidableEq

def generation (plane : Plane) : Option Nat :=
  plane.environment.map fun _ =>
    match plane.runtimeVersion with
    | some (generation, _) => generation
    | none => 1

def lockTestingRuntimeState (db : Db D) (environment generation keyVersion : Nat) : Bool :=
  db.runtime.any fun state =>
    state.environment = environment && state.generation = generation &&
      state.keyVersion = keyVersion && state.active

def checkTestingGeneration (db : Db D) (plane : Plane) : Bool :=
  match plane.environment, plane.runtimeVersion with
  | some environment, some (generation, keyVersion) =>
      lockTestingRuntimeState db environment generation keyVersion
  | _, _ => true

def applicationTransaction (db : Db D) (plane : Plane) (client : ApplicationClient D) :
    Except ApiError Context :=
  if checkTestingGeneration db plane then
    .ok
      { environment := plane.environment
        principal := some client.application
        application := some client.application }
  else .error (.internal "application_access_key_context")

/-! ## Authority of the caller -/

def currentApplication (db : Db D) (environment : Option Nat) (application : Bytes) : Bool :=
  db.applications.any fun row =>
    row.environment = environment && row.id = application && row.reviewStatus = .verified &&
      row.deletedAt.isNone

def currentPrincipal (db : Db D) (environment : Option Nat) (application : Bytes) (epoch : Nat) :
    Bool :=
  db.principals.any fun row =>
    row.environment = environment && row.id = application && row.kind = .application &&
      row.status = .active && row.authEpoch = epoch

/-- Whether `lock_current_application_client` returns a row. -/
def lockCurrentApplicationClient (db : Db D) (context : Context) (application : Bytes)
    (authEpoch : Nat) : Bool :=
  context.application = some application && context.principal = some application &&
    currentApplication db context.environment application &&
    currentPrincipal db context.environment application authEpoch

section Digests

variable [DecidableEq D]

/-- `unnest(p_versions, p_digests)` joined on version and digest. -/
def supplies (supplied : List (SecretDigest D)) (digest : SecretDigest D) : Bool :=
  supplied.any fun candidate =>
    candidate.keyVersion = digest.keyVersion && candidate.bytes = digest.bytes

def lockApplicationVerificationClient (db : Db D) (context : Context) (application : Bytes)
    (authEpoch : Nat) (supplied : List (SecretDigest D)) : Option Nat :=
  if lockCurrentApplicationClient db context application authEpoch then
    (db.secrets.find? fun secret =>
      secret.environment = context.environment && supplies supplied secret.digest &&
        secret.application = application && secret.status = .active).map Secret.id
  else none

def lockClient (db : Db D) (context : Context) (client : ApplicationClient D) :
    Except ApiError Nat :=
  match lockApplicationVerificationClient db context client.application client.authEpoch
      client.authenticatedSecret with
  | none => .error .invalidClient
  | some secret => .ok secret

/-! ## Issue -/

def second : Nat := 1000000

/-- What is drawn for a key. -/
structure Draw (D : Type) where
  id : Nat
  digest : SecretDigest D

structure VerifiedKey where
  appId : Bytes
  validTill : Nat
deriving DecidableEq

/-- The constraints of the table on a new row. -/
def insertKey (db : Db D) (row : AccessKey D) : Option (Db D) :=
  if db.keys.any fun other =>
      database other.environment = database row.environment &&
        other.digest.keyVersion = row.digest.keyVersion && other.digest.bytes = row.digest.bytes then
    none
  else if row.environment.isNone ≠ row.generation.isNone then none
  else if row.generation = some 0 then none
  else if !(row.issuedAt + 60 * second ≤ row.expiresAt &&
      row.expiresAt ≤ row.issuedAt + 3600 * second) then
    none
  else (db.keys.insert row).map fun keys => { db with keys := keys }

/-- The row `issue_application_access_key` inserts. -/
def newAccessKey (context : Context) (application : Bytes) (secret authEpoch : Nat) (draw : Draw D)
    (ttlSeconds : Nat) (generation : Option Nat) (issued : Nat) : AccessKey D where
  environment := context.environment
  id := draw.id
  application := application
  secret := secret
  authEpoch := authEpoch
  digest := draw.digest
  generation := generation
  issuedAt := issued
  expiresAt := issued + ttlSeconds * second
  revokedAt := none

/-- The outer `none` is a raised exception, the inner one no row. -/
def issueApplicationAccessKey (db : Db D) (context : Context) (secretId authEpoch : Nat)
    (draw : Draw D) (ttlSeconds : Int) (generation : Option Nat) (issued : Nat) :
    Option (Option (AccessKey D × Db D)) :=
  match context.application with
  | none => none
  | some app =>
      if context.principal ≠ some app ∨ ¬ (60 ≤ ttlSeconds ∧ ttlSeconds ≤ 3600) ∨
          context.environment.isNone ≠ generation.isNone then
        none
      else if !lockCurrentApplicationClient db context app authEpoch then some none
      else if !(db.secrets.any fun secret =>
          secret.environment = context.environment && secret.id = secretId &&
            secret.application = app && secret.status = .active) then
        some none
      else
        let row :=
          newAccessKey context app secretId authEpoch draw ttlSeconds.toNat generation issued
        match insertKey db row with
        | none => none
        | some db => some (some (row, db))

def issue (db : Db D) (plane : Plane) (client : ApplicationClient D) (ttlSeconds : Int)
    (draw : Draw D) (issued : Nat) : Except ApiError (AccessKey D × Db D) :=
  if !(60 ≤ ttlSeconds && ttlSeconds ≤ 3600) then
    .error (.validation "ttl_seconds" "Lifetime must be between 60 and 3600 seconds inclusive.")
  else
    match applicationTransaction db plane client with
    | .error error => .error error
    | .ok context =>
        match lockClient db context client with
        | .error error => .error error
        | .ok secretId =>
            match issueApplicationAccessKey db context secretId client.authEpoch draw ttlSeconds
                (generation plane) issued with
            | none => .error (.internal "application_access_key_issue")
            | some none => .error .invalidClient
            | some (some issued) => .ok issued

/-- The `valid_till` and `app_id` of the response; the third field is the key itself. -/
def AccessKey.response (row : AccessKey D) : VerifiedKey where
  appId := row.application
  validTill := row.expiresAt

/-! ## Verify -/

structure VerifyRequest (D : Type) where
  appId : Bytes
  appAccessKey : Bytes
  digests : List (SecretDigest D)

def keyFormatIsValid (key : Bytes) : Bool :=
  key.length = 47 && (ascii "aak_").isPrefixOf key &&
    (key.drop 4).all fun c =>
      asciiLowercase c || (65 ≤ c && c ≤ 90) || asciiDigit c || c = 45 || c = 95

/-- The principal of a verified application, by its `app_id`. -/
def callerPrincipal (db : Db D) (environment : Option Nat) (appId : Bytes) : Option Principal :=
  if currentApplication db environment appId then
    db.principals.find? fun principal =>
      principal.environment = environment && principal.id = appId &&
        principal.kind = .application && principal.status = .active
  else none

/-- The joins of the lookup, at the time of its statement. -/
def confirmable (db : Db D) (environment : Option Nat) (caller : Principal)
    (supplied : List (SecretDigest D)) (generation : Option Nat) (now : Nat) (row : AccessKey D) :
    Bool :=
  supplies supplied row.digest &&
    (db.secrets.any fun secret =>
      secret.environment = environment && secret.id = row.secret &&
        secret.application = caller.id && secret.status = .active) &&
    row.application = caller.id && row.authEpoch = caller.authEpoch &&
    row.environment = environment && row.generation = generation && row.revokedAt.isNone &&
    now < row.expiresAt

/-- `now` is the clock of the lookup, `later` the clock after its locks. -/
def verifyApplicationAccessKey (db : Db D) (context : Context) (appId : Bytes)
    (supplied : List (SecretDigest D)) (generation : Option Nat) (now later : Nat) :
    Option (Option VerifiedKey) :=
  match context.application with
  | none => none
  | some receiver =>
      if context.principal ≠ some receiver ∨ context.environment.isNone ≠ generation.isNone then none
      else
        match callerPrincipal db context.environment appId with
        | none => some none
        | some caller =>
            match db.keys.find? (confirmable db context.environment caller supplied generation now)
            with
            | none => some none
            | some row => some (if later < row.expiresAt then some row.response else none)

def verify (db : Db D) (plane : Plane) (client : ApplicationClient D) (input : VerifyRequest D)
    (now later : Nat) : Except ApiError (Option VerifiedKey) :=
  match applicationTransaction db plane client with
  | .error error => .error error
  | .ok context =>
      match lockClient db context client with
      | .error error => .error error
      | .ok _ =>
          if (Domain.localAppId input.appId).isOk && keyFormatIsValid input.appAccessKey then
            match verifyApplicationAccessKey db context input.appId input.digests
                (generation plane) now later with
            | none => .error (.internal "application_access_key_verify")
            | some answer => .ok answer
          else .ok none

end Digests

/-! ## Revocation -/

/-- `UPDATE … SET revoked_at = … WHERE … AND revoked_at IS NULL`, within the plane. -/
def revokeKeys (keys : Table (AccessKey.key (D := D))) (environment : Option Nat)
    (p : AccessKey D → Bool) (now : Nat) : Table (AccessKey.key (D := D)) :=
  keys.update (fun row => row.environment = environment && p row && row.revokedAt.isNone)
    (fun row => { row with revokedAt := some now }) fun _ => rfl

section Triggers

variable [DecidableEq D]

/-- The secret trigger: a status that is no longer active, or another digest. -/
def secretRevokes (old : Secret D) (status : SecretStatus) (digest : SecretDigest D) : Bool :=
  (status ≠ old.status && status ≠ .active) || digest.bytes ≠ old.digest.bytes

def updateSecret (db : Db D) (environment : Option Nat) (id : Nat) (status : SecretStatus)
    (digest : SecretDigest D) (now : Nat) : Db D :=
  match db.secrets.find? fun secret => secret.environment = environment && secret.id = id with
  | none => db
  | some old =>
      { db with
        secrets := db.secrets.update
          (fun secret => secret.environment = environment && secret.id = id)
          (fun secret => { secret with status := status, digest := digest }) fun _ => rfl
        keys :=
          if secretRevokes old status digest then
            revokeKeys db.keys environment (fun row => row.secret = id) now
          else db.keys }

end Triggers

/-- The principal trigger: not active any more, or another epoch. -/
def principalRevokes (old : Principal) (status : PrincipalStatus) (authEpoch : Nat) : Bool :=
  old.kind = .application && (status ≠ .active || authEpoch ≠ old.authEpoch)

def updatePrincipal (db : Db D) (environment : Option Nat) (id : Bytes) (status : PrincipalStatus)
    (authEpoch now : Nat) : Db D :=
  match db.principals.find? fun principal =>
      principal.environment = environment && principal.id = id with
  | none => db
  | some old =>
      { db with
        principals := db.principals.update
          (fun principal => principal.environment = environment && principal.id = id)
          (fun principal => { principal with status := status, authEpoch := authEpoch })
          fun _ => rfl
        keys :=
          if principalRevokes old status authEpoch then
            revokeKeys db.keys environment (fun row => row.application = id) now
          else db.keys }

/-- The application trigger: not verified, or deleted. -/
def applicationRevokes (reviewStatus : ReviewStatus) (deletedAt : Option Nat) : Bool :=
  reviewStatus ≠ .verified || deletedAt.isSome

def updateApplication (db : Db D) (environment : Option Nat) (id : Bytes)
    (reviewStatus : ReviewStatus) (deletedAt : Option Nat) (now : Nat) : Db D :=
  match db.applications.find? fun application =>
      application.environment = environment && application.id = id with
  | none => db
  | some _ =>
      { db with
        applications := db.applications.update
          (fun application => application.environment = environment && application.id = id)
          (fun application =>
            { application with reviewStatus := reviewStatus, deletedAt := deletedAt })
          fun _ => rfl
        keys :=
          if applicationRevokes reviewStatus deletedAt then
            revokeKeys db.keys environment (fun row => row.application = id) now
          else db.keys }

/-! ## The other writes -/

def insertPrincipal (db : Db D) (row : Principal) : Option (Db D) :=
  (db.principals.insert row).map fun principals => { db with principals := principals }

/-- `applications_principal_fk`. -/
def insertApplication (db : Db D) (row : Application) : Option (Db D) :=
  if db.principals.any fun principal =>
      principal.environment = row.environment && principal.id = row.id &&
        principal.kind = .application then
    (db.applications.insert row).map fun applications => { db with applications := applications }
  else none

/-- `application_secrets_application_fk`. -/
def insertSecret (db : Db D) (row : Secret D) : Option (Db D) :=
  if db.applications.any fun application =>
      application.environment = row.environment && application.id = row.application then
    (db.secrets.insert row).map fun secrets => { db with secrets := secrets }
  else none

/-- `ON DELETE RESTRICT` from the applications. -/
def deletePrincipal (db : Db D) (environment : Option Nat) (id : Bytes) : Db D :=
  if db.applications.any fun application =>
      application.environment = environment && application.id = id then
    db
  else
    { db with
      principals := db.principals.restrict fun principal =>
        !(principal.environment = environment && principal.id = id) }

/-- `ON DELETE RESTRICT` from the secrets. -/
def deleteApplication (db : Db D) (environment : Option Nat) (id : Bytes) : Db D :=
  if db.secrets.any fun secret =>
      secret.environment = environment && secret.application = id then
    db
  else
    { db with
      applications := db.applications.restrict fun application =>
        !(application.environment = environment && application.id = id) }

/-- The keys a secret minted go with it (`ON DELETE CASCADE`). -/
def deleteSecret (db : Db D) (environment : Option Nat) (id : Nat) : Db D :=
  { db with
    secrets := db.secrets.restrict fun secret =>
      !(secret.environment = environment && secret.id = id)
    keys := db.keys.restrict fun row => !(row.environment = environment && row.secret = id) }

/-- The retention phase removes some of the keys that expired before the cutoff. -/
def retainKeys (db : Db D) (ids : List Nat) (cutoff : Nat) : Db D :=
  { db with
    keys := db.keys.restrict fun row => !(ids.contains row.id && row.expiresAt < cutoff) }

def setTestingRuntimeState (db : Db D) (state : RuntimeState) : Db D :=
  match (db.runtime.restrict fun row => row.environment ≠ state.environment).insert state with
  | none => db
  | some runtime => { db with runtime := runtime }

def eraseTestingEnvironment (db : Db D) (environment : Nat) : Db D :=
  { db with
    principals := db.principals.restrict fun row => row.environment ≠ some environment
    applications := db.applications.restrict fun row => row.environment ≠ some environment
    secrets := db.secrets.restrict fun row => row.environment ≠ some environment
    keys := db.keys.restrict fun row => row.environment ≠ some environment }

/-! ## Transactions -/

/-- A verification changes nothing, so it is no event of its own. -/
inductive Event (D : Type) where
  | issue (plane : Plane) (client : ApplicationClient D) (ttlSeconds : Int) (draw : Draw D)
      (issued : Nat)
  | insertPrincipal (row : Principal)
  | updatePrincipal (environment : Option Nat) (id : Bytes) (status : PrincipalStatus)
      (authEpoch now : Nat)
  | deletePrincipal (environment : Option Nat) (id : Bytes)
  | insertApplication (row : Application)
  | updateApplication (environment : Option Nat) (id : Bytes) (reviewStatus : ReviewStatus)
      (deletedAt : Option Nat) (now : Nat)
  | deleteApplication (environment : Option Nat) (id : Bytes)
  | insertSecret (row : Secret D)
  | updateSecret (environment : Option Nat) (id : Nat) (status : SecretStatus)
      (digest : SecretDigest D) (now : Nat)
  | deleteSecret (environment : Option Nat) (id : Nat)
  | retainKeys (ids : List Nat) (cutoff : Nat)
  | setTestingRuntimeState (state : RuntimeState)
  | eraseTestingEnvironment (environment : Nat)

section Next

variable [DecidableEq D]

/-- One transaction; a refused one is rolled back. -/
def next (db : Db D) : Event D → Db D
  | .issue plane client ttlSeconds draw issued =>
      match issue db plane client ttlSeconds draw issued with
      | .error _ => db
      | .ok (_, db) => db
  | .insertPrincipal row => (insertPrincipal db row).getD db
  | .updatePrincipal environment id status authEpoch now =>
      updatePrincipal db environment id status authEpoch now
  | .deletePrincipal environment id => deletePrincipal db environment id
  | .insertApplication row => (insertApplication db row).getD db
  | .updateApplication environment id reviewStatus deletedAt now =>
      updateApplication db environment id reviewStatus deletedAt now
  | .deleteApplication environment id => deleteApplication db environment id
  | .insertSecret row => (insertSecret db row).getD db
  | .updateSecret environment id status digest now =>
      updateSecret db environment id status digest now
  | .deleteSecret environment id => deleteSecret db environment id
  | .retainKeys ids cutoff => retainKeys db ids cutoff
  | .setTestingRuntimeState state => setTestingRuntimeState db state
  | .eraseTestingEnvironment environment => eraseTestingEnvironment db environment

/-- `event` is a successful issue of `row`. -/
def Issues (db : Db D) (event : Event D) (row : AccessKey D) : Prop :=
  ∃ plane client ttlSeconds draw issued after,
    event = .issue plane client ttlSeconds draw issued ∧
      issue db plane client ttlSeconds draw issued = .ok (row, after)

end Next

end SiliconIam.Auth.AccessKeys
