/-
# Auth.AccessKeyValidity -- what a confirmed access key proves

`unrevoked_next` is the step: a key that is unrevoked after a transaction was
issued by it or was unrevoked before, and what it rests on went through the
transaction unchanged (`Backed`).  Each kind of transaction has its lemma; the
three triggers are what the updates need, and the foreign keys what the
deletions need.  `unrevoked_issued` carries the step over a run, and
`access_keys_confirm` says what a confirmation proves.
-/
import SiliconIam.Auth.AccessKeys

namespace SiliconIam.Auth.AccessKeys

open SiliconIam.Theory
open SiliconIam.Theory.Hex (Bytes ascii)
open SiliconIam.Crypto (SecretDigest)
open SiliconIam.Auth.Authority (PrincipalStatus)

set_option autoImplicit false

variable {D : Type}

/-! ## What a key rests on -/

/-- The secret that minted `row` is active with the digest it had, and its application
is verified and current under the epoch of the key. -/
structure Backed (db : Db D) (digest : D) (row : AccessKey D) : Prop where
  secret : ∃ secret ∈ db.secrets, secret.environment = row.environment ∧ secret.id = row.secret ∧
    secret.application = row.application ∧ secret.status = .active ∧ secret.digest.bytes = digest
  application : ∃ application ∈ db.applications, application.environment = row.environment ∧
    application.id = row.application ∧ application.reviewStatus = .verified ∧
    application.deletedAt = none
  principal : ∃ principal ∈ db.principals, principal.environment = row.environment ∧
    principal.id = row.application ∧ principal.kind = .application ∧
    principal.status = .active ∧ principal.authEpoch = row.authEpoch

/-! ## What one transaction leaves unrevoked -/

/-- Every key that is unrevoked afterwards was there before, and what it rests on was
not touched. -/
def Survives (db after : Db D) : Prop :=
  ∀ row ∈ after.keys, row.revokedAt = none →
    row ∈ db.keys ∧ ∀ digest, Backed db digest row → Backed after digest row

theorem Survives.refl (db : Db D) : Survives db db :=
  fun _ mem _ => ⟨mem, fun _ backed => backed⟩

variable {db after : Db D} {row : AccessKey D}

theorem Backed.of_kept {digest : D} (backed : Backed db digest row)
    (secrets : ∀ secret ∈ db.secrets, secret.environment = row.environment →
      secret ∈ after.secrets)
    (applications : ∀ application ∈ db.applications, application.environment = row.environment →
      application ∈ after.applications)
    (principals : ∀ principal ∈ db.principals, principal.environment = row.environment →
      principal ∈ after.principals) :
    Backed after digest row := by
  obtain ⟨secret, secretMem, secretHolds⟩ := backed.secret
  obtain ⟨application, applicationMem, applicationHolds⟩ := backed.application
  obtain ⟨principal, principalMem, principalHolds⟩ := backed.principal
  exact
    { secret := ⟨secret, secrets secret secretMem secretHolds.1, secretHolds⟩
      application :=
        ⟨application, applications application applicationMem applicationHolds.1, applicationHolds⟩
      principal := ⟨principal, principals principal principalMem principalHolds.1, principalHolds⟩ }

/-- No key is added and nothing a key may rest on is lost. -/
theorem Survives.of_subset (keys : ∀ row ∈ after.keys, row ∈ db.keys)
    (secrets : ∀ secret ∈ db.secrets, secret ∈ after.secrets)
    (applications : ∀ application ∈ db.applications, application ∈ after.applications)
    (principals : ∀ principal ∈ db.principals, principal ∈ after.principals) :
    Survives db after :=
  fun row mem _ => ⟨keys row mem, fun _ backed =>
    backed.of_kept (fun _ held _ => secrets _ held) (fun _ held _ => applications _ held)
      fun _ held _ => principals _ held⟩

variable {environment : Option Nat}

theorem of_mem_revokeKeys {keys : Table (AccessKey.key (D := D))}
    {p : AccessKey D → Bool} {now : Nat}
    (mem : row ∈ revokeKeys keys environment p now) (unrevoked : row.revokedAt = none) :
    row ∈ keys ∧ ¬ (row.environment = environment ∧ p row = true) := by
  obtain ⟨old, held, rfl⟩ := Table.mem_update.mp mem
  split at unrevoked
  · cases unrevoked
  · next spared =>
      rw [if_neg spared]
      refine ⟨held, ?_⟩
      rintro ⟨same, picked⟩
      exact spared (by simp [same, picked, unrevoked])

/-- An unrevoked key escaped the trigger: it was there before, and the trigger did not
fire or was not about it. -/
theorem of_mem_triggered {keys : Table (AccessKey.key (D := D))}
    {fires : Bool} {p : AccessKey D → Bool} {now : Nat}
    (mem : row ∈ if fires = true then revokeKeys keys environment p now else keys)
    (unrevoked : row.revokedAt = none) :
    row ∈ keys ∧ (row.environment = environment → p row = true → fires = false) := by
  cases fires with
  | false => exact ⟨mem, fun _ _ => rfl⟩
  | true =>
      obtain ⟨held, spared⟩ := of_mem_revokeKeys mem unrevoked
      exact ⟨held, fun same picked => absurd ⟨same, picked⟩ spared⟩

theorem updateSecret_survives [DecidableEq D] (db : Db D) (environment : Option Nat) (id : Nat)
    (status : SecretStatus) (digest : SecretDigest D) (now : Nat) :
    Survives db (updateSecret db environment id status digest now) := by
  unfold updateSecret
  split
  · exact .refl db
  · next old found =>
      obtain ⟨oldMem, oldHere⟩ := Table.find?_spec found
      simp only [Bool.and_eq_true, decide_eq_true_eq] at oldHere
      intro row mem unrevoked
      obtain ⟨held, escaped⟩ := of_mem_triggered mem unrevoked
      refine ⟨held, fun minted backed => ?_⟩
      obtain ⟨secret, secretMem, sameEnvironment, sameId, owner, active, sameDigest⟩ :=
        backed.secret
      refine
        { secret := ⟨_, Table.mem_update_of_mem (by exact fun _ => rfl) secretMem, ?_⟩
          application := backed.application
          principal := backed.principal }
      by_cases here : secret.environment = environment ∧ secret.id = id
      · -- The secret behind the key is the one updated, so the trigger let the update pass.
        have same : secret = old := by
          apply Table.unique secretMem oldMem
          rw [Secret.key, Secret.key, here.1, here.2, oldHere.1, oldHere.2]
        have quiet : secretRevokes old status digest = false :=
          escaped (sameEnvironment.symm.trans here.1)
            (by simpa using sameId.symm.trans here.2)
        rw [← same] at quiet
        simp only [secretRevokes, Bool.or_eq_false_iff, Bool.and_eq_false_iff,
          decide_eq_false_iff_not, ne_eq, Decidable.not_not] at quiet
        have stays : status = .active := by
          rcases quiet.1 with unchanged | stays
          · exact unchanged.trans active
          · exact stays
        rw [if_pos (by simp [here])]
        exact ⟨sameEnvironment, sameId, owner, stays, quiet.2.trans sameDigest⟩
      · rw [if_neg (by simpa using here)]
        exact ⟨sameEnvironment, sameId, owner, active, sameDigest⟩

theorem updatePrincipal_survives (db : Db D) (environment : Option Nat) (id : Bytes)
    (status : PrincipalStatus) (authEpoch now : Nat) :
    Survives db (updatePrincipal db environment id status authEpoch now) := by
  unfold updatePrincipal
  split
  · exact .refl db
  · next old found =>
      obtain ⟨oldMem, oldHere⟩ := Table.find?_spec found
      simp only [Bool.and_eq_true, decide_eq_true_eq] at oldHere
      intro row mem unrevoked
      obtain ⟨held, escaped⟩ := of_mem_triggered mem unrevoked
      refine ⟨held, fun minted backed => ?_⟩
      obtain ⟨principal, principalMem, sameEnvironment, sameId, kind, active, epoch⟩ :=
        backed.principal
      refine
        { secret := backed.secret
          application := backed.application
          principal := ⟨_, Table.mem_update_of_mem (by exact fun _ => rfl) principalMem, ?_⟩ }
      by_cases here : principal.environment = environment ∧ principal.id = id
      · have same : principal = old := by
          apply Table.unique principalMem oldMem
          rw [Principal.key, Principal.key, here.1, here.2, oldHere.1, oldHere.2]
        have quiet : principalRevokes old status authEpoch = false :=
          escaped (sameEnvironment.symm.trans here.1)
            (by simpa using sameId.symm.trans here.2)
        rw [← same] at quiet
        simp only [principalRevokes, kind, decide_true, Bool.true_and, Bool.or_eq_false_iff,
          decide_eq_false_iff_not, ne_eq, Decidable.not_not] at quiet
        rw [if_pos (by simp [here])]
        exact ⟨sameEnvironment, sameId, kind, quiet.1, quiet.2.trans epoch⟩
      · rw [if_neg (by simpa using here)]
        exact ⟨sameEnvironment, sameId, kind, active, epoch⟩

theorem updateApplication_survives (db : Db D) (environment : Option Nat) (id : Bytes)
    (reviewStatus : ReviewStatus) (deletedAt : Option Nat) (now : Nat) :
    Survives db (updateApplication db environment id reviewStatus deletedAt now) := by
  unfold updateApplication
  split
  · exact .refl db
  · intro row mem unrevoked
    obtain ⟨held, escaped⟩ := of_mem_triggered mem unrevoked
    refine ⟨held, fun minted backed => ?_⟩
    obtain ⟨application, applicationMem, sameEnvironment, sameId, verified, kept⟩ :=
      backed.application
    refine
      { secret := backed.secret
        application := ⟨_, Table.mem_update_of_mem (by exact fun _ => rfl) applicationMem, ?_⟩
        principal := backed.principal }
    by_cases here : application.environment = environment ∧ application.id = id
    · have quiet : applicationRevokes reviewStatus deletedAt = false :=
        escaped (sameEnvironment.symm.trans here.1) (by simpa using sameId.symm.trans here.2)
      simp only [applicationRevokes, Bool.or_eq_false_iff, decide_eq_false_iff_not, ne_eq,
        Decidable.not_not, Option.isSome_eq_false_iff, Option.isNone_iff_eq_none] at quiet
      rw [if_pos (by simp [here])]
      exact ⟨sameEnvironment, sameId, quiet.1, quiet.2⟩
    · rw [if_neg (by simpa using here)]
      exact ⟨sameEnvironment, sameId, verified, kept⟩

theorem insertPrincipal_survives {row : Principal}
    (done : insertPrincipal db row = some after) : Survives db after := by
  obtain ⟨principals, inserted, rfl⟩ := Option.map_eq_some_iff.mp done
  exact .of_subset (fun _ => id) (fun _ => id) (fun _ => id)
    fun principal held => ((Table.insert_spec inserted).2 principal).mpr (.inr held)

theorem insertApplication_survives {row : Application}
    (done : insertApplication db row = some after) : Survives db after := by
  unfold insertApplication at done
  split at done
  · obtain ⟨applications, inserted, rfl⟩ := Option.map_eq_some_iff.mp done
    exact .of_subset (fun _ => id) (fun _ => id)
      (fun application held => ((Table.insert_spec inserted).2 application).mpr (.inr held))
      fun _ => id
  · cases done

theorem insertSecret_survives {row : Secret D}
    (done : insertSecret db row = some after) : Survives db after := by
  unfold insertSecret at done
  split at done
  · obtain ⟨secrets, inserted, rfl⟩ := Option.map_eq_some_iff.mp done
    exact .of_subset (fun _ => id)
      (fun secret held => ((Table.insert_spec inserted).2 secret).mpr (.inr held))
      (fun _ => id) fun _ => id
  · cases done

/-- A principal that backs a key has an application, so it is not deleted. -/
theorem deletePrincipal_survives (db : Db D) (environment : Option Nat) (id : Bytes) :
    Survives db (deletePrincipal db environment id) := by
  unfold deletePrincipal
  split
  · exact .refl db
  · next unreferenced =>
      intro row mem _
      refine ⟨mem, fun minted backed => ?_⟩
      obtain ⟨application, applicationMem, sameEnvironment, sameId, -⟩ := backed.application
      obtain ⟨principal, principalMem, here, owner, holds⟩ := backed.principal
      refine
        { secret := backed.secret
          application := backed.application
          principal := ⟨principal, Table.mem_restrict.mpr ⟨principalMem, ?_⟩, here, owner, holds⟩ }
      by_contra dropped
      simp only [Bool.not_eq_true, Bool.not_eq_false', Bool.and_eq_true,
        decide_eq_true_eq] at dropped
      apply unreferenced
      apply Table.any_eq_true.mpr
      refine ⟨application, applicationMem, ?_⟩
      simp [sameEnvironment, sameId, ← here, ← owner, dropped]

/-- An application that backs a key has a secret, so it is not deleted. -/
theorem deleteApplication_survives (db : Db D) (environment : Option Nat) (id : Bytes) :
    Survives db (deleteApplication db environment id) := by
  unfold deleteApplication
  split
  · exact .refl db
  · next unreferenced =>
      intro row mem _
      refine ⟨mem, fun minted backed => ?_⟩
      obtain ⟨secret, secretMem, sameEnvironment, -, owner, -⟩ := backed.secret
      obtain ⟨application, applicationMem, here, sameId, holds⟩ := backed.application
      refine
        { secret := backed.secret
          application :=
            ⟨application, Table.mem_restrict.mpr ⟨applicationMem, ?_⟩, here, sameId, holds⟩
          principal := backed.principal }
      by_contra dropped
      simp only [Bool.not_eq_true, Bool.not_eq_false', Bool.and_eq_true,
        decide_eq_true_eq] at dropped
      apply unreferenced
      apply Table.any_eq_true.mpr
      refine ⟨secret, secretMem, ?_⟩
      simp [sameEnvironment, owner, ← here, ← sameId, dropped]

theorem deleteSecret_survives (db : Db D) (environment : Option Nat) (id : Nat) :
    Survives db (deleteSecret db environment id) := by
  intro row mem _
  obtain ⟨held, kept⟩ := Table.mem_restrict.mp mem
  refine ⟨held, fun minted backed => ?_⟩
  obtain ⟨secret, secretMem, sameEnvironment, sameId, holds⟩ := backed.secret
  refine
    { secret := ⟨secret, Table.mem_restrict.mpr ⟨secretMem, ?_⟩, sameEnvironment, sameId, holds⟩
      application := backed.application
      principal := backed.principal }
  rw [sameEnvironment, sameId]
  exact kept

theorem retainKeys_survives (db : Db D) (ids : List Nat) (cutoff : Nat) :
    Survives db (retainKeys db ids cutoff) :=
  .of_subset (fun _ mem => (Table.mem_restrict.mp mem).1) (fun _ => id) (fun _ => id) fun _ => id

theorem setTestingRuntimeState_survives (db : Db D) (state : RuntimeState) :
    Survives db (setTestingRuntimeState db state) := by
  unfold setTestingRuntimeState
  split
  · exact .refl db
  · exact .of_subset (fun _ => id) (fun _ => id) (fun _ => id) fun _ => id

theorem eraseTestingEnvironment_survives (db : Db D) (environment : Nat) :
    Survives db (eraseTestingEnvironment db environment) := by
  intro row mem _
  obtain ⟨held, elsewhere⟩ := Table.mem_restrict.mp mem
  refine ⟨held, fun _ backed => backed.of_kept ?_ ?_ ?_⟩ <;>
    exact fun _ mem here => Table.mem_restrict.mpr ⟨mem, by rw [here]; exact elsewhere⟩

/-! ## Issuing -/

theorem currentApplication_spec {appId : Bytes}
    (current : currentApplication db environment appId = true) :
    ∃ application ∈ db.applications, application.environment = environment ∧
      application.id = appId ∧ application.reviewStatus = .verified ∧
      application.deletedAt = none := by
  obtain ⟨application, mem, holds⟩ := Table.any_spec current
  simp only [Bool.and_eq_true, decide_eq_true_eq, Option.isNone_iff_eq_none] at holds
  exact ⟨application, mem, holds.1.1.1, holds.1.1.2, holds.1.2, holds.2⟩

theorem currentPrincipal_spec {appId : Bytes} {epoch : Nat}
    (current : currentPrincipal db environment appId epoch = true) :
    ∃ principal ∈ db.principals, principal.environment = environment ∧ principal.id = appId ∧
      principal.kind = .application ∧ principal.status = .active ∧
      principal.authEpoch = epoch := by
  obtain ⟨principal, mem, holds⟩ := Table.any_spec current
  simp only [Bool.and_eq_true, decide_eq_true_eq] at holds
  exact ⟨principal, mem, holds.1.1.1.1, holds.1.1.1.2, holds.1.1.2, holds.1.2, holds.2⟩

theorem applicationTransaction_ok {plane : Plane} {client : ApplicationClient D}
    {context : Context} (begun : applicationTransaction db plane client = .ok context) :
    context.environment = plane.environment ∧ context.application = some client.application := by
  unfold applicationTransaction at begun
  split at begun
  · cases begun
    exact ⟨rfl, rfl⟩
  · cases begun

section Issuing

variable [DecidableEq D]

theorem insertKey_spec (done : insertKey db row = some after) :
    ∃ keys, db.keys.insert row = some keys ∧ after = { db with keys := keys } := by
  unfold insertKey at done
  split at done
  · cases done
  · split at done
    · cases done
    · split at done
      · cases done
      · split at done
        · cases done
        · obtain ⟨keys, inserted, rfl⟩ := Option.map_eq_some_iff.mp done
          exact ⟨keys, inserted, rfl⟩

theorem issueApplicationAccessKey_spec {context : Context}
    {secretId authEpoch : Nat} {draw : Draw D} {ttlSeconds : Int} {generation : Option Nat}
    {issued : Nat}
    (done : issueApplicationAccessKey db context secretId authEpoch draw ttlSeconds generation
      issued = some (some (row, after))) :
    ∃ app, context.application = some app ∧
      row = newAccessKey context app secretId authEpoch draw ttlSeconds.toNat generation issued ∧
      currentApplication db context.environment app = true ∧
      currentPrincipal db context.environment app authEpoch = true ∧
      (∃ secret ∈ db.secrets, secret.environment = context.environment ∧ secret.id = secretId ∧
        secret.application = app ∧ secret.status = .active) ∧
      insertKey db row = some after := by
  unfold issueApplicationAccessKey at done
  split at done
  · cases done
  · next app here =>
      split at done
      · cases done
      · split at done
        · cases done
        · next locked =>
            simp only [lockCurrentApplicationClient, Bool.not_eq_true', Bool.not_eq_false,
              Bool.and_eq_true, decide_eq_true_eq] at locked
            split at done
            · cases done
            · next found =>
                simp only [Bool.not_eq_true', Bool.not_eq_false] at found
                dsimp only at done
                obtain ⟨secret, secretMem, secretHolds⟩ := Table.any_spec found
                simp only [Bool.and_eq_true, decide_eq_true_eq] at secretHolds
                split at done
                · cases done
                · next inserted =>
                    cases done
                    exact ⟨app, here, rfl, locked.1.2, locked.2,
                      ⟨secret, secretMem, secretHolds.1.1.1, secretHolds.1.1.2,
                        secretHolds.1.2, secretHolds.2⟩, inserted⟩

theorem lockClient_spec {context : Context} {client : ApplicationClient D} {id : Nat}
    (locked : lockClient db context client = .ok id) :
    ∃ secret ∈ db.secrets, secret.environment = context.environment ∧ secret.id = id ∧
      secret.application = client.application ∧ secret.status = .active ∧
      supplies client.authenticatedSecret secret.digest = true := by
  unfold lockClient at locked
  split at locked
  · cases locked
  · next secret found =>
      cases locked
      unfold lockApplicationVerificationClient at found
      split at found
      · obtain ⟨secret, chosen, rfl⟩ := Option.map_eq_some_iff.mp found
        obtain ⟨mem, holds⟩ := Table.find?_spec chosen
        simp only [Bool.and_eq_true, decide_eq_true_eq] at holds
        exact ⟨secret, mem, holds.1.1.1, rfl, holds.1.2, holds.2, holds.1.1.2⟩
      · cases found

/-- What a request that is issued a key has shown, and the row it gets. -/
structure Minted (db : Db D) (plane : Plane) (client : ApplicationClient D) (secret : Secret D)
    (row : AccessKey D) : Prop where
  environment : row.environment = plane.environment
  generation : row.generation = generation plane
  application : row.application = client.application
  authEpoch : row.authEpoch = client.authEpoch
  held : secret ∈ db.secrets
  named : secret.environment = row.environment ∧ secret.id = row.secret
  presented : supplies client.authenticatedSecret secret.digest = true
  backed : Backed db secret.digest.bytes row

theorem issue_spec {plane : Plane} {client : ApplicationClient D}
    {ttlSeconds : Int} {draw : Draw D} {issued : Nat}
    (done : issue db plane client ttlSeconds draw issued = .ok (row, after)) :
    (∃ secret, Minted db plane client secret row) ∧
      row.issuedAt = issued ∧ row.expiresAt = issued + ttlSeconds.toNat * second ∧
      insertKey db row = some after := by
  unfold issue at done
  split at done
  · cases done
  · split at done
    · cases done
    · next context begun =>
        obtain ⟨environment, application⟩ := applicationTransaction_ok begun
        split at done
        · cases done
        · next secretId locked =>
            obtain ⟨secret, secretMem, here, sameId, owner, active, presented⟩ :=
              lockClient_spec locked
            split at done
            · cases done
            · cases done
            · next answer inserted =>
                cases done
                obtain ⟨app, sameApp, rfl, currentApp, currentEpoch, -, stored⟩ :=
                  issueApplicationAccessKey_spec inserted
                obtain rfl : client.application = app :=
                  Option.some.inj (application.symm.trans sameApp)
                refine ⟨⟨secret, ?_⟩, rfl, rfl, stored⟩
                exact
                  { environment := environment
                    generation := rfl
                    application := rfl
                    authEpoch := rfl
                    held := secretMem
                    named := ⟨here, sameId⟩
                    presented := presented
                    backed :=
                      { secret := ⟨secret, secretMem, here, sameId, owner, active, rfl⟩
                        application := currentApplication_spec currentApp
                        principal := currentPrincipal_spec currentEpoch } }

/-! ## Runs -/

/-- The step: a key that is unrevoked afterwards was issued by this transaction, or
survives it. -/
theorem unrevoked_next {event : Event D}
    (mem : row ∈ (next db event).keys) (unrevoked : row.revokedAt = none) :
    (Issues db event row ∨ row ∈ db.keys) ∧
      ∀ digest, Backed db digest row → Backed (next db event) digest row := by
  have survives (after : Db D) (kept : Survives db after) (same : next db event = after) :
      (Issues db event row ∨ row ∈ db.keys) ∧
        ∀ digest, Backed db digest row → Backed (next db event) digest row := by
    rw [same] at mem ⊢
    exact ⟨.inr (kept row mem unrevoked).1, (kept row mem unrevoked).2⟩
  have optional (done : Option (Db D)) (kept : ∀ after, done = some after → Survives db after)
      (same : next db event = done.getD db) :
      (Issues db event row ∨ row ∈ db.keys) ∧
        ∀ digest, Backed db digest row → Backed (next db event) digest row := by
    cases found : done with
    | none => exact survives db (.refl db) (by rw [same, found]; rfl)
    | some after => exact survives after (kept after found) (by rw [same, found]; rfl)
  cases event with
  | issue plane client ttlSeconds draw issued =>
      cases done : issue db plane client ttlSeconds draw issued with
      | error error => exact survives db (.refl db) (by rw [next, done])
      | ok result =>
          obtain ⟨made, after⟩ := result
          have same : next db (.issue plane client ttlSeconds draw issued) = after := by
            rw [next, done]
          obtain ⟨-, -, -, inserted⟩ := issue_spec done
          obtain ⟨keys, stored, rfl⟩ := insertKey_spec inserted
          rw [same] at mem ⊢
          refine ⟨?_, fun _ backed => ⟨backed.secret, backed.application, backed.principal⟩⟩
          rcases ((Table.insert_spec stored).2 row).mp mem with rfl | held
          · exact .inl ⟨plane, client, ttlSeconds, draw, issued, _, rfl, done⟩
          · exact .inr held
  | insertPrincipal principal =>
      exact optional _ (fun _ => insertPrincipal_survives) rfl
  | insertApplication application =>
      exact optional _ (fun _ => insertApplication_survives) rfl
  | insertSecret secret => exact optional _ (fun _ => insertSecret_survives) rfl
  | updatePrincipal environment id status authEpoch now =>
      exact survives _ (updatePrincipal_survives db environment id status authEpoch now) rfl
  | updateApplication environment id reviewStatus deletedAt now =>
      exact
        survives _ (updateApplication_survives db environment id reviewStatus deletedAt now) rfl
  | updateSecret environment id status digest now =>
      exact survives _ (updateSecret_survives db environment id status digest now) rfl
  | deletePrincipal environment id =>
      exact survives _ (deletePrincipal_survives db environment id) rfl
  | deleteApplication environment id =>
      exact survives _ (deleteApplication_survives db environment id) rfl
  | deleteSecret environment id =>
      exact survives _ (deleteSecret_survives db environment id) rfl
  | retainKeys ids cutoff => exact survives _ (retainKeys_survives db ids cutoff) rfl
  | setTestingRuntimeState state =>
      exact survives _ (setTestingRuntimeState_survives db state) rfl
  | eraseTestingEnvironment environment =>
      exact survives _ (eraseTestingEnvironment_survives db environment) rfl

/-- The run: a key that is unrevoked at the end was issued by one of the transactions,
and what it rests on has been the same in every state since. -/
theorem unrevoked_issued (events : List (Event D))
    (mem : row ∈ (Runs.after next Db.empty events).keys) (unrevoked : row.revokedAt = none) :
    ∃ before event rest, events = before ++ event :: rest ∧
      Issues (Runs.after next Db.empty before) event row ∧
      ∀ digest, Backed (Runs.after next Db.empty before) digest row →
        ∀ taken, taken <+: rest →
          Backed (Runs.after next Db.empty (before ++ event :: taken)) digest row :=
  @Runs.after_since _ _ next _ (fun db => row ∈ db.keys) (fun db event => Issues db event row)
    (fun digest db => Backed db digest row) (fun _ _ held => unrevoked_next held unrevoked) _
    Table.not_mem_empty events mem

/-! ## What a confirmation proves -/

/-- The key a verification finds, and its answer. -/
structure Confirms (db : Db D) (plane : Plane) (input : VerifyRequest D) (later : Nat)
    (answer : VerifiedKey) (row : AccessKey D) : Prop where
  stored : row ∈ db.keys
  unrevoked : row.revokedAt = none
  presented : supplies input.digests row.digest = true
  application : row.application = input.appId
  environment : row.environment = plane.environment
  generation : row.generation = generation plane
  fenced : checkTestingGeneration db plane = true
  unexpired : later < row.expiresAt
  answer : answer = row.response

theorem verifyApplicationAccessKey_spec {context : Context} {appId : Bytes}
    {supplied : List (SecretDigest D)} {generation : Option Nat} {now later : Nat}
    {answer : VerifiedKey}
    (found : verifyApplicationAccessKey db context appId supplied generation now later =
      some (some answer)) :
    ∃ row ∈ db.keys, row.revokedAt = none ∧ supplies supplied row.digest = true ∧
      row.application = appId ∧ row.environment = context.environment ∧
      row.generation = generation ∧ later < row.expiresAt ∧ answer = row.response := by
  unfold verifyApplicationAccessKey at found
  split at found
  · cases found
  · split at found
    · cases found
    · split at found
      · cases found
      · next caller resolved =>
          split at found
          · cases found
          · next row chosen =>
              split at found
              · next alive =>
                  cases found
                  unfold callerPrincipal at resolved
                  split at resolved
                  · obtain ⟨-, isCaller⟩ := Table.find?_spec resolved
                    simp only [Bool.and_eq_true, decide_eq_true_eq] at isCaller
                    obtain ⟨mem, holds⟩ := Table.find?_spec chosen
                    simp only [confirmable, Bool.and_eq_true, decide_eq_true_eq,
                      Option.isNone_iff_eq_none] at holds
                    obtain ⟨⟨⟨⟨⟨⟨⟨presented, -⟩, owner⟩, -⟩, here⟩, sameGeneration⟩, unrevoked⟩,
                      -⟩ := holds
                    exact ⟨row, mem, unrevoked, presented, owner.trans isCaller.1.1.2, here,
                      sameGeneration, alive, rfl⟩
                  · cases resolved
              · cases found

theorem verify_spec {plane : Plane} {client : ApplicationClient D}
    {input : VerifyRequest D} {now later : Nat} {answer : VerifiedKey}
    (confirmed : verify db plane client input now later = .ok (some answer)) :
    ∃ row, Confirms db plane input later answer row := by
  unfold verify at confirmed
  split at confirmed
  · cases confirmed
  · next context begun =>
      have environment := (applicationTransaction_ok begun).1
      have fenced : checkTestingGeneration db plane = true := by
        unfold applicationTransaction at begun
        split at begun
        · next fenced => exact fenced
        · cases begun
      split at confirmed
      · cases confirmed
      · split at confirmed
        · split at confirmed
          · cases confirmed
          · next found =>
              cases confirmed
              obtain ⟨row, stored, unrevoked, presented, application, here, sameGeneration,
                unexpired, same⟩ := verifyApplicationAccessKey_spec found
              exact ⟨row,
                { stored := stored
                  unrevoked := unrevoked
                  presented := presented
                  application := application
                  environment := here.trans environment
                  generation := sameGeneration
                  fenced := fenced
                  unexpired := unexpired
                  answer := same }⟩
        · cases confirmed

/-- The key behind an answer was issued by one of `events` to a client that presented
its active secret, and in every state since, that secret has been active with the
same digest and the application current under the same epoch. -/
def Vouched (events : List (Event D)) (plane : Plane) (input : VerifyRequest D) (later : Nat)
    (answer : VerifiedKey) : Prop :=
  ∃ (row : AccessKey D) (before rest : List (Event D)) (mintPlane : Plane)
    (minter : ApplicationClient D) (ttlSeconds : Int) (draw : Draw D) (issued : Nat)
    (secret : Secret D),
    events = before ++ .issue mintPlane minter ttlSeconds draw issued :: rest ∧
    Minted (Runs.after next Db.empty before) mintPlane minter secret row ∧
    row.expiresAt = issued + ttlSeconds.toNat * second ∧
    Confirms (Runs.after next Db.empty events) plane input later answer row ∧
    ∀ taken, taken <+: rest →
      Backed (Runs.after next Db.empty
        (before ++ .issue mintPlane minter ttlSeconds draw issued :: taken))
        secret.digest.bytes row

/-- **What a confirmation proves.**  Whatever transactions ran, in whatever order, a
verification confirms only a key issued to the application named, in the same
environment and generation, before its expiry, whose secret and application have
been undisturbed since. -/
theorem access_keys_confirm {events : List (Event D)} {plane : Plane}
    {client : ApplicationClient D} {input : VerifyRequest D} {now later : Nat}
    {answer : VerifiedKey}
    (confirmed : verify (Runs.after next Db.empty events) plane client input now later =
      .ok (some answer)) :
    Vouched events plane input later answer := by
  obtain ⟨row, confirms⟩ := verify_spec confirmed
  obtain ⟨before, event, rest, same, minting, since⟩ :=
    unrevoked_issued events confirms.stored confirms.unrevoked
  obtain ⟨mintPlane, minter, ttlSeconds, draw, issued, after, rfl, done⟩ := minting
  obtain ⟨⟨secret, minted⟩, -, expires, -⟩ := issue_spec done
  exact ⟨row, before, rest, mintPlane, minter, ttlSeconds, draw, issued, secret, same, minted,
    expires, confirms, since secret.digest.bytes minted.backed⟩

end Issuing

/-! ## A confirmation -/

namespace Scenario

/-- The testing environment of the scenario, at its second generation. -/
def plane : Plane where
  environment := some 7
  runtimeVersion := some (2, 1)

def alpha : Bytes := ascii "app-alpha"

def beta : Bytes := ascii "app-beta"

def digest (bytes : Nat) : SecretDigest Nat where
  keyVersion := 1
  bytes := bytes

def application (id : Bytes) (secret : Nat) : List (Event Nat) :=
  [.insertPrincipal
      { environment := some 7, id := id, kind := .application, status := .active, authEpoch := 1 },
    .insertApplication
      { environment := some 7, id := id, reviewStatus := .verified, deletedAt := none },
    .insertSecret
      { environment := some 7, id := secret, application := id, digest := digest secret,
        status := .active }]

def client (id : Bytes) (secret : Nat) : ApplicationClient Nat where
  application := id
  authEpoch := 1
  authenticatedSecret := [digest secret]

def request : VerifyRequest Nat where
  appId := alpha
  appAccessKey := ascii "aak_" ++ List.replicate 43 120
  digests := [digest 90]

/-- Both applications are set up, one is issued a key, and the other is suspended and
restored. -/
def events : List (Event Nat) :=
  .setTestingRuntimeState { environment := 7, generation := 2, keyVersion := 1, active := true } ::
    application alpha 41 ++ application beta 42 ++
    [.issue plane (client alpha 41) 300 { id := 50, digest := digest 90 } 1000,
      .updateApplication (some 7) beta .suspended none 2000,
      .updateApplication (some 7) beta .verified none 3000]

theorem confirmed :
    verify (Runs.after next Db.empty events) plane (client beta 42) request 4000 5000 =
      .ok (some { appId := alpha, validTill := 1000 + 300 * second }) := by
  decide +kernel

end Scenario

theorem access_keys_confirm_alpha :
    Vouched Scenario.events Scenario.plane Scenario.request 5000
      { appId := Scenario.alpha, validTill := 1000 + 300 * second } :=
  access_keys_confirm Scenario.confirmed

end SiliconIam.Auth.AccessKeys
