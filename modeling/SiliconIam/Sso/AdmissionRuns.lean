/-
# Sso.AdmissionRuns -- admissions in any order of events

The SSO operations, callbacks over any outbox, suspensions, account deletions and whatever
else changes the directory, in any order.  `Shaped` says what one of them does to the
authorizations and the identities; from it follow the three facts about whole runs: an
authorization is completed once, it was begun by the Carbon and the session that complete
it, and a provider's subject stays with its Carbon.

PostgreSQL refuses every callback (`callback_refused`), so nothing of an earlier period
comes back into force.  Where its `Plpgsql` is not PostgreSQL's, an admission leaves the
defaults (`Conservative`) and every trust rule as it was (`Admitted`).
-/
import SiliconIam.Sso.Admission
import SiliconIam.Sso.Bookkeeping

namespace SiliconIam.Sso

open SiliconIam.Theory
open SiliconIam.Theory.Runs

set_option autoImplicit false

variable {server : Server} {plpgsql : Plpgsql} {reporting : Reporting} {now : Nat}
  {db db' : Database}

/-! ## Happenings -/

def Identity.revoke (now : Nat) (identity : Identity) : Identity :=
  { identity with revokedAt := some (identity.revokedAt.getD now) }

theorem Identity.revoke_id (now : Nat) (identity : Identity) :
    (identity.revoke now).id = identity.id := rfl

def revokedIdentities (now carbon : Nat) (identities : Table Identity.id) : Table Identity.id :=
  identities.update (fun identity => identity.carbon = carbon ∧ identity.revokedAt = none)
    (Identity.revoke now) (Identity.revoke_id now)

def cancelledOf (carbon : Nat) (authorizations : Table Authorization.id) :
    Table Authorization.id :=
  authorizations.update (fun row => row.carbon = carbon ∧ row.status = .pending)
    Authorization.cancel Authorization.cancel_id

/-- `complete` is the transaction of a callback after the provider's answer; a suspension and
an account deletion change the directory as they like. -/
inductive Happening where
  | action (action : Action)
  | complete (now : Nat) (call : CallbackCall)
  | suspendCarbon (carbon : Nat) (directory : Directory)
  | deleteCarbon (now carbon : Nat) (directory : Directory)

def Happening.run (server : Server) (reporting : Reporting) (db : Database) :
    Happening → Except AppError Database
  | .action taken => taken.run server db
  | .complete now call => callbackUnder server.plpgsql reporting now call db
  | .suspendCarbon carbon directory =>
      checked { db.toTables with
        directory, authorizations := cancelledOf carbon db.authorizations } .database
  | .deleteCarbon now carbon directory =>
      checked { db.toTables with
        directory, identities := revokedIdentities now carbon db.identities } .database

def happen (server : Server) (reporting : Reporting) (db : Database) (happening : Happening) :
    Database :=
  match happening.run server reporting db with
  | .ok db' => db'
  | .error _ => db

/-- The callback that a happening is. -/
def Happening.callback : Happening → Option (Nat × CallbackCall)
  | .action (.callback now call) => some (now, call)
  | .complete now call => some (now, call)
  | _ => none

/-! ## What a happening does -/

/-- Authorizations stay, or are cancelled while pending. -/
structure Ongoing (before after : Table Authorization.id) : Prop where
  back : ∀ row ∈ after, ∃ old ∈ before,
    row = old ∨ (old.status = .pending ∧ row = old.cancel)
  forth : ∀ old ∈ before, ∃ row ∈ after,
    row = old ∨ (old.status = .pending ∧ row = old.cancel)

theorem Ongoing.refl (table : Table Authorization.id) : Ongoing table table :=
  ⟨fun row mem => ⟨row, mem, .inl rfl⟩, fun row mem => ⟨row, mem, .inl rfl⟩⟩

theorem Ongoing.cancelled {before after : Table Authorization.id} {p : Authorization → Bool}
    (updated : Table.Updated p Authorization.cancel before after)
    (pending : ∀ row, p row = true → row.status = .pending) : Ongoing before after where
  back row mem := by
    obtain ⟨old, held, rfl⟩ := updated.mem.mp mem
    refine ⟨old, held, ?_⟩
    split
    · rename_i picked
      exact .inr ⟨pending old picked, rfl⟩
    · exact .inl rfl
  forth old held := by
    refine ⟨_, updated.mem.mpr ⟨old, held, rfl⟩, ?_⟩
    split
    · rename_i picked
      exact .inr ⟨pending old picked, rfl⟩
    · exact .inl rfl

/-- No link is lost or goes to someone else. -/
def LinksKept (before after : Table Identity.id) : Prop :=
  ∀ old ∈ before, ∃ identity ∈ after, identity.id = old.id ∧
    identity.connection = old.connection ∧ identity.providerSubject = old.providerSubject ∧
      identity.carbon = old.carbon

theorem LinksKept.refl (table : Table Identity.id) : LinksKept table table :=
  fun old mem => ⟨old, mem, rfl, rfl, rfl, rfl⟩

theorem LinksKept.trans {a b c : Table Identity.id} (first : LinksKept a b)
    (second : LinksKept b c) : LinksKept a c := by
  intro old mem
  obtain ⟨middle, held, id, connection, subject, carbon⟩ := first old mem
  obtain ⟨last, there, id', connection', subject', carbon'⟩ := second middle held
  exact ⟨last, there, id'.trans id, connection'.trans connection, subject'.trans subject,
    carbon'.trans carbon⟩

theorem LinksKept.revoked (now carbon : Nat) (identities : Table Identity.id) :
    LinksKept identities (revokedIdentities now carbon identities) := by
  intro old mem
  refine ⟨_, Table.mem_update_of_mem _ mem, ?_⟩
  split
  · exact ⟨rfl, rfl, rfl, rfl⟩
  · exact ⟨rfl, rfl, rfl, rfl⟩

inductive Shaped (plpgsql : Plpgsql) (db db' : Database) (happening : Happening) : Prop
  | quiet (authorizations : Ongoing db.authorizations db'.authorizations)
      (identities : LinksKept db.identities db'.identities)
  | opened {now : Nat} {call : AuthorizeCall} {organization : Organization} {config : Config}
      {connection : Connection} {cancelled : Table Authorization.id}
      (authorizes : happening = .action (.authorize now call))
      (opening : Opening now call db.toTables organization config connection)
      (ongoing : Ongoing db.authorizations cancelled)
      (inserted : cancelled.insert (call.row organization.id connection.id) =
        some db'.authorizations)
      (identities : db'.identities = db.identities)
  | admitted {now : Nat} {call : CallbackCall} {events : List OutboxEvent} {stored : Database}
      {row : Authorization} (completes : happening.callback = some (now, call))
      (ran : admission plpgsql now call db = .ok (events, stored))
      (admits : Admits now call db.toTables events db'.toTables row)

theorem Admits.withOutbox {call : CallbackCall} {before after : Tables}
    {events : List OutboxEvent} {row : Authorization}
    (admits : Admits now call before events after row) (outbox : Table OutboxEvent.identity) :
    Admits now call before events { after with outbox } row :=
  ⟨admits.found, admits.mem, admits.answers, admits.session, admits.inForce, admits.connected, admits.verified,
    admits.completed, admits.others, admits.linking, admits.admitted⟩

theorem callbackUnder_admits {call : CallbackCall}
    (done : callbackUnder plpgsql reporting now call db = .ok db') :
    ∃ events stored row, admission plpgsql now call db = .ok (events, stored) ∧
      Admits now call db.toTables events db'.toTables row := by
  obtain ⟨events, stored, outbox, ran, -, tables⟩ := callbackUnder_ok.mp done
  obtain ⟨row, admits⟩ := admission_admits ran
  exact ⟨events, stored, row, ran, tables ▸ admits.withOutbox outbox⟩

theorem action_quiet {action : Action} (done : action.run server db = .ok db')
    (starts : ∀ now call, action ≠ .authorize now call)
    (completes : ∀ now call, action ≠ .callback now call) :
    Ongoing db.authorizations db'.authorizations ∧ db'.identities = db.identities := by
  cases action with
  | environment directory =>
      obtain rfl := Except.ok.inj done
      exact ⟨.refl _, rfl⟩
  | authorize now call => exact absurd rfl (starts now call)
  | callback now call => exact absurd rfl (completes now call)
  | createSetupLink now call =>
      obtain ⟨-, -, -, organization, membership, config, -, -, renamed, stored, setupSessions,
        renames, -, tables, reported⟩ := createSetupLink_ok.mp done
      rw [(enqueueAll_spec reported).tables, tables, renames]
      exact ⟨.refl _, rfl⟩
  | disable now call =>
      obtain ⟨-, -, -, organization, membership, config, -, -, -, -, -, stored, tables,
        reported⟩ := disable_ok.mp done
      rw [(enqueueAll_spec reported).tables, tables]
      have updated : Table.Updated
          (fun row => row.organization = organization.id ∧ row.status = .pending)
          Authorization.cancel db.authorizations
          (db.disabled now organization.id call.expectedVersion).authorizations := rfl
      exact ⟨.cancelled updated fun row holds => (of_decide_eq_true holds).2, rfl⟩
  | replaceEntitlement call =>
      obtain ⟨-, -, -, -, organization, config, -, stored, entitled, reported⟩ :=
        replaceEntitlement_ok.mp done
      rw [(enqueueAll_spec reported).tables]
      cases tables : stored.toTables
      rw [tables] at entitled
      cases entitled with
      | created => exact ⟨.refl _, rfl⟩
      | replaced => exact ⟨.refl _, rfl⟩
  | receive now delivery =>
      obtain ⟨-, -, received⟩ := receive_spec done
      cases received with
      | replay found same unchanged => exact unchanged ▸ ⟨.refl _, rfl⟩
      | ignored other fresh into stored =>
          rw [stored]
          exact ⟨.refl _, rfl⟩
      | applied applying tables reported =>
          rw [(enqueueAll_spec reported).tables, tables]
          exact ⟨.refl _, rfl⟩

variable {happening : Happening}

theorem run_shaped
    (done : happening.run server reporting db = .ok db') :
    Shaped server.plpgsql db db' happening := by
  cases happening with
  | action action =>
      have done : action.run server db = .ok db' := done
      cases action with
      | authorize now call =>
          obtain ⟨organization, config, connection, authorizations, stored, opening, inserted,
            tables, reported⟩ := authorize_ok.mp done
          have written := (enqueueAll_spec reported).tables
          rw [tables] at written
          have updated : Table.Updated (fun row => row.organization = config.organization ∧
              row.carbon = call.browser.carbon ∧ row.session = call.browser.session ∧
                row.status = .pending) Authorization.cancel db.authorizations
              (cancelledFor db.authorizations config.organization call.browser) := rfl
          refine .opened rfl opening
            (.cancelled updated fun row holds => (of_decide_eq_true holds).2.2.2) ?_ ?_
          · rw [written]
            exact inserted
          · rw [written]
      | callback now call =>
          obtain ⟨events, stored, row, ran, admits⟩ := callbackUnder_admits (callback_ok.mp done).2
          exact .admitted rfl ran admits
      | environment directory =>
          obtain ⟨ongoing, identities⟩ := action_quiet done (fun _ _ same => by cases same)
            (fun _ _ same => by cases same)
          exact .quiet ongoing (identities ▸ .refl _)
      | createSetupLink now call =>
          obtain ⟨ongoing, identities⟩ := action_quiet done (fun _ _ same => by cases same)
            (fun _ _ same => by cases same)
          exact .quiet ongoing (identities ▸ .refl _)
      | disable now call =>
          obtain ⟨ongoing, identities⟩ := action_quiet done (fun _ _ same => by cases same)
            (fun _ _ same => by cases same)
          exact .quiet ongoing (identities ▸ .refl _)
      | replaceEntitlement call =>
          obtain ⟨ongoing, identities⟩ := action_quiet done (fun _ _ same => by cases same)
            (fun _ _ same => by cases same)
          exact .quiet ongoing (identities ▸ .refl _)
      | receive now delivery =>
          obtain ⟨ongoing, identities⟩ := action_quiet done (fun _ _ same => by cases same)
            (fun _ _ same => by cases same)
          exact .quiet ongoing (identities ▸ .refl _)
  | complete now call =>
      obtain ⟨events, stored, row, ran, admits⟩ := callbackUnder_admits done
      exact .admitted rfl ran admits
  | suspendCarbon carbon directory =>
      have tables := checked_ok.mp done
      have updated : Table.Updated (fun row => row.carbon = carbon ∧ row.status = .pending)
          Authorization.cancel db.authorizations (cancelledOf carbon db.authorizations) := rfl
      refine .quiet ?_ ?_
      · rw [tables]
        exact .cancelled updated fun row holds => (of_decide_eq_true holds).2
      · rw [tables]
        exact .refl _
  | deleteCarbon now carbon directory =>
      have tables := checked_ok.mp done
      refine .quiet ?_ ?_
      · rw [tables]
        exact .refl _
      · rw [tables]
        exact .revoked now carbon db.identities

theorem happen_shaped (server : Server) (reporting : Reporting) (db : Database)
    (happening : Happening) :
    Shaped server.plpgsql db (happen server reporting db happening) happening := by
  unfold happen
  cases done : happening.run server reporting db with
  | ok db' => exact run_shaped done
  | error refusal => exact .quiet (.refl _) (.refl _)

/-! ## Completed once -/

/-- The authorizations that a step completed. -/
def newlyCompleted (db db' : Database) : List Nat :=
  (db'.authorizations.rows.filter fun row => row.status = .completed ∧
    ∀ old ∈ db.authorizations, old.id = row.id → old.status ≠ .completed).map Authorization.id

theorem mem_newlyCompleted {id : Nat} : id ∈ newlyCompleted db db' ↔
    ∃ row ∈ db'.authorizations, row.status = .completed ∧
      (∀ old ∈ db.authorizations, old.id = row.id → old.status ≠ .completed) ∧ row.id = id := by
  unfold newlyCompleted
  rw [List.mem_map]
  constructor
  · rintro ⟨row, selected, rfl⟩
    obtain ⟨mem, holds⟩ := List.mem_filter.mp selected
    obtain ⟨completed, new⟩ := of_decide_eq_true holds
    exact ⟨row, mem, completed, new, rfl⟩
  · rintro ⟨row, mem, completed, new, rfl⟩
    exact ⟨row, List.mem_filter.mpr ⟨mem, decide_eq_true ⟨completed, new⟩⟩, rfl⟩

def Spent (id : Nat) (db : Database) : Prop :=
  ∃ row ∈ db.authorizations, row.id = id ∧ row.status = .completed

theorem Ongoing.completed {before after : Table Authorization.id} (ongoing : Ongoing before after)
    {row : Authorization} (mem : row ∈ before) (completed : row.status = .completed) :
    row ∈ after := by
  obtain ⟨later, held, rfl | ⟨pending, -⟩⟩ := ongoing.forth row mem
  · exact held
  · rw [completed] at pending
    cases pending

/-- What is completed stays so. -/
theorem Shaped.spent (shaped : Shaped plpgsql db db' happening) {id : Nat}
    (spent : Spent id db) : Spent id db' := by
  obtain ⟨row, mem, rfl, completed⟩ := spent
  cases shaped with
  | quiet ongoing identities => exact ⟨row, ongoing.completed mem completed, rfl, completed⟩
  | opened authorizes opening ongoing inserted identities =>
      have kept := ongoing.completed mem completed
      exact ⟨row, ((Table.insert_spec inserted).2 row).mpr (.inr kept), rfl, completed⟩
  | @admitted now call events stored target completes ran admits =>
      have other : row.id ≠ target.id := by
        intro same
        obtain rfl := Table.unique mem admits.mem same
        have pending := admits.answers.2.2.1
        rw [completed] at pending
        cases pending
      have kept := (admits.others row.id other).trans (Table.get?_of_mem mem)
      exact ⟨row, (Table.get?_eq_some.mp kept).1, rfl, completed⟩

/-- Only an admission completes an authorization, and only its own. -/
theorem Shaped.completes (shaped : Shaped plpgsql db db' happening) {id : Nat}
    (new : id ∈ newlyCompleted db db') :
    ∃ now call events stored row, happening.callback = some (now, call) ∧
      admission plpgsql now call db = .ok (events, stored) ∧
      Admits now call db.toTables events db'.toTables row ∧ row.id = id := by
  obtain ⟨row, mem, completed, fresh, rfl⟩ := mem_newlyCompleted.mp new
  cases shaped with
  | quiet ongoing identities =>
      obtain ⟨old, held, rfl | ⟨-, rfl⟩⟩ := ongoing.back row mem
      · exact absurd completed (fresh row held rfl)
      · cases completed
  | opened authorizes opening ongoing inserted identities =>
      rcases ((Table.insert_spec inserted).2 row).mp mem with rfl | kept
      · cases completed
      · obtain ⟨old, held, rfl | ⟨-, rfl⟩⟩ := ongoing.back row kept
        · exact absurd completed (fresh row held rfl)
        · cases completed
  | @admitted now call events stored target completes ran admits =>
      refine ⟨now, call, events, stored, target, completes, ran, admits, ?_⟩
      by_contra other
      have kept := (admits.others row.id (Ne.symm other)).symm.trans (Table.get?_of_mem mem)
      exact fresh row (Table.get?_eq_some.mp kept).1 rfl completed

theorem completed_once (server : Server) (reporting : Reporting) (happenings : List Happening)
    (id : Nat) :
    (given (happen server reporting)
      (fun db happening => newlyCompleted db (happen server reporting db happening)) .empty
      happenings).count id ≤ 1 := by
  have stays : ∀ db happening, Spent id db → Spent id (happen server reporting db happening) :=
    fun db happening spent => (happen_shaped server reporting db happening).spent spent
  refine count_given_le_one (I := fun _ => True) (fun _ _ _ => trivial) stays ?_ ?_ ?_ happenings _
    trivial
  · intro db happening ⟨row, mem, same, completed⟩ listed
    obtain ⟨later, -, -, fresh, rfl⟩ := mem_newlyCompleted.mp listed
    exact fresh row mem same completed
  · intro db happening
    exact (List.filter_sublist.map Authorization.id).nodup
      (happen server reporting db happening).authorizations.distinct
  · intro db happening _ listed
    obtain ⟨row, mem, completed, -, same⟩ := mem_newlyCompleted.mp listed
    exact ⟨row, mem, same, completed⟩

/-! ## Begun by the same session -/

/-- What never changes of an authorization. -/
def Authorization.origin (row : Authorization) : Nat × Nat × Nat × Browser :=
  (row.id, row.organization, row.connection, ⟨row.carbon, row.session⟩)

/-- The step opens an authorization of this origin, for the connection that is active. -/
def Begins (db : Database) (happening : Happening) (origin : Nat × Nat × Nat × Browser) : Prop :=
  ∃ now call organization config connection, happening = .action (.authorize now call) ∧
    Opening now call db.toTables organization config connection ∧
    origin = (call.transactionId, organization.id, connection.id, call.browser)

def Known (origin : Nat × Nat × Nat × Browser) (db : Database) : Prop :=
  ∃ row ∈ db.authorizations, row.origin = origin

theorem Ongoing.known {before after : Table Authorization.id} (ongoing : Ongoing before after)
    {row : Authorization} (mem : row ∈ after) : ∃ old ∈ before, old.origin = row.origin := by
  obtain ⟨old, held, rfl | ⟨-, rfl⟩⟩ := ongoing.back row mem
  · exact ⟨row, held, rfl⟩
  · exact ⟨old, held, rfl⟩

theorem Shaped.known (shaped : Shaped plpgsql db db' happening)
    {origin : Nat × Nat × Nat × Browser} (known : Known origin db') :
    Begins db happening origin ∨ Known origin db := by
  obtain ⟨row, mem, rfl⟩ := known
  cases shaped with
  | quiet ongoing identities => exact .inr (ongoing.known mem)
  | opened authorizes opening ongoing inserted identities =>
      rcases ((Table.insert_spec inserted).2 row).mp mem with rfl | kept
      · exact .inl ⟨_, _, _, _, _, authorizes, opening, rfl⟩
      · exact .inr (ongoing.known kept)
  | @admitted now call events stored target completes ran admits =>
      refine .inr ?_
      by_cases same : row.id = target.id
      · have written := admits.completed
        rw [← same, Table.get?_of_mem mem] at written
        obtain rfl := Option.some.inj written
        exact ⟨target, admits.mem, rfl⟩
      · have kept := (admits.others row.id same).symm.trans (Table.get?_of_mem mem)
        exact ⟨row, (Table.get?_eq_some.mp kept).1, rfl⟩

theorem begun_before (server : Server) (reporting : Reporting) (happenings : List Happening)
    {row : Authorization}
    (mem : row ∈ (after (happen server reporting) .empty happenings).authorizations) :
    ∃ before happening rest, happenings = before ++ happening :: rest ∧
      Begins (after (happen server reporting) .empty before) happening row.origin := by
  have start : ¬ Known row.origin .empty := fun ⟨_, held, _⟩ => List.not_mem_nil held
  obtain ⟨before, happening, rest, split, begins, -⟩ :=
    @after_since _ _ (happen server reporting) Unit (Known row.origin)
      (fun db happening => Begins db happening row.origin) (fun _ _ => True)
      (fun db happening known =>
        ⟨(happen_shaped server reporting db happening).known known, fun _ holds => holds⟩) _
      start happenings ⟨row, mem, rfl⟩
  exact ⟨before, happening, rest, split, begins⟩

/-! ## Links -/

theorem Shaped.links (shaped : Shaped plpgsql db db' happening) :
    LinksKept db.identities db'.identities := by
  cases shaped with
  | quiet ongoing identities => exact identities
  | opened authorizes opening ongoing inserted identities => exact identities ▸ .refl _
  | admitted completes ran admits => exact admits.linking.kept

theorem links_after (server : Server) (reporting : Reporting) (happenings : List Happening) :
    ∀ db, LinksKept db.identities (after (happen server reporting) db happenings).identities := by
  induction happenings with
  | nil => exact fun db => .refl _
  | cons happening rest ih =>
      exact fun db => (happen_shaped server reporting db happening).links.trans (ih _)

/-- Whoever was linked to a subject at any time is the one linked to it now, and the other way
round. -/
theorem LinksKept.exclusive (kept : LinksKept db.identities db'.identities) :
    ∀ a ∈ db.identities, ∀ b ∈ db'.identities, a.connection = b.connection →
      (a.providerSubject = b.providerSubject ↔ a.carbon = b.carbon) := by
  intro a aMem b bMem connection
  obtain ⟨c, cMem, -, sameConnection, subject, carbon⟩ := kept a aMem
  have valid := db'.valid.identities
  constructor
  · intro same
    obtain rfl := valid.subjects c cMem b bMem (sameConnection.trans connection)
      (subject.trans same)
    exact carbon.symm
  · intro same
    obtain rfl := valid.carbons c cMem b bMem (sameConnection.trans connection) (carbon.trans same)
    exact subject.symm

/-! ## Trust rules -/

/-- A trust rule about the membership is in force. -/
def Directory.ruled (directory : Directory) (organization membership : Nat) : Prop :=
  ∃ rule ∈ directory.trustRules, rule.organization = organization ∧
    rule.subjectMembership = some membership ∧ rule.archivedAt = none

/-- The membership that an admission creates or reactivates. -/
def Directory.readmitted (directory : Directory) (organization : Nat) (call : CallbackCall) :
    Option Nat :=
  match directory.carbonMembership organization call.browser.carbon with
  | some membership => if membership.status = .active then none else some membership.id
  | none => some call.newMembershipId

/-- No trust rule is in force about a membership that the step created or reactivated. -/
def Happening.LeavesUnruled (server : Server) (reporting : Reporting) (db : Database)
    (happening : Happening) : Prop :=
  ∀ now call row membership, happening.callback = some (now, call) →
    (∃ db', happening.run server reporting db = .ok db') →
    db.completable now call = some row →
    db.directory.readmitted row.organization call = some membership →
    ¬ (happen server reporting db happening).directory.ruled row.organization membership

/-- A callback that commits is an admission with some outbox behind it. -/
theorem callback_run {call : CallbackCall} (completes : happening.callback = some (now, call))
    (done : happening.run server reporting db = .ok db') :
    ∃ outbox, callbackUnder server.plpgsql outbox now call db = .ok db' := by
  cases happening with
  | action action =>
      cases action with
      | callback now call =>
          cases completes
          exact ⟨insertAll, (callback_ok.mp done).2⟩
      | environment directory => cases completes
      | authorize now call => cases completes
      | createSetupLink now call => cases completes
      | disable now call => cases completes
      | replaceEntitlement call => cases completes
      | receive now delivery => cases completes
  | complete now call =>
      cases completes
      exact ⟨reporting, done⟩
  | suspendCarbon carbon directory => cases completes
  | deleteCarbon now carbon directory => cases completes

theorem callback_refused {level : Isolation} {call : CallbackCall}
    (completes : happening.callback = some (now, call)) :
    happening.run (.postgres level) reporting db ≠ .ok db' := by
  intro done
  obtain ⟨outbox, ran⟩ := callback_run completes done
  exact callbackUnder_postgres ran

theorem callback_unchanged (level : Isolation) {call : CallbackCall}
    (completes : happening.callback = some (now, call)) :
    happen (.postgres level) reporting db happening = db := by
  unfold happen
  split
  · rename_i db' done
    exact absurd done (callback_refused completes)
  · rfl

/-! ## The whole -/

/-- Over any outbox and in any order.  On PostgreSQL a callback changes nothing, so no trust
rule comes back into force with it.  On any server a callback that commits is an admission
under all the checks of `Admits`, and nothing else completes an authorization; no
authorization is completed twice; each was begun by the Carbon and the session it names, for
the connection it names; and no link moves. -/
theorem sso_admissions (server : Server) (reporting : Reporting) (happenings : List Happening) :
    AllSteps (happen (.postgres server.defaultIsolation) reporting) (fun db happening =>
      (happening.callback ≠ none →
        happen (.postgres server.defaultIsolation) reporting db happening = db) ∧
      happening.LeavesUnruled (.postgres server.defaultIsolation) reporting db)
        .empty happenings ∧
    AllSteps (happen server reporting) (fun db happening =>
      (∀ now call db', happening.callback = some (now, call) →
        happening.run server reporting db = .ok db' →
          ∃ events stored row, admission server.plpgsql now call db = .ok (events, stored) ∧
            Admits now call db.toTables events db'.toTables row) ∧
      ∀ id ∈ newlyCompleted db (happen server reporting db happening),
        ∃ now call events stored row, happening.callback = some (now, call) ∧
          admission server.plpgsql now call db = .ok (events, stored) ∧
          Admits now call db.toTables events (happen server reporting db happening).toTables row ∧
          row.id = id) .empty happenings ∧
    (∀ id, (given (happen server reporting)
      (fun db happening => newlyCompleted db (happen server reporting db happening)) .empty
      happenings).count id ≤ 1) ∧
    (∀ row ∈ (after (happen server reporting) .empty happenings).authorizations,
      ∃ before happening rest, happenings = before ++ happening :: rest ∧
        Begins (after (happen server reporting) .empty before) happening row.origin) ∧
    ∀ first later, happenings = first ++ later →
      ∀ a ∈ (after (happen server reporting) .empty first).identities,
      ∀ b ∈ (after (happen server reporting) .empty happenings).identities,
        a.connection = b.connection →
          (a.providerSubject = b.providerSubject ↔ a.carbon = b.carbon) := by
  refine ⟨?_, ?_, completed_once server reporting happenings,
    fun row mem => begun_before server reporting happenings mem, ?_⟩
  · refine allSteps_of_invariant (I := fun _ => True) (fun _ _ _ => trivial) ?_ happenings _ trivial
    intro db happening _
    constructor
    · intro called
      obtain ⟨⟨now, call⟩, completes⟩ := Option.ne_none_iff_exists'.mp called
      exact callback_unchanged server.defaultIsolation completes
    · rintro now call row membership completes ⟨db', done⟩
      exact absurd done (callback_refused completes)
  · refine allSteps_of_invariant (I := fun _ => True) (fun _ _ _ => trivial) ?_ happenings _ trivial
    intro db happening _
    constructor
    · intro now call db' completes done
      obtain ⟨outbox, ran⟩ := callback_run completes done
      exact callbackUnder_admits ran
    · exact fun id new => (happen_shaped server reporting db happening).completes new
  · rintro first later rfl
    rw [after_append]
    exact (links_after server reporting later _).exclusive

/-! ## Nobody is admitted -/

/-- No authorization is completed, and no provider identity is linked. -/
def Unadmitted (db : Database) : Prop :=
  (∀ row ∈ db.authorizations, row.status ≠ .completed) ∧ ∀ identity, identity ∉ db.identities

theorem Ongoing.uncompleted {before later : Table Authorization.id}
    (ongoing : Ongoing before later) (uncompleted : ∀ row ∈ before, row.status ≠ .completed) :
    ∀ row ∈ later, row.status ≠ .completed := by
  intro row mem
  obtain ⟨old, held, rfl | ⟨-, rfl⟩⟩ := ongoing.back row mem
  · exact uncompleted row held
  · exact fun completed => by cases completed

theorem unadmitted_run {action : Action} (booked : Booked db) (unadmitted : Unadmitted db)
    (done : action.run server db = .ok db') : Unadmitted db' := by
  obtain ⟨uncompleted, unlinked⟩ := unadmitted
  have quiet (starts : ∀ now call, action ≠ .authorize now call)
      (completes : ∀ now call, action ≠ .callback now call) : Unadmitted db' := by
    obtain ⟨ongoing, same⟩ := action_quiet done starts completes
    exact ⟨ongoing.uncompleted uncompleted, same ▸ unlinked⟩
  cases action with
  | callback now call => exact absurd done (callback_never booked)
  | authorize now call =>
      obtain ⟨organization, config, connection, authorizations, stored, -, inserted, tables,
        reported⟩ := authorize_ok.mp done
      have updated : Table.Updated (fun row => row.organization = config.organization ∧
          row.carbon = call.browser.carbon ∧ row.session = call.browser.session ∧
            row.status = .pending) Authorization.cancel db.authorizations
          (cancelledFor db.authorizations config.organization call.browser) := rfl
      have cancelled := Ongoing.cancelled updated fun row holds =>
        (of_decide_eq_true holds).2.2.2
      rw [Unadmitted, (enqueueAll_spec reported).tables, tables]
      refine ⟨fun row mem => ?_, unlinked⟩
      rcases ((Table.insert_spec inserted).2 row).mp mem with rfl | held
      · exact fun completed => by cases completed
      · exact cancelled.uncompleted uncompleted row held
  | _ => exact quiet (fun _ _ same => by cases same) fun _ _ same => by cases same

/-- Nobody is admitted by single sign-on, in any run: where a server lets a completion
through, the outbox refuses its report. -/
theorem sign_on_admits_nobody (server : Server) (actions : List Action) :
    Unadmitted (after (next server) .empty actions) := by
  have start : Booked .empty ∧ Unadmitted .empty :=
    ⟨booked_empty, fun _ mem => absurd mem List.not_mem_nil,
      fun _ mem => absurd mem List.not_mem_nil⟩
  refine (after_of_invariant (I := fun db => Booked db ∧ Unadmitted db) ?_ actions _ start).2
  rintro db action ⟨booked, unadmitted⟩
  refine ⟨booked_next booked action, ?_⟩
  unfold next
  split
  · exact unadmitted_run booked unadmitted ‹_›
  · exact unadmitted

end SiliconIam.Sso
