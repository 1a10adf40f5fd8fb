/-
# Sso.Admission -- what a callback admits

The second transaction of a callback, up to its reports: `admission` answers the tables and
the events in the order they are reported.  `callbackUnder` puts the outbox behind it as a
parameter, so that what an admission does is separated from whether its reports are taken;
the code's own callback is the preflight followed by `callbackUnder` with the outbox of the
database (`callback_ok`).  On PostgreSQL it does not get that far (`callbackUnder_postgres`);
what it would do is said for every `Plpgsql`.

The transaction takes effect at its completion: the authorization, the organization, the
configuration, the connection and the membership are locked from there to the commit, and
a session end or a suspension that overlaps is ordered after it.

`Admits` is what one admission did, read off the code by `admission_admits`.
-/
import SiliconIam.Sso.Plans

namespace SiliconIam.Sso

open SiliconIam.Theory
open SiliconIam.Theory.Fallible

set_option autoImplicit false

variable {server : Server} {plpgsql : Plpgsql} {now : Nat} {call : CallbackCall}
  {db db' stored : Database}

/-! ## The second transaction -/

/-- What the transaction writes, and what it reports. -/
def admission (plpgsql : Plpgsql) (now : Nat) (call : CallbackCall) (db : Database) :
    Except AppError (List OutboxEvent × Database) := do
  let activation ← lockSsoMembershipActivationState now call db.toTables
  let (completion, stored) ← completeSsoAuthorization plpgsql now call db
  require (activation.organization = completion.organization ∧
    (∀ membership, activation.membership = some membership → membership = completion.membership) ∧
    (completion.membershipCreated = true ↔ activation.kind = .created))
    (.internal "sso_membership_activation_state")
  require (call.returnAccepted = true) (.internal "sso_return_uri_policy")
  let completed := authorizationEvent completion.authorization "sso.authorization.completed.v1"
  if activation.kind = .unchanged then return ([completed], stored)
  else
    let membership ← orElse
      (stored.directory.memberships.find? fun row =>
        row.organization = completion.organization ∧ row.id = completion.membership ∧
          row.principal = call.browser.carbon ∧ row.principalKind = .carbon ∧
          row.status = .active) .database
    let event ← membershipEvent membership activation.kind
    return ([completed, event], stored)

/-- What becomes of the outbox; `none` where it refuses the events. -/
abbrev Reporting :=
  List OutboxEvent → Table OutboxEvent.identity → Option (Table OutboxEvent.identity)

/-- The outbox of the database. -/
def insertAll : Reporting := fun events outbox => events.foldlM Table.insert outbox

def callbackUnder (plpgsql : Plpgsql) (reporting : Reporting) (now : Nat) (call : CallbackCall)
    (db : Database) : Except AppError Database := do
  let made ← admission plpgsql now call db
  let outbox ← orElse (reporting made.1 made.2.outbox) .database
  return ⟨{ made.2.toTables with outbox }, made.2.valid.withOutbox outbox⟩

theorem callbackUnder_ok {reporting : Reporting} :
    callbackUnder plpgsql reporting now call db = .ok db' ↔ ∃ events stored outbox,
      admission plpgsql now call db = .ok (events, stored) ∧
        reporting events stored.outbox = some outbox ∧
        db'.toTables = { stored.toTables with outbox } := by
  constructor
  · intro done
    obtain ⟨⟨events, stored⟩, ran, done⟩ := bind_ok.mp done
    obtain ⟨outbox, taken, done⟩ := bind_ok.mp done
    obtain rfl := return_ok.mp done
    exact ⟨events, stored, outbox, ran, orElse_ok.mp taken, rfl⟩
  · rintro ⟨events, stored, outbox, ran, taken, tables⟩
    refine bind_ok.mpr ⟨(events, stored), ran, bind_ok.mpr ⟨outbox, orElse_ok.mpr taken, ?_⟩⟩
    cases db'
    subst tables
    rfl

/-- Whatever the outbox would answer. -/
theorem callbackUnder_postgres {reporting : Reporting} :
    callbackUnder .postgres reporting now call db ≠ .ok db' := by
  intro done
  obtain ⟨made, ran, -⟩ := bind_ok.mp done
  obtain ⟨activation, -, ran⟩ := bind_ok.mp ran
  obtain ⟨result, completed, -⟩ := bind_ok.mp ran
  exact completeSsoAuthorization_postgres completed

theorem enqueueAll_insertAll {events : List OutboxEvent} :
    enqueueAll stored events = .ok db' ↔ ∃ outbox, insertAll events stored.outbox = some outbox ∧
      db'.toTables = { stored.toTables with outbox } := by
  induction events generalizing stored with
  | nil =>
      constructor
      · intro done
        obtain rfl : stored = db' := Except.ok.inj done
        exact ⟨_, rfl, rfl⟩
      · rintro ⟨outbox, taken, tables⟩
        obtain rfl : stored.outbox = outbox := Option.some.inj taken
        cases db'
        subst tables
        rfl
  | cons event rest ih =>
      unfold insertAll
      rw [List.foldlM_cons]
      constructor
      · intro done
        obtain ⟨middle, first, later⟩ := bind_ok.mp done
        obtain ⟨outbox, taken, tables⟩ := ih.mp later
        obtain ⟨inserted, into, first⟩ := bind_ok.mp first
        obtain rfl := return_ok.mp first
        rw [orElse_ok.mp into]
        exact ⟨outbox, taken, tables⟩
      · rintro ⟨outbox, taken, tables⟩
        obtain ⟨inserted, into, taken⟩ := Option.bind_eq_some_iff.mp taken
        let middle : Database :=
          ⟨{ stored.toTables with outbox := inserted }, stored.valid.withOutbox inserted⟩
        have first : enqueueOutbox stored event = .ok middle := by
          unfold enqueueOutbox
          rw [into]
          rfl
        have later : enqueueAll middle rest = .ok db' := ih.mpr ⟨outbox, taken, tables⟩
        exact bind_ok.mpr ⟨middle, first, later⟩

/-- The code's callback: the preflight, then the transaction over the outbox of the database. -/
theorem callback_ok : callback server now call db = .ok db' ↔
    isValidSsoCallbackCorrelation now call db.toTables ∧
      callbackUnder server.plpgsql insertAll now call db = .ok db' := by
  constructor
  · intro done
    obtain ⟨_, preflight, done⟩ := bind_ok.mp done
    obtain ⟨activation, locked, done⟩ := bind_ok.mp done
    obtain ⟨⟨completion, stored⟩, completed, done⟩ := bind_ok.mp done
    obtain ⟨_, consistent, done⟩ := bind_ok.mp done
    obtain ⟨_, returned, done⟩ := bind_ok.mp done
    obtain ⟨reported, first, done⟩ := bind_ok.mp done
    have kept := (enqueueOutbox_spec first).tables
    refine ⟨require_ok.mp preflight, callbackUnder_ok.mpr ?_⟩
    split at done
    · rename_i unchanged
      obtain rfl := return_ok.mp done
      obtain ⟨outbox, taken, tables⟩ := enqueueAll_insertAll.mp (enqueueOutbox_eq.symm.trans first)
      refine ⟨_, stored, outbox, ?_, taken, tables⟩
      refine bind_ok.mpr ⟨activation, locked, bind_ok.mpr ⟨_, completed, ?_⟩⟩
      refine bind_ok.mpr ⟨⟨⟩, consistent, bind_ok.mpr ⟨⟨⟩, returned, ?_⟩⟩
      rw [if_pos unchanged]
      rfl
    · rename_i changed
      obtain ⟨membership, found, done⟩ := bind_ok.mp done
      obtain ⟨event, announced, second⟩ := bind_ok.mp done
      have both : enqueueAll stored
          [authorizationEvent completion.authorization "sso.authorization.completed.v1", event] =
            .ok db' := by
        exact bind_ok.mpr ⟨reported, first, enqueueOutbox_eq.symm.trans second⟩
      obtain ⟨outbox, taken, tables⟩ := enqueueAll_insertAll.mp both
      refine ⟨_, stored, outbox, ?_, taken, tables⟩
      refine bind_ok.mpr ⟨activation, locked, bind_ok.mpr ⟨_, completed, ?_⟩⟩
      refine bind_ok.mpr ⟨⟨⟩, consistent, bind_ok.mpr ⟨⟨⟩, returned, ?_⟩⟩
      rw [if_neg changed]
      have directory : reported.directory = stored.directory := by rw [kept]
      rw [directory] at found
      exact bind_ok.mpr ⟨membership, found, bind_ok.mpr ⟨event, announced, rfl⟩⟩
  · rintro ⟨preflight, done⟩
    obtain ⟨events, stored, outbox, ran, taken, tables⟩ := callbackUnder_ok.mp done
    have reported := enqueueAll_insertAll.mpr ⟨outbox, taken, tables⟩
    obtain ⟨activation, locked, ran⟩ := bind_ok.mp ran
    obtain ⟨⟨completion, middle⟩, completed, ran⟩ := bind_ok.mp ran
    obtain ⟨_, consistent, ran⟩ := bind_ok.mp ran
    obtain ⟨_, returned, ran⟩ := bind_ok.mp ran
    refine bind_ok.mpr ⟨⟨⟩, require_ok.mpr preflight, bind_ok.mpr ⟨activation, locked, ?_⟩⟩
    refine bind_ok.mpr ⟨_, completed, bind_ok.mpr ⟨⟨⟩, consistent, ?_⟩⟩
    refine bind_ok.mpr ⟨⟨⟩, returned, ?_⟩
    split at ran
    · rename_i unchanged
      obtain ⟨rfl, rfl⟩ := Prod.mk.inj (return_ok.mp ran)
      refine bind_ok.mpr ⟨db', enqueueOutbox_eq.trans reported, ?_⟩
      rw [if_pos unchanged]
      rfl
    · rename_i changed
      obtain ⟨membership, found, ran⟩ := bind_ok.mp ran
      obtain ⟨event, announced, ran⟩ := bind_ok.mp ran
      obtain ⟨rfl, rfl⟩ := Prod.mk.inj (return_ok.mp ran)
      obtain ⟨next, first, second⟩ := bind_ok.mp reported
      refine bind_ok.mpr ⟨next, first, ?_⟩
      rw [if_neg changed]
      have directory : next.directory = middle.directory := by
        rw [(enqueueOutbox_spec first).tables]
      refine bind_ok.mpr ⟨membership, ?_, bind_ok.mpr ⟨event, announced, ?_⟩⟩
      · rw [directory]
        exact found
      · exact enqueueOutbox_eq.trans second

/-! ## What an admission did -/

/-- The membership that a Carbon ends up with. -/
inductive Admitting (directory : Directory) (now organization : Nat) (call : CallbackCall) :
    Nat × Bool × Directory → Prop
  | unchanged {membership : Membership}
      (found : directory.carbonMembership organization call.browser.carbon = some membership)
      (active : membership.status = .active) :
      Admitting directory now organization call (membership.id, false, directory)
  | reactivated {membership : Membership} {memberships : Table Membership.id}
      (found : directory.carbonMembership organization call.browser.carbon = some membership)
      (inactive : membership.status ≠ .active)
      (updated : Table.Updated (fun row => row.id = membership.id) Membership.reactivate
        directory.memberships memberships) :
      Admitting directory now organization call (membership.id, false,
        Directory.reset { directory with memberships } now organization call.browser.carbon
          membership.id)
  | created {memberships : Table Membership.id}
      (absent : directory.carbonMembership organization call.browser.carbon = none)
      (inserted : directory.memberships.insert
        (.admitted call.newMembershipId organization call.browser.carbon) = some memberships) :
      Admitting directory now organization call (call.newMembershipId, true,
        Directory.reset { directory with memberships } now organization call.browser.carbon
          call.newMembershipId)

variable {directory : Directory} {organization : Nat}

theorem admitCarbon_ok
    {result : Nat × Bool × Directory}
    (done : directory.admitCarbon plpgsql now organization call = .ok result) :
    Admitting directory now organization call result := by
  unfold Directory.admitCarbon at done
  split at done
  · rename_i membership found
    split at done
    · rename_i active
      obtain rfl := Except.ok.inj done
      exact .unchanged found active
    · rename_i inactive
      obtain ⟨_, -, done⟩ := bind_ok.mp done
      obtain rfl := return_ok.mp done
      exact .reactivated found inactive rfl
  · rename_i absent
    obtain ⟨memberships, inserted, done⟩ := bind_ok.mp done
    obtain ⟨_, -, done⟩ := bind_ok.mp done
    obtain rfl := return_ok.mp done
    exact .created absent (orElse_ok.mp inserted)

/-- The link after an admission; the others are as before. -/
structure Linking (call : CallbackCall) (row : Authorization)
    (identities identities' : Table Identity.id) : Prop where
  linked : ∃ identity ∈ identities', identity.connection = row.connection ∧
    identity.providerSubject = call.profile.subject ∧ identity.carbon = call.browser.carbon ∧
      identity.revokedAt = none
  kept : ∀ old ∈ identities, ∃ identity ∈ identities', identity.id = old.id ∧
    identity.connection = old.connection ∧ identity.providerSubject = old.providerSubject ∧
      identity.carbon = old.carbon

theorem linkIdentity_ok {row : Authorization} {contact identity : Nat}
    {identities identities' : Table Identity.id}
    (done : linkIdentity now call row contact identities = .ok (identity, identities')) :
    Linking call row identities identities' := by
  unfold linkIdentity at done
  split at done
  · rename_i old found
    obtain ⟨mem, holds⟩ := Table.find?_spec found
    obtain ⟨connection, subject⟩ := of_decide_eq_true holds
    obtain ⟨own, done⟩ := unless_ok.mp done
    obtain ⟨rfl, rfl⟩ := Prod.mk.inj (Except.ok.inj done)
    constructor
    · refine ⟨_, Table.mem_update_of_mem _ mem, ?_⟩
      rw [if_pos (decide_eq_true rfl)]
      exact ⟨connection, subject, not_not.mp own, rfl⟩
    · intro other held
      refine ⟨_, Table.mem_update_of_mem _ held, ?_⟩
      split
      · exact ⟨rfl, rfl, rfl, rfl⟩
      · exact ⟨rfl, rfl, rfl, rfl⟩
  · obtain ⟨_, -, done⟩ := bind_ok.mp done
    obtain ⟨linked, inserted, done⟩ := bind_ok.mp done
    obtain ⟨rfl, rfl⟩ := Prod.mk.inj (return_ok.mp done)
    have listed := (Table.insert_spec (orElse_ok.mp inserted)).2
    constructor
    · exact ⟨_, (listed _).mpr (.inl rfl), rfl, rfl, rfl, rfl⟩
    · exact fun old held => ⟨old, (listed old).mpr (.inr held), rfl, rfl, rfl, rfl⟩

/-- The authorization that `complete_sso_authorization` joins and locks. -/
def Tables.completable (tables : Tables) (now : Nat) (call : CallbackCall) :
    Option Authorization :=
  tables.authorizations.find? fun row =>
    row.answers call now ∧ tables.directory.ssoInForce row.organization ∧
      tables.connectedBy row call.profile.matchesProvider ∧
      tables.directory.sessionInForce call.browser now

/-- `complete_sso_authorization`, taken apart. -/
structure Completing (now : Nat) (call : CallbackCall) (db : Database) (completion : Completion)
    (stored : Database) (row : Authorization) (directory : Directory)
    (identities : Table Identity.id) : Prop where
  found : db.completable now call = some row
  mem : row ∈ db.authorizations
  answers : row.answers call now
  inForce : db.directory.ssoInForce row.organization
  connected : db.connectedBy row call.profile.matchesProvider
  session : db.directory.sessionInForce call.browser now
  verified : ∃ contact ∈ db.directory.contacts, db.directory.verifies call contact = true
  admitting : Admitting db.directory now row.organization call
    (completion.membership, completion.membershipCreated, directory)
  linking : Linking call row db.identities identities
  authorization : completion.authorization = row.id
  organization : completion.organization = row.organization
  authorizations : Table.Updated (fun other => other.id = row.id ∧ other.status = .pending)
    (Authorization.complete now) db.authorizations stored.authorizations
  tables : stored.toTables =
    { db.toTables with directory, identities, authorizations := stored.authorizations }

theorem verifiedContact_spec {contact : Contact}
    (found : directory.verifiedContact call = some contact) :
    contact ∈ directory.contacts ∧ directory.verifies call contact = true := by
  have listed := List.mem_of_head? found
  have selected := (List.perm_insertionSort Contact.before _).mem_iff.mp listed
  exact List.mem_filter.mp selected

theorem completeSsoAuthorization_ok {completion : Completion}
    (done : completeSsoAuthorization plpgsql now call db = .ok (completion, stored)) :
    ∃ row directory identities,
      Completing now call db completion stored row directory identities := by
  obtain ⟨_, -, done⟩ := bind_ok.mp done
  obtain ⟨_, -, done⟩ := bind_ok.mp done
  obtain ⟨row, found, done⟩ := bind_ok.mp done
  obtain ⟨_, -, done⟩ := bind_ok.mp done
  obtain ⟨config, -, done⟩ := bind_ok.mp done
  obtain ⟨contact, verified, done⟩ := bind_ok.mp done
  obtain ⟨⟨membership, created, directory⟩, admitted, done⟩ := bind_ok.mp done
  obtain ⟨⟨identity, identities⟩, linked, done⟩ := bind_ok.mp done
  obtain ⟨stored', ran, done⟩ := bind_ok.mp done
  obtain ⟨rfl, rfl⟩ := Prod.mk.inj (return_ok.mp done)
  obtain ⟨mem, holds⟩ := Table.find?_spec (orElse_ok.mp found)
  obtain ⟨answers, inForce, connected, session⟩ := of_decide_eq_true holds
  have tables := checked_ok.mp ran
  refine ⟨row, directory, identities, orElse_ok.mp found, mem, answers, inForce, connected, session,
    ⟨contact, verifiedContact_spec (orElse_ok.mp verified)⟩, admitCarbon_ok admitted,
    linkIdentity_ok linked, rfl, rfl, ?_, ?_⟩
  · rw [tables]
    rfl
  · rw [tables]

/-! ## The fixed defaults -/

/-- An active membership that holds nothing but the defaults. -/
structure Conservative (directory : Directory) (membership : Membership) : Prop where
  active : membership.status = .active
  role : membership.orgRole = .member ∧ membership.roleGrantedBy = none
  description : membership.jobRole = ""
  settings : directory.settings.get? membership.id =
    some (.conservative membership.id membership.organization membership.principal)
  capabilities : ∀ grant ∈ directory.capabilityGrants,
    grant.organization = membership.organization → grant.grantee = membership.id →
      grant.revokedAt ≠ none
  tags : ∀ tag ∈ directory.tags,
    ¬ (tag.organization = membership.organization ∧ tag.membership = membership.id)
  accessGrants : ∀ grant ∈ directory.accessGrants,
    grant.organization = membership.organization → grant.carbonMembership = membership.id →
      grant.revokedAt ≠ none

theorem get?_upsert {α κ : Type} [DecidableEq κ] {key : α → κ} (table : Table key) (row : α) :
    (table.upsert row).get? (key row) = some row :=
  Table.get?_eq_some.mpr ⟨Table.mem_upsert.mpr (.inl rfl), rfl⟩

theorem mem_reset_capabilities {carbon membership : Nat}
    {grant : CapabilityGrant} :
    grant ∈ (directory.reset now organization carbon membership).capabilityGrants ↔
      ∃ old ∈ directory.capabilityGrants, grant =
        if decide (old.organization = organization ∧ old.grantee = membership ∧
            old.revokedAt = none) then
          { old with revokedBy := some membership, revokedAt := some now } else old :=
  Table.Updated.mem rfl

theorem mem_reset_access {carbon membership : Nat}
    {grant : AccessGrant} :
    grant ∈ (directory.reset now organization carbon membership).accessGrants ↔
      ∃ old ∈ directory.accessGrants, grant =
        if decide (old.organization = organization ∧ old.carbonMembership = membership ∧
            old.revokedAt = none) then
          { old with revokedBy := some membership, revokedAt := some now } else old :=
  Table.Updated.mem rfl

theorem reset_conservative (directory : Directory) (now : Nat) (membership : Membership)
    (active : membership.status = .active)
    (role : membership.orgRole = .member ∧ membership.roleGrantedBy = none)
    (description : membership.jobRole = "") :
    Conservative (directory.reset now membership.organization membership.principal membership.id)
      membership where
  active := active
  role := role
  description := description
  settings := get?_upsert directory.settings
    (.conservative membership.id membership.organization membership.principal)
  capabilities grant mem organization grantee := by
    obtain ⟨old, held, rfl⟩ := mem_reset_capabilities.mp mem
    split at organization
    · rename_i picked
      rw [if_pos picked]
      exact Option.some_ne_none now
    · rename_i unpicked
      rw [if_neg unpicked] at grantee ⊢
      exact fun unrevoked => unpicked (decide_eq_true ⟨organization, grantee, unrevoked⟩)
  tags tag mem both := by
    have kept := (List.mem_filter.mp mem).2
    exact (of_decide_eq_true kept) both
  accessGrants grant mem organization holder := by
    obtain ⟨old, held, rfl⟩ := mem_reset_access.mp mem
    split at organization
    · rename_i picked
      rw [if_pos picked]
      exact Option.some_ne_none now
    · rename_i unpicked
      rw [if_neg unpicked] at holder ⊢
      exact fun unrevoked => unpicked (decide_eq_true ⟨organization, holder, unrevoked⟩)

/-- The membership before and after, and the membership event of the admission, if any. -/
inductive Admitted (call : CallbackCall) (organization : Nat) (before after : Directory) :
    List OutboxEvent → Prop
  | unchanged {membership : Membership}
      (found : before.carbonMembership organization call.browser.carbon = some membership)
      (active : membership.status = .active) (same : after = before) :
      Admitted call organization before after []
  | reactivated {membership : Membership}
      (found : before.carbonMembership organization call.browser.carbon = some membership)
      (inactive : membership.status ≠ .active)
      (mem : membership.reactivate ∈ after.memberships)
      (conservative : Conservative after membership.reactivate)
      (trustRules : after.trustRules = before.trustRules) :
      Admitted call organization before after
        [⟨.organizationMembership, membership.id, membership.version + 1, 1,
          "organization.membership.reactivated.v1"⟩]
  | created (absent : before.carbonMembership organization call.browser.carbon = none)
      (unused : ∀ old ∈ before.memberships, old.id ≠ call.newMembershipId)
      (mem : Membership.admitted call.newMembershipId organization call.browser.carbon ∈
        after.memberships)
      (conservative : Conservative after
        (.admitted call.newMembershipId organization call.browser.carbon))
      (trustRules : after.trustRules = before.trustRules) :
      Admitted call organization before after
        [⟨.organizationMembership, call.newMembershipId, 1, 1,
          "organization.membership.created.v1"⟩]

/-- What one admission found and left. -/
structure Admits (now : Nat) (call : CallbackCall) (before : Tables) (events : List OutboxEvent)
    (after : Tables) (row : Authorization) : Prop where
  found : before.completable now call = some row
  mem : row ∈ before.authorizations
  answers : row.answers call now
  session : before.directory.sessionInForce call.browser now
  inForce : before.directory.ssoInForce row.organization
  connected : before.connectedBy row call.profile.matchesProvider
  verified : ∃ contact ∈ before.directory.contacts, before.directory.verifies call contact = true
  completed : after.authorizations.get? row.id = some (row.complete now)
  others : ∀ id, id ≠ row.id → after.authorizations.get? id = before.authorizations.get? id
  linking : Linking call row before.identities after.identities
  admitted : ∃ announced,
    events = authorizationEvent row.id "sso.authorization.completed.v1" :: announced ∧
      Admitted call row.organization before.directory after.directory announced

theorem carbonMembership_spec {carbon : Nat}
    {membership : Membership}
    (found : directory.carbonMembership organization carbon = some membership) :
    membership ∈ directory.memberships ∧ membership.organization = organization ∧
      membership.principal = carbon ∧ membership.principalKind = .carbon := by
  obtain ⟨mem, holds⟩ := Table.find?_spec found
  exact ⟨mem, of_decide_eq_true holds⟩

theorem Completing.completed {completion : Completion} {row : Authorization} {identities : Table Identity.id}
    (completing : Completing now call db completion stored row directory identities) :
    stored.authorizations.get? row.id = some (row.complete now) ∧
      ∀ id, id ≠ row.id → stored.authorizations.get? id = db.authorizations.get? id := by
  have updated := completing.authorizations
  have picked : decide (row.id = row.id ∧ row.status = .pending) = true :=
    decide_eq_true ⟨rfl, completing.answers.2.2.1⟩
  constructor
  · exact Table.get?_eq_some.mpr ⟨Table.mem_of_picked completing.mem picked updated, rfl⟩
  · intro id other
    have apart : ∀ old ∈ db.authorizations,
        decide (old.id = row.id ∧ old.status = .pending) = true →
          ¬ old.id = id ∧ ¬ (old.complete now).id = id := by
      intro old _ holds
      have same := (of_decide_eq_true holds).1
      exact ⟨fun here => other (here.symm.trans same), fun here => other (here.symm.trans same)⟩
    have agree := updated.elsewhere (q := fun old => old.id = id) apart
    cases found : db.authorizations.get? id with
    | none =>
        refine Table.get?_eq_none.mpr fun old mem here => ?_
        exact Table.get?_eq_none.mp found old ((agree old here).mp mem) here
    | some old =>
        obtain ⟨mem, here⟩ := Table.get?_eq_some.mp found
        exact Table.get?_eq_some.mpr ⟨(agree old here).mpr mem, here⟩

/-- The membership event follows from what the lock saw, which is what the completion found. -/
theorem admitted_of_admitting {directory' : Directory} {membership : Nat}
    {created : Bool} (admitting : Admitting directory now organization call
      (membership, created, directory')) {kind : ActivationKind}
    (locked : kind = (activationState organization
      (directory.carbonMembership organization call.browser.carbon)).kind) :
    (kind = .unchanged → Admitted call organization directory directory' []) ∧
    (kind ≠ .unchanged → ∀ row ∈ directory'.memberships, row.id = membership → ∀ event,
      membershipEvent row kind = .ok event →
        Admitted call organization directory directory' [event]) := by
  cases admitting with
  | @unchanged membership found active =>
      rw [found] at locked
      have kept : kind = .unchanged := locked.trans (if_pos active)
      exact ⟨fun _ => .unchanged found active rfl, fun changed => absurd kept changed⟩
  | @reactivated membership memberships found inactive updated =>
      rw [found] at locked
      have kind_eq : kind = .reactivated := locked.trans (if_neg inactive)
      subst kind_eq
      obtain ⟨mem, rfl, principal, -⟩ := carbonMembership_spec found
      have conservative : Conservative (Directory.reset { directory with memberships } now
          membership.organization call.browser.carbon membership.id) membership.reactivate := by
        rw [← principal]
        exact reset_conservative _ now membership.reactivate rfl ⟨rfl, rfl⟩ rfl
      have written : membership.reactivate ∈ memberships :=
        Table.mem_of_picked mem (decide_eq_true rfl) updated
      refine ⟨fun same => (by cases same), fun _ row held same event announced => ?_⟩
      obtain rfl := Table.unique held written same
      obtain rfl := Except.ok.inj announced
      exact .reactivated found inactive written conservative rfl
  | @created memberships absent inserted =>
      rw [absent] at locked
      have kind_eq : kind = .created := locked
      subst kind_eq
      obtain ⟨unused, listed⟩ := Table.insert_spec inserted
      have written := (listed _).mpr (.inl rfl)
      refine ⟨fun same => (by cases same), fun _ row held same event announced => ?_⟩
      obtain rfl := Table.unique held written same
      obtain rfl := Except.ok.inj announced
      have conservative := reset_conservative { directory with memberships } now
        (.admitted call.newMembershipId organization call.browser.carbon) rfl ⟨rfl, rfl⟩ rfl
      exact .created absent unused written conservative rfl

theorem lockSsoMembershipActivationState_ok {activation : ActivationState}
    (done : lockSsoMembershipActivationState now call db.toTables = .ok activation) :
    activation = activationState activation.organization
      (db.directory.carbonMembership activation.organization call.browser.carbon) := by
  obtain ⟨_, -, done⟩ := bind_ok.mp done
  obtain ⟨row, -, done⟩ := bind_ok.mp done
  obtain rfl := return_ok.mp done
  have organization : ∀ found : Option Membership,
      (activationState row.organization found).organization = row.organization := by
    intro found
    cases found with
    | none => rfl
    | some membership => rfl
  rw [organization]

theorem admission_admits {events : List OutboxEvent}
    (done : admission plpgsql now call db = .ok (events, stored)) :
    ∃ row, Admits now call db.toTables events stored.toTables row := by
  obtain ⟨activation, locked, done⟩ := bind_ok.mp done
  obtain ⟨⟨completion, middle⟩, completed, done⟩ := bind_ok.mp done
  obtain ⟨_, consistent, done⟩ := bind_ok.mp done
  obtain ⟨_, -, done⟩ := bind_ok.mp done
  obtain ⟨row, directory, identities, completing⟩ := completeSsoAuthorization_ok completed
  obtain ⟨sameOrganization, -, -⟩ := require_ok.mp consistent
  have organization := sameOrganization.trans completing.organization
  have kind := congrArg ActivationState.kind (lockSsoMembershipActivationState_ok locked)
  rw [organization] at kind
  obtain ⟨unchanged, changed⟩ := admitted_of_admitting completing.admitting kind
  obtain ⟨written, others⟩ := completing.completed
  have admits {announced : List OutboxEvent}
      (admitted : Admitted call row.organization db.directory directory announced) :
      Admits now call db.toTables
        (authorizationEvent row.id "sso.authorization.completed.v1" :: announced)
        middle.toTables row := by
    refine ⟨completing.found, completing.mem, completing.answers, completing.session, completing.inForce,
      completing.connected, completing.verified, written, others, ?_, announced, rfl, ?_⟩
    · rw [completing.tables]
      exact completing.linking
    · rw [completing.tables]
      exact admitted
  split at done
  · rename_i same
    obtain ⟨rfl, rfl⟩ := Prod.mk.inj (return_ok.mp done)
    rw [completing.authorization]
    exact ⟨row, admits (unchanged same)⟩
  · rename_i differs
    obtain ⟨membership, found, done⟩ := bind_ok.mp done
    obtain ⟨event, announced, done⟩ := bind_ok.mp done
    obtain ⟨rfl, rfl⟩ := Prod.mk.inj (return_ok.mp done)
    obtain ⟨mem, holds⟩ := Table.find?_spec (orElse_ok.mp found)
    have mem : membership ∈ directory.memberships := by
      rw [completing.tables] at mem
      exact mem
    rw [completing.authorization]
    exact ⟨row, admits (changed differs membership mem (of_decide_eq_true holds).2.1 event announced)⟩

end SiliconIam.Sso
