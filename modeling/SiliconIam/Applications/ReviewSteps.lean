/-
# Applications.ReviewSteps -- what one operation on an application can do

`Configured app w t` is what a configuration does: it rewrites the row of one
application that is not deleted, and of the credentials it only revokes tokens.
`configure_effect` and `activate_effect` add the status it leaves, and
`adminDecide_effect` says what a decision writes.  Whatever the operation, the
credentials evolve as in `Auth.AuthorityEvolution` (`act_evolves`).
-/
import SiliconIam.Applications.ReviewDecisions
import SiliconIam.Auth.ExchangeFrame

namespace SiliconIam.Applications.Review

open SiliconIam.Theory
open SiliconIam.Auth
open SiliconIam.Auth.Authority (Db Evolves Quiet)

set_option autoImplicit false

variable {p : Settings} {w t : World}

/-! ## Credentials -/

theorem suspendPrincipal_evolves (now : Nat) (db : Db) (app : Nat) :
    Evolves now db (suspendPrincipal db app) :=
  Quiet.evolves
    { Quiet.refl now db with
      principals := .update rfl fun principal _ _ => principal.raise_continues .suspended 1
      principalsKept := .update rfl fun _ => rfl }

theorem deletePrincipal_evolves (now : Nat) (db : Db) (app : Nat) :
    Evolves now db (deletePrincipal db app) :=
  Quiet.evolves
    { Quiet.refl now db with
      principals := .update rfl fun principal _ _ => principal.raise_continues .deleted 1
      principalsKept := .update rfl fun _ => rfl }

theorem restorePrincipal_evolves (now : Nat) (db : Db) (app : Nat) :
    Evolves now db (restorePrincipal db app) :=
  Quiet.evolves
    { Quiet.refl now db with
      principals := .update rfl fun principal _ _ => principal.raise_continues .active 0
      principalsKept := .update rfl fun _ => rfl }

theorem retireApplicationCredentials_evolves (w : World) (now app : Nat) :
    Evolves now w.db (retireApplicationCredentials w now app).db :=
  Quiet.evolves
    { Quiet.refl now w.db with
      codes := .update rfl fun _ _ _ => ⟨rfl, fun _ _ => rfl⟩
      requests := .update rfl fun request _ _ => request.deny_continues }

theorem revokeApplicationAuthority_evolves (w : World) (now app : Nat) (reason : String) :
    Evolves now w.db (revokeApplicationAuthority p w now app reason).db :=
  (Authority.Write.revokeApplicationAuthority w.db now app reason).evolves

theorem configureApplicationScopes_evolves (names : List String) (w : World) (now app : Nat) :
    Evolves now w.db (configureApplicationScopes p names w now app).db :=
  Quiet.evolves
    { Quiet.refl now w.db with
      access := .update rfl fun token _ _ => token.revokeUnrevoked_continues _ }

/-- No application's principal changes its status. -/
def KeepsStanding (db after : Db) : Prop :=
  ∀ old ∈ db.principals, old.kind = .application →
    ∃ row ∈ after.principals, row.id = old.id ∧ row.kind = .application ∧ row.status = old.status

theorem KeepsStanding.of_same {db after : Db} (same : after.principals = db.principals) :
    KeepsStanding db after :=
  fun old mem kind => ⟨old, by rwa [same], rfl, kind, rfl⟩

theorem KeepsStanding.trans {a b c : Db} (first : KeepsStanding a b) (second : KeepsStanding b c) :
    KeepsStanding a c := by
  intro old mem kind
  obtain ⟨middle, held, id, middleKind, status⟩ := first old mem kind
  obtain ⟨row, rowMem, rowId, rowKind, rowStatus⟩ := second middle held middleKind
  exact ⟨row, rowMem, rowId.trans id, rowKind, rowStatus.trans status⟩

theorem KeepsStanding.createPrincipal {db after : Db} {principal : Authority.Principal}
    (done : Authority.createPrincipal db principal = some after) : KeepsStanding db after := by
  obtain ⟨-, principals, inserted, rfl⟩ := Authority.createPrincipal_eq_some done
  intro old mem kind
  exact ⟨old, ((Table.insert_spec inserted).2 old).mpr (.inr mem), rfl, kind, rfl⟩

/-! ## Rows of one application -/

variable {app : Nat} {set : ReviewedApplication → ReviewedApplication} {row : ReviewedApplication}

theorem mem_setReview
    {keeps : ∀ a, (set a).id = a.id} :
    row ∈ (w.setReview app set keeps).reviews ↔
      ∃ old ∈ w.reviews,
        row = if old.id = app then { set old with version := old.version + 1 } else old := by
  unfold World.setReview
  rw [Table.mem_update]
  simp only [decide_eq_true_eq]

theorem mem_setReview_others
    {keeps : ∀ a, (set a).id = a.id} (other : row.id ≠ app) :
    row ∈ (w.setReview app set keeps).reviews ↔ row ∈ w.reviews := by
  rw [mem_setReview]
  constructor
  · rintro ⟨old, mem, rfl⟩
    by_cases picked : old.id = app
    · rw [if_pos picked] at other
      exact absurd ((keeps old).trans picked) other
    · rwa [if_neg picked]
  · intro mem
    exact ⟨row, mem, by rw [if_neg other]⟩

variable {a : ReviewedApplication}

theorem application?_spec (found : w.application? app = some a) :
    a ∈ w.reviews ∧ a.id = app ∧ a.deletedAt = none := by
  obtain ⟨mem, holds⟩ := Table.find?_spec found
  exact ⟨mem, of_decide_eq_true holds⟩

/-- Only the row of this application is written, and only while it is not deleted. -/
structure Rewrites (app : Nat) (w t : World) : Prop where
  others : ∀ row, row.id ≠ app → (row ∈ t.reviews ↔ row ∈ w.reviews)
  live : (∀ row ∈ w.reviews, row.id = app → row.deletedAt = none) →
    ∀ row ∈ t.reviews, row.id = app → row.deletedAt = none

theorem Rewrites.refl (app : Nat) (w : World) : Rewrites app w w :=
  ⟨fun _ _ => Iff.rfl, fun held => held⟩

theorem Rewrites.trans {a b c : World} (first : Rewrites app a b)
    (second : Rewrites app b c) : Rewrites app a c :=
  ⟨fun row other => (second.others row other).trans (first.others row other),
    fun held => second.live (first.live held)⟩

theorem Rewrites.setReview
    {keeps : ∀ a, (set a).id = a.id} (app : Nat) (undeleted : ∀ a, (set a).deletedAt = a.deletedAt) :
    Rewrites app w (w.setReview app set keeps) where
  others row other := mem_setReview_others other
  live held row mem own := by
    obtain ⟨old, oldMem, rfl⟩ := mem_setReview.mp mem
    by_cases picked : old.id = app
    · rw [if_pos picked]
      exact (undeleted old).trans (held old oldMem picked)
    · rw [if_neg picked] at own
      exact absurd own picked

theorem Rewrites.withDb (db : Db) (rewrites : Rewrites app w t) :
    Rewrites app w { t with db := db } :=
  ⟨rewrites.others, rewrites.live⟩

/-- What a configuration of the application may write. -/
structure Configured (app : Nat) (w t : World) : Prop where
  rewrites : Rewrites app w t
  clock : t.clock = w.clock
  deliveries : t.deliveries = w.deliveries
  evolves : Evolves w.clock w.db t.db
  standing : KeepsStanding w.db t.db
  consents : t.db.consents = w.db.consents

theorem Configured.refl (app : Nat) (w : World) : Configured app w w where
  rewrites := .refl app w
  clock := rfl
  deliveries := rfl
  evolves := .refl _ _
  standing := .of_same rfl
  consents := rfl

theorem Configured.trans {a b c : World} (first : Configured app a b)
    (second : Configured app b c) : Configured app a c where
  rewrites := first.rewrites.trans second.rewrites
  clock := second.clock.trans first.clock
  deliveries := second.deliveries.trans first.deliveries
  evolves := first.evolves.trans (first.clock ▸ second.evolves)
  standing := first.standing.trans second.standing
  consents := second.consents.trans first.consents

theorem Configured.thenReview
    {keeps : ∀ a, (set a).id = a.id} (configured : Configured app w t)
    (undeleted : ∀ a, (set a).deletedAt = a.deletedAt) :
    Configured app w (t.setReview app set keeps) :=
  configured.trans
    { rewrites := .setReview app undeleted
      clock := rfl
      deliveries := rfl
      evolves := .refl _ _
      standing := .of_same rfl
      consents := rfl }

theorem Configured.thenScopes (configured : Configured app w t) (names : List String) :
    Configured app w (configureApplicationScopes p names t t.clock app) := by
  refine configured.trans ?_
  exact
    { rewrites := by
        refine (Rewrites.setReview app ?_).withDb _
        intro a
        rfl
      clock := rfl
      deliveries := rfl
      evolves := configureApplicationScopes_evolves names t t.clock app
      standing := .of_same rfl
      consents := rfl }

/-- A new application is active and under no other row's identifier. -/
theorem createApplication_effect {call : ConfigureCall} (done : createApplication w call = .ok t) :
    Configured call.application w t ∧ (∀ row ∈ w.reviews, row.id ≠ call.application) ∧
      ∃ principal ∈ t.db.principals, principal.id = call.application ∧
        principal.kind = .application ∧ principal.status = .active := by
  obtain ⟨db, created, done⟩ := bind_ok.mp done
  obtain ⟨reviews, inserted, done⟩ := bind_ok.mp done
  obtain rfl := return_ok.mp done
  have created := orElse_ok.mp created
  obtain ⟨free, rows⟩ := Table.insert_spec (orElse_ok.mp inserted)
  refine ⟨?_, free, ?_⟩
  · exact
      { rewrites :=
          { others := fun row other => by
              rw [rows]
              constructor
              · rintro (rfl | mem)
                · exact absurd rfl other
                · exact mem
              · exact .inr
            live := fun held row mem own => by
              rcases (rows row).mp mem with rfl | mem
              · rfl
              · exact held row mem own }
        clock := rfl
        deliveries := rfl
        evolves := .createPrincipal created
        standing := .createPrincipal created
        consents := by
          obtain ⟨-, principals, -, rfl⟩ := Authority.createPrincipal_eq_some created
          rfl }
  · obtain ⟨-, principals, principalInserted, rfl⟩ := Authority.createPrincipal_eq_some created
    exact ⟨_, ((Table.insert_spec principalInserted).2 _).mpr (.inl rfl), rfl, rfl, rfl⟩

/-! ## Configurations -/

theorem status_setStatus {status : ReviewStatus}
    (mem : row ∈ (w.setStatus app status).reviews) (own : row.id = app) :
    row.reviewStatus = status := by
  obtain ⟨old, -, rfl⟩ := mem_setReview.mp mem
  by_cases picked : old.id = app
  · rw [if_pos picked]
  · rw [if_neg picked] at own
    exact absurd own picked

theorem status_setReview {status : ReviewStatus} {keeps : ∀ a, (set a).id = a.id}
    (same : ∀ a, (set a).reviewStatus = a.reviewStatus)
    (held : ∀ row ∈ w.reviews, row.id = app → row.reviewStatus = status) :
    ∀ row ∈ (w.setReview app set keeps).reviews, row.id = app → row.reviewStatus = status := by
  intro row mem own
  obtain ⟨old, oldMem, rfl⟩ := mem_setReview.mp mem
  by_cases picked : old.id = app
  · rw [if_pos picked]
    exact (same old).trans (held old oldMem picked)
  · rw [if_neg picked] at own
    exact absurd own picked

/-- `s` is the state once the application exists. -/
theorem applyConfiguration_effect {call : ConfigureCall} {existing : Option ReviewedApplication}
    (done : applyConfiguration p w call existing = .ok t) :
    ∃ s previouslyPublic fully,
      (existing.isSome = true ∧ s = w ∨ existing = none ∧ createApplication w call = .ok s) ∧
        Configured call.application s t ∧
        ∀ row ∈ t.reviews, row.id = call.application →
          row.reviewStatus = configuredStatus call previouslyPublic fully := by
  obtain ⟨-, -, done⟩ := bind_ok.mp done
  obtain ⟨-, -, done⟩ := bind_ok.mp done
  obtain ⟨s, started, done⟩ := bind_ok.mp done
  obtain ⟨-, -, done⟩ := bind_ok.mp done
  obtain ⟨-, -, done⟩ := bind_ok.mp done
  obtain rfl := return_ok.mp done
  refine ⟨s, _, _, ?_, ?_, status_setReview (fun _ => rfl) (status_setReview (fun _ => rfl)
    fun row mem own => status_setStatus mem own)⟩
  · cases existing with
    | none => exact .inr ⟨rfl, started⟩
    | some a => exact .inl ⟨rfl, (Except.ok.inj started).symm⟩
  · have reviewed := (Configured.refl call.application s).thenScopes (p := p) call.scopes
    refine Configured.thenReview (Configured.thenReview (Configured.thenReview
      (Configured.thenScopes (Configured.thenReview reviewed ?_) call.scopes) ?_) ?_) ?_
    all_goals exact fun _ => rfl

theorem configurationTarget_spec {call : ConfigureCall}
    (found : configurationTarget w call = .ok (some a)) :
    a ∈ w.reviews ∧ a.id = call.application ∧ a.deletedAt = none := by
  obtain ⟨-, -, found⟩ := bind_ok.mp found
  obtain ⟨-, -, found⟩ := bind_ok.mp found
  split at found
  · rename_i app known
    obtain ⟨-, -, found⟩ := bind_ok.mp found
    obtain ⟨-, -, found⟩ := bind_ok.mp found
    obtain rfl := Option.some.inj (return_ok.mp found)
    exact application?_spec (Option.filter_eq_some_iff.mp known).1
  · obtain ⟨-, -, found⟩ := bind_ok.mp found
    obtain ⟨-, -, found⟩ := bind_ok.mp found
    cases return_ok.mp found

/-- A configuration waits, or it is private and applied to the application there is or
to a new one. -/
theorem configure_effect {call : ConfigureCall} (done : configure p w call = .ok t) :
    t = w ∨ call.visibilityPublic = false ∧ ∃ existing s,
      configurationTarget w call = .ok existing ∧
      (existing.isSome = true ∧ s = w ∨ existing = none ∧ createApplication w call = .ok s) ∧
        Configured call.application s t ∧
        ∀ row ∈ t.reviews, row.id = call.application →
          row.reviewStatus = if call.disabled then .suspended else .verified := by
  obtain ⟨existing, target, done⟩ := bind_ok.mp done
  by_cases waits : call.visibilityPublic = true
  · rw [if_pos waits] at done
    exact .inl (return_ok.mp done).symm
  · rw [if_neg waits] at done
    have isPrivate : call.visibilityPublic = false := by simpa using waits
    obtain ⟨s, previouslyPublic, fully, started, configured, status⟩ :=
      applyConfiguration_effect done
    refine .inr ⟨isPrivate, existing, s, target, started, configured, fun row mem own => ?_⟩
    rw [status row mem own]
    simp [configuredStatus, isPrivate]

theorem activationTarget_spec {call : ActivationCall}
    (found : activationTarget w call = .ok a) :
    a ∈ w.reviews ∧ a.id = call.application ∧ a.deletedAt = none := by
  obtain ⟨-, -, found⟩ := bind_ok.mp found
  obtain ⟨-, -, found⟩ := bind_ok.mp found
  obtain ⟨-, -, found⟩ := bind_ok.mp found
  obtain ⟨app, known, found⟩ := bind_ok.mp found
  obtain ⟨-, -, found⟩ := bind_ok.mp found
  obtain ⟨-, -, found⟩ := bind_ok.mp found
  obtain rfl := return_ok.mp found
  exact application?_spec (orElse_ok.mp known)

/-- An activation leaves its application verified. -/
theorem activate_effect {call : ActivationCall} (done : activate p w call = .ok t) :
    ∃ a, activationTarget w call = .ok a ∧ Configured a.id w t ∧
      ∀ row ∈ t.reviews, row.id = a.id → row.reviewStatus = .verified := by
  obtain ⟨a, target, done⟩ := bind_ok.mp done
  obtain ⟨current, currentFound, done⟩ := bind_ok.mp done
  obtain ⟨u, applied, done⟩ := bind_ok.mp done
  obtain ⟨_, complete, done⟩ := bind_ok.mp done
  obtain rfl := return_ok.mp done
  obtain ⟨-, named, -⟩ := activationTarget_spec target
  obtain ⟨s, -, -, ⟨-, rfl⟩ | ⟨missing, -⟩, configured, -⟩ := applyConfiguration_effect applied
  · refine ⟨a, target, ?_, fun row mem own => ?_⟩
    · rw [← named] at configured
      have reviewed := (Configured.refl a.id w).thenScopes (p := p) call.scopes
      refine (Configured.thenReview reviewed ?_).trans configured
      exact fun _ => rfl
    · obtain ⟨final, found, holds⟩ := (Option.any_eq_true _ _).mp (require_ok.mp complete)
      obtain ⟨finalMem, finalOwn, -⟩ := application?_spec found
      rw [Table.unique mem finalMem (own.trans finalOwn.symm)]
      simp only [Bool.and_eq_true, decide_eq_true_eq] at holds
      exact holds.2
  · cases missing

/-! ## Decisions -/

theorem decisionTarget_spec {call : DecisionCall}
    (found : decisionTarget w call = .ok a) :
    a ∈ w.reviews ∧ a.id = call.application ∧ a.deletedAt = none ∧
      transitionAllowed call.decision a.reviewStatus = true ∧ call.decision ≠ .approve := by
  obtain ⟨_, valid, found⟩ := bind_ok.mp found
  obtain ⟨-, -, found⟩ := bind_ok.mp found
  obtain ⟨app, known, found⟩ := bind_ok.mp found
  obtain ⟨_, allowed, found⟩ := bind_ok.mp found
  obtain ⟨-, -, found⟩ := bind_ok.mp found
  obtain ⟨-, -, found⟩ := bind_ok.mp found
  obtain rfl := return_ok.mp found
  obtain ⟨mem, own, undeleted⟩ := application?_spec (orElse_ok.mp known)
  obtain ⟨_, critical, -⟩ := bind_ok.mp valid
  exact ⟨mem, own, undeleted, require_ok.mp allowed, (require_ok.mp critical).2.1⟩

theorem adminDecide_effect {call : DecisionCall} (done : adminDecide p w call = .ok t) :
    ∃ a, decisionTarget w call = .ok a ∧ t = w.decided p w.clock a.id call.decision := by
  obtain ⟨a, target, done⟩ := bind_ok.mp done
  exact ⟨a, target, (return_ok.mp done).symm⟩

variable {decision : AdminDecision}

theorem mem_markDecided {now : Nat}
    (mem : row ∈ (w.markDecided now app decision).reviews) (own : row.id = app) :
    ∃ old ∈ w.reviews, old.id = app ∧
      row.reviewStatus = decision.nextStatus.getD old.reviewStatus ∧
      row.deletedAt = if decision.nextStatus = some .deleted then some now else old.deletedAt := by
  obtain ⟨old, oldMem, rfl⟩ := mem_setReview.mp mem
  by_cases picked : old.id = app
  · rw [if_pos picked]
    exact ⟨old, oldMem, picked, rfl, rfl⟩
  · rw [if_neg picked] at own
    exact absurd own picked

/-- Apart from the status, only the approvals of a deleted application are written. -/
theorem mem_decided {now : Nat} :
    row ∈ (w.decided p now app decision).reviews →
      ∃ kept ∈ (w.markDecided now app decision).reviews, kept.id = row.id ∧
        kept.reviewStatus = row.reviewStatus ∧ kept.deletedAt = row.deletedAt ∧
        (row.id ≠ app → kept = row) := by
  intro mem
  cases decision with
  | delete =>
      obtain ⟨kept, held, rfl⟩ := Table.of_mem_updated mem rfl
      by_cases picked : kept.id = app
      · rw [if_pos (decide_eq_true picked)]
        exact ⟨kept, held, rfl, rfl, rfl, fun other => absurd picked other⟩
      · rw [if_neg (by simpa using picked)]
        exact ⟨kept, held, rfl, rfl, rfl, fun _ => rfl⟩
  | _ => exact ⟨row, mem, rfl, rfl, rfl, fun _ => rfl⟩

theorem decided_others {now : Nat}
    (mem : row ∈ w.reviews) (other : row.id ≠ app) :
    row ∈ (w.decided p now app decision).reviews := by
  have marked : row ∈ (w.markDecided now app decision).reviews :=
    (mem_setReview_others other).mpr mem
  cases decision with
  | delete => exact Table.mem_of_unpicked marked (decide_eq_false other) rfl
  | _ => exact marked

theorem decided_own {now : Nat}
    (mem : row ∈ (w.decided p now app decision).reviews) (own : row.id = app) :
    ∃ old ∈ w.reviews, old.id = app ∧
      row.reviewStatus = decision.nextStatus.getD old.reviewStatus ∧
      row.deletedAt = if decision.nextStatus = some .deleted then some now else old.deletedAt := by
  obtain ⟨kept, held, id, status, deletedAt, -⟩ := mem_decided mem
  rw [← status, ← deletedAt]
  exact mem_markDecided held (id.trans own)

theorem decided_of_others {now : Nat}
    (mem : row ∈ (w.decided p now app decision).reviews) (other : row.id ≠ app) :
    row ∈ w.reviews := by
  obtain ⟨kept, held, -, -, -, same⟩ := mem_decided mem
  rw [same other] at held
  exact (mem_setReview_others other).mp held

theorem decided_evolves (now app : Nat) (decision : AdminDecision) :
    Evolves now w.db (w.decided p now app decision).db := by
  cases decision with
  | delete =>
      exact (deletePrincipal_evolves now w.db app).trans
        ((retireApplicationCredentials_evolves
          { w.markDecided now app .delete with db := deletePrincipal w.db app } now app).trans
          (revokeApplicationAuthority_evolves _ now app _))
  | suspend =>
      exact (suspendPrincipal_evolves now w.db app).trans
        (revokeApplicationAuthority_evolves
          { w.markDecided now app .suspend with db := suspendPrincipal w.db app } now app _)
  | approve | reactivate => exact restorePrincipal_evolves now w.db app
  | reject | approvePendingChanges | rejectPendingChanges => exact .refl now w.db

theorem decided_clock (now app : Nat) (decision : AdminDecision) :
    (w.decided p now app decision).clock = w.clock := by
  cases decision <;> rfl

/-- The principals of the others stay as they are. -/
theorem decided_principals (now app : Nat) (decision : AdminDecision) {old : Authority.Principal}
    (mem : old ∈ w.db.principals) (other : old.id ≠ app) :
    old ∈ (w.decided p now app decision).db.principals := by
  have apart : isApplication app old = false := by simp [isApplication, other]
  cases decision with
  | delete | approve | reactivate =>
      refine Table.mem_of_unpicked mem ?_ rfl
      rw [apart, Bool.false_and]
  | suspend => exact Table.mem_of_unpicked mem apart rfl
  | reject | approvePendingChanges | rejectPendingChanges => exact mem

/-- A decision grants nothing. -/
theorem decided_consents (now app : Nat) (decision : AdminDecision) {row : Authority.Consent}
    (mem : row ∈ (w.decided p now app decision).db.consents) (active : row.active = true) :
    row ∈ w.db.consents ∧
      (decision = .suspend ∨ decision = .delete → row.application ≠ app) := by
  have revoked {row : Authority.Consent}
      (mem : row ∈ w.db.consents.update (fun consent => consent.application = app && consent.active)
        (Authority.Consent.revoke now) fun _ => rfl) (active : row.active = true) :
      row ∈ w.db.consents ∧ row.application ≠ app := by
    obtain ⟨old, held, rfl⟩ := Table.of_mem_updated mem rfl
    by_cases picked : (decide (old.application = app) && old.active) = true
    · rw [if_pos picked] at active
      cases active
    · rw [if_neg picked] at active ⊢
      refine ⟨held, fun own => picked ?_⟩
      simp [own, active]
  cases decision with
  | delete | suspend =>
      obtain ⟨held, other⟩ := revoked mem active
      exact ⟨held, fun _ => other⟩
  | reject | approvePendingChanges | rejectPendingChanges | approve | reactivate =>
      exact ⟨mem, by simp⟩

end SiliconIam.Applications.Review
