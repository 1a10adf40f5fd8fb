/-
# Applications.ReviewStanding -- the review status and the principal agree

`Valid` is what holds in every state of a run whose operations are `Settled`: the
identifiers are drawn, a row is marked deleted exactly when its status says so, and
the principal of an application that is neither suspended nor deleted is active.

An administrator's reactivation writes both columns and a configuration only one, so
agreement needs what `Settled` asks of a configuration: it does not put a suspended
application back in service.
-/
import SiliconIam.Applications.ReviewSteps

namespace SiliconIam.Applications.Review

open SiliconIam.Theory
open SiliconIam.Auth
open SiliconIam.Auth.Authority (Db Evolves)

set_option autoImplicit false

variable {p : Settings} {w t : World}

/-! ## The condition -/

/-- A code that could still be exchanged: neither spent nor expired, of a request and
a session that are not closed. -/
def Outstanding (db : Db) (now app : Nat) (code : Authority.AuthorizationCode) : Prop :=
  code.application = app ∧ code.consumedAt = none ∧ now < code.expiresAt ∧
    ¬ ∃ request ∈ db.requests, request.id = code.request ∧
      (request.status ≠ .pending ∧ request.status ≠ .approved ∨
        ∃ session ∈ db.sessions, session.id = request.session ∧ session.live now = false)

instance (db : Db) (now app : Nat) (code : Authority.AuthorizationCode) :
    Decidable (Outstanding db now app code) :=
  inferInstanceAs (Decidable (_ ∧ _ ∧ _ ∧ _))

def ReviewedApplication.Withdrawn (a : ReviewedApplication) : Prop :=
  a.reviewStatus = .suspended ∨ a.reviewStatus = .rejected

instance (a : ReviewedApplication) : Decidable a.Withdrawn := inferInstanceAs (Decidable (_ ∨ _))

/-- No application is suspended while one of its codes is outstanding, and none that
is suspended or rejected is configured back into service or activated. -/
def Settled (w : World) : Act → Prop
  | .decide call => ∀ a, decisionTarget w call = .ok a → call.decision = .suspend →
      ∀ code ∈ w.db.codes, ¬ Outstanding w.db w.clock a.id code
  | .configure call => ∀ a, configurationTarget w call = .ok (some a) →
      call.visibilityPublic = false → call.disabled = false → ¬ a.Withdrawn
  | .activate call => ∀ a, activationTarget w call = .ok a → ¬ a.Withdrawn
  | _ => True

/-! ## Every operation -/

theorem act_evolves (w : World) (a : Act) : Evolves w.clock w.db (act p w a).db := by
  cases a with
  | decide call =>
      show Evolves _ _ (committed w (adminDecide p w call)).db
      cases done : adminDecide p w call with
      | error _ => exact .refl _ _
      | ok t =>
          obtain ⟨a, -, rfl⟩ := adminDecide_effect done
          exact decided_evolves w.clock a.id call.decision
  | configure call =>
      show Evolves _ _ (committed w (configure p w call)).db
      cases done : configure p w call with
      | error _ => exact .refl _ _
      | ok t =>
          obtain rfl | ⟨-, existing, s, -, ⟨-, rfl⟩ | ⟨-, created⟩, configured, -⟩ :=
            configure_effect done
          · exact .refl _ _
          · exact configured.evolves
          · exact ((createApplication_effect created).1.trans configured).evolves
  | activate call =>
      show Evolves _ _ (committed w (activate p w call)).db
      cases done : activate p w call with
      | error _ => exact .refl _ _
      | ok t =>
          obtain ⟨a, -, configured, -⟩ := activate_effect done
          exact configured.evolves
  | exchange exchange =>
      have evolves := Authority.next_evolves p.security (w.view p) (exchange.action w.clock)
      have time : (exchange.action w.clock).now = w.clock := by cases exchange <;> rfl
      rw [time] at evolves
      exact { evolves with }
  | directory directory => exact (Authority.Write.configure w.db w.clock directory).evolves
  | expand delivery application =>
      simp only [act]
      split <;> exact .refl _ _
  | deliver delivery action => exact .refl _ _

theorem act_clock (w : World) (a : Act) : (act p w a).clock = w.clock := by
  cases a with
  | decide call =>
      show (committed w (adminDecide p w call)).clock = _
      cases done : adminDecide p w call with
      | error _ => rfl
      | ok t =>
          obtain ⟨a, -, rfl⟩ := adminDecide_effect done
          exact decided_clock w.clock a.id call.decision
  | configure call =>
      show (committed w (configure p w call)).clock = _
      cases done : configure p w call with
      | error _ => rfl
      | ok t =>
          obtain rfl | ⟨-, existing, s, -, ⟨-, rfl⟩ | ⟨-, created⟩, configured, -⟩ :=
            configure_effect done
          · rfl
          · exact configured.clock
          · exact ((createApplication_effect created).1.trans configured).clock
  | activate call =>
      show (committed w (activate p w call)).clock = _
      cases done : activate p w call with
      | error _ => rfl
      | ok t =>
          obtain ⟨a, -, configured, -⟩ := activate_effect done
          exact configured.clock
  | expand delivery application =>
      simp only [act]
      split <;> rfl
  | _ => rfl

/-- An exchange changes no principal, and only a consent changes consents. -/
theorem exchange_grants (w : World) (exchange : Exchange) :
    (act p w (.exchange exchange)).db.principals = w.db.principals ∧
      ((∃ access input fresh, exchange = .consent access input fresh) ∨
        (act p w (.exchange exchange)).db.consents = w.db.consents) := by
  have same {next : Db} (same : Authority.SameGrants (w.view p) next) :
      next.principals = w.db.principals ∧
        ((∃ access input fresh, exchange = .consent access input fresh) ∨
          next.consents = w.db.consents) :=
    ⟨same.principals, .inr same.consents⟩
  cases exchange with
  | consent access input fresh =>
      refine ⟨?_, .inl ⟨access, input, fresh, rfl⟩⟩
      simp only [act, Exchange.action, Authority.next]
      split
      · rename_i after done
        have principals := Authority.issueForSelection_principals done
        exact principals
      · rfl
  | code => exact same (.committed fun _ _ done => .exchangeAuthorizationCode done)
  | refresh => exact same (.committed fun _ _ done => .exchangeRefreshToken done)
  | oboExchange => exact same (.committed fun _ _ done => .oboExchange done)
  | oboVerify => exact same (.committed fun _ _ done => .oboVerify done)
  | authenticate | introspect | introspectRefreshToken => exact same (.refl _)

/-! ## Agreement -/

/-- The principal statuses that agree with a review status. -/
def Stands : ReviewStatus → Authority.PrincipalStatus → Prop
  | .deleted, _ => True
  | .suspended, principal => principal ≠ .deleted
  | _, principal => principal = .active

def Standing (db : Db) (a : ReviewedApplication) : Prop :=
  ∃ principal ∈ db.principals, principal.id = a.id ∧ principal.kind = .application ∧
    Stands a.reviewStatus principal.status

theorem Stands.not_deleted {status : ReviewStatus} {principal : Authority.PrincipalStatus}
    (stands : Stands status principal) (here : status ≠ .deleted) : principal ≠ .deleted := by
  cases status with
  | deleted => exact absurd rfl here
  | suspended => exact stands
  | underReview | verified | rejected =>
      obtain rfl : principal = .active := stands
      exact fun same => by cases same

theorem Stands.active {status : ReviewStatus} {principal : Authority.PrincipalStatus}
    (stands : Stands status principal) (here : status ≠ .deleted) (served : status ≠ .suspended) :
    principal = .active := by
  cases status with
  | deleted => exact absurd rfl here
  | suspended => exact absurd rfl served
  | underReview | verified | rejected => exact stands

structure Valid (w : World) : Prop where
  ids : Authority.Ids w.db
  marked : ∀ a ∈ w.reviews, a.reviewStatus = .deleted ↔ a.deletedAt.isSome = true
  standing : ∀ a ∈ w.reviews, Standing w.db a

variable {a : ReviewedApplication}

theorem Valid.undeleted (valid : Valid w) (mem : a ∈ w.reviews)
    (undeleted : a.deletedAt = none) : a.reviewStatus ≠ .deleted := by
  intro deleted
  have := (valid.marked a mem).mp deleted
  simp [undeleted] at this

theorem Standing.keeps {db after : Db} (keeps : KeepsStanding db after)
    (standing : Standing db a) : Standing after a := by
  obtain ⟨principal, mem, own, kind, stands⟩ := standing
  obtain ⟨row, held, id, rowKind, status⟩ := keeps principal mem kind
  exact ⟨row, held, id.trans own, rowKind, status ▸ stands⟩

/-- A state with the same applications, whose principals keep their status. -/
theorem Valid.kept (valid : Valid w) (reviews : t.reviews = w.reviews)
    (ids : Authority.Ids t.db) (keeps : KeepsStanding w.db t.db) : Valid t where
  ids := ids
  marked := reviews ▸ valid.marked
  standing a mem := (valid.standing a (reviews ▸ mem)).keeps keeps

theorem Valid.configured {app : Nat} (valid : Valid w) (configured : Configured app w t)
    (live : ∀ row ∈ w.reviews, row.id = app → row.deletedAt = none)
    (own : ∀ row ∈ t.reviews, row.id = app → row.reviewStatus ≠ .deleted ∧ Standing t.db row) :
    Valid t where
  ids := valid.ids.evolves configured.evolves
  marked a mem := by
    by_cases picked : a.id = app
    · have undeleted := configured.rewrites.live live a mem picked
      simp [(own a mem picked).1, undeleted]
    · exact valid.marked a ((configured.rewrites.others a picked).mp mem)
  standing a mem := by
    by_cases picked : a.id = app
    · exact (own a mem picked).2
    · exact (valid.standing a ((configured.rewrites.others a picked).mp mem)).keeps
        configured.standing

/-- The rows of an application that is not deleted. -/
theorem live_of_target {app : Nat} (mem : a ∈ w.reviews) (own : a.id = app)
    (undeleted : a.deletedAt = none) : ∀ row ∈ w.reviews, row.id = app → row.deletedAt = none := by
  intro row held same
  rw [Table.unique held mem (same.trans own.symm)]
  exact undeleted

theorem Valid.configure {call : ConfigureCall} (valid : Valid w)
    (settled : Settled w (.configure call)) (done : configure p w call = .ok t) : Valid t := by
  obtain rfl | ⟨isPrivate, existing, s, target, started, configured, status⟩ := configure_effect done
  · exact valid
  have known : ∀ row ∈ t.reviews, row.id = call.application → row.reviewStatus ≠ .deleted := by
    intro row mem own
    rw [status row mem own]
    split <;> simp
  obtain ⟨present, rfl⟩ | ⟨rfl, created⟩ := started
  · obtain ⟨a, rfl⟩ := Option.isSome_iff_exists.mp present
    obtain ⟨mem, own, undeleted⟩ := configurationTarget_spec target
    refine valid.configured configured (live_of_target mem own undeleted) fun row rowMem rowOwn =>
      ⟨known row rowMem rowOwn, ?_⟩
    obtain ⟨principal, held, id, kind, stands⟩ :=
      Standing.keeps configured.standing (valid.standing a mem)
    refine ⟨principal, held, id.trans (own.trans rowOwn.symm), kind, ?_⟩
    have here := valid.undeleted mem undeleted
    rw [status row rowMem rowOwn]
    by_cases disabled : call.disabled = true
    · rw [if_pos disabled]
      exact stands.not_deleted here
    · rw [if_neg disabled]
      have served := settled a target isPrivate (by simpa using disabled)
      exact stands.active here fun suspended => served (.inl suspended)
  · obtain ⟨creation, free, principal, held, id, kind, active⟩ := createApplication_effect created
    refine valid.configured (creation.trans configured) (fun row mem own => absurd own (free row mem))
      fun row rowMem rowOwn => ⟨known row rowMem rowOwn, ?_⟩
    obtain ⟨now, nowMem, nowId, nowKind, nowStatus⟩ := configured.standing principal held kind
    refine ⟨now, nowMem, nowId.trans (id.trans rowOwn.symm), nowKind, ?_⟩
    rw [status row rowMem rowOwn, nowStatus, active]
    split <;> simp [Stands]

theorem Valid.activate {call : ActivationCall} (valid : Valid w)
    (settled : Settled w (.activate call)) (done : activate p w call = .ok t) : Valid t := by
  obtain ⟨a, target, configured, status⟩ := activate_effect done
  obtain ⟨mem, own, undeleted⟩ := activationTarget_spec target
  refine valid.configured configured (live_of_target mem rfl undeleted) fun row rowMem rowOwn =>
    ⟨by simp [status row rowMem rowOwn], ?_⟩
  obtain ⟨principal, held, id, kind, stands⟩ :=
    Standing.keeps configured.standing (valid.standing a mem)
  refine ⟨principal, held, id.trans rowOwn.symm, kind, ?_⟩
  rw [status row rowMem rowOwn]
  exact stands.active (valid.undeleted mem undeleted) fun suspended =>
    settled a target (.inl suspended)

/-- The principal of the decided application. -/
theorem decided_standing {now : Nat} {decision : AdminDecision}
    {principal : Authority.Principal} (mem : principal ∈ w.db.principals) (own : principal.id = a.id)
    (kind : principal.kind = .application) (stands : Stands a.reviewStatus principal.status)
    (allowed : transitionAllowed decision a.reviewStatus = true) :
    ∃ row ∈ (w.decided p now a.id decision).db.principals, row.id = a.id ∧
      row.kind = .application ∧
      Stands (decision.nextStatus.getD a.reviewStatus) row.status := by
  have picked : isApplication a.id principal = true := by simp [isApplication, own, kind]
  have here (status : ReviewStatus) (same : a.reviewStatus = status) : Stands status principal.status :=
    same ▸ stands
  cases decision with
  | delete =>
      by_cases gone : principal.status = .deleted
      · refine ⟨principal, Table.mem_of_unpicked mem ?_ rfl, own, kind, trivial⟩
        simp [gone]
      · refine ⟨_, Table.mem_of_picked mem ?_ rfl, own, kind, trivial⟩
        simp [picked, gone]
  | suspend => exact ⟨_, Table.mem_of_picked mem picked rfl, own, kind, fun same => by cases same⟩
  | reactivate =>
      have present : principal.status ≠ .deleted :=
        here .suspended (by simpa [transitionAllowed] using allowed)
      refine ⟨_, Table.mem_of_picked mem ?_ rfl, own, kind, rfl⟩
      simp [picked, present]
  | approve =>
      have active : principal.status = .active :=
        here .underReview (by simpa [transitionAllowed] using allowed)
      refine ⟨_, Table.mem_of_picked mem ?_ rfl, own, kind, rfl⟩
      simp [picked, active]
  | reject => exact ⟨principal, mem, own, kind, here .underReview (by simpa [transitionAllowed] using allowed)⟩
  | approvePendingChanges | rejectPendingChanges => exact ⟨principal, mem, own, kind, stands⟩

theorem Valid.decided {call : DecisionCall} (valid : Valid w)
    (target : decisionTarget w call = .ok a) : Valid (w.decided p w.clock a.id call.decision) := by
  obtain ⟨mem, own, undeleted, allowed, -⟩ := decisionTarget_spec target
  refine ⟨valid.ids.evolves (decided_evolves w.clock a.id call.decision), ?_, ?_⟩
  · intro row rowMem
    by_cases picked : row.id = a.id
    · obtain ⟨old, held, same, status, deletedAt⟩ := decided_own rowMem picked
      rw [Table.unique held mem same] at status deletedAt
      rw [status, deletedAt]
      have here := valid.undeleted mem undeleted
      cases call.decision <;> simp [AdminDecision.nextStatus, undeleted, here]
    · exact valid.marked row (decided_of_others rowMem picked)
  · intro row rowMem
    by_cases picked : row.id = a.id
    · obtain ⟨old, held, same, status, -⟩ := decided_own rowMem picked
      rw [Table.unique held mem same] at status
      obtain ⟨principal, principalMem, id, kind, stands⟩ := valid.standing a mem
      obtain ⟨now, nowMem, nowId, nowKind, nowStands⟩ :=
        decided_standing principalMem id kind stands allowed
      exact ⟨now, nowMem, nowId.trans picked.symm, nowKind, status ▸ nowStands⟩
    · obtain ⟨principal, principalMem, id, kind, stands⟩ :=
        valid.standing row (decided_of_others rowMem picked)
      have apart : principal.id ≠ a.id := fun same => picked (id.symm.trans same)
      exact ⟨principal, decided_principals w.clock a.id call.decision principalMem apart, id, kind,
        stands⟩

/-- Every settled operation keeps the applications valid. -/
theorem Valid.act {a : Act} (valid : Valid w) (settled : Settled w a) : Valid (act p w a) := by
  have ids := valid.ids.evolves (act_evolves (p := p) w a)
  cases a with
  | decide call =>
      show Valid (committed w (adminDecide p w call))
      cases done : adminDecide p w call with
      | error _ => exact valid
      | ok t =>
          obtain ⟨a, target, rfl⟩ := adminDecide_effect done
          exact valid.decided target
  | configure call =>
      show Valid (committed w (Review.configure p w call))
      cases done : Review.configure p w call with
      | error _ => exact valid
      | ok t => exact valid.configure settled done
  | activate call =>
      show Valid (committed w (Review.activate p w call))
      cases done : Review.activate p w call with
      | error _ => exact valid
      | ok t => exact valid.activate settled done
  | exchange exchange => exact valid.kept rfl ids (.of_same (exchange_grants w exchange).1)
  | directory directory => exact valid.kept rfl ids (.of_same rfl)
  | expand delivery application =>
      simp only [Review.act] at ids ⊢
      split
      · exact valid.kept rfl valid.ids (.of_same rfl)
      · exact valid
  | deliver delivery action => exact valid.kept rfl ids (.of_same rfl)

theorem Valid.advance (valid : Valid w) (elapsed : Nat) : Valid (w.advance elapsed) :=
  ⟨valid.ids, valid.marked, valid.standing⟩

end SiliconIam.Applications.Review
