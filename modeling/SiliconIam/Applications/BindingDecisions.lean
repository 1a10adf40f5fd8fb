/-
# Applications.BindingDecisions -- when an administrator's decision is binding

`Bound` is what is expected of a run: what a suspension or a deletion ends stays
ended, an application that was withdrawn is verified again only by an administrator,
a deleted one stays deleted, and a verified one has an active principal.
`decisions_bound` is that every run has it whose operations are `Settled`.

The two conditions of `Settled` are where the code falls short.  A suspension leaves
the authorization codes of the application alone, and `reactivated_code_accepted`
exchanges one after the reactivation; a configuration writes `verified` over a
suspension, and `configured_over_suspension` leaves the principal suspended.
-/
import SiliconIam.Applications.DecidedEnds
import SiliconIam.Auth.EndedSessions

namespace SiliconIam.Applications.Review

open SiliconIam.Theory
open SiliconIam.Theory.Runs (AllSteps after)
open SiliconIam.Auth
open SiliconIam.Auth.Authority (Credential)

set_option autoImplicit false

variable {p : Settings} {w : World}

/-! ## What should hold -/

/-- The event suspends or deletes the application. -/
def Ends (w : World) (e : Event) (app : Nat) : Prop :=
  ∃ call a, e.act = .decide call ∧ (call.decision = .suspend ∨ call.decision = .delete) ∧
    decisionTarget (w.advance e.elapsed) call = .ok a ∧ a.id = app

/-- What the event ends is over in the states after it. -/
structure EndsForGood (p : Settings) (w : World) (e : Event) (app : Nat) (later : List Event) :
    Prop where
  credentials : ∀ credential, Concerns w.db app credential →
    AllSteps (next p) (fun s taken => credential ∉ accepted p s taken) (next p w e) later
  deliveries : ∀ row ∈ w.deliveries, row.application = app →
    row.lease.delivery.status = .pending ∨ row.lease.delivery.status = .processing →
      AllSteps (next p) (fun s taken => row.id ∉ attempted s taken) (next p w e) later
  consents : ∀ consent ∈ w.db.consents, consent.application = app →
    ∀ taken, taken <+: later → (∀ e ∈ taken, ¬ Regrants p consent e.act) →
      Dormant (after (next p) (next p w e) taken).db consent

/-- A suspended or rejected application is verified by an administrator only. -/
def ReturnsByDecision (p : Settings) (w : World) (e : Event) : Prop :=
  ∀ a ∈ w.reviews, a.Withdrawn → ∀ row ∈ (next p w e).reviews, row.id = a.id →
    row.reviewStatus = .verified → ∃ call, e.act = .decide call ∧ call.application = a.id

def DeletedStays (p : Settings) (w : World) (e : Event) : Prop :=
  ∀ a ∈ w.reviews, a.reviewStatus = .deleted → a ∈ (next p w e).reviews

/-- A verified application has an active principal. -/
def Agrees (w : World) : Prop :=
  ∀ a ∈ w.reviews, a.reviewStatus = .verified →
    ∃ principal ∈ w.db.principals, principal.id = a.id ∧ principal.status = .active

structure Bound (p : Settings) (start : World) (events : List Event) : Prop where
  ends : ∀ before e later app, events = before ++ e :: later →
    Ends (after (next p) start before) e app →
      EndsForGood p (after (next p) start before) e app later
  returns : AllSteps (next p) (ReturnsByDecision p) start events
  terminal : AllSteps (next p) (DeletedStays p) start events
  agreement : ∀ taken, taken <+: events → Agrees (after (next p) start taken)

/-- The condition on an event, in the state that it meets. -/
def SettledEvent (w : World) (e : Event) : Prop := Settled (w.advance e.elapsed) e.act

/-! ## Every event -/

theorem Valid.event {e : Event} (valid : Valid w) (settled : SettledEvent w e) :
    Valid (next p w e) :=
  (valid.advance e.elapsed).act settled

theorem next_clock (w : World) (e : Event) : (next p w e).clock = w.clock + e.elapsed :=
  act_clock (w.advance e.elapsed) e.act

theorem Valid.agrees (valid : Valid w) : Agrees w := by
  intro a mem verified
  obtain ⟨principal, held, own, -, stands⟩ := valid.standing a mem
  rw [verified] at stands
  exact ⟨principal, held, own, stands⟩

/-- A credential that is void by now is void and refused from now on. -/
theorem Void.refused {since : Nat} {credential : Credential} (later : List Event)
    (past : since ≤ w.clock) (void : Void since w.db credential) :
    AllSteps (next p) (fun s taken => credential ∉ accepted p s taken) w later := by
  refine Runs.allSteps_of_invariant (I := fun s => since ≤ s.clock ∧ Void since s.db credential)
    ?_ ?_ later w ⟨past, void⟩
  · rintro s taken ⟨past, void⟩
    have evolves := act_evolves (p := p) (s.advance taken.elapsed) taken.act
    have advanced : since ≤ s.clock + taken.elapsed := Nat.le_add_right_of_le past
    refine ⟨?_, void.evolves advanced evolves⟩
    rw [next_clock]
    exact advanced
  · rintro s taken ⟨past, void⟩ acceptance
    unfold accepted at acceptance
    split at acceptance
    · rename_i exchange _
      have time : (exchange.action (s.clock + taken.elapsed)).now = s.clock + taken.elapsed := by
        cases exchange <;> rfl
      have viewed : Void since (s.view p) credential := by cases credential <;> exact void
      refine viewed.not_accepted ?_ acceptance
      omega
    · cases acceptance

theorem Cancelled.refused {delivery : Nat} (later : List Event) (cancelled : Cancelled w delivery) :
    AllSteps (next p) (fun s taken => delivery ∉ attempted s taken) w later :=
  Runs.allSteps_of_invariant (I := fun s => Cancelled s delivery)
    (fun s taken held => Cancelled.act (w := s.advance taken.elapsed) taken.act held)
    (fun _ taken held => held.not_attempted taken) later w cancelled

theorem Dormant.stays {consent : Authority.Consent} (later : List Event)
    (others : ∀ e ∈ later, ¬ Regrants p consent e.act) (dormant : Dormant w.db consent) :
    Dormant (after (next p) w later).db consent := by
  have apart : AllSteps (next p) (fun _ e => ¬ Regrants p consent e.act) w later :=
    Runs.allSteps_of_forall later others w
  refine AllSteps.after (I := fun s => Dormant s.db consent) ?_ later w dormant apart
  exact fun s taken held other => Dormant.act (w := s.advance taken.elapsed) held other

/-- A suspension or a deletion ends what it should, if it is settled. -/
theorem Ends.forGood {e : Event} {app : Nat} (valid : Valid w) (settled : SettledEvent w e)
    (ends : Ends w e app) (later : List Event) : EndsForGood p w e app later := by
  obtain ⟨call, a, taken, decision, target, rfl⟩ := ends
  have done : next p w e =
      (w.advance e.elapsed).decided p (w.advance e.elapsed).clock a.id call.decision := by
    simp only [next, taken, act, adminDecide, target]
    rfl
  have ids : Authority.Ids (w.advance e.elapsed).db := valid.ids
  unfold SettledEvent at settled
  rw [taken] at settled
  refine ⟨fun credential concerns => ?_, fun row mem own undone => ?_,
    fun consent mem own reached _ others => ?_⟩
  · have void := decided_voids (p := p) ids decision (settled a target) concerns
    rw [← done] at void
    refine void.refused later ?_
    rw [next_clock]
    exact Nat.le_refl _
  · have cancelled : Cancelled (next p w e) row.id := by
      rw [done]
      exact decided_cancels (w := w.advance e.elapsed) mem own decision undone
    exact cancelled.refused later
  · have dormant : Dormant (next p w e).db consent := by
      rw [done]
      exact decided_dormant (w := w.advance e.elapsed) ids mem own decision
    exact dormant.stays reached others

/-- A row with the status it had before the event. -/
theorem unverified {a row : ReviewedApplication} (mem : a ∈ w.reviews) (withdrawn : a.Withdrawn)
    (held : row ∈ w.reviews) (own : row.id = a.id) : row.reviewStatus ≠ .verified := by
  rw [Table.unique held mem own]
  rcases withdrawn with suspended | rejected
  · simp [suspended]
  · simp [rejected]

theorem returnsByDecision {e : Event} (settled : SettledEvent w e) : ReturnsByDecision p w e := by
  intro a mem withdrawn row rowMem own verified
  have same (held : row ∈ w.reviews) : False := unverified mem withdrawn held own verified
  obtain ⟨elapsed, operation⟩ := e
  cases operation with
  | decide call =>
      simp only [next, act] at rowMem
      cases done : adminDecide p (w.advance elapsed) call with
      | error _ =>
          rw [done] at rowMem
          exact (same rowMem).elim
      | ok t =>
          rw [done] at rowMem
          obtain ⟨decided, target, rfl⟩ := adminDecide_effect done
          by_cases picked : row.id = decided.id
          · obtain ⟨-, named, -⟩ := decisionTarget_spec target
            exact ⟨call, rfl, named.symm.trans (picked.symm.trans own)⟩
          · exact (same (decided_of_others (w := w.advance elapsed) rowMem picked)).elim
  | configure call =>
      simp only [next, act] at rowMem
      cases done : configure p (w.advance elapsed) call with
      | error _ =>
          rw [done] at rowMem
          exact (same rowMem).elim
      | ok t =>
          rw [done] at rowMem
          obtain rfl | ⟨isPrivate, existing, s, target, started, configured, status⟩ :=
            configure_effect done
          · exact (same rowMem).elim
          by_cases picked : row.id = call.application
          · have enabled : call.disabled = false := by
              have now := (status row rowMem picked).symm.trans verified
              by_contra disabled
              simp [disabled] at now
            obtain ⟨present, rfl⟩ | ⟨rfl, created⟩ := started
            · obtain ⟨known, rfl⟩ := Option.isSome_iff_exists.mp present
              obtain ⟨knownMem, named, -⟩ := configurationTarget_spec target
              have here := Table.unique (show known ∈ w.reviews from knownMem) mem
                (named.trans (picked.symm.trans own))
              exact absurd (here ▸ withdrawn) (settled known target isPrivate enabled)
            · exact absurd (own.symm.trans picked) ((createApplication_effect created).2.1 a mem)
          · have before := (configured.rewrites.others row picked).mp rowMem
            obtain ⟨-, rfl⟩ | ⟨-, created⟩ := started
            · exact (same before).elim
            · have creation := (createApplication_effect created).1
              exact (same ((creation.rewrites.others row picked).mp before)).elim
  | activate call =>
      simp only [next, act] at rowMem
      cases done : activate p (w.advance elapsed) call with
      | error _ =>
          rw [done] at rowMem
          exact (same rowMem).elim
      | ok t =>
          rw [done] at rowMem
          obtain ⟨known, target, configured, -⟩ := activate_effect done
          by_cases picked : row.id = known.id
          · obtain ⟨knownMem, -⟩ := activationTarget_spec target
            have here := Table.unique (show known ∈ w.reviews from knownMem) mem (picked.symm.trans own)
            exact absurd (here ▸ withdrawn) (settled known target)
          · exact (same ((configured.rewrites.others row picked).mp rowMem)).elim
  | exchange | directory | deliver => exact (same rowMem).elim
  | expand delivery application =>
      simp only [next, act] at rowMem
      split at rowMem
      all_goals exact (same rowMem).elim

/-- Nothing is decided, configured or activated of a deleted application. -/
theorem deletedStays (valid : Valid w) (e : Event) : DeletedStays p w e := by
  intro a mem deleted
  have gone := (valid.marked a mem).mp deleted
  have apart {known : ReviewedApplication} (knownMem : known ∈ w.reviews)
      (undeleted : known.deletedAt = none) : a.id ≠ known.id := by
    intro same
    rw [Table.unique mem knownMem same, undeleted] at gone
    cases gone
  obtain ⟨elapsed, operation⟩ := e
  cases operation with
  | decide call =>
      simp only [next, act]
      cases done : adminDecide p (w.advance elapsed) call with
      | error _ => exact mem
      | ok t =>
          obtain ⟨decided, target, rfl⟩ := adminDecide_effect done
          obtain ⟨knownMem, -, undeleted, -⟩ := decisionTarget_spec target
          exact decided_others (w := w.advance elapsed) mem (apart knownMem undeleted)
  | configure call =>
      simp only [next, act]
      cases done : configure p (w.advance elapsed) call with
      | error _ => exact mem
      | ok t =>
          obtain rfl | ⟨-, existing, s, target, ⟨present, rfl⟩ | ⟨rfl, created⟩, configured, -⟩ :=
            configure_effect done
          · exact mem
          · obtain ⟨known, rfl⟩ := Option.isSome_iff_exists.mp present
            obtain ⟨knownMem, named, undeleted⟩ := configurationTarget_spec target
            exact (configured.rewrites.others a (named ▸ apart knownMem undeleted)).mpr mem
          · obtain ⟨creation, free, -⟩ := createApplication_effect created
            exact ((creation.trans configured).rewrites.others a (free a mem)).mpr mem
  | activate call =>
      simp only [next, act]
      cases done : activate p (w.advance elapsed) call with
      | error _ => exact mem
      | ok t =>
          obtain ⟨known, target, configured, -⟩ := activate_effect done
          obtain ⟨knownMem, -, undeleted⟩ := activationTarget_spec target
          exact (configured.rewrites.others a (apart knownMem undeleted)).mpr mem
  | exchange | directory | deliver => exact mem
  | expand delivery application =>
      simp only [next, act]
      split
      all_goals exact mem

/-! ## Runs -/

theorem Valid.runs (events : List Event) (valid : Valid w)
    (settled : AllSteps (next p) SettledEvent w events) : Valid (after (next p) w events) :=
  AllSteps.after (fun _ _ held step => held.event step) events w valid settled

/-- In every run whose events are settled, the decisions of the administrators are
binding. -/
theorem decisions_bound (p : Settings) (start : World) (valid : Valid start) (events : List Event)
    (settled : AllSteps (next p) SettledEvent start events) : Bound p start events where
  ends before e later app cut ends := by
    subst cut
    obtain ⟨earlier, step, -⟩ := (Runs.allSteps_append before (e :: later) start).mp settled
    exact ends.forGood (valid.runs before earlier) step later
  returns :=
    AllSteps.imp (fun _ _ held step => held.event step) (fun _ _ _ step => returnsByDecision step)
      events start valid settled
  terminal :=
    AllSteps.imp (fun _ _ held step => held.event step) (fun _ e held _ => deletedStays held e)
      events start valid settled
  agreement taken under := by
    obtain ⟨rest, rfl⟩ := under
    have earlier := ((Runs.allSteps_append taken rest start).mp settled).1
    exact (valid.runs taken earlier).agrees

/-! ### Ada's code and the suspension of its application -/

namespace Scenario

open Authority.Scenario (ada crm directory fresh login scopes ttls)

def settings : Settings where
  security := ttls
  lease :=
    { leaseDuration := 20, leasePositive := by decide, maxAttempts := 3, retryDelay := fun _ => 10 }
  handle := fun id => if id = 4 then "crm" else "ledger"
  critical := fun _ => true

def review (id : Nat) : ReviewedApplication where
  id := id
  organization := 2
  reviewStatus := .verified
  deletedAt := none
  visibilityPublic := true
  appScope := scopes
  approvals := scopes.map fun scope => ⟨scope, .providerApproval⟩
  configurationRevision := 1
  version := 1

/-- The state after the login, with the code 26 exchanged or not. -/
def world (exchanged : Bool) : World where
  clock := 30
  db := after (Authority.next ttls) (.empty directory) (login.take (if exchanged then 6 else 5))
  reviews := ⟨[review 4, review 5], by decide⟩
  deliveries := .empty _

def decision (decided : AdminDecision) (version : Nat) : Event where
  elapsed := 1
  act := .decide
    { application := 4, decision := decided, approvedScopes := none, reason := none
      permitted := true, expected := version, stepUp := true }

/-- The owner keeps the suspended application private and in service. -/
def reconfigure : Event where
  elapsed := 1
  act := .configure
    { application := 4, organization := 2, configurationRevision := 2, expectedIamRevision := 2
      visibilityPublic := false, disabled := false, publicationApproved := false
      scopes := ["self.identity.read"], valid := .ok (), permitted := true, applied := .ok () }

def consentAgain : Event where
  elapsed := 1
  act := .exchange
    (.consent ada { appId := "crm", orgIds := ["acme"], scopes := scopes } (fresh 40))

def exchangeCode : Event where
  elapsed := 1
  act := .exchange (.code { crm with authEpoch := 2 } [1026] (fresh 50))

def refreshToken : Event where
  elapsed := 1
  act := .exchange (.refresh { crm with authEpoch := 2 } [1033] (fresh 60))

theorem world_valid (exchanged : Bool) : Valid (world exchanged) where
  ids := ((Authority.Sound.empty directory).runs _).ids
  marked := by
    have each : ∀ a ∈ [review 4, review 5],
        (a.reviewStatus = .deleted ↔ a.deletedAt.isSome = true) := by decide
    exact each
  standing := by
    have each : ∀ a ∈ [review 4, review 5], a.reviewStatus = .verified ∧
        ∃ principal ∈ (world exchanged).db.principals.rows, principal.id = a.id ∧
          principal.kind = .application ∧ principal.status = .active := by
      cases exchanged <;> decide +kernel
    intro a mem
    obtain ⟨verified, principal, held, own, kind, active⟩ := each a mem
    refine ⟨principal, held, own, kind, ?_⟩
    rw [verified]
    exact active

end Scenario

open Scenario in
/-- A code from before the suspension is accepted once the application is reactivated and
its subject has consented again, and a configuration puts a suspended application back
into the verified state. -/
theorem suspension_not_binding :
    Valid (world false) ∧
      ¬ Bound settings (world false)
        [decision .suspend 1, decision .reactivate 2, consentAgain, exchangeCode] ∧
      ¬ Bound settings (world false) [decision .suspend 1, reconfigure] := by
  refine ⟨world_valid false, fun bound => ?_, fun bound => ?_⟩
  · have ends : Ends (world false) (decision .suspend 1) 4 := ⟨_, review 4, rfl, .inl rfl, rfl, rfl⟩
    have concerns : ∃ code ∈ (world false).db.codes.rows, code.id = 26 ∧ code.application = 4 := by
      decide +kernel
    have refused := (bound.ends [] _ _ 4 rfl ends).credentials
      (.authorizationCode 26) concerns
    exact refused.2.2.1 (by decide +kernel)
  · have verified : ∃ a ∈ (after (next settings) (world false)
        [decision .suspend 1, reconfigure]).reviews.rows, a.id = 4 ∧ a.reviewStatus = .verified := by
      decide +kernel
    have suspended : ∀ principal ∈ (after (next settings) (world false)
        [decision .suspend 1, reconfigure]).db.principals.rows, principal.id = 4 →
          principal.status = .suspended := by
      decide +kernel
    obtain ⟨a, mem, own, status⟩ := verified
    obtain ⟨principal, held, named, active⟩ :=
      bound.agreement _ (List.prefix_refl _) a mem status
    rw [suspended principal held (named.trans own)] at active
    cases active

open Scenario in
/-- With its code exchanged before, the application gets nothing out of it after the
reactivation. -/
theorem decisions_bound_exchanged :
    Bound settings (world true)
      [decision .suspend 1, decision .reactivate 2, consentAgain, exchangeCode, refreshToken] := by
  refine decisions_bound settings (world true) (world_valid true) _
    ⟨fun a _ _ code mem undone => ?_, fun _ _ suspend => ?_, trivial, trivial, trivial, trivial⟩
  · have spent : ∀ code ∈ (world true).db.codes.rows, code.consumedAt.isSome = true := by
      decide +kernel
    have := spent code mem
    simp [undone.2.1] at this
  · cases suspend

end SiliconIam.Applications.Review
