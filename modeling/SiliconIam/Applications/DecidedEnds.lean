/-
# Applications.DecidedEnds -- what a suspension or a deletion ends

Each kind of derived authority has a form of being over that every operation keeps:
a credential is `Void`, a delivery `Cancelled`, a consent `Dormant` until its subject
grants it again.  A suspension and a deletion put everything of the application into
that form (`decided_voids`, `decided_cancels`, `decided_dormant`).

The codes are the exception.  A deletion consumes them and a suspension does not, so
those of a suspended application are void only when they had lapsed by themselves.
-/
import SiliconIam.Applications.ReviewStanding

namespace SiliconIam.Applications.Review

open SiliconIam.Theory
open SiliconIam.Auth
open SiliconIam.Auth.Authority (Acceptance Credential Db Evolves Ids Spent)
open SiliconIam.Webhook

set_option autoImplicit false

variable {p : Settings} {w : World} {now app : Nat} {db after : Db} {credential : Credential}

/-! ## Credentials -/

/-- The credential was issued to the application or for it. -/
def Concerns (db : Db) (app : Nat) : Credential → Prop
  | .accessToken id => ∃ token ∈ db.access, token.id = id ∧
      (token.client = some app ∨ token.audienceApplication = some app)
  | .refreshToken id => ∃ token ∈ db.tokens, token.id = id ∧
      ∃ family ∈ db.families, family.id = token.family ∧ family.client = some app
  | .authorizationCode id => ∃ code ∈ db.codes, code.id = id ∧ code.application = app
  | .oboProof id => ∃ proof ∈ db.proofs, proof.id = id ∧
      (proof.issuerApplication = app ∨ proof.audienceApplication = app)

def SessionOver (since : Nat) (session : Authority.Session) : Prop :=
  session.status ≠ .active ∨ session.idleExpiresAt ≤ since ∨ session.absoluteExpiresAt ≤ since

/-- Whatever rows the code still has, it is spent, or it expired by `since`, or its
request or its session was over by then. -/
def Lapsed (since : Nat) (db : Db) (id : Nat) : Prop :=
  id ∈ db.drawn ∧ ∀ code ∈ db.codes, code.id = id →
    code.consumedAt.isSome = true ∨ code.expiresAt ≤ since ∨
      code.request ∈ db.drawn ∧ ∀ request ∈ db.requests, request.id = code.request →
        request.status ≠ .pending ∧ request.status ≠ .approved ∨
          request.session ∈ db.drawn ∧ ∀ session ∈ db.sessions, session.id = request.session →
            SessionOver since session

def Void (since : Nat) (db : Db) : Credential → Prop
  | .authorizationCode id => Lapsed since db id
  | credential => Spent db credential

variable {since : Nat}

theorem SessionOver.not_live {session : Authority.Session}
    (passed : SessionOver since session) (past : since ≤ now) : session.live now = false := by
  simp only [Authority.Session.live, Bool.and_eq_false_iff, decide_eq_false_iff_not]
  rcases passed with closed | idle | absolute
  · exact .inl (.inl closed)
  · exact .inl (.inr (by omega))
  · exact .inr (by omega)

theorem SessionOver.of_not_live {session : Authority.Session} (dead : session.live now = false) :
    SessionOver now session := by
  simp only [Authority.Session.live, Bool.and_eq_false_iff, decide_eq_false_iff_not] at dead
  rcases dead with (closed | idle) | absolute
  · exact .inl closed
  · exact .inr (.inl (by omega))
  · exact .inr (.inr (by omega))

theorem SessionOver.continues {old session : Authority.Session} (past : since ≤ now)
    (step : Table.Continues Authority.Session.fixed (Authority.Session.marks now) old session)
    (passed : SessionOver since old) : SessionOver since session := by
  rcases passed with closed | idle | absolute
  · exact .inl (step.marks .ended closed)
  · exact .inr (.inl (step.marks (.idle since) (fun _ => idle) past))
  · have kept : old.absoluteExpiresAt = session.absoluteExpiresAt :=
      (congrArg Authority.Session.absoluteExpiresAt step.fixed :)
    right; omega

theorem Lapsed.evolves {id : Nat} (past : since ≤ now) (evolves : Evolves now db after)
    (lapsed : Lapsed since db id) : Lapsed since after id := by
  refine ⟨evolves.drawn _ lapsed.1, fun code mem own => ?_⟩
  obtain ⟨old, held, step⟩ := evolves.codes.continues mem (own ▸ lapsed.1)
  have expiry : old.expiresAt = code.expiresAt :=
    (congrArg Authority.AuthorizationCode.expiresAt step.fixed :)
  have named : old.request = code.request :=
    (congrArg Authority.AuthorizationCode.request step.fixed :)
  rcases lapsed.2 old held ((Authority.AuthorizationCode.keyed _ _ step.fixed).trans own) with
    consumed | expired | ⟨drawn, closed⟩
  · exact .inl (step.marks () consumed)
  · exact .inr (.inl (by omega))
  · rw [named] at drawn closed
    refine .inr (.inr ⟨evolves.drawn _ drawn, fun request requestMem requestOwn => ?_⟩)
    obtain ⟨before, beforeMem, requestStep⟩ :=
      evolves.requests.continues requestMem (requestOwn ▸ drawn)
    have session : before.session = request.session :=
      (congrArg Authority.AuthorizationRequest.session requestStep.fixed :)
    have same := Authority.AuthorizationRequest.keyed _ _ requestStep.fixed
    rcases closed before beforeMem (same.trans requestOwn) with shut | ⟨sessionDrawn, passed⟩
    · exact .inl (requestStep.marks () shut)
    · rw [session] at sessionDrawn passed
      refine .inr ⟨evolves.drawn _ sessionDrawn, fun row rowMem rowOwn => ?_⟩
      obtain ⟨earlier, earlierMem, sessionStep⟩ :=
        evolves.sessions.continues rowMem (rowOwn ▸ sessionDrawn)
      have sameSession := Authority.Session.keyed _ _ sessionStep.fixed
      exact (passed earlier earlierMem (sameSession.trans rowOwn)).continues past sessionStep

/-- A code that is not outstanding has lapsed. -/
theorem Lapsed.of_not_outstanding {code : Authority.AuthorizationCode} (ids : Ids db)
    (mem : code ∈ db.codes) (own : code.application = app) (done : ¬ Outstanding db now app code) :
    Lapsed now db code.id := by
  refine ⟨ids.codes code mem, fun other held same => ?_⟩
  rw [Table.unique held mem same]
  by_cases spent : code.consumedAt = none
  · by_cases unexpired : now < code.expiresAt
    · obtain ⟨request, requestMem, named, closed⟩ :=
        Classical.not_not.mp fun still => done ⟨own, spent, unexpired, still⟩
      refine .inr (.inr ⟨named ▸ ids.requests request requestMem, fun row rowMem rowOwn => ?_⟩)
      rw [Table.unique rowMem requestMem (rowOwn.trans named.symm)]
      rcases closed with shut | ⟨session, sessionMem, sessionOwn, dead⟩
      · exact .inl shut
      · refine .inr ⟨sessionOwn ▸ ids.sessions session sessionMem, fun other otherMem otherOwn => ?_⟩
        rw [Table.unique otherMem sessionMem (otherOwn.trans sessionOwn.symm)]
        exact .of_not_live dead
    · exact .inr (.inl (by omega))
  · exact .inl (Option.isSome_iff_ne_none.mpr spent)

/-- An exchange asks for an approved request of a current session. -/
theorem Lapsed.not_exchanged {settings : Authority.SecuritySettings}
    {client : Authority.ApplicationIdentity} {supplied : List Nat} {fresh : Authority.Fresh}
    {row : Authority.AuthorizationCodeRow} {result : Authority.AppTokenResponse × Db}
    (lapsed : Lapsed since db row.code.id) (past : since ≤ now)
    (lookup : Authority.authorizationCodeLookup db now client supplied = some row) :
    Authority.exchangeAuthorizationCode db settings now client supplied fresh ≠ .ok result := by
  intro done
  obtain ⟨other, authority, -, otherLookup, locked, -⟩ :=
    Authority.exchangeAuthorizationCode_eq_ok done
  obtain rfl := Option.some.inj (lookup.symm.trans otherLookup)
  have found := Authority.authorizationCodeLookup_spec lookup
  obtain ⟨session, sessionMem, own, live, -⟩ := Authority.CurrentSession.of_subjectAuthority locked
  rcases lapsed.2 row.code found.code rfl with consumed | expired | ⟨-, closed⟩
  · simp [found.unconsumed] at consumed
  · have := found.unexpired
    omega
  · rcases closed row.request found.request found.requestOwn with ⟨-, unapproved⟩ | ⟨-, passed⟩
    · exact unapproved found.approved
    · rw [(passed session sessionMem own).not_live past] at live
      cases live

theorem Void.iff_spent (notCode : ∀ id, credential ≠ .authorizationCode id) :
    Void since db credential ↔ Spent db credential := by
  cases credential with
  | authorizationCode id => exact absurd rfl (notCode id)
  | _ => exact Iff.rfl

theorem Void.evolves (past : since ≤ now) (evolves : Evolves now db after)
    (void : Void since db credential) : Void since after credential := by
  cases credential with
  | authorizationCode id => exact Lapsed.evolves past evolves void
  | accessToken | refreshToken | oboProof =>
      have spent := (Void.iff_spent (by simp)).mp void
      exact (Void.iff_spent (by simp)).mpr (spent.evolves evolves)

theorem Void.not_accepted {settings : Authority.SecuritySettings}
    {action : Authority.Action} (void : Void since db credential) (past : since ≤ action.now) :
    credential ∉ Authority.accepted settings db action := by
  intro taken
  have acceptance := Acceptance.of_accepted taken
  cases credential with
  | authorizationCode id =>
      cases acceptance with
      | code lookup done => exact Lapsed.not_exchanged void past lookup done
  | accessToken | refreshToken | oboProof => exact acceptance.not_spent void

/-- Retiring an application spends what concerns it, apart from its codes. -/
theorem Concerns.spent (ids : Ids db) (concerns : Concerns db app credential)
    (notCode : ∀ id, credential ≠ .authorizationCode id) (now : Nat) (reason : String) :
    Spent (Authority.revokeApplicationAuthority db now app reason) credential := by
  cases credential with
  | accessToken id =>
      obtain ⟨token, mem, rfl, of_⟩ := concerns
      refine ⟨ids.access token mem, fun row rowMem own => ?_⟩
      obtain ⟨old, held, rfl⟩ := Table.of_mem_updated rowMem rfl
      split
      · rfl
      · rename_i other
        rw [if_neg other] at own
        obtain rfl := Table.unique held mem own
        simpa [of_, ← Option.ne_none_iff_isSome] using other
  | refreshToken id =>
      obtain ⟨token, mem, rfl, family, familyMem, owner, client⟩ := concerns
      refine ⟨ids.tokens token mem, fun row rowMem own => .inr ?_⟩
      have named : row.family = token.family := by
        obtain ⟨old, held, rfl⟩ := Table.of_mem_updated rowMem rfl
        have same : old.id = token.id := by
          split at own
          · exact (Authority.RefreshToken.revoke_id now old).symm.trans own
          · exact own
        obtain rfl := Table.unique held mem same
        split
        all_goals rfl
      rw [named]
      refine ⟨owner ▸ ids.families family familyMem, fun other otherMem otherOwn => ?_⟩
      obtain ⟨old, held, rfl⟩ := Table.of_mem_updated otherMem rfl
      split
      · simp [Authority.Family.revoke]
      · rename_i undone
        rw [if_neg undone] at otherOwn
        obtain rfl := Table.unique held familyMem (otherOwn.trans owner.symm)
        simpa [client] using undone
  | authorizationCode id => exact absurd rfl (notCode id)
  | oboProof id =>
      obtain ⟨proof, mem, rfl, of_⟩ := concerns
      refine ⟨ids.proofs proof mem, fun row rowMem own => ?_⟩
      obtain ⟨old, held, rfl⟩ := Table.of_mem_updated rowMem rfl
      split
      · exact .inr rfl
      · rename_i other
        rw [if_neg other] at own
        obtain rfl := Table.unique held mem own
        by_cases consumed : old.consumedAt = none
        · simpa [of_, consumed, ← Option.ne_none_iff_isSome] using other
        · exact .inl (Option.isSome_iff_ne_none.mpr consumed)

variable {decision : AdminDecision}

theorem decided_spends (ids : Ids w.db)
    (ends : decision = .suspend ∨ decision = .delete) (concerns : Concerns w.db app credential)
    (notCode : ∀ id, credential ≠ .authorizationCode id) :
    Spent (w.decided p now app decision).db credential := by
  rcases ends with rfl | rfl
  · have same : Concerns (suspendPrincipal w.db app) app credential := by
      cases credential <;> exact concerns
    exact same.spent (ids.evolves (suspendPrincipal_evolves now w.db app)) notCode now _
  · let deleted := { w.markDecided now app .delete with db := deletePrincipal w.db app }
    have same : Concerns (retireApplicationCredentials deleted now app).db app credential := by
      cases credential with
      | authorizationCode id => exact absurd rfl (notCode id)
      | accessToken | refreshToken | oboProof => exact concerns
    have retiredIds := (ids.evolves (deletePrincipal_evolves now w.db app)).evolves
      (retireApplicationCredentials_evolves deleted now app)
    exact same.spent retiredIds notCode now _

/-- A deletion voids all that concerns the application; so does a suspension that
finds no code outstanding. -/
theorem decided_voids (ids : Ids w.db)
    (ends : decision = .suspend ∨ decision = .delete)
    (settled : decision = .suspend → ∀ code ∈ w.db.codes, ¬ Outstanding w.db w.clock app code)
    (concerns : Concerns w.db app credential) :
    Void w.clock (w.decided p w.clock app decision).db credential := by
  have evolves := decided_evolves (p := p) (w := w) w.clock app decision
  cases credential with
  | authorizationCode id =>
      obtain ⟨code, mem, rfl, own⟩ := concerns
      rcases ends with rfl | rfl
      · exact (Lapsed.of_not_outstanding ids mem own (settled rfl code mem)).evolves (Nat.le_refl _)
          evolves
      · refine ⟨evolves.drawn _ (ids.codes code mem), fun row rowMem same => .inl ?_⟩
        obtain ⟨old, held, rfl⟩ := Table.of_mem_updated rowMem rfl
        split
        · rfl
        · rename_i other
          rw [if_neg other] at same
          obtain rfl := Table.unique held mem same
          simpa [own, ← Option.ne_none_iff_isSome] using other
  | accessToken | refreshToken | oboProof =>
      exact (Void.iff_spent (by simp)).mpr (decided_spends ids ends concerns (by simp))

/-! ## Deliveries -/

def Cancelled (w : World) (delivery : Nat) : Prop :=
  ∃ row ∈ w.deliveries, row.id = delivery ∧ row.lease.delivery.status = .cancelled

theorem Cancelled.of_same {t : World} {delivery : Nat} (same : t.deliveries = w.deliveries)
    (cancelled : Cancelled w delivery) : Cancelled t delivery := by
  unfold Cancelled
  rwa [same]

/-- Whatever is done to the rows, one that is cancelled stays so. -/
theorem Cancelled.updated {t : World} {delivery : Nat} {q : DeliveryRow → Bool}
    {set : DeliveryRow → DeliveryRow} (updated : Table.Updated q set w.deliveries t.deliveries)
    (keeps : ∀ row, (set row).id = row.id)
    (stays : ∀ row, row.lease.delivery.status = .cancelled →
      (set row).lease.delivery.status = .cancelled)
    (cancelled : Cancelled w delivery) : Cancelled t delivery := by
  obtain ⟨row, mem, own, status⟩ := cancelled
  by_cases picked : q row = true
  · exact ⟨set row, Table.mem_of_picked mem picked updated, (keeps row).trans own, stays row status⟩
  · exact ⟨row, Table.mem_of_unpicked mem (by simpa using picked) updated, own, status⟩

theorem Cancelled.decided {delivery : Nat} (decision : AdminDecision)
    (cancelled : Cancelled w delivery) : Cancelled (w.decided p now app decision) delivery := by
  have kept : Cancelled (w.markDecided now app decision) delivery := cancelled
  cases decision with
  | suspend | delete =>
      refine kept.updated rfl (fun _ => rfl) fun row status => ?_
      simp only [DeliveryLease.act_cancelled p.lease .cancel status, status]
  | approve | reject | reactivate | approvePendingChanges | rejectPendingChanges => exact kept

theorem Cancelled.act {delivery : Nat} (a : Act) (cancelled : Cancelled w delivery) :
    Cancelled (act p w a) delivery := by
  cases a with
  | decide call =>
      show Cancelled (committed w (adminDecide p w call)) _
      cases done : adminDecide p w call with
      | error _ => exact cancelled
      | ok t =>
          obtain ⟨a, -, rfl⟩ := adminDecide_effect done
          exact cancelled.decided call.decision
  | configure call =>
      show Cancelled (committed w (Review.configure p w call)) _
      cases done : Review.configure p w call with
      | error _ => exact cancelled
      | ok t =>
          obtain rfl | ⟨-, existing, s, -, ⟨-, rfl⟩ | ⟨-, created⟩, configured, -⟩ :=
            configure_effect done
          · exact cancelled
          · exact cancelled.of_same configured.deliveries
          · have creation := (createApplication_effect created).1.trans configured
            exact cancelled.of_same creation.deliveries
  | activate call =>
      show Cancelled (committed w (Review.activate p w call)) _
      cases done : Review.activate p w call with
      | error _ => exact cancelled
      | ok t =>
          obtain ⟨a, -, configured, -⟩ := activate_effect done
          exact cancelled.of_same configured.deliveries
  | exchange | directory => exact cancelled
  | expand other application =>
      simp only [Review.act]
      split
      · rename_i deliveries inserted
        obtain ⟨row, mem, own, status⟩ := cancelled
        exact ⟨row, ((Table.insert_spec inserted).2 row).mpr (.inr mem), own, status⟩
      · exact cancelled
  | deliver other action =>
      refine cancelled.updated rfl (fun _ => rfl) fun row status => ?_
      simp only [DeliveryLease.act_cancelled p.lease (s := { row.lease with clock := w.clock }) action
        status, status]

theorem Cancelled.not_attempted {delivery : Nat} (cancelled : Cancelled w delivery) (e : Event) :
    delivery ∉ attempted w e := by
  obtain ⟨row, mem, rfl, status⟩ := cancelled
  intro taken
  unfold attempted at taken
  split at taken
  · obtain ⟨held, heldMem, own⟩ := List.mem_map.mp taken
    obtain ⟨heldRow, picked⟩ := List.mem_filter.mp heldMem
    rw [Table.unique (show held ∈ w.deliveries from heldRow) mem own] at picked
    simp only [Bool.and_eq_true] at picked
    have taken := picked.2
    unfold takesOn at taken
    split at taken
    · split at taken
      · simp [DeliveryLease.Delivery.claimable, status] at taken
      · cases taken
    · split at taken
      · simp [DeliveryLease.Delivery.holds, status] at taken
      · cases taken
    · cases taken
  · cases taken

/-- A suspension and a deletion cancel what is not done. -/
theorem decided_cancels {row : DeliveryRow} (mem : row ∈ w.deliveries)
    (own : row.application = app) (ends : decision = .suspend ∨ decision = .delete)
    (undone : row.lease.delivery.status = .pending ∨ row.lease.delivery.status = .processing) :
    Cancelled (w.decided p now app decision) row.id := by
  have cancels : (DeliveryLease.act p.lease row.lease .cancel).delivery.status = .cancelled := by
    have running : (decide (row.lease.delivery.status = .pending) ||
        decide (row.lease.delivery.status = .processing)) = true := by simpa using undone
    simp only [DeliveryLease.act]
    rw [if_pos running]
    rfl
  rcases ends with rfl | rfl
  all_goals exact ⟨_, Table.mem_of_picked mem (decide_eq_true own) rfl, rfl, cancels⟩

/-! ## Consents -/

/-- The subject lets the application have the consent again, from the same session. -/
def Regrants (p : Settings) (consent : Authority.Consent) (a : Act) : Prop :=
  ∃ access input fresh, a = .exchange (.consent access input fresh) ∧
    access.subject.id = consent.subject ∧ access.session = consent.parentSession ∧
    input.appId = p.handle consent.application

/-- The row of the consent is revoked. -/
def Dormant (db : Db) (consent : Authority.Consent) : Prop :=
  consent.id ∈ db.drawn ∧ ∀ row ∈ db.consents, row.id = consent.id →
    row.fixed = consent.fixed ∧ row.active = false

/-- A row is active because it was, because it is new, or because it is granted. -/
theorem act_consents {a : Act} {row : Authority.Consent} (mem : row ∈ (act p w a).db.consents)
    (active : row.active = true) :
    (∃ old ∈ w.db.consents, old.id = row.id ∧ old.active = true) ∨ row.id ∉ w.db.drawn ∨
      Regrants p row a := by
  have before (held : row ∈ w.db.consents) : ∃ old ∈ w.db.consents, old.id = row.id ∧
      old.active = true := ⟨row, held, rfl, active⟩
  cases a with
  | decide call =>
      simp only [act] at mem
      cases done : adminDecide p w call with
      | error _ =>
          rw [done] at mem
          exact .inl (before mem)
      | ok t =>
          rw [done] at mem
          obtain ⟨a, -, rfl⟩ := adminDecide_effect done
          exact .inl (before (decided_consents _ _ _ mem active).1)
  | configure call =>
      simp only [act] at mem
      cases done : configure p w call with
      | error _ =>
          rw [done] at mem
          exact .inl (before mem)
      | ok t =>
          rw [done] at mem
          obtain rfl | ⟨-, existing, s, -, ⟨-, rfl⟩ | ⟨-, created⟩, configured, -⟩ :=
            configure_effect done
          · exact .inl (before mem)
          · exact .inl (before (configured.consents ▸ mem))
          · have creation := (createApplication_effect created).1.trans configured
            exact .inl (before (creation.consents ▸ mem))
  | activate call =>
      simp only [act] at mem
      cases done : activate p w call with
      | error _ =>
          rw [done] at mem
          exact .inl (before mem)
      | ok t =>
          rw [done] at mem
          obtain ⟨a, -, configured, -⟩ := activate_effect done
          exact .inl (before (configured.consents ▸ mem))
  | exchange exchange =>
      obtain ⟨-, ⟨access, input, fresh, rfl⟩ | same⟩ := exchange_grants (p := p) w exchange
      · simp only [act, Exchange.action, Authority.next] at mem
        split at mem
        · rename_i after done
          rcases Authority.issueForSelection_consents done mem active with earlier | unknown |
            ⟨subject, session, application, held, named, own⟩
          · exact .inl earlier
          · exact .inr (.inl unknown)
          · obtain ⟨a, -, rfl⟩ := List.mem_map.mp held
            refine .inr (.inr ⟨access, input, fresh, rfl, subject.symm, session.symm, ?_⟩)
            rw [← own, ← named]
            rfl
        · exact .inl (before mem)
      · exact .inl (before (same ▸ mem))
  | directory | deliver => exact .inl (before mem)
  | expand delivery application =>
      simp only [act] at mem
      split at mem
      all_goals exact .inl (before mem)

theorem Dormant.act {consent : Authority.Consent} {a : Act} (dormant : Dormant w.db consent)
    (other : ¬ Regrants p consent a) : Dormant (act p w a).db consent := by
  have evolves := act_evolves (p := p) w a
  refine ⟨evolves.drawn _ dormant.1, fun row mem own => ?_⟩
  obtain ⟨old, held, step⟩ := evolves.consents.continues mem (own ▸ dormant.1)
  have same := Authority.Consent.keyed _ _ step.fixed
  obtain ⟨fixed, -⟩ := dormant.2 old held (same.trans own)
  have kept : row.fixed = consent.fixed := step.fixed.symm.trans fixed
  refine ⟨kept, Bool.eq_false_iff.mpr fun active => ?_⟩
  rcases act_consents mem active with ⟨before, beforeMem, named, was⟩ | unknown | regrants
  · rw [(dormant.2 before beforeMem (named.trans own)).2] at was
    cases was
  · exact unknown (own ▸ dormant.1)
  · have application : row.application = consent.application :=
      (congrArg Authority.Consent.application kept :)
    have subject : row.subject = consent.subject := (congrArg Authority.Consent.subject kept :)
    have session : row.parentSession = consent.parentSession :=
      (congrArg Authority.Consent.parentSession kept :)
    unfold Regrants at regrants
    rw [application, subject, session] at regrants
    exact other regrants

/-- A suspension and a deletion revoke the consents. -/
theorem decided_dormant {consent : Authority.Consent} (ids : Ids w.db)
    (mem : consent ∈ w.db.consents) (own : consent.application = app)
    (ends : decision = .suspend ∨ decision = .delete) :
    Dormant (w.decided p now app decision).db consent := by
  have evolves := decided_evolves (p := p) (w := w) now app decision
  refine ⟨evolves.drawn _ (ids.consents consent mem), fun row rowMem same => ?_⟩
  obtain ⟨old, held, step⟩ := evolves.consents.continues rowMem (same ▸ ids.consents consent mem)
  rw [Table.unique held mem ((Authority.Consent.keyed _ _ step.fixed).trans same)] at step
  refine ⟨step.fixed.symm, Bool.eq_false_iff.mpr fun active => ?_⟩
  have application : consent.application = row.application :=
    (congrArg Authority.Consent.application step.fixed :)
  exact (decided_consents now app decision rowMem active).2 ends (application.symm.trans own)

end SiliconIam.Applications.Review
