/-
# Cli.SessionSteps -- every step keeps the invariant

One lemma for each kind of step, following the phases of `State.proceed`; `step_inv` puts
them together.  A sign-in whose request key an earlier one had is the only step that does
not keep it (`Action.FreshSignIn`).
-/
import SiliconIam.Cli.SessionMoves

namespace SiliconIam.Cli

open SiliconIam.Theory.Locks
open SiliconIam.Theory.Runs

set_option autoImplicit false

variable {Name : Type} {digest : Scope → Name} {s : State Name} {p : Nat} {scope : Scope}

/-- A sign-in that repeats the request key of an earlier one is of the same scope, and the
earlier one is over without its tokens being stored or sent. -/
def Action.FreshSignIn (s : State Name) : Action → Prop
  | .start _ scope (.login identity _ (some text)) => ∀ earlier other,
      s.sent[earlier]? = some ⟨other, .login identity (.supplied text)⟩ → other = scope ∧
        (∀ q process, s.processes q = some process → process.phase.signIn ≠ some earlier) ∧
        ∀ n pair, s.server.pairs n = some pair → pair.origin = earlier → Untouched s n
  | _ => True

/-! ## Starting -/

/-- A phase that needs nothing. -/
theorem Inv.begin (inv : Inv digest s) (scope : Scope) {phase : Phase} (fits : phase.Fits s scope)
    (session : phase.underSession = false) (store : phase.underStore = false)
    (signIn : phase.signIn = none) : Inv digest (s.goto p scope phase) := by
  refine inv.move (.of_local rfl (Nat.le_refl _) rfl rfl rfl) rfl rfl (fun _ _ _ held => held) ?_
  rintro process ⟨⟩
  refine ⟨fits, fun held => ?_, fun held => ?_, fun request same => ?_⟩
  · rw [session] at held
    cases held
  · rw [store] at held
    cases held
  · rw [signIn] at same
    cases same

/-- The requests that a sign-in repeats are over. -/
theorem fresh_login (ledger : Ledger s) {identity : String} {actorType : SessionActor}
    {requestKey : Option String}
    (fresh : (Action.start p scope (.login identity actorType requestKey)).FreshSignIn s)
    {earlier : Nat} {other : Scope}
    (sent : s.sent[earlier]? = some ⟨other, .login identity (s.loginKey requestKey)⟩) :
    other = scope ∧
      (∀ q process, s.processes q = some process → process.phase.signIn ≠ some earlier) ∧
      ∀ n pair, s.server.pairs n = some pair → pair.origin = earlier → Untouched s n := by
  cases requestKey with
  | some text => exact fresh earlier other sent
  | none =>
      have drawn := ledger.drawn other identity s.drawn (List.mem_of_getElem? sent)
      exact absurd drawn (Nat.lt_irrefl _)

theorem start_inv (inv : Inv digest s) {command : Command}
    (fresh : (Action.start p scope command).FreshSignIn s) :
    Inv digest (s.start p scope command) := by
  cases command with
  | authenticated => exact inv.begin scope trivial rfl rfl rfl
  | login identity actorType requestKey =>
      refine inv.send (.login identity (s.loginKey requestKey))
        ⟨scope, .signingIn s.sent.length identity actorType⟩
        ⟨rfl, Nat.le_succ _, fun _ _ _ => Nat.lt_succ_self _, rfl, rfl, rfl, rfl⟩
        ⟨fun other mem => ?_, ?_⟩ rfl rfl trivial (by rintro ⟨⟩) (by rintro ⟨⟩) ?_
      · obtain ⟨earlier, sent⟩ := List.mem_iff_getElem?.mp mem
        exact (fresh_login inv.ledger fresh sent).1
      · intro n generated
        cases requestKey with
        | some text => cases generated
        | none => exact (IdempotencyKey.generated.inj generated).symm
      · rintro index ⟨⟩
        exact ⟨rfl, rfl, identity, s.loginKey requestKey, rfl,
          fun earlier sent => (fresh_login inv.ledger fresh sent).2⟩
  | forget => exact inv.begin scope trivial rfl rfl rfl
  | logout mode => exact inv.begin scope trivial rfl rfl rfl
  | environmentKey id key => exact inv.begin scope trivial rfl rfl rfl

/-! ## Proceeding -/

section Proceed

variable {phase : Phase}

/-- A phase entered from one under the same locks, with no sign-in in hand. -/
theorem Inv.enter (inv : Inv digest s) (found : s.processes p = some ⟨scope, phase⟩)
    {phase' : Phase} (fits : phase'.Fits s scope) (session : phase.underSession)
    (store : phase'.underStore = false) (signIn : phase'.signIn = none) :
    Inv digest (s.goto p scope phase') := by
  refine inv.goto found fits (fun _ => session) (fun held => ?_) (fun request same => ?_)
  · rw [store] at held
    cases held
  · rw [signIn] at same
    cases same

variable {session : Session}

/-- What follows a session in hand. -/
theorem Inv.purpose (inv : Inv digest s) (found : s.processes p = some ⟨scope, phase⟩)
    (under : phase.underSession) {purpose : Purpose}
    (stored : s.stored scope = some session) (free : session.pendingRefreshKey = none) :
    Inv digest (s.follow p scope (purpose.next session)) := by
  refine inv.follow found ?_
  intro phase' goes
  cases purpose with
  | command => cases goes
  | logout mode =>
      cases goes
      exact ⟨⟨session, stored, rfl, fun _ => free⟩, fun _ => under, by rintro ⟨⟩,
        by rintro request ⟨⟩⟩

theorem renewing_inv (inv : Inv digest s) {purpose : Purpose} {passes : Nat}
    (found : s.processes p = some ⟨scope, .renewing purpose passes session⟩) :
    Inv digest (s.renewing p scope purpose passes session) := by
  obtain ⟨stored, done⟩ := (inv.fits p _ found).phase
  unfold State.renewing
  cases passes with
  | zero => exact inv.purpose found rfl stored (done rfl)
  | succ passes =>
      simp only
      split
      · split
        · exact inv.stop p
        · rename_i idle
          cases reserved : session.pendingRefreshKey with
          | some key => exact inv.enter found ⟨stored, reserved⟩ rfl rfl rfl
          | none =>
              refine (inv.enter found ?_ rfl rfl rfl).draw
              exact ⟨session, s.now, stored, reserved, by simpa using idle, Nat.le_refl _, rfl⟩
      · rename_i fresh
        exact inv.purpose found rfl stored
          (Session.not_needsRefresh (Bool.eq_false_iff.mpr fresh))

theorem presenting_inv (inv : Inv digest s) {purpose : Purpose} {passes : Nat}
    {key : IdempotencyKey}
    (found : s.processes p = some ⟨scope, .presenting purpose passes session key⟩) :
    Inv digest (s.send p scope (.refresh session.refreshToken key)
      (.awaitingTokens purpose passes session)) := by
  have mine := inv.fits p _ found
  obtain ⟨stored, reserved⟩ := mine.phase
  refine inv.send (.refresh session.refreshToken key)
    ⟨scope, .awaitingTokens purpose passes session s.sent.length⟩
    ⟨rfl, Nat.le_refl _, by rintro _ _ ⟨⟩, rfl, rfl, rfl, rfl⟩
    ⟨session, stored, rfl, reserved, inv.sound scope session stored⟩ rfl rfl ?_
    (fun _ => mine.session rfl) (by rintro ⟨⟩) (by rintro index ⟨⟩)
  exact ⟨stored, key, reserved, by simp [State.send]⟩

theorem closing_inv (inv : Inv digest s) {bearer : Nat} {pending : PendingLogout}
    (found : s.processes p = some ⟨scope, .closing bearer pending⟩) :
    Inv digest (s.send p scope (.logout bearer pending.mode pending.idempotencyKey)
      .awaitingLogout) := by
  have mine := inv.fits p _ found
  obtain ⟨session, stored, rfl, reserved⟩ := mine.phase
  refine inv.send (.logout session.accessToken pending.mode pending.idempotencyKey)
    ⟨scope, .awaitingLogout s.sent.length⟩
    ⟨rfl, Nat.le_refl _, by rintro _ _ ⟨⟩, rfl, rfl, rfl, rfl⟩ trivial rfl rfl ?_
    (fun _ => mine.session rfl) (by rintro ⟨⟩) (by rintro index ⟨⟩)
  exact ⟨session, pending, stored, reserved, by simp [State.send]⟩

theorem loggingOut_inv (inv : Inv digest s) {mode : PendingLogoutMode}
    (found : s.processes p = some ⟨scope, .loggingOut mode⟩) (session : Session) :
    Inv digest (s.loggingOut p scope mode session) := by
  unfold State.loggingOut
  split
  · split
    · exact inv.stop p
    · exact inv.enter found trivial rfl rfl rfl
  · split
    · exact inv.stop p
    · exact inv.enter found trivial rfl rfl rfl

theorem authenticating_inv (inv : Inv digest s) {mode : PendingLogoutMode}
    (found : s.processes p = some ⟨scope, .authenticating mode⟩)
    (stored : s.stored scope = some session) :
    Inv digest (s.authenticating p scope mode session) := by
  unfold State.authenticating
  split
  · rename_i pending
    refine inv.enter found ⟨session, stored, rfl, fun idle => ?_⟩ rfl rfl rfl
    rw [idle] at pending
    cases pending
  · split
    · exact inv.enter found trivial rfl rfl rfl
    · rename_i fresh
      exact inv.enter found ⟨session, stored, rfl, fun _ =>
        Session.not_needsRefresh (Bool.eq_false_iff.mpr fresh)⟩ rfl rfl rfl

theorem reserving_inv (inv : Inv digest s) {mode : PendingLogoutMode} {bearer : Nat}
    (found : s.processes p = some ⟨scope, .reserving mode bearer⟩)
    (stored : s.stored scope = some session) :
    Inv digest (s.reserving p scope mode bearer session) := by
  obtain ⟨session', stored', same, free⟩ := (inv.fits p _ found).phase
  obtain rfl := Option.some.inj (stored.symm.trans stored')
  unfold State.reserving
  cases pending : session.pendingLogout with
  | some logout => exact inv.enter found ⟨session, stored, same, pending⟩ rfl rfl rfl
  | none =>
      refine (inv.enter found ?_ rfl rfl rfl).draw
      exact ⟨session, stored, free pending, pending, same, rfl⟩

theorem proceed_inv [DecidableEq Name] (inv : Inv digest s)
    (found : s.processes p = some ⟨scope, phase⟩) : Inv digest (s.proceed digest p scope phase) := by
  have mine := inv.fits p _ found
  cases phase with
  | looking =>
      simp only [State.proceed]
      split
      · split
        · exact inv.begin scope trivial rfl rfl rfl
        · exact inv.stop p
      · exact inv.stop p
  | signingIn request identity actorType => exact inv
  | signedIn request identity actorType tokens =>
      exact inv.goto found ⟨tokens, identity, actorType, s.now, rfl, mine.phase⟩ (by rintro ⟨⟩)
        (by rintro ⟨⟩) (fun _ same => same)
  | locking entry =>
      refine inv.acquire found ?_ (fun _ => .inr rfl) ?_ ?_ <;> cases entry
      · trivial
      · exact mine.phase
      · trivial
      · trivial
      all_goals first | (rintro ⟨⟩; done) | (intro request same; exact same)
  | opening purpose =>
      simp only [State.proceed]
      split
      · rename_i session stored
        exact inv.enter found ⟨stored, by rintro ⟨⟩⟩ rfl rfl rfl
      · exact inv.stop p
  | renewing purpose passes session => exact renewing_inv inv found
  | presenting purpose passes session key => exact presenting_inv inv found
  | awaitingTokens purpose passes session request => exact inv
  | loggingOut mode =>
      simp only [State.proceed]
      split
      · exact loggingOut_inv inv found _
      · exact inv.stop p
  | authenticating mode =>
      simp only [State.proceed]
      split
      · rename_i session stored
        exact authenticating_inv inv found stored
      · exact inv.stop p
  | reserving mode bearer =>
      simp only [State.proceed]
      split
      · rename_i session stored
        exact reserving_inv inv found stored
      · exact inv.stop p
  | closing bearer pending => exact closing_inv inv found
  | awaitingLogout request => exact inv
  | storing write =>
      exact inv.acquire found mine.phase (fun held => .inl held) (fun _ => .inr rfl)
        (by cases write <;> exact fun _ same => same)
  | reading write =>
      exact inv.goto found ⟨mine.phase, rfl⟩ (fun held => held) (fun held => held)
        (by cases write <;> exact fun _ same => same)
  | replacing write document => exact inv

end Proceed

/-! ## Answers and the document -/

theorem hear_inv (inv : Inv digest s) {phase : Phase}
    (found : s.processes p = some ⟨scope, phase⟩) (answer : Answer) :
    Inv digest (s.hear p scope answer phase) := by
  have mine := inv.fits p _ found
  cases phase with
  | signingIn request identity actorType =>
      cases answer with
      | tokens tokens =>
          simp only [State.hear]
          split
          · rename_i mem
            obtain ⟨sent, at_, accounts⟩ := inv.ledger.answered request tokens mem
            obtain ⟨⟨identity', key, sent'⟩, -⟩ := mine.signIn request rfl
            obtain rfl := Option.some.inj (at_.symm.trans sent')
            exact inv.goto found accounts (by rintro ⟨⟩) (by rintro ⟨⟩) (fun _ same => same)
          · exact inv
      | done => exact inv.stop p
      | refused => exact inv.stop p
  | awaitingTokens purpose passes session request =>
      cases answer with
      | tokens tokens =>
          simp only [State.hear]
          split
          · rename_i mem
            obtain ⟨stored, key, reserved, sent⟩ := mine.phase
            obtain ⟨sent', at_, accounts⟩ := inv.ledger.answered request tokens mem
            obtain rfl := Option.some.inj (at_.symm.trans sent)
            obtain ⟨pair, exchange, held, consumed, -, rfl⟩ := accounts
            exact inv.enter found ⟨session, key, pair, exchange, s.now, stored, reserved, held,
              consumed, rfl⟩ rfl rfl rfl
          · exact inv
      | done => exact inv.stop p
      | refused => exact inv.stop p
  | awaitingLogout request =>
      cases answer with
      | done =>
          simp only [State.hear]
          split
          · rename_i mem
            exact inv.enter found ⟨mine.phase, mem⟩ rfl rfl rfl
          · exact inv
      | tokens tokens => exact inv.stop p
      | refused => exact inv.stop p
  | _ => exact inv

theorem replace_inv [DecidableEq Name] (inv : Inv digest s) {write : Write}
    {document : Credentials} (found : s.processes p = some ⟨scope, .replacing write document⟩)
    (outcome : Outcome) : Inv digest (s.replace p scope write document outcome) := by
  have mine := inv.fits p _ found
  cases outcome with
  | confirmed =>
      refine inv.replaced found ?_ ?_ write.next (.inr rfl) ?_ ?_ ?_
      · exact .of_local (by cases write <;> rfl) (by cases write <;> exact Nat.le_refl _)
          (by cases write <;> rfl) (by cases write <;> rfl) (by cases write <;> rfl)
      · cases write <;> rfl
      · cases write <;> rfl
      · intro q apart file held
        have given := held_release_of_ne (mine.store rfl) apart held
        cases write <;> first | exact given | exact held_releaseAll apart given
      · intro goes held
        have given : release s.locks .credentials (.session (digest scope)) = some p :=
          held_release (by rintro ⟨⟩) held
        cases write <;> first | exact given | exact absurd rfl goes
  | unconfirmed =>
      exact inv.replaced found (.of_local rfl (Nat.le_refl _) rfl rfl rfl) rfl none (.inl rfl) rfl
        (fun _ apart _ held => held_releaseAll apart held) (fun goes => absurd rfl goes)
  | failed => exact inv.stop p

/-! ## The server and the clock -/

theorem serve_frame (window lifetime : Time) (index : Nat) :
    (s.serve window index lifetime).credentials = s.credentials ∧
      (s.serve window index lifetime).processes = s.processes ∧
      (s.serve window index lifetime).locks = s.locks := by
  unfold State.serve
  split
  · exact ⟨rfl, rfl, rfl⟩
  · exact ⟨rfl, rfl, rfl⟩

theorem serve_inv (inv : Inv digest s) (window lifetime : Time) (index : Nat) :
    Inv digest (s.serve window index lifetime) := by
  obtain ⟨credentials, processes, locks⟩ := serve_frame (s := s) window lifetime index
  rcases serve_kind inv.ledger window lifetime index with quiet | ⟨next, issues⟩
  · exact inv.quietly quiet credentials processes locks
  · refine inv.background issues.grows (issues.ledger inv.ledger) credentials processes locks
      (fun _ _ sound => issues.sound inv.ledger sound) ?_ (fun _ _ twins => issues.twins.mp twins)
    intro q process request found signIn n pair held origin
    refine issues.untouched.mpr ?_
    by_cases new : n = s.server.issued
    · -- nobody has a token that is issued only now
      subst new
      refine ⟨fun scope session stored same => ?_, fun key presented => ?_⟩
      · have bound := inv.ledger.home_issued (inv.sound scope session stored).home
        rw [same] at bound
        exact Nat.lt_irrefl _ bound
      · exact Nat.lt_irrefl _ (inv.ledger.presented_issued presented)
    · obtain ⟨before, held', same, -⟩ := issues.old n pair held new
      rw [same] at origin
      exact ((inv.fits q process found).signIn request signIn).2 n before held'
        (issues.twins.mp origin)

/-! ## Every step -/

variable [DecidableEq Name] {window : Time}

theorem step_inv (inv : Inv digest s) {action : Action} (fresh : action.FreshSignIn s) :
    Inv digest (step digest window s action) := by
  cases action with
  | start p scope command =>
      simp only [step]
      split
      · exact start_inv inv fresh
      · exact inv
  | proceed p =>
      simp only [step]
      split
      · rename_i process found
        exact proceed_inv inv found
      · exact inv
  | replace p outcome =>
      simp only [step]
      split
      · rename_i scope write document found
        exact replace_inv inv found outcome
      · exact inv
  | hear p answer =>
      simp only [step]
      split
      · rename_i process found
        exact hear_inv inv found answer
      · exact inv
  | stop p => exact inv.stop p
  | serve request lifetime => exact serve_inv inv window lifetime request
  | withdraw family =>
      exact inv.quietly ⟨Nat.le_refl _, Nat.le_refl _, rfl, rfl, rfl, rfl, fun _ mem => mem,
        fun _ _ mem => .inl mem⟩ rfl rfl rfl
  | tick span =>
      exact inv.quietly ⟨Nat.le_add_right _ _, Nat.le_refl _, rfl, rfl, rfl, rfl,
        fun _ mem => mem, fun _ _ mem => .inl mem⟩ rfl rfl rfl

theorem inv_after (actions : List Action)
    (fresh : AllSteps (step digest window) (fun s action => action.FreshSignIn s) .initial
      actions) : Inv digest (after (step digest window) .initial actions) := by
  have keeps : ∀ (s : State Name) (action : Action), Inv digest s → action.FreshSignIn s →
      Inv digest (step digest window s action) := fun _ _ inv fresh => step_inv inv fresh
  exact AllSteps.after keeps actions _ (inv_initial digest) fresh

end SiliconIam.Cli
