/-
# Cli.SessionStore -- what the session store keeps over whole runs

Over every run of any number of processes in which a sign-in repeats the request key of an
earlier one only when that one is over and brought nothing (`Action.FreshSignIn`):

* a refresh token is presented under one key, a stored session has the newest token of its
  family or can still bring it, and the expiry of a renewed session is not later than the
  server's (`StateGood`);
* the server revokes a family for a token presented again only when the same request comes
  after its answer stopped being kept, a stored session is never overwritten by an older
  generation, a step of one scope shows at no other, and a reserved logout keeps its session
  as it is until it is confirmed, forgotten or signed in over (`StepGood`).

A sign-in with the key of one that was stored is answered with the same tokens, outside the
lock of the session, and overwrites what they were renewed to since: `reused_request_key`.
-/
import SiliconIam.Cli.SessionSteps

namespace SiliconIam.Cli

open SiliconIam.Domain (Uuid)
open SiliconIam.Theory.Runs

set_option autoImplicit false

variable {Name : Type} {digest : Scope → Name} {s : State Name} {p : Nat} {scope : Scope}
  {window : Time}

/-! ## In every state -/

/-- No pair of the token's family is of a later generation. -/
def Server.Newest (server : Server) (token : Nat) : Prop :=
  ∃ pair, server.pairs token = some pair ∧ ∀ n other, server.pairs n = some other →
    other.family = pair.family → other.generation ≤ pair.generation

/-- The session has the newest token, or the server still answers its reserved key with it. -/
def Recoverable (s : State Name) (window : Time) (session : Session) : Prop :=
  s.server.Newest session.refreshToken ∨ ∃ key, ∃ exchange : Exchange,
    session.pendingRefreshKey = some key ∧ s.server.Newest exchange.tokens.refreshToken ∧
      ∀ now lifetime, now ≤ exchange.madeAt + window →
        s.server.rotate window now lifetime session.refreshToken key =
          (.tokens exchange.tokens, s.server)

structure StateGood (window : Time) (s : State Name) : Prop where
  oneKey : ∀ token key other, Presented s token key → Presented s token other → key = other
  recoverable : ∀ scope session, s.stored scope = some session → Recoverable s window session
  expiry : ∀ scope session, s.stored scope = some session →
    ∀ pair, s.server.pairs session.accessToken = some pair → 0 < pair.generation →
      session.expiresAt ≤ pair.expiresAt

theorem Ledger.newest_of_unconsumed (ledger : Ledger s) {token : Nat} {pair : Pair}
    (found : s.server.pairs token = some pair) (free : pair.consumed = none) :
    s.server.Newest token := by
  refine ⟨pair, found, fun n other found' family => ?_⟩
  by_cases same : n = token
  · subst same
    obtain rfl := Option.some.inj (found.symm.trans found')
    exact Nat.le_refl _
  · exact Nat.le_of_lt (ledger.newest token pair found free n other found' family same)

/-- A stored token that was exchanged was exchanged under the key reserved for it. -/
theorem Sound.exchanged {session : Session} (sound : Sound s scope session) (ledger : Ledger s)
    {pair : Pair} {exchange : Exchange}
    (found : s.server.pairs session.refreshToken = some pair)
    (consumed : pair.consumed = some exchange) :
    session.pendingRefreshKey = some exchange.key := by
  have presented := ledger.exchange_presented found consumed
  cases reserved : session.pendingRefreshKey with
  | none => exact absurd presented (sound.unsent reserved _)
  | some key => rw [(sound.reserved key reserved).1 _ presented]

theorem Sound.recoverable {session : Session} (sound : Sound s scope session)
    (ledger : Ledger s) (window : Time) : Recoverable s window session := by
  obtain ⟨pair, found, -⟩ := sound.home
  cases consumed : pair.consumed with
  | none => exact .inl (ledger.newest_of_unconsumed found consumed)
  | some exchange =>
      obtain ⟨-, next, successor, -⟩ := ledger.exchanged _ _ _ found consumed
      have free := ledger.not_consumed (sound.successor pair exchange found consumed) successor
      refine .inr ⟨exchange.key, exchange, sound.exchanged ledger found consumed,
        ledger.newest_of_unconsumed successor free, fun now lifetime within => ?_⟩
      simp only [Server.rotate, found, consumed]
      exact if_pos ⟨rfl, within⟩

/-- The tokens of a sign-in are the only ones of their family. -/
theorem Ledger.alone (ledger : Ledger s) {token other : Nat} {pair before : Pair}
    (unsent : ∀ key, ¬ Presented s token key) (found : s.server.pairs token = some pair)
    (first : pair.generation = 0) (found' : s.server.pairs other = some before)
    (family : before.family = pair.family) : other = token := by
  by_contra apart
  have older := ledger.newest token pair found (ledger.not_consumed unsent found) other before
    found' family apart
  omega

theorem Inv.good (inv : Inv digest s) (window : Time) : StateGood window s where
  oneKey := inv.ledger.once
  recoverable := fun scope session stored =>
    (inv.sound scope session stored).recoverable inv.ledger window
  expiry := by
    intro scope session stored pair found
    have sound := inv.sound scope session stored
    rw [sound.paired] at found
    exact sound.expiry pair found

/-! ## In every step -/

/-- What the step replaces the document by, at which scope. -/
def Replaces (s : State Name) (action : Action) (scope : Scope) (write : Write) : Prop :=
  ∃ p outcome document, action = .replace p outcome ∧
    s.processes p = some ⟨scope, .replacing write document⟩

/-- While `session` is stored with a logout reserved. -/
structure Reserved (s : State Name) (action : Action) (s' : State Name) (scope : Scope)
    (session : Session) (pending : PendingLogout) : Prop where
  kept : ∀ after, s'.stored scope = some after →
    after = session ∨ ∃ request, Replaces s action scope (.login request after)
  forgotten : s'.stored scope = none → ∃ confirmed, Replaces s action scope (.forget confirmed) ∧
    ∀ request, confirmed = some request → (request, .done) ∈ s.answers ∧
      s.sent[request]? =
        some ⟨scope, .logout session.accessToken pending.mode pending.idempotencyKey⟩
  sends : ∀ request, s'.sent = s.sent ++ [⟨scope, request⟩] →
    (∃ identity key, request = .login identity key) ∨
      request = .logout session.accessToken pending.mode pending.idempotencyKey

structure StepGood (window : Time) (s : State Name) (action : Action) (s' : State Name) :
    Prop where
  revokes : ∀ index lifetime scope token key family, action = .serve index lifetime →
    s.sent[index]? = some ⟨scope, .refresh token key⟩ → s.server.ended family = false →
      s'.server.ended family = true → ∃ pair exchange, s.server.pairs token = some pair ∧
        pair.consumed = some exchange ∧ exchange.key = key ∧
          exchange.madeAt + window < s.now
  generations : ∀ scope before after, s.stored scope = some before →
    s'.stored scope = some after → ∀ pair pair', s'.server.pairs before.refreshToken = some pair →
      s'.server.pairs after.refreshToken = some pair' → pair'.family = pair.family →
        pair.generation ≤ pair'.generation
  sessions : ∀ scope, s'.stored scope ≠ s.stored scope →
    ∃ write, Replaces s action scope write ∧ write.underSession
  keys : ∀ profile id, s'.credentials.testingEnvironmentKeys profile id ≠
    s.credentials.testingEnvironmentKeys profile id →
      ∃ scope key, scope.profile = profile ∧ Replaces s action scope (.environmentKey id key)
  reserved : ∀ scope session pending, s.stored scope = some session →
    session.pendingLogout = some pending → Reserved s action s' scope session pending

/-! ## What a step changes -/

section Frames

@[simp] theorem stop_credentials : (s.stop p).credentials = s.credentials := rfl
@[simp] theorem stop_sent : (s.stop p).sent = s.sent := rfl
@[simp] theorem stop_server : (s.stop p).server = s.server := rfl
@[simp] theorem goto_credentials (phase : Phase) :
    (s.goto p scope phase).credentials = s.credentials := rfl
@[simp] theorem goto_sent (phase : Phase) : (s.goto p scope phase).sent = s.sent := rfl
@[simp] theorem goto_server (phase : Phase) : (s.goto p scope phase).server = s.server := rfl

theorem State.follow_frame (s : State Name) (p : Nat) (scope : Scope) (after : Option Phase) : (s.follow p scope after).credentials =
    s.credentials ∧ (s.follow p scope after).sent = s.sent ∧
      (s.follow p scope after).server = s.server := by
  cases after <;> exact ⟨rfl, rfl, rfl⟩

/-- What a phase sends next. -/
def Phase.sends : Phase → Option Request
  | .presenting _ _ session key => some (.refresh session.refreshToken key)
  | .closing bearer pending => some (.logout bearer pending.mode pending.idempotencyKey)
  | _ => none

theorem proceed_frame [DecidableEq Name] (phase : Phase) :
    (s.proceed digest p scope phase).credentials = s.credentials ∧
      (s.proceed digest p scope phase).sent =
        s.sent ++ phase.sends.toList.map (Sent.mk scope) ∧
      (s.proceed digest p scope phase).server = s.server := by
  cases phase with
  | renewing purpose passes session =>
      simp only [State.proceed, State.renewing]
      cases passes with
      | zero => simp [State.follow_frame, Phase.sends]
      | succ passes =>
          simp only
          split
          · split
            · simp [Phase.sends]
            · split <;> simp [Phase.sends]
          · simp [State.follow_frame, Phase.sends]
  | presenting purpose passes session key => exact ⟨rfl, rfl, rfl⟩
  | closing bearer pending => exact ⟨rfl, rfl, rfl⟩
  | loggingOut mode =>
      simp only [State.proceed, State.loggingOut]
      split
      · split
        · split <;> simp [Phase.sends]
        · split <;> simp [Phase.sends]
      · simp [Phase.sends]
  | authenticating mode =>
      simp only [State.proceed, State.authenticating]
      split
      · split
        · simp [Phase.sends]
        · split <;> simp [Phase.sends]
      · simp [Phase.sends]
  | reserving mode bearer =>
      simp only [State.proceed, State.reserving]
      split
      · split <;> simp [Phase.sends]
      · simp [Phase.sends]
  | looking =>
      simp only [State.proceed]
      split
      · split <;> simp [Phase.sends]
      · simp [Phase.sends]
  | opening purpose =>
      simp only [State.proceed]
      split <;> simp [Phase.sends]
  | locking entry =>
      simp only [State.proceed, State.acquire]
      split <;> simp [Phase.sends]
  | storing write =>
      simp only [State.proceed, State.acquire]
      split <;> simp [Phase.sends]
  | signingIn request identity actorType => simp [State.proceed, Phase.sends]
  | signedIn request identity actorType tokens => simp [State.proceed, Phase.sends]
  | awaitingTokens purpose passes session request => simp [State.proceed, Phase.sends]
  | awaitingLogout request => simp [State.proceed, Phase.sends]
  | reading write => simp [State.proceed, Phase.sends]
  | replacing write document => simp [State.proceed, Phase.sends]

theorem hear_frame (answer : Answer) (phase : Phase) :
    (s.hear p scope answer phase).credentials = s.credentials ∧
      (s.hear p scope answer phase).sent = s.sent ∧
      (s.hear p scope answer phase).server = s.server := by
  cases phase with
  | signingIn request identity actorType =>
      cases answer with
      | tokens tokens =>
          simp only [State.hear]
          split <;> exact ⟨rfl, rfl, rfl⟩
      | _ => exact ⟨rfl, rfl, rfl⟩
  | awaitingTokens purpose passes session request =>
      cases answer with
      | tokens tokens =>
          simp only [State.hear]
          split <;> exact ⟨rfl, rfl, rfl⟩
      | _ => exact ⟨rfl, rfl, rfl⟩
  | awaitingLogout request =>
      cases answer with
      | done =>
          simp only [State.hear]
          split <;> exact ⟨rfl, rfl, rfl⟩
      | _ => exact ⟨rfl, rfl, rfl⟩
  | _ => exact ⟨rfl, rfl, rfl⟩

theorem start_frame (command : Command) :
    (s.start p scope command).credentials = s.credentials ∧
      (s.start p scope command).server = s.server := by
  cases command <;> exact ⟨rfl, rfl⟩

theorem State.replace_frame [DecidableEq Name] (s : State Name) (p : Nat) (scope : Scope)
    (write : Write) (document : Credentials) (outcome : Outcome) :
    ((s.replace p scope write document outcome).credentials = s.credentials ∨
      (s.replace p scope write document outcome).credentials = write.apply scope document) ∧
      (s.replace p scope write document outcome).sent = s.sent ∧
      (s.replace p scope write document outcome).server = s.server := by
  cases outcome with
  | confirmed =>
      let released : State Name := { s with
        credentials := write.apply scope document
        locks := Theory.Locks.release s.locks .credentials }
      obtain ⟨credentials, sent, server⟩ := released.follow_frame p scope write.next
      exact ⟨.inr credentials, sent, server⟩
  | unconfirmed => exact ⟨.inr rfl, rfl, rfl⟩
  | failed => exact ⟨.inl rfl, rfl, rfl⟩

end Frames

variable [DecidableEq Name] {action : Action}

theorem step_credentials (window : Time) (inv : Inv digest s) (action : Action) :
    (step digest window s action).credentials = s.credentials ∨
      ∃ scope write, Replaces s action scope write ∧ write.Fits s scope ∧
        (step digest window s action).credentials = write.apply scope s.credentials ∧
          (step digest window s action).server = s.server := by
  cases action with
  | start p scope command =>
      simp only [step]
      split
      · exact .inl (start_frame command).1
      · exact .inl rfl
  | proceed p =>
      simp only [step]
      split
      · exact .inl (proceed_frame _).1
      · exact .inl rfl
  | replace p outcome =>
      simp only [step]
      split
      · rename_i scope write document found
        obtain ⟨fits, rfl⟩ := (inv.fits p _ found).phase
        obtain ⟨same | replaced, -, server⟩ := s.replace_frame p scope write s.credentials outcome
        · exact .inl same
        · exact .inr ⟨scope, write, ⟨p, outcome, _, rfl, found⟩, fits, replaced, server⟩
      · exact .inl rfl
  | hear p answer =>
      simp only [step]
      split
      · exact .inl (hear_frame answer _).1
      · exact .inl rfl
  | stop p => exact .inl rfl
  | serve request lifetime => exact .inl (serve_frame window lifetime request).1
  | withdraw family => exact .inl rfl
  | tick span => exact .inl rfl

/-- The session of a scope after a step: as before, or what a write of this scope leaves. -/
theorem step_stored (window : Time) (inv : Inv digest s) (action : Action) (scope : Scope) :
    (step digest window s action).stored scope = s.stored scope ∨
      ∃ write left, Replaces s action scope write ∧ write.Fits s scope ∧
        write.leaves = some left ∧ (step digest window s action).stored scope = left ∧
          (step digest window s action).server = s.server := by
  unfold State.stored
  rcases step_credentials window inv action with same | ⟨at_, write, replaces, fits, replaced, server⟩
  · rw [same]
    exact .inl rfl
  · rw [replaced]
    cases leaves : write.leaves with
    | none => exact .inl (Write.session_apply_of_none leaves _ _)
    | some left =>
        by_cases same : scope = at_
        · subst same
          exact .inr ⟨write, left, replaces, fits, leaves, Write.session_apply_self leaves, server⟩
        · exact .inl (write.session_apply_of_ne _ same)

theorem step_generations (inv : Inv digest s) (action : Action) {before after : Session}
    (stored : s.stored scope = some before)
    (stored' : (step digest window s action).stored scope = some after) {pair pair' : Pair}
    (held : (step digest window s action).server.pairs before.refreshToken = some pair)
    (held' : (step digest window s action).server.pairs after.refreshToken = some pair')
    (family : pair'.family = pair.family) : pair.generation ≤ pair'.generation := by
  have same : before.refreshToken = after.refreshToken → pair.generation ≤ pair'.generation := by
    intro same
    rw [same, held'] at held
    exact Nat.le_of_eq (congrArg Pair.generation (Option.some.inj held)).symm
  rcases step_stored window inv action scope with kept |
    ⟨write, left, replaces, fits, leaves, left_, server⟩
  · rw [kept, stored] at stored'
    exact same (congrArg Session.refreshToken (Option.some.inj stored'))
  · rw [left_] at stored'
    subst stored'
    rw [server] at held held'
    cases write with
    | reserveRefresh purpose passes session key =>
        cases leaves
        obtain ⟨old, started, stored', -, -, -, rfl⟩ := fits
        obtain rfl := Option.some.inj (stored.symm.trans stored')
        exact same rfl
    | renewed purpose passes session =>
        cases leaves
        obtain ⟨old, key, found, exchange, now, stored', -, at_, consumed, rfl⟩ := fits
        obtain rfl := Option.some.inj (stored.symm.trans stored')
        obtain ⟨-, next, successor, follows⟩ := inv.ledger.exchanged _ _ _ at_ consumed
        obtain rfl := Option.some.inj (successor.symm.trans held')
        obtain rfl := Option.some.inj (at_.symm.trans held)
        rw [follows.generation]
        exact Nat.le_succ _
    | reserveLogout bearer pending session =>
        cases leaves
        obtain ⟨old, stored', -, -, -, rfl⟩ := fits
        obtain rfl := Option.some.inj (stored.symm.trans stored')
        exact same rfl
    | login request session =>
        cases leaves
        obtain ⟨p, outcome, document, -, found⟩ := replaces
        obtain ⟨tokens, identity, actorType, now, rfl, -, first, at_, twins, zero⟩ := fits
        obtain rfl := Option.some.inj (at_.symm.trans held')
        have untouched := ((inv.fits p _ found).signIn _ rfl).2 _ _ at_ twins
        exact same (inv.ledger.alone untouched.2 at_ zero held family.symm)
    | forget confirmed => cases leaves
    | environmentKey id key => cases leaves

theorem step_keys (inv : Inv digest s) (action : Action) {profile : String} {id : Uuid}
    (changed : (step digest window s action).credentials.testingEnvironmentKeys profile id ≠
      s.credentials.testingEnvironmentKeys profile id) :
    ∃ scope key, scope.profile = profile ∧ Replaces s action scope (.environmentKey id key) := by
  rcases step_credentials window inv action with same |
    ⟨scope, write, replaces, -, replaced, -⟩
  · rw [same] at changed
    exact absurd rfl changed
  · rw [replaced] at changed
    cases write with
    | environmentKey id' key =>
        by_cases same : profile = scope.profile ∧ id = id'
        · obtain ⟨rfl, rfl⟩ := same
          exact ⟨scope, key, rfl, replaces⟩
        · exact absurd (Credentials.key_setTestingEnvironmentKey _ key same) changed
    | _ => simp [Write.apply] at changed

/-- What a step sends: a sign-in, or what the phase of one process sends next. -/
theorem step_sends {sent : Sent}
    (sends : (step digest window s action).sent = s.sent ++ [sent]) :
    (∃ identity key, sent.request = .login identity key) ∨
      ∃ p phase, s.processes p = some ⟨sent.scope, phase⟩ ∧ phase.sends = some sent.request := by
  have grown : s.sent ≠ s.sent ++ [sent] := by simp
  cases action with
  | start p scope command =>
      simp only [step] at sends
      split at sends
      · cases command with
        | login identity actorType requestKey =>
            obtain rfl := List.singleton_inj.mp (List.append_cancel_left sends)
            exact .inl ⟨_, _, rfl⟩
        | _ => exact absurd sends grown
      · exact absurd sends grown
  | proceed p =>
      simp only [step] at sends
      split at sends
      · rename_i process found
        obtain ⟨scope, phase⟩ := process
        rw [(proceed_frame phase).2.1] at sends
        have sends := List.append_cancel_left sends
        cases next : phase.sends with
        | none =>
            rw [next] at sends
            cases sends
        | some request =>
            rw [next] at sends
            obtain rfl := List.singleton_inj.mp sends
            exact .inr ⟨p, phase, found, next⟩
      · exact absurd sends grown
  | replace p outcome =>
      simp only [step] at sends
      split at sends
      · rw [(s.replace_frame _ _ _ _ outcome).2.1] at sends
        exact absurd sends grown
      · exact absurd sends grown
  | hear p answer =>
      simp only [step] at sends
      split at sends
      · rw [(hear_frame answer _).2.1] at sends
        exact absurd sends grown
      · exact absurd sends grown
  | stop p => exact absurd sends grown
  | serve request lifetime =>
      simp only [step, State.serve] at sends
      split at sends <;> exact absurd sends grown
  | withdraw family => exact absurd sends grown
  | tick span => exact absurd sends grown

theorem step_reserved (inv : Inv digest s) (action : Action) {session : Session}
    {pending : PendingLogout} (stored : s.stored scope = some session)
    (reserved : session.pendingLogout = some pending) :
    Reserved s action (step digest window s action) scope session pending := by
  have idle : ∀ key, session.pendingRefreshKey ≠ some key := by
    intro key refreshing
    have none_ := ((inv.sound scope session stored).reserved key refreshing).2.1
    cases none_.symm.trans reserved
  -- a process that stores for this scope holds `session`
  have own : ∀ write left, Replaces s action scope write → write.Fits s scope →
      write.leaves = some left →
      (∃ request after, write = .login request after ∧ left = some after) ∨
        ∃ confirmed, write = .forget confirmed ∧ left = none := by
    intro write left replaces fits leaves
    cases write with
    | reserveRefresh purpose passes after key =>
        obtain ⟨old, started, stored', -, none_, -, rfl⟩ := fits
        obtain rfl := Option.some.inj (stored.symm.trans stored')
        cases none_.symm.trans reserved
    | renewed purpose passes after =>
        obtain ⟨old, key, found, exchange, now, stored', refreshing, -⟩ := fits
        obtain rfl := Option.some.inj (stored.symm.trans stored')
        exact absurd refreshing (idle key)
    | reserveLogout bearer pending' after =>
        obtain ⟨old, stored', -, none_, -, rfl⟩ := fits
        obtain rfl := Option.some.inj (stored.symm.trans stored')
        cases none_.symm.trans reserved
    | login request after =>
        cases leaves
        exact .inl ⟨request, after, rfl, rfl⟩
    | forget confirmed =>
        cases leaves
        exact .inr ⟨confirmed, rfl, rfl⟩
    | environmentKey id key => cases leaves
  refine ⟨?_, ?_, ?_⟩
  · intro after stored'
    rcases step_stored window inv action scope with kept |
      ⟨write, left, replaces, fits, leaves, left_, -⟩
    · rw [kept, stored] at stored'
      exact .inl (Option.some.inj stored').symm
    · rw [left_] at stored'
      subst stored'
      obtain ⟨request, after', rfl, same⟩ | ⟨confirmed, rfl, same⟩ :=
        own write _ replaces fits leaves
      · obtain rfl := Option.some.inj same
        exact .inr ⟨request, replaces⟩
      · cases same
  · intro gone
    rcases step_stored window inv action scope with kept |
      ⟨write, left, replaces, fits, leaves, left_, -⟩
    · rw [kept, stored] at gone
      cases gone
    · rw [left_] at gone
      subst gone
      obtain ⟨request, after', rfl, same⟩ | ⟨confirmed, rfl, -⟩ :=
        own write _ replaces fits leaves
      · cases same
      · refine ⟨confirmed, replaces, ?_⟩
        rintro request rfl
        obtain ⟨⟨session', pending', stored', reserved', sent⟩, done⟩ := fits
        obtain rfl := Option.some.inj (stored.symm.trans stored')
        obtain rfl := Option.some.inj (reserved.symm.trans reserved')
        exact ⟨done, sent⟩
  · intro request sends
    rcases step_sends sends with login | ⟨p, phase, found, next⟩
    · exact .inl login
    · have fits := (inv.fits p _ found).phase
      cases phase with
      | presenting purpose passes session' key =>
          obtain ⟨stored', refreshing⟩ := fits
          obtain rfl := Option.some.inj (stored.symm.trans stored')
          exact absurd refreshing (idle key)
      | closing bearer pending' =>
          obtain ⟨session', stored', rfl, reserved'⟩ := fits
          obtain rfl := Option.some.inj (stored.symm.trans stored')
          obtain rfl := Option.some.inj (reserved.symm.trans reserved')
          exact .inr (Option.some.inj next).symm
      | _ => cases next

theorem step_revokes (inv : Inv digest s) {index : Nat} {lifetime : Time} {token : Nat}
    {key : IdempotencyKey} {family : Nat}
    (found : s.sent[index]? = some ⟨scope, .refresh token key⟩)
    (before : s.server.ended family = false)
    (ends : (step digest window s (.serve index lifetime)).server.ended family = true) :
    ∃ pair exchange, s.server.pairs token = some pair ∧ pair.consumed = some exchange ∧
      exchange.key = key ∧ exchange.madeAt + window < s.now := by
  simp only [step, State.serve_eq found, State.answer, Server.serve, Server.rotate] at ends
  cases held : s.server.pairs token with
  | none =>
      simp only [held] at ends
      cases before.symm.trans ends
  | some pair =>
      simp only [held] at ends
      cases consumed : pair.consumed with
      | none =>
          simp only [consumed] at ends
          split at ends <;> cases before.symm.trans ends
      | some exchange =>
          simp only [consumed] at ends
          have presented := inv.ledger.exchange_presented held consumed
          have same := inv.ledger.once token exchange.key key presented
            ⟨scope, List.mem_of_getElem? found⟩
          refine ⟨pair, exchange, rfl, consumed, same, ?_⟩
          split at ends
          · cases before.symm.trans ends
          · rename_i replayed
            by_contra early
            exact replayed ⟨same, Nat.le_of_not_lt early⟩

theorem step_good (inv : Inv digest s) (action : Action) :
    StepGood window s action (step digest window s action) where
  revokes := by
    rintro index lifetime scope token key family rfl found before ends
    exact step_revokes inv found before ends
  generations := fun scope before after stored stored' pair pair' held held' family =>
    step_generations inv action stored stored' held held' family
  sessions := by
    intro scope changed
    rcases step_stored window inv action scope with kept |
      ⟨write, left, replaces, -, leaves, -, -⟩
    · exact absurd kept changed
    · refine ⟨write, replaces, ?_⟩
      cases under : write.underSession with
      | true => rfl
      | false => cases leaves.symm.trans (Write.leaves_eq_none_iff.mpr under)
  keys := fun profile id changed => step_keys inv action changed
  reserved := fun scope session pending stored reserved =>
    step_reserved inv action stored reserved

/-! ## The whole -/

theorem session_store (digest : Scope → Name) (window : Time) (actions : List Action)
    (fresh : AllSteps (step digest window) (fun s action => action.FreshSignIn s) .initial
      actions) :
    StateGood window (after (step digest window) .initial actions) ∧
      AllSteps (step digest window)
        (fun s action => StepGood window s action (step digest window s action)) .initial
        actions := by
  have keeps : ∀ (s : State Name) (action : Action), Inv digest s → action.FreshSignIn s →
      Inv digest (step digest window s action) := fun _ _ inv fresh => step_inv inv fresh
  refine ⟨(inv_after actions fresh).good window, ?_⟩
  exact AllSteps.imp keeps (fun _ action inv _ => step_good inv action) actions _
    (inv_initial digest) fresh

/-! ## Two runs -/

def exampleScope : Scope := ⟨"default", none⟩

/-- A process takes the store, reads the document and replaces it. -/
def storesBy (p : Nat) : List Action := [.proceed p, .proceed p, .replace p .confirmed]

/-- A sign-in up to its tokens. -/
def signsInBy (p request : Nat) (requestKey : Option String) : List Action :=
  [.start p exampleScope (.login "si:agent" .silicon requestKey), .serve request (1800 * second),
    .hear p (.tokens ⟨0, 0, 1800⟩), .proceed p]

/-- A command up to the refresh it sends. -/
def renewsBy (p : Nat) : List Action :=
  [.start p exampleScope .authenticated, .proceed p, .proceed p, .proceed p, .proceed p] ++
    storesBy p ++ [.proceed p]

/-- A sign-in, and a command half an hour later. -/
def signInRun : List Action :=
  signsInBy 0 0 none ++ [.proceed 0] ++ storesBy 0 ++ [.tick (1740 * second)] ++ renewsBy 1 ++
    [.serve 1 (1800 * second), .hear 1 (.tokens ⟨1, 1, 1800⟩)] ++ storesBy 1

theorem session_store_signInRun :
    AllSteps (step (fun _ => ()) (600 * second)) (fun s action => action.FreshSignIn s) .initial
      signInRun ∧
    (after (step (fun _ => ()) (600 * second)) .initial signInRun).stored exampleScope =
      some ⟨1, 1, 3540 * second, .silicon, "si:agent", none, none, none⟩ ∧
    StateGood (600 * second) (after (step (fun _ => ()) (600 * second)) .initial signInRun) := by
  have fresh : AllSteps (step (fun _ => ()) (600 * second))
      (fun s action => action.FreshSignIn s) .initial signInRun := by
    simp [signInRun, signsInBy, renewsBy, storesBy, AllSteps, Action.FreshSignIn]
  exact ⟨fresh, by decide +kernel, (session_store (fun _ => ()) (600 * second) _ fresh).1⟩

/-- Two sign-ins with one request key, the second stored after the session of the first was
renewed; and one more command. -/
def reusedKeyRun : List Action :=
  signsInBy 0 0 (some "sign-in-request-1") ++ [.proceed 0] ++ storesBy 0 ++
    signsInBy 1 1 (some "sign-in-request-1") ++ [.tick (1740 * second)] ++ renewsBy 2 ++
    [.serve 2 (1800 * second), .hear 2 (.tokens ⟨1, 1, 1800⟩)] ++ storesBy 2 ++ [.proceed 2] ++
    ([.proceed 1] ++ storesBy 1) ++ renewsBy 3 ++ [.serve 3 (1800 * second)]

/-- The first generation overwrites the second, its token is presented under a second key, and
the server revokes the family long before its answers are no longer kept. -/
theorem reused_request_key :
    ¬ (StateGood (600 * second) (after (step (fun _ => ()) (600 * second)) .initial reusedKeyRun) ∧
      AllSteps (step (fun _ => ()) (600 * second))
        (fun s action => StepGood (600 * second) s action
          (step (fun _ => ()) (600 * second) s action)) .initial reusedKeyRun) ∧
    ((after (step (fun _ => ()) (600 * second)) .initial reusedKeyRun).stored exampleScope).map
      Session.refreshToken = some 0 ∧
    ((after (step (fun _ => ()) (600 * second)) .initial reusedKeyRun).server.pairs 1).map
      Pair.generation = some 1 ∧
    (after (step (fun _ => ()) (600 * second)) .initial reusedKeyRun).server.ended 0 = true := by
  refine ⟨fun good => ?_, by decide +kernel, by decide +kernel, by decide +kernel⟩
  have first : Presented (after (step (fun _ => ()) (600 * second)) .initial reusedKeyRun) 0
      (.generated 2) := ⟨exampleScope, by decide +kernel⟩
  have second_ : Presented (after (step (fun _ => ()) (600 * second)) .initial reusedKeyRun) 0
      (.generated 3) := ⟨exampleScope, by decide +kernel⟩
  have same := good.1.oneKey 0 _ _ first second_
  cases same

end SiliconIam.Cli
