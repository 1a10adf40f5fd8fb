/-
# Cli.SessionMoves -- the invariant across one process's move

A `Turn` is what a step of one process leaves of everybody else's: their locks, the session
that one of them holds the lock of, the document that one holds the store for, and the
tokens of sign-ins not stored yet.  `Inv.turn` puts the invariant together after it from the
ledger, the stored sessions and the process's own new phase.

Most moves are local (`Inv.move`): the process changes its phase and takes or drops
locks.  The others are one request sent (`Inv.send`) and one replacement of the document
(`Inv.replaced`).
-/
import SiliconIam.Cli.SessionLedger

namespace SiliconIam.Cli

open SiliconIam.Theory.Locks

set_option autoImplicit false

variable {Name : Type} {digest : Scope → Name} {s s' : State Name} {p : Nat}
  {next : Option Process} {scope : Scope}

structure Turn (s s' : State Name) (p : Nat) (next : Option Process) : Prop where
  processes : s'.processes = Function.update s.processes p next
  grows : Grows s s'
  locks : ∀ q, q ≠ p → ∀ file, s.locks file = some q → s'.locks file = some q
  stored : ∀ q process, q ≠ p → s.processes q = some process → process.phase.underSession →
    s'.stored process.scope = s.stored process.scope
  document : ∀ q process, q ≠ p → s.processes q = some process → process.phase.underStore →
    s'.credentials = s.credentials
  untouched : ∀ q process request, q ≠ p → s.processes q = some process →
    process.phase.signIn = some request → ∀ n pair, s'.server.pairs n = some pair →
      Twins s' pair.origin request → Untouched s' n
  twins : ∀ i j, i < s.sent.length → j < s.sent.length → Twins s' i j → Twins s i j

theorem Process.Fits.bound {process : Process} (fits : process.Fits digest s p) {request : Nat}
    (signIn : process.phase.signIn = some request) : request < s.sent.length := by
  obtain ⟨⟨identity, key, sent⟩, -⟩ := fits.signIn request signIn
  exact (List.getElem?_eq_some_iff.mp sent).1

/-- A process that was not stepped fits as before. -/
theorem Turn.fits (turn : Turn s s' p next) {q : Nat} {process : Process} (apart : q ≠ p)
    (found : s.processes q = some process) (fits : process.Fits digest s q) :
    process.Fits digest s' q where
  phase := turn.grows.phase (turn.stored q process apart found)
    (turn.document q process apart found) fits.phase
  session := fun held => turn.locks q apart _ (fits.session held)
  store := fun held => turn.locks q apart _ (fits.store held)
  signIn := by
    intro request signIn
    obtain ⟨identity, key, sent⟩ := (fits.signIn request signIn).1
    exact ⟨⟨identity, key, turn.grows.sent_at sent⟩,
      turn.untouched q process request apart found signIn⟩

theorem Inv.turn (inv : Inv digest s) (turn : Turn s s' p next) (ledger : Ledger s')
    (sound : ∀ scope session, s'.stored scope = some session → Sound s' scope session)
    (own : ∀ process, next = some process → process.Fits digest s' p)
    (alone : ∀ process request, next = some process → process.phase.signIn = some request →
      ∀ q process' request', q ≠ p → s.processes q = some process' →
        process'.phase.signIn = some request' → ¬ Twins s' request request') :
    Inv digest s' := by
  have at_ : ∀ q process, s'.processes q = some process →
      (q = p ∧ next = some process) ∨ (q ≠ p ∧ s.processes q = some process) := by
    intro q process found
    rw [turn.processes] at found
    by_cases same : q = p
    · subst same
      rw [Function.update_self] at found
      exact .inl ⟨rfl, found⟩
    · rw [Function.update_of_ne same] at found
      exact .inr ⟨same, found⟩
  refine ⟨ledger, sound, fun q process found => ?_, ?_⟩
  · rcases at_ q process found with ⟨rfl, found⟩ | ⟨apart, found⟩
    · exact own process found
    · exact turn.fits apart found (inv.fits q process found)
  · intro q r process process' request request' found found' signIn signIn' twins
    rcases at_ q process found with ⟨rfl, found⟩ | ⟨apart, found⟩
    · rcases at_ r process' found' with ⟨rfl, -⟩ | ⟨apart', found'⟩
      · rfl
      · exact absurd twins
          (alone process request found signIn r process' request' apart' found' signIn')
    · rcases at_ r process' found' with ⟨rfl, found'⟩ | ⟨apart', found'⟩
      · exact absurd twins.symm
          (alone process' request' found' signIn' q process request apart found signIn)
      · refine inv.signIns q r process process' request request' found found' signIn signIn'
          (turn.twins _ _ ?_ ?_ twins)
        · exact (inv.fits q process found).bound signIn
        · exact (inv.fits r process' found').bound signIn'

/-! ## Steps of no process -/

/-- A step that no process takes part in. -/
theorem Inv.background (inv : Inv digest s) {s' : State Name} (grows : Grows s s')
    (ledger : Ledger s') (credentials : s'.credentials = s.credentials)
    (processes : s'.processes = s.processes) (locks : s'.locks = s.locks)
    (sound : ∀ scope session, Sound s scope session → Sound s' scope session)
    (untouched : ∀ q process request, s.processes q = some process →
      process.phase.signIn = some request → ∀ n pair, s'.server.pairs n = some pair →
        Twins s' pair.origin request → Untouched s' n)
    (twins : ∀ i j, Twins s' i j → Twins s i j) : Inv digest s' := by
  have stored : s'.stored = s.stored := by
    unfold State.stored
    rw [credentials]
  refine ⟨ledger, ?_, ?_, ?_⟩
  · rw [stored]
    exact fun scope session held => sound scope session (inv.sound scope session held)
  · rw [processes]
    intro q process found
    have fits := inv.fits q process found
    refine ⟨grows.phase (fun _ => congrFun stored process.scope) (fun _ => credentials) fits.phase,
      fun held => locks ▸ fits.session held, fun held => locks ▸ fits.store held,
      fun request signIn => ?_⟩
    obtain ⟨identity, key, sent⟩ := (fits.signIn request signIn).1
    exact ⟨⟨identity, key, grows.sent_at sent⟩, untouched q process request found signIn⟩
  · rw [processes]
    exact fun p q process process' request request' found found' signIn signIn' same =>
      inv.signIns p q process process' request request' found found' signIn signIn'
        (twins _ _ same)

theorem Inv.quietly (inv : Inv digest s) {s' : State Name} (quiet : Quiet s s')
    (credentials : s'.credentials = s.credentials) (processes : s'.processes = s.processes)
    (locks : s'.locks = s.locks) : Inv digest s' := by
  refine inv.background quiet.grows (quiet.ledger inv.ledger) credentials processes locks
    (fun _ _ sound => quiet.sound sound) ?_ (fun _ _ twins => quiet.twins.mp twins)
  intro q process request found signIn n pair held origin
  rw [quiet.pairs] at held
  have stored : s'.stored = s.stored := by
    unfold State.stored
    rw [credentials]
  exact (quiet.untouched stored).mpr
    (((inv.fits q process found).signIn request signIn).2 n pair held (quiet.twins.mp origin))

/-- A key was drawn. -/
theorem Inv.draw (inv : Inv digest s) : Inv digest { s with drawn := s.drawn + 1 } :=
  inv.quietly (.of_local rfl (Nat.le_succ _) rfl rfl rfl) rfl rfl rfl

/-! ## Local moves -/

/-- What the next phase of `p` needs while nothing is sent, issued or stored. -/
structure Entered (digest : Scope → Name) (s s' : State Name) (p : Nat) (process : Process) :
    Prop where
  phase : process.phase.Fits s process.scope
  session : process.phase.underSession → s'.locks (.session (digest process.scope)) = some p
  store : process.phase.underStore → s'.locks .credentials = some p
  signIn : ∀ request, process.phase.signIn = some request →
    ∃ before, s.processes p = some before ∧ before.scope = process.scope ∧
      before.phase.signIn = some request

theorem Inv.move (inv : Inv digest s) (quiet : Quiet s s')
    (same : s'.credentials = s.credentials)
    (processes : s'.processes = Function.update s.processes p next)
    (locks : ∀ q, q ≠ p → ∀ file, s.locks file = some q → s'.locks file = some q)
    (own : ∀ process, next = some process → Entered digest s s' p process) : Inv digest s' := by
  have stored : s'.stored = s.stored := by
    unfold State.stored
    rw [same]
  have untouched : ∀ q process request, s.processes q = some process →
      process.phase.signIn = some request → ∀ n pair, s'.server.pairs n = some pair →
        Twins s' pair.origin request → Untouched s' n := by
    intro q process request found signIn n pair held origin
    rw [quiet.pairs] at held
    exact (quiet.untouched stored).mpr
      (((inv.fits q process found).signIn request signIn).2 n pair held (quiet.twins.mp origin))
  have turn : Turn s s' p next :=
    ⟨processes, quiet.grows, locks, fun _ process _ _ _ => congrFun stored process.scope,
      fun _ _ _ _ _ => same, fun q process request _ found => untouched q process request found,
      fun _ _ _ _ twins => quiet.twins.mp twins⟩
  refine inv.turn turn (quiet.ledger inv.ledger) ?_ ?_ ?_
  · rw [stored]
    exact fun scope session held => quiet.sound (inv.sound scope session held)
  · intro process entered
    have entered := own process entered
    refine ⟨quiet.grows.phase (fun _ => congrFun stored process.scope) (fun _ => same)
      entered.phase, entered.session, entered.store, fun request signIn => ?_⟩
    obtain ⟨before, found, scope, signIn⟩ := entered.signIn request signIn
    obtain ⟨identity, key, sent⟩ := ((inv.fits p before found).signIn request signIn).1
    rw [scope] at sent
    exact ⟨⟨identity, key, quiet.grows.sent_at sent⟩, untouched p before request found signIn⟩
  · intro process request entered signIn q process' request' apart found' signIn' twins
    obtain ⟨before, found, -, signIn⟩ := (own process entered).signIn request signIn
    exact apart (inv.signIns q p process' before request' request found' found signIn' signIn
      (quiet.twins.mp twins.symm))

theorem Inv.stop (inv : Inv digest s) (p : Nat) : Inv digest (s.stop p) :=
  inv.move (.of_local rfl (Nat.le_refl _) rfl rfl rfl) rfl rfl
    (fun _ apart _ held => held_releaseAll apart held) (by rintro process ⟨⟩)

variable {phase phase' : Phase}

/-- A phase that is entered with the locks and the sign-in of the one before. -/
theorem Inv.goto (inv : Inv digest s) (found : s.processes p = some ⟨scope, phase⟩)
    (fits : phase'.Fits s scope) (session : phase'.underSession → phase.underSession)
    (store : phase'.underStore → phase.underStore)
    (signIn : ∀ request, phase'.signIn = some request → phase.signIn = some request) :
    Inv digest (s.goto p scope phase') := by
  have now := inv.fits p _ found
  refine inv.move (.of_local rfl (Nat.le_refl _) rfl rfl rfl) rfl rfl (fun _ _ _ held => held) ?_
  rintro process ⟨⟩
  exact ⟨fits, fun held => now.session (session held), fun held => now.store (store held),
    fun request same => ⟨_, found, rfl, signIn request same⟩⟩

/-- A process that is finished, or goes on. -/
theorem Inv.follow (inv : Inv digest s) (found : s.processes p = some ⟨scope, phase⟩)
    {after : Option Phase} (fits : ∀ phase', after = some phase' → phase'.Fits s scope ∧
      (phase'.underSession → phase.underSession) ∧ (phase'.underStore → phase.underStore) ∧
      ∀ request, phase'.signIn = some request → phase.signIn = some request) :
    Inv digest (s.follow p scope after) := by
  cases after with
  | none => exact inv.stop p
  | some phase' =>
      obtain ⟨fits, session, store, signIn⟩ := fits phase' rfl
      exact inv.goto found fits session store signIn

/-- A phase that needs one lock more. -/
theorem Inv.acquire [DecidableEq Name] (inv : Inv digest s) (found : s.processes p = some ⟨scope, phase⟩)
    {file : LockFile Name} (fits : phase'.Fits s scope)
    (session : phase'.underSession → phase.underSession ∨ file = .session (digest scope))
    (store : phase'.underStore → phase.underStore ∨ file = .credentials)
    (signIn : ∀ request, phase'.signIn = some request → phase.signIn = some request) :
    Inv digest (s.acquire p scope file phase') := by
  unfold State.acquire
  split
  · rename_i locks took
    have now := inv.fits p _ found
    refine inv.move (.of_local rfl (Nat.le_refl _) rfl rfl rfl) rfl rfl
      (fun _ _ _ held => held_of_take took held) ?_
    rintro process ⟨⟩
    refine ⟨fits, fun held => ?_, fun held => ?_,
      fun request same => ⟨_, found, rfl, signIn request same⟩⟩
    · rcases session held with before | rfl
      · exact held_of_take took (now.session before)
      · exact held_self took
    · rcases store held with before | rfl
      · exact held_of_take took (now.store before)
      · exact held_self took
  · exact inv

/-! ## Sending -/

theorem Inv.send (inv : Inv digest s) (request : Request) (process : Process)
    (sends : Sends s s' scope request) (permitted : Permitted s scope request)
    (processes : s'.processes = Function.update s.processes p (some process))
    (locks : s'.locks = s.locks)
    (fits : process.phase.Fits s' process.scope)
    (session : process.phase.underSession → s.locks (.session (digest process.scope)) = some p)
    (store : process.phase.underStore → s.locks .credentials = some p)
    (signIn : ∀ index, process.phase.signIn = some index →
      index = s.sent.length ∧ process.scope = scope ∧
        ∃ identity key, request = .login identity key ∧
          ∀ earlier, s.sent[earlier]? = some ⟨scope, .login identity key⟩ →
            (∀ q process', s.processes q = some process' →
              process'.phase.signIn ≠ some earlier) ∧
            ∀ n pair, s.server.pairs n = some pair → pair.origin = earlier → Untouched s n) :
    Inv digest s' := by
  have untouched : ∀ n, Untouched s n → Untouched s' n := by
    intro n untouched
    refine ⟨by rw [sends.stored]; exact untouched.1, fun key presented => ?_⟩
    rcases sends.presented.mp presented with before | rfl
    · exact untouched.2 key before
    · obtain ⟨session, stored, same, -, -⟩ := permitted
      exact untouched.1 scope session stored same
  have older : ∀ n pair, s.server.pairs n = some pair → pair.origin < s.sent.length := by
    intro n pair held
    obtain ⟨other, identity, key, sent⟩ := inv.ledger.opened n pair held
    exact (List.getElem?_eq_some_iff.mp sent).1
  -- an earlier twin of the request just sent
  have twin : ∀ {index : Nat} {identity : String} {key : IdempotencyKey},
      request = .login identity key → index < s.sent.length → Twins s' index s.sent.length →
        s.sent[index]? = some ⟨scope, .login identity key⟩ := by
    rintro index identity key rfl bound ⟨other, identity', key', first, second⟩
    rw [sends.sent, List.getElem?_append_left bound] at first
    rw [sends.sent, List.getElem?_append_right (Nat.le_refl _), Nat.sub_self] at second
    rw [first, ← Option.some.inj second]
  have turn : Turn s s' p (some process) := by
    refine ⟨processes, sends.grows, ?_, fun _ process _ _ _ => congrFun sends.stored process.scope,
      fun _ _ _ _ _ => sends.credentials, ?_, fun _ _ bound bound' => sends.twins bound bound'⟩
    · rw [locks]
      exact fun _ _ _ held => held
    · intro q process' index _ found signIn n pair held origin
      rw [sends.server] at held
      have fits := inv.fits q process' found
      exact untouched n ((fits.signIn index signIn).2 n pair held
        (sends.twins (older n pair held) (fits.bound signIn) origin))
  refine inv.turn turn (sends.ledger permitted inv.ledger) ?_ ?_ ?_
  · rw [sends.stored]
    exact fun other session stored =>
      sends.sound permitted inv.ledger stored (inv.sound other session stored)
  · rintro _ ⟨⟩
    refine ⟨fits, fun held => locks ▸ session held, fun held => locks ▸ store held,
      fun index same => ?_⟩
    obtain ⟨rfl, scope_, identity, key, login, alone⟩ := signIn index same
    refine ⟨⟨identity, key, ?_⟩, fun n pair held origin => ?_⟩
    · rw [sends.sent, scope_, login]
      simp
    · rw [sends.server] at held
      exact untouched n ((alone _ (twin login (older n pair held) origin)).2 n pair held rfl)
  · rintro _ index ⟨⟩ same q process' earlier _ found signIn' twins
    obtain ⟨rfl, -, identity, key, login, alone⟩ := signIn index same
    have bound := (inv.fits q process' found).bound signIn'
    exact (alone _ (twin login bound twins.symm)).1 q process' found signIn'

/-! ## The document is replaced -/

/-- What a write leaves at its scope; `none` when it leaves the sessions alone. -/
def Write.leaves : Write → Option (Option Session)
  | .reserveRefresh _ _ session _ => some (some session)
  | .renewed _ _ session => some (some session)
  | .reserveLogout _ _ session => some (some session)
  | .login _ session => some (some session)
  | .forget _ => some none
  | .environmentKey _ _ => none

theorem Write.session_apply_self {write : Write} {document : Credentials} {left : Option Session}
    (leaves : write.leaves = some left) : (write.apply scope document).session scope = left := by
  cases write <;> cases leaves <;>
    simp [Write.apply, Credentials.session_setSession, Credentials.session_removeSession]

theorem Write.session_apply_of_ne (write : Write) (document : Credentials) {other : Scope}
    (apart : other ≠ scope) :
    (write.apply scope document).session other = document.session other := by
  cases write <;>
    simp [Write.apply, Credentials.session_setSession, Credentials.session_removeSession, apart]

theorem Write.session_apply_of_none {write : Write} (leaves : write.leaves = none)
    (document : Credentials) (other : Scope) :
    (write.apply scope document).session other = document.session other := by
  cases write <;> cases leaves
  rfl

theorem Write.leaves_eq_none_iff {write : Write} :
    write.leaves = none ↔ write.underSession = false := by
  cases write <;> simp [Write.leaves, Write.underSession]

/-- A session whose first requests are yet to come. -/
theorem Incoming.sound {request : Nat} {session : Session} (incoming : Incoming s request session)
    (ledger : Ledger s) {identity : String} {key : IdempotencyKey}
    (sent : s.sent[request]? = some ⟨scope, .login identity key⟩)
    (untouched : ∀ n pair, s.server.pairs n = some pair → Twins s pair.origin request →
      Untouched s n) : Sound s scope session := by
  obtain ⟨tokens, identity', actorType, now, rfl, paired, pair, held, twins, first⟩ := incoming
  have unsent := (untouched _ _ held twins).2
  have opened : pair.OpenedBy s scope := by
    obtain ⟨other, identity, key, opening, sent'⟩ := twins
    have same := Option.some.inj (sent'.symm.trans sent)
    exact ⟨_, _, same ▸ opening⟩
  have only : ∀ pair', s.server.pairs tokens.refreshToken = some pair' → pair' = pair :=
    fun pair' found => Option.some.inj (found.symm.trans held)
  exact
    { home := ⟨pair, held, opened⟩
      paired := paired
      unsent := fun _ => unsent
      reserved := by rintro key ⟨⟩
      successor := by
        intro pair' exchange found consumed
        exact absurd (ledger.exchange_presented found consumed) (unsent _)
      expiry := by
        intro pair' found later
        rw [only pair' found, first] at later
        exact absurd later (Nat.lt_irrefl 0) }

/-- The successor of a token exchanged under the reserved key. -/
theorem Sound.renewed {old : Session} {key : IdempotencyKey} {pair : Pair} {exchange : Exchange}
    (sound : Sound s scope old) (ledger : Ledger s) (reserved : old.pendingRefreshKey = some key)
    (found : s.server.pairs old.refreshToken = some pair)
    (consumed : pair.consumed = some exchange) (now : Time) :
    Sound s scope (renewedSession exchange.tokens old now) := by
  obtain ⟨-, next, successor, follows⟩ := ledger.exchanged _ _ _ found consumed
  have unsent := sound.successor pair exchange found consumed
  obtain ⟨-, -, started, at_, -, before⟩ := sound.reserved key reserved
  exact
    { home := ledger.home_successor found consumed sound.home
      paired := follows.paired
      unsent := fun _ => unsent
      reserved := by rintro key ⟨⟩
      successor := by
        intro pair' exchange' found' consumed'
        exact absurd (ledger.exchange_presented found' consumed') (unsent _)
      expiry := by
        intro pair' found' _
        obtain rfl := Option.some.inj (successor.symm.trans found')
        have begun := before pair exchange found consumed
        have bound := follows.expiry
        simp only [renewedSession, at_]
        exact Nat.le_trans (Nat.add_le_add_right begun _) bound }

theorem Sound.reserveRefresh {old : Session} (sound : Sound s scope old) (ledger : Ledger s)
    (free : old.pendingRefreshKey = none) (idle : old.pendingLogout = none)
    (key : IdempotencyKey) {started : Time} (earlier : started ≤ s.now) :
    Sound s scope { old with
      pendingRefreshKey := some key
      pendingRefreshStartedAt := some started } where
  home := sound.home
  paired := sound.paired
  unsent := by rintro ⟨⟩
  reserved := by
    rintro _ ⟨⟩
    refine ⟨fun other presented => absurd presented (sound.unsent free other), idle, started, rfl,
      earlier, fun pair exchange found consumed => ?_⟩
    exact absurd (ledger.exchange_presented found consumed) (sound.unsent free _)
  successor := sound.successor
  expiry := sound.expiry

theorem Sound.reserveLogout {old : Session} (sound : Sound s scope old)
    (free : old.pendingRefreshKey = none) (pending : PendingLogout) :
    Sound s scope { old with pendingLogout := some pending } where
  home := sound.home
  paired := sound.paired
  unsent := fun _ => sound.unsent free
  reserved := by
    intro key reserved
    cases free.symm.trans reserved
  successor := sound.successor
  expiry := sound.expiry

section Replace

variable {phase : Phase} {write : Write} {document : Credentials}

/-- What a process is about to store is sound. -/
theorem Inv.write_sound (inv : Inv digest s)
    (found : s.processes p = some ⟨scope, .replacing write document⟩) {session : Session}
    (leaves : write.leaves = some (some session)) : Sound s scope session := by
  have fits := (inv.fits p _ found).phase.1
  cases write with
  | reserveRefresh purpose passes session key =>
      cases leaves
      obtain ⟨old, started, stored, free, idle, earlier, rfl⟩ := fits
      exact (inv.sound scope old stored).reserveRefresh inv.ledger free idle key earlier
  | renewed purpose passes session =>
      cases leaves
      obtain ⟨old, key, pair, exchange, now, stored, reserved, held, consumed, rfl⟩ := fits
      exact (inv.sound scope old stored).renewed inv.ledger reserved held consumed now
  | reserveLogout bearer pending session =>
      cases leaves
      obtain ⟨old, stored, free, -, -, rfl⟩ := fits
      exact (inv.sound scope old stored).reserveLogout free pending
  | login request session =>
      cases leaves
      obtain ⟨⟨identity, key, sent⟩, untouched⟩ := (inv.fits p _ found).signIn request rfl
      exact Incoming.sound fits inv.ledger sent untouched
  | forget confirmed => cases leaves
  | environmentKey id key => cases leaves

/-- The session about to be stored has a token of its scope's own sign-in, so no other sign-in
waits for it. -/
theorem Inv.write_untouched (inv : Inv digest s)
    (found : s.processes p = some ⟨scope, .replacing write document⟩) {session : Session}
    (leaves : write.leaves = some (some session)) {q request : Nat} {process : Process}
    (apart : q ≠ p) (other : s.processes q = some process)
    (signIn : process.phase.signIn = some request) {n : Nat} {pair : Pair}
    (held : s.server.pairs n = some pair) (origin : Twins s pair.origin request) :
    session.refreshToken ≠ n := by
  have fits := (inv.fits p _ found).phase.1
  have untouched := ((inv.fits q process other).signIn request signIn).2
  rintro rfl
  cases write with
  | reserveRefresh purpose passes session key =>
      cases leaves
      obtain ⟨old, started, stored, -, -, -, rfl⟩ := fits
      exact (untouched _ _ held origin).1 scope old stored rfl
  | renewed purpose passes session =>
      cases leaves
      obtain ⟨old, key, before, exchange, now, stored, -, held', consumed, rfl⟩ := fits
      obtain ⟨-, next, successor, follows⟩ := inv.ledger.exchanged _ _ _ held' consumed
      obtain rfl := Option.some.inj (successor.symm.trans held)
      rw [follows.origin] at origin
      exact (untouched _ _ held' origin).1 scope old stored rfl
  | reserveLogout bearer pending session =>
      cases leaves
      obtain ⟨old, stored, -, -, -, rfl⟩ := fits
      exact (untouched _ _ held origin).1 scope old stored rfl
  | login request' session =>
      cases leaves
      obtain ⟨tokens, identity, actorType, now, rfl, -, pair', held', twins, -⟩ := fits
      obtain rfl := Option.some.inj (held'.symm.trans held)
      exact apart (inv.signIns q p process _ request request' other found signIn rfl
        (origin.symm.trans twins))
  | forget confirmed => cases leaves
  | environmentKey id key => cases leaves

/-- The document is replaced, and its process goes on as the write says or ends. -/
theorem Inv.replaced (inv : Inv digest s)
    (found : s.processes p = some ⟨scope, .replacing write document⟩)
    (quiet : Quiet s s') (credentials : s'.credentials = write.apply scope document)
    (after : Option Phase) (follows : after = none ∨ after = write.next)
    (processes : s'.processes = Function.update s.processes p (after.map (Process.mk scope)))
    (locks : ∀ q, q ≠ p → ∀ file, s.locks file = some q → s'.locks file = some q)
    (lock : after ≠ none → s.locks (.session (digest scope)) = some p →
      s'.locks (.session (digest scope)) = some p) : Inv digest s' := by
  have mine := inv.fits p _ found
  obtain ⟨fits, rfl⟩ := mine.phase
  have others : ∀ other, other ≠ scope → s'.stored other = s.stored other := by
    intro other apart
    unfold State.stored
    rw [credentials]
    exact write.session_apply_of_ne _ apart
  have kept : write.leaves = none → s'.stored = s.stored := by
    intro leaves
    funext other
    unfold State.stored
    rw [credentials]
    exact Write.session_apply_of_none leaves _ _
  have own : ∀ left, write.leaves = some left → s'.stored scope = left := by
    intro left leaves
    unfold State.stored
    rw [credentials]
    exact Write.session_apply_self leaves
  have turn : Turn s s' p (after.map (Process.mk scope)) := by
    refine ⟨processes, quiet.grows, locks, ?_, ?_, ?_,
      fun _ _ _ _ twins => quiet.twins.mp twins⟩
    · intro q process apart other held
      by_cases same : process.scope = scope
      · -- nobody else holds the lock of this session
        have theirs := (inv.fits q process other).session held
        rw [same] at theirs
        cases under : write.underSession with
        | false => exact congrFun (kept (Write.leaves_eq_none_iff.mpr under)) process.scope
        | true => exact absurd (held_unique theirs (mine.session under)) apart
      · exact others process.scope same
    · intro q process apart other held
      exact absurd (held_unique ((inv.fits q process other).store held) (mine.store rfl)) apart
    · intro q process request apart other signIn n pair held origin
      rw [quiet.pairs] at held
      have origin := quiet.twins.mp origin
      have untouched := ((inv.fits q process other).signIn request signIn).2 n pair held origin
      refine ⟨fun scope' session stored => ?_,
        fun key presented => untouched.2 key (quiet.presented.mp presented)⟩
      by_cases same : scope' = scope
      · subst same
        cases leaves : write.leaves with
        | none =>
            rw [kept leaves] at stored
            exact untouched.1 scope' session stored
        | some left =>
            rw [own left leaves] at stored
            subst stored
            exact inv.write_untouched found leaves apart other signIn held origin
      · rw [others scope' same] at stored
        exact untouched.1 scope' session stored
  refine inv.turn turn (quiet.ledger inv.ledger) ?_ ?_ ?_
  · intro scope' session stored
    refine quiet.sound ?_
    by_cases same : scope' = scope
    · subst same
      cases leaves : write.leaves with
      | none =>
          rw [kept leaves] at stored
          exact inv.sound scope' session stored
      | some left =>
          rw [own left leaves] at stored
          subst stored
          exact inv.write_sound found leaves
    · rw [others scope' same] at stored
      exact inv.sound scope' session stored
  · intro process goes
    rcases follows with rfl | rfl
    · cases goes
    · cases write with
      | reserveRefresh purpose passes after key =>
          cases goes
          obtain ⟨old, started, -, -, -, -, rfl⟩ := fits
          exact ⟨⟨own _ rfl, rfl⟩, fun _ => lock (Option.some_ne_none _) (mine.session rfl),
            (by rintro ⟨⟩), (by rintro request ⟨⟩)⟩
      | renewed purpose passes after =>
          cases goes
          obtain ⟨old, key, pair, exchange, now, -, -, -, -, rfl⟩ := fits
          exact ⟨⟨own _ rfl, fun _ => rfl⟩,
            fun _ => lock (Option.some_ne_none _) (mine.session rfl),
            (by rintro ⟨⟩), (by rintro request ⟨⟩)⟩
      | reserveLogout bearer pending after =>
          cases goes
          obtain ⟨old, -, -, -, rfl, rfl⟩ := fits
          exact ⟨⟨_, own _ rfl, rfl, rfl⟩,
            fun _ => lock (Option.some_ne_none _) (mine.session rfl),
            (by rintro ⟨⟩), (by rintro request ⟨⟩)⟩
      | login request after => cases goes
      | forget confirmed => cases goes
      | environmentKey id key => cases goes
  · intro process request goes signIn
    rcases follows with rfl | rfl
    · cases goes
    · cases write <;> cases goes <;> cases signIn

end Replace

end SiliconIam.Cli
