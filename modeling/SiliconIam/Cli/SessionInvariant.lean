/-
# Cli.SessionInvariant -- what holds of the store between any two steps

Three things are said at once, because each needs the others.

* `Ledger`: what the server's pairs, the requests sent and the answers have to do with each
  other.  Within a family the unconsumed pair is the newest, a consumed pair names its
  successor, and what was presented was issued to the scope that presented it (`Home`).
* `Sound`: what a stored session knows of its refresh token.  With no key reserved it was
  never presented; with a key reserved, never under another; and the successor of a
  consumed one was never presented.
* `Phase.Fits`: what a process has in hand agrees with what is stored.  A process that holds
  the lock of its session works on the stored session, and one that holds the lock of the
  store works on the stored document.

`Inv` is their conjunction over all scopes and processes; `Grows` is what no step undoes.
-/
import SiliconIam.Cli.Processes

namespace SiliconIam.Cli

set_option autoImplicit false

variable {Name : Type}

/-! ## The server and what was sent to it -/

/-- The refresh token was presented under the key. -/
def Presented (s : State Name) (token : Nat) (key : IdempotencyKey) : Prop :=
  ∃ scope, ⟨scope, .refresh token key⟩ ∈ s.sent

/-- The sign-in request that a pair's session belongs to was sent by the scope. -/
def Pair.OpenedBy (s : State Name) (scope : Scope) (pair : Pair) : Prop :=
  ∃ identity key, s.sent[pair.origin]? = some ⟨scope, .login identity key⟩

/-- The token belongs to a session that the scope signed in to. -/
def Home (s : State Name) (token : Nat) (scope : Scope) : Prop :=
  ∃ pair, s.server.pairs token = some pair ∧ pair.OpenedBy s scope

/-- The pair that an exchange of `pair` issued. -/
structure Follows (pair : Pair) (exchange : Exchange) (next : Pair) : Prop where
  family : next.family = pair.family
  origin : next.origin = pair.origin
  generation : next.generation = pair.generation + 1
  paired : exchange.tokens.accessToken = exchange.tokens.refreshToken
  expiry : exchange.madeAt + exchange.tokens.expiresIn * second ≤ next.expiresAt

/-- Requests of one sign-in: of the same scope, for the same identity and with the same key. -/
def Twins (s : State Name) (i j : Nat) : Prop :=
  ∃ scope identity key, s.sent[i]? = some ⟨scope, .login identity key⟩ ∧
    s.sent[j]? = some ⟨scope, .login identity key⟩

/-- The tokens are those of a sign-in under this request or a twin of it. -/
def SignedIn (s : State Name) (request : Nat) (tokens : TokenResponse) : Prop :=
  tokens.accessToken = tokens.refreshToken ∧ ∃ pair,
    s.server.pairs tokens.refreshToken = some pair ∧ Twins s pair.origin request ∧
      pair.generation = 0

/-- What an answer with tokens was given for. -/
def Accounts (s : State Name) (index : Nat) (tokens : TokenResponse) : Request → Prop
  | .login _ _ => SignedIn s index tokens
  | .refresh token key => ∃ pair exchange, s.server.pairs token = some pair ∧
      pair.consumed = some exchange ∧ exchange.key = key ∧ exchange.tokens = tokens
  | .logout _ _ _ => False

structure Ledger (s : State Name) : Prop where
  issued : ∀ n pair, s.server.pairs n = some pair →
    n < s.server.issued ∧ pair.family < s.server.issued
  opened : ∀ n pair, s.server.pairs n = some pair → ∃ scope, pair.OpenedBy s scope
  newest : ∀ n pair, s.server.pairs n = some pair → pair.consumed = none →
    ∀ m other, s.server.pairs m = some other → other.family = pair.family → m ≠ n →
      other.generation < pair.generation
  exchanged : ∀ n pair exchange, s.server.pairs n = some pair → pair.consumed = some exchange →
    Presented s n exchange.key ∧
      ∃ next, s.server.pairs exchange.tokens.refreshToken = some next ∧ Follows pair exchange next
  home : ∀ scope token key, ⟨scope, .refresh token key⟩ ∈ s.sent → Home s token scope
  once : ∀ token key other, Presented s token key → Presented s token other → key = other
  loggedIn : ∀ identity key kept, s.server.logins identity key = some kept →
    ∃ scope request, s.sent[request]? = some ⟨scope, .login identity key⟩ ∧
      SignedIn s request kept.2
  answered : ∀ index tokens, (index, .tokens tokens) ∈ s.answers →
    ∃ sent, s.sent[index]? = some sent ∧ Accounts s index tokens sent.request
  oneScope : ∀ scope scope' identity key, ⟨scope, .login identity key⟩ ∈ s.sent →
    ⟨scope', .login identity key⟩ ∈ s.sent → scope = scope'
  drawn : ∀ scope identity n, ⟨scope, .login identity (.generated n)⟩ ∈ s.sent → n < s.drawn

/-! ## A stored session -/

structure Sound (s : State Name) (scope : Scope) (session : Session) : Prop where
  home : Home s session.refreshToken scope
  paired : session.accessToken = session.refreshToken
  unsent : session.pendingRefreshKey = none → ∀ key, ¬ Presented s session.refreshToken key
  reserved : ∀ key, session.pendingRefreshKey = some key →
    (∀ other, Presented s session.refreshToken other → other = key) ∧
      session.pendingLogout = none ∧
      ∃ started, session.pendingRefreshStartedAt = some started ∧ started ≤ s.now ∧
        ∀ pair exchange, s.server.pairs session.refreshToken = some pair →
          pair.consumed = some exchange → started ≤ exchange.madeAt
  successor : ∀ pair exchange, s.server.pairs session.refreshToken = some pair →
    pair.consumed = some exchange → ∀ key, ¬ Presented s exchange.tokens.refreshToken key
  expiry : ∀ pair, s.server.pairs session.refreshToken = some pair → 0 < pair.generation →
    session.expiresAt ≤ pair.expiresAt

/-- The token is neither stored nor sent. -/
def Untouched (s : State Name) (token : Nat) : Prop :=
  (∀ scope session, s.stored scope = some session → session.refreshToken ≠ token) ∧
    ∀ key, ¬ Presented s token key

/-! ## A process -/

/-- The session of a sign-in that has its tokens. -/
def Incoming (s : State Name) (request : Nat) (session : Session) : Prop :=
  ∃ tokens identity actorType now, session = sessionFromActor tokens identity actorType now ∧
    SignedIn s request tokens

/-- The stored session's logout was sent with its bearer and its key. -/
def Closing (s : State Name) (scope : Scope) (request : Nat) : Prop :=
  ∃ session pending, s.stored scope = some session ∧ session.pendingLogout = some pending ∧
    s.sent[request]? =
      some ⟨scope, .logout session.accessToken pending.mode pending.idempotencyKey⟩

def Write.Fits (s : State Name) (scope : Scope) : Write → Prop
  | .reserveRefresh _ _ session key => ∃ old started, s.stored scope = some old ∧
      old.pendingRefreshKey = none ∧ old.pendingLogout = none ∧ started ≤ s.now ∧
      session = { old with
        pendingRefreshKey := some key
        pendingRefreshStartedAt := some started }
  | .renewed _ _ session => ∃ old key pair exchange now, s.stored scope = some old ∧
      old.pendingRefreshKey = some key ∧ s.server.pairs old.refreshToken = some pair ∧
      pair.consumed = some exchange ∧ session = renewedSession exchange.tokens old now
  | .reserveLogout bearer pending session => ∃ old, s.stored scope = some old ∧
      old.pendingRefreshKey = none ∧ old.pendingLogout = none ∧ old.accessToken = bearer ∧
      session = { old with pendingLogout := some pending }
  | .login request session => Incoming s request session
  | .forget none => True
  | .forget (some request) => Closing s scope request ∧ (request, .done) ∈ s.answers
  | .environmentKey _ _ => True

def Phase.Fits (s : State Name) (scope : Scope) : Phase → Prop
  | .signedIn request _ _ tokens => SignedIn s request tokens
  | .locking (.login request session) => Incoming s request session
  | .renewing _ passes session => s.stored scope = some session ∧
      (passes = 0 → session.pendingRefreshKey = none)
  | .presenting _ _ session key => s.stored scope = some session ∧
      session.pendingRefreshKey = some key
  | .awaitingTokens _ _ session request => s.stored scope = some session ∧
      ∃ key, session.pendingRefreshKey = some key ∧
        s.sent[request]? = some ⟨scope, .refresh session.refreshToken key⟩
  | .reserving _ bearer => ∃ session, s.stored scope = some session ∧
      session.accessToken = bearer ∧
      (session.pendingLogout = none → session.pendingRefreshKey = none)
  | .closing bearer pending => ∃ session, s.stored scope = some session ∧
      session.accessToken = bearer ∧ session.pendingLogout = some pending
  | .awaitingLogout request => Closing s scope request
  | .storing write => write.Fits s scope
  | .reading write => write.Fits s scope
  | .replacing write document => write.Fits s scope ∧ document = s.credentials
  | _ => True

/-- Storing a testing root key takes no session's lock. -/
def Write.underSession : Write → Bool
  | .environmentKey _ _ => false
  | _ => true

/-- The phases from the lock of the session to the end. -/
def Phase.underSession : Phase → Bool
  | .looking | .signingIn .. | .signedIn .. | .locking _ => false
  | .storing write | .reading write | .replacing write _ => write.underSession
  | _ => true

def Phase.underStore : Phase → Bool
  | .reading _ | .replacing .. => true
  | _ => false

/-- The sign-in request whose tokens a process waits for or has not stored yet. -/
def Phase.signIn : Phase → Option Nat
  | .signingIn request _ _ => some request
  | .signedIn request _ _ _ => some request
  | .locking (.login request _) => some request
  | .storing (.login request _) => some request
  | .reading (.login request _) => some request
  | .replacing (.login request _) _ => some request
  | _ => none

variable (digest : Scope → Name)

structure Process.Fits (s : State Name) (p : Nat) (process : Process) : Prop where
  phase : process.phase.Fits s process.scope
  session : process.phase.underSession → s.locks (.session (digest process.scope)) = some p
  store : process.phase.underStore → s.locks .credentials = some p
  signIn : ∀ request, process.phase.signIn = some request →
    (∃ identity key, s.sent[request]? = some ⟨process.scope, .login identity key⟩) ∧
      ∀ n pair, s.server.pairs n = some pair → Twins s pair.origin request → Untouched s n

structure Inv (s : State Name) : Prop where
  ledger : Ledger s
  sound : ∀ scope session, s.stored scope = some session → Sound s scope session
  fits : ∀ p process, s.processes p = some process → process.Fits digest s p
  signIns : ∀ p q process process' request request', s.processes p = some process →
    s.processes q = some process' → process.phase.signIn = some request →
      process'.phase.signIn = some request' → Twins s request request' → p = q

theorem inv_initial : Inv digest (State.initial : State Name) where
  ledger := by
    constructor <;> simp [State.initial, Server.fresh, Presented]
  sound := by
    rintro ⟨profile, environment⟩ session stored
    cases environment <;>
      simp [State.stored, State.initial, Credentials.session, Credentials.default] at stored
  fits := by simp [State.initial]
  signIns := by simp [State.initial]

/-! ## What no step undoes -/

/-- A pair is only ever consumed, once. -/
def Server.Extends (server server' : Server) : Prop :=
  ∀ n pair, server.pairs n = some pair → ∃ consumed,
    server'.pairs n = some { pair with consumed } ∧
      ∀ exchange, pair.consumed = some exchange → consumed = some exchange

theorem Server.Extends.refl (server : Server) : server.Extends server :=
  fun _ pair found => ⟨pair.consumed, found, fun _ same => same⟩

structure Grows (s s' : State Name) : Prop where
  now : s.now ≤ s'.now
  sent : s.sent <+: s'.sent
  answers : ∀ answer ∈ s.answers, answer ∈ s'.answers
  pairs : s.server.Extends s'.server

variable {digest} {s s' : State Name} {scope : Scope}

theorem Grows.sent_at (grows : Grows s s') {index : Nat} {sent : Sent}
    (found : s.sent[index]? = some sent) : s'.sent[index]? = some sent := by
  obtain ⟨rest, same⟩ := grows.sent
  obtain ⟨bound, -⟩ := List.getElem?_eq_some_iff.mp found
  rw [← same, List.getElem?_append_left bound]
  exact found

theorem Grows.presented (grows : Grows s s') {token : Nat} {key : IdempotencyKey}
    (presented : Presented s token key) : Presented s' token key := by
  obtain ⟨scope, mem⟩ := presented
  exact ⟨scope, grows.sent.subset mem⟩

theorem Grows.openedBy (grows : Grows s s') {pair : Pair} (opened : pair.OpenedBy s scope) :
    pair.OpenedBy s' scope := by
  obtain ⟨identity, key, found⟩ := opened
  exact ⟨identity, key, grows.sent_at found⟩

theorem Grows.home (grows : Grows s s') {token : Nat} (home : Home s token scope) :
    Home s' token scope := by
  obtain ⟨pair, found, opened⟩ := home
  obtain ⟨consumed, found, -⟩ := grows.pairs _ _ found
  exact ⟨_, found, grows.openedBy opened⟩

theorem Grows.twins (grows : Grows s s') {i j : Nat} (twins : Twins s i j) : Twins s' i j := by
  obtain ⟨scope, identity, key, first, second⟩ := twins
  exact ⟨scope, identity, key, grows.sent_at first, grows.sent_at second⟩

theorem Grows.signedIn (grows : Grows s s') {request : Nat} {tokens : TokenResponse}
    (signedIn : SignedIn s request tokens) : SignedIn s' request tokens := by
  obtain ⟨paired, pair, found, origin, first⟩ := signedIn
  obtain ⟨consumed, found, -⟩ := grows.pairs _ _ found
  exact ⟨paired, _, found, grows.twins origin, first⟩

theorem Grows.incoming (grows : Grows s s') {request : Nat} {session : Session}
    (incoming : Incoming s request session) : Incoming s' request session := by
  obtain ⟨tokens, identity, actorType, now, rfl, signedIn⟩ := incoming
  exact ⟨tokens, identity, actorType, now, rfl, grows.signedIn signedIn⟩

theorem Grows.exchange (grows : Grows s s') {token : Nat} {pair : Pair} {exchange : Exchange}
    (found : s.server.pairs token = some pair) (consumed : pair.consumed = some exchange) :
    ∃ pair', s'.server.pairs token = some pair' ∧ pair'.consumed = some exchange := by
  obtain ⟨consumed', found, kept⟩ := grows.pairs _ _ found
  exact ⟨_, found, kept _ consumed⟩

theorem Grows.accounts (grows : Grows s s') {index : Nat} {tokens : TokenResponse}
    {request : Request} (accounts : Accounts s index tokens request) :
    Accounts s' index tokens request := by
  cases request with
  | login identity key => exact grows.signedIn accounts
  | refresh token key =>
      obtain ⟨pair, exchange, found, consumed, answers⟩ := accounts
      obtain ⟨pair', found, consumed⟩ := grows.exchange found consumed
      exact ⟨pair', exchange, found, consumed, answers⟩
  | logout bearer mode key => exact accounts

theorem Grows.closing (grows : Grows s s') (same : s'.stored scope = s.stored scope)
    {request : Nat} (closing : Closing s scope request) : Closing s' scope request := by
  obtain ⟨session, pending, stored, reserved, sent⟩ := closing
  exact ⟨session, pending, same.trans stored, reserved, grows.sent_at sent⟩

theorem Grows.write (grows : Grows s s') {write : Write}
    (same : write.underSession → s'.stored scope = s.stored scope) (fits : write.Fits s scope) :
    write.Fits s' scope := by
  cases write with
  | reserveRefresh purpose passes session key =>
      obtain ⟨old, started, stored, free, open_, earlier, rfl⟩ := fits
      exact ⟨old, started, (same rfl).trans stored, free, open_, Nat.le_trans earlier grows.now, rfl⟩
  | renewed purpose passes session =>
      obtain ⟨old, key, pair, exchange, now, stored, reserved, found, consumed, rfl⟩ := fits
      obtain ⟨pair', found, consumed⟩ := grows.exchange found consumed
      exact ⟨old, key, pair', exchange, now, (same rfl).trans stored, reserved, found, consumed,
        rfl⟩
  | reserveLogout bearer pending session =>
      obtain ⟨old, stored, rest⟩ := fits
      exact ⟨old, (same rfl).trans stored, rest⟩
  | login request session => exact grows.incoming fits
  | forget confirmed =>
      cases confirmed with
      | none => trivial
      | some request => exact ⟨grows.closing (same rfl) fits.1, grows.answers _ fits.2⟩
  | environmentKey id key => trivial

/-- A process that holds its locks, and whose session and document nobody changed, still fits. -/
theorem Grows.phase (grows : Grows s s') {phase : Phase}
    (same : phase.underSession → s'.stored scope = s.stored scope)
    (whole : phase.underStore → s'.credentials = s.credentials) (fits : phase.Fits s scope) :
    phase.Fits s' scope := by
  cases phase with
  | signedIn request identity actorType tokens => exact grows.signedIn fits
  | locking entry =>
      cases entry with
      | login request session => exact grows.incoming fits
      | _ => trivial
  | renewing purpose passes session => exact ⟨(same rfl).trans fits.1, fits.2⟩
  | presenting purpose passes session key => exact ⟨(same rfl).trans fits.1, fits.2⟩
  | awaitingTokens purpose passes session request =>
      obtain ⟨stored, key, reserved, sent⟩ := fits
      exact ⟨(same rfl).trans stored, key, reserved, grows.sent_at sent⟩
  | reserving mode bearer =>
      obtain ⟨session, stored, rest⟩ := fits
      exact ⟨session, (same rfl).trans stored, rest⟩
  | closing bearer pending =>
      obtain ⟨session, stored, rest⟩ := fits
      exact ⟨session, (same rfl).trans stored, rest⟩
  | awaitingLogout request => exact grows.closing (same rfl) fits
  | storing write => exact grows.write same fits
  | reading write => exact grows.write same fits
  | replacing write document => exact ⟨grows.write same fits.1, fits.2.trans (whole rfl).symm⟩
  | _ => trivial

end SiliconIam.Cli
