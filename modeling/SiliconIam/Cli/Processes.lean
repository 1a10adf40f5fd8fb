/-
# Cli.Processes -- the command line's processes, one step at a time

Any number of processes work on one store.  Each runs one command, for one scope, and a
`Phase` says where it stands: between two phases it does one thing that others can see,
takes a lock, reads or replaces the document, sends a request or hears the answer.

* `Phase.looking`, `opening`, `renewing`, `presenting`, `awaitingTokens`: `authenticated`,
  `renew` and `renew_locked` (`context.rs`);
* `signingIn`, `signedIn`: the sign-in commands up to `remember` (`commands/auth.rs`);
* `loggingOut`, `authenticating`, `reserving`, `closing`, `awaitingLogout`: `logout` and
  `authenticated_for_logout`;
* `storing`, `reading`, `replacing`: `remember`, `forget` and
  `remember_testing_environment` (`store.rs`), read-modify-write of the whole document
  under the lock of the store.

A process ends at any phase, by finishing, failing or crashing, and its locks with it.
Locks are exclusive and a replacement of the document is seen whole or not at all, also when
it is not confirmed.  What was sent stays in `sent`; the server may serve it at any time and
again, and an answer may never be heard.

The server's part is what `refresh::rotate`, `silicon::authenticate` and the logout
route do with a token family: the answer to a mutation is kept for the `window` and given
again to the same key, a token exchanged before ends its family, and `expires_in` is the
span to the expiry, in whole seconds.
-/
import SiliconIam.Cli.Store
import SiliconIam.Theory.Locks
import SiliconIam.Theory.Runs

namespace SiliconIam.Cli

open SiliconIam.Domain (Uuid)
open SiliconIam.Theory.Locks

set_option autoImplicit false

/-! ## The server -/

structure TokenResponse where
  accessToken : Nat
  refreshToken : Nat
  expiresIn : Nat
deriving DecidableEq

/-- The exchange that consumed a refresh token. -/
structure Exchange where
  key : IdempotencyKey
  madeAt : Time
  tokens : TokenResponse
deriving DecidableEq

/-- An access token and a refresh token issued together.  A family is known by its first
pair; `origin` is the sign-in request whose session it belongs to. -/
structure Pair where
  family : Nat
  origin : Nat
  identity : String
  generation : Nat
  expiresAt : Time
  consumed : Option Exchange
deriving DecidableEq

/-- The pair that a rotation issues after this one. -/
def Pair.successor (pair : Pair) (now lifetime : Time) : Pair :=
  { pair with
    generation := pair.generation + 1
    expiresAt := now + lifetime
    consumed := none }

structure Server where
  pairs : Nat → Option Pair
  issued : Nat
  ended : Nat → Bool
  logins : String → IdempotencyKey → Option (Time × TokenResponse)

inductive Request where
  | login (identity : String) (key : IdempotencyKey)
  | refresh (refreshToken : Nat) (key : IdempotencyKey)
  | logout (bearer : Nat) (mode : PendingLogoutMode) (key : IdempotencyKey)
deriving DecidableEq

inductive Answer where
  | tokens (response : TokenResponse)
  | done
  | refused
deriving DecidableEq

namespace Server

def fresh : Server :=
  ⟨fun _ => none, 0, fun _ => false, fun _ _ => none⟩

/-- What a pair issued now is answered with. -/
def response (server : Server) (lifetime : Time) : TokenResponse :=
  ⟨server.issued, server.issued, lifetime / second⟩

def issue (server : Server) (pair : Pair) : Server :=
  { server with
    pairs := Function.update server.pairs server.issued (some pair)
    issued := server.issued + 1 }

/-- The session a sign-in opens, with the answer that the same request gets from now on. -/
def opened (server : Server) (now lifetime : Time) (origin : Nat) (identity : String)
    (key : IdempotencyKey) : Server :=
  { server.issue ⟨server.issued, origin, identity, 0, now + lifetime, none⟩ with
    logins := Function.update server.logins identity
      (Function.update (server.logins identity) key (some (now, server.response lifetime))) }

/-- The same sign-in request with the same key is answered again. -/
def signIn (server : Server) (window now lifetime : Time) (origin : Nat) (identity : String)
    (key : IdempotencyKey) : Answer × Server :=
  let fresh := (Answer.tokens (server.response lifetime),
    server.opened now lifetime origin identity key)
  match server.logins identity key with
  | some kept => if now ≤ kept.1 + window then (.tokens kept.2, server) else fresh
  | none => fresh

/-- The exchange is still answered to this key. -/
def replays (window now : Time) (key : IdempotencyKey) (exchange : Exchange) : Prop :=
  exchange.key = key ∧ now ≤ exchange.madeAt + window

instance (window now : Time) (key : IdempotencyKey) (exchange : Exchange) :
    Decidable (replays window now key exchange) := by
  unfold replays
  infer_instance

/-- The successor of `pair` is issued and its token consumed. -/
def rotated (server : Server) (now lifetime : Time) (token : Nat) (pair : Pair)
    (key : IdempotencyKey) : Server :=
  let next := server.issue (pair.successor now lifetime)
  { next with
    pairs := Function.update next.pairs token
      (some { pair with consumed := some ⟨key, now, server.response lifetime⟩ }) }

def rotate (server : Server) (window now lifetime : Time) (token : Nat)
    (key : IdempotencyKey) : Answer × Server :=
  match server.pairs token with
  | none => (.refused, server)
  | some pair =>
      match pair.consumed with
      | some exchange =>
          if replays window now key exchange then (.tokens exchange.tokens, server)
          -- the token was exchanged before: its family is revoked
          else (.refused, { server with ended := Function.update server.ended pair.family true })
      | none =>
          if server.ended pair.family then (.refused, server)
          else (.tokens (server.response lifetime), server.rotated now lifetime token pair key)

def logout (server : Server) (bearer : Nat) (mode : PendingLogoutMode) : Answer × Server :=
  match server.pairs bearer with
  | none => (.refused, server)
  | some pair =>
      (.done,
        { server with
          ended := fun family =>
            server.ended family || match mode with
              | .currentSession => family == pair.family
              | .allSessions => (server.pairs family).any (·.identity == pair.identity) })

def serve (server : Server) (window now : Time) (index : Nat) (lifetime : Time) :
    Request → Answer × Server
  | .login identity key => server.signIn window now lifetime index identity key
  | .refresh token key => server.rotate window now lifetime token key
  | .logout bearer mode _ => server.logout bearer mode

end Server

/-! ## Phases -/

/-- What a renewal was begun for. -/
inductive Purpose where
  | command
  | logout (mode : PendingLogoutMode)
deriving DecidableEq

/-- A change of the document.  A session is forgotten by request of its user, or once the
logout request of that number was confirmed. -/
inductive Write where
  | reserveRefresh (purpose : Purpose) (passes : Nat) (session : Session) (key : IdempotencyKey)
  | renewed (purpose : Purpose) (passes : Nat) (session : Session)
  | reserveLogout (bearer : Nat) (pending : PendingLogout) (session : Session)
  | login (request : Nat) (session : Session)
  | forget (confirmed : Option Nat)
  | environmentKey (id : Uuid) (key : String)
deriving DecidableEq

/-- What is done first under the lock of the session. -/
inductive Entry where
  | renew
  | login (request : Nat) (session : Session)
  | forget
  | logout (mode : PendingLogoutMode)
deriving DecidableEq

inductive Phase where
  | looking
  | signingIn (request : Nat) (identity : String) (actorType : SessionActor)
  | signedIn (request : Nat) (identity : String) (actorType : SessionActor)
      (tokens : TokenResponse)
  | locking (entry : Entry)
  | opening (purpose : Purpose)
  | renewing (purpose : Purpose) (passes : Nat) (session : Session)
  | presenting (purpose : Purpose) (passes : Nat) (session : Session) (key : IdempotencyKey)
  | awaitingTokens (purpose : Purpose) (passes : Nat) (session : Session) (request : Nat)
  | loggingOut (mode : PendingLogoutMode)
  | authenticating (mode : PendingLogoutMode)
  | reserving (mode : PendingLogoutMode) (bearer : Nat)
  | closing (bearer : Nat) (pending : PendingLogout)
  | awaitingLogout (request : Nat)
  | storing (write : Write)
  | reading (write : Write)
  | replacing (write : Write) (document : Credentials)

structure Process where
  scope : Scope
  phase : Phase

inductive Command where
  | authenticated
  | login (identity : String) (actorType : SessionActor) (requestKey : Option String)
  | forget
  | logout (mode : PendingLogoutMode)
  | environmentKey (id : Uuid) (key : String)
deriving DecidableEq

def Write.apply (scope : Scope) (document : Credentials) : Write → Credentials
  | .reserveRefresh _ _ session _ => document.setSession scope session
  | .renewed _ _ session => document.setSession scope session
  | .reserveLogout _ _ session => document.setSession scope session
  | .login _ session => document.setSession scope session
  | .forget _ => document.removeSession scope
  | .environmentKey id key => document.setTestingEnvironmentKey scope.profile id key

/-- What follows a confirmed change; `none` when the process is finished. -/
def Write.next : Write → Option Phase
  | .reserveRefresh purpose passes session key => some (.presenting purpose passes session key)
  | .renewed purpose passes session => some (.renewing purpose passes session)
  | .reserveLogout bearer pending _ => some (.closing bearer pending)
  | .login _ _ => none
  | .forget _ => none
  | .environmentKey _ _ => none

def Entry.phase : Entry → Phase
  | .renew => .opening .command
  | .login request session => .storing (.login request session)
  | .forget => .storing (.forget none)
  | .logout mode => .loggingOut mode

/-- A session in hand: a command goes on with its bearer and without the lock. -/
def Purpose.next (session : Session) : Purpose → Option Phase
  | .command => none
  | .logout mode => some (.reserving mode session.accessToken)

/-! ## The store and its processes -/

inductive LockFile (Name : Type) where
  | credentials
  | session (name : Name)
deriving DecidableEq

/-- A request and the scope of the process that sent it. -/
structure Sent where
  scope : Scope
  request : Request
deriving DecidableEq

structure State (Name : Type) where
  now : Time
  credentials : Credentials
  locks : Holders (LockFile Name) Nat
  processes : Nat → Option Process
  drawn : Nat
  sent : List Sent
  answers : List (Nat × Answer)
  server : Server

/-- How a replacement of the document ends: confirmed, made without being confirmed, or not
made. -/
inductive Outcome where
  | confirmed
  | unconfirmed
  | failed
deriving DecidableEq

inductive Action where
  | start (process : Nat) (scope : Scope) (command : Command)
  | proceed (process : Nat)
  | replace (process : Nat) (outcome : Outcome)
  | hear (process : Nat) (answer : Answer)
  | stop (process : Nat)
  | serve (request : Nat) (lifetime : Time)
  | withdraw (family : Nat)
  | tick (span : Time)
deriving DecidableEq

def sessionFromActor (tokens : TokenResponse) (actorId : String) (actorType : SessionActor)
    (now : Time) : Session :=
  ⟨tokens.accessToken, tokens.refreshToken, now + tokens.expiresIn * second, actorType, actorId,
    none, none, none⟩

def renewedSession (tokens : TokenResponse) (previous : Session) (now : Time) : Session :=
  { sessionFromActor tokens previous.actorId previous.actorType now with
    expiresAt := match previous.pendingRefreshStartedAt with
      | none => now
      | some started => started + tokens.expiresIn * second }

namespace State

variable {Name : Type} [DecidableEq Name]

/-- Nobody has signed in and no process runs. -/
def initial : State Name :=
  ⟨0, .default, fun _ => none, fun _ => none, 0, [], [], .fresh⟩

def stored (s : State Name) (scope : Scope) : Option Session :=
  s.credentials.session scope

def stop (s : State Name) (p : Nat) : State Name :=
  { s with processes := Function.update s.processes p none, locks := releaseAll s.locks p }

/-- Process `p`, of this scope, is in this phase next. -/
def goto (s : State Name) (p : Nat) (scope : Scope) (phase : Phase) : State Name :=
  { s with processes := Function.update s.processes p (some ⟨scope, phase⟩) }

def follow (s : State Name) (p : Nat) (scope : Scope) : Option Phase → State Name
  | some phase => s.goto p scope phase
  | none => s.stop p

/-- Send a request and wait in the phase that `phase` names for its number. -/
def send (s : State Name) (p : Nat) (scope : Scope) (request : Request) (phase : Nat → Phase) :
    State Name :=
  { s.goto p scope (phase s.sent.length) with sent := s.sent ++ [⟨scope, request⟩] }

def acquire (s : State Name) (p : Nat) (scope : Scope) (file : LockFile Name) (phase : Phase) :
    State Name :=
  match take s.locks file p with
  | some locks => { s.goto p scope phase with locks }
  | none => s

/-- `needs_refresh` in `renew_locked`, at the head of its loop. -/
def renewing (s : State Name) (p : Nat) (scope : Scope) (purpose : Purpose) (passes : Nat)
    (session : Session) : State Name :=
  match passes with
  | 0 => s.follow p scope (purpose.next session)
  | passes + 1 =>
      if session.needsRefresh s.now then
        if session.pendingLogout.isSome then s.stop p
        else
          match session.pendingRefreshKey with
          | some key => s.goto p scope (.presenting purpose passes session key)
          | none =>
              { s.goto p scope (.storing (.reserveRefresh purpose passes
                  { session with
                    pendingRefreshKey := some (.generated s.drawn)
                    pendingRefreshStartedAt := some s.now } (.generated s.drawn))) with
                drawn := s.drawn + 1 }
      else s.follow p scope (purpose.next session)

/-- The first decisions of `logout`. -/
def loggingOut (s : State Name) (p : Nat) (scope : Scope) (mode : PendingLogoutMode)
    (session : Session) : State Name :=
  if session.actorType = .silicon then
    if mode = .allSessions then s.stop p else s.goto p scope (.storing (.forget none))
  else if session.pendingLogout.any (·.mode != mode) then s.stop p
  else s.goto p scope (.authenticating mode)

/-- `authenticated_for_logout`. -/
def authenticating (s : State Name) (p : Nat) (scope : Scope) (mode : PendingLogoutMode)
    (session : Session) : State Name :=
  if session.pendingLogout.isSome then s.goto p scope (.reserving mode session.accessToken)
  else if session.needsRefresh s.now then s.goto p scope (.opening (.logout mode))
  else s.goto p scope (.reserving mode session.accessToken)

def reserving (s : State Name) (p : Nat) (scope : Scope) (mode : PendingLogoutMode)
    (bearer : Nat) (session : Session) : State Name :=
  match session.pendingLogout with
  | some pending => s.goto p scope (.closing bearer pending)
  | none =>
      { s.goto p scope (.storing (.reserveLogout bearer ⟨mode, .generated s.drawn⟩
          { session with pendingLogout := some ⟨mode, .generated s.drawn⟩ })) with
        drawn := s.drawn + 1 }

/-- The next thing a process does by itself. -/
def proceed (digest : Scope → Name) (s : State Name) (p : Nat) (scope : Scope) :
    Phase → State Name
  | .looking =>
      match s.stored scope with
      | some session =>
          if session.needsRefresh s.now then s.goto p scope (.locking .renew) else s.stop p
      | none => s.stop p
  | .signedIn request identity actorType tokens =>
      s.goto p scope (.locking (.login request (sessionFromActor tokens identity actorType s.now)))
  | .locking entry => s.acquire p scope (.session (digest scope)) entry.phase
  | .opening purpose =>
      match s.stored scope with
      | some session => s.goto p scope (.renewing purpose 2 session)
      | none => s.stop p
  | .renewing purpose passes session => s.renewing p scope purpose passes session
  | .presenting purpose passes session key =>
      s.send p scope (.refresh session.refreshToken key) (.awaitingTokens purpose passes session)
  | .loggingOut mode =>
      match s.stored scope with
      | some session => s.loggingOut p scope mode session
      | none => s.stop p
  | .authenticating mode =>
      match s.stored scope with
      | some session => s.authenticating p scope mode session
      | none => s.stop p
  | .reserving mode bearer =>
      match s.stored scope with
      | some session => s.reserving p scope mode bearer session
      | none => s.stop p
  | .closing bearer pending =>
      s.send p scope (.logout bearer pending.mode pending.idempotencyKey) .awaitingLogout
  | .storing write => s.acquire p scope .credentials (.reading write)
  | .reading write => s.goto p scope (.replacing write s.credentials)
  | _ => s

/-- The end of `write_json`. -/
def replace (s : State Name) (p : Nat) (scope : Scope) (write : Write) (document : Credentials) :
    Outcome → State Name
  | .confirmed =>
      { s with
        credentials := write.apply scope document
        locks := release s.locks .credentials }.follow p scope write.next
  | .unconfirmed => { s with credentials := write.apply scope document }.stop p
  | .failed => s.stop p

def hear (s : State Name) (p : Nat) (scope : Scope) (answer : Answer) : Phase → State Name
  | .signingIn request identity actorType =>
      match answer with
      | .tokens tokens =>
          if (request, answer) ∈ s.answers then
            s.goto p scope (.signedIn request identity actorType tokens)
          else s
      | _ => s.stop p
  | .awaitingTokens purpose passes session request =>
      match answer with
      | .tokens tokens =>
          if (request, answer) ∈ s.answers then
            s.goto p scope (.storing (.renewed purpose passes
              (renewedSession tokens session s.now)))
          else s
      | _ => s.stop p
  | .awaitingLogout request =>
      match answer with
      | .done =>
          if (request, answer) ∈ s.answers then s.goto p scope (.storing (.forget (some request)))
          else s
      | _ => s.stop p
  | _ => s

/-- The key of a sign-in request. -/
def loginKey (s : State Name) : Option String → IdempotencyKey
  | some text => .supplied text
  | none => .generated s.drawn

def start (s : State Name) (p : Nat) (scope : Scope) : Command → State Name
  | .authenticated => s.goto p scope .looking
  | .login identity actorType requestKey =>
      { s.send p scope (.login identity (s.loginKey requestKey))
          (fun request => .signingIn request identity actorType) with
        drawn := s.drawn + 1 }
  | .forget => s.goto p scope (.locking .forget)
  | .logout mode => s.goto p scope (.locking (.logout mode))
  | .environmentKey id key => s.goto p scope (.storing (.environmentKey id key))

def serve (s : State Name) (window : Time) (request : Nat) (lifetime : Time) : State Name :=
  match s.sent[request]? with
  | some sent =>
      let served := s.server.serve window s.now request lifetime sent.request
      { s with answers := (request, served.1) :: s.answers, server := served.2 }
  | none => s

end State

open State in
/-- One step of the store, its processes and the server. -/
def step {Name : Type} [DecidableEq Name] (digest : Scope → Name) (window : Time)
    (s : State Name) : Action → State Name
  | .start p scope command =>
      match s.processes p with
      | none => s.start p scope command
      | some _ => s
  | .proceed p =>
      match s.processes p with
      | some process => s.proceed digest p process.scope process.phase
      | none => s
  | .replace p outcome =>
      match s.processes p with
      | some ⟨scope, .replacing write document⟩ => s.replace p scope write document outcome
      | _ => s
  | .hear p answer =>
      match s.processes p with
      | some process => s.hear p process.scope answer process.phase
      | none => s
  | .stop p => s.stop p
  | .serve request lifetime => s.serve window request lifetime
  | .withdraw family =>
      { s with server := { s.server with ended := Function.update s.server.ended family true } }
  | .tick span => { s with now := s.now + span }

end SiliconIam.Cli
