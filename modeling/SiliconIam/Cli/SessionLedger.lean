/-
# Cli.SessionLedger -- what a request and an issued pair do to the ledger

A step is `Quiet` when nothing is sent and no pair is issued; it keeps the ledger and every
stored session sound.  Three steps are not quiet: a request is sent (`ledger_send`), a
sign-in opens a family (`ledger_opened`) and a rotation issues a successor
(`ledger_rotated`).  A request may be sent when it presents the stored token under its
reserved key (`Permitted`).
-/
import SiliconIam.Cli.SessionInvariant

namespace SiliconIam.Cli

set_option autoImplicit false

variable {Name : Type} {s s' : State Name} {scope : Scope}

/-! ## Tokens -/

theorem Home.unique {token : Nat} {scope' : Scope} (home : Home s token scope)
    (home' : Home s token scope') : scope = scope' := by
  obtain ⟨pair, found, identity, key, sent⟩ := home
  obtain ⟨pair', found', identity', key', sent'⟩ := home'
  obtain rfl : pair = pair' := Option.some.inj (found.symm.trans found')
  have same := Option.some.inj (sent.symm.trans sent')
  exact congrArg Sent.scope same

theorem Twins.symm {i j : Nat} (twins : Twins s i j) : Twins s j i := by
  obtain ⟨scope, identity, key, first, second⟩ := twins
  exact ⟨scope, identity, key, second, first⟩

theorem Twins.trans {i j k : Nat} (twins : Twins s i j) (twins' : Twins s j k) :
    Twins s i k := by
  obtain ⟨scope, identity, key, first, second⟩ := twins
  obtain ⟨scope', identity', key', second', third⟩ := twins'
  have same := Option.some.inj (second'.symm.trans second)
  exact ⟨scope, identity, key, first, same ▸ third⟩

variable {exchange : Exchange}

/-- An exchanged token and its successor are of one session. -/
theorem Ledger.home_successor (ledger : Ledger s) {token : Nat} {pair : Pair} (found : s.server.pairs token = some pair)
    (consumed : pair.consumed = some exchange) (home : Home s token scope) :
    Home s exchange.tokens.refreshToken scope := by
  obtain ⟨-, next, successor, follows⟩ := ledger.exchanged _ _ _ found consumed
  obtain ⟨pair', found', identity, key, sent⟩ := home
  obtain rfl : pair = pair' := Option.some.inj (found.symm.trans found')
  exact ⟨next, successor, identity, key, follows.origin ▸ sent⟩

theorem Ledger.successor_ne (ledger : Ledger s) {token : Nat} {pair : Pair} (found : s.server.pairs token = some pair)
    (consumed : pair.consumed = some exchange) : exchange.tokens.refreshToken ≠ token := by
  obtain ⟨-, next, successor, follows⟩ := ledger.exchanged _ _ _ found consumed
  rintro same
  rw [same, found] at successor
  obtain rfl := Option.some.inj successor
  have later := follows.generation
  omega

theorem Ledger.presented_issued (ledger : Ledger s) {token : Nat} {key : IdempotencyKey}
    (presented : Presented s token key) : token < s.server.issued := by
  obtain ⟨scope, sent⟩ := presented
  obtain ⟨pair, found, -⟩ := ledger.home _ _ _ sent
  exact (ledger.issued _ _ found).1

theorem Ledger.home_issued (ledger : Ledger s) {token : Nat} (home : Home s token scope) :
    token < s.server.issued := by
  obtain ⟨pair, found, -⟩ := home
  exact (ledger.issued _ _ found).1

/-- An exchange was made under a key that was presented. -/
theorem Ledger.exchange_presented (ledger : Ledger s) {token : Nat} {pair : Pair} (found : s.server.pairs token = some pair)
    (consumed : pair.consumed = some exchange) : Presented s token exchange.key :=
  (ledger.exchanged _ _ _ found consumed).1

/-- A token that was never presented was not exchanged. -/
theorem Ledger.not_consumed (ledger : Ledger s) {token : Nat} {pair : Pair}
    (unsent : ∀ key, ¬ Presented s token key) (found : s.server.pairs token = some pair) :
    pair.consumed = none := by
  cases consumed : pair.consumed with
  | none => rfl
  | some exchange => exact absurd (ledger.exchange_presented found consumed) (unsent _)

/-! ## Steps that send and issue nothing -/

structure Quiet (s s' : State Name) : Prop where
  now : s.now ≤ s'.now
  drawn : s.drawn ≤ s'.drawn
  sent : s'.sent = s.sent
  pairs : s'.server.pairs = s.server.pairs
  issued : s'.server.issued = s.server.issued
  logins : s'.server.logins = s.server.logins
  answers : ∀ answer ∈ s.answers, answer ∈ s'.answers
  answered : ∀ index tokens, (index, .tokens tokens) ∈ s'.answers →
    (index, .tokens tokens) ∈ s.answers ∨
      ∃ sent, s.sent[index]? = some sent ∧ Accounts s index tokens sent.request

namespace Quiet

/-- Nothing but processes, locks, keys drawn and the document changes. -/
theorem of_local (now : s'.now = s.now) (drawn : s.drawn ≤ s'.drawn) (sent : s'.sent = s.sent)
    (answers : s'.answers = s.answers) (server : s'.server = s.server) : Quiet s s' where
  now := now ▸ Nat.le_refl _
  drawn := drawn
  sent := sent
  pairs := server ▸ rfl
  issued := server ▸ rfl
  logins := server ▸ rfl
  answers := fun _ mem => answers ▸ mem
  answered := fun _ _ mem => .inl (answers ▸ mem)

theorem grows (quiet : Quiet s s') : Grows s s' where
  now := quiet.now
  sent := quiet.sent ▸ List.prefix_refl _
  answers := quiet.answers
  pairs := by
    intro n pair found
    exact ⟨pair.consumed, by rw [quiet.pairs]; exact found, fun _ same => same⟩

theorem presented (quiet : Quiet s s') {token : Nat} {key : IdempotencyKey} :
    Presented s' token key ↔ Presented s token key := by
  unfold Presented
  rw [quiet.sent]

theorem twins (quiet : Quiet s s') {i j : Nat} : Twins s' i j ↔ Twins s i j := by
  unfold Twins
  rw [quiet.sent]

theorem untouched (quiet : Quiet s s') (same : s'.stored = s.stored) {token : Nat} :
    Untouched s' token ↔ Untouched s token := by
  unfold Untouched
  simp only [quiet.presented, same]

theorem ledger (quiet : Quiet s s') (ledger : Ledger s) : Ledger s' where
  issued := by
    rw [quiet.pairs, quiet.issued]
    exact ledger.issued
  opened := by
    rw [quiet.pairs]
    intro n pair found
    obtain ⟨scope, opened⟩ := ledger.opened n pair found
    exact ⟨scope, quiet.grows.openedBy opened⟩
  newest := by
    rw [quiet.pairs]
    exact ledger.newest
  exchanged := by
    rw [quiet.pairs]
    intro n pair exchange found consumed
    obtain ⟨presented, next⟩ := ledger.exchanged n pair exchange found consumed
    exact ⟨quiet.grows.presented presented, next⟩
  home := by
    rw [quiet.sent]
    exact fun scope token key sent => quiet.grows.home (ledger.home scope token key sent)
  once := fun token key other presented presented' =>
    ledger.once token key other (quiet.presented.mp presented) (quiet.presented.mp presented')
  loggedIn := by
    rw [quiet.logins]
    intro identity key kept found
    obtain ⟨scope, request, sent, signedIn⟩ := ledger.loggedIn identity key kept found
    exact ⟨scope, request, quiet.grows.sent_at sent, quiet.grows.signedIn signedIn⟩
  answered := by
    intro index tokens mem
    rcases quiet.answered index tokens mem with before | ⟨sent, found, accounts⟩
    · obtain ⟨sent, found, accounts⟩ := ledger.answered index tokens before
      exact ⟨sent, quiet.grows.sent_at found, quiet.grows.accounts accounts⟩
    · exact ⟨sent, quiet.grows.sent_at found, quiet.grows.accounts accounts⟩
  oneScope := by
    rw [quiet.sent]
    exact ledger.oneScope
  drawn := by
    rw [quiet.sent]
    exact fun scope identity n sent =>
      Nat.lt_of_lt_of_le (ledger.drawn scope identity n sent) quiet.drawn

theorem sound (quiet : Quiet s s') {session : Session} (sound : Sound s scope session) :
    Sound s' scope session where
  home := quiet.grows.home sound.home
  paired := sound.paired
  unsent := fun free key presented => sound.unsent free key (quiet.presented.mp presented)
  reserved := by
    intro key reserved
    obtain ⟨one, idle, started, at_, earlier, before⟩ := sound.reserved key reserved
    refine ⟨fun other presented => one other (quiet.presented.mp presented), idle, started, at_,
      Nat.le_trans earlier quiet.now, ?_⟩
    rw [quiet.pairs]
    exact before
  successor := by
    rw [quiet.pairs]
    exact fun pair exchange found consumed key presented =>
      sound.successor pair exchange found consumed key (quiet.presented.mp presented)
  expiry := by
    rw [quiet.pairs]
    exact sound.expiry

end Quiet

/-! ## A request is sent -/

/-- What a process may send: the stored token under its reserved key, a sign-in under a key of
its own, or a logout. -/
def Permitted (s : State Name) (scope : Scope) : Request → Prop
  | .login identity key => (∀ other, ⟨other, .login identity key⟩ ∈ s.sent → other = scope) ∧
      ∀ n, key = .generated n → n = s.drawn
  | .refresh token key => ∃ session, s.stored scope = some session ∧
      session.refreshToken = token ∧ session.pendingRefreshKey = some key ∧
      Sound s scope session
  | .logout _ _ _ => True

/-- The state after a request was sent, whatever its process does next. -/
structure Sends (s s' : State Name) (scope : Scope) (request : Request) : Prop where
  now : s'.now = s.now
  drawn : s.drawn ≤ s'.drawn
  draws : ∀ identity key, request = .login identity key → s.drawn < s'.drawn
  sent : s'.sent = s.sent ++ [⟨scope, request⟩]
  answers : s'.answers = s.answers
  server : s'.server = s.server
  credentials : s'.credentials = s.credentials

namespace Sends

variable {request : Request}

theorem grows (sends : Sends s s' scope request) : Grows s s' where
  now := sends.now ▸ Nat.le_refl _
  sent := sends.sent ▸ List.prefix_append _ _
  answers := fun _ mem => sends.answers ▸ mem
  pairs := sends.server ▸ Server.Extends.refl _

theorem presented (sends : Sends s s' scope request) {token : Nat} {key : IdempotencyKey} :
    Presented s' token key ↔ Presented s token key ∨ request = .refresh token key := by
  unfold Presented
  rw [sends.sent]
  constructor
  · rintro ⟨other, mem⟩
    rcases List.mem_append.mp mem with before | last
    · exact .inl ⟨other, before⟩
    · rw [List.mem_singleton, Sent.mk.injEq] at last
      exact .inr last.2.symm
  · rintro (⟨other, before⟩ | rfl)
    · exact ⟨other, List.mem_append_left _ before⟩
    · exact ⟨scope, by simp⟩

theorem stored (sends : Sends s s' scope request) : s'.stored = s.stored := by
  unfold State.stored
  rw [sends.credentials]

/-- Twins among the requests of before were twins before. -/
theorem twins (sends : Sends s s' scope request) {i j : Nat} (bound : i < s.sent.length)
    (bound' : j < s.sent.length) (twins : Twins s' i j) : Twins s i j := by
  obtain ⟨other, identity, key, first, second⟩ := twins
  rw [sends.sent, List.getElem?_append_left bound] at first
  rw [sends.sent, List.getElem?_append_left bound'] at second
  exact ⟨other, identity, key, first, second⟩

theorem oneScope (sends : Sends s s' scope request) (permitted : Permitted s scope request)
    (before : ∀ scope scope' identity key, ⟨scope, .login identity key⟩ ∈ s.sent →
      ⟨scope', .login identity key⟩ ∈ s.sent → scope = scope') (one other : Scope)
    (identity : String) (key : IdempotencyKey) (mem : ⟨one, .login identity key⟩ ∈ s'.sent)
    (mem' : ⟨other, .login identity key⟩ ∈ s'.sent) : one = other := by
  rw [sends.sent, List.mem_append, List.mem_singleton, Sent.mk.injEq] at mem mem'
  rcases mem with earlier | ⟨rfl, rfl⟩
  · rcases mem' with earlier' | ⟨rfl, rfl⟩
    · exact before one other identity key earlier earlier'
    · exact permitted.1 one earlier
  · rcases mem' with earlier' | ⟨rfl, -⟩
    · exact (permitted.1 other earlier').symm
    · rfl

/-- What is presented now is presented under the key of every time before. -/
theorem once (sends : Sends s s' scope request) (permitted : Permitted s scope request)
    (before : ∀ token key other, Presented s token key → Presented s token other → key = other)
    (token : Nat) (key other : IdempotencyKey) (presented : Presented s' token key)
    (presented' : Presented s' token other) : key = other := by
  have now : ∀ key other, request = .refresh token key → Presented s token other →
      other = key := by
    rintro key other rfl earlier
    obtain ⟨session, -, rfl, reserved, sound⟩ := permitted
    exact (sound.reserved key reserved).1 other earlier
  rcases sends.presented.mp presented with earlier | rfl
  · rcases sends.presented.mp presented' with earlier' | same
    · exact before token key other earlier earlier'
    · exact now other key same earlier
  · rcases sends.presented.mp presented' with earlier' | same
    · exact (now key other rfl earlier').symm
    · cases same
      rfl

theorem ledger (sends : Sends s s' scope request) (permitted : Permitted s scope request)
    (ledger : Ledger s) : Ledger s' where
  issued := by
    rw [sends.server]
    exact ledger.issued
  opened := by
    rw [sends.server]
    intro n pair found
    obtain ⟨scope, opened⟩ := ledger.opened n pair found
    exact ⟨scope, sends.grows.openedBy opened⟩
  newest := by
    rw [sends.server]
    exact ledger.newest
  exchanged := by
    rw [sends.server]
    intro n pair exchange found consumed
    obtain ⟨presented, next⟩ := ledger.exchanged n pair exchange found consumed
    exact ⟨sends.grows.presented presented, next⟩
  home := by
    intro other token key mem
    rw [sends.sent, List.mem_append, List.mem_singleton, Sent.mk.injEq] at mem
    rcases mem with before | ⟨rfl, rfl⟩
    · exact sends.grows.home (ledger.home other token key before)
    · obtain ⟨session, -, rfl, -, sound⟩ := permitted
      exact sends.grows.home sound.home
  once := sends.once permitted ledger.once
  loggedIn := by
    rw [sends.server]
    intro identity key kept found
    obtain ⟨scope, request, sent, signedIn⟩ := ledger.loggedIn identity key kept found
    exact ⟨scope, request, sends.grows.sent_at sent, sends.grows.signedIn signedIn⟩
  answered := by
    rw [sends.answers]
    intro index tokens mem
    obtain ⟨sent, found, accounts⟩ := ledger.answered index tokens mem
    exact ⟨sent, sends.grows.sent_at found, sends.grows.accounts accounts⟩
  oneScope := sends.oneScope permitted ledger.oneScope
  drawn := by
    intro other identity n mem
    rw [sends.sent, List.mem_append, List.mem_singleton, Sent.mk.injEq] at mem
    rcases mem with before | ⟨rfl, rfl⟩
    · exact Nat.lt_of_lt_of_le (ledger.drawn other identity n before) sends.drawn
    · rw [permitted.2 n rfl]
      exact sends.draws _ _ rfl

/-- A stored session stays sound: what is presented is the stored token of its own scope,
under the key reserved for it. -/
theorem sound (sends : Sends s s' scope request) (permitted : Permitted s scope request)
    (ledger : Ledger s) {other : Scope} {session : Session}
    (stored : s.stored other = some session) (sound : Sound s other session) :
    Sound s' other session := by
  have own : ∀ key, request = .refresh session.refreshToken key →
      session.pendingRefreshKey = some key := by
    rintro key rfl
    obtain ⟨presenting, held, same, reserved, home⟩ := permitted
    obtain rfl : scope = other := by
      have home := home.home
      rw [same] at home
      exact home.unique sound.home
    obtain rfl := Option.some.inj (held.symm.trans stored)
    exact reserved
  exact
    { home := sends.grows.home sound.home
      paired := sound.paired
      unsent := by
        intro free key presented
        rcases sends.presented.mp presented with before | now
        · exact sound.unsent free key before
        · rw [own key now] at free
          cases free
      reserved := by
        intro key reserved
        obtain ⟨one, idle, started, at_, earlier, before⟩ := sound.reserved key reserved
        refine ⟨fun other presented => ?_, idle, started, at_, sends.now ▸ earlier, ?_⟩
        · rcases sends.presented.mp presented with before | now
          · exact one other before
          · exact Option.some.inj ((own other now).symm.trans reserved)
        · rw [sends.server]
          exact before
      successor := by
        rw [sends.server]
        intro pair exchange found consumed key presented
        rcases sends.presented.mp presented with before | rfl
        · exact sound.successor pair exchange found consumed key before
        · obtain ⟨presenting, held, same, -, home⟩ := permitted
          have next := ledger.home_successor found consumed sound.home
          have home := home.home
          rw [same] at home
          obtain rfl := home.unique next
          obtain rfl := Option.some.inj (held.symm.trans stored)
          exact ledger.successor_ne found consumed same.symm
      expiry := by
        rw [sends.server]
        exact sound.expiry }

end Sends

/-! ## A pair is issued -/

/-- An exchange made now, under a key that was presented, that issued `next`. -/
structure Consumes (s : State Name) (token : Nat) (pair next : Pair) (exchange : Exchange) :
    Prop where
  madeAt : exchange.madeAt = s.now
  tokens : exchange.tokens.refreshToken = s.server.issued
  presented : Presented s token exchange.key
  follows : Follows pair exchange next

structure Issues (s s' : State Name) (next : Pair) : Prop where
  now : s'.now = s.now
  drawn : s'.drawn = s.drawn
  sent : s'.sent = s.sent
  credentials : s'.credentials = s.credentials
  issued : s'.server.issued = s.server.issued + 1
  found : s'.server.pairs s.server.issued = some next
  unconsumed : next.consumed = none
  opened : ∃ scope, next.OpenedBy s scope
  extends_ : s.server.Extends s'.server
  old : ∀ n pair', s'.server.pairs n = some pair' → n ≠ s.server.issued →
    ∃ pair, s.server.pairs n = some pair ∧ pair' = { pair with consumed := pair'.consumed } ∧
      (pair'.consumed = pair.consumed ∨
        ∃ exchange, pair'.consumed = some exchange ∧ Consumes s n pair next exchange)
  family : next.family < s'.server.issued ∧
    ∀ m pair', s'.server.pairs m = some pair' → pair'.family = next.family →
      m ≠ s.server.issued → pair'.generation < next.generation ∧ pair'.consumed ≠ none
  logins : ∀ identity key kept, s'.server.logins identity key = some kept →
    s.server.logins identity key = some kept ∨
      ∃ scope request, s.sent[request]? = some ⟨scope, .login identity key⟩ ∧
        SignedIn s' request kept.2
  answers : ∀ answer ∈ s.answers, answer ∈ s'.answers
  answered : ∀ index tokens, (index, .tokens tokens) ∈ s'.answers →
    (index, .tokens tokens) ∈ s.answers ∨
      ∃ sent, s.sent[index]? = some sent ∧ Accounts s' index tokens sent.request

theorem Follows.congr {pair pair' next next' : Pair}
    (follows : Follows pair exchange next)
    (same : pair' = { pair with consumed := pair'.consumed })
    (same' : next' = { next with consumed := next'.consumed }) : Follows pair' exchange next' := by
  rw [same, same']
  exact ⟨follows.family, follows.origin, follows.generation, follows.paired, follows.expiry⟩

namespace Issues

variable {next : Pair}

theorem grows (issues : Issues s s' next) : Grows s s' where
  now := issues.now ▸ Nat.le_refl _
  sent := issues.sent ▸ List.prefix_refl _
  answers := issues.answers
  pairs := issues.extends_

theorem presented (issues : Issues s s' next) {token : Nat} {key : IdempotencyKey} :
    Presented s' token key ↔ Presented s token key := by
  unfold Presented
  rw [issues.sent]

theorem twins (issues : Issues s s' next) {i j : Nat} : Twins s' i j ↔ Twins s i j := by
  unfold Twins
  rw [issues.sent]

theorem stored (issues : Issues s s' next) : s'.stored = s.stored := by
  unfold State.stored
  rw [issues.credentials]

theorem untouched (issues : Issues s s' next) {token : Nat} :
    Untouched s' token ↔ Untouched s token := by
  unfold Untouched
  simp only [issues.presented, issues.stored]

theorem newest (issues : Issues s s' next) (ledger : Ledger s) {n m : Nat} {pair other : Pair}
    (found : s'.server.pairs n = some pair) (free : pair.consumed = none)
    (found' : s'.server.pairs m = some other) (family : other.family = pair.family)
    (apart : m ≠ n) : other.generation < pair.generation := by
  by_cases new : n = s.server.issued
  · rw [new, issues.found] at found
    obtain rfl := Option.some.inj found
    exact (issues.family.2 m other found' family (new ▸ apart)).1
  · obtain ⟨before, held, same, consumed⟩ := issues.old n pair found new
    by_cases new' : m = s.server.issued
    · rw [new', issues.found] at found'
      obtain rfl := Option.some.inj found'
      exact absurd free (issues.family.2 n pair found family.symm new).2
    · obtain ⟨before', held', same', -⟩ := issues.old m other found' new'
      have free : before.consumed = none := by
        rcases consumed with kept | ⟨exchange, made, -⟩
        · exact kept.symm.trans free
        · rw [made] at free
          cases free
      rw [same, same'] at family ⊢
      exact ledger.newest n before held free m before' held' family apart

theorem exchanged (issues : Issues s s' next) (ledger : Ledger s) {n : Nat} {pair : Pair} (found : s'.server.pairs n = some pair)
    (consumed : pair.consumed = some exchange) :
    Presented s' n exchange.key ∧ ∃ after, s'.server.pairs exchange.tokens.refreshToken =
      some after ∧ Follows pair exchange after := by
  by_cases new : n = s.server.issued
  · rw [new, issues.found] at found
    obtain rfl := Option.some.inj found
    rw [issues.unconsumed] at consumed
    cases consumed
  · obtain ⟨before, held, same, kept | ⟨made, at_, consumes⟩⟩ := issues.old n pair found new
    · obtain ⟨presented, after, held', follows⟩ :=
        ledger.exchanged n before exchange held (kept.symm.trans consumed)
      obtain ⟨consumed', held', -⟩ := issues.extends_ _ _ held'
      exact ⟨issues.presented.mpr presented, _, held', follows.congr same rfl⟩
    · obtain rfl := Option.some.inj (at_.symm.trans consumed)
      refine ⟨issues.presented.mpr consumes.presented, next, ?_, consumes.follows.congr same rfl⟩
      rw [consumes.tokens]
      exact issues.found

theorem ledger (issues : Issues s s' next) (ledger : Ledger s) : Ledger s' where
  issued := by
    intro n pair found
    by_cases new : n = s.server.issued
    · rw [new, issues.found] at found
      obtain rfl := Option.some.inj found
      exact ⟨by rw [new, issues.issued]; exact Nat.lt_succ_self _, issues.family.1⟩
    · obtain ⟨before, held, same, -⟩ := issues.old n pair found new
      obtain ⟨bound, family⟩ := ledger.issued n before held
      rw [same, issues.issued]
      exact ⟨Nat.lt_succ_of_lt bound, Nat.lt_succ_of_lt family⟩
  opened := by
    intro n pair found
    by_cases new : n = s.server.issued
    · rw [new, issues.found] at found
      obtain rfl := Option.some.inj found
      obtain ⟨scope, opened⟩ := issues.opened
      exact ⟨scope, issues.grows.openedBy opened⟩
    · obtain ⟨before, held, same, -⟩ := issues.old n pair found new
      obtain ⟨scope, opened⟩ := ledger.opened n before held
      rw [same]
      exact ⟨scope, issues.grows.openedBy opened⟩
  newest := fun n pair found free m other found' family apart =>
    issues.newest ledger found free found' family apart
  exchanged := fun n pair exchange found consumed => issues.exchanged ledger found consumed
  home := by
    rw [issues.sent]
    exact fun scope token key sent => issues.grows.home (ledger.home scope token key sent)
  once := fun token key other presented presented' =>
    ledger.once token key other (issues.presented.mp presented) (issues.presented.mp presented')
  loggedIn := by
    intro identity key kept found
    rw [issues.sent]
    rcases issues.logins identity key kept found with before | new
    · obtain ⟨scope, request, sent, signedIn⟩ := ledger.loggedIn identity key kept before
      exact ⟨scope, request, sent, issues.grows.signedIn signedIn⟩
    · exact new
  answered := by
    intro index tokens mem
    rw [issues.sent]
    rcases issues.answered index tokens mem with before | new
    · obtain ⟨sent, found, accounts⟩ := ledger.answered index tokens before
      exact ⟨sent, found, issues.grows.accounts accounts⟩
    · exact new
  oneScope := by
    rw [issues.sent]
    exact ledger.oneScope
  drawn := by
    rw [issues.sent, issues.drawn]
    exact ledger.drawn

theorem sound (issues : Issues s s' next) (ledger : Ledger s) {session : Session}
    (sound : Sound s scope session) : Sound s' scope session := by
  -- the session's token is an old one
  have old : ∀ pair', s'.server.pairs session.refreshToken = some pair' → _ := fun pair' found =>
    issues.old _ pair' found (Nat.ne_of_lt (ledger.home_issued sound.home))
  exact
    { home := issues.grows.home sound.home
      paired := sound.paired
      unsent := fun free key presented => sound.unsent free key (issues.presented.mp presented)
      reserved := by
        intro key reserved
        obtain ⟨one, idle, started, at_, earlier, before⟩ := sound.reserved key reserved
        refine ⟨fun other presented => one other (issues.presented.mp presented), idle, started,
          at_, issues.now ▸ earlier, fun pair' exchange found consumed => ?_⟩
        obtain ⟨pair, held, -, kept | ⟨made, now, consumes⟩⟩ := old pair' found
        · exact before pair exchange held (kept.symm.trans consumed)
        · obtain rfl := Option.some.inj (now.symm.trans consumed)
          rw [consumes.madeAt]
          exact earlier
      successor := by
        intro pair' exchange found consumed key presented
        have presented := issues.presented.mp presented
        obtain ⟨pair, held, -, kept | ⟨made, now, consumes⟩⟩ := old pair' found
        · exact sound.successor pair exchange held (kept.symm.trans consumed) key presented
        · obtain rfl := Option.some.inj (now.symm.trans consumed)
          have bound := ledger.presented_issued presented
          rw [consumes.tokens] at bound
          exact Nat.lt_irrefl _ bound
      expiry := by
        intro pair' found later
        obtain ⟨pair, held, same, -⟩ := old pair' found
        rw [same] at later ⊢
        exact sound.expiry pair held later }

end Issues

/-! ## The server's steps -/

/-- The state once the server answered a request. -/
def State.answer (s : State Name) (index : Nat) (served : Answer × Server) : State Name :=
  { s with answers := (index, served.1) :: s.answers, server := served.2 }

theorem State.serve_eq {window lifetime : Time} {index : Nat} {sent : Sent}
    (found : s.sent[index]? = some sent) : s.serve window index lifetime =
      s.answer index (s.server.serve window s.now index lifetime sent.request) := by
  unfold State.serve
  rw [found]
  rfl

/-- An answer that issues nothing. -/
theorem quiet_answer {index : Nat} {served : Answer × Server} {sent : Sent}
    (found : s.sent[index]? = some sent) (pairs : served.2.pairs = s.server.pairs)
    (issued : served.2.issued = s.server.issued) (logins : served.2.logins = s.server.logins)
    (accounts : ∀ tokens, served.1 = .tokens tokens → Accounts s index tokens sent.request) :
    Quiet s (s.answer index served) where
  now := Nat.le_refl _
  drawn := Nat.le_refl _
  sent := rfl
  pairs := pairs
  issued := issued
  logins := logins
  answers := fun _ mem => List.mem_cons_of_mem _ mem
  answered := by
    intro index' tokens mem
    rcases List.mem_cons.mp mem with now | before
    · obtain ⟨rfl, same⟩ := Prod.mk.inj now
      exact .inr ⟨sent, found, accounts tokens same.symm⟩
    · exact .inl before

theorem Server.opened_self (server : Server) (now lifetime : Time) (origin : Nat)
    (identity : String) (key : IdempotencyKey) :
    (server.opened now lifetime origin identity key).pairs server.issued =
      some ⟨server.issued, origin, identity, 0, now + lifetime, none⟩ :=
  Function.update_self ..

theorem Server.opened_of_ne {server : Server} {now lifetime : Time} {origin : Nat}
    {identity : String} {key : IdempotencyKey} {n : Nat} (apart : n ≠ server.issued) :
    (server.opened now lifetime origin identity key).pairs n = server.pairs n :=
  Function.update_of_ne apart ..

/-- A sign-in that is not answered from an earlier one opens a family. -/
theorem issues_login (ledger : Ledger s) {index : Nat} {lifetime : Time} {identity : String}
    {key : IdempotencyKey} (found : s.sent[index]? = some ⟨scope, .login identity key⟩) :
    Issues s (s.answer index (.tokens (s.server.response lifetime),
      s.server.opened s.now lifetime index identity key))
      ⟨s.server.issued, index, identity, 0, s.now + lifetime, none⟩ := by
  have signedIn : SignedIn (s.answer index (.tokens (s.server.response lifetime),
      s.server.opened s.now lifetime index identity key)) index (s.server.response lifetime) :=
    ⟨rfl, _, Server.opened_self .., ⟨scope, identity, key, found, found⟩, rfl⟩
  exact
    { now := rfl
      drawn := rfl
      sent := rfl
      credentials := rfl
      issued := rfl
      found := Server.opened_self ..
      unconsumed := rfl
      opened := ⟨scope, identity, key, found⟩
      extends_ := by
        intro n pair held
        have apart := Nat.ne_of_lt (ledger.issued n pair held).1
        exact ⟨pair.consumed, (Server.opened_of_ne apart).trans held, fun _ same => same⟩
      old := by
        intro n pair held new
        exact ⟨pair, (Server.opened_of_ne new).symm.trans held, rfl, .inl rfl⟩
      family := by
        refine ⟨Nat.lt_succ_self _, fun m pair held family new => ?_⟩
        have held : s.server.pairs m = some pair := (Server.opened_of_ne new).symm.trans held
        exact absurd family (Nat.ne_of_lt (ledger.issued m pair held).2)
      logins := by
        intro identity' key' kept held
        simp only [State.answer, Server.opened] at held
        by_cases same : identity' = identity
        · subst same
          rw [Function.update_self] at held
          by_cases same : key' = key
          · subst same
            rw [Function.update_self] at held
            obtain rfl := Option.some.inj held
            exact .inr ⟨scope, index, found, signedIn⟩
          · rw [Function.update_of_ne same] at held
            exact .inl held
        · rw [Function.update_of_ne same] at held
          exact .inl held
      answers := fun _ mem => List.mem_cons_of_mem _ mem
      answered := by
        intro index' tokens mem
        rcases List.mem_cons.mp mem with now | before
        · obtain ⟨rfl, same⟩ := Prod.mk.inj now
          obtain rfl := Answer.tokens.inj same
          exact .inr ⟨_, found, signedIn⟩
        · exact .inl before }

section Rotation

variable {server : Server} {now lifetime : Time} {token : Nat} {pair : Pair}
  {key : IdempotencyKey}

theorem Server.rotated_self : (server.rotated now lifetime token pair key).pairs token =
    some { pair with consumed := some ⟨key, now, server.response lifetime⟩ } :=
  Function.update_self ..

theorem Server.rotated_issued (apart : server.issued ≠ token) :
    (server.rotated now lifetime token pair key).pairs server.issued =
      some (pair.successor now lifetime) :=
  (Function.update_of_ne apart ..).trans (Function.update_self ..)

theorem Server.rotated_of_ne {n : Nat} (new : n ≠ server.issued) (apart : n ≠ token) :
    (server.rotated now lifetime token pair key).pairs n = server.pairs n :=
  (Function.update_of_ne apart ..).trans (Function.update_of_ne new ..)

end Rotation

/-- A rotation issues the successor of the token presented. -/
theorem issues_rotation (ledger : Ledger s) {index token : Nat} {lifetime : Time}
    {key : IdempotencyKey} {pair : Pair}
    (found : s.sent[index]? = some ⟨scope, .refresh token key⟩)
    (held : s.server.pairs token = some pair) (free : pair.consumed = none) :
    Issues s (s.answer index (.tokens (s.server.response lifetime),
      s.server.rotated s.now lifetime token pair key)) (pair.successor s.now lifetime) := by
  have bound := ledger.issued token pair held
  have new : s.server.issued ≠ token := Nat.ne_of_gt bound.1
  exact
    { now := rfl
      drawn := rfl
      sent := rfl
      credentials := rfl
      issued := rfl
      found := Server.rotated_issued new
      unconsumed := rfl
      opened := (ledger.opened token pair held).imp fun _ opened => opened
      extends_ := by
        intro n before found'
        by_cases same : n = token
        · subst same
          obtain rfl := Option.some.inj (held.symm.trans found')
          refine ⟨_, Server.rotated_self, fun exchange taken => ?_⟩
          rw [free] at taken
          cases taken
        · have apart := Nat.ne_of_lt (ledger.issued n before found').1
          exact ⟨before.consumed, (Server.rotated_of_ne apart same).trans found',
            fun _ same => same⟩
      old := by
        intro n after found' apart
        by_cases same : n = token
        · subst same
          obtain rfl := Option.some.inj (Server.rotated_self.symm.trans found')
          refine ⟨pair, held, rfl, .inr ⟨_, rfl, rfl, rfl, ⟨_, List.mem_of_getElem? found⟩, ?_⟩⟩
          refine ⟨rfl, rfl, rfl, rfl, ?_⟩
          exact Nat.add_le_add_left (Nat.div_mul_le_self ..) _
        · exact ⟨after, (Server.rotated_of_ne apart same).symm.trans found', rfl, .inl rfl⟩
      family := by
        refine ⟨Nat.lt_succ_of_lt bound.2, fun m after found' family apart => ?_⟩
        by_cases same : m = token
        · subst same
          obtain rfl := Option.some.inj (Server.rotated_self.symm.trans found')
          exact ⟨Nat.lt_succ_self _, Option.some_ne_none _⟩
        · have before : s.server.pairs m = some after :=
            (Server.rotated_of_ne apart same).symm.trans found'
          have older := ledger.newest token pair held free m after before family same
          refine ⟨Nat.lt_succ_of_lt older, fun free' => ?_⟩
          -- two unconsumed pairs of one family would each be the newer
          have newer := ledger.newest m after before free' token pair held family.symm
            (Ne.symm same)
          exact Nat.lt_asymm older newer
      logins := fun _ _ _ found' => .inl found'
      answers := fun _ mem => List.mem_cons_of_mem _ mem
      answered := by
        intro index' tokens mem
        rcases List.mem_cons.mp mem with now | before
        · obtain ⟨rfl, same⟩ := Prod.mk.inj now
          obtain rfl := Answer.tokens.inj same
          exact .inr ⟨_, found, _, _, Server.rotated_self, rfl, rfl, rfl⟩
        · exact .inl before }

theorem serve_kind (ledger : Ledger s) (window lifetime : Time) (index : Nat) :
    Quiet s (s.serve window index lifetime) ∨
      ∃ next, Issues s (s.serve window index lifetime) next := by
  cases found : s.sent[index]? with
  | none =>
      unfold State.serve
      rw [found]
      exact .inl (.of_local rfl (Nat.le_refl _) rfl rfl rfl)
  | some sent =>
      rw [State.serve_eq found]
      obtain ⟨scope, request⟩ := sent
      cases request with
      | login identity key =>
          simp only [Server.serve, Server.signIn]
          cases known : s.server.logins identity key with
          | none => exact .inr ⟨_, issues_login ledger found⟩
          | some kept =>
              simp only
              split
              · refine .inl (quiet_answer found rfl rfl rfl fun tokens same => ?_)
                obtain rfl := Answer.tokens.inj same
                obtain ⟨scope', request, found', paired, pair, held, twins, first⟩ :=
                  ledger.loggedIn _ _ _ known
                obtain rfl := ledger.oneScope _ _ _ _ (List.mem_of_getElem? found)
                  (List.mem_of_getElem? found')
                exact ⟨paired, pair, held, twins.trans ⟨scope, identity, key, found', found⟩,
                  first⟩
              · exact .inr ⟨_, issues_login ledger found⟩
      | refresh token key =>
          simp only [Server.serve, Server.rotate]
          cases held : s.server.pairs token with
          | none => exact .inl (quiet_answer found rfl rfl rfl (fun _ same => by cases same))
          | some pair =>
              cases consumed : pair.consumed with
              | some exchange =>
                  simp only [consumed]
                  split
                  · rename_i replays
                    refine .inl (quiet_answer found rfl rfl rfl fun tokens same => ?_)
                    exact ⟨pair, exchange, held, consumed, replays.1, Answer.tokens.inj same⟩
                  · exact .inl (quiet_answer found rfl rfl rfl (fun _ same => by cases same))
              | none =>
                  simp only [consumed]
                  split
                  · exact .inl (quiet_answer found rfl rfl rfl (fun _ same => by cases same))
                  · exact .inr ⟨_, issues_rotation ledger found held consumed⟩
      | logout bearer mode key =>
          simp only [Server.serve, Server.logout]
          split
          · exact .inl (quiet_answer found rfl rfl rfl (fun _ same => by cases same))
          · exact .inl (quiet_answer found rfl rfl rfl (fun _ same => by cases same))

end SiliconIam.Cli
