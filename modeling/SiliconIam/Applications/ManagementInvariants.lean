/-
# Applications.ManagementInvariants -- what the receipts and the rows agree on

`Lawful before receipt` is what a committed transaction may have answered and
changed, given the receipts before it: an operation keeps its binding and is
completed once, a replay shows what the completion showed, and a pending
configuration is only completed by an activation of its digest.  It speaks of
receipts alone.

`Sound` joins the receipts to the rows: a row stands as the receipt of its completion
left it, or as an activation or a purge has changed it since (`Stands`).
-/
import SiliconIam.Applications.ManagementOperations

namespace SiliconIam.Applications.Honeycomb

open SiliconIam.Theory

set_option autoImplicit false

/-! ## Responses -/

variable {r : Response}

namespace Response

/-- No field is a secret. -/
def Public (r : Response) : Prop := ∀ field ∈ r, ∀ secret, field.2 ≠ .secret secret

/-- Without secrets, and without the mark of one that has expired. -/
def settle (r : Response) : Response := r.redact.remove "secret_replay_expired"

theorem mem_remove {name : String} {field : String × Field} :
    field ∈ r.remove name ↔ field ∈ r ∧ field.1 ≠ name := by
  simp [remove]

theorem mem_redact {field : String × Field} :
    field ∈ r.redact ↔ field ∈ r ∧ field.1 ≠ "app_secret" ∧ field.1 ≠ "key" := by
  rw [redact, mem_remove, mem_remove, and_assoc]

theorem settle_redact (r : Response) : r.redact.settle = r.settle := by
  simp only [settle, redact, remove, List.filter_filter]
  refine List.filter_congr fun field _ => ?_
  by_cases secret : field.1 = "app_secret"
  · simp [secret]
  · by_cases key : field.1 = "key"
    · simp [key]
    · simp [secret, key]

/-- The mark of an expired secret is no part of what is shown. -/
theorem settle_set (r : Response) (value : Value) :
    (r.set "secret_replay_expired" value).settle = r.settle := by
  simp only [settle, redact, set, remove, List.filter_append, List.filter_filter]
  rw [show ([("secret_replay_expired", Field.plain value)] : Response).filter _ = [] from rfl,
    List.append_nil]
  refine List.filter_congr fun field _ => ?_
  by_cases mark : field.1 = "secret_replay_expired"
  · simp [mark]
  · simp [mark]

theorem get_redact (r : Response) {name : String} (secret : name ≠ "app_secret")
    (key : name ≠ "key") : r.redact.get name = r.get name := by
  simp only [get, redact, remove, List.filter_filter, List.find?_filter]
  congr 2
  funext field
  by_cases named : field.1 = name
  · simp [named, secret, key]
  · simp [named]

theorem public_plainFields (fields : List (String × Value)) : (plainFields fields).Public := by
  intro field mem secret
  obtain ⟨plain, -, rfl⟩ := List.mem_map.mp mem
  simp

theorem Public.redact (shown : r.Public) : r.redact.Public :=
  fun field mem => shown field (mem_redact.mp mem).1

theorem Public.set (shown : r.Public) (name : String) (value : Value) :
    (r.set name value).Public := by
  intro field mem secret
  rcases List.mem_append.mp mem with old | new
  · exact shown field (mem_remove.mp old).1 secret
  · rw [List.mem_singleton.mp new]
    simp

/-- Secrets are only under the names that are left out. -/
theorem public_redact
    (named : ∀ field ∈ r, ∀ secret, field.2 = .secret secret →
      field.1 = "app_secret" ∨ field.1 = "key") : r.redact.Public := by
  intro field mem secret same
  obtain ⟨old, first, second⟩ := mem_redact.mp mem
  rcases named field old secret same with name | name
  · exact first name
  · exact second name

end Response

/-! ## Receipts -/

/-- The transaction changed something for its operation. -/
def Receipt.Changed (c : Receipt) : Prop := c.answer = .started ∨ ∃ r, c.answer = .completed r

/-- What a replay shows of the response its operation was completed with.  `adopted`
and `purged`: an activation has completed the pending operation since, or its
environment was purged. -/
inductive Shows (before : List Receipt) (completion replay : Receipt) (s r : Response) : Prop
  | same (shown : r.settle = s.settle)
      (secrets : r.Public ∨ r = s ∧ replay.time < completion.time + 600)
  | adopted (activation : Receipt) (t : Response) (mem : activation ∈ before)
      (named : completion.operation ∈ activation.completes) (pending : s.status = "pending")
      (answered : activation.answer = .completed t)
      (shown : r.settle = (t.set "operation_id" (.number completion.operation)).settle)
      (secrets : r.Public)
  | purged (purge : Receipt) (environment : Nat) (mem : purge ∈ before)
      (purges : purge.purges = some environment)
      (within : completion.binding.resource.environment = some environment) (secrets : r.Public)

/-- A completed receipt of a configuration that only answered as pending. -/
def Receipt.Asked (platform : Platform) (c : Receipt) (digest : Nat) : Prop :=
  c.binding.kind = .configure ∧ c.application = none ∧
    (∃ r, c.answer = .completed r ∧ r.status = "pending") ∧
    ∃ asked, c.requested = some asked ∧ platform.sha256 asked = digest

structure Lawful (platform : Platform) (before : List Receipt) (d : Receipt) : Prop where
  bound : d.answer ≠ .conflict → ∀ c ∈ before, c.answer ≠ .conflict →
    c.operation = d.operation → c.binding = d.binding
  keyed : d.answer ≠ .conflict → ∀ c ∈ before, c.answer ≠ .conflict →
    c.binding.service = d.binding.service →
    c.binding.idempotencyDigest = d.binding.idempotencyDigest →
    (c.binding.actor = d.binding.actor ∨
      c.binding.resource.environment = d.binding.resource.environment) →
    c.operation = d.operation
  refused : d.answer = .conflict → ∀ c ∈ before, c.answer ≠ .conflict →
    c.operation = d.operation → c.binding ≠ d.binding
  once : d.Changed → ∀ c ∈ before, c.operation = d.operation → c.Changed → c.answer = .started
  starts : d.answer = .started → d.binding.resource.environment ≠ none
  replays : ∀ r, d.answer = .replayed r → ∃ c ∈ before, ∃ s, c.operation = d.operation ∧
    c.answer = .completed s ∧ Shows before c d s r
  pending : ∀ r, d.answer = .completed r → d.binding.kind = .configure → r.status = "pending" →
    ∃ digest, d.Asked platform digest ∧
      r.get "configuration_digest" = some (.plain (.digest digest))
  completes : ∀ operation ∈ d.completes, d.binding.kind = .publicationActivation ∧
    ∃ desired, d.requested = some desired ∧
      d.application = some (desired.application, desired.configurationRevision) ∧
      ∃ c ∈ before, c.operation = operation ∧ c.Asked platform (platform.sha256 desired)

/-! ## Rows -/

/-- How a completed operation's row stands to the receipt of its completion. -/
inductive Stands (receipts : List Receipt) (row : StoredOperation) (c : Receipt) (s : Response) :
    Prop
  | same (result : row.result = s.redact) (state : row.state = s.status)
      (stored : row.response = none ∧ row.responseExpiresAt = none ∨
        row.response = some s ∧ row.responseExpiresAt = some (c.time + 600))
  | adopted (activation : Receipt) (t : Response) (mem : activation ∈ receipts)
      (named : row.id ∈ activation.completes) (pending : s.status = "pending")
      (answered : activation.answer = .completed t)
      (result : row.result = t.set "operation_id" (.number row.id)) (state : row.state = "accepted")
      (stored : row.response = none ∧ row.responseExpiresAt = none)
  | purged (purge : Receipt) (environment : Nat) (mem : purge ∈ receipts)
      (purges : purge.purges = some environment)
      (within : row.environment = some environment) (stored : row.response = none)

/-- Rows of one key that row security or the unique index compares. -/
def SameKey (a b : StoredOperation) : Prop :=
  a.binding.service = b.binding.service ∧
    a.binding.idempotencyDigest = b.binding.idempotencyDigest ∧
    (a.binding.actor = b.binding.actor ∨ a.environment = b.environment)

structure Sound (platform : Platform) (db : Db) : Prop where
  lawful : ∀ before d after, db.receipts = before ++ d :: after → Lawful platform before d
  known : ∀ c ∈ db.receipts, c.answer ≠ .conflict →
    ∃ row ∈ db.operations, row.id = c.operation ∧ row.binding = c.binding
  keyed : ∀ a ∈ db.operations, ∀ b ∈ db.operations, SameKey a b → a = b
  environments : ∀ row ∈ db.operations, row.environment = row.binding.resource.environment
  completed : ∀ c ∈ db.receipts, ∀ s, c.answer = .completed s →
    ∀ row ∈ db.operations, row.id = c.operation → row.completed = true
  standing : ∀ row ∈ db.operations, row.completed = true →
    ∃ c ∈ db.receipts, ∃ s, c.operation = row.id ∧ c.answer = .completed s ∧
      Stands db.receipts row c s
  unfinished : ∀ row ∈ db.operations, row.completed = false →
    row.binding.resource.environment = none → row.result = []
  unstored : ∀ row ∈ db.operations, row.binding.resource.environment = none →
    row.binding.kind = .configure → row.state = "pending" →
    row.response = none ∧ row.responseExpiresAt = none
  results : ∀ row ∈ db.operations, row.result.Public
  events : ∀ event ∈ db.events, event.payload.Public

/-- A database in which no management request has run. -/
structure Initial (db : Db) : Prop where
  operations : ∀ row, row ∉ db.operations
  events : db.events = []
  receipts : db.receipts = []

theorem Initial.sound {db : Db} (initial : Initial db) (platform : Platform) :
    Sound platform db where
  lawful := fun before d after same => by
    rw [initial.receipts] at same
    simp at same
  known := fun c mem => by
    rw [initial.receipts] at mem
    exact absurd mem List.not_mem_nil
  keyed := fun a mem => absurd mem (initial.operations a)
  environments := fun row mem => absurd mem (initial.operations row)
  completed := fun c mem => by
    rw [initial.receipts] at mem
    exact absurd mem List.not_mem_nil
  standing := fun row mem => absurd mem (initial.operations row)
  unfinished := fun row mem => absurd mem (initial.operations row)
  unstored := fun row mem => absurd mem (initial.operations row)
  results := fun row mem => absurd mem (initial.operations row)
  events := fun event mem => by
    rw [initial.events] at mem
    exact absurd mem List.not_mem_nil

section

variable {platform : Platform} {db : Db}

/-- One more receipt, lawful after the others. -/
theorem lawful_append {receipts : List Receipt} {d : Receipt}
    (lawful : ∀ before c after, receipts = before ++ c :: after → Lawful platform before c)
    (next : Lawful platform receipts d) :
    ∀ before c after, receipts ++ [d] = before ++ c :: after → Lawful platform before c := by
  intro before c after same
  rcases List.eq_nil_or_concat after with rfl | ⟨rest, last, rfl⟩
  · obtain ⟨rfl, last⟩ := List.append_inj' same rfl
    obtain rfl := List.singleton_inj.mp last
    exact next
  · rw [List.concat_eq_append, ← List.cons_append, ← List.append_assoc] at same
    exact lawful before c rest (List.append_inj' same rfl).1

variable {row : StoredOperation}

/-- The row of an answered operation is the one under its id. -/
theorem Sound.binding (sound : Sound platform db) {c : Receipt} (mem : c ∈ db.receipts)
    (answered : c.answer ≠ .conflict) (held : row ∈ db.operations)
    (same : row.id = c.operation) : row.binding = c.binding := by
  obtain ⟨known, knownMem, named, binding⟩ := sound.known c mem answered
  rw [Table.unique held knownMem (same.trans named.symm)]
  exact binding

theorem Stands.mono {receipts more : List Receipt} (grown : ∀ c ∈ receipts, c ∈ more) {c : Receipt} {s : Response} (stands : Stands receipts row c s) :
    Stands more row c s := by
  cases stands with
  | same result state stored => exact .same result state stored
  | adopted activation t mem named pending answered result state stored =>
      exact .adopted activation t (grown _ mem) named pending answered result state stored
  | purged purge environment mem purges within stored =>
      exact .purged purge environment (grown _ mem) purges within stored

/-- A replay of a row shows what the row stands for. -/
theorem Stands.shows {receipts : List Receipt} {c d : Receipt}
    {s : Response} (stands : Stands receipts row c s) (shown : row.result.Public)
    (named : c.operation = row.id) (environment : row.environment = c.binding.resource.environment)
    (replay : row.replay d.time = some r) : Shows receipts c d s r := by
  have marked : (row.result.set "secret_replay_expired" (.flag true)).Public := shown.set _ _
  cases stands with
  | same result state stored =>
      have settled : row.result.settle = s.settle := by rw [result, Response.settle_redact]
      rcases stored with ⟨-, never⟩ | ⟨kept, expires⟩
      · simp only [StoredOperation.replay, never, Option.some.injEq] at replay
        subst replay
        exact .same settled (.inl shown)
      · simp only [StoredOperation.replay, expires] at replay
        split at replay
        · rename_i live
          rw [kept] at replay
          obtain rfl := Option.some.inj replay
          exact .same rfl (.inr ⟨rfl, live⟩)
        · obtain rfl := Option.some.inj replay
          exact .same ((Response.settle_set _ _).trans settled) (.inl marked)
  | adopted activation t mem member pending answered result state stored =>
      simp only [StoredOperation.replay, stored.2, Option.some.injEq] at replay
      subst replay
      exact .adopted activation t mem (named ▸ member) pending answered
        (by rw [result, named]) shown
  | purged purge env mem purges within stored =>
      refine .purged purge env mem purges (environment ▸ within) ?_
      simp only [StoredOperation.replay] at replay
      split at replay
      · split at replay
        · rw [stored] at replay
          cases replay
        · obtain rfl := Option.some.inj replay
          exact marked
      · obtain rfl := Option.some.inj replay
        exact shown

/-- A receipt that answers without changing a row. -/
theorem Sound.answer (sound : Sound platform db) {d : Receipt} (lawful : Lawful platform db.receipts d)
    (unchanged : ¬ d.Changed)
    (known : d.answer ≠ .conflict →
      ∃ row ∈ db.operations, row.id = d.operation ∧ row.binding = d.binding) :
    Sound platform { db with receipts := db.receipts ++ [d] } where
  lawful := lawful_append sound.lawful lawful
  known := by
    intro c mem answered
    rcases List.mem_append.mp mem with old | new
    · exact sound.known c old answered
    · obtain rfl := List.mem_singleton.mp new
      exact known answered
  keyed := sound.keyed
  environments := sound.environments
  completed := by
    intro c mem s completed
    rcases List.mem_append.mp mem with old | new
    · exact sound.completed c old s completed
    · obtain rfl := List.mem_singleton.mp new
      exact absurd (.inr ⟨s, completed⟩) unchanged
  standing := by
    intro row mem completed
    obtain ⟨c, held, s, named, answered, stands⟩ := sound.standing row mem completed
    have grown : ∀ c ∈ db.receipts, c ∈ db.receipts ++ [d] := fun c => List.mem_append_left _
    exact ⟨c, grown c held, s, named, answered, stands.mono grown⟩
  unfinished := sound.unfinished
  unstored := sound.unstored
  results := sound.results
  events := sound.events

/-- A refused request has changed nothing, and is no retry. -/
theorem Sound.conflict (sound : Sound platform db) {ticket : Ticket}
    (apart : ∀ row ∈ db.operations, row.id = ticket.operation → row.binding ≠ ticket.binding) :
    Lawful platform db.receipts (ticket.receipt .conflict) where
  bound := fun answered => absurd rfl answered
  keyed := fun answered => absurd rfl answered
  refused := by
    intro _ c mem answered same
    obtain ⟨row, rowMem, named, binding⟩ := sound.known c mem answered
    rw [← binding]
    exact apart row rowMem (named.trans same)
  once := by
    rintro (started | ⟨r, completed⟩)
    · cases started
    · cases completed
  starts := fun started => by cases started
  replays := fun r replayed => by cases replayed
  pending := fun r completed => by cases completed
  completes := fun operation mem => absurd mem List.not_mem_nil

/-- The replay of a completed row. -/
theorem Sound.replay (sound : Sound platform db) {ticket : Ticket} (mem : row ∈ db.operations) (completed : row.completed = true)
    (named : row.id = ticket.operation) (binding : row.binding = ticket.binding)
    (replay : row.replay ticket.claimedAt = some r) :
    Lawful platform db.receipts (ticket.receipt (.replayed r)) where
  bound := by
    intro _ c held answered same
    rw [← sound.binding held answered mem (named.trans same.symm)]
    exact binding
  keyed := by
    intro _ c held answered service key apart
    obtain ⟨other, otherMem, otherNamed, otherBinding⟩ := sound.known c held answered
    have same : other = row := by
      refine sound.keyed other otherMem row mem ?_
      rw [SameKey, sound.environments other otherMem, sound.environments row mem, otherBinding,
        binding]
      exact ⟨service, key, apart⟩
    rw [← otherNamed, same, named]
    rfl
  refused := fun refused => by cases refused
  once := by
    rintro (started | ⟨s, done⟩)
    · cases started
    · cases done
  starts := fun started => by cases started
  replays := by
    intro other same
    obtain rfl : r = other := Answer.replayed.inj same
    obtain ⟨c, held, s, owner, answered, stands⟩ := sound.standing row mem completed
    have own : row.binding = c.binding :=
      sound.binding held (by rw [answered]; simp) mem owner.symm
    refine ⟨c, held, s, owner.trans named, answered, ?_⟩
    refine stands.shows (sound.results row mem) owner ?_ replay
    rw [sound.environments row mem, own]
  pending := fun s done => by cases done
  completes := fun operation listed => absurd listed List.not_mem_nil

end

end SiliconIam.Applications.Honeycomb
