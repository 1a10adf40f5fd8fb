/-
# Applications.ManagementOnce -- management operations take effect at most once

`Once` is what holds in every world that a run reaches: of every pair of committed
requests (`Settled`), of what a commit changes (`Commits`), of the stored results and of
the events.

Two things are by design.  An activation completes the pending configurations that it
names, and their retries then show its result.  And an operation of a test
environment commits when it starts and again when it finishes; its key is compared
with the keys of its environment, since row security hides it from other actors.
-/
import SiliconIam.Applications.ManagementRuns

namespace SiliconIam.Applications.Honeycomb

open SiliconIam.Theory SiliconIam.Theory.Transactions

set_option autoImplicit false

/-! ## One commit -/

/-- What a commit changes: another writer's keeps the operations, a request's leaves one
receipt. -/
inductive Commits (platform : Platform) (db after : Db) : Prop
  | foreign (same : after = { db with applications := after.applications })
  | request (d : Receipt) (receipts : after.receipts = db.receipts ++ [d])
      (unchanged : ¬ d.Changed → after = { db with receipts := after.receipts })
      (configured : ∀ a ∈ after.applications,
        d.application = some (a.id, a.configurationRevision) ∨
          ∃ old ∈ db.applications, a = { old with version := a.version })
      (pending : ∀ digest, d.Asked platform digest → after.applications = db.applications)

section

variable {platform : Platform} {db : Db} {t : Transaction}

theorem view_applications {ws : List Write} (none : ∀ a, .application a ∉ ws) :
    ((engine platform).view db ws).applications = db.applications := by
  refine Engine.view_induction (P := fun v : Db => v.applications = db.applications) rfl ?_
  intro v write mem same
  cases write with
  | application a => exact absurd mem (none a)
  | _ => exact same

/-- A receipt that only answers. -/
theorem Commits.answer {ticket : Ticket} {answer : Answer} (quiet : ¬ (ticket.receipt answer).Changed) :
    Commits platform db ((engine platform).view db [.receipt (ticket.receipt answer)]) := by
  refine .request (ticket.receipt answer) rfl (fun _ => rfl) (fun a mem => .inr ⟨a, mem, rfl⟩) ?_
  rintro digest ⟨-, -, ⟨r, completed, -⟩, -⟩
  exact absurd (.inr ⟨r, completed⟩) quiet

theorem Commits.work {ticket : Ticket} {held : List Lock} {row : StoredOperation}
    {base : List Write} {view : Db} {work : Work} (owned : Owned db ticket held row base)
    (proper : Proper platform db ticket row work) :
    Commits platform db ((engine platform).view db (base ++ work.writes ticket row view)) := by
  refine .request (work.receipt ticket row) ?_ (fun unchanged => ?_) (fun a mem => ?_) ?_
  · rw [view_receipts, receiptsOf, List.filterMap_append]
    have none := owned.base_receipts
    have some : receiptsOf (work.writes ticket row view) = [work.receipt ticket row] :=
      Work.receipts_writes
    rw [receiptsOf] at none some
    rw [none, some, List.nil_append]
  · refine absurd ?_ unchanged
    cases completed : work.completed with
    | false => exact .inl (by simp [Work.receipt, completed])
    | true => exact .inr ⟨work.response, by simp [Work.receipt, completed]⟩
  · rcases of_mem_applications _ mem with written | old
    · rcases List.mem_append.mp written with first | later
      · exact absurd first owned.base_application
      · have written := Work.mem_writes_application.mp later
        cases configured : work.configured with
        | true => exact .inl (by simp [Work.receipt, configured, written])
        | false => exact .inr (proper.unconfigured configured a written)
    · exact .inr ⟨a, old, rfl⟩
  · rintro digest ⟨kind, -, ⟨r, answered, state⟩, -⟩
    have shown : work.response = r := by
      simp only [Work.receipt] at answered
      split at answered
      · exact Answer.completed.inj answered
      · cases answered
    rw [← shown] at state
    have kind : ticket.binding.kind = .configure := by rw [← owned.binding]; exact kind
    obtain ⟨unwritten, -⟩ := proper.pending kind state
    refine view_applications fun a listed => ?_
    rcases List.mem_append.mp listed with first | later
    · exact owned.base_application first
    · have written := Work.mem_writes_application.mp later
      rw [unwritten] at written
      cases written

theorem At.commits (at_ : At platform db t) (done : t.rest = []) :
    Commits platform db ((engine platform).view db t.pending) := by
  cases at_ with
  | writing row writing =>
      cases writing with
      | before rest =>
          rw [rest] at done
          exact absurd done (List.cons_ne_nil _ _)
      | after a pending =>
          rw [pending]
          exact .foreign rfl
  | claimed permitted ticket target statements work claims suffix ending reads facts =>
      cases facts with
      | refused claim pending =>
          rw [pending]
          exact .answer (by rintro (started | ⟨r, completed⟩) <;> simp_all [Ticket.receipt])
      | replayed row response claim pending =>
          rw [pending]
          exact .answer (by rintro (started | ⟨r, completed⟩) <;> simp_all [Ticket.receipt])
      | worked row base view work claim owned proper entered locked pending =>
          rw [pending]
          exact .work owned proper
      | _ => simp_all

end

/-! ## Two committed requests -/

/-- A request that names an operation or its key without being a retry.  Keys are compared
within an actor and within an environment. -/
def Reuses (c d : Receipt) : Prop :=
  (c.operation = d.operation ∨
    c.binding.service = d.binding.service ∧
      c.binding.idempotencyDigest = d.binding.idempotencyDigest ∧
      (c.binding.actor = d.binding.actor ∨
        c.binding.resource.environment = d.binding.resource.environment)) ∧
  (c.operation ≠ d.operation ∨ c.binding ≠ d.binding)

/-- A request and those that committed before it. -/
structure Settled (platform : Platform) (before : List Receipt) (d : Receipt) : Prop where
  once : d.Changed → ∀ c ∈ before, c.operation = d.operation → c.Changed →
    c.answer = .started ∧ c.binding.resource.environment ≠ none
  bound : d.answer ≠ .conflict → ∀ c ∈ before, c.answer ≠ .conflict →
    c.operation = d.operation → c.binding = d.binding
  retried : ∀ c ∈ before, ∀ s, c.answer = .completed s → c.operation = d.operation →
    c.binding = d.binding → ∃ r, d.answer = .replayed r ∧ Shows before c d s r
  reused : ∀ c ∈ before, c.answer ≠ .conflict → Reuses c d → d.answer = .conflict
  secret : ∀ r, d.answer = .replayed r → ¬ r.Public → ∃ c ∈ before,
    c.operation = d.operation ∧ c.answer = .completed r ∧ d.time < c.time + 600
  pending : ∀ r, d.answer = .completed r → d.binding.kind = .configure → r.status = "pending" →
    ∃ digest, d.Asked platform digest
  activated : ∀ operation ∈ d.completes, d.binding.kind = .publicationActivation ∧
    ∃ desired, d.requested = some desired ∧
      d.application = some (desired.application, desired.configurationRevision) ∧
      ∃ c ∈ before, c.operation = operation ∧ c.Asked platform (platform.sha256 desired)

/-- An operation is completed by one receipt. -/
theorem completion_unique {platform : Platform} {receipts : List Receipt}
    (lawful : ∀ first c later, receipts = first ++ c :: later → Lawful platform first c)
    {c d : Receipt} {r s : Response} (cMem : c ∈ receipts) (dMem : d ∈ receipts)
    (same : c.operation = d.operation) (cDone : c.answer = .completed r)
    (dDone : d.answer = .completed s) : c = d := by
  have apart : ∀ {first : List Receipt} {a b : Receipt} {t u : Response}, Lawful platform first b →
      a ∈ first → a.operation = b.operation → a.answer = .completed t → b.answer ≠ .completed u := by
    intro first a b t u lawful mem same done again
    have started := lawful.once (.inr ⟨u, again⟩) a mem same (.inr ⟨t, done⟩)
    rw [done] at started
    cases started
  obtain ⟨first, later, split⟩ := List.append_of_mem cMem
  rw [split] at dMem
  rcases List.mem_append.mp dMem with earlier | tail
  · exact absurd cDone (apart (lawful first c later split) earlier same.symm dDone)
  · rcases List.mem_cons.mp tail with rfl | after
    · rfl
    · obtain ⟨middle, rest, again⟩ := List.append_of_mem after
      rw [again, ← List.cons_append, ← List.append_assoc] at split
      have held : c ∈ first ++ c :: middle := List.mem_append_right _ List.mem_cons_self
      exact absurd dDone (apart (lawful _ d rest split) held same cDone)

theorem Lawful.settled {platform : Platform} {before : List Receipt} {d : Receipt}
    (earlier : ∀ first c later, before = first ++ c :: later → Lawful platform first c)
    (lawful : Lawful platform before d) : Settled platform before d where
  once := by
    intro changed c mem same again
    have started := lawful.once changed c mem same again
    obtain ⟨first, later, split⟩ := List.append_of_mem mem
    exact ⟨started, (earlier first c later split).starts started⟩
  bound := lawful.bound
  retried := by
    intro c mem s completed same binding
    have answered : c.answer ≠ .conflict := by
      rw [completed]
      simp
    cases answer : d.answer with
    | conflict => exact absurd binding (lawful.refused answer c mem answered same)
    | started =>
        have started := lawful.once (.inl answer) c mem same (.inr ⟨s, completed⟩)
        rw [completed] at started
        cases started
    | completed r =>
        have started := lawful.once (.inr ⟨r, answer⟩) c mem same (.inr ⟨s, completed⟩)
        rw [completed] at started
        cases started
    | replayed r =>
        obtain ⟨other, otherMem, t, owner, done, shows⟩ := lawful.replays r answer
        obtain rfl := completion_unique earlier otherMem mem (owner.trans same.symm) done completed
        obtain rfl : s = t := Answer.completed.inj (completed.symm.trans done)
        exact ⟨r, rfl, shows⟩
  reused := by
    rintro c mem answered ⟨reached, apart⟩
    by_contra claimed
    have same : c.operation = d.operation := by
      rcases reached with same | ⟨service, digest, compared⟩
      · exact same
      · exact lawful.keyed claimed c mem answered service digest compared
    rcases apart with differs | differs
    · exact differs same
    · exact differs (lawful.bound claimed c mem answered same)
  secret := by
    intro r replayed hidden
    obtain ⟨c, mem, s, same, completed, shows⟩ := lawful.replays r replayed
    cases shows with
    | same shown secrets =>
        rcases secrets with isPublic | ⟨rfl, live⟩
        · exact absurd isPublic hidden
        · exact ⟨c, mem, same, completed, live⟩
    | adopted _ _ _ _ _ _ _ secrets => exact absurd secrets hidden
    | purged _ _ _ _ _ secrets => exact absurd secrets hidden
  pending := by
    intro r completed kind state
    obtain ⟨digest, asked, -⟩ := lawful.pending r completed kind state
    exact ⟨digest, asked⟩
  activated := lawful.completes

/-! ## Every run -/

structure Once (platform : Platform) (w : World) : Prop where
  settled : ∀ before d after, w.committed.receipts = before ++ d :: after →
    Settled platform before d
  operations : ∀ c ∈ w.committed.receipts, c.answer ≠ .conflict →
    ∃ row ∈ w.committed.operations, row.id = c.operation ∧ row.binding = c.binding
  results : ∀ row ∈ w.committed.operations, row.result.Public
  events : ∀ event ∈ w.committed.events, event.payload.Public
  commits : ∀ event after, (engine platform).Steps w event after →
    after.committed = w.committed ∨ Commits platform w.committed after.committed

theorem Reached.once {platform : Platform} {w : World} (reached : Reached platform w) :
    Once platform w where
  settled := by
    intro before d after split
    refine Lawful.settled (fun first c later same => ?_) (reached.committed.lawful before d after split)
    refine reached.committed.lawful first c (later ++ d :: after) ?_
    rw [split, same, List.append_assoc, List.cons_append]
  operations := reached.committed.known
  results := reached.committed.results
  events := reached.committed.events
  commits := by
    intro event after taken
    rcases committed_cases taken with same | ⟨t, mem, done, same⟩
    · exact .inl same
    · exact .inr (same ▸ (reached.opened t mem).commits done)

/-- From a database without operations, through any interleaving of requests. -/
theorem management_operations_once (platform : Platform) {start : Db} (initial : Initial start)
    {w later : World} {events more : List (Event Request)}
    (run : Runs.Run (engine platform).Steps (World.idle start) events w)
    (rest : Runs.Run (engine platform).Steps w more later) :
    Once platform w ∧ Advances w.committed later.committed := by
  have reached : Reached platform w :=
    (outline platform).sound run (Outline.sound_idle (initial.sound platform))
  exact ⟨reached.once, reached.run_advances rest⟩

/-! ## A history -/

def revisionDigest : Platform := ⟨Desired.configurationRevision, true⟩

/-- The statements of one request with nothing in between. -/
def alone (xid : Nat) (request : Request) : List (Event Request) :=
  .start request :: ((program revisionDigest request).map fun _ => .execute xid) ++ [.commit xid]

def callOf (actor key : Nat) : Call := ⟨7, actor, key, key, 0, 0, true⟩

def desiredAt (revision : Nat) (visibilityPublic : Bool) : Desired :=
  ⟨1, 1, revision, visibilityPublic, false, none,
    ⟨none, none, none, "https://app.example/hooks", [], ["self.profile.read"], [], none, 0⟩⟩

def configureAs (operation expectedIamRevision revision : Nat) (visibilityPublic : Bool) : Request :=
  .configure (callOf 1 operation)
    { desiredAt revision visibilityPublic with
      operation, expectedIamRevision, publicationApproved := false }
    ⟨false, true, true⟩ 42

/-- The two transactions of an operation on the test environment 60. -/
def testing (xid operation : Nat) (kind : String) (snapshot : List (String × Value))
    (result : TestingResult) : List (Event Request) :=
  alone xid (.startTesting (callOf 1 operation) operation 60 none kind (some snapshot)) ++
    alone (xid + 1) (.finishTesting (callOf 1 operation) operation 60 none kind (some result))

/-- The snapshot of an environment at its first generation, with its first key. -/
def firstGeneration : List (String × Value) :=
  [("generation", .number 1), ("key_version", .number 1)]

/-- A private application is created and asked to be public; its publication is planned,
approved by a reviewer and activated; the configuration is retried.  A test environment is
prepared, and another actor uses its key; the environment is disabled and purged, and its
preparation is retried. -/
def publication : List (Event Request) :=
  alone 0 (configureAs 1 0 1 false) ++ alone 1 (configureAs 2 7 2 true) ++
    alone 2 (.plan (callOf 1 3) ⟨3, 50, desiredAt 2 true, true⟩) ++
    alone 3 (.decide (callOf 2 4) ⟨4, 3, 50, 1, 2, "honeycomb", [], "approve", true⟩) ++
    alone 4 (.activate (callOf 1 5) ⟨5, 3, 50, 7, desiredAt 2 true, [2], true, true⟩
      ⟨false, true, true⟩) ++
    alone 5 (configureAs 2 7 2 true) ++
    testing 6 6 "prepare" firstGeneration ⟨[("environment_id", .number 60)], none, some 43, 1, none⟩ ++
    alone 8 (.configureBundle (callOf 2 6) 7 1 (some 1) "bundle") ++
    testing 9 8 "disable" firstGeneration ⟨[("environment_id", .number 60)], none, none, 2, none⟩ ++
    testing 11 9 "purge" firstGeneration ⟨[("environment_id", .number 60)], none, none, 3, some 60⟩ ++
    alone 13 (.startTesting (callOf 1 6) 6 60 none "prepare" (some firstGeneration))

def noOperations : Db := ⟨.empty _, .empty _, .empty _, [], []⟩

theorem noOperations_initial : Initial noOperations :=
  ⟨fun _ => Table.not_mem_empty, rfl, rfl⟩

def Answer.completion : Answer → Option Response
  | .completed response => some response
  | _ => none

def Answer.replay : Answer → Option Response
  | .replayed response => some response
  | _ => none

theorem Answer.of_completion {answer : Answer} {r : Response} (shown : answer.completion = some r) :
    answer = .completed r := by
  cases answer with
  | completed s => rw [Option.some.inj shown]
  | _ => cases shown

theorem Answer.of_replay {answer : Answer} {r : Response} (shown : answer.replay = some r) :
    answer = .replayed r := by
  cases answer with
  | replayed s => rw [Option.some.inj shown]
  | _ => cases shown

/-- What the receipts of the history show, each pair by its two places. -/
def Db.showsPublication (db : Db) : Bool :=
  let pair (i j : Nat) (holds : Receipt → Receipt → Bool) : Bool :=
    db.receipts[i]?.any fun c => db.receipts[j]?.any (holds c)
  let another (c d : Receipt) : Bool :=
    decide (c.operation = d.operation ∧ c.binding = d.binding) &&
      c.answer.completion.any fun s => d.answer.replay.any fun r => decide (r.settle ≠ s.settle)
  decide (db.receipts.length = 14) && pair 1 5 another &&
    (pair 6 7 fun c d =>
      decide (c.operation = d.operation ∧ c.answer = .started) && d.answer.completion.isSome) &&
    pair 7 13 another &&
    pair 7 8 fun c d => decide (c.operation ≠ d.operation ∧
      c.binding.service = d.binding.service ∧
      c.binding.idempotencyDigest = d.binding.idempotencyDigest) &&
        c.answer.completion.isSome && d.answer.completion.isSome

theorem publication_played : ∃ w, (engine revisionDigest).play (World.idle noOperations)
    publication = some w ∧ w.committed.showsPublication = true := by
  have played : ((engine revisionDigest).play (World.idle noOperations) publication).any
      (fun w => w.committed.showsPublication) = true := by
    decide +kernel
  exact (Option.any_eq_true _ _).mp played

theorem publication_once : ∃ w, Runs.Run (engine revisionDigest).Steps (World.idle noOperations)
    publication w ∧ w.committed.receipts.length = 14 ∧ Once revisionDigest w := by
  obtain ⟨w, played, shown⟩ := publication_played
  simp only [Db.showsPublication, Bool.and_eq_true, decide_eq_true_eq] at shown
  exact ⟨w, play_run played, shown.1.1.1.1,
    (management_operations_once revisionDigest noOperations_initial (play_run played) (.nil w)).1⟩

/-- Retries after the activation and after the purge show another result, an operation of a
test environment changes something twice, and its key serves another actor. -/
theorem publication_again : Initial noOperations ∧ ∃ w,
    Runs.Run (engine revisionDigest).Steps (World.idle noOperations) publication w ∧
      (∃ c d s r, w.committed.receipts[1]? = some c ∧ w.committed.receipts[5]? = some d ∧
        c.operation = d.operation ∧ c.binding = d.binding ∧ c.answer = .completed s ∧
        d.answer = .replayed r ∧ r.settle ≠ s.settle) ∧
      (∃ c d r, w.committed.receipts[6]? = some c ∧ w.committed.receipts[7]? = some d ∧
        c.operation = d.operation ∧ c.answer = .started ∧ d.answer = .completed r) ∧
      (∃ c d s r, w.committed.receipts[7]? = some c ∧ w.committed.receipts[13]? = some d ∧
        c.operation = d.operation ∧ c.binding = d.binding ∧ c.answer = .completed s ∧
        d.answer = .replayed r ∧ r.settle ≠ s.settle) ∧
      ∃ c d s r, w.committed.receipts[7]? = some c ∧ w.committed.receipts[8]? = some d ∧
        c.operation ≠ d.operation ∧ c.binding.service = d.binding.service ∧
        c.binding.idempotencyDigest = d.binding.idempotencyDigest ∧ c.answer = .completed s ∧
        d.answer = .completed r := by
  obtain ⟨w, played, shown⟩ := publication_played
  simp only [Db.showsPublication, Bool.and_eq_true, Option.any_eq_true, decide_eq_true_eq,
    Option.isSome_iff_exists] at shown
  obtain ⟨⟨⟨⟨-, c, asked, d, retried, ⟨same, bound⟩, s, pending, r, activated, differs⟩,
    ⟨e, begun, f, done, ⟨testing, started⟩, t, finished⟩⟩,
    ⟨g, prepared, h, repeated, ⟨own, kept⟩, u, created, v, purged, blank⟩⟩,
    ⟨i, first, j, second, ⟨⟨other, service, key⟩, x, held⟩, y, reused⟩⟩ := shown
  refine ⟨noOperations_initial, w, play_run played, ?_, ?_, ?_, ?_⟩
  · exact ⟨c, d, s, r, asked, retried, same, bound, Answer.of_completion pending,
      Answer.of_replay activated, differs⟩
  · exact ⟨e, f, t, begun, done, testing, started, Answer.of_completion finished⟩
  · exact ⟨g, h, u, v, prepared, repeated, own, kept, Answer.of_completion created,
      Answer.of_replay purged, blank⟩
  · exact ⟨i, j, x, y, first, second, other, service, key, Answer.of_completion held,
      Answer.of_completion reused⟩

end SiliconIam.Applications.Honeycomb
