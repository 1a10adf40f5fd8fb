/-
# Applications.ManagementFeedRuns -- what readers and workers see over a run

* `received_iff`: where a reader's next page is empty, it has every event of its
  service but those committed behind its cursor.  Those it never gets: the id of an
  event is older than its commit (`slow_commit_unread`).
* `latest_attempt`: an event is marked delivered by the latest attempt handed out.
* `completed_once`: the commit that completes an operation writes its event.
-/
import SiliconIam.Applications.ManagementFeedSteps

namespace SiliconIam.Applications.ManagementFeed

open SiliconIam.Theory SiliconIam.Theory.Runs
open SiliconIam.Applications.Honeycomb

set_option autoImplicit false

theorem reached_append (run later : List Event) :
    reached (run ++ later) = after next (reached run) later :=
  after_append run later init

theorem reached_concat (run : List Event) (step : Event) :
    reached (run ++ [step]) = next (reached run) step :=
  reached_append run [step]

/-! ## Pages -/

section Page

variable {s : State} {service : Nat} {cursor : Option Nat} {row last : EventRow}

theorem mem_eventsOf : row ∈ eventsOf s service ↔ row ∈ s.events ∧ row.event.service = service := by
  rw [eventsOf, List.mem_filter, decide_eq_true_iff]
  exact Iff.rfl

/-- The events after a cursor, in order. -/
def following (s : State) (service : Nat) (cursor : Option Nat) : List EventRow :=
  (Paging.after EventRow.id (eventsOf s service) cursor).insertionSort fun a b => a.id ≤ b.id

theorem mem_following : row ∈ following s service cursor ↔
    (row ∈ s.events ∧ row.event.service = service) ∧ ∀ c, cursor = some c → c < row.id := by
  rw [following, List.mem_insertionSort, Paging.after, List.mem_filter, mem_eventsOf]
  cases cursor with
  | none => simp
  | some c => simp

theorem following_ascending (s : State) (service : Nat) (cursor : Option Nat) :
    (following s service cursor).Pairwise fun a b => a.id < b.id := by
  apply Paging.sorted_ascending
  apply List.Pairwise.filter
  apply List.Pairwise.filter
  exact List.pairwise_map.mp s.events.distinct

theorem mem_page (mem : row ∈ page s service cursor) :
    (row ∈ s.events ∧ row.event.service = service) ∧ ∀ c, cursor = some c → c < row.id :=
  mem_following.mp (List.mem_of_mem_take mem)

end Page

/-! ## A reader's cursor -/

/-- The cursor has reached the id. -/
def Passed (reading : Reading) (id : Nat) : Prop := ∃ c, reading.cursor = some c ∧ id ≤ c

variable {reader : Reader}

theorem passed_of_empty {s : State} {row : EventRow}
    (finished : nextPage s reader = []) (mem : row ∈ s.events)
    (own : row.event.service = reader.service) : Passed (s.readings reader) row.id := by
  have none_ : following s reader.service (s.readings reader).cursor = [] := by
    rcases List.take_eq_nil_iff.mp finished with zero | empty
    · cases zero
    · exact empty
  by_contra ahead
  have found : row ∈ following s reader.service (s.readings reader).cursor := by
    refine mem_following.mpr ⟨⟨mem, own⟩, fun c at_ => ?_⟩
    by_contra behind
    exact ahead ⟨c, at_, by omega⟩
  rw [none_] at found
  cases found

theorem Passed.receive {s : State} {id : Nat}
    (passed : Passed (s.readings reader) id) :
    Passed ((s.readings reader).receive (nextPage s reader)) id := by
  obtain ⟨c, at_, le⟩ := passed
  cases shown : (nextPage s reader).getLast? with
  | none => exact ⟨c, by simp [Reading.receive, shown, at_], le⟩
  | some last =>
      have beyond := (mem_page (List.mem_of_getLast? shown)).2 c at_
      exact ⟨last.id, by simp [Reading.receive, shown], by omega⟩

/-- A reading gets past what it was past and what it receives. -/
theorem passed_receive {s : State} {row : EventRow} (mem : row ∈ s.events)
    (own : row.event.service = reader.service) :
    Passed ((s.readings reader).receive (nextPage s reader)) row.id ↔
      Passed (s.readings reader) row.id ∨ row ∈ nextPage s reader := by
  have ascending := following_ascending s reader.service (s.readings reader).cursor
  cases shown : (nextPage s reader).getLast? with
  | none =>
      have empty : nextPage s reader = [] := List.getLast?_eq_none_iff.mp shown
      simp [Passed, Reading.receive, empty]
  | some last =>
      have cursor : ((s.readings reader).receive (nextPage s reader)).cursor = some last.id := by
        simp [Reading.receive, shown]
      constructor
      · rintro ⟨c, at_, le⟩
        obtain rfl : last.id = c := by simpa [cursor] using at_
        by_cases passed : Passed (s.readings reader) row.id
        · exact .inl passed
        · right
          refine Paging.mem_take_of_le ascending shown (mem_following.mpr ⟨⟨mem, own⟩, ?_⟩) le
          intro c at_
          by_contra behind
          exact passed ⟨c, at_, by omega⟩
      · rintro (passed | listed)
        · exact passed.receive
        · refine ⟨last.id, cursor, ?_⟩
          exact Paging.le_last (ascending.sublist (List.take_sublist _ _)) shown listed

/-! ## Events behind a cursor -/

/-- The event was committed when the reader's cursor had passed its id. -/
def Behind (reader : Reader) (id : Nat) (run : List Event) : Prop :=
  ∃ before operation rest, run = before ++ .commit operation :: rest ∧
    (∀ row ∈ (reached before).events, row.id ≠ id) ∧
    (∃ row ∈ (reached (before ++ [.commit operation])).events, row.id = id) ∧
    Passed ((reached before).readings reader) id

variable {run : List Event}

theorem behind_concat {id : Nat} {step : Event} :
    Behind reader id (run ++ [step]) ↔ Behind reader id run ∨
      (∃ operation, step = .commit operation) ∧ (∀ row ∈ (reached run).events, row.id ≠ id) ∧
        (∃ row ∈ (next (reached run) step).events, row.id = id) ∧
        Passed ((reached run).readings reader) id := by
  constructor
  · rintro ⟨before, operation, rest, split, absent, present, passed⟩
    rcases List.eq_nil_or_concat rest with rfl | ⟨rest, x, rfl⟩
    · obtain ⟨rfl, last⟩ := List.append_inj' split rfl
      cases last
      rw [reached_concat] at present
      exact .inr ⟨⟨operation, rfl⟩, absent, present, passed⟩
    · left
      rw [List.concat_eq_append, ← List.cons_append, ← List.append_assoc] at split
      exact ⟨before, operation, rest, (List.append_inj' split rfl).1, absent, present, passed⟩
  · rintro (⟨before, operation, rest, rfl, facts⟩ | ⟨⟨operation, rfl⟩, absent, present, passed⟩)
    · exact ⟨before, operation, rest ++ [step], by simp, facts⟩
    · exact ⟨run, operation, [], rfl, absent, by rw [reached_concat]; exact present, passed⟩

/-- What a reader has and has not received. -/
structure Tracks (run : List Event) (reader : Reader) : Prop where
  received : ∀ got ∈ ((reached run).readings reader).received,
    Passed ((reached run).readings reader) got.id ∧
      ∃ row ∈ (reached run).events, row.id = got.id ∧ row.event.service = reader.service
  passed : ∀ row ∈ (reached run).events, row.event.service = reader.service →
    Passed ((reached run).readings reader) row.id →
      Behind reader row.id run ∨ ∃ got ∈ ((reached run).readings reader).received, got.id = row.id
  behind : ∀ id, Behind reader id run →
    (∃ row ∈ (reached run).events, row.id = id) ∧ Passed ((reached run).readings reader) id ∧
      ∀ got ∈ ((reached run).readings reader).received, got.id ≠ id

theorem Tracks.quiet (tracks : Tracks run reader) {step : Event}
    (still : (next (reached run) step).readings reader = (reached run).readings reader) :
    Tracks (run ++ [step]) reader := by
  constructor
  · intro got mem
    rw [reached_concat, still] at mem ⊢
    obtain ⟨passed, row, held, named, own⟩ := tracks.received got mem
    obtain ⟨row', held', same, -⟩ := next_keeps (reached run) step held
    exact ⟨passed, row', held', same.id.trans named, same.service.trans own⟩
  · intro row mem own passed
    rw [reached_concat] at mem
    rw [reached_concat, still] at passed ⊢
    rw [behind_concat]
    rcases next_events (reached run) step with carries | ⟨operation, added, commits, adds⟩
    · obtain ⟨old, held, same⟩ := carries.origin row mem
      rw [same.id] at passed ⊢
      exact (tracks.passed old held (same.service.symm.trans own) passed).imp .inl id
    · rcases (adds.mem row).mp mem with rfl | held
      · exact .inl (.inr ⟨⟨operation, commits⟩, adds.fresh, ⟨row, mem, rfl⟩, passed⟩)
      · exact (tracks.passed row held own passed).imp .inl id
  · intro id behind
    rw [reached_concat, still]
    rcases behind_concat.mp behind with earlier | ⟨-, absent, present, passed⟩
    · obtain ⟨⟨row, held, named⟩, passed, missed⟩ := tracks.behind id earlier
      obtain ⟨row', held', same, -⟩ := next_keeps (reached run) step held
      exact ⟨⟨row', held', same.id.trans named⟩, passed, missed⟩
    · refine ⟨present, passed, fun got mem same => ?_⟩
      obtain ⟨-, row, held, named, -⟩ := tracks.received got mem
      exact absent row held (named.trans same)

theorem Tracks.list (tracks : Tracks run reader)
    (events : (next (reached run) (.list reader)).events = (reached run).events)
    (reads : (next (reached run) (.list reader)).readings reader =
      ((reached run).readings reader).receive (nextPage (reached run) reader)) :
    Tracks (run ++ [.list reader]) reader := by
  have items : ((next (reached run) (.list reader)).readings reader).received =
      ((reached run).readings reader).received ++ nextPage (reached run) reader := by
    rw [reads]
    rfl
  have passes {row : EventRow} (mem : row ∈ (reached run).events)
      (own : row.event.service = reader.service) :
      Passed ((next (reached run) (.list reader)).readings reader) row.id ↔
        Passed ((reached run).readings reader) row.id ∨ row ∈ nextPage (reached run) reader := by
    rw [reads]
    exact passed_receive mem own
  constructor
  · intro got mem
    rw [reached_concat, items, List.mem_append] at mem
    rw [reached_concat, events]
    rcases mem with earlier | listed
    · obtain ⟨passed, row, held, named, own⟩ := tracks.received got earlier
      rw [← named] at passed ⊢
      exact ⟨(passes held own).mpr (.inl passed), row, held, rfl, own⟩
    · obtain ⟨⟨held, own⟩, -⟩ := mem_page listed
      exact ⟨(passes held own).mpr (.inr listed), got, held, rfl, own⟩
  · intro row mem own passed
    rw [reached_concat] at mem passed ⊢
    rw [behind_concat, items]
    rcases (passes mem own).mp passed with earlier | listed
    · rcases tracks.passed row mem own earlier with behind | ⟨got, held, named⟩
      · exact .inl (.inl behind)
      · exact .inr ⟨got, List.mem_append_left _ held, named⟩
    · exact .inr ⟨row, List.mem_append_right _ listed, rfl⟩
  · intro id behind
    rcases behind_concat.mp behind with earlier | ⟨⟨operation, commits⟩, -⟩
    · rw [reached_concat, events, items]
      obtain ⟨present, passed, missed⟩ := tracks.behind id earlier
      refine ⟨present, ?_, fun got mem => ?_⟩
      · rw [reads]
        exact passed.receive
      · obtain ⟨c, at_, le⟩ := passed
        rcases List.mem_append.mp mem with before | listed
        · exact missed got before
        · have beyond := (mem_page listed).2 c at_
          omega
    · cases commits

theorem tracks (run : List Event) (reader : Reader) : Tracks run reader := by
  induction run using List.reverseRecOn with
  | nil =>
      constructor
      · exact fun _ mem => absurd mem List.not_mem_nil
      · exact fun _ mem => absurd mem Table.not_mem_empty
      · rintro id ⟨before, operation, rest, split, -⟩
        simp at split
  | append_singleton run step ih =>
      rcases next_readings (reached run) step reader with ⟨rfl, events, reads⟩ | still
      · exact ih.list events reads
      · exact ih.quiet still

/-- Where the next page is empty, every event has been received but those that were
committed behind the cursor. -/
theorem received_iff
    (finished : nextPage (reached run) reader = []) {row : EventRow}
    (mem : row ∈ (reached run).events) (own : row.event.service = reader.service) :
    (∃ got ∈ ((reached run).readings reader).received, got.id = row.id) ↔
      ¬ Behind reader row.id run := by
  constructor
  · rintro ⟨got, held, named⟩ behind
    exact ((tracks run reader).behind row.id behind).2.2 got held named
  · intro seen
    exact ((tracks run reader).passed row mem own
      (passed_of_empty finished mem own)).resolve_left seen

/-! ## Attempts -/

theorem attempts_after (s : State) (run : List Event) (event : Nat) :
    attempts s event ≤ attempts (after next s run) event := by
  have keeps : ∀ (t : State) (step : Event), attempts s event ≤ attempts t event →
      attempts s event ≤ attempts (next t step) event :=
    fun t step le => Nat.le_trans le (attempts_le t step event)
  exact after_of_invariant keeps run s (Nat.le_refl _)

theorem Spent.after {attempt : Attempt} {s : State} (spent : Spent attempt s) (run : List Event) :
    Spent attempt (Runs.after next s run) := by
  have keeps : ∀ (t : State) (step : Event), Spent attempt t → Spent attempt (next t step) :=
    fun _ step spent => spent.step step
  exact after_of_invariant keeps run s spent

/-- An attempt in flight was handed out by a claim. -/
theorem handed_out {attempt : Attempt}
    (given : attempt ∈ (reached run).inFlight) :
    ∃ earlier claimed mid, run = earlier ++ claimed :: mid ∧
      Hands (reached earlier) claimed attempt := by
  induction run using List.reverseRecOn with
  | nil => cases given
  | append_singleton run step ih =>
      rw [reached_concat] at given
      rcases mem_inFlight given with hands | before
      · exact ⟨run, step, [], rfl, hands⟩
      · obtain ⟨earlier, claimed, mid, rfl, hands⟩ := ih before
        exact ⟨earlier, claimed, mid ++ [step], by simp, hands⟩

/-- The latest attempt at the event is not in flight.  An earlier one may be, for ever when its
worker died. -/
def Idle (s : State) (event : Nat) : Prop := ⟨event, attempts s event⟩ ∉ s.inFlight

/-- A step that marks an event delivered finishes the latest attempt at it, which was handed
out after every moment at which the latest one then was not in flight. -/
theorem latest_attempt {before : List Event} {step : Event} {event : Nat}
    (undelivered : delivered (reached before) event = false)
    (done : delivered (next (reached before) step) event = true) :
    ∃ number now earlier claimed mid, step = .finish ⟨event, number⟩ true now ∧
      before = earlier ++ claimed :: mid ∧ Hands (reached earlier) claimed ⟨event, number⟩ ∧
      (∀ first other rest, mid = first ++ other :: rest → ∀ another,
        ¬ Hands (reached (earlier ++ claimed :: first)) other ⟨event, another⟩) ∧
      ∀ first rest, before = first ++ rest → Idle (reached first) event →
        ∃ skipped, rest = skipped ++ claimed :: mid := by
  obtain ⟨now, finishes, given⟩ := marked_by_finish undelivered done
  obtain ⟨earlier, claimed, mid, split, hands⟩ := handed_out given
  have counted : attempts (reached (earlier ++ [claimed])) event = attempts (reached before) event := by
    rw [reached_concat]
    exact (hands_count hands).2
  have grown (taken : List Event) :
      attempts (reached before) event ≤ attempts (reached (earlier ++ claimed :: taken)) event := by
    have whole : earlier ++ claimed :: taken = (earlier ++ [claimed]) ++ taken := by simp
    rw [← counted, whole, reached_append _ taken]
    exact attempts_after _ taken event
  refine ⟨_, now, earlier, claimed, mid, finishes, split, hands, ?_, ?_⟩
  · -- a later claim would have counted on
    intro first other rest between another later
    have count := hands_count later
    have more := grown first
    have ends := attempts_after (next (reached (earlier ++ claimed :: first)) other) rest event
    have whole : before = (earlier ++ claimed :: first) ++ other :: rest := by
      rw [split, between]
      simp
    have last : reached before =
        after next (next (reached (earlier ++ claimed :: first)) other) rest := by
      rw [whole, reached_append]
      rfl
    rw [last] at more
    omega
  · intro first rest cut idle
    rcases List.append_eq_append_iff.mp (split.symm.trans cut) with ⟨taken, rfl, same⟩ | ⟨skipped, -, same⟩
    · cases taken with
      | nil => exact ⟨[], same.symm⟩
      | cons x taken =>
          -- the claim comes before an idle moment: its attempt is the latest and spent by then
          obtain ⟨rfl, -⟩ := List.cons.inj same
          have latest : attempts (reached (earlier ++ claimed :: taken)) event =
              attempts (reached before) event := by
            have later := attempts_after (reached (earlier ++ claimed :: taken)) rest event
            rw [← reached_append, ← cut] at later
            exact Nat.le_antisymm later (grown taken)
          have spent : Spent ⟨event, attempts (reached before) event⟩
              (reached (earlier ++ claimed :: taken)) := ⟨grown taken, latest ▸ idle⟩
          have gone := spent.after rest
          rw [← reached_append, ← cut] at gone
          exact absurd given gone.2
    · exact ⟨skipped, same⟩

/-! ## Completed operations -/

/-- The step from `s` to `t` completes an operation and writes its event. -/
structure Completes (s t : State) (operation : Nat) (written : EventRow) : Prop where
  unfinished : ∃ row ∈ s.operations, row.id = operation ∧ row.completed = false
  silent : ∀ old ∈ s.events, old.event.operation ≠ operation
  mem : written ∈ t.events
  named : written.event.operation = operation
  finished : ∃ row ∈ t.operations, row.id = operation ∧ row.completed = true ∧
    written.event.payload = row.result ∧ row.iamRevision = some written.event.revision

/-- What a completed operation of a state goes back to. -/
structure Origin (run : List Event) (row : StoredOperation) (before rest : List Event)
    (written kept : EventRow) : Prop where
  split : run = before ++ .commit row.id :: rest
  completes : Completes (reached before) (reached (before ++ [.commit row.id])) row.id written
  mem : kept ∈ (reached run).events
  same : Same kept written
  service : kept.event.service = row.binding.service
  environment : kept.event.environment = row.environment
  result : (∀ step ∈ rest, rewrites row step = false) →
    kept.event.payload = row.result ∧ row.iamRevision = some kept.event.revision

theorem rewrites_congr {row old : StoredOperation} {step : Event} (id : row.id = old.id)
    (binding : row.binding = old.binding) (environment : row.environment = old.environment) :
    rewrites row step = rewrites old step := by
  cases step <;> simp only [rewrites, id, binding, environment]

/-- A completed operation that a step carries over. -/
theorem Origin.step {before rest : List Event} {row old : StoredOperation}
    {written kept : EventRow} (origin : Origin run old before rest written kept) {step : Event}
    (continues : Continues step row old) (done : old.completed = true) :
    ∃ kept', Origin (run ++ [step]) row before (rest ++ [step]) written kept' := by
  obtain ⟨kept', mem, same, payload⟩ := next_keeps (reached run) step origin.mem
  have environment : kept'.event.environment = row.environment := by
    rw [same.environment, origin.environment, continues.environment done]
  have service : kept'.event.service = row.binding.service := by
    rw [same.service, origin.service, continues.binding]
  refine ⟨kept', ⟨?_, ?_, ?_, same.trans origin.same, service, environment, ?_⟩⟩
  · rw [origin.split, continues.id]
    simp
  · rw [continues.id]
    exact origin.completes
  · rw [reached_concat]
    exact mem
  · intro untouched
    have here : rewrites row step = false := untouched step (by simp)
    obtain ⟨result, revision⟩ := continues.result done here
    have spared : purges kept step = false := by
      cases step with
      | purge service environment now =>
          rw [purges, origin.environment, origin.service, ← continues.environment done,
            ← continues.binding]
          exact here
      | _ => rfl
    have earlier : ∀ x ∈ rest, rewrites old x = false := by
      intro x mem
      rw [← rewrites_congr continues.id continues.binding (continues.environment done)]
      exact untouched x (List.mem_append_left _ mem)
    rw [payload spared, result, revision]
    exact origin.result earlier

/-- The commit that completes an operation is its origin. -/
theorem Origin.commit {operation : Nat} {c : Completion} {row : StoredOperation}
    (named : c.operation = operation)
    (commits : Commits (reached run) (next (reached run) (.commit operation)) c row) :
    Origin (run ++ [.commit operation])
      (complete row.enter c.completedAt c.response c.secret c.revision) run [] (c.row row)
      (c.row row) := by
  have here : row.id = operation := commits.named.trans named
  have written : c.row row ∈ (reached (run ++ [.commit operation])).events := by
    rw [reached_concat]
    exact (commits.events.mem _).mpr (.inl rfl)
  have done : complete row.enter c.completedAt c.response c.secret c.revision ∈
      (reached (run ++ [.commit operation])).operations := by
    rw [reached_concat]
    exact (commits.operations _).mpr (.inl rfl)
  subst here
  exact
    { split := rfl
      completes :=
        { unfinished := ⟨row, commits.mem, rfl, commits.unfinished⟩
          silent := (reached_inv run).silent row commits.mem commits.unfinished
          mem := written
          named := rfl
          finished := ⟨_, done, rfl, rfl, rfl, rfl⟩ }
      mem := written
      same := .refl _
      service := rfl
      environment := rfl
      result := fun _ => ⟨rfl, rfl⟩ }

theorem completed_origin (run : List Event) :
    ∀ row ∈ (reached run).operations, row.completed = true →
      ∃ before rest written kept, Origin run row before rest written kept := by
  induction run using List.reverseRecOn with
  | nil => exact fun _ mem => absurd mem Table.not_mem_empty
  | append_singleton run step ih =>
      intro row mem done
      rw [reached_concat] at mem
      have carried {old : StoredOperation} (held : old ∈ (reached run).operations)
          (continues : Continues step row old) (was : old.completed = true) :
          ∃ before rest written kept, Origin (run ++ [step]) row before rest written kept := by
        obtain ⟨before, rest, written, kept, origin⟩ := ih old held was
        obtain ⟨kept', origin'⟩ := origin.step continues was
        exact ⟨before, rest ++ [step], written, kept', origin'⟩
      rcases next_operations (reached_inv run) step with evolved | ⟨ticket, -, -, listed⟩
      · obtain ⟨old, held, continues⟩ := evolved.origin row mem
        rcases continues.completed with same | ⟨rfl, -⟩
        · exact carried held continues (same.symm.trans done)
        · rcases (reached_inv run).commits old.id with still | ⟨c, claimed, named, commits⟩
          · have stays : row ∈ (reached run).operations := by
              rw [next, still] at mem
              exact mem
            have : row = old := Table.unique stays held continues.id
            subst this
            exact carried held (.refl _ row) done
          · rcases (commits.operations row).mp mem with rfl | ⟨-, apart⟩
            · exact ⟨run, [], _, _, .commit named commits⟩
            · exact absurd (continues.id.trans named.symm) apart
      · rcases (listed row).mp mem with rfl | held
        · cases done
        · exact carried held (.refl _ row) done

/-! ## The feed -/

/-- **The feed.** In every run: where a reader's next page is empty it has every event of its
service but those committed behind its cursor; what marks an event delivered is the latest
attempt that a claim handed out, handed out after every moment at which the latest one then was
not in flight; and every completed operation goes back to one commit, which wrote its one event with the result
and the revision that it stored. -/
theorem feed_delivers (run : List Event) :
    (∀ reader, nextPage (reached run) reader = [] →
      ∀ row ∈ (reached run).events, row.event.service = reader.service →
        ((∃ got ∈ ((reached run).readings reader).received, got.id = row.id) ↔
          ¬ Behind reader row.id run)) ∧
      (∀ before step rest event, run = before ++ step :: rest →
        delivered (reached before) event = false →
        delivered (reached (before ++ [step])) event = true →
          ∃ number now earlier claimed mid, step = .finish ⟨event, number⟩ true now ∧
            before = earlier ++ claimed :: mid ∧ Hands (reached earlier) claimed ⟨event, number⟩ ∧
            (∀ first other rest, mid = first ++ other :: rest → ∀ another,
              ¬ Hands (reached (earlier ++ claimed :: first)) other ⟨event, another⟩) ∧
            ∀ first rest, before = first ++ rest → Idle (reached first) event →
              ∃ skipped, rest = skipped ++ claimed :: mid) ∧
      ∀ row ∈ (reached run).operations, row.completed = true →
        ∃ before rest written kept, Origin run row before rest written kept ∧
          ∀ other ∈ (reached run).events, other.event.operation = row.id → other = kept := by
  refine ⟨fun reader finished row mem own => received_iff finished mem own, ?_, ?_⟩
  · intro before step rest event _ undelivered done
    rw [reached_concat] at done
    exact latest_attempt undelivered done
  · intro row mem done
    obtain ⟨before, rest, written, kept, origin⟩ := completed_origin run row mem done
    refine ⟨before, rest, written, kept, origin, fun other held named => ?_⟩
    apply (reached_inv run).single other held kept origin.mem
    rw [named, origin.same.operation, origin.completes.named]

/-! ## An event that is never received -/

section Example

def ticketOf (operation : Nat) : Ticket where
  operation := operation
  binding :=
    { service := 1
      actor := 7
      kind := .rotateSecret
      resource := .application 1
      requestDigest := operation
      idempotencyDigest := operation }
  claimedAt := 0
  completedAt := 0

def completionOf (operation : Nat) : Completion where
  operation := operation
  eventId := operation
  startedAt := 0
  completedAt := 0
  response := plainFields [("state", .text "accepted")]
  secret := false
  revision := operation

def onlyReader : Reader := ⟨1, 0⟩

/-- Operation 1 draws its event's id first and commits last. -/
def slowCommit : List Event :=
  [.start (ticketOf 1), .start (ticketOf 2), .draw (completionOf 1), .draw (completionOf 2),
    .commit 2, .list onlyReader, .list onlyReader, .commit 1]

/-- The reader has read up to an empty page, event 1 is committed, and the next page, which is
empty too, does not show it. -/
theorem slow_commit_unread :
    ∃ row ∈ (reached slowCommit).events, row.event.service = onlyReader.service ∧
      nextPage (reached slowCommit) onlyReader = [] ∧
      ∀ got ∈ ((reached (slowCommit ++ [.list onlyReader])).readings onlyReader).received,
        got.id ≠ row.id := by
  have committed : ((reached slowCommit).events.get? 1).any
      (fun row => row.event.service = onlyReader.service) = true := by decide +kernel
  obtain ⟨row, found, own⟩ := (Option.any_eq_true _ _).mp committed
  obtain ⟨mem, named⟩ := Table.get?_eq_some.mp found
  refine ⟨row, mem, of_decide_eq_true own, by decide +kernel, ?_⟩
  rw [named]
  decide +kernel

end Example

end SiliconIam.Applications.ManagementFeed
