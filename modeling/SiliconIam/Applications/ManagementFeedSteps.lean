/-
# Applications.ManagementFeedSteps -- what one step does to events and operations

`next_events` says it of the events: every step carries them over with their ids,
services, operations and revisions, and only a commit adds one.  `next_operations`
says it of the operations, and `next_readings` of the readers.

`Inv` is what keeps `ON CONFLICT DO NOTHING` from ever having a conflict: an
operation that is not completed has no event, and a transaction that has drawn
an event id is the only one of its operation.
-/
import SiliconIam.Applications.ManagementFeed
import Mathlib.Data.List.Pairwise

namespace SiliconIam.Applications.ManagementFeed

open SiliconIam.Theory SiliconIam.Theory.Runs
open SiliconIam.Applications.Honeycomb

set_option autoImplicit false

/-! ## Events -/

/-- The columns that no statement changes. -/
structure Same (row old : EventRow) : Prop where
  id : row.id = old.id
  service : row.event.service = old.event.service
  operation : row.event.operation = old.event.operation
  revision : row.event.revision = old.event.revision
  environment : row.event.environment = old.event.environment

theorem Same.refl (row : EventRow) : Same row row := ⟨rfl, rfl, rfl, rfl, rfl⟩

theorem Same.trans {a b c : EventRow} (first : Same a b) (later : Same b c) : Same a c :=
  ⟨first.id.trans later.id, first.service.trans later.service,
    first.operation.trans later.operation, first.revision.trans later.revision,
    first.environment.trans later.environment⟩

/-- The events that a step empties. -/
def purges (row : EventRow) : Event → Bool
  | .purge service environment _ =>
      row.event.environment = some environment && row.event.service = service
  | _ => false

/-- Every event is still there, and none is new. -/
structure Carries (step : Event) (s t : Table EventRow.id) : Prop where
  kept : ∀ old ∈ s, ∃ row ∈ t, Same row old ∧ (purges old step = false → row.event = old.event)
  origin : ∀ row ∈ t, ∃ old ∈ s, Same row old

theorem Carries.refl (step : Event) (s : Table EventRow.id) : Carries step s s where
  kept := fun old mem => ⟨old, mem, .refl old, fun _ => rfl⟩
  origin := fun row mem => ⟨row, mem, .refl row⟩

theorem Carries.update {step : Event} {s t : Table EventRow.id} {p : EventRow → Bool}
    {set : EventRow → EventRow} (updated : Table.Updated p set s t)
    (same : ∀ row, Same (set row) row)
    (payload : ∀ row, p row = true → purges row step = false → (set row).event = row.event) :
    Carries step s t := by
  constructor
  · intro old mem
    refine ⟨_, updated.mem.mpr ⟨old, mem, rfl⟩, ?_⟩
    by_cases picked : p old = true
    · rw [if_pos picked]
      exact ⟨same old, payload old picked⟩
    · rw [if_neg picked]
      exact ⟨.refl old, fun _ => rfl⟩
  · intro row mem
    obtain ⟨old, held, rfl⟩ := updated.mem.mp mem
    refine ⟨old, held, ?_⟩
    by_cases picked : p old = true
    · rw [if_pos picked]
      exact same old
    · rw [if_neg picked]
      exact .refl old

/-- `row` is new, and the only one. -/
structure Adds (s t : Table EventRow.id) (row : EventRow) : Prop where
  fresh : ∀ old ∈ s, old.id ≠ row.id
  mem : ∀ other, other ∈ t ↔ other = row ∨ other ∈ s

theorem insertEvent_cases (events : Table EventRow.id) (row : EventRow) :
    insertEvent events row = events ∨ Adds events (insertEvent events row) row := by
  unfold insertEvent
  split
  · exact .inl rfl
  · cases done : events.insert row with
    | none => exact .inl rfl
    | some other =>
        obtain ⟨fresh, mem⟩ := Table.insert_spec done
        exact .inr ⟨fresh, mem⟩

theorem commit_cases (s : State) (operation : Nat) :
    commit s operation = s ∨ ∃ c row, c ∈ s.completions ∧ c.operation = operation ∧
      row ∈ s.operations ∧ row.id = operation ∧
      commit s operation =
        { s with
          operations := s.operations.update (fun row => row.id = operation)
            (fun row => complete row.enter c.completedAt c.response c.secret c.revision) fun _ => rfl
          events := insertEvent s.events (c.row row)
          completions := leave s operation } := by
  unfold commit
  cases found : s.completions.find? fun c => c.operation = operation with
  | none => exact .inl rfl
  | some c =>
      cases claimed : s.operations.get? operation with
      | none => exact .inl rfl
      | some row =>
          obtain ⟨mem, same⟩ := Table.get?_eq_some.mp claimed
          have named : c.operation = operation := by simpa using List.find?_some found
          exact .inr ⟨c, row, List.mem_of_find?_eq_some found, named, mem, same, rfl⟩

/-- Only a commit adds an event. -/
theorem next_events (s : State) (step : Event) :
    Carries step s.events (next s step).events ∨
      ∃ operation row, step = .commit operation ∧ Adds s.events (next s step).events row := by
  cases step with
  | start ticket => exact .inl (.refl _ _)
  | startTesting operation result => exact .inl (.refl _ _)
  | draw completion =>
      simp only [next, draw]
      split <;> exact .inl (.refl _ _)
  | commit operation =>
      rcases commit_cases s operation with same | ⟨c, row, -, -, -, -, done⟩
      · simp only [next, same]
        exact .inl (.refl _ _)
      · simp only [next, done]
        rcases insertEvent_cases s.events (c.row row) with same | adds
        · rw [same]
          exact .inl (.refl _ _)
        · exact .inr ⟨operation, c.row row, rfl, adds⟩
  | rollback operation => exact .inl (.refl _ _)
  | adopt service application pending response revision => exact .inl (.refl _ _)
  | purge service environment now =>
      refine .inl (.update rfl (fun row => ⟨rfl, rfl, rfl, rfl, rfl⟩) fun row picked apart => ?_)
      rw [purges, picked] at apart
      cases apart
  | claim service now locked => exact .inl (.update rfl (fun row => ⟨rfl, rfl, rfl, rfl, rfl⟩) fun _ _ _ => rfl)
  | finish attempt delivered now =>
      simp only [next, finish]
      split
      · exact .inl (.update rfl (fun row => ⟨rfl, rfl, rfl, rfl, rfl⟩) fun _ _ _ => rfl)
      · exact .inl (.refl _ _)
  | replay service event now => exact .inl (.update rfl (fun row => ⟨rfl, rfl, rfl, rfl, rfl⟩) fun _ _ _ => rfl)
  | list reader => exact .inl (.refl _ _)

/-- No event is ever lost. -/
theorem next_keeps (s : State) (step : Event) {old : EventRow} (mem : old ∈ s.events) :
    ∃ row ∈ (next s step).events, Same row old ∧ (purges old step = false → row.event = old.event) := by
  rcases next_events s step with carries | ⟨-, added, -, adds⟩
  · exact carries.kept old mem
  · exact ⟨old, (adds.mem old).mpr (.inr mem), .refl old, fun _ => rfl⟩

/-! ## Operations -/

/-- The operations whose result a step replaces. -/
def rewrites (row : StoredOperation) : Event → Bool
  | .adopt _ _ pending _ _ => pending.contains row.id
  | .purge service environment _ =>
      row.environment = some environment && row.binding.service = service
  | _ => false

/-- A completed row stays as it is, but for the steps that replace its result. -/
structure Continues (step : Event) (row old : StoredOperation) : Prop where
  id : row.id = old.id
  binding : row.binding = old.binding
  completed : row.completed = old.completed ∨ step = .commit old.id ∧ row.completed = true
  plain : row.completed = false → isTesting row.binding.kind = false →
    old.result = [] ∧ old.environment = none → row.result = [] ∧ row.environment = none
  environment : old.completed = true → row.environment = old.environment
  result : old.completed = true → rewrites row step = false →
    row.result = old.result ∧ row.iamRevision = old.iamRevision

theorem Continues.refl (step : Event) (row : StoredOperation) : Continues step row row :=
  ⟨rfl, rfl, .inl rfl, fun _ _ empty => empty, fun _ => rfl, fun _ _ => ⟨rfl, rfl⟩⟩

structure Inv (s : State) : Prop where
  silent : ∀ row ∈ s.operations, row.completed = false →
    ∀ e ∈ s.events, e.event.operation ≠ row.id
  known : ∀ e ∈ s.events, ∃ row ∈ s.operations, row.id = e.event.operation
  single : ∀ e ∈ s.events, ∀ other ∈ s.events, e.event.operation = other.event.operation → e = other
  plain : ∀ row ∈ s.operations, row.completed = false → isTesting row.binding.kind = false →
    row.result = [] ∧ row.environment = none
  opened : ∀ c ∈ s.completions, ∃ row ∈ s.operations, row.id = c.operation ∧ row.completed = false
  lone : s.completions.Pairwise fun a b => a.operation ≠ b.operation ∧ a.eventId ≠ b.eventId
  fresh : ∀ c ∈ s.completions, ∀ e ∈ s.events, e.id ≠ c.eventId

/-- The operations of `t` are those of `s`, continued. -/
structure Evolved (step : Event) (s t : Table StoredOperation.id) : Prop where
  kept : ∀ old ∈ s, ∃ row ∈ t, Continues step row old
  origin : ∀ row ∈ t, ∃ old ∈ s, Continues step row old

theorem Evolved.refl (step : Event) (s : Table StoredOperation.id) : Evolved step s s where
  kept := fun old mem => ⟨old, mem, .refl step old⟩
  origin := fun row mem => ⟨row, mem, .refl step row⟩

theorem Evolved.update {step : Event} {s t : Table StoredOperation.id} {p : StoredOperation → Bool}
    {set : StoredOperation → StoredOperation} (updated : Table.Updated p set s t)
    (continues : ∀ row ∈ s, p row = true → Continues step (set row) row) :
    Evolved step s t := by
  have each : ∀ old ∈ s, Continues step (if p old then set old else old) old := by
    intro old mem
    by_cases picked : p old = true
    · rw [if_pos picked]
      exact continues old mem picked
    · rw [if_neg picked]
      exact .refl step old
  constructor
  · intro old mem
    exact ⟨_, updated.mem.mpr ⟨old, mem, rfl⟩, each old mem⟩
  · intro row mem
    obtain ⟨old, held, rfl⟩ := updated.mem.mp mem
    exact ⟨old, held, each old held⟩

theorem insert_getD_cases (table : Table StoredOperation.id) (row : StoredOperation) :
    (table.insert row).getD table = table ∨
      (∀ old ∈ table, old.id ≠ row.id) ∧
        ∀ a, a ∈ (table.insert row).getD table ↔ a = row ∨ a ∈ table := by
  cases done : table.insert row with
  | none => exact .inl rfl
  | some other => exact .inr (Table.insert_spec done)

/-- An adopted operation was completed before. -/
theorem completed_of_adoptable {s : State} (inv : Inv s) {service application : Nat}
    {pending : List Nat} {response : Response} {row : StoredOperation} (mem : row ∈ s.operations)
    (picked : adoptable service application pending response row = true) : row.completed = true := by
  simp only [adoptable, Bool.and_eq_true, decide_eq_true_eq] at picked
  obtain ⟨⟨⟨⟨⟨⟨-, -⟩, -⟩, kind⟩, -⟩, revision⟩, -⟩ := picked
  by_contra open_
  have empty := inv.plain row mem (by simpa using open_) (by rw [kind]; rfl)
  rw [empty.1] at revision
  cases revision

/-- Only a request's start adds an operation. -/
theorem next_operations {s : State} (inv : Inv s) (step : Event) :
    Evolved step s.operations (next s step).operations ∨
      ∃ ticket, step = .start ticket ∧ (∀ old ∈ s.operations, old.id ≠ ticket.operation) ∧
        ∀ a, a ∈ (next s step).operations ↔ a = ticket.fresh ∨ a ∈ s.operations := by
  cases step with
  | start ticket =>
      rcases insert_getD_cases s.operations ticket.fresh with same | ⟨fresh, mem⟩
      · simp only [next, start, same]
        exact .inl (.refl _ _)
      · exact .inr ⟨ticket, rfl, fresh, mem⟩
  | startTesting operation result =>
      refine .inl (.update rfl fun row _ picked => ?_)
      simp only [Bool.and_eq_true, Bool.not_eq_true'] at picked
      obtain ⟨⟨-, unfinished⟩, testing⟩ := picked
      refine ⟨rfl, rfl, .inl rfl, fun _ other => ?_, fun done => ?_, fun done => ?_⟩
      · rw [show isTesting row.binding.kind = false from other] at testing
        cases testing
      · rw [unfinished] at done
        cases done
      · rw [unfinished] at done
        cases done
  | draw completion =>
      simp only [next, draw]
      split <;> exact .inl (.refl _ _)
  | commit operation =>
      rcases commit_cases s operation with same | ⟨c, row, held, named, -, -, done⟩
      · simp only [next, same]
        exact .inl (.refl _ _)
      · simp only [next, done]
        refine .inl (.update rfl fun old mem picked => ?_)
        have here : old.id = operation := by simpa using picked
        obtain ⟨open_, openMem, same, unfinished⟩ := inv.opened c held
        have : old = open_ := Table.unique mem openMem (by rw [here, same, named])
        subst this
        refine ⟨rfl, rfl, .inr ⟨by rw [here], rfl⟩, fun unfinished => ?_, fun done => ?_, fun done => ?_⟩
        · cases unfinished
        · rw [unfinished] at done
          cases done
        · rw [unfinished] at done
          cases done
  | rollback operation => exact .inl (.refl _ _)
  | adopt service application pending response revision =>
      refine .inl (.update rfl fun row mem picked => ?_)
      have done := completed_of_adoptable inv mem picked
      refine ⟨rfl, rfl, .inl done.symm, fun unfinished => ?_, fun _ => rfl, fun _ other => ?_⟩
      · cases unfinished
      · simp only [adoptable, Bool.and_eq_true] at picked
        rw [rewrites, show (row.adopt response revision).id = row.id from rfl,
          picked.1.1.1.1.1.1] at other
        cases other
  | purge service environment now =>
      refine .inl (.update rfl fun row mem picked => ?_)
      refine ⟨rfl, rfl, .inl rfl, ?_, fun _ => rfl, fun _ other => ?_⟩
      · intro _ _ bare
        simp only [bare.2, Bool.and_eq_true, decide_eq_true_eq] at picked
        cases picked.1
      · rw [rewrites] at other
        rw [show (row.purge now environment).environment = row.environment from rfl,
          show (row.purge now environment).binding = row.binding from rfl, picked] at other
        cases other
  | claim service now locked => exact .inl (.refl _ _)
  | finish attempt delivered now =>
      simp only [next, finish]
      split <;> exact .inl (.refl _ _)
  | replay service event now => exact .inl (.refl _ _)
  | list reader => exact .inl (.refl _ _)

/-! ## Completions -/

theorem Inv.init : Inv init where
  silent := fun _ mem => absurd mem Table.not_mem_empty
  known := fun _ mem => absurd mem Table.not_mem_empty
  single := fun _ mem => absurd mem Table.not_mem_empty
  plain := fun _ mem => absurd mem Table.not_mem_empty
  opened := fun _ mem => absurd mem List.not_mem_nil
  lone := .nil
  fresh := fun _ mem => absurd mem List.not_mem_nil

/-- A step that adds no row and completes none. -/
theorem Inv.carried {s t : State} (inv : Inv s) {step : Event} (other : ∀ id, step ≠ .commit id)
    (events : Carries step s.events t.events) (operations : Evolved step s.operations t.operations)
    (completions : t.completions.Sublist s.completions) : Inv t := by
  have same {row old : StoredOperation} (continues : Continues step row old) :
      row.completed = old.completed := by
    rcases continues.completed with same | ⟨commits, -⟩
    · exact same
    · exact absurd commits (other old.id)
  constructor
  · intro row mem unfinished e eMem
    obtain ⟨old, held, continues⟩ := operations.origin row mem
    obtain ⟨before, beforeMem, kept⟩ := events.origin e eMem
    rw [kept.operation, continues.id]
    exact inv.silent old held ((same continues).symm.trans unfinished) before beforeMem
  · intro e eMem
    obtain ⟨before, beforeMem, kept⟩ := events.origin e eMem
    obtain ⟨old, held, named⟩ := inv.known before beforeMem
    obtain ⟨row, mem, continues⟩ := operations.kept old held
    exact ⟨row, mem, by rw [continues.id, named, kept.operation]⟩
  · intro e eMem e' eMem' equal
    obtain ⟨before, beforeMem, kept⟩ := events.origin e eMem
    obtain ⟨before', beforeMem', kept'⟩ := events.origin e' eMem'
    have one := inv.single before beforeMem before' beforeMem'
      (by rw [← kept.operation, equal, kept'.operation])
    exact Table.unique eMem eMem' (by rw [kept.id, kept'.id, one])
  · intro row mem unfinished kind
    obtain ⟨old, held, continues⟩ := operations.origin row mem
    apply continues.plain unfinished kind
    apply inv.plain old held ((same continues).symm.trans unfinished)
    rw [← continues.binding]
    exact kind
  · intro c mem
    obtain ⟨old, held, named, unfinished⟩ := inv.opened c (completions.subset mem)
    obtain ⟨row, rowMem, continues⟩ := operations.kept old held
    exact ⟨row, rowMem, continues.id.trans named, (same continues).trans unfinished⟩
  · exact inv.lone.sublist completions
  · intro c mem e eMem
    obtain ⟨before, beforeMem, kept⟩ := events.origin e eMem
    rw [kept.id]
    exact inv.fresh c (completions.subset mem) before beforeMem

theorem Inv.start {s : State} (inv : Inv s) (ticket : Ticket) : Inv (start s ticket) := by
  rcases insert_getD_cases s.operations ticket.fresh with same | ⟨absent, mem⟩
  · simp only [ManagementFeed.start, same]
    exact inv
  · have listed : ∀ a, a ∈ (ManagementFeed.start s ticket).operations ↔
        a = ticket.fresh ∨ a ∈ s.operations := mem
    constructor
    · intro row rowMem unfinished e eMem
      rcases (listed row).mp rowMem with rfl | held
      · obtain ⟨old, oldMem, named⟩ := inv.known e eMem
        rw [← named]
        exact absent old oldMem
      · exact inv.silent row held unfinished e eMem
    · intro e eMem
      obtain ⟨old, oldMem, named⟩ := inv.known e eMem
      exact ⟨old, (listed old).mpr (.inr oldMem), named⟩
    · exact inv.single
    · intro row rowMem unfinished kind
      rcases (listed row).mp rowMem with rfl | held
      · exact ⟨rfl, rfl⟩
      · exact inv.plain row held unfinished kind
    · intro c cMem
      obtain ⟨old, oldMem, named⟩ := inv.opened c cMem
      exact ⟨old, (listed old).mpr (.inr oldMem), named⟩
    · exact inv.lone
    · exact inv.fresh

theorem Inv.draw {s : State} (inv : Inv s) (c : Completion) : Inv (draw s c) := by
  unfold ManagementFeed.draw
  split
  · rename_i available
    simp only [Completion.available, Bool.and_eq_true] at available
    obtain ⟨⟨claimed, apart⟩, unused⟩ := available
    have apart := List.all_eq_true.mp apart
    have unused := Table.all_spec.mp unused
    exact { inv with
      opened := by
        intro other mem
        rcases List.mem_cons.mp mem with rfl | held
        · obtain ⟨row, rowMem, found⟩ := Table.any_spec claimed
          exact ⟨row, rowMem, by simpa using found⟩
        · exact inv.opened other held
      lone := by
        refine List.pairwise_cons.mpr ⟨fun other mem => ?_, inv.lone⟩
        have differs := apart other mem
        simp only [Bool.and_eq_true, decide_eq_true_eq] at differs
        exact ⟨differs.1.symm, differs.2.symm⟩
      fresh := by
        intro other mem e eMem
        rcases List.mem_cons.mp mem with rfl | held
        · exact of_decide_eq_true (unused e eMem)
        · exact inv.fresh other held e eMem }
  · exact inv

/-- What a commit does where it finds its transaction. -/
structure Commits (s t : State) (c : Completion) (row : StoredOperation) : Prop where
  held : c ∈ s.completions
  mem : row ∈ s.operations
  named : row.id = c.operation
  unfinished : row.completed = false
  operations : ∀ a, a ∈ t.operations ↔
    a = complete row.enter c.completedAt c.response c.secret c.revision ∨
      (a ∈ s.operations ∧ a.id ≠ c.operation)
  events : Adds s.events t.events (c.row row)
  completions : t.completions = leave s c.operation
  inFlight : t.inFlight = s.inFlight
  readings : t.readings = s.readings

/-- The insert of a commit never finds a conflict. -/
theorem Inv.commits {s : State} (inv : Inv s) (operation : Nat) :
    commit s operation = s ∨ ∃ c row, c.operation = operation ∧
      Commits s (commit s operation) c row := by
  rcases commit_cases s operation with same | ⟨c, row, held, rfl, mem, named, done⟩
  · exact .inl same
  · right
    refine ⟨c, row, rfl, ?_⟩
    obtain ⟨open_, openMem, same, unfinished⟩ := inv.opened c held
    have : open_ = row := Table.unique openMem mem (same.trans named.symm)
    subst this
    have silent := inv.silent open_ mem unfinished
    have free : (s.events.any fun other => other.event.operation = (c.row open_).event.operation &&
        other.event.eventType = (c.row open_).event.eventType &&
        other.event.revision = (c.row open_).event.revision) = false := by
      rw [Bool.eq_false_iff]
      intro taken
      obtain ⟨e, eMem, same⟩ := Table.any_spec taken
      simp only [Bool.and_eq_true, decide_eq_true_eq] at same
      exact silent e eMem same.1.1
    have unused : ∀ e ∈ s.events, e.id ≠ (c.row open_).id := fun e eMem => inv.fresh c held e eMem
    obtain ⟨events, inserted⟩ := Table.insert_of_free unused
    have events_ : insertEvent s.events (c.row open_) = events := by
      rw [insertEvent, free, inserted]
      rfl
    rw [done, events_]
    refine ⟨held, mem, named, unfinished, fun a => ?_, ?_, rfl, rfl, rfl⟩
    · have updated : Table.Updated (fun row => decide (row.id = c.operation))
          (fun row => complete row.enter c.completedAt c.response c.secret c.revision) s.operations
          (commit s c.operation).operations := by
        rw [done]
        rfl
      rw [done] at updated
      refine updated.mem.trans ?_
      constructor
      · rintro ⟨old, oldMem, rfl⟩
        by_cases here : old.id = c.operation
        · have : old = open_ := Table.unique oldMem mem (here.trans named.symm)
          subst this
          exact .inl (if_pos (decide_eq_true here))
        · rw [if_neg (by simpa using here)]
          exact .inr ⟨oldMem, here⟩
      · rintro (rfl | ⟨oldMem, apart⟩)
        · exact ⟨open_, mem, (if_pos (decide_eq_true named)).symm⟩
        · exact ⟨a, oldMem, (if_neg (by simpa using apart)).symm⟩
    · obtain ⟨fresh, listed⟩ := Table.insert_spec inserted
      exact ⟨fresh, listed⟩

theorem Inv.commit {s : State} (inv : Inv s) (operation : Nat) : Inv (commit s operation) := by
  rcases inv.commits operation with same | ⟨c, row, rfl, commits⟩
  · rw [same]
    exact inv
  · have link : (c.row row).event.operation = c.operation := commits.named
    constructor
    · intro a mem unfinished e eMem
      rcases (commits.operations a).mp mem with rfl | ⟨held, apart⟩
      · cases unfinished
      · rcases (commits.events.mem e).mp eMem with rfl | old
        · rw [link]
          exact apart.symm
        · exact inv.silent a held unfinished e old
    · intro e eMem
      rcases (commits.events.mem e).mp eMem with rfl | old
      · exact ⟨_, (commits.operations _).mpr (.inl rfl), rfl⟩
      · obtain ⟨a, held, named⟩ := inv.known e old
        refine ⟨a, (commits.operations a).mpr (.inr ⟨held, fun here => ?_⟩), named⟩
        have : a = row := Table.unique held commits.mem (here.trans commits.named.symm)
        subst this
        exact inv.silent a held commits.unfinished e old named.symm
    · intro e eMem e' eMem' equal
      have silent := inv.silent row commits.mem commits.unfinished
      rcases (commits.events.mem e).mp eMem with rfl | old <;>
        rcases (commits.events.mem e').mp eMem' with rfl | old'
      · rfl
      · exact absurd equal.symm (silent e' old')
      · exact absurd equal (silent e old)
      · exact inv.single e old e' old' equal
    · intro a mem unfinished kind
      rcases (commits.operations a).mp mem with rfl | ⟨held, -⟩
      · cases unfinished
      · exact inv.plain a held unfinished kind
    · intro other mem
      rw [commits.completions] at mem
      obtain ⟨held, apart⟩ := List.mem_filter.mp mem
      obtain ⟨a, aMem, named, unfinished⟩ := inv.opened other held
      refine ⟨a, (commits.operations a).mpr (.inr ⟨aMem, ?_⟩), named, unfinished⟩
      rw [named]
      simpa using apart
    · rw [commits.completions]
      exact inv.lone.sublist List.filter_sublist
    · intro other mem e eMem
      rw [commits.completions] at mem
      obtain ⟨held, apart⟩ := List.mem_filter.mp mem
      rcases (commits.events.mem e).mp eMem with rfl | old
      · have : Std.Symm fun a b : Completion => a.operation ≠ b.operation ∧ a.eventId ≠ b.eventId :=
          ⟨fun _ _ both => ⟨both.1.symm, both.2.symm⟩⟩
        refine (inv.lone.forall commits.held held ?_).2
        rintro rfl
        simp at apart
      · exact inv.fresh other held e old

theorem Inv.step {s : State} (inv : Inv s) (step : Event) : Inv (next s step) := by
  have others (noStart : ∀ ticket, step ≠ .start ticket) (noCommit : ∀ id, step ≠ .commit id)
      (completions : (next s step).completions.Sublist s.completions) :
      Inv (next s step) := by
    rcases next_events s step with carries | ⟨id, -, commits, -⟩
    · rcases next_operations inv step with evolved | ⟨ticket, starts, -⟩
      · exact inv.carried noCommit carries evolved completions
      · exact absurd starts (noStart ticket)
    · exact absurd commits (noCommit id)
  cases step with
  | start ticket => exact inv.start ticket
  | draw completion => exact inv.draw completion
  | commit operation => exact inv.commit operation
  | rollback operation => exact others (by simp) (by simp) List.filter_sublist
  | finish attempt delivered now =>
      refine others (by simp) (by simp) ?_
      simp only [next, finish]
      split <;> exact .refl _
  | startTesting _ _ | adopt _ _ _ _ _ | purge _ _ _ | claim _ _ _ | replay _ _ _ | list _ =>
      exact others (by simp) (by simp) (.refl _)

theorem reached_inv (run : List Event) : Inv (reached run) :=
  after_of_invariant (fun _ step inv => inv.step step) run init .init

/-! ## Readers -/

theorem next_readings (s : State) (step : Event) (reader : Reader) :
    (step = .list reader ∧ (next s step).events = s.events ∧
      (next s step).readings reader = (s.readings reader).receive (nextPage s reader)) ∨
      (next s step).readings reader = s.readings reader := by
  cases step with
  | list other =>
      by_cases same : reader = other
      · subst same
        exact .inl ⟨rfl, rfl, if_pos rfl⟩
      · exact .inr (if_neg same)
  | draw completion =>
      simp only [next, draw]
      split <;> exact .inr rfl
  | commit operation =>
      rcases commit_cases s operation with same | ⟨c, row, -, -, -, -, done⟩
      · exact .inr (by rw [next, same])
      · exact .inr (by rw [next, done])
  | finish attempt delivered now =>
      simp only [next, finish]
      split <;> exact .inr rfl
  | start _ | startTesting _ _ | rollback _ | adopt _ _ _ _ _ | purge _ _ _ | claim _ _ _
  | replay _ _ _ => exact .inr rfl

/-! ## Attempts -/

/-- The attempts counted for an event. -/
def attempts (s : State) (event : Nat) : Nat :=
  ((s.events.get? event).map EventRow.attemptCount).getD 0

def delivered (s : State) (event : Nat) : Bool :=
  (s.events.get? event).any fun row => row.deliveredAt.isSome

/-- The step is a claim that hands out the attempt. -/
def Hands (s : State) (step : Event) (attempt : Attempt) : Prop :=
  ∃ service now locked, step = .claim service now locked ∧
    ∃ row ∈ candidates s service now locked, attempt = ⟨row.id, row.attemptCount + 1⟩

theorem get?_of_adds {s t : State} {row : EventRow} (adds : Adds s.events t.events row)
    (event : Nat) : t.events.get? event = s.events.get? event ∨
      s.events.get? event = none ∧ t.events.get? event = some row := by
  by_cases same : row.id = event
  · right
    constructor
    · exact Table.get?_eq_none.mpr fun old mem here => adds.fresh old mem (here.trans same.symm)
    · exact Table.get?_eq_some.mpr ⟨(adds.mem row).mpr (.inl rfl), same⟩
  · left
    cases found : s.events.get? event with
    | none =>
        refine Table.get?_eq_none.mpr fun old mem here => ?_
        rcases (adds.mem old).mp mem with rfl | held
        · exact same here
        · exact Table.get?_eq_none.mp found old held here
    | some old =>
        obtain ⟨held, named⟩ := Table.get?_eq_some.mp found
        exact Table.get?_eq_some.mpr ⟨(adds.mem old).mpr (.inr held), named⟩

section Updated

variable {s t : State} {p : EventRow → Bool} {set : EventRow → EventRow}

theorem attempts_of_updated (updated : Table.Updated p set s.events t.events)
    (keeps : ∀ row, (set row).id = row.id) {event : Nat}
    (counts : ∀ row ∈ s.events, row.id = event → p row = true →
      (set row).attemptCount = row.attemptCount) : attempts t event = attempts s event := by
  rw [attempts, attempts, updated.get? keeps]
  cases found : s.events.get? event with
  | none => rfl
  | some row =>
      obtain ⟨mem, named⟩ := Table.get?_eq_some.mp found
      by_cases picked : p row = true
      · simpa [picked] using counts row mem named picked
      · simp [picked]

theorem delivered_of_updated {event : Nat} (done : delivered t event = true)
    (updated : Table.Updated p set s.events t.events) (keeps : ∀ row, (set row).id = row.id)
    (marks : ∀ row ∈ s.events, row.id = event → p row = true →
      (set row).deliveredAt.isSome = true → row.deliveredAt.isSome = true) :
    delivered s event = true := by
  rw [delivered, updated.get? keeps] at done
  rw [delivered]
  cases found : s.events.get? event with
  | none =>
      rw [found] at done
      exact done
  | some row =>
      rw [found] at done
      obtain ⟨mem, named⟩ := Table.get?_eq_some.mp found
      by_cases picked : p row = true
      · exact marks row mem named picked (by simpa [picked] using done)
      · simpa [picked] using done

end Updated

theorem hands_count {s : State} {step : Event} {event number : Nat}
    (hands : Hands s step ⟨event, number⟩) :
    number = attempts s event + 1 ∧ attempts (next s step) event = number := by
  obtain ⟨service, now, locked, rfl, row, mem, same⟩ := hands
  injection same with event_ number_
  have held : row ∈ s.events :=
    (List.mem_filter.mp ((List.mem_insertionSort _).mp (List.mem_of_mem_take mem))).1
  have found : s.events.get? event = some row := Table.get?_eq_some.mpr ⟨held, event_.symm⟩
  have updated : Table.Updated
      (fun row => ((candidates s service now locked).map EventRow.id).contains row.id)
      (fun row => { row with
        attemptCount := row.attemptCount + 1
        nextAttemptAt := now + 120 * second }) s.events
      (next s (.claim service now locked)).events := rfl
  have picked : ((candidates s service now locked).map EventRow.id).contains row.id = true :=
    List.contains_iff_mem.mpr (List.mem_map_of_mem mem)
  constructor
  · rw [attempts, found, number_]
    rfl
  · rw [attempts, updated.get? fun _ => rfl, found, Option.map_some, if_pos picked, number_]
    rfl

/-- A step counts an attempt only when it hands it out. -/
theorem next_attempts (s : State) (step : Event) (event : Nat) :
    attempts (next s step) event = attempts s event ∨
      Hands s step ⟨event, attempts (next s step) event⟩ := by
  cases step with
  | claim service now locked =>
      by_cases mem : event ∈ (candidates s service now locked).map EventRow.id
      · obtain ⟨row, chosen, rfl⟩ := List.mem_map.mp mem
        have hands : Hands s (.claim service now locked) ⟨row.id, row.attemptCount + 1⟩ :=
          ⟨service, now, locked, rfl, row, chosen, rfl⟩
        right
        rw [(hands_count hands).2]
        exact hands
      · left
        apply attempts_of_updated
        · exact rfl
        · exact fun _ => rfl
        · intro row _ named picked
          rw [named] at picked
          exact absurd (List.contains_iff_mem.mp picked) mem
  | commit operation =>
      left
      rcases commit_cases s operation with same | ⟨c, row, -, -, -, -, done⟩
      · rw [next, same]
      · rcases insertEvent_cases s.events (c.row row) with same | adds
        · rw [next, done, attempts, attempts, same]
        · rcases get?_of_adds (t := commit s operation) (by rw [done]; exact adds) event with
            same | ⟨absent, found⟩
          · rw [next, attempts, attempts, same]
          · rw [next, attempts, attempts, absent, found]
            rfl
  | finish attempt delivered now =>
      left
      simp only [next, finish]
      split
      · apply attempts_of_updated
        · exact rfl
        · exact fun _ => rfl
        · exact fun _ _ _ _ => rfl
      · rfl
  | purge service environment now =>
      left
      apply attempts_of_updated
      · exact rfl
      · exact fun _ => rfl
      · exact fun _ _ _ _ => rfl
  | replay service id now =>
      left
      apply attempts_of_updated
      · exact rfl
      · exact fun _ => rfl
      · exact fun _ _ _ _ => rfl
  | draw completion =>
      left
      simp only [next, draw]
      split <;> rfl
  | start _ | startTesting _ _ | rollback _ | adopt _ _ _ _ _ | list _ => exact .inl rfl

theorem attempts_le (s : State) (step : Event) (event : Nat) :
    attempts s event ≤ attempts (next s step) event := by
  rcases next_attempts s step event with same | hands
  · exact Nat.le_of_eq same.symm
  · have := (hands_count hands).1
    omega

/-- Only the finish of the latest attempt marks an event delivered. -/
theorem marked_by_finish {s : State} {step : Event} {event : Nat}
    (before : delivered s event = false) (done : delivered (next s step) event = true) :
    ∃ now, step = .finish ⟨event, attempts s event⟩ true now ∧
      ⟨event, attempts s event⟩ ∈ s.inFlight := by
  have same {t : State} (events : t.events = s.events) (done : delivered t event = true) : False := by
    rw [delivered, events] at done
    exact absurd (done.symm.trans before) (by decide)
  cases step with
  | finish attempt success now =>
      by_cases given : attempt ∈ s.inFlight
      · by_contra other
        simp only [next, finish, if_pos given] at done
        refine absurd (delivered_of_updated done rfl (fun _ => rfl) ?_) (by simp [before])
        intro row mem named picked marked
        simp only [Bool.and_eq_true, decide_eq_true_eq] at picked
        obtain ⟨⟨here, counted⟩, -⟩ := picked
        have found : s.events.get? event = some row := Table.get?_eq_some.mpr ⟨mem, named⟩
        have latest : attempts s event = row.attemptCount := by
          rw [attempts, found]
          rfl
        have whole : attempt = ⟨event, attempts s event⟩ := by
          rw [latest, counted, ← named, here]
        cases success with
        | true =>
            rw [whole] at given other
            exact absurd ⟨now, rfl, given⟩ other
        | false => cases marked
      · simp only [next, finish, if_neg given] at done
        exact (same rfl done).elim
  | commit operation =>
      rcases commit_cases s operation with still | ⟨c, row, -, -, -, -, commits⟩
      · rw [next, still] at done
        exact (same rfl done).elim
      · rcases insertEvent_cases s.events (c.row row) with still | adds
        · exact (same (by rw [next, commits]; exact still) done).elim
        · rcases get?_of_adds (t := commit s operation) (by rw [commits]; exact adds) event with
            kept | ⟨-, found⟩
          · rw [next, delivered, kept] at done
            exact absurd (done.symm.trans before) (by decide)
          · rw [next, delivered, found] at done
            cases done
  | claim service now locked =>
      have was := delivered_of_updated done rfl (fun _ => rfl) fun _ _ _ _ marked => marked
      exact absurd (was.symm.trans before) (by decide)
  | purge service environment now =>
      have was := delivered_of_updated done rfl (fun _ => rfl) fun _ _ _ _ marked => marked
      exact absurd (was.symm.trans before) (by decide)
  | replay service id now =>
      have was := delivered_of_updated done rfl (fun _ => rfl) fun _ _ _ _ marked => by cases marked
      exact absurd (was.symm.trans before) (by decide)
  | draw completion =>
      refine (same ?_ done).elim
      simp only [next, draw]
      split <;> rfl
  | start _ | startTesting _ _ | rollback _ | adopt _ _ _ _ _ | list _ => exact (same rfl done).elim

/-- Attempts in flight come from claims. -/
theorem mem_inFlight {s : State} {step : Event} {attempt : Attempt}
    (given : attempt ∈ (next s step).inFlight) : Hands s step attempt ∨ attempt ∈ s.inFlight := by
  cases step with
  | claim service now locked =>
      rcases List.mem_append.mp given with claimed | earlier
      · obtain ⟨row, mem, same⟩ := List.mem_map.mp claimed
        exact .inl ⟨service, now, locked, rfl, row, mem, same.symm⟩
      · exact .inr earlier
  | commit operation =>
      rcases commit_cases s operation with same | ⟨c, row, -, -, -, -, done⟩
      · rw [next, same] at given
        exact .inr given
      · rw [next, done] at given
        exact .inr given
  | finish other delivered now =>
      simp only [next, finish] at given
      split at given
      · exact .inr (List.mem_filter.mp given).1
      · exact .inr given
  | draw completion =>
      simp only [next, draw] at given
      split at given <;> exact .inr given
  | start _ | startTesting _ _ | rollback _ | adopt _ _ _ _ _ | purge _ _ _ | replay _ _ _
  | list _ => exact .inr given

/-- The attempt has been counted and nobody holds it any more. -/
def Spent (attempt : Attempt) (s : State) : Prop :=
  attempt.number ≤ attempts s attempt.event ∧ attempt ∉ s.inFlight

theorem Spent.step {attempt : Attempt} {s : State} (spent : Spent attempt s) (step : Event) :
    Spent attempt (next s step) := by
  refine ⟨Nat.le_trans spent.1 (attempts_le s step attempt.event), fun given => ?_⟩
  rcases mem_inFlight given with hands | earlier
  · have := (hands_count hands).1
    have := spent.1
    omega
  · exact spent.2 earlier

end SiliconIam.Applications.ManagementFeed
