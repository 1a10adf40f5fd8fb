/-
# Applications.ManagementFeed -- the management events and who gets them

The transaction that completes an operation writes its event.  The event's id is
drawn when the statement is prepared, so ids follow the clocks of the pods and
rows appear in the order of the commits: a `Completion` is a transaction between
the two.  `list` shows a service the events after a cursor, a hundred at a time.

Workers lease events: `claim` counts the attempt and moves the next one two
minutes on, `finish` writes what became of an attempt, unless a later one has
been counted.  It does not look at the lease's end.  `replay` makes an event
undelivered again and leaves the count as it is.

Every statement on the events is a transaction of its own.  Their times are
microseconds and never need to agree with the order of the steps; operations are
rows of the management requests and keep theirs.
-/
import SiliconIam.Applications.ManagementOperations
import SiliconIam.Theory.Paging

namespace SiliconIam.Applications.ManagementFeed

open SiliconIam.Theory SiliconIam.Theory.Runs
open SiliconIam.Applications.Honeycomb

set_option autoImplicit false

/-- A row of `iam.honeycomb_management_events`. -/
structure EventRow where
  id : Nat
  event : ManagementEvent
  createdAt : Nat
  deliveredAt : Option Nat
  attemptCount : Nat
  nextAttemptAt : Nat
deriving DecidableEq

/-- A transaction that holds its operation and has drawn the id of the event. -/
structure Completion where
  operation : Nat
  eventId : Nat
  startedAt : Nat
  completedAt : Nat
  response : Response
  secret : Bool
  revision : Nat
deriving DecidableEq

/-- What `claim` returns for an event. -/
structure Attempt where
  event : Nat
  number : Nat
deriving DecidableEq

/-- One of a service's readers. -/
structure Reader where
  service : Nat
  index : Nat
deriving DecidableEq

/-- `cursor` is the last event id received. -/
structure Reading where
  cursor : Option Nat
  received : List EventRow
deriving DecidableEq

/-- `inFlight` are the attempts that a worker was given and has not finished. -/
structure State where
  operations : Table StoredOperation.id
  events : Table EventRow.id
  completions : List Completion
  inFlight : List Attempt
  readings : Reader → Reading

def second : Nat := 1000000

/-! ## Operations -/

section Operations

variable (s : State)

/-- A request's row, as `begin` inserts it. -/
def start (ticket : Ticket) : State :=
  { s with operations := (s.operations.insert ticket.fresh).getD s.operations }

def isTesting : Kind → Bool
  | .testing _ => true
  | _ => false

/-- A testing operation commits its start before its work. -/
def startTesting (operation : Nat) (result : Response) : State :=
  { s with
    operations := s.operations.update
      (fun row => row.id = operation && !row.completed && isTesting row.binding.kind)
      (fun row => { row.enter with result := result }) fun _ => rfl }

/-- Its operation is locked since it was claimed, and a drawn id is new. -/
def Completion.available (c : Completion) : Bool :=
  s.operations.any (fun row => row.id = c.operation && !row.completed) &&
    s.completions.all (fun other => other.operation ≠ c.operation && other.eventId ≠ c.eventId) &&
      s.events.all fun row => row.id ≠ c.eventId

def draw (c : Completion) : State :=
  if c.available s then { s with completions := c :: s.completions } else s

def Completion.row (c : Completion) (row : StoredOperation) : EventRow where
  id := c.eventId
  event := completionEvent row.enter c.response c.revision
  createdAt := c.startedAt
  deliveredAt := none
  attemptCount := 0
  nextAttemptAt := c.startedAt

/-- `INSERT … ON CONFLICT DO NOTHING`. -/
def insertEvent (events : Table EventRow.id) (row : EventRow) : Table EventRow.id :=
  if events.any fun other => other.event.operation = row.event.operation &&
      other.event.eventType = row.event.eventType && other.event.revision = row.event.revision then
    events
  else (events.insert row).getD events

def leave (operation : Nat) : List Completion :=
  s.completions.filter fun c => c.operation ≠ operation

/-- `complete`, as its transaction commits. -/
def commit (operation : Nat) : State :=
  match s.completions.find? fun c => c.operation = operation, s.operations.get? operation with
  | some c, some row =>
      { s with
        operations := s.operations.update (fun row => row.id = operation)
          (fun row => complete row.enter c.completedAt c.response c.secret c.revision) fun _ => rfl
        events := insertEvent s.events (c.row row)
        completions := leave s operation }
  | _, _ => s

def rollback (operation : Nat) : State := { s with completions := leave s operation }

/-- The rows of `honeycomb_publication_complete_pending`. -/
def adoptable (service application : Nat) (pending : List Nat) (response : Response)
    (row : StoredOperation) : Bool :=
  pending.contains row.id && row.binding.service = service && row.state = "pending" &&
    row.binding.kind = .configure && row.binding.resource = .application application &&
      (row.result.get "configuration_revision").isSome &&
        row.result.get "configuration_revision" = response.get "configuration_revision"

def adopt (service application : Nat) (pending : List Nat) (response : Response)
    (revision : Nat) : State :=
  { s with
    operations := s.operations.update (adoptable service application pending response)
      (fun row => row.adopt response revision) fun _ => rfl }

/-- `honeycomb_testing_purge_receipts`. -/
def purge (service environment now : Nat) : State :=
  { s with
    operations := s.operations.update
      (fun row => row.environment = some environment && row.binding.service = service)
      (fun row => row.purge now environment) fun _ => rfl
    events := s.events.update
      (fun row => row.event.environment = some environment && row.event.service = service)
      (fun row => { row with event := row.event.purge environment }) fun _ => rfl }

end Operations

/-! ## Delivery -/

section Delivery

variable (s : State)

/-- `ORDER BY created_at, event_id`. -/
def older (a b : EventRow) : Prop :=
  a.createdAt < b.createdAt ∨ a.createdAt = b.createdAt ∧ a.id ≤ b.id

instance : DecidableRel older := fun _ _ => inferInstanceAs (Decidable (_ ∨ _))

/-- The due events of a service that no other transaction has locked, oldest first. -/
def candidates (service now : Nat) (locked : List Nat) : List EventRow :=
  ((s.events.rows.filter fun row => row.event.service = service && row.deliveredAt.isNone &&
    row.nextAttemptAt ≤ now && !locked.contains row.id).insertionSort older).take 10

/-- `claim_honeycomb_management_events`. -/
def claim (service now : Nat) (locked : List Nat) : State :=
  let claimed := candidates s service now locked
  { s with
    events := s.events.update (fun row => (claimed.map EventRow.id).contains row.id)
      (fun row => { row with
        attemptCount := row.attemptCount + 1
        nextAttemptAt := now + 120 * second }) fun _ => rfl
    inFlight := claimed.map (fun row => ⟨row.id, row.attemptCount + 1⟩) ++ s.inFlight }

/-- `least(3600, 5*power(2, least(p_attempt, 9)))` seconds. -/
def backoff (attempt : Nat) : Nat := min 3600 (5 * Nat.pow 2 (min attempt 9)) * second

/-- `finish_honeycomb_management_event`, once an attempt that is in flight. -/
def finish (attempt : Attempt) (delivered : Bool) (now : Nat) : State :=
  if attempt ∈ s.inFlight then
    { s with
      events := s.events.update
        (fun row => row.id = attempt.event && row.attemptCount = attempt.number &&
          row.deliveredAt.isNone)
        (fun row => { row with
          deliveredAt := if delivered then some now else none
          nextAttemptAt := now + backoff attempt.number }) fun _ => rfl
      inFlight := s.inFlight.filter fun other => other ≠ attempt }
  else s

/-- `replay_honeycomb_management_event`. -/
def replay (service event now : Nat) : State :=
  { s with
    events := s.events.update (fun row => row.id = event && row.event.service = service)
      (fun row => { row with deliveredAt := none, nextAttemptAt := now }) fun _ => rfl }

/-! ## Reading -/

def eventsOf (service : Nat) : List EventRow :=
  s.events.rows.filter fun row => row.event.service = service

/-- `honeycomb_management_events`. -/
def page (service : Nat) (cursor : Option Nat) : List EventRow :=
  ((Paging.after EventRow.id (eventsOf s service) cursor).insertionSort
    fun a b => a.id ≤ b.id).take 100

def Reading.receive (reading : Reading) (items : List EventRow) : Reading where
  cursor := (items.getLast?.map EventRow.id).or reading.cursor
  received := reading.received ++ items

/-- The page a reader asks for next. -/
def nextPage (reader : Reader) : List EventRow := page s reader.service (s.readings reader).cursor

def list (reader : Reader) : State :=
  { s with
    readings := fun other =>
      if other = reader then (s.readings reader).receive (nextPage s reader) else s.readings other }

end Delivery

/-! ## Steps -/

inductive Event where
  | start (ticket : Ticket)
  | startTesting (operation : Nat) (result : Response)
  | draw (completion : Completion)
  | commit (operation : Nat)
  | rollback (operation : Nat)
  | adopt (service application : Nat) (pending : List Nat) (response : Response) (revision : Nat)
  | purge (service environment now : Nat)
  | claim (service now : Nat) (locked : List Nat)
  | finish (attempt : Attempt) (delivered : Bool) (now : Nat)
  | replay (service event now : Nat)
  | list (reader : Reader)
deriving DecidableEq

def next (s : State) : Event → State
  | .start ticket => start s ticket
  | .startTesting operation result => startTesting s operation result
  | .draw completion => draw s completion
  | .commit operation => commit s operation
  | .rollback operation => rollback s operation
  | .adopt service application pending response revision =>
      adopt s service application pending response revision
  | .purge service environment now => purge s service environment now
  | .claim service now locked => claim s service now locked
  | .finish attempt delivered now => finish s attempt delivered now
  | .replay service event now => replay s service event now
  | .list reader => list s reader

def init : State where
  operations := .empty _
  events := .empty _
  completions := []
  inFlight := []
  readings := fun _ => ⟨none, []⟩

/-- The state after a run from the start. -/
abbrev reached (run : List Event) : State := after next init run

end SiliconIam.Applications.ManagementFeed
