/-
# Webhook.Ordering -- which delivery may be claimed

Committed outbox events are claimed, expanded into one delivery per recipient
and completed, in one transaction; deliveries then follow the lease protocol of
`Webhook.DeliveryLease`.  What keeps them in order is the claim of a delivery:
`claimAllowed` refuses it while an earlier event of its aggregate awaits
expansion or an earlier delivery of its ordering key is unfinished.

What a claim has found clear stays clear (`Clear`, `next_inv`): events are
expanded once, and a finished delivery never comes back to its lane.

The ordering key names the recipient and the aggregate; the first refusal also
compares the organization.  So an earlier event of the same aggregate under
another organization is not waited for, and `ordering_iff` says that this is the
only way out of order.
-/
import SiliconIam.Theory.Framing
import SiliconIam.Domain.Uuid
import SiliconIam.Webhook.DeliveryLease
import Mathlib.Data.Nat.Find

namespace SiliconIam.Webhook.Ordering

open SiliconIam.Theory.Runs
open SiliconIam.Theory.Framing (append_stop_inj)
open SiliconIam.Theory.Hex (Bytes ascii)
open SiliconIam.Domain (Uuid UuidCrate)
open SiliconIam.Webhook.DeliveryLease (Lease Settings)

set_option autoImplicit false

/-! ## Rows -/

/-- `^[a-z][a-z0-9_]{1,63}$`. -/
def aggregateTypeFormat (text : Bytes) : Bool :=
  match text with
  | [] => false
  | first :: rest =>
      (97 ≤ first && first ≤ 122) && 1 ≤ rest.length && rest.length ≤ 63 &&
        rest.all fun c => (97 ≤ c && c ≤ 122) || (48 ≤ c && c ≤ 57) || c = 95

/-- `aggregate_type`, under its check constraint. -/
structure AggregateType where
  text : Bytes
  format : aggregateTypeFormat text = true
deriving DecidableEq

inductive EventStatus where
  | pending
  | processing
  | completed
  | deadLetter
deriving DecidableEq

/-- `iam.outbox_events`; the payload plays no part here. -/
structure OutboxEvent where
  globalSequence : Nat
  organizationId : Option Uuid
  aggregateType : AggregateType
  aggregateId : Bytes
  status : EventStatus
  availableAt : Nat
  lease : Option Lease
  attemptCount : Nat
  completedAt : Option Nat
  deadLetteredAt : Option Nat
  lastErrorCode : Option String

inductive RecipientKind where
  | application
  | siliconWebhook
deriving DecidableEq

def RecipientKind.text : RecipientKind → Bytes
  | .application => ascii "application"
  | .siliconWebhook => ascii "silicon_webhook"

structure Recipient where
  kind : RecipientKind
  endpoint : Uuid
deriving DecidableEq

/-- A row of `iam.outbox_event_recipients` with its delivery. -/
structure Dispatched where
  sequence : Nat
  recipient : Recipient
  orderingKey : Bytes
  lane : DeliveryLease.System

structure State where
  clock : Nat
  events : List OutboxEvent
  deliveries : List Dispatched

def colon : UInt8 := 58

/-- `{kind}:{endpoint_id}:{aggregate_type}:{aggregate_id}`. -/
def recipientOrderingKey (crate : UuidCrate) (recipient : Recipient) (event : OutboxEvent) : Bytes :=
  recipient.kind.text ++ colon :: (crate.display recipient.endpoint ++ colon ::
    (event.aggregateType.text ++ colon :: event.aggregateId))

namespace OutboxEvent

/-- Committed, and neither expanded nor given up. -/
def awaitsExpansion (e : OutboxEvent) : Bool := e.status = .pending || e.status = .processing

def claimable (now : Nat) (e : OutboxEvent) : Bool :=
  (e.status = .pending && e.availableAt ≤ now) ||
    (e.status = .processing && e.lease.any (·.expiresAt ≤ now))

def holds (worker : Nat) (e : OutboxEvent) : Bool :=
  e.status = .processing && e.lease.any (·.owner = worker)

def live (now : Nat) (e : OutboxEvent) : Bool := e.lease.any (now < ·.expiresAt)

def claim (p : Settings) (now worker : Nat) (e : OutboxEvent) : OutboxEvent :=
  { e with
    status := .processing
    lease := some ⟨worker, now + p.leaseDuration⟩
    attemptCount := e.attemptCount + 1
    lastErrorCode := none }

def complete (now : Nat) (e : OutboxEvent) : OutboxEvent :=
  { e with status := .completed, lease := none, completedAt := some now, lastErrorCode := none }

/-- Back to pending after a delay, or given up. -/
def markFailure (p : Settings) (now : Nat) (errorCode : String) (e : OutboxEvent) : OutboxEvent :=
  let deadLetter : Bool := p.maxAttempts ≤ e.attemptCount
  { e with
    status := if deadLetter then .deadLetter else .pending
    lease := none
    availableAt := if deadLetter then e.availableAt else now + p.retryDelay e.attemptCount
    lastErrorCode := some errorCode
    deadLetteredAt := if deadLetter then some now else none }

end OutboxEvent

def Dispatched.unfinished (d : Dispatched) : Bool :=
  d.lane.delivery.status = .pending || d.lane.delivery.status = .processing

/-! ## Operations -/

/-- `UPDATE iam.outbox_events … WHERE id = … AND …`. -/
def updateEvent (sequence : Nat) (when_ : OutboxEvent → Bool) (f : OutboxEvent → OutboxEvent)
    (events : List OutboxEvent) : List OutboxEvent :=
  events.map fun e => if e.globalSequence = sequence && when_ e then f e else e

/-- Recipient and delivery are inserted unless the event has that recipient. -/
def insertRecipient (crate : UuidCrate) (now : Nat) (event : OutboxEvent)
    (deliveries : List Dispatched) (recipient : Recipient) : List Dispatched :=
  if deliveries.any fun d => d.sequence = event.globalSequence && d.recipient = recipient then
    deliveries
  else
    { sequence := event.globalSequence
      recipient := recipient
      orderingKey := recipientOrderingKey crate recipient event
      lane := DeliveryLease.fresh now } :: deliveries

/-- The two refusals of the claim query. -/
def claimAllowed (s : State) (d : Dispatched) : Bool :=
  match s.events.find? (·.globalSequence = d.sequence) with
  | none => false
  | some event =>
      !(s.events.any fun prior =>
          prior.organizationId = event.organizationId && prior.aggregateType = event.aggregateType &&
            prior.aggregateId = event.aggregateId && prior.globalSequence < event.globalSequence &&
            prior.awaitsExpansion) &&
        !(s.deliveries.any fun prior =>
            prior.orderingKey = d.orderingKey && prior.sequence < d.sequence && prior.unfinished)

/-- One operation of the lease protocol on one delivery.  A manual replay moves
the delivery to a lane of its own and is no part of these histories. -/
def actOn (p : Settings) (s : State) (action : DeliveryLease.Action) (d : Dispatched) : Dispatched :=
  match action with
  | .replay => d
  | .claim w =>
      if claimAllowed s d then
        { d with lane := DeliveryLease.act p { d.lane with clock := s.clock } (.claim w) }
      else d
  | action => { d with lane := DeliveryLease.act p { d.lane with clock := s.clock } action }

/-- `recipients` is what the recipient queries answer at that moment. -/
inductive Action where
  | claimEvent (worker sequence : Nat)
  | expandEvent (worker sequence : Nat) (recipients : List Recipient)
  | markFailure (worker sequence : Nat) (errorCode : String)
  | delivery (sequence : Nat) (recipient : Recipient) (action : DeliveryLease.Action)

structure Event where
  elapsed : Nat
  action : Action

/-- One operation at the time `s.clock`. -/
def act (crate : UuidCrate) (p : Settings) (s : State) : Action → State
  | .claimEvent w sequence =>
      { s with events := updateEvent sequence (·.claimable s.clock) (·.claim p s.clock w) s.events }
  | .expandEvent w sequence recipients =>
      match s.events.find? (·.globalSequence = sequence) with
      | some event =>
          if event.holds w && event.live s.clock then
            { s with
              events := updateEvent sequence (·.holds w) (·.complete s.clock) s.events
              deliveries := recipients.foldl (insertRecipient crate s.clock event) s.deliveries }
          else s
      | none => s
  | .markFailure w sequence errorCode =>
      -- the owner's claim is the last one, so it saw this `attempt_count`
      { s with
        events := updateEvent sequence (·.holds w) (·.markFailure p s.clock errorCode) s.events }
  | .delivery sequence recipient action =>
      { s with
        deliveries := s.deliveries.map fun d =>
          if d.sequence = sequence && d.recipient = recipient then actOn p s action d else d }

def next (crate : UuidCrate) (p : Settings) (s : State) (e : Event) : State :=
  act crate p { s with clock := s.clock + e.elapsed } e.action

/-- Committed events, none of them touched yet. -/
structure Committed (events : List OutboxEvent) : Prop where
  unique : (events.map (·.globalSequence)).Nodup
  untouched : ∀ e ∈ events, e.status = .pending

def start (events : List OutboxEvent) : State where
  clock := 0
  events := events
  deliveries := []

/-! ## What should hold -/

/-- Nothing earlier under the ordering key of `d` is left: no event of that key
awaits its expansion, and no delivery of it is unfinished. -/
def Clear (crate : UuidCrate) (s : State) (d : Dispatched) : Prop :=
  (∀ prior ∈ s.events, prior.globalSequence < d.sequence →
      recipientOrderingKey crate d.recipient prior = d.orderingKey → prior.awaitsExpansion = false) ∧
    ∀ prior ∈ s.deliveries, prior.sequence < d.sequence → prior.orderingKey = d.orderingKey →
      prior.unfinished = false

/-- A delivery that is or was attempted has nothing earlier left. -/
def Ordered (crate : UuidCrate) (s : State) : Prop :=
  ∀ d ∈ s.deliveries, d.lane.attempts ≠ [] → Clear crate s d

/-- Every aggregate belongs to one organization, or to none. -/
def OneOrganization (events : List OutboxEvent) : Prop :=
  ∀ e ∈ events, ∀ f ∈ events, e.aggregateType = f.aggregateType → e.aggregateId = f.aggregateId →
    e.organizationId = f.organizationId

/-! ## The ordering key -/

theorem kind_text_free (kind : RecipientKind) : colon ∉ kind.text := by
  cases kind <;> decide +kernel

theorem kind_text_injective : Function.Injective RecipientKind.text := by
  intro k l same
  cases k <;> cases l <;> first | rfl | exact absurd same (by decide +kernel)

theorem aggregateType_free (t : AggregateType) : colon ∉ t.text := by
  obtain ⟨text, format⟩ := t
  intro mem
  cases text with
  | nil => cases mem
  | cons first rest =>
      simp only [aggregateTypeFormat, Bool.and_eq_true, List.all_eq_true] at format
      obtain ⟨⟨⟨head, -⟩, -⟩, all⟩ := format
      rcases List.mem_cons.mp mem with same | old
      · rw [← same] at head
        revert head
        decide
      · exact absurd (all colon old) (by decide)

variable {crate : UuidCrate}

theorem display_length (documented : crate.Documented) (u : Uuid) :
    (crate.display u).length = 36 := by
  rw [documented.prints]
  exact (Uuid.ungroup_length (Uuid.ungroup_group (by simp [u.length_eq]))).1

theorem display_injective (documented : crate.Documented) : Function.Injective crate.display := by
  intro u v same
  have read := documented.round_trip u
  rw [same, documented.round_trip v, Option.some.injEq] at read
  exact read.symm

variable {e : OutboxEvent}

/-- **The key names its recipient and its aggregate.** -/
theorem recipientOrderingKey_inj (documented : crate.Documented) {r r' : Recipient}
    {e' : OutboxEvent} (same : recipientOrderingKey crate r e = recipientOrderingKey crate r' e') :
    r = r' ∧ e.aggregateType = e'.aggregateType ∧ e.aggregateId = e'.aggregateId := by
  obtain ⟨kind, rest⟩ := append_stop_inj (kind_text_free r.kind) (kind_text_free r'.kind) same
  obtain ⟨endpoint, rest⟩ := List.append_inj rest
    ((display_length documented r.endpoint).trans (display_length documented r'.endpoint).symm)
  obtain ⟨type_, id⟩ := append_stop_inj (aggregateType_free e.aggregateType)
    (aggregateType_free e'.aggregateType) (List.cons.inj rest).2
  refine ⟨?_, ?_, id⟩
  · cases r; cases r'
    simp only [Recipient.mk.injEq]
    exact ⟨kind_text_injective kind, display_injective documented endpoint⟩
  · cases h : e.aggregateType; cases h' : e'.aggregateType
    simpa [h, h'] using type_

/-! ## What a step leaves in place -/

/-- What never changes of an event. -/
def OutboxEvent.identity (e : OutboxEvent) : Nat × Option Uuid × AggregateType × Bytes :=
  (e.globalSequence, e.organizationId, e.aggregateType, e.aggregateId)

/-- `e` later on: the same event, and not awaiting expansion again. -/
structure Later (e e' : OutboxEvent) : Prop where
  identity : e'.identity = e.identity
  expanded : e.awaitsExpansion = false → e'.awaitsExpansion = false

theorem Later.sequence {e' : OutboxEvent} (later : Later e e') :
    e'.globalSequence = e.globalSequence := congrArg (·.1) later.identity

theorem Later.key {e' : OutboxEvent} (later : Later e e') (r : Recipient) :
    recipientOrderingKey crate r e' = recipientOrderingKey crate r e := by
  have type_ : e'.aggregateType = e.aggregateType := congrArg (·.2.2.1) later.identity
  have id : e'.aggregateId = e.aggregateId := congrArg (·.2.2.2) later.identity
  unfold recipientOrderingKey
  rw [type_, id]

/-- An update of events that await expansion. -/
structure Advances (when_ : OutboxEvent → Bool) (f : OutboxEvent → OutboxEvent) : Prop where
  identity : ∀ e, (f e).identity = e.identity
  only : ∀ e, when_ e = true → e.awaitsExpansion = true

theorem awaits_of_holds {w : Nat} (holds : e.holds w = true) :
    e.awaitsExpansion = true := by
  simp only [OutboxEvent.holds, Bool.and_eq_true, decide_eq_true_eq] at holds
  simp [OutboxEvent.awaitsExpansion, holds.1]

theorem advances_claim (p : Settings) (now w : Nat) :
    Advances (·.claimable now) (·.claim p now w) := by
  refine ⟨fun _ => rfl, fun e claimable => ?_⟩
  simp only [OutboxEvent.claimable, Bool.or_eq_true, Bool.and_eq_true, decide_eq_true_eq] at claimable
  rcases claimable with ⟨pending, -⟩ | ⟨processing, -⟩
  · simp [OutboxEvent.awaitsExpansion, pending]
  · simp [OutboxEvent.awaitsExpansion, processing]

theorem advances_complete (now w : Nat) : Advances (·.holds w) (·.complete now) :=
  ⟨fun _ => rfl, fun _ => awaits_of_holds⟩

theorem advances_markFailure (p : Settings) (now w : Nat) (errorCode : String) :
    Advances (·.holds w) (·.markFailure p now errorCode) :=
  ⟨fun _ => rfl, fun _ => awaits_of_holds⟩

variable {when_ : OutboxEvent → Bool} {f : OutboxEvent → OutboxEvent} {events : List OutboxEvent}

theorem updateEvent_mem {sequence : Nat} (advances : Advances when_ f)
    {e' : OutboxEvent} (mem : e' ∈ updateEvent sequence when_ f events) :
    ∃ e ∈ events, Later e e' := by
  obtain ⟨e, held, rfl⟩ := List.mem_map.mp mem
  refine ⟨e, held, ?_, ?_⟩
  · split
    · exact advances.identity e
    · rfl
  · intro expanded
    split
    · rename_i hit
      rw [Bool.and_eq_true] at hit
      rw [advances.only e hit.2] at expanded
      cases expanded
    · exact expanded

/-- And every event is still there. -/
theorem updateEvent_keeps {sequence : Nat} (advances : Advances when_ f) (mem : e ∈ events) :
    ∃ e' ∈ updateEvent sequence when_ f events, e'.identity = e.identity := by
  refine ⟨_, List.mem_map_of_mem mem, ?_⟩
  split
  · exact advances.identity e
  · rfl

theorem updateEvent_sequences {sequence : Nat} (advances : Advances when_ f) :
    (updateEvent sequence when_ f events).map (·.globalSequence) =
      events.map (·.globalSequence) := by
  rw [updateEvent, List.map_map]
  refine List.map_congr_left fun e _ => ?_
  show (if _ then f e else e).globalSequence = _
  split
  · exact congrArg (·.1) (advances.identity e)
  · rfl

/-- A delivery that no claim has touched was never attempted. -/
def Untouched (lane : DeliveryLease.System) : Prop :=
  lane.delivery.attemptCount = 0 → lane.numbers = [] ∧ lane.delivery.status ≠ .processing

theorem act_untouched (p : Settings) {lane : DeliveryLease.System} (a : DeliveryLease.Action)
    (untouched : Untouched lane) : Untouched (DeliveryLease.act p lane a) := by
  intro zero
  cases DeliveryLease.act_effect p lane a with
  | claimed w taken delivery =>
      rw [delivery] at zero
      exact absurd zero (Nat.succ_ne_zero _)
  | begun w cycle attempt taken ready holds live delivery =>
      rw [delivery] at zero
      exact absurd (DeliveryLease.holds_status holds) (untouched zero).2
  | settled w finishes holds status attemptCount cycle numbers =>
      rw [attemptCount] at zero
      exact ⟨numbers.trans (untouched zero).1, status⟩
  | passed w phase notClaimed delivery numbers =>
      rw [delivery] at zero ⊢
      exact ⟨numbers.trans (untouched zero).1, (untouched zero).2⟩
  | replayed taken dead delivery numbers =>
      rw [delivery] at zero ⊢
      exact ⟨numbers.trans (untouched zero).1, by simp [DeliveryLease.Delivery.reset]⟩
  | cancelled taken running delivery numbers =>
      rw [delivery] at zero ⊢
      exact ⟨numbers.trans (untouched zero).1, by simp [DeliveryLease.Delivery.cancel]⟩

theorem act_attemptCount (p : Settings) {lane : DeliveryLease.System} {a : DeliveryLease.Action}
    (notClaim : ∀ w, a ≠ .claim w) :
    (DeliveryLease.act p lane a).delivery.attemptCount = lane.delivery.attemptCount := by
  cases DeliveryLease.act_effect p lane a with
  | claimed w taken => exact absurd taken (notClaim w)
  | begun w cycle attempt taken ready holds live delivery => rw [delivery]; rfl
  | settled w finishes holds status attemptCount => exact attemptCount
  | passed w phase notClaimed delivery => rw [delivery]
  | replayed taken dead delivery => rw [delivery]; rfl
  | cancelled taken running delivery => rw [delivery]; rfl

/-- `d` later on: the same delivery in the same lane, and not unfinished again. -/
structure LaterIn (d d' : Dispatched) : Prop where
  sequence : d'.sequence = d.sequence
  recipient : d'.recipient = d.recipient
  orderingKey : d'.orderingKey = d.orderingKey
  finished : d.unfinished = false → d'.unfinished = false

theorem LaterIn.refl (d : Dispatched) : LaterIn d d := ⟨rfl, rfl, rfl, id⟩

theorem laterIn_act (p : Settings) (now : Nat) (d : Dispatched) {a : DeliveryLease.Action}
    (notReplay : a ≠ .replay) :
    LaterIn d { d with lane := DeliveryLease.act p { d.lane with clock := now } a } := by
  refine ⟨rfl, rfl, rfl, fun finished => ?_⟩
  simp only [Dispatched.unfinished, Bool.or_eq_false_iff, decide_eq_false_iff_not] at finished ⊢
  rw [DeliveryLease.act_finished p (s := { d.lane with clock := now }) finished.1 finished.2 notReplay]
  exact finished

/-- What one lease operation does to a delivery in its lane; only an allowed claim
touches an untouched one. -/
theorem actOn_spec (p : Settings) (s : State) (a : DeliveryLease.Action) {d : Dispatched}
    (untouched : Untouched d.lane) :
    LaterIn d (actOn p s a d) ∧ Untouched (actOn p s a d).lane ∧
      ((actOn p s a d).lane.delivery.attemptCount = d.lane.delivery.attemptCount ∨
        claimAllowed s d = true) := by
  have still : Untouched { d.lane with clock := s.clock } := untouched
  cases a with
  | replay => exact ⟨.refl d, untouched, .inl rfl⟩
  | claim w =>
      unfold actOn
      by_cases allowed : claimAllowed s d = true
      · simp only [allowed, if_true]
        exact ⟨laterIn_act p s.clock d (by simp), act_untouched p _ still, .inr trivial⟩
      · simp only [allowed]
        exact ⟨.refl d, untouched, .inl rfl⟩
  | _ =>
      exact ⟨laterIn_act p s.clock d (by simp), act_untouched p _ still,
        .inl (act_attemptCount p (by simp))⟩

theorem foldl_insertRecipient_mem {now : Nat} {event : OutboxEvent} {recipients : List Recipient} :
    ∀ {deliveries : List Dispatched} {d : Dispatched},
      d ∈ recipients.foldl (insertRecipient crate now event) deliveries →
        d ∈ deliveries ∨ ∃ r, d = ⟨event.globalSequence, r, recipientOrderingKey crate r event,
          DeliveryLease.fresh now⟩ := by
  induction recipients with
  | nil => exact fun mem => .inl mem
  | cons r rest ih =>
      intro deliveries d mem
      rcases ih mem with old | added
      · unfold insertRecipient at old
        split at old
        · exact .inl old
        · rcases List.mem_cons.mp old with rfl | old
          · exact .inr ⟨r, rfl⟩
          · exact .inl old
      · exact .inr added

/-! ## What a claim has found clear stays clear -/

structure Inv (crate : UuidCrate) (s : State) : Prop where
  unique : (s.events.map (·.globalSequence)).Nodup
  oneOrganization : OneOrganization s.events
  keyed : ∀ d ∈ s.deliveries, ∃ e ∈ s.events, e.globalSequence = d.sequence ∧
    recipientOrderingKey crate d.recipient e = d.orderingKey
  untouched : ∀ d ∈ s.deliveries, Untouched d.lane
  clear : ∀ d ∈ s.deliveries, d.lane.delivery.attemptCount ≠ 0 → Clear crate s d

theorem inv_start (committed : Committed events)
    (oneOrganization : OneOrganization events) : Inv crate (start events) :=
  ⟨committed.unique, oneOrganization, fun _ mem => (by cases mem), fun _ mem => (by cases mem),
    fun _ mem => by cases mem⟩

theorem Inv.ordered {s : State} (inv : Inv crate s) : Ordered crate s := by
  intro d mem attempted
  refine inv.clear d mem fun zero => attempted ?_
  exact List.map_eq_nil_iff.mp (inv.untouched d mem zero).1

/-- Later events and later deliveries of a clear lane leave it clear. -/
theorem Clear.later {s t : State} {d d' : Dispatched} (clear : Clear crate s d) (same : LaterIn d d')
    (events : ∀ e' ∈ t.events, ∃ e ∈ s.events, Later e e')
    (deliveries : ∀ x' ∈ t.deliveries, x'.sequence < d.sequence → x'.orderingKey = d.orderingKey →
      ∃ x ∈ s.deliveries, LaterIn x x') : Clear crate t d' := by
  constructor
  · intro prior mem before key
    obtain ⟨e, held, later⟩ := events prior mem
    rw [later.sequence, same.sequence] at before
    rw [later.key, same.recipient, same.orderingKey] at key
    exact later.expanded (clear.1 e held before key)
  · intro prior mem before key
    rw [same.sequence] at before
    rw [same.orderingKey] at key
    obtain ⟨x, held, later⟩ := deliveries prior mem before key
    exact later.finished (clear.2 x held (later.sequence ▸ before) (later.orderingKey ▸ key))

theorem OneOrganization.later {events' : List OutboxEvent} (one : OneOrganization events)
    (later : ∀ e' ∈ events', ∃ e ∈ events, Later e e') : OneOrganization events' := by
  intro e' mem f' mem' type_ id
  obtain ⟨e, held, le⟩ := later e' mem
  obtain ⟨f, held', lf⟩ := later f' mem'
  have agree := one e held f held'
  obtain ⟨-, org, ty, aid⟩ : e'.globalSequence = e.globalSequence ∧
      e'.organizationId = e.organizationId ∧ e'.aggregateType = e.aggregateType ∧
      e'.aggregateId = e.aggregateId := by
    simpa [OutboxEvent.identity, Prod.mk.injEq] using le.identity
  obtain ⟨-, org', ty', aid'⟩ : f'.globalSequence = f.globalSequence ∧
      f'.organizationId = f.organizationId ∧ f'.aggregateType = f.aggregateType ∧
      f'.aggregateId = f.aggregateId := by
    simpa [OutboxEvent.identity, Prod.mk.injEq] using lf.identity
  rw [org, org']
  exact agree (by rw [← ty, ← ty', type_]) (by rw [← aid, ← aid', id])

theorem keyed_later {events' : List OutboxEvent} {d : Dispatched}
    (keyed : ∃ e ∈ events, e.globalSequence = d.sequence ∧
      recipientOrderingKey crate d.recipient e = d.orderingKey)
    (keeps : ∀ e ∈ events, ∃ e' ∈ events', e'.identity = e.identity) :
    ∃ e ∈ events', e.globalSequence = d.sequence ∧
      recipientOrderingKey crate d.recipient e = d.orderingKey := by
  obtain ⟨e, held, sequence, key⟩ := keyed
  obtain ⟨e', held', same⟩ := keeps e held
  have later : Later { e with status := .pending } e' := ⟨same, fun h => by cases h⟩
  exact ⟨e', held', later.sequence.trans sequence, (later.key d.recipient).trans key⟩

/-- An update of events alone keeps the invariant. -/
theorem Inv.updateEvent {s : State} (inv : Inv crate s) {sequence : Nat} (advances : Advances when_ f) :
    Inv crate { s with events := updateEvent sequence when_ f s.events } where
  unique := by
    rw [updateEvent_sequences advances]
    exact inv.unique
  oneOrganization := inv.oneOrganization.later fun e' mem => updateEvent_mem advances mem
  keyed d mem := keyed_later (inv.keyed d mem) fun e held => updateEvent_keeps advances held
  untouched := inv.untouched
  clear d mem touched := (inv.clear d mem touched).later (.refl d)
    (fun e' held => updateEvent_mem advances held) (fun x held _ _ => ⟨x, held, .refl x⟩)

/-- Expansion adds untouched deliveries, and none ahead of a clear one: the event
still awaited its expansion. -/
theorem Inv.insertRecipients {s : State} (documented : crate.Documented) (inv : Inv crate s)
    {event : OutboxEvent} (held : event ∈ s.events) (awaits : event.awaitsExpansion = true)
    (now : Nat) (recipients : List Recipient) :
    Inv crate
      { s with deliveries := recipients.foldl (insertRecipient crate now event) s.deliveries } where
  unique := inv.unique
  oneOrganization := inv.oneOrganization
  keyed d mem := by
    rcases foldl_insertRecipient_mem mem with old | ⟨r, rfl⟩
    · exact inv.keyed d old
    · exact ⟨event, held, rfl, rfl⟩
  untouched d mem := by
    rcases foldl_insertRecipient_mem mem with old | ⟨r, rfl⟩
    · exact inv.untouched d old
    · exact fun _ => ⟨rfl, by simp [DeliveryLease.fresh]⟩
  clear d mem touched := by
    rcases foldl_insertRecipient_mem mem with old | ⟨r, rfl⟩
    · have clear := inv.clear d old touched
      refine clear.later (.refl d) (fun e held => ⟨e, held, rfl, id⟩) fun x added before key => ?_
      rcases foldl_insertRecipient_mem added with old | ⟨r, rfl⟩
      · exact ⟨x, old, .refl x⟩
      · obtain ⟨e, -, -, own⟩ := inv.keyed d ‹d ∈ s.deliveries›
        have same : r = d.recipient :=
          (recipientOrderingKey_inj documented (key.trans own.symm)).1
        subst same
        rw [clear.1 event held before key] at awaits
        cases awaits
    · exact absurd rfl touched

/-- **What the claim query checks**, when every aggregate has one organization. -/
theorem clear_of_claimAllowed {s : State} (documented : crate.Documented) (inv : Inv crate s)
    {d : Dispatched} (mem : d ∈ s.deliveries) (allowed : claimAllowed s d = true) :
    Clear crate s d := by
  obtain ⟨e, held, sequence, key⟩ := inv.keyed d mem
  unfold claimAllowed at allowed
  cases found : s.events.find? (·.globalSequence = d.sequence) with
  | none => rw [found] at allowed; cases allowed
  | some event =>
      have held' := List.mem_of_find?_eq_some found
      have sequence' : event.globalSequence = d.sequence := by simpa using List.find?_some found
      have same : event = e :=
        List.inj_on_of_nodup_map inv.unique held' held (sequence'.trans sequence.symm)
      subst same
      rw [found] at allowed
      simp only [Bool.and_eq_true, Bool.not_eq_true', List.any_eq_false] at allowed
      obtain ⟨expanded, finished⟩ := allowed
      constructor
      · intro prior mem before sameKey
        obtain ⟨-, type_, id⟩ := recipientOrderingKey_inj documented (sameKey.trans key.symm)
        have organization := inv.oneOrganization prior mem event held type_ id
        have checked := expanded prior mem
        rw [← sequence'] at before
        simpa [organization, type_, id, before] using checked
      · intro prior mem before sameKey
        have checked := finished prior mem
        simpa [sameKey, before] using checked

theorem Inv.actOn {s : State} (documented : crate.Documented) (inv : Inv crate s) (p : Settings)
    (hit : Dispatched → Bool) (a : DeliveryLease.Action) :
    Inv crate
      { s with deliveries := s.deliveries.map fun d => if hit d then actOn p s a d else d } := by
  have later : ∀ d' ∈ s.deliveries.map (fun d => if hit d then Ordering.actOn p s a d else d),
      ∃ d ∈ s.deliveries, LaterIn d d' ∧ Untouched d'.lane ∧
        (d'.lane.delivery.attemptCount = d.lane.delivery.attemptCount ∨ claimAllowed s d = true) := by
    intro d' mem
    obtain ⟨d, held, rfl⟩ := List.mem_map.mp mem
    refine ⟨d, held, ?_⟩
    split
    · exact actOn_spec p s a (inv.untouched d held)
    · exact ⟨.refl d, inv.untouched d held, .inl rfl⟩
  refine ⟨inv.unique, inv.oneOrganization, ?_, ?_, ?_⟩
  · intro d' mem
    obtain ⟨d, held, same, -⟩ := later d' mem
    rw [same.sequence, same.recipient, same.orderingKey]
    exact inv.keyed d held
  · intro d' mem
    obtain ⟨d, -, -, untouched, -⟩ := later d' mem
    exact untouched
  · intro d' mem touched
    obtain ⟨d, held, same, -, moved⟩ := later d' mem
    have clear : Clear crate s d := by
      rcases moved with still | allowed
      · exact inv.clear d held (still ▸ touched)
      · exact clear_of_claimAllowed documented inv held allowed
    refine clear.later same (fun e held => ⟨e, held, rfl, id⟩) fun x' mem _ _ => ?_
    obtain ⟨x, held, same, -⟩ := later x' mem
    exact ⟨x, held, same⟩

/-- **One step keeps the invariant.** -/
theorem next_inv (documented : crate.Documented) (p : Settings) (s : State) (e : Event)
    (inv : Inv crate s) : Inv crate (next crate p s e) := by
  have inv : Inv crate { s with clock := s.clock + e.elapsed } :=
    ⟨inv.unique, inv.oneOrganization, inv.keyed, inv.untouched, inv.clear⟩
  unfold next
  generalize { s with clock := s.clock + e.elapsed } = s at inv
  cases e.action with
  | claimEvent w sequence => exact inv.updateEvent (advances_claim p s.clock w)
  | markFailure w sequence errorCode =>
      exact inv.updateEvent (advances_markFailure p s.clock w errorCode)
  | delivery sequence recipient action => exact inv.actOn documented p _ action
  | expandEvent w sequence recipients =>
      unfold act
      dsimp only
      cases found : s.events.find? (·.globalSequence = sequence) with
      | none => exact inv
      | some event =>
          dsimp only
          by_cases owned : (event.holds w && event.live s.clock) = true
          · rw [if_pos owned]
            rw [Bool.and_eq_true] at owned
            have expanded := inv.insertRecipients documented (List.mem_of_find?_eq_some found)
              (awaits_of_holds owned.1) s.clock recipients
            exact expanded.updateEvent (advances_complete s.clock w)
          · rw [if_neg owned]
            exact inv

/-! ## Another organization is not waited for -/

/-- The first event of an aggregate that has an earlier one under another
organization. -/
theorem exists_first_mixed (committed : Committed events)
    (mixed : ¬ OneOrganization events) :
    ∃ e ∈ events, ∃ f ∈ events, e.globalSequence < f.globalSequence ∧
      e.aggregateType = f.aggregateType ∧ e.aggregateId = f.aggregateId ∧
      ∀ g ∈ events, g.globalSequence < f.globalSequence → g.aggregateType = f.aggregateType →
        g.aggregateId = f.aggregateId → g.organizationId ≠ f.organizationId := by
  let Mixed (n : Nat) : Prop := ∃ e ∈ events, ∃ f ∈ events, f.globalSequence = n ∧
    e.globalSequence < n ∧ e.aggregateType = f.aggregateType ∧ e.aggregateId = f.aggregateId ∧
    e.organizationId ≠ f.organizationId
  have distinct : ∀ e ∈ events, ∀ f ∈ events, e.organizationId ≠ f.organizationId →
      e.globalSequence ≠ f.globalSequence := by
    intro e held f held' differ same
    exact differ (by rw [List.inj_on_of_nodup_map committed.unique held held' same])
  have ordered : ∀ e ∈ events, ∀ f ∈ events, e.aggregateType = f.aggregateType →
      e.aggregateId = f.aggregateId → e.organizationId ≠ f.organizationId →
      ∃ n, Mixed n ∧ n ≤ max e.globalSequence f.globalSequence := by
    intro e held f held' type_ id differ
    rcases Nat.lt_or_gt_of_ne (distinct e held f held' differ) with before | behind
    · exact ⟨f.globalSequence, ⟨e, held, f, held', rfl, before, type_, id, differ⟩, by omega⟩
    · exact ⟨e.globalSequence, ⟨f, held', e, held, rfl, behind, type_.symm, id.symm, differ.symm⟩,
        by omega⟩
  have exists_mixed : ∃ n, Mixed n := by
    simp only [OneOrganization, not_forall] at mixed
    obtain ⟨e, held, f, held', type_, id, differ⟩ := mixed
    obtain ⟨n, found, -⟩ := ordered e held f held' type_ id differ
    exact ⟨n, found⟩
  classical
  obtain ⟨e, held, f, held', sequence, before, type_, id, differ⟩ := Nat.find_spec exists_mixed
  rw [← sequence] at before
  refine ⟨e, held, f, held', before, type_, id, fun g heldG beforeG typeG idG sameOrganization => ?_⟩
  -- otherwise `e` and `g` would be an earlier mixed pair
  obtain ⟨n, found, bound⟩ := ordered e held g heldG (type_.trans typeG.symm) (id.trans idG.symm)
    (by rw [sameOrganization]; exact differ)
  have minimal := Nat.find_min' exists_mixed found
  omega

/-- Claim and expand the event, claim its delivery and begin to send. -/
def overtaking (f : OutboxEvent) (recipient : Recipient) : List Event :=
  [⟨f.availableAt, .claimEvent 0 f.globalSequence⟩,
    ⟨0, .expandEvent 0 f.globalSequence [recipient]⟩,
    ⟨0, .delivery f.globalSequence recipient (.claim 0)⟩,
    ⟨0, .delivery f.globalSequence recipient (.beginAttempt 0)⟩]

theorem find?_of_unique (unique : (events.map (·.globalSequence)).Nodup) (mem : e ∈ events) :
    events.find? (·.globalSequence = e.globalSequence) = some e := by
  cases found : events.find? (·.globalSequence = e.globalSequence) with
  | none =>
      rw [List.find?_eq_none] at found
      exact absurd (found e mem) (by simp)
  | some g =>
      have same : g.globalSequence = e.globalSequence := by simpa using List.find?_some found
      rw [List.inj_on_of_nodup_map unique (List.mem_of_find?_eq_some found) mem same]

theorem updateEvent_hit (mem : e ∈ events) (hit : when_ e = true) :
    f e ∈ updateEvent e.globalSequence when_ f events := by
  refine List.mem_map.mpr ⟨e, mem, ?_⟩
  simp [hit]

theorem updateEvent_miss {sequence : Nat} (mem : e ∈ events)
    (other : e.globalSequence ≠ sequence) : e ∈ updateEvent sequence when_ f events := by
  refine List.mem_map.mpr ⟨e, mem, ?_⟩
  simp [other]

/-- **Overtaking.**  The event is expanded and its delivery attempted while the
earlier one of the other organization still awaits its expansion. -/
theorem overtakes (p : Settings) (committed : Committed events)
    {f : OutboxEvent} (held : e ∈ events) (held' : f ∈ events)
    (before : e.globalSequence < f.globalSequence) (type_ : e.aggregateType = f.aggregateType)
    (id : e.aggregateId = f.aggregateId)
    (first : ∀ g ∈ events, g.globalSequence < f.globalSequence → g.aggregateType = f.aggregateType →
      g.aggregateId = f.aggregateId → g.organizationId ≠ f.organizationId) (recipient : Recipient) :
    ¬ Ordered crate (after (next crate p) (start events) (overtaking f recipient)) := by
  let now := 0 + f.availableAt
  have other : e.globalSequence ≠ f.globalSequence := Nat.ne_of_lt before
  -- the event is claimed
  have due : f.claimable now = true := by
    simp [OutboxEvent.claimable, committed.untouched f held', now]
  let claimed := updateEvent f.globalSequence (·.claimable now) (·.claim p now 0) events
  have claimedHeld : f.claim p now 0 ∈ claimed := updateEvent_hit held' due
  have claimedUnique : (claimed.map (·.globalSequence)).Nodup := by
    rw [updateEvent_sequences (advances_claim p now 0)]
    exact committed.unique
  have foundClaimed : claimed.find? (·.globalSequence = f.globalSequence) = some (f.claim p now 0) :=
    find?_of_unique claimedUnique claimedHeld
  have owned : ((f.claim p now 0).holds 0 && (f.claim p now 0).live now) = true := by
    simp [OutboxEvent.holds, OutboxEvent.live, OutboxEvent.claim, p.leasePositive]
  -- and expanded
  let expanded := updateEvent f.globalSequence (·.holds 0) (·.complete now) claimed
  let delivery : Dispatched :=
    ⟨f.globalSequence, recipient, recipientOrderingKey crate recipient (f.claim p now 0),
      DeliveryLease.fresh now⟩
  have expandedHeld : (f.claim p now 0).complete now ∈ expanded := by
    rw [Bool.and_eq_true] at owned
    exact updateEvent_hit claimedHeld owned.1
  have expandedUnique : (expanded.map (·.globalSequence)).Nodup := by
    rw [updateEvent_sequences (advances_complete now 0)]
    exact claimedUnique
  have origin : ∀ g' ∈ expanded, ∃ g ∈ events, g'.identity = g.identity := by
    intro g' mem
    obtain ⟨g₁, mem, later₁⟩ := updateEvent_mem (advances_complete now 0) mem
    obtain ⟨g, mem, later⟩ := updateEvent_mem (advances_claim p now 0) mem
    exact ⟨g, mem, later₁.identity.trans later.identity⟩
  -- nothing stops the claim of its delivery
  have allowed : claimAllowed ⟨now, expanded, [delivery]⟩ delivery = true := by
    have found : expanded.find? (·.globalSequence = delivery.sequence) =
        some ((f.claim p now 0).complete now) := find?_of_unique expandedUnique expandedHeld
    simp only [claimAllowed, found, Bool.and_eq_true, Bool.not_eq_true', List.any_eq_false]
    constructor
    · intro g' mem refused
      obtain ⟨g, mem, same⟩ := origin g' mem
      simp only [OutboxEvent.identity, Prod.mk.injEq] at same
      simp only [decide_eq_true_eq] at refused
      obtain ⟨⟨⟨⟨organization, sameType⟩, sameId⟩, earlier⟩, -⟩ := refused
      refine first g mem ?_ ?_ ?_ ?_
      · rw [← same.1]
        exact earlier
      · rw [← same.2.2.1]
        exact sameType
      · rw [← same.2.2.2]
        exact sameId
      · rw [← same.2.1]
        exact organization
    · intro x mem
      rw [List.mem_singleton.mp mem]
      simp
  let taken := DeliveryLease.act p (DeliveryLease.fresh now) (.claim 0)
  let sent := DeliveryLease.act p { taken with clock := now } (.beginAttempt 0)
  have reached : after (next crate p) (start events) (overtaking f recipient) =
      ⟨now, expanded, [{ delivery with lane := sent }]⟩ := by
    have claims : next crate p (start events) ⟨f.availableAt, .claimEvent 0 f.globalSequence⟩ =
        ⟨now, claimed, []⟩ := rfl
    have expands : next crate p ⟨now, claimed, []⟩
        ⟨0, .expandEvent 0 f.globalSequence [recipient]⟩ = ⟨now, expanded, [delivery]⟩ := by
      simp only [next, act, Nat.add_zero, foundClaimed, owned, if_true]
      rfl
    have takes : next crate p ⟨now, expanded, [delivery]⟩
        ⟨0, .delivery f.globalSequence recipient (.claim 0)⟩ =
          ⟨now, expanded, [{ delivery with lane := taken }]⟩ := by
      simp only [next, act, Nat.add_zero, List.map_cons, List.map_nil, delivery, decide_true,
        Bool.and_self, if_true, actOn]
      rw [if_pos allowed]
      rfl
    have sends : next crate p ⟨now, expanded, [{ delivery with lane := taken }]⟩
        ⟨0, .delivery f.globalSequence recipient (.beginAttempt 0)⟩ =
          ⟨now, expanded, [{ delivery with lane := sent }]⟩ := by
      simp only [next, act, Nat.add_zero, List.map_cons, List.map_nil, delivery, decide_true,
        Bool.and_self, if_true, actOn]
      rfl
    simp only [overtaking, after]
    rw [claims, expands, takes, sends]
  rw [reached]
  intro ordered
  have attempted : sent.attempts ≠ [] := by
    simp [sent, taken, DeliveryLease.act, DeliveryLease.fresh, DeliveryLease.System.settle,
      DeliveryLease.Delivery.claimable, DeliveryLease.Delivery.claim, DeliveryLease.Delivery.holds,
      DeliveryLease.Delivery.live, p.leasePositive]
  have clear := ordered { delivery with lane := sent } (List.mem_singleton.mpr rfl) attempted
  have waiting : e ∈ expanded := updateEvent_miss (updateEvent_miss held other) other
  have key : recipientOrderingKey crate recipient e =
      recipientOrderingKey crate recipient (f.claim p now 0) := by
    simp only [recipientOrderingKey, type_, id, OutboxEvent.claim]
  have expandedEarlier := clear.1 e waiting before key
  simp [OutboxEvent.awaitsExpansion, committed.untouched e held] at expandedEarlier

def someUuid : Uuid where
  bytes := ascii "0123456789abcdef"
  length_eq := by decide

/-- **The order of deliveries.**  Over a set of committed events every history is
in order if and only if every aggregate of the set has one organization. -/
theorem ordering_iff (crate : UuidCrate) (documented : crate.Documented) (p : Settings)
    (events : List OutboxEvent) (committed : Committed events) :
    (∀ history, Ordered crate (after (next crate p) (start events) history)) ↔
      OneOrganization events := by
  constructor
  · intro ordered
    by_contra mixed
    obtain ⟨e, held, f, held', before, type_, id, first⟩ := exists_first_mixed committed mixed
    exact overtakes p committed held held' before type_ id first ⟨.application, someUuid⟩
      (ordered _)
  · intro one history
    exact (after_of_invariant (next_inv documented p) history _ (inv_start committed one)).ordered

/-- An event of one membership, under the given organization. -/
def membershipEvent (globalSequence : Nat) (organizationId : Option Uuid) : OutboxEvent where
  globalSequence := globalSequence
  organizationId := organizationId
  aggregateType := ⟨ascii "organization_membership", by decide +kernel⟩
  aggregateId := ascii "00000000-0000-0000-0000-000000000003"
  status := .pending
  availableAt := 0
  lease := none
  attemptCount := 0
  completedAt := none
  deadLetteredAt := none
  lastErrorCode := none

theorem ordering_iff_membership :
    (∀ history, Ordered Uuid.reference (after (next Uuid.reference DeliveryLease.threeAttempts)
        (start [membershipEvent 1 (some someUuid), membershipEvent 2 (some someUuid)]) history)) ↔
      OneOrganization [membershipEvent 1 (some someUuid), membershipEvent 2 (some someUuid)] :=
  ordering_iff Uuid.reference Uuid.reference_documented DeliveryLease.threeAttempts _
    ⟨by decide, by simp [membershipEvent]⟩

/-- An event without an organization is overtaken by a later one of the same
membership under an organization. -/
theorem other_organization_overtakes :
    ¬ Ordered Uuid.reference (after (next Uuid.reference DeliveryLease.threeAttempts)
      (start [membershipEvent 1 none, membershipEvent 2 (some someUuid)])
      (overtaking (membershipEvent 2 (some someUuid)) ⟨.application, someUuid⟩)) := by
  have committed : Committed [membershipEvent 1 none, membershipEvent 2 (some someUuid)] :=
    ⟨by decide, by simp [membershipEvent]⟩
  have before : (membershipEvent 1 none).globalSequence <
      (membershipEvent 2 (some someUuid)).globalSequence := Nat.lt_succ_self 1
  have first : ∀ g ∈ [membershipEvent 1 none, membershipEvent 2 (some someUuid)],
      g.globalSequence < (membershipEvent 2 (some someUuid)).globalSequence →
      g.aggregateType = (membershipEvent 2 (some someUuid)).aggregateType →
      g.aggregateId = (membershipEvent 2 (some someUuid)).aggregateId →
      g.organizationId ≠ (membershipEvent 2 (some someUuid)).organizationId := by
    intro g mem earlier _ _ same
    rcases List.mem_cons.mp mem with rfl | mem
    · cases same
    · rw [List.mem_singleton.mp mem] at earlier
      exact Nat.lt_irrefl _ earlier
  exact overtakes DeliveryLease.threeAttempts committed (List.mem_cons_self ..)
    (List.mem_cons_of_mem _ (List.mem_singleton.mpr rfl)) before rfl rfl first _

end SiliconIam.Webhook.Ordering
