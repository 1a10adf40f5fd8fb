/-
# Sso.Reports -- reports at fresh versions

The outbox takes one event for an aggregate, version and ordinal.  A `Plan` is what a
transaction writes and reports: every report on a configuration or a connection is at
the version that its row has just reached, and a started authorization is a new row.
`Booked` is what the outbox and the rows satisfy between transactions.  A plan on a
booked database reports nothing twice (`Plan.fresh`) and leaves it booked
(`Plan.booked`), so its transaction is not refused by the outbox.
-/
import SiliconIam.Sso.EventEffects

namespace SiliconIam.Sso

open SiliconIam.Theory
open SiliconIam.Theory.Versioned

set_option autoImplicit false

variable {db db' : Database} {tables : Tables} {events : List OutboxEvent}

/-! ## Commits -/

/-- The transaction wrote `tables` and then reported `events`. -/
def Commits (tables : Tables) (events : List OutboxEvent) (db' : Database) : Prop :=
  ∃ stored : Database, stored.toTables = tables ∧ enqueueAll stored events = .ok db'

theorem Commits.written (done : Commits tables events db') :
    db'.toTables = { tables with outbox := db'.outbox } := by
  obtain ⟨stored, rfl, reported⟩ := done
  exact (enqueueAll_spec reported).tables

theorem Commits.outbox (done : Commits tables events db') :
    db'.outbox.rows = events.reverse ++ tables.outbox.rows := by
  obtain ⟨stored, rfl, reported⟩ := done
  exact (enqueueAll_spec reported).outbox

theorem Commits.mem_outbox (done : Commits tables events db') {event : OutboxEvent} :
    event ∈ db'.outbox ↔ event ∈ events ∨ event ∈ tables.outbox := by
  rw [← Table.mem_rows, done.outbox, List.mem_append, List.mem_reverse, Table.mem_rows]

theorem commits_of_fresh (valid : Constraints tables)
    (distinct : (events.map OutboxEvent.identity).Nodup)
    (fresh : ∀ event ∈ events, ∀ old ∈ tables.outbox, old.identity ≠ event.identity) :
    ∃ db', Commits tables events db' := by
  let stored : Database := ⟨tables, valid⟩
  have unreported : ∀ event ∈ events, ∀ old ∈ stored.outbox, old.identity ≠ event.identity := fresh
  obtain ⟨db', reported⟩ := enqueueAll_of_fresh distinct unreported
  exact ⟨db', stored, rfl, reported⟩

/-! ## Plans -/

/-- The reports on one kind of aggregate: id and version. -/
def reportsOn (aggregate : Aggregate) (events : List OutboxEvent) : List (Nat × Nat) :=
  (events.filter fun event => event.aggregate = aggregate).map fun event =>
    (event.aggregateId, event.aggregateVersion)

theorem mem_reportsOn {aggregate : Aggregate} {entry : Nat × Nat} :
    entry ∈ reportsOn aggregate events ↔ ∃ event ∈ events, event.aggregate = aggregate ∧
      (event.aggregateId, event.aggregateVersion) = entry := by
  unfold reportsOn
  rw [List.mem_map]
  constructor
  · rintro ⟨event, selected, rfl⟩
    obtain ⟨listed, same⟩ := List.mem_filter.mp selected
    exact ⟨event, listed, of_decide_eq_true same, rfl⟩
  · rintro ⟨event, listed, same, rfl⟩
    exact ⟨event, List.mem_filter.mpr ⟨listed, decide_eq_true same⟩, rfl⟩

theorem reportsOn_append (aggregate : Aggregate) (first second : List OutboxEvent) :
    reportsOn aggregate (first ++ second) =
      reportsOn aggregate first ++ reportsOn aggregate second := by
  rw [reportsOn, List.filter_append, List.map_append]
  rfl

/-- `reports` are the versions that the rows under `ids` have in the table. -/
def Current {α : Type} {key : α → Nat} (version : α → Nat) (table : Table key)
    (reports : List (Nat × Nat)) : Prop :=
  ∀ entry ∈ reports, ∃ row, table.get? entry.1 = some row ∧ entry.2 = version row

structure Plan (db : Database) (tables : Tables) (events : List OutboxEvent) : Prop where
  outbox : tables.outbox = db.outbox
  ordinals : ∀ event ∈ events, event.eventOrdinal = 1
  kinds : ∀ event ∈ events, event.aggregate ≠ .organizationMembership
  apart : (events.map fun event => (event.aggregate, event.aggregateId)).Nodup
  configs : ∃ changed, Revised Config.version db.configs tables.configs changed ∧
    ((reportsOn .organizationSsoConfig events).map Prod.fst).Sublist changed
  configVersions : Current Config.version tables.configs (reportsOn .organizationSsoConfig events)
  connections : Revised Connection.version db.connections tables.connections
    ((reportsOn .ssoConnection events).map Prod.fst)
  connectionVersions : Current Connection.version tables.connections
    (reportsOn .ssoConnection events)
  started : ∀ entry ∈ reportsOn .ssoAuthorizationTransaction events, entry.2 = 1 ∧
    (∀ old ∈ db.authorizations, old.id ≠ entry.1) ∧ ∃ row ∈ tables.authorizations, row.id = entry.1
  kept : ∀ old ∈ db.authorizations, ∃ row ∈ tables.authorizations, row.id = old.id
  opened : ∀ row ∈ tables.authorizations, (∃ old ∈ db.authorizations, old.id = row.id) ∨
    (row.id, 1) ∈ reportsOn .ssoAuthorizationTransaction events

/-- Between transactions. -/
structure Booked (db : Database) : Prop where
  kinds : ∀ event ∈ db.outbox, event.aggregate ≠ .organizationMembership
  configs : Bounded Config.version (reportsOn .organizationSsoConfig db.outbox.rows) db.configs
  connections : Bounded Connection.version (reportsOn .ssoConnection db.outbox.rows) db.connections
  authorizations : ∀ entry ∈ reportsOn .ssoAuthorizationTransaction db.outbox.rows,
    ∃ row ∈ db.authorizations, row.id = entry.1
  started : ∀ row ∈ db.authorizations,
    ∃ event ∈ db.outbox, event.identity = (.ssoAuthorizationTransaction, row.id, 1, 1)

theorem booked_empty : Booked .empty where
  kinds _ mem := absurd mem List.not_mem_nil
  configs _ mem := absurd mem List.not_mem_nil
  connections _ mem := absurd mem List.not_mem_nil
  authorizations _ mem := absurd mem List.not_mem_nil
  started _ mem := absurd mem List.not_mem_nil

/-- A report of a plan was not made before. -/
theorem Plan.fresh (plan : Plan db tables events) (booked : Booked db) :
    ∀ event ∈ events, ∀ old ∈ tables.outbox, old.identity ≠ event.identity := by
  intro event listed old held same
  rw [plan.outbox] at held
  obtain ⟨kind, id, version, -⟩ : old.aggregate = event.aggregate ∧
      old.aggregateId = event.aggregateId ∧ old.aggregateVersion = event.aggregateVersion ∧
      old.eventOrdinal = event.eventOrdinal := by
    simpa [OutboxEvent.identity] using same
  have before (aggregate : Aggregate) (same : event.aggregate = aggregate) :
      (event.aggregateId, event.aggregateVersion) ∈ reportsOn aggregate db.outbox.rows :=
    mem_reportsOn.mpr ⟨old, held, kind.trans same, by rw [id, version]⟩
  have now (aggregate : Aggregate) (same : event.aggregate = aggregate) :
      (event.aggregateId, event.aggregateVersion) ∈ reportsOn aggregate events :=
    mem_reportsOn.mpr ⟨event, listed, same, rfl⟩
  cases aggregate : event.aggregate with
  | organizationSsoConfig =>
      obtain ⟨changed, revised, reported⟩ := plan.configs
      obtain ⟨row, found, current⟩ := plan.configVersions _ (now _ aggregate)
      have written : event.aggregateId ∈ changed :=
        reported.subset (List.mem_map.mpr ⟨_, now _ aggregate, rfl⟩)
      have unreported := revised.fresh booked.configs written found
      exact unreported (current ▸ before _ aggregate)
  | ssoConnection =>
      obtain ⟨row, found, current⟩ := plan.connectionVersions _ (now _ aggregate)
      have written : event.aggregateId ∈ (reportsOn .ssoConnection events).map Prod.fst :=
        List.mem_map.mpr ⟨_, now _ aggregate, rfl⟩
      have unreported := plan.connections.fresh booked.connections written found
      exact unreported (current ▸ before _ aggregate)
  | ssoAuthorizationTransaction =>
      obtain ⟨row, mem, known⟩ := booked.authorizations _ (before _ aggregate)
      exact (plan.started _ (now _ aggregate)).2.1 row mem known
  | organizationMembership => exact plan.kinds event listed aggregate

theorem Plan.distinct (plan : Plan db tables events) : (events.map OutboxEvent.identity).Nodup := by
  refine List.Nodup.of_map (fun identity : Aggregate × Nat × Nat × Nat =>
    (identity.1, identity.2.1)) ?_
  rw [List.map_map]
  exact plan.apart

/-- A planned transaction whose tables are valid commits. -/
theorem Plan.commits (plan : Plan db tables events) (booked : Booked db)
    (valid : Constraints tables) : ∃ db', Commits tables events db' :=
  commits_of_fresh valid plan.distinct (plan.fresh booked)

theorem reportsOn_reverse {aggregate : Aggregate} {entry : Nat × Nat} :
    entry ∈ reportsOn aggregate events.reverse ↔ entry ∈ reportsOn aggregate events := by
  simp [mem_reportsOn]

theorem bounded_of_mem {α : Type} {key : α → Nat} {version : α → Nat} {table : Table key}
    {log other : List (Nat × Nat)} (bounded : Bounded version log table)
    (listed : ∀ entry ∈ other, entry ∈ log) : Bounded version other table :=
  fun entry mem => bounded entry (listed entry mem)

theorem Plan.booked (plan : Plan db tables events) (booked : Booked db)
    (done : Commits tables events db') : Booked db' := by
  have same := done.written
  have outbox : ∀ event, event ∈ db'.outbox ↔ event ∈ events ∨ event ∈ db.outbox := by
    intro event
    rw [done.mem_outbox, plan.outbox]
  have reported : ∀ aggregate entry, entry ∈ reportsOn aggregate db'.outbox.rows →
      entry ∈ reportsOn aggregate events ++ reportsOn aggregate db.outbox.rows := by
    intro aggregate entry listed
    rw [done.outbox, plan.outbox, reportsOn_append] at listed
    rcases List.mem_append.mp listed with new | old
    · exact List.mem_append_left _ (reportsOn_reverse.mp new)
    · exact List.mem_append_right _ old
  obtain ⟨changed, revised, -⟩ := plan.configs
  refine ⟨?_, ?_, ?_, ?_, ?_⟩
  · intro event mem
    rcases (outbox event).mp mem with new | old
    · exact plan.kinds event new
    · exact booked.kinds event old
  · rw [same]
    exact bounded_of_mem ((booked.configs.revised revised).append plan.configVersions)
      (reported _)
  · rw [same]
    exact bounded_of_mem
      ((booked.connections.revised plan.connections).append plan.connectionVersions) (reported _)
  · intro entry listed
    rw [same]
    rcases List.mem_append.mp (reported _ entry listed) with new | old
    · exact (plan.started entry new).2.2
    · obtain ⟨row, mem, known⟩ := booked.authorizations entry old
      obtain ⟨row', mem', next⟩ := plan.kept row mem
      exact ⟨row', mem', next.trans known⟩
  · intro row mem
    rw [same] at mem
    rcases plan.opened row mem with ⟨old, oldMem, known⟩ | new
    · obtain ⟨event, held, identity⟩ := booked.started old oldMem
      exact ⟨event, (outbox event).mpr (.inr held), known ▸ identity⟩
    · obtain ⟨event, listed, aggregate, entry⟩ := mem_reportsOn.mp new
      refine ⟨event, (outbox event).mpr (.inl listed), ?_⟩
      obtain ⟨id, version⟩ := Prod.mk.inj entry
      rw [OutboxEvent.identity, aggregate, id, version, plan.ordinals event listed]

end SiliconIam.Sso
