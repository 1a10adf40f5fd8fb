/-
# Testing.ImportGraph -- the applications an import takes along

An application names the applications it depends on in the `external` list of its
scope.  Importing one into a testing environment imports all it leads to: `loadWithPins`
expands a set of pending ids round by round, with one production query a round.  An
environment that has imported an application before keeps the snapshot it accepted; such
a pin is used in place of the production row unless a refresh of it is asked for.

`round` is one turn of the loop and `round_ok`, `round_error` say what it does; `loop`
is bounded by fuel, and how much it needs is settled in `Testing.ImportClosure`.  What a
run asked production for, and what it took from the pins, is logged beside the graph; the
code keeps no such log.

The other columns of an application are carried along as `ρ`.  The production query is
read at one state of the database.
-/
import Mathlib.Data.List.Perm.Subperm
import Mathlib.Tactic.Linarith
import SiliconIam.Theory.Fallible
import SiliconIam.Theory.Keyed
import SiliconIam.Theory.Serde

namespace SiliconIam.Testing.ImportGraph

open SiliconIam.Theory
open SiliconIam.Theory.Serde (Json)

set_option autoImplicit false

inductive AppError where
  | conflict (code : String)
  | internal (category : String)
  deriving DecidableEq, Repr

/-- An application as the import query answers it, or as a snapshot stores it. -/
structure ProductionApplication (ρ : Type) where
  appId : String
  appScope : Json
  rest : ρ

variable {ρ : Type}

/-- `BTreeSet<String>`. -/
abbrev AppIds := Std.TreeSet String compare

/-- `BTreeMap<String, ProductionApplication>`. -/
abbrev Graph (ρ : Type) := Std.TreeMap String (ProductionApplication ρ) compare

/-! ## Production and pins -/

/-- The rows that can be imported; `applications` has one row for an id. -/
structure Production (ρ : Type) where
  rows : List (ProductionApplication ρ)
  unique : (rows.map ProductionApplication.appId).Nodup

namespace Production

/-- `iam_private.get_testing_application_import_v2`. -/
def getTestingApplicationImport (production : Production ρ) (appIds : List String) :
    List (ProductionApplication ρ) :=
  production.rows.filter fun row => row.appId ∈ appIds

/-- The row of an id. -/
def find (production : Production ρ) (id : String) : Option (ProductionApplication ρ) :=
  Keyed.get ProductionApplication.appId production.rows id

theorem find_eq_some {production : Production ρ} {id : String} {row : ProductionApplication ρ} :
    production.find id = some row ↔ row ∈ production.rows ∧ row.appId = id := by
  constructor
  · intro found
    exact ⟨Keyed.mem_of_get found, Keyed.key_of_get found⟩
  · rintro ⟨mem, rfl⟩
    apply Keyed.get_of_unique mem
    intro other held named
    exact List.inj_on_of_nodup_map production.unique held mem named

theorem find_eq_none {production : Production ρ} {id : String} :
    production.find id = none ↔ id ∉ production.rows.map ProductionApplication.appId := by
  rw [find, Keyed.get_eq_none]
  constructor
  · intro absent mem
    obtain ⟨row, held, same⟩ := List.mem_map.mp mem
    exact absent row held same
  · intro absent row held same
    exact absent (List.mem_map.mpr ⟨row, held, same⟩)

/-- The query answers one row for every id exactly if it has a row for each. -/
theorem length_eq_iff (production : Production ρ) {appIds : List String} (nodup : appIds.Nodup) :
    (production.getTestingApplicationImport appIds).length = appIds.length ↔
      ∀ id ∈ appIds, production.find id ≠ none := by
  have named : ((production.getTestingApplicationImport appIds).map
      ProductionApplication.appId).Nodup :=
    production.unique.sublist (List.filter_sublist.map _)
  have inside : (production.getTestingApplicationImport appIds).map
      ProductionApplication.appId ⊆ appIds := by
    intro id mem
    obtain ⟨row, answered, rfl⟩ := List.mem_map.mp mem
    simpa using (List.mem_filter.mp answered).2
  have sub := List.subperm_of_subset named inside
  constructor
  · intro same id asked absent
    have perm := sub.perm_of_length_le (by rw [List.length_map, same])
    obtain ⟨row, answered, rfl⟩ := List.mem_map.mp (perm.mem_iff.mpr asked)
    have held : row ∈ production.rows := (List.mem_filter.mp answered).1
    exact find_eq_none.mp absent (List.mem_map_of_mem held)
  · intro available
    have back : appIds ⊆ (production.getTestingApplicationImport appIds).map
        ProductionApplication.appId := by
      intro id asked
      obtain ⟨row, found⟩ := Option.ne_none_iff_exists'.mp (available id asked)
      obtain ⟨held, same⟩ := find_eq_some.mp found
      apply List.mem_map.mpr
      refine ⟨row, List.mem_filter.mpr ⟨held, ?_⟩, same⟩
      simpa [same] using asked
    have most := (List.subperm_of_subset nodup back).length_le
    have least := sub.length_le
    rw [List.length_map] at most least
    omega

end Production

/-- The snapshots an environment has accepted, under their own ids. -/
structure Pins (ρ : Type) where
  map : Graph ρ
  keyed : ∀ (id : String) (source : ProductionApplication ρ), map[id]? = some source →
    source.appId = id

namespace Pins

/-- No pins. -/
def empty : Pins ρ where
  map := ∅
  keyed := by
    intro id source found
    simp at found

def insert (pins : Pins ρ) (snapshot : ProductionApplication ρ) : Pins ρ where
  map := pins.map.insert snapshot.appId snapshot
  keyed := by
    intro id source found
    rw [Std.TreeMap.getElem?_insert] at found
    split at found
    · rename_i same
      have named : snapshot.appId = id := by simpa using same
      cases found
      exact named
    · exact pins.keyed id source found

/-- The pins of an environment, collected from its stored snapshots. -/
def collect (snapshots : List (ProductionApplication ρ)) : Pins ρ :=
  snapshots.foldl insert empty

end Pins

/-! ## Dependencies -/

/-- The applications a scope names. -/
def dependencies (scope : Json) : Except AppError AppIds :=
  match (scope.get "external").bind Json.asArray with
  | none => .error (.internal "testing_dependency_scope")
  | some external => do
      let names ← external.mapM fun entry =>
        Fallible.orElse ((entry.get "app_id").bind Json.asString)
          (AppError.internal "testing_dependency_scope")
      return Std.TreeSet.ofList names compare

/-! ## One round -/

/-- The graph so far and the ids of the next round. -/
structure Progress (ρ : Type) where
  graph : Graph ρ
  pending : AppIds

/-- A dependency that is neither loaded nor being loaded waits for the next round. -/
def discover (graph : Graph ρ) (requested : AppIds) (pending : AppIds) (dependency : String) :
    AppIds :=
  if !graph.contains dependency && !requested.contains dependency then
    pending.insert dependency
  else pending

/-- The loop over the sources of a round. -/
def expand (requested : AppIds) :
    List (ProductionApplication ρ) → Progress ρ → Except AppError (Progress ρ)
  | [], progress => .ok progress
  | source :: sources, progress => do
      let found ← dependencies source.appScope
      expand requested sources
        { graph := progress.graph.insert source.appId source
          pending := found.toList.foldl (discover progress.graph requested) progress.pending }

/-- An id whose pin is used: it has one and is not being refreshed. -/
def isPinned (pins : Pins ρ) (refresh : AppIds) (id : String) : Bool :=
  pins.map.contains id && !refresh.contains id

/-- The ids of a round that production is asked for. -/
def fromProduction (pins : Pins ρ) (refresh requested : AppIds) : List String :=
  requested.toList.filter fun id => !pins.map.contains id || refresh.contains id

/-- The ids of a round whose pins are used. -/
def fromPins (pins : Pins ρ) (refresh requested : AppIds) : List String :=
  requested.toList.filter (isPinned pins refresh)

/-- The pins of a round. -/
def pinnedSources (pins : Pins ρ) (refresh requested : AppIds) : List (ProductionApplication ρ) :=
  (fromPins pins refresh requested).filterMap fun id => pins.map[id]?

def round (production : Production ρ) (pins : Pins ρ) (refresh : AppIds) (graph : Graph ρ)
    (requested : AppIds) : Except AppError (Progress ρ) := do
  let asked := fromProduction pins refresh requested
  let sources := production.getTestingApplicationImport asked
  Fallible.require (sources.length = asked.length)
    (AppError.conflict "testing_dependency_unavailable")
  expand requested (sources ++ pinnedSources pins refresh requested)
    { graph := graph, pending := ∅ }

/-! ## The loop -/

/-- What a run has taken so far, in the order of its rounds. -/
structure Taken where
  fetched : List String
  pinned : List String
  deriving DecidableEq, Repr

def Taken.none : Taken := { fetched := [], pinned := [] }

def Taken.add (taken : Taken) (pins : Pins ρ) (refresh requested : AppIds) : Taken :=
  { fetched := taken.fetched ++ fromProduction pins refresh requested
    pinned := taken.pinned ++ fromPins pins refresh requested }

/-- How a run ended, with what it took. -/
structure Loaded (ρ : Type) where
  taken : Taken
  answer : Except AppError (Graph ρ)

def loop (production : Production ρ) (pins : Pins ρ) (refresh : AppIds) :
    Nat → Graph ρ → AppIds → Taken → Option (Loaded ρ)
  | 0, _, _, _ => none
  | fuel + 1, graph, pending, taken =>
      if pending.isEmpty then some { taken := taken, answer := .ok graph }
      else
        let taken := taken.add pins refresh pending
        match round production pins refresh graph pending with
        | .error error => some { taken := taken, answer := .error error }
        | .ok progress => loop production pins refresh fuel progress.graph progress.pending taken

def loadWithPins (production : Production ρ) (root : String) (pins : Pins ρ) (refresh : AppIds)
    (fuel : Nat) : Option (Loaded ρ) :=
  loop production pins refresh fuel ∅ ((∅ : AppIds).insert root) .none

/-- `load`: nothing pinned. -/
def load (production : Production ρ) (root : String) (fuel : Nat) : Option (Loaded ρ) :=
  loadWithPins production root .empty ∅ fuel

end SiliconIam.Testing.ImportGraph
