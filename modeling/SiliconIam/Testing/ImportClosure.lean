/-
# Testing.ImportClosure -- what an import takes along

Which snapshot an application is taken from decides which applications it leads to, so
the graph of an import is that of the snapshots in use: `chosen` is the pin of an id that
has one and is not being refreshed and otherwise its production row, and `Leads` follows
the scopes of the chosen snapshots.

`round_ok` and `round_error` say what one turn of the loop does to a frontier.  `Inv` adds
to the search of `Theory.Frontier` that the graph holds the chosen snapshot of every
application taken so far; every round keeps it (`Inv.advance`), and a run ends after as
many rounds as the snapshots name applications (`loop_ends`).
-/
import SiliconIam.Theory.Frontier
import SiliconIam.Testing.ImportGraph

namespace SiliconIam.Testing.ImportGraph

open SiliconIam.Theory
open SiliconIam.Theory.Frontier (Reached Search)
open SiliconIam.Theory.Fallible (bind_ok require_ok)

set_option autoImplicit false

variable {ρ : Type} {production : Production ρ} {pins : Pins ρ} {refresh requested : AppIds}
  {root id : String} {graph : Graph ρ} {source : ProductionApplication ρ}

/-! ## The graph of the chosen snapshots -/

/-- The snapshot that counts for an application: its pin, unless it has none or is being
refreshed. -/
def chosen (production : Production ρ) (pins : Pins ρ) (refresh : AppIds) (id : String) :
    Option (ProductionApplication ρ) :=
  if isPinned pins refresh id then pins.map[id]? else production.find id

/-- The chosen snapshot of one application names the other. -/
def Leads (production : Production ρ) (pins : Pins ρ) (refresh : AppIds)
    (id dependency : String) : Prop :=
  ∃ source found, chosen production pins refresh id = some source ∧
    dependencies source.appScope = .ok found ∧ dependency ∈ found

/-- An application that needs a live source and has none. -/
def Unavailable (production : Production ρ) (pins : Pins ρ) (refresh : AppIds) (id : String) :
    Prop :=
  isPinned pins refresh id = false ∧ production.find id = none

/-- The scope of the chosen snapshot is no list of applications. -/
def Malformed (production : Production ρ) (pins : Pins ρ) (refresh : AppIds) (id : String) :
    Prop :=
  ∃ source error, chosen production pins refresh id = some source ∧
    dependencies source.appScope = .error error

theorem isPinned_eq_true :
    isPinned pins refresh id = true ↔ id ∈ pins.map ∧ id ∉ refresh := by
  rw [isPinned, Bool.and_eq_true, Std.TreeMap.contains_iff_mem, Bool.not_eq_true',
    ← Bool.not_eq_true, Std.TreeSet.contains_iff_mem]

theorem chosen_appId (found : chosen production pins refresh id = some source) :
    source.appId = id := by
  unfold chosen at found
  split at found
  · exact pins.keyed id source found
  · exact (Production.find_eq_some.mp found).2

/-- Only a live source can be missing. -/
theorem chosen_eq_none :
    chosen production pins refresh id = none ↔ Unavailable production pins refresh id := by
  unfold chosen Unavailable
  by_cases pinned : isPinned pins refresh id = true
  · have held : id ∈ pins.map := (isPinned_eq_true.mp pinned).1
    obtain ⟨source, found⟩ := Option.isSome_iff_exists.mp
      (Std.TreeMap.mem_iff_isSome_getElem?.mp held)
    simp [pinned, found]
  · simp [pinned]

/-! ## One round -/

theorem mem_discover {pending : AppIds} {dependency next : String} :
    next ∈ discover graph requested pending dependency ↔
      next ∈ pending ∨ (next = dependency ∧ next ∉ graph ∧ next ∉ requested) := by
  unfold discover
  split
  · rename_i new
    have fresh : dependency ∉ graph ∧ dependency ∉ requested := by
      rw [Bool.and_eq_true, Bool.not_eq_true', Bool.not_eq_true', ← Bool.not_eq_true,
        ← Bool.not_eq_true, Std.TreeMap.contains_iff_mem, Std.TreeSet.contains_iff_mem] at new
      exact new
    rw [Std.TreeSet.mem_insert]
    constructor
    · rintro (same | old)
      · have named : dependency = next := by simpa using same
        subst named
        exact .inr ⟨rfl, fresh⟩
      · exact .inl old
    · rintro (old | ⟨rfl, -⟩)
      · exact .inr old
      · exact .inl (by simp)
  · rename_i known
    constructor
    · exact .inl
    · rintro (old | ⟨rfl, fresh, asked⟩)
      · exact old
      · exfalso
        apply known
        rw [← Std.TreeMap.contains_iff_mem, Bool.not_eq_true] at fresh
        rw [← Std.TreeSet.contains_iff_mem, Bool.not_eq_true] at asked
        simp [fresh, asked]

theorem mem_foldl_discover {names : List String} {pending : AppIds} {next : String} :
    next ∈ names.foldl (discover graph requested) pending ↔
      next ∈ pending ∨ (next ∈ names ∧ next ∉ graph ∧ next ∉ requested) := by
  induction names generalizing pending with
  | nil => simp
  | cons name names ih =>
      rw [List.foldl_cons, ih, mem_discover, List.mem_cons]
      tauto

/-- The round loads its sources and finds what they name and is not known yet. -/
theorem expand_ok {sources : List (ProductionApplication ρ)} {progress after : Progress ρ}
    (done : expand requested sources progress = .ok after)
    (unique : (sources.map ProductionApplication.appId).Nodup)
    (asked : ∀ source ∈ sources, source.appId ∈ requested) :
    (∀ source ∈ sources, ∃ found, dependencies source.appScope = .ok found) ∧
    (∀ (id : String) (source : ProductionApplication ρ), after.graph[id]? = some source ↔
      (source ∈ sources ∧ source.appId = id) ∨
        (id ∉ sources.map ProductionApplication.appId ∧ progress.graph[id]? = some source)) ∧
    (∀ next : String, next ∈ after.pending ↔ next ∈ progress.pending ∨
      (next ∉ progress.graph ∧ next ∉ requested ∧ ∃ source ∈ sources, ∃ found,
        dependencies source.appScope = .ok found ∧ next ∈ found)) := by
  induction sources generalizing progress with
  | nil =>
      cases done
      simp
  | cons source sources ih =>
      obtain ⟨found, reads, rest⟩ := bind_ok.mp done
      obtain ⟨other, unique⟩ := List.nodup_cons.mp unique
      obtain ⟨readable, graphs, waits⟩ := ih rest unique fun later mem =>
        asked later (List.mem_cons_of_mem source mem)
      have here : source.appId ∈ requested := asked source List.mem_cons_self
      refine ⟨?_, ?_, ?_⟩
      · intro later mem
        rcases List.mem_cons.mp mem with rfl | mem
        · exact ⟨found, reads⟩
        · exact readable later mem
      · intro id held
        rw [graphs, Std.TreeMap.getElem?_insert]
        by_cases same : source.appId = id
        · subst same
          rw [if_pos Std.ReflCmp.compare_self]
          simp only [List.map_cons, List.mem_cons]
          constructor
          · rintro (⟨mem, named⟩ | ⟨-, same⟩)
            · exact absurd (named ▸ List.mem_map_of_mem mem) other
            · cases same
              exact .inl ⟨.inl rfl, rfl⟩
          · rintro (⟨rfl | mem, named⟩ | ⟨absent, -⟩)
            · exact .inr ⟨other, rfl⟩
            · exact absurd (named ▸ List.mem_map_of_mem mem) other
            · exact absurd (.inl trivial) absent
        · have apart : compare source.appId id ≠ .eq := by simpa using same
          have apart' : id ≠ source.appId := fun h => same h.symm
          rw [if_neg apart]
          simp only [List.map_cons, List.mem_cons, apart', false_or]
          constructor
          · rintro (⟨mem, named⟩ | old)
            · exact .inl ⟨.inr mem, named⟩
            · exact .inr old
          · rintro (⟨rfl | mem, named⟩ | old)
            · exact absurd named same
            · exact .inl ⟨mem, named⟩
            · exact .inr old
      · intro next
        rw [waits, mem_foldl_discover, Std.TreeSet.mem_toList, Std.TreeMap.mem_insert]
        have named : compare source.appId next = .eq ↔ source.appId = next := by simp
        rw [named]
        constructor
        · rintro ((old | ⟨mem, fresh, unasked⟩) | ⟨fresh, unasked, later, mem, names⟩)
          · exact .inl old
          · exact .inr ⟨fresh, unasked, source, List.mem_cons_self, found, reads, mem⟩
          · exact .inr ⟨fun known => fresh (.inr known), unasked, later,
              List.mem_cons_of_mem source mem, names⟩
        · rintro (old | ⟨fresh, unasked, later, mem, names⟩)
          · exact .inl (.inl old)
          · rcases List.mem_cons.mp mem with rfl | mem
            · obtain ⟨found', reads', named⟩ := names
              cases reads.symm.trans reads'
              exact .inl (.inr ⟨named, fresh, unasked⟩)
            · refine .inr ⟨?_, unasked, later, mem, names⟩
              rintro (same | known)
              · exact unasked (same ▸ here)
              · exact fresh known

/-- A round fails in the loop exactly at a source whose scope cannot be read. -/
theorem expand_error {sources : List (ProductionApplication ρ)} {progress : Progress ρ} :
    (∃ error, expand requested sources progress = .error error) ↔
      ∃ source ∈ sources, ∃ error, dependencies source.appScope = .error error := by
  induction sources generalizing progress with
  | nil => simp [expand]
  | cons source sources ih =>
      cases reads : dependencies source.appScope with
      | error error =>
          constructor
          · intro _
            exact ⟨source, List.mem_cons_self, error, reads⟩
          · intro _
            refine ⟨error, ?_⟩
            rw [expand, reads]
            rfl
      | ok found =>
          rw [expand, reads]
          refine ih.trans ?_
          simp [reads]

theorem fromProduction_eq :
    fromProduction pins refresh requested =
      requested.toList.filter fun id => !isPinned pins refresh id := by
  apply List.filter_congr
  intro id _
  simp [isPinned]

theorem mem_fromProduction :
    id ∈ fromProduction pins refresh requested ↔
      id ∈ requested ∧ isPinned pins refresh id = false := by
  rw [fromProduction_eq, List.mem_filter, Std.TreeSet.mem_toList, Bool.not_eq_true']

theorem mem_fromPins :
    id ∈ fromPins pins refresh requested ↔ id ∈ requested ∧ isPinned pins refresh id = true := by
  rw [fromPins, List.mem_filter, Std.TreeSet.mem_toList]

/-- The snapshots of a round are the chosen ones of the ids it is for. -/
theorem mem_sources :
    source ∈ production.getTestingApplicationImport (fromProduction pins refresh requested) ++
        pinnedSources pins refresh requested ↔
      ∃ id ∈ requested, chosen production pins refresh id = some source := by
  rw [List.mem_append, pinnedSources, List.mem_filterMap]
  constructor
  · rintro (answered | ⟨id, taken, found⟩)
    · obtain ⟨held, asked⟩ := List.mem_filter.mp answered
      obtain ⟨waiting, unpinned⟩ := mem_fromProduction.mp (of_decide_eq_true asked)
      refine ⟨source.appId, waiting, ?_⟩
      rw [chosen, unpinned]
      exact Production.find_eq_some.mpr ⟨held, rfl⟩
    · obtain ⟨waiting, pinned⟩ := mem_fromPins.mp taken
      refine ⟨id, waiting, ?_⟩
      rw [chosen, pinned]
      exact found
  · rintro ⟨id, waiting, found⟩
    by_cases pinned : isPinned pins refresh id = true
    · rw [chosen, if_pos pinned] at found
      exact .inr ⟨id, mem_fromPins.mpr ⟨waiting, pinned⟩, found⟩
    · rw [chosen, if_neg pinned] at found
      obtain ⟨held, same⟩ := Production.find_eq_some.mp found
      refine .inl (List.mem_filter.mpr ⟨held, decide_eq_true ?_⟩)
      rw [same]
      exact mem_fromProduction.mpr ⟨waiting, Bool.not_eq_true _ ▸ pinned⟩

theorem nodup_toList (ids : AppIds) : ids.toList.Nodup := by
  have apart := Std.TreeSet.distinct_toList (t := ids)
  refine apart.imp ?_
  intro a b differ same
  exact differ (by simp [same])

theorem toList_empty : (∅ : AppIds).toList = [] := by
  rw [← List.isEmpty_iff, Std.TreeSet.isEmpty_toList, Std.TreeSet.isEmpty_emptyc]

theorem sources_unique :
    ((production.getTestingApplicationImport (fromProduction pins refresh requested) ++
        pinnedSources pins refresh requested).map ProductionApplication.appId).Nodup := by
  rw [List.map_append]
  apply List.Nodup.append
  · exact production.unique.sublist (List.filter_sublist.map _)
  · have pinned : ((pinnedSources pins refresh requested).map ProductionApplication.appId).Sublist
        (fromPins pins refresh requested) := Keyed.map_filterMap_sublist pins.keyed _
    exact ((nodup_toList requested).sublist List.filter_sublist).sublist pinned
  · intro id live pinned
    obtain ⟨row, answered, rfl⟩ := List.mem_map.mp live
    have asked := of_decide_eq_true (List.mem_filter.mp answered).2
    obtain ⟨source, taken, same⟩ := List.mem_map.mp pinned
    obtain ⟨other, uses, found⟩ := List.mem_filterMap.mp taken
    have named : other = row.appId := (pins.keyed other source found).symm.trans same
    have unpinned := (mem_fromProduction.mp asked).2
    have uses := (mem_fromPins.mp uses).2
    rw [named, unpinned] at uses
    cases uses

/-- Production has a row for every id asked for exactly if none of the round is missing. -/
theorem answered_iff :
    (production.getTestingApplicationImport (fromProduction pins refresh requested)).length =
        (fromProduction pins refresh requested).length ↔
      ∀ id ∈ requested, ¬Unavailable production pins refresh id := by
  have nodup : (fromProduction pins refresh requested).Nodup :=
    (nodup_toList requested).sublist List.filter_sublist
  rw [Production.length_eq_iff production nodup]
  constructor
  · rintro available id waiting ⟨unpinned, absent⟩
    exact available id (mem_fromProduction.mpr ⟨waiting, unpinned⟩) absent
  · intro available id asked absent
    obtain ⟨waiting, unpinned⟩ := mem_fromProduction.mp asked
    exact available id waiting ⟨unpinned, absent⟩

/-- A round that succeeds takes the chosen snapshots of its ids, and the ids it finds are
those they name that are neither loaded nor of the round itself. -/
theorem round_ok {after : Progress ρ}
    (done : round production pins refresh graph requested = .ok after) :
    (∀ id ∈ requested, ∃ source found, chosen production pins refresh id = some source ∧
      dependencies source.appScope = .ok found) ∧
    (∀ (id : String) (source : ProductionApplication ρ), after.graph[id]? = some source ↔
      (id ∈ requested ∧ chosen production pins refresh id = some source) ∨
        (id ∉ requested ∧ graph[id]? = some source)) ∧
    (∀ next : String, next ∈ after.pending ↔ next ∉ graph ∧ next ∉ requested ∧
      ∃ id ∈ requested, Leads production pins refresh id next) := by
  obtain ⟨u, answered, rest⟩ := bind_ok.mp done
  have available := answered_iff.mp (require_ok.mp answered)
  obtain ⟨readable, graphs, waits⟩ := expand_ok rest sources_unique fun source mem => by
    obtain ⟨id, waiting, found⟩ := mem_sources.mp mem
    exact chosen_appId found ▸ waiting
  have taken : ∀ id ∈ requested, ∃ source, chosen production pins refresh id = some source := by
    intro id waiting
    apply Option.ne_none_iff_exists'.mp
    intro absent
    exact available id waiting (chosen_eq_none.mp absent)
  refine ⟨?_, ?_, ?_⟩
  · intro id waiting
    obtain ⟨source, found⟩ := taken id waiting
    obtain ⟨names, reads⟩ := readable source (mem_sources.mpr ⟨id, waiting, found⟩)
    exact ⟨source, names, found, reads⟩
  · intro id source
    rw [graphs]
    constructor
    · rintro (⟨mem, rfl⟩ | ⟨absent, old⟩)
      · obtain ⟨id, waiting, found⟩ := mem_sources.mp mem
        rw [chosen_appId found]
        exact .inl ⟨waiting, found⟩
      · refine .inr ⟨?_, old⟩
        intro waiting
        obtain ⟨source, found⟩ := taken id waiting
        exact absent (List.mem_map.mpr ⟨source, mem_sources.mpr ⟨id, waiting, found⟩,
          chosen_appId found⟩)
    · rintro (⟨waiting, found⟩ | ⟨other, old⟩)
      · exact .inl ⟨mem_sources.mpr ⟨id, waiting, found⟩, chosen_appId found⟩
      · refine .inr ⟨?_, old⟩
        intro mem
        obtain ⟨row, taking, rfl⟩ := List.mem_map.mp mem
        obtain ⟨id, waiting, found⟩ := mem_sources.mp taking
        exact other (chosen_appId found ▸ waiting)
  · intro next
    rw [waits]
    constructor
    · rintro (none_ | ⟨fresh, unasked, source, mem, found, reads, named⟩)
      · simp at none_
      · obtain ⟨id, waiting, same⟩ := mem_sources.mp mem
        exact ⟨fresh, unasked, id, waiting, source, found, same, reads, named⟩
    · rintro ⟨fresh, unasked, id, waiting, source, found, same, reads, named⟩
      exact .inr ⟨fresh, unasked, source, mem_sources.mpr ⟨id, waiting, same⟩, found, reads, named⟩

/-- A round fails exactly at an id without a live source or with a scope that cannot be
read. -/
theorem round_error :
    (∃ error, round production pins refresh graph requested = .error error) ↔
      ∃ id ∈ requested, Unavailable production pins refresh id ∨
        Malformed production pins refresh id := by
  by_cases available : ∀ id ∈ requested, ¬Unavailable production pins refresh id
  · have passes : round production pins refresh graph requested =
        expand requested
          (production.getTestingApplicationImport (fromProduction pins refresh requested) ++
            pinnedSources pins refresh requested) { graph := graph, pending := ∅ } := by
      rw [round, Fallible.require, if_pos (answered_iff.mpr available)]
      rfl
    rw [passes, expand_error]
    constructor
    · rintro ⟨source, mem, error, reads⟩
      obtain ⟨id, waiting, found⟩ := mem_sources.mp mem
      exact ⟨id, waiting, .inr ⟨source, error, found, reads⟩⟩
    · rintro ⟨id, waiting, missing | ⟨source, error, found, reads⟩⟩
      · exact absurd missing (available id waiting)
      · exact ⟨source, mem_sources.mpr ⟨id, waiting, found⟩, error, reads⟩
  · have refuses : round production pins refresh graph requested =
        .error (.conflict "testing_dependency_unavailable") := by
      rw [round, Fallible.require, if_neg (mt answered_iff.mp available)]
      rfl
    rw [refuses]
    push Not at available
    obtain ⟨id, waiting, missing⟩ := available
    constructor
    · intro _
      exact ⟨id, waiting, .inl missing⟩
    · intro _
      exact ⟨_, rfl⟩

/-! ## The run -/

/-- Everything a run has taken, fetched or pinned. -/
def Taken.all (taken : Taken) : List String := taken.fetched ++ taken.pinned

/-- What holds when a round begins: the ids taken and pending are a search of the graph
of chosen snapshots, and the graph holds the chosen snapshot of every id taken. -/
structure Inv (production : Production ρ) (pins : Pins ρ) (refresh : AppIds) (root : String)
    (graph : Graph ρ) (pending : AppIds) (taken : Taken) : Prop where
  search : Search (Leads production pins refresh) root taken.all pending.toList
  fetched : ∀ id ∈ taken.fetched, isPinned pins refresh id = false
  pinned : ∀ id ∈ taken.pinned, isPinned pins refresh id = true
  sound : ∀ id ∈ taken.all, ∃ source found, chosen production pins refresh id = some source ∧
    dependencies source.appScope = .ok found
  held : ∀ (id : String) (source : ProductionApplication ρ), graph[id]? = some source ↔
    id ∈ taken.all ∧ chosen production pins refresh id = some source

variable {taken : Taken}

theorem Taken.all_add (taken : Taken) :
    ((taken.add pins refresh requested).all).Perm (taken.all ++ requested.toList) := by
  have whole : (fromProduction pins refresh requested ++ fromPins pins refresh requested).Perm
      requested.toList := by
    rw [fromProduction_eq]
    exact List.perm_append_comm.trans (List.filter_append_perm _ _)
  have middle := (@List.perm_append_comm _ taken.pinned
    (fromProduction pins refresh requested)).append_right (fromPins pins refresh requested)
  have swapped : ((taken.add pins refresh requested).all).Perm (taken.all ++
      (fromProduction pins refresh requested ++ fromPins pins refresh requested)) := by
    have moved := middle.symm.append_left taken.fetched
    simpa [Taken.all, Taken.add, List.append_assoc] using moved
  exact swapped.trans (whole.append_left taken.all)

theorem Inv.start :
    Inv production pins refresh root ∅ ((∅ : AppIds).insert root) .none where
  search := by
    apply Search.start.congr (List.Perm.refl [])
    apply (List.perm_ext_iff_of_nodup (by simp) (nodup_toList _)).mpr
    intro id
    simp [eq_comm (a := id)]
  fetched := by
    intro id mem
    cases mem
  pinned := by
    intro id mem
    cases mem
  sound := by
    intro id mem
    cases mem
  held := by
    intro id source
    simp [Taken.all, Taken.none]

theorem Inv.mem_graph (inv : Inv production pins refresh root graph requested taken) :
    id ∈ graph ↔ id ∈ taken.all := by
  rw [Std.TreeMap.mem_iff_isSome_getElem?, Option.isSome_iff_exists]
  constructor
  · rintro ⟨source, found⟩
    exact ((inv.held id source).mp found).1
  · intro mem
    obtain ⟨source, found, used, reads⟩ := inv.sound id mem
    exact ⟨source, (inv.held id source).mpr ⟨mem, used⟩⟩

/-- A round that succeeds keeps it. -/
theorem Inv.advance {after : Progress ρ}
    (inv : Inv production pins refresh root graph requested taken)
    (done : round production pins refresh graph requested = .ok after) :
    Inv production pins refresh root after.graph after.pending
      (taken.add pins refresh requested) := by
  obtain ⟨sound, held, waits⟩ := round_ok done
  have all : ∀ id, id ∈ (taken.add pins refresh requested).all ↔
      id ∈ taken.all ∨ id ∈ requested := by
    intro id
    rw [taken.all_add.mem_iff, List.mem_append, Std.TreeSet.mem_toList]
  constructor
  · have next : Search (Leads production pins refresh) root (taken.all ++ requested.toList)
        after.pending.toList := by
      apply inv.search.advance (nodup_toList after.pending)
      intro next
      rw [Std.TreeSet.mem_toList, waits, inv.mem_graph, List.mem_append, Std.TreeSet.mem_toList]
      simp only [Std.TreeSet.mem_toList, not_or, and_assoc]
    exact next.congr taken.all_add.symm (List.Perm.refl _)
  · intro id mem
    rcases List.mem_append.mp mem with old | new
    · exact inv.fetched id old
    · exact (mem_fromProduction.mp new).2
  · intro id mem
    rcases List.mem_append.mp mem with old | new
    · exact inv.pinned id old
    · exact (mem_fromPins.mp new).2
  · intro id mem
    rcases (all id).mp mem with old | new
    · exact inv.sound id old
    · exact sound id new
  · intro id source
    rw [held, all, inv.held]
    by_cases waiting : id ∈ requested
    · simp [waiting]
    · simp [waiting]

/-- What an ended run has taken and answered. -/
structure Ended (production : Production ρ) (pins : Pins ρ) (refresh : AppIds) (root : String)
    (loaded : Loaded ρ) : Prop where
  once : loaded.taken.all.Nodup
  reached : ∀ id ∈ loaded.taken.all, Reached (Leads production pins refresh) root id
  fetched : ∀ id ∈ loaded.taken.fetched, isPinned pins refresh id = false
  pinned : ∀ id ∈ loaded.taken.pinned, isPinned pins refresh id = true
  answered : ∀ graph, loaded.answer = .ok graph →
    Inv production pins refresh root graph ∅ loaded.taken
  failed : ∀ error, loaded.answer = .error error → ∃ id,
    Reached (Leads production pins refresh) root id ∧
      (Unavailable production pins refresh id ∨ Malformed production pins refresh id)

theorem Inv.all_iff (inv : Inv production pins refresh root graph ∅ taken) (id : String) :
    id ∈ taken.all ↔ Reached (Leads production pins refresh) root id := by
  have search : Search (Leads production pins refresh) root taken.all [] := by
    exact toList_empty ▸ inv.search
  exact search.complete id

/-- With nothing pending the run ends with its graph. -/
theorem Inv.ended (inv : Inv production pins refresh root graph requested taken)
    (done : requested.isEmpty = true) :
    Ended production pins refresh root { taken := taken, answer := .ok graph } := by
  have none_ : requested.toList = [] := by
    rw [← List.isEmpty_iff, Std.TreeSet.isEmpty_toList, done]
  have search : Search (Leads production pins refresh) root taken.all [] := none_ ▸ inv.search
  refine ⟨?_, ?_, inv.fetched, inv.pinned, ?_, ?_⟩
  · simpa using search.distinct
  · intro id mem
    exact (search.complete id).mp mem
  · intro graph answered
    cases answered
    exact { inv with search := toList_empty.symm ▸ search }
  · intro error answered
    cases answered

/-- A round that fails ends the run. -/
theorem Inv.stopped {error : AppError}
    (inv : Inv production pins refresh root graph requested taken)
    (failed : round production pins refresh graph requested = .error error) :
    Ended production pins refresh root
      { taken := taken.add pins refresh requested, answer := .error error } := by
  have all := @Taken.all_add _ pins refresh requested taken
  refine ⟨?_, ?_, ?_, ?_, ?_, ?_⟩
  · exact all.nodup_iff.mpr inv.search.distinct
  · intro id mem
    exact inv.search.reached id (all.mem_iff.mp mem)
  · intro id mem
    rcases List.mem_append.mp mem with old | new
    · exact inv.fetched id old
    · exact (mem_fromProduction.mp new).2
  · intro id mem
    rcases List.mem_append.mp mem with old | new
    · exact inv.pinned id old
    · exact (mem_fromPins.mp new).2
  · intro graph answered
    cases answered
  · intro _ _
    obtain ⟨id, waiting, wrong⟩ := round_error.mp ⟨error, failed⟩
    have mem : id ∈ taken.all ++ requested.toList :=
      List.mem_append_right _ (Std.TreeSet.mem_toList.mpr waiting)
    exact ⟨id, inv.search.reached id mem, wrong⟩

/-- The ids a run can come to: its root and what the snapshots at hand name. -/
def known (production : Production ρ) (pins : Pins ρ) (root : String) : List String :=
  root :: (production.rows ++ pins.map.toList.map Prod.snd).flatMap fun source =>
    match dependencies source.appScope with
    | .ok found => found.toList
    | .error _ => []

theorem mem_known (reached : Reached (Leads production pins refresh) root id) :
    id ∈ known production pins root := by
  cases reached with
  | refl => exact List.mem_cons_self
  | tail before leads =>
      obtain ⟨source, found, used, reads, named⟩ := leads
      apply List.mem_cons_of_mem
      apply List.mem_flatMap.mpr
      refine ⟨source, ?_, ?_⟩
      · unfold chosen at used
        split at used
        · apply List.mem_append_right
          exact List.mem_map.mpr ⟨(_, source),
            Std.TreeMap.mem_toList_iff_getElem?_eq_some.mpr used, rfl⟩
        · exact List.mem_append_left _ (Production.find_eq_some.mp used).1
      · rw [reads]
        exact Std.TreeSet.mem_toList.mpr named

/-- A run ends: every round but the last takes an application that was not taken, and there
are no more than the snapshots name. -/
theorem loop_ends (fuel : Nat)
    (inv : Inv production pins refresh root graph requested taken)
    (enough : (known production pins root).length < fuel + taken.all.length) :
    ∃ loaded, (∀ more, fuel ≤ more →
      loop production pins refresh more graph requested taken = some loaded) ∧
      Ended production pins refresh root loaded := by
  induction fuel generalizing graph requested taken with
  | zero =>
      have most := inv.search.length_le fun id reached => mem_known reached
      rw [List.length_append] at most
      omega
  | succ fuel ih =>
      by_cases done : requested.isEmpty = true
      · refine ⟨{ taken := taken, answer := .ok graph }, ?_, inv.ended done⟩
        intro more least
        obtain ⟨more, rfl⟩ := Nat.exists_eq_add_of_lt least
        rw [loop, if_pos done]
      · cases turned : round production pins refresh graph requested with
        | error error =>
            refine ⟨{ taken := taken.add pins refresh requested, answer := .error error }, ?_,
              inv.stopped turned⟩
            intro more least
            obtain ⟨more, rfl⟩ := Nat.exists_eq_add_of_lt least
            simp only [loop, if_neg done, turned]
        | ok after =>
            have larger : taken.all.length < (taken.add pins refresh requested).all.length := by
              have waiting : requested.toList ≠ [] := by
                intro none_
                apply done
                rw [← Std.TreeSet.isEmpty_toList, none_]
                rfl
              have some_ := List.length_pos_iff.mpr waiting
              rw [taken.all_add.length_eq, List.length_append]
              omega
            obtain ⟨loaded, runs, ended⟩ := ih (inv.advance turned) (by omega)
            refine ⟨loaded, ?_, ended⟩
            intro more least
            obtain ⟨more, rfl⟩ := Nat.exists_eq_add_of_lt least
            simp only [loop, if_neg done, turned]
            exact runs _ (by omega)

/-- The import closure.  The run ends; it takes no application twice, fetches only reached
ones that are not pinned and uses only the pins of reached ones.  If it succeeds it has
taken all that are reached, and the graph holds the chosen snapshot of each.  It fails
exactly if some application that is reached is not available, or has a scope that does not
name its applications. -/
theorem loadWithPins_closure (production : Production ρ) (root : String) (pins : Pins ρ)
    (refresh : AppIds) :
    ∃ rounds loaded,
      (∀ fuel, rounds ≤ fuel → loadWithPins production root pins refresh fuel = some loaded) ∧
      (loaded.taken.fetched ++ loaded.taken.pinned).Nodup ∧
      (∀ id ∈ loaded.taken.fetched, Reached (Leads production pins refresh) root id ∧
        isPinned pins refresh id = false) ∧
      (∀ id ∈ loaded.taken.pinned, Reached (Leads production pins refresh) root id ∧
        isPinned pins refresh id = true) ∧
      (∀ graph, loaded.answer = .ok graph →
        (∀ id, id ∈ loaded.taken.fetched ↔ Reached (Leads production pins refresh) root id ∧
          isPinned pins refresh id = false) ∧
        (∀ id, id ∈ loaded.taken.pinned ↔ Reached (Leads production pins refresh) root id ∧
          isPinned pins refresh id = true) ∧
        (∀ id, id ∈ graph ↔ Reached (Leads production pins refresh) root id) ∧
        ∀ (id : String) (source : ProductionApplication ρ), graph[id]? = some source ↔
          Reached (Leads production pins refresh) root id ∧
            chosen production pins refresh id = some source) ∧
      ((∃ error, loaded.answer = .error error) ↔ ∃ id,
        Reached (Leads production pins refresh) root id ∧
          (Unavailable production pins refresh id ∨ Malformed production pins refresh id)) := by
  obtain ⟨loaded, runs, ended⟩ := loop_ends ((known production pins root).length + 1)
    (@Inv.start _ production pins refresh root)
    (by omega)
  refine ⟨_, loaded, runs, ended.once, ?_, ?_, ?_, ?_⟩
  · intro id mem
    exact ⟨ended.reached id (List.mem_append_left _ mem), ended.fetched id mem⟩
  · intro id mem
    exact ⟨ended.reached id (List.mem_append_right _ mem), ended.pinned id mem⟩
  · intro graph answered
    have inv := ended.answered graph answered
    have all := inv.all_iff
    refine ⟨?_, ?_, ?_, ?_⟩
    · intro id
      constructor
      · intro mem
        exact ⟨(all id).mp (List.mem_append_left _ mem), ended.fetched id mem⟩
      · rintro ⟨reached, unpinned⟩
        rcases List.mem_append.mp ((all id).mpr reached) with mem | mem
        · exact mem
        · rw [ended.pinned id mem] at unpinned
          cases unpinned
    · intro id
      constructor
      · intro mem
        exact ⟨(all id).mp (List.mem_append_right _ mem), ended.pinned id mem⟩
      · rintro ⟨reached, pinned⟩
        rcases List.mem_append.mp ((all id).mpr reached) with mem | mem
        · rw [ended.fetched id mem] at pinned
          cases pinned
        · exact mem
    · intro id
      rw [inv.mem_graph, all]
    · intro id source
      rw [inv.held, all]
  · constructor
    · rintro ⟨error, answered⟩
      exact ended.failed error answered
    · rintro ⟨id, reached, wrong⟩
      cases answered : loaded.answer with
      | error error => exact ⟨error, rfl⟩
      | ok graph =>
          have inv := ended.answered graph answered
          obtain ⟨source, found, used, reads⟩ := inv.sound id ((inv.all_iff id).mpr reached)
          rcases wrong with missing | ⟨source', error, used', unread⟩
          · cases used.symm.trans (chosen_eq_none.mpr missing)
          · cases used.symm.trans used'
            cases reads.symm.trans unread

/-- One verified application whose scope has no list of external applications. -/
def unlisted : Production Unit where
  rows := [{ appId := "files", appScope := .object [("iam", .array [])], rest := () }]
  unique := by simp

/-- Its import fails although everything it reaches is available. -/
theorem unlisted_scope_fails :
    (∀ id, Reached (Leads unlisted .empty ∅) "files" id → ¬Unavailable unlisted .empty ∅ id) ∧
    ∀ fuel, 1 ≤ fuel → ∃ loaded, loadWithPins unlisted "files" .empty ∅ fuel = some loaded ∧
      loaded.answer.toOption = none := by
  constructor
  · intro id reached
    have only : id = "files" := by
      induction reached with
      | refl => rfl
      | tail before leads ih =>
          obtain ⟨source, found, used, reads, named⟩ := leads
          subst ih
          cases used
          cases reads
    rintro ⟨-, absent⟩
    subst only
    cases absent
  · intro fuel positive
    obtain ⟨fuel, rfl⟩ := Nat.exists_eq_add_of_lt positive
    exact ⟨_, rfl, rfl⟩

end SiliconIam.Testing.ImportGraph
