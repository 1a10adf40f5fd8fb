/-
# Theory.Frontier -- searching a graph one frontier at a time

A search has expanded the nodes `seen` and still has to expand those of `frontier`.
`Search` says what holds between two rounds: no node twice, every node reached from the
root, the root among them, and no edge that leads from an expanded node to an unknown
one.  A round that expands the whole frontier and takes every new node it leads to keeps
it (`Search.advance`), and a search without a frontier has expanded exactly what is
reached (`Search.complete`).

Every round expands something, so in a graph whose reached nodes are among a finite list
the length of that list bounds the rounds (`Search.length_le`).
-/
import Mathlib.Logic.Relation
import Mathlib.Data.List.Nodup
import Mathlib.Data.List.Perm.Subperm

namespace SiliconIam.Theory.Frontier

set_option autoImplicit false

universe u

variable {ν : Type u} {edge : ν → ν → Prop} {root : ν} {seen frontier : List ν}

/-- The nodes that edges lead to. -/
abbrev Reached (edge : ν → ν → Prop) (root node : ν) : Prop := Relation.ReflTransGen edge root node

structure Search (edge : ν → ν → Prop) (root : ν) (seen frontier : List ν) : Prop where
  distinct : (seen ++ frontier).Nodup
  reached : ∀ node ∈ seen ++ frontier, Reached edge root node
  started : root ∈ seen ++ frontier
  closed : ∀ node ∈ seen, ∀ next, edge node next → next ∈ seen ++ frontier

namespace Search

theorem start : Search edge root [] [root] where
  distinct := by simp
  reached := by
    intro node mem
    have same : node = root := by simpa using mem
    rw [same]
  started := by simp
  closed := by
    intro node mem
    cases mem

/-- The order in which a search holds its nodes does not matter. -/
theorem congr {seen' frontier' : List ν} (search : Search edge root seen frontier)
    (expanded : seen.Perm seen') (waiting : frontier.Perm frontier') :
    Search edge root seen' frontier' := by
  have both : (seen ++ frontier).Perm (seen' ++ frontier') := expanded.append waiting
  constructor
  · exact both.nodup_iff.mp search.distinct
  · intro node mem
    exact search.reached node (both.mem_iff.mpr mem)
  · exact both.mem_iff.mp search.started
  · intro node mem next leads
    exact both.mem_iff.mp (search.closed node (expanded.mem_iff.mpr mem) next leads)

/-- The whole frontier is expanded, and the new nodes it leads to are the next one. -/
theorem advance {fresh : List ν} (search : Search edge root seen frontier)
    (nodup : fresh.Nodup)
    (exact_ : ∀ next, next ∈ fresh ↔
      next ∉ seen ++ frontier ∧ ∃ node ∈ frontier, edge node next) :
    Search edge root (seen ++ frontier) fresh where
  distinct := by
    apply List.Nodup.append search.distinct nodup
    intro node known new
    exact ((exact_ node).mp new).1 known
  reached := by
    intro node mem
    rcases List.mem_append.mp mem with known | new
    · exact search.reached node known
    · obtain ⟨-, from_, waiting, leads⟩ := (exact_ node).mp new
      have before : Reached edge root from_ :=
        search.reached from_ (List.mem_append_right seen waiting)
      exact before.tail leads
  started := List.mem_append_left fresh search.started
  closed := by
    intro node mem next leads
    rcases List.mem_append.mp mem with expanded | waiting
    · exact List.mem_append_left fresh (search.closed node expanded next leads)
    · by_cases known : next ∈ seen ++ frontier
      · exact List.mem_append_left fresh known
      · exact List.mem_append_right _ ((exact_ next).mpr ⟨known, node, waiting, leads⟩)

/-- Without a frontier everything that is reached has been expanded. -/
theorem complete (search : Search edge root seen []) (node : ν) :
    node ∈ seen ↔ Reached edge root node := by
  constructor
  · intro mem
    exact search.reached node (List.mem_append_left [] mem)
  · intro reached
    induction reached with
    | refl => simpa using search.started
    | tail before leads ih => simpa using search.closed _ ih _ leads

/-- A search is no larger than what it can reach. -/
theorem length_le {nodes : List ν} (search : Search edge root seen frontier)
    (finite : ∀ node, Reached edge root node → node ∈ nodes) :
    (seen ++ frontier).length ≤ nodes.length := by
  apply List.Subperm.length_le
  apply List.subperm_of_subset search.distinct
  intro node mem
  exact finite node (search.reached node mem)

end Search

end SiliconIam.Theory.Frontier
