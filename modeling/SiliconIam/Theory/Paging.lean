/-
# Theory.Paging -- a listing read page by page along cursors

A page is asked for with one item more than is shown (`take_page`); when that one is there, the
key of the last item shown is the cursor of the next page.  `read` follows the
cursors.  Where the pages are the parts of one ascending list that follow their
cursors (`Serves`), what is read is that list (`read_all`).
-/
import Mathlib.Order.Defs.LinearOrder
import Mathlib.Order.Basic
import Mathlib.Data.List.Basic
import Mathlib.Data.List.Sort

namespace SiliconIam.Theory.Paging

set_option autoImplicit false

variable {α κ : Type} (key : α → κ)

/-- What is shown of up to `limit + 1` items, and the next cursor. -/
def takePage (items : List α) (limit : Nat) : List α × Option κ :=
  if limit < items.length then (items.take limit, (items.take limit).getLast?.map key)
  else (items, none)

def read (page : Option κ → Nat → Option (List α)) (limit : Nat) : Nat → Option κ → Option (List α)
  | 0, _ => none
  | pages + 1, cursor =>
      match page cursor (limit + 1) with
      | none => none
      | some items =>
          match (takePage key items limit).2 with
          | none => some (takePage key items limit).1
          | some next =>
              (read page limit pages (some next)).map fun rest => (takePage key items limit).1 ++ rest

variable [LinearOrder κ]

/-- The items after a cursor. -/
def after (all : List α) (cursor : Option κ) : List α :=
  all.filter fun a => cursor.all fun c => decide (c < key a)

def Serves (page : Option κ → Nat → Option (List α)) (all : List α) : Prop :=
  ∀ cursor limit, page cursor limit = some ((after key all cursor).take limit)

variable {key} {all : List α} {page : Option κ → Nat → Option (List α)} {limit : Nat}

/-- Behind the last item shown there is what was not shown. -/
theorem after_last {first rest : List α} {last : α}
    (ascending : (first ++ last :: rest).Pairwise fun a b => key a < key b) :
    after key (first ++ last :: rest) (some (key last)) = rest := by
  obtain ⟨-, tail, apart⟩ := List.pairwise_append.mp ascending
  have before : ∀ a ∈ first, ¬ key last < key a :=
    fun a mem => (apart a mem last List.mem_cons_self).asymm
  have behind : ∀ a ∈ rest, key last < key a := (List.pairwise_cons.mp tail).1
  rw [after, List.filter_append, List.filter_cons_of_neg (by simp),
    List.filter_eq_nil_iff.mpr (by simpa using before), List.nil_append, List.filter_eq_self]
  simpa using behind

/-- A later cursor cuts further into what follows an earlier one. -/
theorem after_after {cursor : Option κ} {last : α} (mem : last ∈ after key all cursor) :
    after key (after key all cursor) (some (key last)) = after key all (some (key last)) := by
  rw [after, after, after, List.filter_filter]
  refine List.filter_congr fun a _ => ?_
  have passed := (List.mem_filter.mp mem).2
  cases cursor with
  | none => simp
  | some c =>
      simp only [Option.all_some, decide_eq_true_eq] at passed ⊢
      rw [Bool.and_eq_left_iff_imp]
      intro later
      exact decide_eq_true (passed.trans (by simpa using later))

/-- What lies up to the last item taken is taken. -/
theorem mem_take_of_le {items : List α} {last a : α} (ascending : items.Pairwise fun a b => key a < key b)
    (shown : (items.take limit).getLast? = some last) (mem : a ∈ items) (le : key a ≤ key last) :
    a ∈ items.take limit := by
  rw [← List.take_append_drop limit items, List.pairwise_append] at ascending
  rw [← List.take_append_drop limit items, List.mem_append] at mem
  rcases mem with taken | dropped
  · exact taken
  · have beyond := ascending.2.2 last (List.mem_of_getLast? shown) a dropped
    exact absurd le (not_le_of_gt beyond)

/-- The last item of an ascending list has the largest key. -/
theorem le_last {items : List α} {last a : α} (ascending : items.Pairwise fun a b => key a < key b)
    (shown : items.getLast? = some last) (mem : a ∈ items) : key a ≤ key last := by
  obtain ⟨first, rfl⟩ := List.getLast?_eq_some_iff.mp shown
  rcases List.mem_append.mp mem with earlier | last_
  · exact le_of_lt ((List.pairwise_append.mp ascending).2.2 a earlier last (by simp))
  · rw [List.mem_singleton.mp last_]

omit [LinearOrder κ] in
theorem takePage_all {items : List α} (short : items.length ≤ limit) :
    takePage key items limit = (items, none) := by
  rw [takePage, if_neg (by omega)]

omit [LinearOrder κ] in
/-- A page with a next cursor shows `limit` items, the last of which is the cursor. -/
theorem takePage_more (key : α → κ) (items : List α) (positive : 0 < limit) (more : limit < items.length) :
    ∃ first last, items.take limit = first ++ [last] ∧
      takePage key items limit = (first ++ [last], some (key last)) := by
  have filled : items.take limit ≠ [] := by
    intro empty
    rcases List.take_eq_nil_iff.mp empty with none | rfl
    · omega
    · exact absurd more (Nat.not_lt_zero limit)
  refine ⟨(items.take limit).dropLast, (items.take limit).getLast filled,
    (List.dropLast_append_getLast filled).symm, ?_⟩
  rw [takePage, if_pos more, List.getLast?_eq_some_getLast filled, Option.map_some,
    List.dropLast_append_getLast filled]

theorem read_after (serves : Serves key page all)
    (ascending : all.Pairwise fun a b => key a < key b) (positive : 0 < limit) (pages : Nat)
    (cursor : Option κ) (enough : (after key all cursor).length < pages) :
    read key page limit pages cursor = some (after key all cursor) := by
  induction pages generalizing cursor with
  | zero => omega
  | succ pages ih =>
      rw [read, serves]
      dsimp only
      by_cases short : (after key all cursor).length ≤ limit
      · rw [takePage_all (by simp; omega), List.take_of_length_le (by omega)]
      · obtain ⟨first, last, shown, page⟩ :=
          takePage_more key ((after key all cursor).take (limit + 1)) positive (by simp; omega)
        rw [List.take_take, Nat.min_eq_left (by omega)] at shown
        have split : after key all cursor =
            first ++ last :: (after key all cursor).drop limit := by
          rw [← List.singleton_append, ← List.append_assoc, ← shown, List.take_append_drop]
        have sorted : (after key all cursor).Pairwise fun a b => key a < key b := ascending.filter _
        have mem : last ∈ after key all cursor := by
          rw [split]
          simp
        have rest : after key all (some (key last)) = (after key all cursor).drop limit := by
          rw [← after_after mem]
          rw [split] at sorted
          nth_rewrite 1 [split]
          exact after_last sorted
        rw [page]
        dsimp only
        rw [ih (some (key last)) (by rw [rest]; simp; omega), rest, Option.map_some,
          List.append_assoc, List.singleton_append, ← split]

/-- Every item, in order. -/
theorem read_all (serves : Serves key page all)
    (ascending : all.Pairwise fun a b => key a < key b) (positive : 0 < limit) {pages : Nat}
    (enough : all.length < pages) : read key page limit pages none = some all := by
  have whole : after key all none = all := List.filter_eq_self.mpr (by simp)
  rw [read_after serves ascending positive pages none (by rw [whole]; exact enough), whole]

/-! ## Pages of sorted items -/

/-- Items with different keys, sorted, ascend. -/
theorem sorted_ascending {items : List α} (distinct : items.Pairwise fun a b => key a ≠ key b) :
    (items.insertionSort fun a b => key a ≤ key b).Pairwise fun a b => key a < key b := by
  have sorted := List.pairwise_insertionSort (fun a b : α => key a ≤ key b) items
  have apart : (items.insertionSort fun a b => key a ≤ key b).Pairwise fun a b => key a ≠ key b :=
    (List.perm_insertionSort _ items).symm.pairwise distinct fun differ => differ.symm
  exact (sorted.and apart).imp fun both => lt_of_le_of_ne both.1 both.2

/-- A query that filters, sorts and takes serves the sorted items. -/
theorem serves_sorted (key : α → κ) (page : Option κ → Nat → Option (List α)) {items : List α}
    (distinct : items.Pairwise fun a b => key a ≠ key b)
    (query : ∀ cursor limit, page cursor limit =
      some (((after key items cursor).insertionSort fun a b => key a ≤ key b).take limit)) :
    Serves key page (items.insertionSort fun a b => key a ≤ key b) := by
  intro cursor limit
  rw [query]
  congr 2
  refine List.Pairwise.eq_of_mem_iff (r := fun a b => key a < key b)
    (sorted_ascending (distinct.filter _)) ((sorted_ascending distinct).filter _) fun a => ?_
  rw [after, after, List.mem_filter, List.mem_insertionSort, List.mem_insertionSort, List.mem_filter]

end SiliconIam.Theory.Paging
