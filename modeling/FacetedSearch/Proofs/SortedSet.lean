import FacetedSearch.SortedSet
import Mathlib.Data.List.Sort
import Mathlib.Data.String.Basic

/-!
# Lists in ascending order

A list read as a set has the members of the list, each once and in ascending order, so a list that
is ascending already stays as it is.
-/

namespace FacetedSearch

variable {α : Type} [LinearOrder α]

theorem mem_insertSorted {a x : α} {xs : List α} : x ∈ insertSorted a xs ↔ x = a ∨ x ∈ xs := by
  induction xs with
  | nil => rw [insertSorted, List.mem_singleton, List.mem_nil_iff, or_false]
  | cons b xs ih =>
      rw [insertSorted]
      split
      · rw [List.mem_cons]
      · rename_i hab
        split
        · rw [List.mem_cons, ih, List.mem_cons, or_left_comm]
        · rename_i hba
          obtain rfl : a = b := le_antisymm (not_lt.mp hba) (not_lt.mp hab)
          rw [List.mem_cons, or_self_left]

theorem pairwise_lt_insertSorted {a : α} {xs : List α} (h : xs.Pairwise (· < ·)) :
    (insertSorted a xs).Pairwise (· < ·) := by
  induction xs with
  | nil => exact List.pairwise_singleton _ a
  | cons b xs ih =>
      obtain ⟨hfirst, hrest⟩ := List.pairwise_cons.mp h
      rw [insertSorted]
      split
      · rename_i hab
        refine List.pairwise_cons.mpr ⟨?_, h⟩
        intro x hx
        rcases List.mem_cons.mp hx with rfl | hx
        · exact hab
        · exact lt_trans hab (hfirst x hx)
      · split
        · rename_i hba
          refine List.pairwise_cons.mpr ⟨?_, ih hrest⟩
          intro x hx
          rcases mem_insertSorted.mp hx with rfl | hx
          · exact hba
          · exact hfirst x hx
        · exact h

@[simp] theorem mem_sortedSet {x : α} {xs : List α} : x ∈ sortedSet xs ↔ x ∈ xs := by
  induction xs with
  | nil => rfl
  | cons a xs ih =>
      rw [sortedSet, List.foldr_cons, mem_insertSorted, List.mem_cons, ← ih, sortedSet]

theorem pairwise_lt_sortedSet (xs : List α) : (sortedSet xs).Pairwise (· < ·) := by
  induction xs with
  | nil => exact List.Pairwise.nil
  | cons a xs ih => exact pairwise_lt_insertSorted ih

theorem nodup_sortedSet (xs : List α) : (sortedSet xs).Nodup :=
  (pairwise_lt_sortedSet xs).imp ne_of_lt

/-- Only the members of a list count. -/
theorem sortedSet_congr {xs ys : List α} (h : ∀ x, x ∈ xs ↔ x ∈ ys) :
    sortedSet xs = sortedSet ys :=
  (pairwise_lt_sortedSet xs).eq_of_mem_iff (pairwise_lt_sortedSet ys) (by simpa using h)

theorem sortedSet_filter (xs : List α) (p : α → Bool) :
    sortedSet (xs.filter p) = (sortedSet xs).filter p :=
  (pairwise_lt_sortedSet _).eq_of_mem_iff ((pairwise_lt_sortedSet xs).filter p)
    (by simp [List.mem_filter])

end FacetedSearch
