import Mathlib

/-!
# Row numbers

The number that a table with an `INTEGER PRIMARY KEY` gives a new row: one more than the greatest
there is, or 1.

* `nodup_concat_next`: a new row keeps the numbers distinct.
-/

namespace RowIds

/-- The number of the next row. -/
def next (ids : List ℕ) : ℕ := ids.foldr max 0 + 1

theorem lt_next {ids : List ℕ} {n : ℕ} (h : n ∈ ids) : n < next ids := by
  have hle : n ≤ ids.foldr max 0 := by
    induction ids with
    | nil => cases h
    | cons m ids ih =>
      rw [List.foldr_cons]
      rcases List.mem_cons.mp h with rfl | h
      · exact le_max_left _ _
      · exact (ih h).trans (le_max_right _ _)
  exact Nat.lt_succ_of_le hle

theorem next_not_mem (ids : List ℕ) : next ids ∉ ids := fun h => lt_irrefl _ (lt_next h)

/-- A new row keeps the numbers distinct. -/
theorem nodup_concat_next {ids : List ℕ} (h : ids.Nodup) : (ids ++ [next ids]).Nodup := by
  rw [List.nodup_append]
  refine ⟨h, List.nodup_singleton _, fun n hn m hm => ?_⟩
  rw [List.mem_singleton.mp hm]
  exact (lt_next hn).ne

end RowIds
