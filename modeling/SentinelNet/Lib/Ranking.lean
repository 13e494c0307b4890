import Mathlib

/-!
# The first of a ranking

A list is sorted by a total preorder, and only its first elements are looked at.  Where a kind of
elements is taken out of them, the result is that of ranking this kind alone exactly if nothing is
lost: what ranks among the first of its kind, but not among the first of all, gives nothing.

* `filter_insertionSort`: sorting and leaving out elements commute.
* `filterMap_take_filter_iff`: when the first of all give what the first of a kind give.
-/

namespace Ranking

variable {α β : Type*} {r : α → α → Prop} [DecidableRel r]

section Sorting

variable (htrans : ∀ x y z, r x y → r y z → r x z)

include htrans

theorem filter_orderedInsert {p : α → Bool} {a : α} {l : List α} (hl : l.Pairwise r) :
    (l.orderedInsert r a).filter p =
      if p a then (l.filter p).orderedInsert r a else l.filter p := by
  induction l with
  | nil =>
    rw [List.orderedInsert_nil, List.filter_nil, List.orderedInsert_nil]
    split
    · next ha => rw [List.filter_cons_of_pos ha, List.filter_nil]
    · next ha => rw [List.filter_cons_of_neg ha, List.filter_nil]
  | cons b l ih =>
    rw [List.pairwise_cons] at hl
    by_cases hab : r a b
    · rw [List.orderedInsert_cons_of_le r l hab]
      split
      · next ha =>
        rw [List.filter_cons_of_pos ha]
        cases hrest : (b :: l).filter p with
        | nil => rfl
        | cons c rest =>
          have hc : c ∈ b :: l := (List.mem_filter.mp (hrest ▸ List.mem_cons_self)).1
          have hac : r a c := by
            rcases List.mem_cons.mp hc with rfl | hc
            · exact hab
            · exact htrans a b c hab (hl.1 c hc)
          rw [List.orderedInsert_cons_of_le r rest hac]
      · next ha => rw [List.filter_cons_of_neg ha]
    · rw [List.orderedInsert_of_not_le r l hab]
      by_cases hb : p b = true
      · rw [List.filter_cons_of_pos hb, List.filter_cons_of_pos hb, ih hl.2]
        split
        · rw [List.orderedInsert_of_not_le r _ hab]
        · rfl
      · rw [List.filter_cons_of_neg hb, List.filter_cons_of_neg hb, ih hl.2]

variable (htotal : ∀ x y, r x y ∨ r y x)

include htotal

theorem pairwise_insertionSort (l : List α) : (l.insertionSort r).Pairwise r := by
  have : Std.Total r := ⟨htotal⟩
  have : IsTrans α r := ⟨htrans⟩
  exact List.pairwise_insertionSort r l

/-- Sorting and leaving out elements commute. -/
theorem filter_insertionSort (p : α → Bool) (l : List α) :
    (l.insertionSort r).filter p = (l.filter p).insertionSort r := by
  induction l with
  | nil => rfl
  | cons a l ih =>
    rw [List.insertionSort_cons,
      filter_orderedInsert htrans (pairwise_insertionSort htrans htotal l), ih]
    split
    · next ha => rw [List.filter_cons_of_pos ha, List.insertionSort_cons]
    · next ha => rw [List.filter_cons_of_neg ha]

/-- An element that `n` others outrank is not among the first `n`. -/
theorem not_mem_take_insertionSort {l : List α} {n : ℕ} {x : α}
    (h : n ≤ l.countP fun y => decide ¬ r x y) : x ∉ (l.insertionSort r).take n := by
  intro hx
  have hsorted := pairwise_insertionSort htrans htotal l
  rw [← List.take_append_drop n (l.insertionSort r), List.pairwise_append] at hsorted
  have hdrop : ((l.insertionSort r).drop n).countP (fun y => decide ¬ r x y) = 0 :=
    List.countP_eq_zero.mpr fun y hy => by simpa using hsorted.2.2 x hx y hy
  have hxx : r x x := (htotal x x).elim id id
  have htake : ((l.insertionSort r).take n).countP (fun y => decide ¬ r x y) < n := by
    refine lt_of_lt_of_le ?_ (List.length_take_le n (l.insertionSort r))
    refine lt_of_le_of_ne List.countP_le_length fun hall => ?_
    have hnot := List.countP_eq_length.mp hall x hx
    exact of_decide_eq_true hnot hxx
  have hcount := (List.perm_insertionSort r l).countP_eq fun y => decide ¬ r x y
  rw [← List.take_append_drop n (l.insertionSort r), List.countP_append, hdrop] at hcount
  omega

end Sorting

/-- What the first of all give of a kind, and what the first of the kind give: the same exactly if
those that are lost give nothing. -/
theorem filterMap_take_filter_iff {l : List α} (hl : l.Nodup) {n : ℕ} {p : α → Bool}
    {f : α → Option β} :
    ((l.take n).filter p).filterMap f = ((l.filter p).take n).filterMap f ↔
      ∀ x ∈ (l.filter p).take n, x ∉ l.take n → f x = none := by
  have hsplit : l.filter p = (l.take n).filter p ++ (l.drop n).filter p := by
    rw [← List.filter_append, List.take_append_drop]
  have hshort : ((l.take n).filter p).length ≤ n :=
    (List.length_filter_le _ _).trans (List.length_take_le n l)
  have htake : (l.filter p).take n = (l.take n).filter p ++
      ((l.drop n).filter p).take (n - ((l.take n).filter p).length) := by
    rw [hsplit, List.take_append, List.take_of_length_le hshort]
  have hdisjoint : List.Disjoint (l.take n) (l.drop n) := List.disjoint_take_drop hl le_rfl
  rw [htake, List.filterMap_append]
  constructor
  · intro heq x hx hlost
    have hnil := List.append_cancel_left ((List.append_nil _).trans heq)
    rcases List.mem_append.mp hx with hx | hx
    · exact absurd (List.mem_filter.mp hx).1 hlost
    · exact List.filterMap_eq_nil_iff.mp hnil.symm x hx
  · intro h
    have hnil : (((l.drop n).filter p).take (n - ((l.take n).filter p).length)).filterMap f =
        [] := by
      refine List.filterMap_eq_nil_iff.mpr fun x hx => h x (List.mem_append_right _ hx) ?_
      intro hfirst
      exact hdisjoint hfirst (List.mem_filter.mp (List.mem_of_mem_take hx)).1
    rw [hnil, List.append_nil]

end Ranking
