import Mathlib

/-!
# The leaders of a stable sort

A list is sorted by a total preorder, as Python's `sort` with a key does it, and what is looked at
afterwards is its first element and all that tie with it.  A stable sort keeps the order of these,
so they are the minimal elements of the list as it was, and whether an element can be left out of
the list without a change is a matter of what ranks strictly before it.

* `ties_insertionSort`: the first element of a sorted list and its ties are the leaders.
* `leaders_filter_iff`: when leaving out elements keeps the leaders.
-/

namespace StableSort

variable {α : Type*} (r : α → α → Prop) [DecidableRel r]

/-- The minimal elements of a list, in its order. -/
def leaders (l : List α) : List α := l.filter fun x => l.all fun y => decide (r x y)

/-- The elements that rank like a given one. -/
def ties (b : α) (l : List α) : List α := l.filter fun x => decide (r x b) && decide (r b x)

variable {r}

theorem mem_leaders {l : List α} {x : α} : x ∈ leaders r l ↔ x ∈ l ∧ ∀ y ∈ l, r x y := by
  simp [leaders]

theorem ties_orderedInsert {b a : α} {l : List α} (htrans : ∀ x y z, r x y → r y z → r x z) :
    ties r b (l.orderedInsert r a) = ties r b (a :: l) := by
  induction l with
  | nil => rfl
  | cons c l ih =>
    by_cases hac : r a c
    · rw [List.orderedInsert, if_pos hac]
    · rw [List.orderedInsert, if_neg hac]
      by_cases ha : r a b ∧ r b a
      · have hc : ¬ (r c b ∧ r b c) := fun hc => hac (htrans a b c ha.1 hc.2)
        rw [ties, ties] at ih
        rw [ties, ties, List.filter_cons_of_neg (by simpa using hc), ih,
          List.filter_cons_of_pos (by simpa using ha), List.filter_cons_of_pos (by simpa using ha),
          List.filter_cons_of_neg (by simpa using hc)]
      · rw [ties, ties, List.filter_cons_of_neg (by simpa using ha)] at ih
        rw [ties, ties, List.filter_cons, ih, List.filter_cons_of_neg (a := a) (by simpa using ha),
          List.filter_cons]

/-- A stable sort keeps the order of what ranks alike. -/
theorem ties_insertionSort {b : α} {l : List α} (htrans : ∀ x y z, r x y → r y z → r x z) :
    ties r b (l.insertionSort r) = ties r b l := by
  induction l with
  | nil => rfl
  | cons a l ih =>
    rw [List.insertionSort, List.foldr_cons, ← List.insertionSort, ties_orderedInsert htrans]
    rw [ties, ties] at ih
    rw [ties, ties, List.filter_cons, List.filter_cons, ih]

section Total

variable (htrans : ∀ x y z, r x y → r y z → r x z) (htotal : ∀ x y, r x y ∨ r y x)

include htrans htotal

variable {l : List α}

theorem head_insertionSort {b : α} (h : (l.insertionSort r).head? = some b) :
    b ∈ l ∧ ∀ x ∈ l, r b x := by
  have : Std.Total r := ⟨htotal⟩
  have : IsTrans α r := ⟨htrans⟩
  obtain ⟨bs, hbs⟩ := List.head?_eq_some_iff.mp h
  have hsorted := List.pairwise_insertionSort r l
  rw [hbs, List.pairwise_cons] at hsorted
  have hmem (x : α) : x ∈ l ↔ x ∈ b :: bs := by rw [← hbs, List.mem_insertionSort]
  refine ⟨(hmem b).mpr List.mem_cons_self, fun x hx => ?_⟩
  rcases List.mem_cons.mp ((hmem x).mp hx) with rfl | hx
  · exact (htotal x x).elim id id
  · exact hsorted.1 x hx

theorem ties_head {b : α} (h : (l.insertionSort r).head? = some b) :
    ties r b (l.insertionSort r) = leaders r l := by
  obtain ⟨hb, hmin⟩ := head_insertionSort htrans htotal h
  rw [ties_insertionSort htrans, ties, leaders]
  refine List.filter_congr fun x hx => ?_
  rw [Bool.eq_iff_iff, Bool.and_eq_true, decide_eq_true_eq, decide_eq_true_eq, List.all_eq_true]
  constructor
  · rintro ⟨hxb, -⟩ y hy
    exact decide_eq_true (htrans x b y hxb (hmin y hy))
  · exact fun hall => ⟨of_decide_eq_true (hall b hb), hmin x hx⟩

theorem head?_leaders (l : List α) : (leaders r l).head? = (l.insertionSort r).head? := by
  cases h : l.insertionSort r with
  | nil =>
    have hl : l = [] := by
      have hlen := List.length_insertionSort r l
      rw [h] at hlen
      exact List.eq_nil_of_length_eq_zero hlen.symm
    rw [hl]
    rfl
  | cons b bs =>
    have hhead : (l.insertionSort r).head? = some b := by rw [h]; rfl
    have hbb : r b b := (htotal b b).elim id id
    rw [← ties_head htrans htotal hhead, h, ties,
      List.filter_cons_of_pos (by simpa using hbb)]
    rfl

theorem leaders_ne_nil (h : l ≠ []) : leaders r l ≠ [] := by
  intro hnil
  have hhead := head?_leaders htrans htotal l
  rw [hnil, List.head?_nil, eq_comm, List.head?_eq_none_iff] at hhead
  have hlen := List.length_insertionSort r l
  rw [hhead] at hlen
  exact h (List.eq_nil_of_length_eq_zero hlen.symm)

/-- Leaving out elements keeps the leaders exactly when each of them ranks strictly behind one that
stays. -/
theorem leaders_filter_iff {p : α → Bool} :
    leaders r l = leaders r (l.filter p) ↔
      ∀ x ∈ l, p x = false → ∃ y ∈ l, p y = true ∧ ¬ r x y := by
  constructor
  · intro heq x hx hpx
    by_contra hno
    push Not at hno
    obtain ⟨m, hm⟩ := List.exists_mem_of_ne_nil _
      (leaders_ne_nil htrans htotal (List.ne_nil_of_mem hx))
    have hml := mem_leaders.mp hm
    rw [heq] at hm
    have hpm : p m = true := (List.mem_filter.mp (mem_leaders.mp hm).1).2
    have hxm : r x m := hno m hml.1 hpm
    have hlead : x ∈ leaders r l := mem_leaders.mpr ⟨hx, fun y hy => htrans x m y hxm (hml.2 y hy)⟩
    rw [heq] at hlead
    rw [(List.mem_filter.mp (mem_leaders.mp hlead).1).2] at hpx
    exact absurd hpx (by decide)
  · intro h
    rw [leaders, leaders, List.filter_filter]
    refine List.filter_congr fun x hx => ?_
    rw [Bool.eq_iff_iff, Bool.and_eq_true, List.all_eq_true, List.all_eq_true]
    constructor
    · intro hall
      refine ⟨fun y hy => hall y (List.mem_filter.mp hy).1, ?_⟩
      by_contra hpx
      obtain ⟨y, hy, -, hxy⟩ := h x hx (by simpa using hpx)
      exact hxy (of_decide_eq_true (hall y hy))
    · rintro ⟨hall, -⟩ y hy
      rcases hpy : p y with _ | _
      · obtain ⟨z, hz, hpz, hyz⟩ := h y hy hpy
        have hxz := of_decide_eq_true (hall z (List.mem_filter.mpr ⟨hz, hpz⟩))
        exact decide_eq_true (htrans x z y hxz ((htotal y z).resolve_left hyz))
      · exact hall y (List.mem_filter.mpr ⟨hy, hpy⟩)

end Total

end StableSort
