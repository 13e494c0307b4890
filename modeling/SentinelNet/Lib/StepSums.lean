import Mathlib

/-!
# Sums over consecutive elements

What a list changes from each element to the next one, summed up.  The sum over a list that is cut
at an element is the sum over its two parts, which share the element; the sum of the differences is
the difference of the ends.

* `stepSum_split`: the law of cutting.
* `stepSum_sub`: the sum of differences.
-/

namespace SentinelNet.StepSums

variable {α M : Type*}

/-- The pairs of consecutive elements. -/
def steps (l : List α) : List (α × α) := l.zip l.tail

@[simp] theorem steps_nil : steps ([] : List α) = [] := rfl

@[simp] theorem steps_singleton (a : α) : steps [a] = [] := rfl

@[simp] theorem steps_cons_cons (a b : α) (l : List α) :
    steps (a :: b :: l) = (a, b) :: steps (b :: l) := rfl

theorem steps_split (l : List α) (a : α) (r : List α) :
    steps (l ++ a :: r) = steps (l ++ [a]) ++ steps (a :: r) := by
  induction l with
  | nil => rfl
  | cons b l ih =>
    cases l with
    | nil => rfl
    | cons c l =>
      exact congrArg (List.cons (b, c)) ih

theorem steps_map {β : Type*} (g : α → β) (l : List α) :
    steps (l.map g) = (steps l).map fun p => (g p.1, g p.2) := by
  unfold steps
  rw [← List.map_tail, List.zip_map]
  rfl

theorem mem_of_mem_steps {l : List α} {p : α × α} (h : p ∈ steps l) : p.1 ∈ l ∧ p.2 ∈ l :=
  ⟨(List.of_mem_zip h).1, List.mem_of_mem_tail (List.of_mem_zip h).2⟩

section Sums

variable [AddCommMonoid M]

def stepSum (f : α → α → M) (l : List α) : M := ((steps l).map fun p => f p.1 p.2).sum

@[simp] theorem stepSum_nil (f : α → α → M) : stepSum f [] = 0 := rfl

@[simp] theorem stepSum_singleton (f : α → α → M) (a : α) : stepSum f [a] = 0 := rfl

@[simp] theorem stepSum_cons_cons (f : α → α → M) (a b : α) (l : List α) :
    stepSum f (a :: b :: l) = f a b + stepSum f (b :: l) := by
  unfold stepSum
  rw [steps_cons_cons, List.map_cons, List.sum_cons]

/-- The sum over a list that is cut at an element. -/
theorem stepSum_split (f : α → α → M) (l : List α) (a : α) (r : List α) :
    stepSum f (l ++ a :: r) = stepSum f (l ++ [a]) + stepSum f (a :: r) := by
  unfold stepSum
  rw [steps_split, List.map_append, List.sum_append]

theorem stepSum_add (f g : α → α → M) (l : List α) :
    stepSum (fun a b => f a b + g a b) l = stepSum f l + stepSum g l :=
  List.sum_map_add

theorem stepSum_map {β : Type*} (f : β → β → M) (g : α → β) (l : List α) :
    stepSum f (l.map g) = stepSum (fun a b => f (g a) (g b)) l := by
  unfold stepSum
  rw [steps_map, List.map_map]
  rfl

theorem stepSum_congr {f g : α → α → M} {l : List α}
    (h : ∀ p ∈ steps l, f p.1 p.2 = g p.1 p.2) : stepSum f l = stepSum g l := by
  unfold stepSum
  rw [List.map_congr_left h]

end Sums

/-- The sum of the differences is the difference of the ends. -/
theorem stepSum_sub [AddCommGroup M] (g : α → M) {l : List α} {a b : α} (ha : l.head? = some a)
    (hb : l.getLast? = some b) : stepSum (fun x y => g y - g x) l = g b - g a := by
  induction l generalizing a with
  | nil => cases ha
  | cons x l ih =>
    obtain rfl := Option.some.inj ha
    cases l with
    | nil =>
      have hxb : x = b := Option.some.inj hb
      rw [stepSum_singleton, hxb, sub_self]
    | cons y l =>
      rw [List.getLast?_cons_cons] at hb
      rw [stepSum_cons_cons, ih rfl hb, add_comm, sub_add_sub_cancel]

section Order

variable {f : α → α → ℤ} {l : List α}

theorem stepSum_nonneg (h : ∀ p ∈ steps l, 0 ≤ f p.1 p.2) : 0 ≤ stepSum f l := by
  refine List.sum_nonneg fun x hx => ?_
  obtain ⟨p, hp, rfl⟩ := List.mem_map.mp hx
  exact h p hp

theorem stepSum_pos_iff (h : ∀ p ∈ steps l, 0 ≤ f p.1 p.2) :
    0 < stepSum f l ↔ ∃ p ∈ steps l, 0 < f p.1 p.2 := by
  unfold stepSum
  generalize steps l = ps at h ⊢
  induction ps with
  | nil =>
    refine iff_of_false (lt_irrefl 0) ?_
    rintro ⟨p, hp, -⟩
    cases hp
  | cons p ps ih =>
    have hrest := ih fun q hq => h q (List.mem_cons_of_mem p hq)
    have hfirst := h p List.mem_cons_self
    have hsum : 0 ≤ (ps.map fun p => f p.1 p.2).sum := by
      refine List.sum_nonneg fun x hx => ?_
      obtain ⟨q, hq, rfl⟩ := List.mem_map.mp hx
      exact h q (List.mem_cons_of_mem p hq)
    rw [List.map_cons, List.sum_cons]
    constructor
    · intro hpos
      by_cases hp : 0 < f p.1 p.2
      · exact ⟨p, List.mem_cons_self .., hp⟩
      · obtain ⟨q, hq, hpos⟩ := hrest.mp (by omega)
        exact ⟨q, List.mem_cons_of_mem p hq, hpos⟩
    · rintro ⟨q, hq, hpos⟩
      rcases List.mem_cons.mp hq with rfl | hq
      · omega
      · have := hrest.mpr ⟨q, hq, hpos⟩
        omega

end Order

end SentinelNet.StepSums
