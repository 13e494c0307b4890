import Mathlib

/-!
# Lists in groups

The groups that a loop with `groups.setdefault(key(x), []).append(x)` makes of a list: the keys in
the order in which they come, and under each key its items in theirs.

* `filter_groupOn`: the groups with a key of a kind are the groups of the items with such a key.
* `mem_groupOn`: what is in a group.
* `filter_flatMap_of`: what a list gives of a kind is what its items of that kind give.
-/

namespace Grouping

variable {α β K : Type*}

section Groups

variable [DecidableEq K] (key : α → K)

/-- An item joins its group. -/
def join : List (K × List α) → α → List (K × List α)
  | [], x => [(key x, [x])]
  | g :: groups, x =>
    if g.1 = key x then (g.1, g.2 ++ [x]) :: groups else g :: join groups x

def groupOn (xs : List α) : List (K × List α) := xs.foldl (join key) []

variable {key}

variable {p : K → Bool}

theorem filter_join (x : α) (groups : List (K × List α)) :
    (join key groups x).filter (fun g => p g.1) =
      if p (key x) then join key (groups.filter fun g => p g.1) x
      else groups.filter fun g => p g.1 := by
  induction groups with
  | nil => by_cases hx : p (key x) = true <;> simp [join, hx]
  | cons g groups ih =>
    rw [join]
    by_cases hg : g.1 = key x
    · rw [if_pos hg, List.filter_cons, List.filter_cons, ← hg]
      by_cases hp : p g.1 = true
      · rw [if_pos hp, if_pos hp, if_pos hp, join, if_pos hg]
      · rw [if_neg hp, if_neg hp, if_neg hp]
    · rw [if_neg hg, List.filter_cons, List.filter_cons, ih]
      by_cases hp : p g.1 = true
      · rw [if_pos hp, if_pos hp, join, if_neg hg, apply_ite (List.cons g)]
      · rw [if_neg hp, if_neg hp]

theorem filter_foldl_join (xs : List α) (groups : List (K × List α)) :
    (xs.foldl (join key) groups).filter (fun g => p g.1) =
      (xs.filter fun x => p (key x)).foldl (join key) (groups.filter fun g => p g.1) := by
  induction xs generalizing groups with
  | nil => rfl
  | cons x xs ih =>
    rw [List.foldl_cons, ih, filter_join, List.filter_cons]
    split
    · rfl
    · rfl

/-- The groups with a key of a kind are the groups of the items with such a key. -/
theorem filter_groupOn (p : K → Bool) (xs : List α) :
    (groupOn key xs).filter (fun g => p g.1) = groupOn key (xs.filter fun x => p (key x)) :=
  filter_foldl_join xs []

variable {groups : List (K × List α)}

theorem join_of_not_mem {x : α} (h : key x ∉ groups.map Prod.fst) :
    join key groups x = groups ++ [(key x, [x])] := by
  induction groups with
  | nil => rfl
  | cons g groups ih =>
    rw [List.map_cons, List.mem_cons, not_or] at h
    rw [join, if_neg (Ne.symm h.1), ih h.2, List.cons_append]

theorem keys_join_of_mem {x : α} (h : key x ∈ groups.map Prod.fst) :
    (join key groups x).map Prod.fst = groups.map Prod.fst := by
  induction groups with
  | nil => cases h
  | cons g groups ih =>
    rw [join]
    split
    · rfl
    · next hg =>
      rw [List.map_cons, List.mem_cons] at h
      rw [List.map_cons, List.map_cons, ih (h.resolve_left (Ne.symm hg))]

theorem nodup_keys_foldl_join (xs : List α)
    (h : (groups.map Prod.fst).Nodup) : ((xs.foldl (join key) groups).map Prod.fst).Nodup := by
  induction xs generalizing groups with
  | nil => exact h
  | cons x xs ih =>
    refine ih ?_
    by_cases hx : key x ∈ groups.map Prod.fst
    · rw [keys_join_of_mem hx]
      exact h
    · rw [join_of_not_mem hx, List.map_append]
      refine List.nodup_append.mpr ⟨h, List.pairwise_singleton _ _, fun k hk k' hk' heq => hx ?_⟩
      rw [heq, List.mem_singleton.mp hk'] at hk
      exact hk

/-- No key has two groups. -/
theorem nodup_keys_groupOn (xs : List α) : ((groupOn key xs).map Prod.fst).Nodup :=
  nodup_keys_foldl_join xs List.nodup_nil

/-- Items with different keys are groups of their own. -/
theorem groupOn_of_nodup {xs : List α} (h : (xs.map key).Nodup) :
    groupOn key xs = xs.map fun x => (key x, [x]) := by
  have hfold (groups : List (K × List α)) (hgroups : ((groups.map Prod.fst) ++ xs.map key).Nodup) :
      xs.foldl (join key) groups = groups ++ xs.map fun x => (key x, [x]) := by
    clear h
    induction xs generalizing groups with
    | nil => exact (List.append_nil _).symm
    | cons x xs ih =>
      have hx : key x ∉ groups.map Prod.fst := fun hmem =>
        (List.nodup_append.mp hgroups).2.2 _ hmem _ List.mem_cons_self rfl
      rw [List.foldl_cons, join_of_not_mem hx, ih, List.append_assoc]
      · rfl
      · simpa using hgroups
  rw [groupOn, hfold [] h, List.nil_append]

/-- Items with one key are one group. -/
theorem groupOn_of_const {k : K} {xs : List α} (h : ∀ x ∈ xs, key x = k) (hne : xs ≠ []) :
    groupOn key xs = [(k, xs)] := by
  have hfold (l : List α) (hl : ∀ x ∈ l, key x = k) (front : List α) :
      l.foldl (join key) [(k, front)] = [(k, front ++ l)] := by
    induction l generalizing front with
    | nil => rw [List.foldl_nil, List.append_nil]
    | cons x l ih =>
      have hx := hl x List.mem_cons_self
      rw [List.foldl_cons, join, if_pos hx.symm, ih (List.forall_mem_cons.mp hl).2,
        List.append_assoc]
      rfl
  cases xs with
  | nil => exact absurd rfl hne
  | cons x xs =>
    have hx := h x List.mem_cons_self
    rw [groupOn, List.foldl_cons, join, hx]
    exact hfold xs (List.forall_mem_cons.mp h).2 [x]

/-- A group is what the list has under its key. -/
theorem mem_groupOn {xs : List α} {g : K × List α} :
    g ∈ groupOn key xs ↔ g.2 = xs.filter (fun x => key x = g.1) ∧ g.2 ≠ [] := by
  have hfilter := @filter_groupOn α K _ key (fun k => decide (k = g.1)) xs
  have hkey : ∀ x ∈ xs.filter (fun x => key x = g.1), key x = g.1 :=
    fun x hx => of_decide_eq_true (List.mem_filter.mp hx).2
  constructor
  · intro hg
    have hmem : g ∈ (groupOn key xs).filter (fun g' => g'.1 = g.1) :=
      List.mem_filter.mpr ⟨hg, decide_eq_true rfl⟩
    rw [hfilter] at hmem
    by_cases hnil : xs.filter (fun x => key x = g.1) = []
    · rw [hnil] at hmem
      cases hmem
    · rw [groupOn_of_const hkey hnil, List.mem_singleton] at hmem
      have hsnd : g.2 = xs.filter (fun x => key x = g.1) := congrArg Prod.snd hmem
      exact ⟨hsnd, hsnd ▸ hnil⟩
  · rintro ⟨hsnd, hne⟩
    rw [hsnd] at hne
    have hmem : g ∈ groupOn key (xs.filter fun x => key x = g.1) := by
      rw [groupOn_of_const hkey hne, List.mem_singleton, ← hsnd]
    rw [← hfilter] at hmem
    exact (List.mem_filter.mp hmem).1

end Groups

variable {p : β → Bool} {q : α → Bool}

/-- Where the results of an item are of a kind exactly if the item is, the results of that kind are
those of the items of that kind. -/
theorem filter_flatMap_of {f : α → List β} {xs : List α} (h : ∀ x ∈ xs, ∀ y ∈ f x, p y = q x) :
    (xs.flatMap f).filter p = (xs.filter q).flatMap f := by
  induction xs with
  | nil => rfl
  | cons x xs ih =>
    have hxs := ih (List.forall_mem_cons.mp h).2
    have hx := h x List.mem_cons_self
    rw [List.flatMap_cons, List.filter_append, hxs]
    by_cases hq : q x = true
    · have hall : (f x).filter p = f x := List.filter_eq_self.mpr fun y hy => (hx y hy).trans hq
      rw [hall, List.filter_cons_of_pos hq, List.flatMap_cons]
    · have hnone : (f x).filter p = [] := by
        refine List.filter_eq_nil_iff.mpr fun y hy => ?_
        rw [hx y hy]
        exact hq
      rw [hnone, List.filter_cons_of_neg hq, List.nil_append]

/-- Where the other items give no results of a kind, the results of that kind are those of the items
of theirs. -/
theorem filter_flatMap_filter {f : α → List β} {xs : List α}
    (h : ∀ x ∈ xs, q x = false → ∀ y ∈ f x, p y = false) :
    (xs.flatMap f).filter p = ((xs.filter q).flatMap f).filter p := by
  induction xs with
  | nil => rfl
  | cons x xs ih =>
    have hxs := ih (List.forall_mem_cons.mp h).2
    rw [List.flatMap_cons, List.filter_append, hxs]
    cases hq : q x with
    | true =>
      rw [List.filter_cons_of_pos hq, List.flatMap_cons, List.filter_append]
    | false =>
      have hnone : (f x).filter p = [] := by
        refine List.filter_eq_nil_iff.mpr fun y hy => ?_
        rw [h x List.mem_cons_self hq y hy]
        exact Bool.false_ne_true
      rw [hnone, List.filter_cons_of_neg (by rw [hq]; exact Bool.false_ne_true), List.nil_append]

theorem filter_filterMap_of {f : α → Option β} {xs : List α} (h : ∀ x ∈ xs, ∀ y ∈ f x, p y = q x) :
    (xs.filterMap f).filter p = (xs.filter q).filterMap f := by
  have hsome : ∀ xs : List α, xs.filterMap f = xs.flatMap fun x => (f x).toList := fun xs =>
    List.filterMap_eq_flatMap_toList f xs
  rw [hsome, hsome]
  exact filter_flatMap_of fun x hx y hy => h x hx y (Option.mem_toList.mp hy)

/-- A search among the items of a kind, if it looks for such an item. -/
theorem find?_filter_of {p : α → Bool} (h : ∀ x, p x = true → q x = true) (xs : List α) :
    (xs.filter q).find? p = xs.find? p := by
  rw [List.find?_filter]
  refine congrArg (fun r => xs.find? r) (funext fun x => ?_)
  cases hp : p x with
  | false => simp
  | true => simp [h x hp]

end Grouping
