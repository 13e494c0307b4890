import Mathlib

/-!
# Tables with keys of any type

A table is a list of entries in the order in which their keys were first written, as a dictionary of
Python keeps them.

* `find_put`, `find_erase`: what a lookup finds after them.
* `mem_put`, `mem_put_of_ne`: what is in a table after a write.
* `put_of_not_mem`: a new key comes last.
* `nodup_put`, `nodup_erase`, `find_of_mem`: tables where every key has one entry.
-/

namespace Assoc

variable {K V : Type*} [DecidableEq K]

/-- The value of a key. -/
def find : List (K × V) → K → Option V
  | [], _ => none
  | e :: d, k => if e.1 = k then some e.2 else find d k

/-- A value is written: in its place if the key is there, at the end if not. -/
def put : List (K × V) → K → V → List (K × V)
  | [], k, v => [(k, v)]
  | e :: d, k, v => if e.1 = k then (k, v) :: d else e :: put d k v

/-- A key is deleted. -/
def erase (d : List (K × V)) (k : K) : List (K × V) := d.filter fun e => e.1 ≠ k

@[simp] theorem find_nil (k : K) : find ([] : List (K × V)) k = none := rfl

theorem find_cons (e : K × V) (d : List (K × V)) (k : K) :
    find (e :: d) k = if e.1 = k then some e.2 else find d k := rfl

theorem put_cons (e : K × V) (d : List (K × V)) (k : K) (v : V) :
    put (e :: d) k v = if e.1 = k then (k, v) :: d else e :: put d k v := rfl

theorem find_put (d : List (K × V)) (k k' : K) (v : V) :
    find (put d k v) k' = if k = k' then some v else find d k' := by
  induction d with
  | nil => rfl
  | cons e d ih =>
    rw [put_cons]
    by_cases he : e.1 = k
    · rw [if_pos he, find_cons, find_cons, he]
      split
      · rfl
      · rfl
    · rw [if_neg he, find_cons, find_cons, ih]
      by_cases hk : e.1 = k'
      · rw [if_pos hk, if_pos hk, if_neg fun h => he (hk.trans h.symm)]
      · rw [if_neg hk, if_neg hk]

theorem find_erase (d : List (K × V)) (k k' : K) :
    find (erase d k) k' = if k = k' then none else find d k' := by
  induction d with
  | nil => rw [erase, List.filter_nil, find_nil, ite_self]
  | cons e d ih =>
    rw [erase] at ih ⊢
    by_cases he : e.1 = k
    · rw [List.filter_cons_of_neg (by simpa using he), ih, find_cons, he]
      split
      · rfl
      · rfl
    · rw [List.filter_cons_of_pos (by simpa using he), find_cons, find_cons, ih]
      by_cases hk : e.1 = k'
      · rw [if_pos hk, if_pos hk, if_neg fun h => he (hk.trans h.symm)]
      · rw [if_neg hk, if_neg hk]

variable {d : List (K × V)} {k : K}

theorem mem_of_find {v : V} (h : find d k = some v) : (k, v) ∈ d := by
  induction d with
  | nil => simp at h
  | cons e d ih =>
    rw [find_cons] at h
    split at h
    · next he =>
      rw [← Option.some.inj h, ← he]
      exact List.mem_cons_self
    · exact List.mem_cons_of_mem _ (ih h)

theorem mem_put {v : V} {e : K × V} (h : e ∈ put d k v) : e = (k, v) ∨ e ∈ d := by
  induction d with
  | nil => exact Or.inl (List.mem_singleton.mp h)
  | cons x d ih =>
    rw [put_cons] at h
    split at h
    · rcases List.mem_cons.mp h with rfl | h
      · exact Or.inl rfl
      · exact Or.inr (List.mem_cons_of_mem x h)
    · rcases List.mem_cons.mp h with rfl | h
      · exact Or.inr List.mem_cons_self
      · exact (ih h).imp_right (List.mem_cons_of_mem x)

theorem mem_put_self (d : List (K × V)) (k : K) (v : V) : (k, v) ∈ put d k v := by
  induction d with
  | nil => exact List.mem_singleton_self _
  | cons x d ih =>
    rw [put_cons]
    split
    · exact List.mem_cons_self
    · exact List.mem_cons_of_mem x ih

theorem mem_put_of_ne {e : K × V} (h : e ∈ d) (hk : e.1 ≠ k) (v : V) : e ∈ put d k v := by
  induction d with
  | nil => cases h
  | cons x d ih =>
    rw [put_cons]
    rcases List.mem_cons.mp h with rfl | h
    · rw [if_neg hk]
      exact List.mem_cons_self
    · split
      · exact List.mem_cons_of_mem _ h
      · exact List.mem_cons_of_mem x (ih h)

theorem find_ne_none {e : K × V} (h : e ∈ d) : find d e.1 ≠ none := by
  induction d with
  | nil => cases h
  | cons x d ih =>
    rw [find_cons]
    rcases List.mem_cons.mp h with rfl | h
    · rw [if_pos rfl]
      exact Option.some_ne_none _
    · split
      · exact Option.some_ne_none _
      · exact ih h

/-- A new key comes last. -/
theorem put_of_not_mem (h : k ∉ d.map Prod.fst) (v : V) : put d k v = d ++ [(k, v)] := by
  induction d with
  | nil => rfl
  | cons e d ih =>
    rw [List.map_cons, List.mem_cons, not_or] at h
    rw [put_cons, if_neg (Ne.symm h.1), ih h.2, List.cons_append]

theorem keys_put (d : List (K × V)) (k : K) (v : V) :
    (put d k v).map Prod.fst = if k ∈ d.map Prod.fst then d.map Prod.fst
      else d.map Prod.fst ++ [k] := by
  by_cases h : k ∈ d.map Prod.fst
  · rw [if_pos h]
    induction d with
    | nil => cases h
    | cons e d ih =>
      rw [put_cons]
      split
      · next he => rw [List.map_cons, List.map_cons, he]
      · next he =>
        have htail : k ∈ d.map Prod.fst := (List.mem_cons.mp h).resolve_left (Ne.symm he)
        rw [List.map_cons, List.map_cons, ih htail]
  · rw [if_neg h, put_of_not_mem h, List.map_append, List.map_singleton]

theorem nodup_put (h : (d.map Prod.fst).Nodup) (k : K) (v : V) :
    ((put d k v).map Prod.fst).Nodup := by
  rw [keys_put]
  split
  · exact h
  · next hk => exact List.nodup_append'.mpr ⟨h, List.nodup_singleton k, by simpa using hk⟩

theorem nodup_erase (h : (d.map Prod.fst).Nodup) (k : K) : ((erase d k).map Prod.fst).Nodup :=
  h.sublist (List.filter_sublist.map Prod.fst)

/-- The entry of a key, in a table where every key has one. -/
theorem find_of_mem (h : (d.map Prod.fst).Nodup) {v : V} (he : (k, v) ∈ d) : find d k = some v := by
  induction d with
  | nil => cases he
  | cons e d ih =>
    obtain ⟨hnew, hrest⟩ := List.nodup_cons.mp h
    rw [find_cons]
    rcases List.mem_cons.mp he with rfl | he
    · rw [if_pos rfl]
    · have hne : ¬ e.1 = k := by
        rintro rfl
        exact hnew (List.mem_map.mpr ⟨_, he, rfl⟩)
      rw [if_neg hne, ih hrest he]

end Assoc
