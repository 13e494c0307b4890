import Mathlib

/-!
# Tables with a primary key

A table is turned from some rows into others row by row: a row whose key is there keeps its place,
the others come at the end.

* `mem_rewrite`: it has the new rows and no others.
* `nodup_rewrite`: its keys are different.
-/

namespace KeyedRows

variable {α K : Type*} [DecidableEq K] (key : α → K)

def rewrite (old new : List α) : List α :=
  old.filterMap (fun r => new.find? fun s => key s = key r) ++
    new.filter fun r => !(old.any fun s => key s = key r)

variable {key} {old new : List α}

theorem find?_key_of_mem (hnew : (new.map key).Nodup) {r : α} (h : r ∈ new) :
    (new.find? fun s => key s = key r) = some r := by
  cases hfound : new.find? fun s => key s = key r with
  | none =>
    have hne := List.find?_eq_none.mp hfound r h
    simp at hne
  | some s =>
    have hkey : key s = key r := by simpa using List.find?_some hfound
    rw [List.inj_on_of_nodup_map hnew (List.mem_of_find?_eq_some hfound) h hkey]

/-- The table has the new rows and no others. -/
theorem mem_rewrite (hnew : (new.map key).Nodup) {r : α} : r ∈ rewrite key old new ↔ r ∈ new := by
  rw [rewrite, List.mem_append, List.mem_filterMap, List.mem_filter]
  constructor
  · rintro (⟨s, -, hfound⟩ | ⟨h, -⟩)
    · exact List.mem_of_find?_eq_some hfound
    · exact h
  · intro h
    by_cases hold : ∃ s ∈ old, key s = key r
    · obtain ⟨s, hs, hkey⟩ := hold
      refine Or.inl ⟨s, hs, ?_⟩
      rw [hkey]
      exact find?_key_of_mem hnew h
    · refine Or.inr ⟨h, ?_⟩
      rw [Bool.not_eq_true', List.any_eq_false]
      exact fun s hs hkey => hold ⟨s, hs, of_decide_eq_true hkey⟩

/-- The keys of the table are different. -/
theorem nodup_rewrite (hold : (old.map key).Nodup) (hnew : (new.map key).Nodup) :
    ((rewrite key old new).map key).Nodup := by
  have hkept : ((old.filterMap fun r => new.find? fun s => key s = key r).map key).Sublist
      (old.map key) := by
    clear hold
    induction old with
    | nil => exact List.Sublist.refl _
    | cons r old ih =>
      rw [List.filterMap_cons]
      split
      · exact ih.cons _
      · next s hfound =>
        have hkey : key s = key r := by simpa using List.find?_some hfound
        rw [List.map_cons, List.map_cons, hkey]
        exact ih.cons_cons _
  rw [rewrite, List.map_append]
  refine List.Nodup.append (hold.sublist hkept)
    (hnew.sublist (List.filter_sublist.map key)) fun k hk hadded => ?_
  obtain ⟨s, hs, hkey⟩ := List.mem_map.mp (hkept.subset hk)
  obtain ⟨r, hr, rfl⟩ := List.mem_map.mp hadded
  have hfree := (List.mem_filter.mp hr).2
  rw [Bool.not_eq_true', List.any_eq_false] at hfree
  exact hfree s hs (decide_eq_true hkey)

end KeyedRows
