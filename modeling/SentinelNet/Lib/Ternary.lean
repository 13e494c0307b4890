import Mathlib

/-!
# Ternary cubes

A pair of words `value`, `mask` denotes the set of words that agree with `value` on the bits of
`mask`; the other bits are free.  Subnets and wildcard patterns are such sets.

* `cube_subset_cube`: the test for one cube to lie in another, on values and masks.
* `mem_cube_self`, `cube_zero`: a cube is not empty, and one is everything.
-/

namespace Ternary

variable {w : ℕ}

/-- The words that agree with `value` on the bits of `mask`. -/
def cube (value mask : BitVec w) : Set (BitVec w) := {x | x &&& mask = value}

theorem mem_cube {value mask x : BitVec w} : x ∈ cube value mask ↔ x &&& mask = value := Iff.rfl

/-- The value of a cube lies in it. -/
theorem mem_cube_self {value mask : BitVec w} (h : value &&& mask = value) :
    value ∈ cube value mask := h

/-- With no significant bit every word is in the cube. -/
theorem cube_zero : cube (0 : BitVec w) 0 = Set.univ := by
  ext x
  simp [mem_cube]

/-- One cube lies in another when it fixes all the bits the other one fixes, to the same
values. -/
theorem cube_subset_cube {v m v' m' : BitVec w} (hcanon : v &&& m = v) (hmask : m &&& m' = m)
    (hval : (v ^^^ v') &&& m = 0) : cube v' m' ⊆ cube v m := by
  intro x hx
  rw [mem_cube] at hx ⊢
  have hagree : v &&& m = v' &&& m := by
    ext i hi
    have hi' : ((v ^^^ v') &&& m)[i] = (0 : BitVec w)[i] := by rw [hval]
    rw [BitVec.getElem_and, BitVec.getElem_xor] at hi'
    rw [BitVec.getElem_and, BitVec.getElem_and]
    have hbits : ∀ a b c : Bool, ((a ^^ b) && c) = false → (a && c) = (b && c) := by decide
    exact hbits _ _ _ (hi'.trans (by simp))
  calc
    x &&& m = x &&& (m &&& m') := by rw [hmask]
    _ = (x &&& m') &&& m := by rw [BitVec.and_comm m m', BitVec.and_assoc]
    _ = v' &&& m := by rw [hx]
    _ = v := by rw [← hagree, hcanon]

end Ternary
