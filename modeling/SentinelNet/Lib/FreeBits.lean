import SentinelNet.Lib.Ternary

/-!
# Moving inside and outside a cube

The words of a cube differ in its free bits only.  To set free bits stays inside; to flip the lowest
significant bit leaves the cube.

* `or_mem_cube`, `add_mem_cube`: free bits that are set or added stay inside.
* `and_neg_ne_zero`: a mask that is not zero has a lowest bit.
* `xor_notMem_cube`: flipping significant bits leaves the cube.
-/

namespace Ternary

variable {w : ℕ} {value mask x : BitVec w}

/-- Free bits that are set stay inside the cube. -/
theorem or_mem_cube (hcanon : value &&& mask = value) (hfree : x &&& mask = 0) :
    value ||| x ∈ cube value mask := by
  rw [mem_cube]
  ext i hi
  have hvalue : (value &&& mask)[i] = value[i] := by rw [hcanon]
  have hx : (x &&& mask)[i] = (0 : BitVec w)[i] := by rw [hfree]
  rw [BitVec.getElem_and] at hvalue hx
  rw [BitVec.getElem_and, BitVec.getElem_or, ← hvalue]
  have hbits : ∀ v b m : Bool, (b && m) = false → ((v && m || b) && m) = (v && m) := by decide
  exact hbits _ _ _ (hx.trans (by simp))

/-- Free bits that are added to the value stay inside the cube: nothing is carried. -/
theorem add_mem_cube (hcanon : value &&& mask = value) (hfree : x &&& mask = 0) :
    value + x ∈ cube value mask := by
  have hdisjoint : value &&& x = 0 := by
    rw [← hcanon, BitVec.and_assoc, BitVec.and_comm mask x, hfree]
    exact BitVec.and_zero
  rw [BitVec.add_eq_or_of_and_eq_zero _ _ hdisjoint]
  exact or_mem_cube hcanon hfree

/-- A word that is not zero has a lowest bit. -/
theorem and_neg_ne_zero (h : mask ≠ 0) : mask &&& -mask ≠ 0 := by
  intro hzero
  have hsum : mask ||| -mask = 0 := by
    rw [← BitVec.add_eq_or_of_and_eq_zero _ _ hzero, BitVec.add_right_neg]
    rfl
  refine h (BitVec.eq_of_getLsbD_eq fun i hi => ?_)
  have hbit : (mask ||| -mask).getLsbD i = (0 : BitVec w).getLsbD i := by rw [hsum]
  rw [BitVec.getLsbD_or] at hbit
  have hzero : (0 : BitVec w).getLsbD i = false := BitVec.getLsbD_zero
  rw [hzero] at hbit ⊢
  exact (Bool.or_eq_false_iff.mp hbit).1

/-- Flipping significant bits leaves the cube. -/
theorem xor_notMem_cube (hcanon : value &&& mask = value) (hbits : x &&& mask ≠ 0) :
    value ^^^ x ∉ cube value mask := by
  rw [mem_cube]
  intro hin
  refine hbits (BitVec.eq_of_getElem_eq fun i hi => ?_)
  have hi' : ((value ^^^ x) &&& mask)[i] = (value &&& mask)[i] := by rw [hin, hcanon]
  rw [BitVec.getElem_and, BitVec.getElem_xor, BitVec.getElem_and] at hi'
  rw [BitVec.getElem_and]
  have hcancel : ∀ v b m : Bool, ((v ^^ b) && m) = (v && m) → (b && m) = false := by decide
  exact (hcancel _ _ _ hi').trans (by simp)

end Ternary
