import Mathlib

/-!
# Ranges as aligned blocks

The greedy decomposition of a range of numbers into blocks of `2 ^ k` numbers that start at a
multiple of `2 ^ k`, as `ipaddress.summarize_address_range` makes it: at each start the largest
block that is aligned there and does not pass the end.

* `mem_blocks`: every block is aligned.
* `exists_block_iff`: the blocks have exactly the numbers of the range.
-/

namespace Dyadic

def lowZeros (bits n : ℕ) : ℕ :=
  ((List.range (bits + 1)).reverse.find? fun k => n % 2 ^ k == 0).getD 0

/-- The size of the largest block at a start. -/
def blockBits (bits first last : ℕ) : ℕ := min (lowZeros bits first) (Nat.log2 (last - first + 1))

/-- The rounds of the decomposition. -/
def blocksGo (bits last : ℕ) : ℕ → ℕ → List (ℕ × ℕ)
  | 0, _ => []
  | n + 1, first =>
    if first ≤ last then
      let k := blockBits bits first last
      (first, k) :: blocksGo bits last n (first + 2 ^ k)
    else []

/-- The blocks of `first..last`, each as its start and the logarithm of its size. -/
def blocks (bits first last : ℕ) : List (ℕ × ℕ) := blocksGo bits last (last + 1 - first) first

theorem dvd_of_lowZeros (bits n : ℕ) : 2 ^ lowZeros bits n ∣ n := by
  rw [lowZeros]
  rcases h : (List.range (bits + 1)).reverse.find? fun k => n % 2 ^ k == 0 with _ | k
  · simp
  · have hk := List.find?_some h
    exact Nat.dvd_of_mod_eq_zero (by simpa using hk)

theorem lowZeros_le (bits n : ℕ) : lowZeros bits n ≤ bits := by
  rw [lowZeros]
  rcases h : (List.range (bits + 1)).reverse.find? fun k => n % 2 ^ k == 0 with _ | k
  · simp
  · have hk := List.mem_of_find?_eq_some h
    have hlt : k < bits + 1 := by simpa using hk
    simpa using Nat.lt_succ_iff.mp hlt

theorem dvd_of_blockBits (bits first last : ℕ) : 2 ^ blockBits bits first last ∣ first :=
  (pow_dvd_pow 2 (Nat.min_le_left _ _)).trans (dvd_of_lowZeros bits first)

theorem pow_blockBits_le (bits first last : ℕ) :
    2 ^ blockBits bits first last ≤ last - first + 1 :=
  (Nat.pow_le_pow_right Nat.two_pos (Nat.min_le_right _ _)).trans
    (Nat.log2_self_le (Nat.succ_ne_zero _))

theorem mem_blocksGo {bits last : ℕ} : ∀ {n first : ℕ} {b : ℕ × ℕ},
    b ∈ blocksGo bits last n first → 2 ^ b.2 ∣ b.1 ∧ b.1 + 2 ^ b.2 ≤ last + 1 ∧ b.2 ≤ bits
  | 0, _, _, h => nomatch h
  | n + 1, first, b, h => by
    rw [blocksGo] at h
    split at h
    · next hle =>
      rcases List.mem_cons.mp h with rfl | h
      · have hsize := pow_blockBits_le bits first last
        refine ⟨dvd_of_blockBits bits first last, ?_,
          (Nat.min_le_left _ _).trans (lowZeros_le bits first)⟩
        dsimp only
        omega
      · exact mem_blocksGo h
    · cases h

theorem mem_blocks {bits first last : ℕ} {b : ℕ × ℕ} (h : b ∈ blocks bits first last) :
    2 ^ b.2 ∣ b.1 ∧ b.1 + 2 ^ b.2 ≤ last + 1 ∧ b.2 ≤ bits := mem_blocksGo h

theorem exists_blockGo_iff {bits last x : ℕ} : ∀ {n first : ℕ}, last + 1 - first ≤ n →
    ((∃ b ∈ blocksGo bits last n first, b.1 ≤ x ∧ x < b.1 + 2 ^ b.2) ↔ first ≤ x ∧ x ≤ last)
  | 0, first, hn => by
    rw [blocksGo]
    simp only [List.not_mem_nil, false_and, exists_false, false_iff]
    omega
  | n + 1, first, hn => by
    rw [blocksGo]
    split
    · next hle =>
      have hsize := pow_blockBits_le bits first last
      have hpos : 0 < 2 ^ blockBits bits first last := Nat.two_pow_pos _
      have hn' : last + 1 - (first + 2 ^ blockBits bits first last) ≤ n := by omega
      have ih : (∃ b ∈ blocksGo bits last n (first + 2 ^ blockBits bits first last),
          b.1 ≤ x ∧ x < b.1 + 2 ^ b.2) ↔
          first + 2 ^ blockBits bits first last ≤ x ∧ x ≤ last := exists_blockGo_iff hn'
      simp only [List.mem_cons, exists_eq_or_imp, ih]
      omega
    · simp only [List.not_mem_nil, false_and, exists_false, false_iff]
      omega

/-- The blocks have exactly the numbers of the range. -/
theorem exists_block_iff {bits first last x : ℕ} :
    (∃ b ∈ blocks bits first last, b.1 ≤ x ∧ x < b.1 + 2 ^ b.2) ↔ first ≤ x ∧ x ≤ last :=
  exists_blockGo_iff le_rfl

end Dyadic
