import Mathlib

/-!
# Windows and instants that come again

A window that opens and closes once in every cycle of `n` instants, and instants that keep a
distance.

* `not_inside_next`: the window is over when it closes.
* `lt_next_of_inside`: it is not over before.
* `not_inside_of_clear`: who waits for every window to be over comes outside.
* `length_mul_le_of_spaced`: instants that keep a distance are few in a period.
-/

namespace Recurring

variable {n a b t t' : ℤ}

/-- An instant is inside the window from the place `a` to the place `b` of a cycle. -/
def Inside (n a b t : ℤ) : Prop := (t - a) % n < (b - a) % n

/-- The next instant at the place `b` of a cycle. -/
def next (n b t : ℤ) : ℤ := t + 1 + (b - t - 1) % n

/-- Every window that opens between two instants is over at the second one. -/
def Clear (n a b t t' : ℤ) : Prop :=
  ∀ opening, opening ≡ a [ZMOD n] → t < opening → opening ≤ t' → next n b opening ≤ t'

theorem lt_next (hn : 0 < n) : t < next n b t := by
  have hpos := Int.emod_nonneg (b - t - 1) hn.ne'
  rw [next]
  omega

theorem next_modEq : next n b t ≡ b [ZMOD n] := by
  have hmod : (b - t - 1) % n ≡ b - t - 1 [ZMOD n] := Int.mod_modEq _ _
  have hsum := hmod.add_left (t + 1)
  rwa [show t + 1 + (b - t - 1) = b by omega] at hsum

theorem not_inside_of_modEq (h : t ≡ b [ZMOD n]) : ¬ Inside n a b t := by
  have heq : (t - a) % n = (b - a) % n := h.sub_right a
  rw [Inside, heq]
  exact lt_irrefl _

theorem not_inside_next : ¬ Inside n a b (next n b t) := not_inside_of_modEq next_modEq

variable {opening : ℤ}

theorem emod_sub_of_opening (hopening : opening ≡ a [ZMOD n])
    (hle : opening ≤ t) (hlt : t < opening + n) : (t - a) % n = t - opening := by
  have heq : (t - opening) % n = (t - a) % n := hopening.sub_left t
  rw [← heq]
  exact Int.emod_eq_of_lt (by omega) (by omega)

theorem next_of_opening (hn : 0 < n) (hopening : opening ≡ a [ZMOD n])
    (hne : (b - a) % n ≠ 0) : next n b opening = opening + (b - a) % n := by
  have hlow := Int.emod_nonneg (b - a) hn.ne'
  have hhigh := Int.emod_lt_of_pos (b - a) hn
  have hmod : b - opening - 1 ≡ (b - a) % n - 1 [ZMOD n] := by
    refine Int.ModEq.sub_right 1 ?_
    exact (hopening.sub_left b).trans (Int.mod_modEq _ _).symm
  have heq : (b - opening - 1) % n = (b - a) % n - 1 := by
    rw [hmod]
    exact Int.emod_eq_of_lt (by omega) (by omega)
  rw [next, heq]
  omega

theorem exists_opening (hn : 0 < n) (a t : ℤ) :
    ∃ opening, opening ≡ a [ZMOD n] ∧ opening ≤ t ∧ t < opening + n ∧
      (t - a) % n = t - opening := by
  have hlow := Int.emod_nonneg (t - a) hn.ne'
  have hhigh := Int.emod_lt_of_pos (t - a) hn
  refine ⟨t - (t - a) % n, ?_, by omega, by omega, by omega⟩
  have hmod : (t - a) % n ≡ t - a [ZMOD n] := Int.mod_modEq _ _
  have hsub := hmod.sub_left t
  rwa [show t - (t - a) = a by omega] at hsub

/-- Inside the window it is not over. -/
theorem lt_next_of_inside (hn : 0 < n) (hopening : opening ≡ a [ZMOD n])
    (hle : opening ≤ t) (hlt : t < opening + n) (hin : Inside n a b t) :
    t < next n b opening := by
  rw [Inside, emod_sub_of_opening hopening hle hlt] at hin
  rw [next_of_opening hn hopening (by omega)]
  omega

/-- Who leaves outside the window, and waits for every window that opens to be over, comes outside
the window. -/
theorem not_inside_of_clear (hn : 0 < n) (hout : ¬ Inside n a b t) (hle : t ≤ t')
    (hclear : Clear n a b t t') : ¬ Inside n a b t' := by
  intro hin
  obtain ⟨opening, hopening, hopen, hlast, hsince⟩ := exists_opening hn a t'
  rcases lt_or_ge t opening with hlt | hge
  · exact (lt_next_of_inside hn hopening hopen hlast hin).not_ge
      (hclear opening hopening hlt hopen)
  · refine hout ?_
    rw [Inside, emod_sub_of_opening hopening hge (by omega)]
    rw [Inside, hsince] at hin
    omega

/-! ## Instants at a distance -/

/-- Instants that keep a distance are few in a period. -/
theorem length_mul_le_of_spaced {K : Type*} [CommRing K] [LinearOrder K] [IsStrictOrderedRing K]
    {d y : K} : ∀ {l : List K} {x : K}, l.Pairwise (fun a b => a + d ≤ b) →
      (∀ a ∈ l, x ≤ a ∧ a ≤ y) → x ≤ y + d → (l.length : K) * d ≤ y - x + d
  | [], x, _, _, h => by
    rw [List.length_nil, Nat.cast_zero, zero_mul]
    linarith
  | a :: l, x, hspaced, hin, _ => by
    obtain ⟨hfirst, hrest⟩ := List.pairwise_cons.mp hspaced
    obtain ⟨hxa, hay⟩ := hin a List.mem_cons_self
    have htail := length_mul_le_of_spaced hrest
      (fun b hb => ⟨hfirst b hb, (hin b (List.mem_cons_of_mem _ hb)).2⟩) (by linarith)
    rw [List.length_cons, Nat.cast_succ, add_mul, one_mul]
    linarith

end Recurring
