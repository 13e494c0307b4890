import Mathlib

/-!
# Confirmed changes of a signal

A signal takes one value after the other.  A value is announced when it comes the second time in a
row and is not the one that was announced last.

* `isChain_announcements`: no value is announced twice in a row, nor first the one that was held.
* `Counter.Counts`, `Counter.announcement_eq`: a counter announces what it should.
-/

namespace Debounce

variable {α : Type*} [DecidableEq α]

/-! ## The signal -/

/-- The next value is the second of its kind in a row; `seen` has the last value first. -/
def Second (seen : List α) (v : α) : Prop := seen.head? = some v ∧ seen.tail.head? ≠ some v

instance (seen : List α) (v : α) : Decidable (Second seen v) :=
  inferInstanceAs (Decidable (_ ∧ _))

/-- What the next value has announced. -/
def announcement (told : α) (seen : List α) (v : α) : Option α :=
  if Second seen v ∧ v ≠ told then some v else none

/-- What is announced at each value of a signal. -/
def announcements : α → List α → List α → List (Option α)
  | _, _, [] => []
  | told, seen, v :: signal =>
    announcement told seen v ::
      announcements ((announcement told seen v).getD told) (v :: seen) signal

theorem announcement_cases (told : α) (seen : List α) (v : α) :
    announcement told seen v = none ∨ (announcement told seen v = some v ∧ v ≠ told) := by
  rw [announcement]
  split
  · next h => exact .inr ⟨rfl, h.2⟩
  · exact .inl rfl

/-- An announced value is not the one that was announced before it. -/
theorem isChain_announcements (told : α) (seen signal : List α) :
    (told :: (announcements told seen signal).flatMap Option.toList).IsChain (· ≠ ·) := by
  induction signal generalizing told seen with
  | nil => exact List.isChain_singleton told
  | cons v signal ih =>
    rw [announcements, List.flatMap_cons]
    rcases announcement_cases told seen v with h | ⟨h, hne⟩
    · rw [h]
      exact ih told (v :: seen)
    · rw [h]
      exact List.isChain_cons_cons.mpr ⟨Ne.symm hne, ih v (v :: seen)⟩

/-! ## Counters -/

/-- The last value, how often it came in a row, and what was announced last. -/
structure Counter (α : Type*) where
  last : α
  count : ℕ
  told : α

namespace Counter

/-- The count with the next value. -/
def countWith (c : Counter α) (v : α) : ℕ := if c.last = v then c.count + 1 else 1

def announces (c : Counter α) (v : α) : Option α :=
  if c.countWith v = 2 ∧ v ≠ c.told then some v else none

def next (c : Counter α) (v : α) : Counter α := ⟨v, c.countWith v, (c.announces v).getD c.told⟩

/-- A counter has the last value of a signal, counts its last stretch, and has what was announced
last. -/
structure Counts (c : Counter α) (told : α) (seen : List α) : Prop where
  last : seen.head? = some c.last
  count : 0 < c.count ∧ (c.count = 1 ↔ seen.tail.head? ≠ some c.last)
  told : c.told = told

omit [DecidableEq α] in
theorem counts_first (v told : α) : Counts ⟨v, 1, told⟩ told [v] :=
  ⟨rfl, ⟨Nat.one_pos, fun _ => nofun, fun _ => rfl⟩, rfl⟩

variable {c : Counter α} {told : α} {seen : List α}

theorem Counts.countWith_eq_two (h : Counts c told seen) (v : α) :
    c.countWith v = 2 ↔ Second seen v := by
  rw [countWith, Second, h.last, Option.some.injEq]
  split
  · next heq =>
    subst heq
    constructor
    · intro htwo
      exact ⟨rfl, h.count.2.mp (by omega)⟩
    · intro hsecond
      rw [h.count.2.mpr hsecond.2]
  · next hne => exact ⟨fun h => absurd h (by decide), fun h => absurd h.1 hne⟩

theorem Counts.announces_eq (h : Counts c told seen) (v : α) :
    c.announces v = announcement told seen v := by
  rw [announces, announcement, h.told]
  simp only [h.countWith_eq_two v]

/-- A counter goes on. -/
theorem Counts.next (h : Counts c told seen) (v : α) :
    Counts (c.next v) ((announcement told seen v).getD told) (v :: seen) where
  last := rfl
  count := by
    have hlast := h.last
    rw [List.tail_cons, hlast, Ne, Option.some.injEq]
    change 0 < c.countWith v ∧ (c.countWith v = 1 ↔ ¬ c.last = v)
    rw [countWith]
    split
    · next heq =>
      refine ⟨Nat.succ_pos _, fun hone => ?_, fun hne => absurd heq hne⟩
      have hpos := h.count.1
      omega
    · next hne => exact ⟨Nat.one_pos, fun _ => hne, fun _ => rfl⟩
  told := by
    rw [← h.announces_eq v, ← h.told]
    rfl

end Counter

end Debounce
