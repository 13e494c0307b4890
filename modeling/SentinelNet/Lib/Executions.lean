import Mathlib

/-!
# Executions without end

A machine that takes one action after the other and never stops.

* `Execution.invariant`: what every step keeps holds in every later state.
* `Execution.leadsTo`: what comes nearer again and again is reached.
-/

namespace Executions

variable {σ α : Type*} {step : σ → α → σ}

/-- The states and the actions of an execution. -/
structure Execution (step : σ → α → σ) where
  state : ℕ → σ
  act : ℕ → α
  next : ∀ n, state (n + 1) = step (state n) (act n)

namespace Execution

/-- The execution of a sequence of actions. -/
def ofActs (start : σ) (act : ℕ → α) : Execution step where
  state n := Nat.rec start (fun k s => step s (act k)) n
  act := act
  next _ := rfl

variable (x : Execution step)

/-- What every step from some state on keeps holds in every later state. -/
theorem invariant {I : σ → Prop} {n : ℕ}
    (hstep : ∀ k, n ≤ k → I (x.state k) → I (step (x.state k) (x.act k))) (h : I (x.state n))
    {m : ℕ} (hm : n ≤ m) : I (x.state m) := by
  induction m, hm using Nat.le_induction with
  | base => exact h
  | succ m hm ih =>
    rw [x.next]
    exact hstep m hm ih

/-- Some actions come again and again. -/
def Recurs (helpful : α → Prop) : Prop := ∀ n, ∃ m, n ≤ m ∧ helpful (x.act m)

/-- Every step keeps `P` and goes no further away, the helpful actions come nearer, until `Q`. -/
structure Nears (P Q : σ → Prop) (helpful : α → Prop) (rank : σ → ℕ) (n : ℕ) : Prop where
  keeps : P (x.state n) → ¬Q (step (x.state n) (x.act n)) → P (step (x.state n) (x.act n))
  stays : P (x.state n) → ¬Q (step (x.state n) (x.act n)) →
    rank (step (x.state n) (x.act n)) ≤ rank (x.state n)
  nearer : P (x.state n) → ¬Q (step (x.state n) (x.act n)) → helpful (x.act n) →
    rank (step (x.state n) (x.act n)) < rank (x.state n)

/-- What comes nearer again and again is reached. -/
theorem leadsTo {P Q : σ → Prop} {helpful : α → Prop} {rank : σ → ℕ} (hrecurs : x.Recurs helpful)
    (hnears : ∀ n, x.Nears P Q helpful rank n) {n : ℕ} (h : P (x.state n)) :
    ∃ m, n ≤ m ∧ Q (x.state m) := by
  -- the rank decreases from one helpful action to the next
  induction hr : rank (x.state n) using Nat.strong_induction_on generalizing n with
  | _ r ih =>
    by_contra hnever
    have hnot : ∀ m, n ≤ m → ¬Q (x.state m) := fun m hm hQ => hnever ⟨m, hm, hQ⟩
    have hall : ∀ m, n ≤ m → P (x.state m) ∧ rank (x.state m) ≤ r := by
      intro m hm
      induction m, hm using Nat.le_induction with
      | base => exact ⟨h, hr.le⟩
      | succ m hm hstep =>
        have hQ := hnot (m + 1) (hm.trans m.le_succ)
        rw [x.next] at hQ ⊢
        exact ⟨(hnears m).keeps hstep.1 hQ, ((hnears m).stays hstep.1 hQ).trans hstep.2⟩
    obtain ⟨m, hm, hhelpful⟩ := hrecurs n
    have hQ := hnot (m + 1) (hm.trans m.le_succ)
    have hP := (hall (m + 1) (hm.trans m.le_succ)).1
    have hlt : rank (x.state (m + 1)) < r := by
      rw [x.next] at hQ ⊢
      exact ((hnears m).nearer (hall m hm).1 hQ hhelpful).trans_le (hall m hm).2
    obtain ⟨k, hk, hQk⟩ := ih _ hlt hP rfl
    exact hnot k ((hm.trans m.le_succ).trans hk) hQk

end Execution

theorem false_of_rank {rank : ℕ → ℕ} {good : ℕ → Prop} {n : ℕ}
    (hgood : ∀ m, n ≤ m → ∃ k, m ≤ k ∧ good k) (hstay : ∀ m, n ≤ m → rank (m + 1) ≤ rank m)
    (hfall : ∀ m, n ≤ m → good m → rank (m + 1) < rank m) : False := by
  -- the rank at some instant is below what it was at any instant before
  have hmono : ∀ m k, n ≤ m → m ≤ k → rank k ≤ rank m := by
    intro m k hm hk
    induction k, hk using Nat.le_induction with
    | base => exact le_rfl
    | succ k hk ih => exact (hstay k (hm.trans hk)).trans ih
  have hlower : ∀ r m, n ≤ m → rank m ≠ r := by
    intro r
    induction r using Nat.strong_induction_on with
    | _ r ih =>
      rintro m hm rfl
      obtain ⟨k, hk, hgood⟩ := hgood m hm
      have hlt := (hfall k (hm.trans hk) hgood).trans_le (hmono m k hm hk)
      exact ih _ hlt (k + 1) ((hm.trans hk).trans k.le_succ) rfl
  exact hlower _ n le_rfl rfl

end Executions
