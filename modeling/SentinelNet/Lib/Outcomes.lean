/-!
# Computations that raise

What a computation returns and what it raises, as one statement, with the rules to put such
statements together.

* `Ends.bind`, `Ends.ite`: one computation after the other, and a choice of two.
* `Ends.mono`: weaker properties.
-/

namespace Outcomes

variable {ε α β : Type} {x : Except ε α} {f : α → Except ε β} {Q Q' : α → Prop} {R : β → Prop}
  {P P' : ε → Prop}

/-- A computation returns a value with `Q` or raises an exception with `P`. -/
def Ends (x : Except ε α) (Q : α → Prop) (P : ε → Prop) : Prop :=
  match x with
  | .ok a => Q a
  | .error e => P e

@[simp] theorem ends_ok {a : α} : Ends (.ok a) Q P ↔ Q a := Iff.rfl

@[simp] theorem ends_pure {a : α} : Ends (pure a : Except ε α) Q P ↔ Q a := Iff.rfl

@[simp] theorem ends_error {e : ε} : Ends (.error e : Except ε α) Q P ↔ P e := Iff.rfl

/-- One computation after the other. -/
theorem Ends.bind (hx : Ends x Q P) (hf : ∀ a, Q a → Ends (f a) R P) : Ends (x >>= f) R P := by
  cases x with
  | error e => exact hx
  | ok a => exact hf a hx

/-- A choice. -/
theorem Ends.ite {c : Prop} [Decidable c] {y : Except ε α} (hx : c → Ends x Q P)
    (hy : ¬ c → Ends y Q P) : Ends (if c then x else y) Q P := by
  by_cases hc : c
  · rw [if_pos hc]
    exact hx hc
  · rw [if_neg hc]
    exact hy hc

/-- Weaker properties. -/
theorem Ends.mono (hx : Ends x Q P) (hQ : ∀ a, Q a → Q' a) (hP : ∀ e, P e → P' e) :
    Ends x Q' P' := by
  cases x with
  | error e => exact hP e hx
  | ok a => exact hQ a hx

theorem Ends.and (hx : Ends x Q P) (hx' : Ends x Q' P') :
    Ends x (fun a => Q a ∧ Q' a) (fun e => P e ∧ P' e) := by
  cases x with
  | error e => exact ⟨hx, hx'⟩
  | ok a => exact ⟨hx, hx'⟩

theorem Ends.of_ok (hx : Ends x Q P) {a : α} (h : x = .ok a) : Q a := by
  rw [h] at hx
  exact hx

theorem Ends.of_error (hx : Ends x Q P) {e : ε} (h : x = .error e) : P e := by
  rw [h] at hx
  exact hx

theorem bind_eq {a : α} (h : x = .ok a) (f : α → Except ε β) : (x >>= f) = f a := by
  rw [h]
  rfl

theorem bind_ok {b : β} (h : (x >>= f) = .ok b) : ∃ a, x = .ok a ∧ f a = .ok b := by
  cases x with
  | error e => exact absurd h (by simp [Bind.bind, Except.bind])
  | ok a => exact ⟨a, rfl, h⟩

theorem map_ok {g : α → β} {b : β} (h : x.map g = .ok b) : ∃ a, x = .ok a ∧ g a = b := by
  cases x with
  | error e => cases h
  | ok a => exact ⟨a, rfl, Except.ok.inj h⟩

theorem map_error_iff {g : α → β} : (∃ e, x.map g = .error e) ↔ ∃ e, x = .error e := by
  cases x with
  | error e => exact ⟨fun _ => ⟨e, rfl⟩, fun _ => ⟨e, rfl⟩⟩
  | ok a => exact ⟨fun ⟨_, h⟩ => (nomatch h), fun ⟨_, h⟩ => (nomatch h)⟩

/-- `if not …: raise …`. -/
def demand (ok : Bool) (e : ε) : Except ε Unit := if ok then .ok () else .error e

theorem demand_ok {ok : Bool} {e : ε} (h : demand ok e = .ok ()) : ok = true := by
  unfold demand at h
  by_cases hok : ok = true
  · exact hok
  · rw [if_neg hok] at h
    simp at h

theorem demand_eq_ok {ok : Bool} {e : ε} (h : ok) : demand ok e = .ok () := if_pos h

end Outcomes
