import Mathlib

/-!
# First match against a list that is only partly known

Two lists are walked side by side.  The second one holds what the entries really are, the first
one what is known of them: an entry of the first list may stop a walk where the entry of the
second list does not hit, but never the other way round, and a known entry stops exactly where its
counterpart hits.

* `find?_none_of_forall₂`: a walk that finds nothing finds nothing in what it approximates.
* `find?_some_of_forall₂`: a walk that ends at a known entry ends at its counterpart.
-/

namespace FirstMatch

variable {α β : Type*} {R : α → β → Prop} {stops : α → Bool} {hits : β → Bool}

/-- What hits stops. -/
theorem find?_none_of_forall₂ (hstop : ∀ a b, R a b → hits b = true → stops a = true)
    {as : List α} {bs : List β} (h : List.Forall₂ R as bs) (hnone : as.find? stops = none) :
    bs.find? hits = none := by
  induction h with
  | nil => rfl
  | @cons a b as bs hab _ ih =>
    rw [List.find?_cons] at hnone ⊢
    rcases hb : hits b with _ | _
    · rcases ha : stops a with _ | _
      · rw [ha] at hnone
        exact ih hnone
      · rw [ha] at hnone
        exact absurd hnone (Option.some_ne_none a)
    · rw [hstop a b hab hb] at hnone
      exact absurd hnone (Option.some_ne_none a)

/-- A walk that ends at an entry whose counterpart hits ends there in the other list too. -/
theorem find?_some_of_forall₂ (hstop : ∀ a b, R a b → hits b = true → stops a = true)
    {as : List α} {bs : List β} (h : List.Forall₂ R as bs) {a : α} (hfind : as.find? stops = some a)
    (hknown : ∀ b, R a b → hits b = true) : ∃ b, bs.find? hits = some b ∧ R a b := by
  induction h with
  | nil => simp at hfind
  | @cons a' b as bs hab _ ih =>
    rw [List.find?_cons] at hfind ⊢
    rcases ha : stops a' with _ | _
    · have hb : hits b = false := by
        rcases hb : hits b with _ | _
        · rfl
        · rw [hstop a' b hab hb] at ha
          exact absurd ha (by decide)
      rw [ha] at hfind
      rw [hb]
      exact ih hfind
    · rw [ha] at hfind
      obtain rfl : a' = a := Option.some.inj hfind
      rw [hknown b hab]
      exact ⟨b, rfl, hab⟩

/-- A walk with a narrower test that accepts the entry the wider one ends at ends there too. -/
theorem find?_eq_of_imp {stops' : α → Bool} (himp : ∀ a, stops' a = true → stops a = true)
    {as : List α} (hend : ∀ a, as.find? stops = some a → stops' a = true) :
    as.find? stops' = as.find? stops := by
  induction as with
  | nil => rfl
  | cons a as ih =>
    rw [List.find?_cons] at hend ⊢
    rw [List.find?_cons]
    rcases ha : stops a with _ | _
    · have ha' : stops' a = false := by
        rcases ha' : stops' a with _ | _
        · rfl
        · rw [himp a ha'] at ha
          exact absurd ha (by decide)
      rw [ha] at hend
      rw [ha']
      exact ih hend
    · rw [ha] at hend
      rw [hend a rfl]

end FirstMatch
