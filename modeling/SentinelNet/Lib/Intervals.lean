import Mathlib

/-!
# Lists of closed integer intervals

A list of pairs `(lo, hi)` stands for the union of the closed intervals `[lo, hi]`.  Sorting the
list and running one merging pass over it, which joins an interval to the previous one when the
two overlap or touch, changes the list and not the union.

* `covers_coalesce`: the merging pass keeps the union of a sorted list.
* `covers_normalize`: so does sorting followed by merging.
* `covers_of_forall_within`: a union is contained in another one interval by interval.
* `Separated.exists_within`: after merging, it is contained in no other case.
* `Separated.ext`: a union has one such list.
-/

namespace Intervals

/-- `x` lies in one of the intervals. -/
def Covers (l : List (ℤ × ℤ)) (x : ℤ) : Prop := ∃ p ∈ l, p.1 ≤ x ∧ x ≤ p.2

@[simp] theorem covers_nil (x : ℤ) : ¬ Covers [] x := by
  rintro ⟨p, hp, -⟩
  cases hp

variable {l : List (ℤ × ℤ)} {x : ℤ}

theorem covers_cons {p : ℤ × ℤ} : Covers (p :: l) x ↔ (p.1 ≤ x ∧ x ≤ p.2) ∨ Covers l x := by
  simp only [Covers, List.mem_cons, or_and_right, exists_or, exists_eq_left]

theorem covers_congr {l' : List (ℤ × ℤ)} (h : ∀ p, p ∈ l ↔ p ∈ l') : Covers l x ↔ Covers l' x := by
  simp only [Covers, h]

/-- A union is contained in another one when each of its intervals lies inside one interval of
the other. -/
theorem covers_of_forall_within {l' : List (ℤ × ℤ)}
    (h : ∀ p ∈ l, ∃ q ∈ l', q.1 ≤ p.1 ∧ p.2 ≤ q.2) (hx : Covers l x) : Covers l' x := by
  obtain ⟨p, hp, hlo, hhi⟩ := hx
  obtain ⟨q, hq, hqlo, hqhi⟩ := h p hp
  exact ⟨q, hq, hqlo.trans hlo, hhi.trans hqhi⟩

/-! ## The merging pass -/

/-- The merging pass over a sorted list, with the interval that is still growing. -/
def coalesce (cur : ℤ × ℤ) : List (ℤ × ℤ) → List (ℤ × ℤ)
  | [] => [cur]
  | p :: l => if p.1 ≤ cur.2 + 1 then coalesce (cur.1, max cur.2 p.2) l else cur :: coalesce p l

theorem joined_iff {cur p : ℤ × ℤ} (hle : cur.1 ≤ p.1) (htouch : p.1 ≤ cur.2 + 1) :
    (cur.1 ≤ x ∧ x ≤ max cur.2 p.2) ↔ (cur.1 ≤ x ∧ x ≤ cur.2) ∨ (p.1 ≤ x ∧ x ≤ p.2) := by
  omega

/-- The merging pass keeps the union. -/
theorem covers_coalesce {cur : ℤ × ℤ} (hcur : cur.1 ≤ cur.2)
    (hwf : ∀ p ∈ l, p.1 ≤ p.2) (hsorted : (cur :: l).Pairwise fun a b => a.1 ≤ b.1) :
    Covers (coalesce cur l) x ↔ Covers (cur :: l) x := by
  induction l generalizing cur with
  | nil => rfl
  | cons p l ih =>
    have hp : p.1 ≤ p.2 := hwf p List.mem_cons_self
    have hwf' : ∀ q ∈ l, q.1 ≤ q.2 := (List.forall_mem_cons.mp hwf).2
    obtain ⟨hfst, hrest⟩ := List.pairwise_cons.mp hsorted
    have hle : cur.1 ≤ p.1 := hfst p List.mem_cons_self
    rw [coalesce]
    by_cases htouch : p.1 ≤ cur.2 + 1
    · have hsorted' : ((cur.1, max cur.2 p.2) :: l).Pairwise fun a b => a.1 ≤ b.1 :=
        List.pairwise_cons.mpr ⟨(List.forall_mem_cons.mp hfst).2,
          (List.pairwise_cons.mp hrest).2⟩
      have hcur' : (cur.1, max cur.2 p.2).1 ≤ (cur.1, max cur.2 p.2).2 :=
        hcur.trans (le_max_left _ _)
      rw [if_pos htouch, ih hcur' hwf' hsorted', covers_cons, joined_iff hle htouch,
        covers_cons, covers_cons, or_assoc]
    · rw [if_neg htouch, covers_cons, ih hp hwf' hrest, covers_cons (p := cur)]

/-! ## Gaps -/

/-- Intervals in order, with a gap between one and the next. -/
structure Separated (l : List (ℤ × ℤ)) : Prop where
  ordered : ∀ p ∈ l, p.1 ≤ p.2
  gaps : l.Pairwise fun a b => a.2 + 1 < b.1

/-- The merging pass leaves gaps, and nothing before the interval that is still growing. -/
theorem separated_coalesce {cur : ℤ × ℤ} (hcur : cur.1 ≤ cur.2)
    (hwf : ∀ p ∈ l, p.1 ≤ p.2) (hsorted : (cur :: l).Pairwise fun a b => a.1 ≤ b.1) :
    Separated (coalesce cur l) ∧ ∀ q ∈ coalesce cur l, cur.1 ≤ q.1 := by
  induction l generalizing cur with
  | nil => simp [coalesce, hcur, Separated.mk]
  | cons p l ih =>
    obtain ⟨hfst, hrest⟩ := List.pairwise_cons.mp hsorted
    have hwf' : ∀ q ∈ l, q.1 ≤ q.2 := (List.forall_mem_cons.mp hwf).2
    rw [coalesce]
    split
    · exact ih (hcur.trans (le_max_left _ _)) hwf' (List.pairwise_cons.mpr
        ⟨(List.forall_mem_cons.mp hfst).2, (List.pairwise_cons.mp hrest).2⟩)
    · next htouch =>
      obtain ⟨hsep, hafter⟩ := ih (hwf p List.mem_cons_self) hwf' hrest
      have hle : cur.1 ≤ p.1 := hfst p List.mem_cons_self
      refine ⟨⟨List.forall_mem_cons.mpr ⟨hcur, hsep.ordered⟩,
        List.pairwise_cons.mpr ⟨fun q hq => ?_, hsep.gaps⟩⟩,
        List.forall_mem_cons.mpr ⟨le_refl _, fun q hq => hle.trans (hafter q hq)⟩⟩
      have hq' := hafter q hq
      omega

/-- Different intervals of a list with gaps are apart. -/
theorem Separated.apart (h : Separated l) {p q : ℤ × ℤ} (hp : p ∈ l) (hq : q ∈ l) (hne : p ≠ q) :
    p.2 + 1 < q.1 ∨ q.2 + 1 < p.1 := by
  have hapart : l.Pairwise fun a b => a.2 + 1 < b.1 ∨ b.2 + 1 < a.1 := h.gaps.imp Or.inl
  have : Std.Symm fun a b : ℤ × ℤ => a.2 + 1 < b.1 ∨ b.2 + 1 < a.1 := ⟨fun _ _ => Or.symm⟩
  exact hapart.forall hp hq hne

/-- Where there are gaps, an interval that is covered lies inside one of the intervals. -/
theorem Separated.exists_within (h : Separated l) {p : ℤ × ℤ} (hp : p.1 ≤ p.2)
    (hcovered : ∀ x, p.1 ≤ x → x ≤ p.2 → Covers l x) : ∃ q ∈ l, q.1 ≤ p.1 ∧ p.2 ≤ q.2 := by
  obtain ⟨q, hq, hlo, hhi⟩ := hcovered p.1 (le_refl _) hp
  refine ⟨q, hq, hlo, not_lt.mp fun hlt => ?_⟩
  -- the first number after `q` would be in another interval, which touches `q`
  obtain ⟨q', hq', hlo', hhi'⟩ := hcovered (q.2 + 1) (by omega) (by omega)
  have hne : q ≠ q' := by
    rintro rfl
    omega
  have hrel := h.apart hq hq' hne
  omega

theorem Separated.subset {l' : List (ℤ × ℤ)} (h : Separated l) (h' : Separated l')
    (hsame : ∀ x, Covers l x ↔ Covers l' x) : l ⊆ l' := by
  intro p hp
  have hle := h.ordered p hp
  obtain ⟨q, hq, hlo, hhi⟩ := h'.exists_within hle fun x hlo hhi => (hsame x).mp ⟨p, hp, hlo, hhi⟩
  obtain ⟨r, hr, hlo', hhi'⟩ := h.exists_within (h'.ordered q hq) fun x hlo hhi =>
    (hsame x).mpr ⟨q, hq, hlo, hhi⟩
  have hpr : p = r := by
    by_contra hne
    have := h.apart hp hr hne
    omega
  subst hpr
  have hpq : p = q := Prod.ext (by omega) (by omega)
  exact hpq ▸ hq

/-- A union has one list with gaps. -/
theorem Separated.ext {l' : List (ℤ × ℤ)} (h : Separated l) (h' : Separated l')
    (hsame : ∀ x, Covers l x ↔ Covers l' x) : l = l' := by
  have hnodup : ∀ {l}, Separated l → l.Nodup := fun {l} h =>
    h.gaps.imp_of_mem fun ha _ hlt heq => by
      have := h.ordered _ ha
      rw [heq] at this hlt
      omega
  have hperm : l.Perm l' := (List.perm_ext_iff_of_nodup (hnodup h) (hnodup h')).mpr fun p =>
    ⟨fun hp => h.subset h' hsame hp, fun hp => h'.subset h (fun x => (hsame x).symm) hp⟩
  refine hperm.eq_of_pairwise (fun a b ha hb hab hba => ?_) h.gaps h'.gaps
  have := h.ordered a ha
  have := h'.ordered b hb
  omega

/-! ## Sorting and merging -/

/-- Pairs in lexicographic order. -/
def lexLe (a b : ℤ × ℤ) : Prop := a.1 < b.1 ∨ (a.1 = b.1 ∧ a.2 ≤ b.2)

instance : DecidableRel lexLe := fun a b =>
  inferInstanceAs (Decidable (a.1 < b.1 ∨ (a.1 = b.1 ∧ a.2 ≤ b.2)))

instance : Std.Total lexLe := ⟨fun a b => by unfold lexLe; omega⟩

instance : IsTrans (ℤ × ℤ) lexLe := ⟨fun a b c => by unfold lexLe; omega⟩

theorem fst_le_of_lexLe {a b : ℤ × ℤ} (h : lexLe a b) : a.1 ≤ b.1 := by
  rcases h with h | h
  · exact h.le
  · exact h.1.le

/-- Sort the intervals and merge them. -/
def normalize (l : List (ℤ × ℤ)) : List (ℤ × ℤ) :=
  match l.insertionSort lexLe with
  | [] => []
  | p :: l => coalesce p l

/-- Sorting and merging keep the union. -/
theorem covers_normalize (hwf : ∀ p ∈ l, p.1 ≤ p.2) : Covers (normalize l) x ↔ Covers l x := by
  have hmem : ∀ p, p ∈ l.insertionSort lexLe ↔ p ∈ l := fun p => List.mem_insertionSort lexLe
  have hsorted := List.pairwise_insertionSort lexLe l
  rw [normalize]
  rcases hs : l.insertionSort lexLe with _ | ⟨p, t⟩
  · rw [← covers_congr hmem, hs]
  · rw [hs] at hsorted
    have hwf' : ∀ q ∈ p :: t, q.1 ≤ q.2 := fun q hq => hwf q ((hmem q).mp (hs ▸ hq))
    rw [← covers_congr hmem, hs]
    exact covers_coalesce (hwf' p List.mem_cons_self)
      (List.forall_mem_cons.mp hwf').2
      (hsorted.imp fun h => fst_le_of_lexLe h)

/-- Sorting and merging leave gaps. -/
theorem separated_normalize (hwf : ∀ p ∈ l, p.1 ≤ p.2) : Separated (normalize l) := by
  have hmem : ∀ p, p ∈ l.insertionSort lexLe ↔ p ∈ l := fun p => List.mem_insertionSort lexLe
  have hsorted := List.pairwise_insertionSort lexLe l
  rw [normalize]
  rcases hs : l.insertionSort lexLe with _ | ⟨p, t⟩
  · exact ⟨fun p hp => absurd hp List.not_mem_nil, List.Pairwise.nil⟩
  · rw [hs] at hsorted
    have hwf' : ∀ q ∈ p :: t, q.1 ≤ q.2 := fun q hq => hwf q ((hmem q).mp (hs ▸ hq))
    exact (separated_coalesce (hwf' p List.mem_cons_self)
      (List.forall_mem_cons.mp hwf').2
      (hsorted.imp fun h => fst_le_of_lexLe h)).1

end Intervals
