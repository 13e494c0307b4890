import Mathlib

/-!
# First come, first served

A loop looks for something in each element of a list, and every finding takes the key of its
element: the later elements of that key find nothing.

* `mem_taken`: the keys that are taken.
* `foldl_take`: an element finds something unless an earlier one of its key does.
* `flatMap_eq_of_unique`: what is put together from one element.
-/

namespace Claims

variable {α β κ : Type*} [DecidableEq κ] (key : α → κ) (found : α → Option β)

/-- A turn of the loop: the findings so far and the keys that are taken. -/
def take (st : List β × List κ) (a : α) : List β × List κ :=
  if key a ∈ st.2 then st
  else
    match found a with
    | none => st
    | some b => (st.1 ++ [b], key a :: st.2)

variable {key found}

variable {l : List α}

/-- The keys that are taken. -/
theorem mem_taken {k : κ} :
    k ∈ (l.foldl (take key found) ([], [])).2 ↔ ∃ a ∈ l, (found a).isSome ∧ key a = k := by
  induction l using List.reverseRecOn with
  | nil => simp
  | append_singleton l a ih =>
    rw [List.foldl_concat, take]
    have hsplit : (∃ b ∈ l ++ [a], (found b).isSome ∧ key b = k) ↔
        (∃ b ∈ l, (found b).isSome ∧ key b = k) ∨ ((found a).isSome ∧ key a = k) := by
      simp only [List.mem_append, List.mem_singleton, or_and_right, exists_or, exists_eq_left]
    rw [hsplit, ← ih]
    split
    · next htaken =>
      constructor
      · exact .inl
      · rintro (h | ⟨-, rfl⟩)
        · exact h
        · exact htaken
    · cases hfound : found a with
      | none => simp
      | some b =>
        simp only [List.mem_cons, Option.isSome_some, true_and]
        rw [or_comm, eq_comm]

/-- An element finds something unless an earlier one of its key does. -/
theorem foldl_take {before : α → α → Prop} [DecidableRel before]
    (hpairs : l.Pairwise before) (hasymm : ∀ a b, before a b → ¬ before b a) :
    (l.foldl (take key found) ([], [])).1 = l.flatMap fun a =>
      if ∃ b ∈ l, before b a ∧ (found b).isSome ∧ key b = key a then [] else (found a).toList := by
  induction l using List.reverseRecOn with
  | nil => rfl
  | append_singleton l a ih =>
    obtain ⟨hl, -, hlast⟩ := List.pairwise_append.mp hpairs
    have hbefore : ∀ b ∈ l, before b a := fun b hb => hlast b hb a (List.mem_singleton_self a)
    have hself : ¬ before a a := fun h => hasymm a a h h
    -- The last element is behind all others.
    have hinit : ∀ b ∈ l,
        ((∃ c ∈ l ++ [a], before c b ∧ (found c).isSome ∧ key c = key b) ↔
          ∃ c ∈ l, before c b ∧ (found c).isSome ∧ key c = key b) := by
      intro b hb
      constructor
      · rintro ⟨c, hc, hcb, hrest⟩
        rcases List.mem_append.mp hc with hc | hc
        · exact ⟨c, hc, hcb, hrest⟩
        · rw [List.mem_singleton.mp hc] at hcb
          exact absurd hcb (hasymm b a (hbefore b hb))
      · rintro ⟨c, hc, hrest⟩
        exact ⟨c, List.mem_append_left _ hc, hrest⟩
    have hend : (∃ c ∈ l ++ [a], before c a ∧ (found c).isSome ∧ key c = key a) ↔
        key a ∈ (l.foldl (take key found) ([], [])).2 := by
      rw [mem_taken]
      constructor
      · rintro ⟨c, hc, hca, hrest⟩
        rcases List.mem_append.mp hc with hc | hc
        · exact ⟨c, hc, hrest⟩
        · rw [List.mem_singleton.mp hc] at hca
          exact absurd hca hself
      · rintro ⟨c, hc, hrest⟩
        exact ⟨c, List.mem_append_left _ hc, hbefore c hc, hrest⟩
    rw [List.foldl_concat, List.flatMap_append, List.flatMap_singleton,
      List.flatMap_congr fun b hb => if_congr (hinit b hb) rfl rfl, ← ih hl, if_congr hend rfl rfl,
      take]
    split
    · exact (List.append_nil _).symm
    · cases found a with
      | none => exact (List.append_nil _).symm
      | some b => rfl

/-- What is found is found in the first element of its key that finds something. -/
theorem mem_foldl_take {b : β} :
    b ∈ (l.foldl (take key found) ([], [])).1 ↔ ∃ l₁ a l₂, l = l₁ ++ a :: l₂ ∧
      found a = some b ∧ ∀ c ∈ l₁, (found c).isSome → key c ≠ key a := by
  induction l using List.reverseRecOn with
  | nil => simp
  | append_singleton l a ih =>
    have hsplit : (∃ l₁ c l₂, l ++ [a] = l₁ ++ c :: l₂ ∧ found c = some b ∧
        ∀ d ∈ l₁, (found d).isSome → key d ≠ key c) ↔
        (∃ l₁ c l₂, l = l₁ ++ c :: l₂ ∧ found c = some b ∧
          ∀ d ∈ l₁, (found d).isSome → key d ≠ key c) ∨
        (found a = some b ∧ ∀ d ∈ l, (found d).isSome → key d ≠ key a) := by
      constructor
      · rintro ⟨l₁, c, l₂, heq, hrest⟩
        rcases List.eq_nil_or_concat l₂ with rfl | ⟨l₂, d, rfl⟩
        · obtain ⟨rfl, hlast⟩ := List.append_inj' heq rfl
          obtain rfl := (List.cons.inj hlast).1
          exact .inr hrest
        · rw [List.concat_eq_append, ← List.cons_append, ← List.append_assoc] at heq
          exact .inl ⟨l₁, c, l₂, (List.append_inj' heq rfl).1, hrest⟩
      · rintro (⟨l₁, c, l₂, rfl, hrest⟩ | hrest)
        · exact ⟨l₁, c, l₂ ++ [a], by simp, hrest⟩
        · exact ⟨l, a, [], rfl, hrest⟩
    rw [hsplit, ← ih, List.foldl_concat, take]
    have htaken : key a ∈ (l.foldl (take key found) ([], [])).2 ↔
        ∃ d ∈ l, (found d).isSome ∧ key d = key a := mem_taken
    split
    · next h =>
      obtain ⟨d, hd, hfound, hkey⟩ := htaken.mp h
      exact ⟨.inl, fun h => h.resolve_right fun ⟨_, hnone⟩ => hnone d hd hfound hkey⟩
    · next h =>
      have hnone : ∀ d ∈ l, (found d).isSome → key d ≠ key a := fun d hd hfound hkey =>
        h (htaken.mpr ⟨d, hd, hfound, hkey⟩)
      cases hfound : found a with
      | none => simp
      | some c =>
        simp only [List.mem_append, List.mem_singleton, Option.some.injEq, eq_comm (a := b)]
        exact or_congr_right (and_iff_left hnone).symm

/-- The first element of a key that finds something. -/
theorem exists_first {k : κ} (h : ∃ a ∈ l, (found a).isSome ∧ key a = k) :
    ∃ l₁ a l₂, l = l₁ ++ a :: l₂ ∧ (found a).isSome ∧ key a = k ∧
      ∀ c ∈ l₁, (found c).isSome → key c ≠ k := by
  obtain ⟨a, ha, hfound, hkey⟩ := h
  have hsome : (l.find? fun a => (found a).isSome ∧ key a = k).isSome :=
    List.find?_isSome.mpr ⟨a, ha, by simp [hfound, hkey]⟩
  obtain ⟨c, hc⟩ := Option.isSome_iff_exists.mp hsome
  obtain ⟨hp, l₁, l₂, rfl, hl₁⟩ := List.find?_eq_some_iff_append.mp hc
  rw [decide_eq_true_eq] at hp
  refine ⟨l₁, c, l₂, rfl, hp.1, hp.2, fun d hd hd' hkey => ?_⟩
  have hnot := hl₁ d hd
  simp [hd', hkey] at hnot

/-- Only one element of a list contributes to what is put together. -/
theorem flatMap_eq_of_unique (hl : l.Nodup) {a : α} (ha : a ∈ l) {f : α → List β}
    (hf : ∀ b ∈ l, b ≠ a → f b = []) : l.flatMap f = f a := by
  obtain ⟨l₁, l₂, rfl⟩ := List.append_of_mem ha
  have hnot := List.perm_middle.nodup_iff.mp hl
  have hempty : ∀ l' ⊆ l₁ ++ l₂, l'.flatMap f = [] := by
    intro l' hsub
    refine List.flatMap_eq_nil_iff.mpr fun b hb => ?_
    have hb' : b ∈ l₁ ++ l₂ := hsub hb
    refine hf b ?_ fun heq => (List.nodup_cons.mp hnot).1 (heq ▸ hb')
    rcases List.mem_append.mp hb' with h | h
    · exact List.mem_append_left _ h
    · exact List.mem_append_right _ (List.mem_cons_of_mem a h)
  rw [List.flatMap_append, List.flatMap_cons, hempty l₁ (List.subset_append_left l₁ l₂),
    hempty l₂ (List.subset_append_right l₁ l₂), List.append_nil, List.nil_append]

/-- Two sums of which one is smaller term by term are equal term by term if they are equal. -/
theorem eq_of_sum_map_eq {f g : α → ℕ} (hle : ∀ a ∈ l, f a ≤ g a)
    (hsum : (l.map f).sum = (l.map g).sum) : ∀ a ∈ l, f a = g a := by
  induction l with
  | nil => exact fun a ha => nomatch ha
  | cons a l ih =>
    have hrest : (l.map f).sum ≤ (l.map g).sum :=
      List.sum_le_sum fun b hb => hle b (List.mem_cons_of_mem a hb)
    have ha := hle a List.mem_cons_self
    rw [List.map_cons, List.map_cons, List.sum_cons, List.sum_cons] at hsum
    intro b hb
    rcases List.mem_cons.mp hb with rfl | hb
    · omega
    · exact ih (fun c hc => hle c (List.mem_cons_of_mem a hc)) (by omega) b hb

/-- Two counts of which one counts more are equal if they count the same. -/
theorem eq_of_countP_eq {p q : α → Bool} (himp : ∀ a ∈ l, p a = true → q a = true)
    (hcount : l.countP p = l.countP q) : ∀ a ∈ l, q a = true → p a = true := by
  induction l with
  | nil => exact fun a ha => nomatch ha
  | cons a l ih =>
    have hrest : l.countP p ≤ l.countP q :=
      List.countP_mono_left fun b hb => himp b (List.mem_cons_of_mem a hb)
    have ha := himp a List.mem_cons_self
    have hsame : (p a = true ↔ q a = true) ∧ l.countP p = l.countP q := by
      rw [List.countP_cons, List.countP_cons] at hcount
      by_cases hp : p a = true
      · rw [if_pos hp, if_pos (ha hp)] at hcount
        exact ⟨⟨ha, fun _ => hp⟩, by omega⟩
      · rw [if_neg hp] at hcount
        by_cases hq : q a = true
        · rw [if_pos hq] at hcount
          omega
        · rw [if_neg hq] at hcount
          exact ⟨⟨fun h => absurd h hp, fun h => absurd h hq⟩, hcount⟩
    intro b hb
    rcases List.mem_cons.mp hb with rfl | hb
    · exact hsame.1.mpr
    · exact ih (fun c hc => himp c (List.mem_cons_of_mem a hc)) hsame.2 b hb

end Claims
