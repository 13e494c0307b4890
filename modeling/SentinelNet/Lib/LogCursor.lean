import Mathlib

/-!
# A cursor over a growing table

A reader that takes the rows of a table in the order of their numbers, some at a time, and keeps the
number of the last one it took.

* `key_le_advance_iff`: the rows behind the cursor are the old ones and those of the batch.
* `Consumed.append`, `Consumed.advance`: a new row and a batch keep that.
-/

namespace LogCursor

variable {α : Type*} (key : α → ℕ) (p : α → Bool)

/-- The next rows of a kind. -/
def batch (n cursor : ℕ) (rows : List α) : List α :=
  (rows.filter fun x => p x ∧ cursor < key x).take n

/-- The cursor after some rows. -/
def advance (cursor : ℕ) (taken : List α) : ℕ := (taken.map key).getLast?.getD cursor

variable {key p}

section Batch

variable {n cursor : ℕ} {rows : List α}

theorem mem_of_mem_batch {x : α} (hx : x ∈ batch key p n cursor rows) :
    x ∈ rows ∧ p x = true ∧ cursor < key x := by
  obtain ⟨hmem, hboth⟩ := List.mem_filter.mp (List.mem_of_mem_take hx)
  obtain ⟨hp, hlt⟩ := of_decide_eq_true hboth
  exact ⟨hmem, hp, hlt⟩

theorem advance_eq (cursor : ℕ) (taken : List α) :
    taken = [] ∧ advance key cursor taken = cursor ∨
      ∃ (front : List α) (last : α), taken = front ++ [last] ∧
        advance key cursor taken = key last := by
  rcases List.eq_nil_or_concat taken with rfl | ⟨front, last, rfl⟩
  · exact Or.inl ⟨rfl, rfl⟩
  · refine Or.inr ⟨front, last, List.concat_eq_append, ?_⟩
    simp [advance]

/-- The rows behind the cursor are those that were there, and those of the batch. -/
theorem key_le_advance_iff (hsorted : (rows.map key).Pairwise (· < ·)) {x : α} (hx : x ∈ rows)
    (hp : p x) :
    key x ≤ advance key cursor (batch key p n cursor rows) ↔
      key x ≤ cursor ∨ x ∈ batch key p n cursor rows := by
  have hrows : rows.Pairwise fun y z => key y < key z := List.pairwise_map.mp hsorted
  have hpending := hrows.filter fun y => decide (p y ∧ cursor < key y)
  rw [← List.take_append_drop n (rows.filter fun y => decide (p y ∧ cursor < key y)),
    List.pairwise_append] at hpending
  obtain ⟨htaken, -, hrest⟩ := hpending
  rcases @advance_eq _ key cursor (batch key p n cursor rows) with
    ⟨hnil, hadvance⟩ | ⟨front, last, hlast, hadvance⟩
  · rw [hadvance, hnil]
    simp
  · have hmem : last ∈ batch key p n cursor rows := by
      rw [hlast]
      exact List.mem_append_right _ (List.mem_singleton_self _)
    rw [hadvance]
    constructor
    · intro hle
      rcases Nat.lt_or_ge cursor (key x) with hlt | hge
      · refine Or.inr ?_
        have hxpending : x ∈ rows.filter fun y => decide (p y ∧ cursor < key y) :=
          List.mem_filter.mpr ⟨hx, decide_eq_true ⟨hp, hlt⟩⟩
        rw [← List.take_append_drop n (rows.filter fun y => decide (p y ∧ cursor < key y))]
          at hxpending
        refine (List.mem_append.mp hxpending).resolve_right fun hdrop => ?_
        exact (hrest last hmem x hdrop).not_ge hle
      · exact Or.inl hge
    · rintro (hle | hxbatch)
      · exact hle.trans (mem_of_mem_batch hmem).2.2.le
      · have hfront : (front ++ [last]).Pairwise fun y z => key y < key z := hlast ▸ htaken
        rw [hlast] at hxbatch
        rcases List.mem_append.mp hxbatch with hxfront | hxlast
        · exact ((List.pairwise_append.mp hfront).2.2 x hxfront last
            (List.mem_singleton_self _)).le
        · exact (congrArg key (List.mem_singleton.mp hxlast)).le

theorem nodup_batch (hsorted : (rows.map key).Pairwise (· < ·)) :
    ((batch key p n cursor rows).map key).Nodup := by
  have hsub : ((batch key p n cursor rows).map key).Sublist (rows.map key) :=
    ((List.take_sublist _ _).trans List.filter_sublist).map key
  exact (hsorted.imp fun h => ne_of_lt h).sublist hsub

end Batch

/-- The rows of a kind between the start and the cursor were taken once, and no other row was. -/
structure Consumed (key : α → ℕ) (p : α → Bool) (start : ℕ) (rows : List α) (cursor : ℕ)
    (taken : List ℕ) : Prop where
  sorted : (rows.map key).Pairwise (· < ·)
  start_le : start ≤ cursor
  reached : cursor = start ∨ cursor ∈ rows.map key
  known : ∀ id ∈ taken, id ∈ rows.map key
  count : ∀ x ∈ rows, p x = true →
    taken.count (key x) = if start < key x ∧ key x ≤ cursor then 1 else 0

section Consumed

variable {start cursor n : ℕ} {rows : List α} {taken : List ℕ}

theorem consumed_start (hsorted : (rows.map key).Pairwise (· < ·)) :
    Consumed key p start rows start [] where
  sorted := hsorted
  start_le := le_rfl
  reached := Or.inl rfl
  known _ hid := nomatch hid
  count x _ _ := by
    rw [if_neg fun h => h.1.not_ge h.2]
    rfl

/-- A new row is not taken yet. -/
theorem Consumed.append (h : Consumed key p start rows cursor taken) {x : α}
    (hnew : ∀ id ∈ rows.map key, id < key x) : Consumed key p start (rows ++ [x]) cursor taken where
  sorted := by
    rw [List.map_append, List.pairwise_append]
    refine ⟨h.sorted, List.pairwise_singleton _ _, fun id hid id' hid' => ?_⟩
    rw [List.mem_singleton.mp hid']
    exact hnew id hid
  start_le := h.start_le
  reached := h.reached.imp_right fun hmem => by
    rw [List.map_append]
    exact List.mem_append_left _ hmem
  known id hid := by
    rw [List.map_append]
    exact List.mem_append_left _ (h.known id hid)
  count y hy hp := by
    rcases List.mem_append.mp hy with hy | hy
    · exact h.count y hy hp
    · rw [List.mem_singleton.mp hy, List.count_eq_zero.mpr fun hmem =>
        lt_irrefl _ (hnew _ (h.known _ hmem)), if_neg]
      rintro ⟨hstart, hcursor⟩
      rcases h.reached with heq | hmem
      · exact (heq ▸ hcursor).not_gt hstart
      · exact (hnew cursor hmem).not_ge hcursor

/-- The rows of a batch are taken. -/
theorem Consumed.advance (h : Consumed key p start rows cursor taken) :
    Consumed key p start rows (advance key cursor (batch key p n cursor rows))
      (taken ++ (batch key p n cursor rows).map key) where
  sorted := h.sorted
  start_le := by
    rcases @advance_eq _ key cursor (batch key p n cursor rows) with
      ⟨-, hadvance⟩ | ⟨front, last, hlast, hadvance⟩
    · rw [hadvance]
      exact h.start_le
    · have hmem : last ∈ batch key p n cursor rows := by
        rw [hlast]
        exact List.mem_append_right _ (List.mem_singleton_self _)
      rw [hadvance]
      exact h.start_le.trans (mem_of_mem_batch hmem).2.2.le
  reached := by
    rcases @advance_eq _ key cursor (batch key p n cursor rows) with
      ⟨-, hadvance⟩ | ⟨front, last, hlast, hadvance⟩
    · rw [hadvance]
      exact h.reached
    · have hmem : last ∈ batch key p n cursor rows := by
        rw [hlast]
        exact List.mem_append_right _ (List.mem_singleton_self _)
      rw [hadvance]
      exact Or.inr (List.mem_map_of_mem (mem_of_mem_batch hmem).1)
  known id hid := by
    rcases List.mem_append.mp hid with hid | hid
    · exact h.known id hid
    · obtain ⟨x, hx, rfl⟩ := List.mem_map.mp hid
      exact List.mem_map_of_mem (mem_of_mem_batch hx).1
  count x hx hp := by
    rw [List.count_append, h.count x hx hp]
    have hle := @key_le_advance_iff _ key p n cursor rows h.sorted x hx hp
    by_cases hbatch : x ∈ batch key p n cursor rows
    · have hlt := (mem_of_mem_batch hbatch).2.2
      rw [List.count_eq_one_of_mem (nodup_batch h.sorted) (List.mem_map_of_mem hbatch),
        if_neg fun hold => hold.2.not_gt hlt,
        if_pos ⟨h.start_le.trans_lt hlt, hle.mpr (Or.inr hbatch)⟩]
    · have hnot : key x ∉ (batch key p n cursor rows).map key := by
        intro hmem
        obtain ⟨y, hy, hkey⟩ := List.mem_map.mp hmem
        have hsame := List.inj_on_of_nodup_map (h.sorted.imp fun hlt => ne_of_lt hlt)
          (mem_of_mem_batch hy).1 hx hkey
        exact hbatch (hsame ▸ hy)
      rw [List.count_eq_zero.mpr hnot, Nat.add_zero]
      refine if_congr (and_congr_right fun _ => ?_) rfl rfl
      rw [hle]
      exact ⟨Or.inl, fun h => h.resolve_right hbatch⟩

end Consumed

end LogCursor
