import Mathlib

/-!
# Worklist traversal of a finite graph

The loop that resolves nested groups: a queue of names, a set of names already seen, and a table
that says which names a name refers to.  A name taken from the queue is skipped when it was seen;
otherwise it is visited, marked, and the names it refers to go to the end of the queue.  Cycles
are allowed.

`visit` is this loop with a bound on its rounds, and `fuel` is a bound that is never reached: each
round takes one name off the queue, and each name brings its references into the queue at most
once.

* `mem_explore_iff`: the loop visits exactly the names reachable from its queue.

`flood` marks the names when they go onto a stack, so that every name is there once.

* `mem_flood_iff`: the loop marks exactly the names reachable from those it starts with.
-/

namespace Worklist

variable {α : Type*} [DecidableEq α]

/-- The names a name refers to; a name the table does not have refers to nothing. -/
def next (edges : List (α × List α)) (a : α) : List α := (edges.lookup a).getD []

/-- One name refers to another one. -/
def Refers (edges : List (α × List α)) (a b : α) : Prop := b ∈ next edges a

/-- The names visited, in order. -/
def visit (edges : List (α × List α)) : ℕ → List α → List α → List α
  | 0, _, _ => []
  | _ + 1, _, [] => []
  | n + 1, seen, a :: queue =>
    if a ∈ seen then visit edges n seen queue
    else a :: visit edges n (a :: seen) (queue ++ next edges a)

/-- The references that names not seen yet can still bring into the queue. -/
def pending (edges : List (α × List α)) (seen : List α) : ℕ :=
  ((edges.filter fun e => e.1 ∉ seen).map fun e => e.2.length).sum

/-- A bound on the rounds of the loop. -/
def fuel (edges : List (α × List α)) (queue : List α) : ℕ :=
  queue.length + (edges.map fun e => e.2.length).sum + 1

/-- The loop started with a queue, the name that the queue belongs to being seen already. -/
def explore (edges : List (α × List α)) (a : α) (queue : List α) : List α :=
  visit edges (fuel edges queue) [a] queue

/-! ## The bound -/

theorem pending_cons (e : α × List α) (edges : List (α × List α)) (seen : List α) :
    pending (e :: edges) seen =
      if e.1 ∈ seen then pending edges seen else e.2.length + pending edges seen := by
  by_cases hs : e.1 ∈ seen
  · rw [pending, List.filter_cons_of_neg (by simpa using hs), if_pos hs, pending]
  · rw [pending, List.filter_cons_of_pos (by simpa using hs), if_neg hs, List.map_cons,
      List.sum_cons, pending]

theorem pending_cons_le (edges : List (α × List α)) (seen : List α) (a : α) :
    pending edges (a :: seen) ≤ pending edges seen := by
  induction edges with
  | nil => exact Nat.le_refl _
  | cons e edges ih =>
    rw [pending_cons, pending_cons]
    by_cases hs : e.1 ∈ seen
    · rw [if_pos (List.mem_cons_of_mem _ hs), if_pos hs]
      exact ih
    · rw [if_neg hs]
      split <;> omega

theorem pending_visit {edges : List (α × List α)} {seen : List α} {a : α} (ha : a ∉ seen) :
    pending edges (a :: seen) + (next edges a).length ≤ pending edges seen := by
  induction edges with
  | nil => exact Nat.le_refl _
  | cons e edges ih =>
    obtain ⟨k, ms⟩ := e
    rw [pending_cons, pending_cons]
    by_cases hk : a = k
    · subst hk
      have hnext : next ((a, ms) :: edges) a = ms := by simp [next]
      have hle := pending_cons_le edges seen a
      rw [hnext, if_pos List.mem_cons_self, if_neg ha]
      change _ ≤ ms.length + pending edges seen
      omega
    · have hb : (a == k) = false := by simpa using hk
      have hnext : next ((k, ms) :: edges) a = next edges a := by
        rw [next, List.lookup_cons, hb]
        rfl
      rw [hnext]
      by_cases hs : k ∈ seen
      · rw [if_pos (List.mem_cons_of_mem _ hs), if_pos hs]
        exact ih
      · have hs' : k ∉ a :: seen := by
          rw [List.mem_cons, not_or]
          exact ⟨Ne.symm hk, hs⟩
        rw [if_neg hs', if_neg hs]
        omega

theorem pending_le (edges : List (α × List α)) (seen : List α) :
    pending edges seen ≤ (edges.map fun e => e.2.length).sum := by
  induction edges with
  | nil => exact Nat.le_refl _
  | cons e edges ih =>
    rw [pending_cons, List.map_cons, List.sum_cons]
    split <;> omega

/-! ## What is visited -/

theorem reachable_of_mem_visit {edges : List (α × List α)} :
    ∀ {n : ℕ} {seen queue : List α} {x : α}, x ∈ visit edges n seen queue →
      x ∉ seen ∧ ∃ q ∈ queue, Relation.ReflTransGen (Refers edges) q x
  | 0, _, _, _, h => nomatch h
  | _ + 1, _, [], _, h => nomatch h
  | n + 1, seen, a :: queue, x, h => by
    rw [visit] at h
    split at h
    · obtain ⟨hx, q, hq, hreach⟩ := reachable_of_mem_visit h
      exact ⟨hx, q, List.mem_cons_of_mem _ hq, hreach⟩
    · next ha =>
      rcases List.mem_cons.mp h with rfl | h
      · exact ⟨ha, x, List.mem_cons_self .., Relation.ReflTransGen.refl⟩
      · obtain ⟨hx, q, hq, hreach⟩ := reachable_of_mem_visit h
        refine ⟨fun hmem => hx (List.mem_cons_of_mem _ hmem), ?_⟩
        rcases List.mem_append.mp hq with hq | hq
        · exact ⟨q, List.mem_cons_of_mem _ hq, hreach⟩
        · exact ⟨a, List.mem_cons_self .., Relation.ReflTransGen.head hq hreach⟩

/-- With enough fuel the names seen or visited contain the queue, and the references of every
visited name. -/
theorem visit_closed {edges : List (α × List α)} :
    ∀ {n : ℕ} {seen queue : List α}, queue.length + pending edges seen < n →
      (∀ q ∈ queue, q ∈ seen ∨ q ∈ visit edges n seen queue) ∧
        ∀ a ∈ visit edges n seen queue, ∀ b ∈ next edges a,
          b ∈ seen ∨ b ∈ visit edges n seen queue
  | 0, _, _, hn => absurd hn (Nat.not_lt_zero _)
  | _ + 1, _, [], _ => ⟨fun _ h => absurd h List.not_mem_nil, fun _ h => absurd h List.not_mem_nil⟩
  | n + 1, seen, a :: queue, hn => by
    rw [List.length_cons] at hn
    rw [visit]
    split
    · next ha =>
      obtain ⟨hq, hcl⟩ := visit_closed (show queue.length + pending edges seen < n by omega)
      refine ⟨fun q hmem => ?_, hcl⟩
      rcases List.mem_cons.mp hmem with rfl | hmem
      · exact Or.inl ha
      · exact hq q hmem
    · next ha =>
      have huse : pending edges (a :: seen) + (next edges a).length ≤ pending edges seen :=
        pending_visit ha
      have hfuel : (queue ++ next edges a).length + pending edges (a :: seen) < n := by
        rw [List.length_append]
        omega
      obtain ⟨hq, hcl⟩ := visit_closed hfuel
      -- a name seen after `a` was marked is `a` itself or was seen before
      have hlift : ∀ b, (b ∈ a :: seen ∨ b ∈ visit edges n (a :: seen) (queue ++ next edges a)) →
          b ∈ seen ∨ b ∈ a :: visit edges n (a :: seen) (queue ++ next edges a) := by
        intro b hb
        simp only [List.mem_cons] at hb ⊢
        tauto
      refine ⟨fun q hmem => ?_, fun b hb c hc => ?_⟩
      · rcases List.mem_cons.mp hmem with rfl | hmem
        · exact Or.inr List.mem_cons_self
        · exact hlift q (hq q (List.mem_append_left _ hmem))
      · rcases List.mem_cons.mp hb with rfl | hb
        · exact hlift c (hq c (List.mem_append_right _ hc))
        · exact hlift c (hcl b hb c hc)

/-- The loop started with a queue that has the references of the seen name visits exactly the other
names reachable from the queue. -/
theorem mem_explore_iff {edges : List (α × List α)} {a x : α} {queue : List α}
    (hsub : ∀ b ∈ next edges a, b ∈ queue) :
    x ∈ explore edges a queue ↔
      x ≠ a ∧ ∃ q ∈ queue, Relation.ReflTransGen (Refers edges) q x := by
  have hfuel : queue.length + pending edges [a] < fuel edges queue := by
    have h := pending_le edges [a]
    rw [fuel]
    omega
  obtain ⟨hqueue, hclosed⟩ := visit_closed hfuel
  constructor
  · intro h
    obtain ⟨hx, hq⟩ := reachable_of_mem_visit h
    exact ⟨fun h => hx (by simp [h]), hq⟩
  · rintro ⟨hne, q, hq, hreach⟩
    have hmem : x = a ∨ x ∈ explore edges a queue := by
      induction hreach with
      | refl => exact (hqueue q hq).imp List.mem_singleton.mp id
      | tail _ hbc ih =>
        rename_i b c _
        by_cases hb : b = a
        · subst hb
          exact (hqueue c (hsub c hbc)).imp List.mem_singleton.mp id
        · exact (hclosed b ((ih hb).resolve_left hb) c hbc).imp List.mem_singleton.mp id
    exact hmem.resolve_left hne

/-! ## Marking before visiting -/

section Flood

variable (next : α → List α)

/-- The names that a name refers to and that are not marked. -/
def fresh (marked : List α) (a : α) : List α := (next a).dedup.filter (· ∉ marked)

/-- The marked names, from those that are marked and those whose references are still to be
marked. -/
def flood : ℕ → List α → List α → List α
  | 0, marked, _ => marked
  | _ + 1, marked, [] => marked
  | n + 1, marked, a :: todo =>
    flood n (marked ++ fresh next marked a) (fresh next marked a ++ todo)

variable {next}

variable {marked : List α}

theorem mem_fresh {a b : α} : b ∈ fresh next marked a ↔ b ∈ next a ∧ b ∉ marked := by
  rw [fresh, List.mem_filter, List.mem_dedup, decide_eq_true_eq]

theorem subset_flood (n : ℕ) (marked todo : List α) : marked ⊆ flood next n marked todo := by
  induction n generalizing marked todo with
  | zero => exact List.Subset.refl _
  | succ n ih =>
    cases todo with
    | nil => exact List.Subset.refl _
    | cons a todo => exact List.Subset.trans (List.subset_append_left _ _) (ih _ _)

theorem reachable_of_mem_flood {n : ℕ} {todo : List α} (htodo : todo ⊆ marked) {x : α}
    (hx : x ∈ flood next n marked todo) :
    ∃ q ∈ marked, Relation.ReflTransGen (fun a b => b ∈ next a) q x := by
  induction n generalizing marked todo with
  | zero => exact ⟨x, hx, Relation.ReflTransGen.refl⟩
  | succ n ih =>
    cases todo with
    | nil => exact ⟨x, hx, Relation.ReflTransGen.refl⟩
    | cons a todo =>
      have hsub : fresh next marked a ++ todo ⊆ marked ++ fresh next marked a := by
        intro b hb
        rcases List.mem_append.mp hb with hb | hb
        · exact List.mem_append_right _ hb
        · exact List.mem_append_left _ (htodo (List.mem_cons_of_mem a hb))
      obtain ⟨q, hq, hreach⟩ := ih hsub hx
      rcases List.mem_append.mp hq with hq | hq
      · exact ⟨q, hq, hreach⟩
      · exact ⟨a, htodo List.mem_cons_self,
          Relation.ReflTransGen.head (mem_fresh.mp hq).1 hreach⟩

/-- With enough fuel the marked names contain the references of each of them: all names are in a
list that the references do not leave, and every name is on the stack at most once. -/
theorem flood_closed {names : List α} (hnext : ∀ a ∈ names, next a ⊆ names) {n : ℕ}
    {todo : List α} (hmarked : marked.Nodup) (hsub : marked ⊆ names)
    (htodo : todo ⊆ marked) (hdone : ∀ a ∈ marked, a ∈ todo ∨ next a ⊆ marked)
    (hfuel : names.length + todo.length ≤ n + marked.length) :
    ∀ a ∈ flood next n marked todo, next a ⊆ flood next n marked todo := by
  induction n generalizing marked todo with
  | zero =>
    have hle : marked.length ≤ names.length := (List.subperm_of_subset hmarked hsub).length_le
    have hnil : todo = [] := List.eq_nil_of_length_eq_zero (by omega)
    intro a ha
    exact (hdone a ha).resolve_left (hnil ▸ List.not_mem_nil)
  | succ n ih =>
    cases todo with
    | nil => exact fun a ha => (hdone a ha).resolve_left List.not_mem_nil
    | cons a todo =>
      have ha : a ∈ marked := htodo List.mem_cons_self
      refine ih ?_ ?_ ?_ ?_ ?_
      · refine List.nodup_append.mpr ⟨hmarked, (List.nodup_dedup _).filter _, ?_⟩
        rintro b hb c hc rfl
        exact (mem_fresh.mp hc).2 hb
      · intro b hb
        rcases List.mem_append.mp hb with hb | hb
        · exact hsub hb
        · exact hnext a (hsub ha) (mem_fresh.mp hb).1
      · intro b hb
        rcases List.mem_append.mp hb with hb | hb
        · exact List.mem_append_right _ hb
        · exact List.mem_append_left _ (htodo (List.mem_cons_of_mem a hb))
      · intro b hb
        rcases List.mem_append.mp hb with hb | hb
        · by_cases heq : b = a
          · subst heq
            refine .inr fun c hc => ?_
            by_cases hc' : c ∈ marked
            · exact List.mem_append_left _ hc'
            · exact List.mem_append_right _ (mem_fresh.mpr ⟨hc, hc'⟩)
          · rcases hdone b hb with hb | hb
            · exact .inl (List.mem_append_right _ ((List.mem_cons.mp hb).resolve_left heq))
            · exact .inr fun c hc => List.mem_append_left _ (hb hc)
        · exact .inl (List.mem_append_left _ hb)
      · rw [List.length_cons] at hfuel
        rw [List.length_append, List.length_append]
        omega

/-- The marked names are those that can be reached. -/
theorem mem_flood_iff {names : List α} (hnext : ∀ a ∈ names, next a ⊆ names) {n : ℕ}
    {start : List α} (hstart : start.Nodup) (hsub : start ⊆ names) (hfuel : names.length ≤ n)
    {x : α} :
    x ∈ flood next n start start ↔
      ∃ q ∈ start, Relation.ReflTransGen (fun a b => b ∈ next a) q x := by
  constructor
  · exact reachable_of_mem_flood (List.Subset.refl _)
  · rintro ⟨q, hq, hreach⟩
    have hclosed := flood_closed hnext hstart hsub (List.Subset.refl _) (fun a ha => .inl ha)
      (Nat.add_le_add_right hfuel _)
    induction hreach with
    | refl => exact subset_flood n start start hq
    | tail _ hbc ih => exact hclosed _ ih hbc

end Flood

end Worklist
