import Mathlib

/-!
# Chains of tags

Every entry of a log has a tag that depends on the entry and on the tag before it, from a seed on.
Whoever can check a tag can check a log from its beginning; what can be accepted then is what was
written up to some entry, as long as only tags of what was written are there to be used.

* `accepted_tagged`: what was written is accepted.
* `foldl_injective`: no two beginnings of a log end with one tag.
* `isPrefix_of_accepted`: what is accepted is the beginning of what was written.
-/

namespace HashChain

variable {α τ : Type*} (mac : τ → α → τ)

/-- Entries with their tags, after a tag. -/
def tagged (prev : τ) : List α → List (α × τ)
  | [] => []
  | a :: as => (a, mac prev a) :: tagged (mac prev a) as

/-- What is signed for entries: each one with the tag before it. -/
def signed (prev : τ) : List α → List (τ × α)
  | [] => []
  | a :: as => (prev, a) :: signed (mac prev a) as

/-- Every tag is that of its entry and of the tag before it. -/
def Accepted (prev : τ) : List (α × τ) → Prop
  | [] => True
  | (a, t) :: rest => t = mac prev a ∧ Accepted t rest

variable {mac}

theorem tagged_append (prev : τ) (as bs : List α) :
    tagged mac prev (as ++ bs) = tagged mac prev as ++ tagged mac (as.foldl mac prev) bs := by
  induction as generalizing prev with
  | nil => rfl
  | cons a as ih => exact congrArg _ (ih _)

theorem signed_append (prev : τ) (as bs : List α) :
    signed mac prev (as ++ bs) = signed mac prev as ++ signed mac (as.foldl mac prev) bs := by
  induction as generalizing prev with
  | nil => rfl
  | cons a as ih => exact congrArg _ (ih _)

/-- What was written is accepted. -/
theorem accepted_tagged (prev : τ) (as : List α) : Accepted mac prev (tagged mac prev as) := by
  induction as generalizing prev with
  | nil => trivial
  | cons a as ih => exact ⟨rfl, ih _⟩

theorem getLast?_tagged (prev : τ) (as : List α) :
    (((tagged mac prev as).getLast?).map Prod.snd).getD prev = as.foldl mac prev := by
  induction as using List.reverseRecOn with
  | nil => rfl
  | append_singleton as a _ =>
    rw [tagged_append, tagged, tagged, List.getLast?_concat, List.foldl_concat]
    rfl

theorem mem_signed {prev p : τ} {a : α} {as : List α} (h : (p, a) ∈ signed mac prev as) :
    ∃ before after, as = before ++ a :: after ∧ before.foldl mac prev = p := by
  induction as generalizing prev with
  | nil => cases h
  | cons b as ih =>
    rcases List.mem_cons.mp h with heq | h
    · obtain ⟨rfl, rfl⟩ := Prod.mk.inj heq
      exact ⟨[], as, rfl, rfl⟩
    · obtain ⟨before, after, rfl, hp⟩ := ih h
      exact ⟨b :: before, after, rfl, hp⟩

theorem signed_of_isPrefix {prev : τ} {as before : List α} {a : α} (h : before ++ [a] <+: as) :
    (before.foldl mac prev, a) ∈ signed mac prev as := by
  obtain ⟨after, rfl⟩ := h
  rw [List.append_assoc, signed_append]
  exact List.mem_append_right _ List.mem_cons_self

section Log

variable {seed : τ} {as : List α}
  (hinj : Set.InjOn (fun s : τ × α => mac s.1 s.2) {s | s ∈ signed mac seed as})
  (hseed : ∀ s ∈ signed mac seed as, mac s.1 s.2 ≠ seed)

include hinj hseed

/-- No two beginnings of a log end with one tag. -/
theorem foldl_injective {d d' : List α} (hd : d <+: as) (hd' : d' <+: as)
    (h : d.foldl mac seed = d'.foldl mac seed) : d = d' := by
  induction d using List.reverseRecOn generalizing d' with
  | nil =>
    rcases List.eq_nil_or_concat d' with rfl | ⟨e, b, rfl⟩
    · rfl
    · rw [List.concat_eq_append] at hd' h
      rw [List.foldl_nil, List.foldl_concat] at h
      exact absurd h.symm (hseed _ (signed_of_isPrefix hd'))
  | append_singleton d a ih =>
    rcases List.eq_nil_or_concat d' with rfl | ⟨e, b, rfl⟩
    · rw [List.foldl_nil, List.foldl_concat] at h
      exact absurd h (hseed _ (signed_of_isPrefix hd))
    · rw [List.concat_eq_append] at hd' h ⊢
      rw [List.foldl_concat, List.foldl_concat] at h
      have heq := hinj (signed_of_isPrefix hd) (signed_of_isPrefix hd') h
      obtain ⟨hbefore, rfl⟩ := Prod.mk.inj heq
      rw [ih ((List.prefix_append d [a]).trans hd) ((List.prefix_append e [a]).trans hd') hbefore]

theorem isPrefix_of_accepted_from {before rest : List α} {xs : List (α × τ)}
    (has : as = before ++ rest) (hacc : Accepted mac (before.foldl mac seed) xs)
    (hforged : ∀ p a, (a, mac p a) ∈ xs → (p, a) ∈ signed mac seed as) :
    xs <+: tagged mac (before.foldl mac seed) rest := by
  induction xs generalizing before rest with
  | nil => exact List.nil_prefix
  | cons x xs ih =>
    obtain ⟨a, t⟩ := x
    obtain ⟨rfl, hacc⟩ := hacc
    obtain ⟨d, after, hsplit, htag⟩ := mem_signed (hforged _ a List.mem_cons_self)
    -- The entry was signed where the log goes on.
    have hd : d = before := foldl_injective hinj hseed ⟨a :: after, hsplit.symm⟩
      ⟨rest, has.symm⟩ htag
    have hrest : rest = a :: after := by
      rw [hd, has] at hsplit
      exact List.append_cancel_left hsplit
    have hlater : as = before ++ [a] ++ after := by
      rw [has, hrest, List.append_assoc]
      rfl
    rw [← List.foldl_concat mac] at hacc
    have hnext := ih hlater hacc fun p b hb => hforged p b (List.mem_cons_of_mem _ hb)
    rw [List.foldl_concat] at hnext
    rw [hrest, tagged]
    exact List.cons_prefix_cons.mpr ⟨rfl, hnext⟩

/-- What is accepted is the beginning of what was written. -/
theorem isPrefix_of_accepted {xs : List (α × τ)} (hacc : Accepted mac seed xs)
    (hforged : ∀ p a, (a, mac p a) ∈ xs → (p, a) ∈ signed mac seed as) :
    xs <+: tagged mac seed as :=
  isPrefix_of_accepted_from hinj hseed (List.nil_append as).symm hacc hforged

end Log

theorem eq_nil_of_accepted {seed prev : τ} {as : List α} (hprev : prev ≠ seed)
    (hseed : ∀ s ∈ signed mac prev as, mac s.1 s.2 ≠ seed) {xs : List (α × τ)}
    (hacc : Accepted mac seed xs)
    (hforged : ∀ p a, (a, mac p a) ∈ xs → (p, a) ∈ signed mac prev as) : xs = [] := by
  cases xs with
  | nil => rfl
  | cons x xs =>
    obtain ⟨a, t⟩ := x
    obtain ⟨rfl, -⟩ := hacc
    obtain ⟨before, after, has, htag⟩ := mem_signed (hforged _ a List.mem_cons_self)
    exfalso
    rcases List.eq_nil_or_concat before with rfl | ⟨d, b, rfl⟩
    · exact hprev htag
    · rw [List.concat_eq_append, List.foldl_concat] at htag
      refine hseed (d.foldl mac prev, b) (signed_of_isPrefix ⟨a :: after, ?_⟩) htag
      rw [has, List.concat_eq_append]

end HashChain
