import Mathlib

/-!
# Tables that are written by upserts

An entry looks for the row with its key: it changes that row, which keeps its place and its key, or
adds a new one at the end.  What a table has under some keys is what the entries with those keys
write, so that two histories with the same entries there have the same rows there.

* `filter_table`: the rows of some keys are the table of the entries with those keys.
* `filter_table_of`: the rows of a kind, where the keys tell the kind.
* `forall_table`: what every entry brings about holds of every row.
-/

namespace Upsert

/-- What is written under a key: the new row, and what becomes of the old one. -/
structure Entry (ρ κ : Type*) where
  key : κ
  fresh : ρ
  touch : ρ → ρ

variable {ρ κ : Type*} [DecidableEq κ] (key : ρ → κ)

def write (rows : List ρ) (e : Entry ρ κ) : List ρ :=
  if rows.any fun r => key r = e.key then rows.map fun r => if key r = e.key then e.touch r else r
  else rows ++ [e.fresh]

/-- The table after all entries. -/
def table (es : List (Entry ρ κ)) : List ρ := es.foldl (write key) []

/-- How many rows the entries add to a table, and how many they change. -/
def tally : List ρ → List (Entry ρ κ) → ℕ × ℕ
  | _, [] => (0, 0)
  | rows, e :: es =>
    let rest := tally (write key rows e) es
    if rows.any fun r => key r = e.key then (rest.1, rest.2 + 1) else (rest.1 + 1, rest.2)

/-- The new row has the key, and the old one keeps it. -/
structure Entry.Keyed (e : Entry ρ κ) : Prop where
  fresh : key e.fresh = e.key
  touch : ∀ r, key (e.touch r) = key r

variable {key} {e : Entry ρ κ} {es : List (Entry ρ κ)} {rows : List ρ}

theorem table_append (es es' : List (Entry ρ κ)) :
    table key (es ++ es') = es'.foldl (write key) (table key es) := by
  rw [table, List.foldl_append]
  rfl

theorem table_concat (es : List (Entry ρ κ)) (e : Entry ρ κ) :
    table key (es ++ [e]) = write key (table key es) e := table_append es [e]

theorem filter_write_of_neg (h : e.Keyed key) {p : κ → Bool} (hp : p e.key = false) :
    (write key rows e).filter (fun r => p (key r)) = rows.filter fun r => p (key r) := by
  rw [write]
  split
  · rw [List.filter_map]
    have hsame : ((fun r => p (key r)) ∘ fun r => if key r = e.key then e.touch r else r) =
        fun r => p (key r) := by
      funext r
      rw [Function.comp_apply]
      split
      · rw [h.touch r]
      · rfl
    rw [hsame]
    refine (List.map_congr_left fun r hr => ?_).trans (List.map_id _)
    have hne : key r ≠ e.key := by
      intro heq
      have hpr := (List.mem_filter.mp hr).2
      rw [heq, hp] at hpr
      exact Bool.noConfusion hpr
    exact if_neg hne
  · rw [List.filter_append, List.filter_cons_of_neg (by rw [h.fresh, hp]; exact Bool.false_ne_true),
      List.filter_nil, List.append_nil]

theorem filter_write_of_pos (h : e.Keyed key) {p : κ → Bool} (hp : p e.key) :
    (write key rows e).filter (fun r => p (key r)) =
      write key (rows.filter fun r => p (key r)) e := by
  have hany : ((rows.filter fun r => p (key r)).any fun r => key r = e.key) =
      rows.any fun r => key r = e.key := by
    rw [List.any_filter]
    refine congrArg rows.any (funext fun r => ?_)
    by_cases hr : key r = e.key
    · simp [hr, hp]
    · simp [hr]
  rw [write, write, hany]
  split
  · rw [List.filter_map]
    refine congrArg _ (congrArg (fun q => rows.filter q) (funext fun r => ?_))
    rw [Function.comp_apply]
    split
    · rw [h.touch r]
    · rfl
  · rw [List.filter_append, List.filter_cons_of_pos (by rw [h.fresh, hp]), List.filter_nil]

/-- The rows of some keys are what the entries with those keys write. -/
theorem filter_table (h : ∀ e ∈ es, e.Keyed key) (p : κ → Bool) :
    (table key es).filter (fun r => p (key r)) = table key (es.filter fun e => p e.key) := by
  induction es using List.reverseRecOn with
  | nil => rfl
  | append_singleton es e ih =>
    have he : e.Keyed key := h e (List.mem_append_right es (List.mem_singleton_self e))
    have hes := ih fun e' he' => h e' (List.mem_append_left [e] he')
    rw [table_concat, List.filter_append]
    cases hp : p e.key with
    | false =>
      rw [filter_write_of_neg he hp, hes, List.filter_cons_of_neg (by simpa using hp),
        List.filter_nil, List.append_nil]
    | true =>
      rw [filter_write_of_pos he hp, hes, List.filter_cons_of_pos (by simpa using hp),
        List.filter_nil, table_concat]

theorem forall_write {Q : ρ → Prop} (hrows : ∀ r ∈ rows, Q r) (hfresh : Q e.fresh)
    (htouch : ∀ r, Q r → Q (e.touch r)) : ∀ r ∈ write key rows e, Q r := by
  rw [write]
  split
  · intro r hr
    obtain ⟨r₀, hr₀, rfl⟩ := List.mem_map.mp hr
    split
    · exact htouch r₀ (hrows r₀ hr₀)
    · exact hrows r₀ hr₀
  · intro r hr
    rcases List.mem_append.mp hr with hr | hr
    · exact hrows r hr
    · rw [List.mem_singleton.mp hr]
      exact hfresh

/-- What every new row has, and no change takes away. -/
theorem forall_table {Q : ρ → Prop} (hfresh : ∀ e ∈ es, Q e.fresh)
    (htouch : ∀ e ∈ es, ∀ r, Q r → Q (e.touch r)) : ∀ r ∈ table key es, Q r := by
  induction es using List.reverseRecOn with
  | nil => exact fun r hr => nomatch hr
  | append_singleton es e ih =>
    have hmem : e ∈ es ++ [e] := List.mem_append_right es (List.mem_singleton_self e)
    rw [table_concat]
    refine forall_write (ih (fun e' he' => ?_) fun e' he' => ?_) (hfresh e hmem) (htouch e hmem)
    · exact hfresh e' (List.mem_append_left [e] he')
    · exact htouch e' (List.mem_append_left [e] he')

/-- The rows of a kind, where their keys tell which ones they are. -/
theorem filter_table_of (h : ∀ e ∈ es, e.Keyed key) (p : κ → Bool) {q : ρ → Bool}
    (hpos : ∀ r ∈ table key (es.filter fun e => p e.key), q r = true)
    (hneg : ∀ r ∈ table key (es.filter fun e => !p e.key), q r = false) :
    (table key es).filter q = table key (es.filter fun e => p e.key) := by
  rw [← filter_table h]
  refine List.filter_congr fun r hr => ?_
  cases hp : p (key r) with
  | true =>
    refine hpos r ?_
    rw [← filter_table h]
    exact List.mem_filter.mpr ⟨hr, hp⟩
  | false =>
    refine hneg r ?_
    rw [← filter_table h fun k => !p k]
    exact List.mem_filter.mpr ⟨hr, by rw [hp]; rfl⟩

theorem mem_keys_table (h : ∀ e ∈ es, e.Keyed key) {k : κ} :
    k ∈ (table key es).map key ↔ ∃ e ∈ es, e.key = k := by
  induction es using List.reverseRecOn with
  | nil => simp [table]
  | append_singleton es e ih =>
    have he : e.Keyed key := h e (List.mem_append_right es (List.mem_singleton_self e))
    have hes := ih fun e' he' => h e' (List.mem_append_left [e] he')
    rw [table_concat, write]
    split
    · next hany =>
      obtain ⟨r, hr, hkey⟩ := List.any_eq_true.mp hany
      have hmap : ((table key es).map fun r => if key r = e.key then e.touch r else r).map key =
          (table key es).map key := by
        rw [List.map_map]
        refine List.map_congr_left fun r _ => ?_
        rw [Function.comp_apply]
        split
        · exact he.touch r
        · rfl
      rw [hmap, hes]
      constructor
      · rintro ⟨e', he', hk⟩
        exact ⟨e', List.mem_append_left [e] he', hk⟩
      · rintro ⟨e', he', hk⟩
        rcases List.mem_append.mp he' with he' | he'
        · exact ⟨e', he', hk⟩
        · rw [List.mem_singleton.mp he'] at hk
          exact hes.mp (List.mem_map.mpr ⟨r, hr, (of_decide_eq_true hkey).trans hk⟩)
    · rw [List.map_append, List.mem_append, hes, List.map_singleton, List.mem_singleton, he.fresh]
      constructor
      · rintro (⟨e', he', hk⟩ | hk)
        · exact ⟨e', List.mem_append_left [e] he', hk⟩
        · exact ⟨e, List.mem_append_right es (List.mem_singleton_self e), hk.symm⟩
      · rintro ⟨e', he', hk⟩
        rcases List.mem_append.mp he' with he' | he'
        · exact Or.inl ⟨e', he', hk⟩
        · rw [List.mem_singleton.mp he'] at hk
          exact Or.inr hk.symm

end Upsert
