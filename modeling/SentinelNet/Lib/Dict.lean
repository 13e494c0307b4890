import Mathlib

/-!
# Insertion-ordered dictionaries

A Python `dict` with string keys, as the list of its items in insertion order: assigning to a key
that is there keeps the key's place, assigning to a new key adds it at the end.

* `get?_set`: a key reads what was last assigned to it.
* `mem_set`: an item of the updated dictionary is the new one or was there before.
* `get?_assign`: what a key reads after assignments one after the other.
* `get?_filterMapM`: what a dictionary built in a loop over another one reads.
-/

namespace PyDict

/-- The items of a dictionary, oldest key first. -/
abbrev Dict (α : Type*) := List (String × α)

variable {α : Type*}

def get? (d : Dict α) (k : String) : Option α := d.lookup k

def has (d : Dict α) (k : String) : Bool := (get? d k).isSome

def set (d : Dict α) (k : String) (v : α) : Dict α :=
  match d with
  | [] => [(k, v)]
  | (k', v') :: d => if k = k' then (k', v) :: d else (k', v') :: set d k v

/-- `d.setdefault(k, v)`, the dictionary afterwards. -/
def setDefault (d : Dict α) (k : String) (v : α) : Dict α :=
  if has d k then d else d ++ [(k, v)]

def del (d : Dict α) (k : String) : Dict α := d.filter fun p => p.1 ≠ k

@[simp] theorem get?_nil (k : String) : get? ([] : Dict α) k = none := rfl

theorem get?_cons (k k' : String) (v : α) (d : Dict α) :
    get? ((k', v) :: d) k = if k = k' then some v else get? d k := by
  rw [get?, List.lookup_cons]
  by_cases h : k = k'
  · simp [h]
  · rw [if_neg h]
    have hb : (k == k') = false := by simpa using h
    rw [hb]
    rfl

/-- A key reads what was last assigned to it. -/
theorem get?_set (d : Dict α) (k k' : String) (v : α) :
    get? (set d k v) k' = if k' = k then some v else get? d k' := by
  induction d with
  | nil => rw [set, get?_cons]
  | cons p d ih =>
    obtain ⟨j, w⟩ := p
    by_cases hk : k = j
    · subst hk
      rw [set, if_pos rfl, get?_cons, get?_cons]
      by_cases hk' : k' = k <;> simp [hk']
    · rw [set, if_neg hk, get?_cons, get?_cons, ih]
      by_cases hj : k' = j
      · subst hj
        simp [Ne.symm hk]
      · simp [hj]

theorem get?_del (d : Dict α) (k k' : String) :
    get? (del d k) k' = if k' = k then none else get? d k' := by
  induction d with
  | nil => simp [del]
  | cons p d ih =>
    obtain ⟨j, w⟩ := p
    rw [del] at ih
    rw [del, List.filter_cons]
    by_cases hj : j = k
    · subst hj
      rw [if_neg (by simp), ih, get?_cons]
      by_cases hk' : k' = j <;> simp [hk']
    · rw [if_pos (by simpa using hj), get?_cons, get?_cons, ih]
      by_cases hk' : k' = j
      · subst hk'
        simp [hj]
      · simp [hk']

variable {d : Dict α} {k : String} {v : α} {p : String × α}

/-- An item of the updated dictionary is the new one or was there before. -/
theorem mem_set (h : p ∈ set d k v) : p = (k, v) ∨ p ∈ d := by
  induction d with
  | nil => exact Or.inl (by simpa [set] using h)
  | cons q d ih =>
    obtain ⟨j, w⟩ := q
    by_cases hk : k = j
    · subst hk
      rw [set, if_pos rfl, List.mem_cons] at h
      exact h.imp id (List.mem_cons_of_mem _)
    · rw [set, if_neg hk, List.mem_cons] at h
      rcases h with rfl | h
      · exact Or.inr List.mem_cons_self
      · exact (ih h).imp id (List.mem_cons_of_mem _)

theorem mem_of_get? (h : get? d k = some v) : (k, v) ∈ d := by
  induction d with
  | nil => simp at h
  | cons p d ih =>
    obtain ⟨j, w⟩ := p
    rw [get?_cons] at h
    by_cases hk : k = j
    · rw [if_pos hk] at h
      obtain rfl := Option.some.inj h
      rw [hk]
      exact List.mem_cons_self ..
    · rw [if_neg hk] at h
      exact List.mem_cons_of_mem _ (ih h)

theorem has_of_mem (h : (k, v) ∈ d) : has d k = true := by
  induction d with
  | nil => simp at h
  | cons p d ih =>
    obtain ⟨j, w⟩ := p
    rw [has, get?_cons]
    by_cases hk : k = j
    · rw [if_pos hk]
      rfl
    · rw [if_neg hk]
      rcases List.mem_cons.mp h with h | h
      · exact absurd (congrArg Prod.fst h) hk
      · exact ih h

theorem get?_of_mem_keys (h : k ∈ d.map Prod.fst) : ∃ v, get? d k = some v := by
  obtain ⟨p, hp, rfl⟩ := List.mem_map.mp h
  exact Option.isSome_iff_exists.mp (has_of_mem (k := p.1) (v := p.2) hp)

/-! ## Keys -/

/-- No key twice. -/
def Unique (d : Dict α) : Prop := (d.map Prod.fst).Nodup

theorem unique_nil : Unique ([] : Dict α) := List.nodup_nil

theorem mem_keys_set {k' : String} (h : k' ∈ (set d k v).map Prod.fst) :
    k' = k ∨ k' ∈ d.map Prod.fst := by
  obtain ⟨p, hp, rfl⟩ := List.mem_map.mp h
  rcases mem_set hp with rfl | hp
  · exact Or.inl rfl
  · exact Or.inr (List.mem_map_of_mem hp)

theorem Unique.set {d : Dict α} (h : Unique d) (k : String) (v : α) : Unique (set d k v) := by
  induction d with
  | nil => simp [Unique, PyDict.set]
  | cons p d ih =>
    obtain ⟨j, w⟩ := p
    obtain ⟨hj, hd⟩ := List.nodup_cons.mp h
    by_cases hk : k = j
    · subst hk
      rw [PyDict.set, if_pos rfl]
      exact List.nodup_cons.mpr ⟨hj, hd⟩
    · rw [PyDict.set, if_neg hk]
      refine List.nodup_cons.mpr ⟨fun hmem => ?_, ih hd⟩
      rcases mem_keys_set hmem with hjk | hmem
      · exact hk hjk.symm
      · exact hj hmem

theorem Unique.setDefault {d : Dict α} (h : Unique d) (k : String) (v : α) :
    Unique (setDefault d k v) := by
  rw [PyDict.setDefault]
  split
  · exact h
  · next hk =>
    rw [Unique, List.map_append, List.nodup_append]
    refine ⟨h, by simp, ?_⟩
    intro a ha b hb
    obtain rfl : b = k := by simpa using hb
    rintro rfl
    obtain ⟨w, hw⟩ := get?_of_mem_keys ha
    exact hk (by rw [has, hw]; rfl)

theorem Unique.get?_of_mem (h : Unique d) (hmem : (k, v) ∈ d) : get? d k = some v := by
  induction d with
  | nil => cases hmem
  | cons p d ih =>
    obtain ⟨j, w⟩ := p
    obtain ⟨hj, hd⟩ := List.nodup_cons.mp h
    rw [get?_cons]
    rcases List.mem_cons.mp hmem with heq | hin
    · obtain ⟨rfl, rfl⟩ := Prod.mk.inj heq
      rw [if_pos rfl]
    · have hkd : k ∈ d.map Prod.fst := List.mem_map_of_mem (f := Prod.fst) hin
      have hne : k ≠ j := fun hkj => hj (hkj ▸ hkd)
      rw [if_neg hne]
      exact ih hd hin

theorem Unique.get?_eq_none (h : Unique ((k, v) :: d)) : get? d k = none := by
  rcases hg : get? d k with _ | w
  · rfl
  · exact absurd (List.mem_map_of_mem (f := Prod.fst) (mem_of_get? hg)) (List.nodup_cons.mp h).1

theorem Unique.filter (h : Unique d) (p : String × α → Bool) : Unique (d.filter p) :=
  List.Nodup.sublist ((List.filter_sublist).map _) h

theorem Unique.get?_filter (h : Unique d) (p : String × α → Bool) (k : String) :
    get? (d.filter p) k = (get? d k).filter fun v => p (k, v) := by
  induction d with
  | nil => rfl
  | cons e d ih =>
    obtain ⟨j, w⟩ := e
    have hd : Unique d := (List.nodup_cons.mp h).2
    rw [get?_cons]
    by_cases hk : k = j
    · subst hk
      rw [if_pos rfl]
      by_cases hp : p (k, w) = true
      · rw [List.filter_cons_of_pos hp, get?_cons, if_pos rfl, Option.filter_some, if_pos hp]
      · rw [List.filter_cons_of_neg hp, ih hd, h.get?_eq_none, Option.filter_some, if_neg hp]
        rfl
    · rw [if_neg hk]
      by_cases hp : p (j, w) = true
      · rw [List.filter_cons_of_pos hp, get?_cons, if_neg hk, ih hd]
      · rw [List.filter_cons_of_neg hp, ih hd]

theorem Unique.get?_filter_eq_some (h : Unique d) {p : String × α → Bool}
    : get? (d.filter p) k = some v ↔ get? d k = some v ∧ p (k, v) = true := by
  rw [h.get?_filter, Option.filter_eq_some_iff]

theorem Unique.del (h : Unique d) (k : String) : Unique (PyDict.del d k) := h.filter _

theorem Unique.filter_key (h : Unique d) (hmem : (k, v) ∈ d) :
    d.filter (fun p => p.1 = k) = [(k, v)] := by
  induction d with
  | nil => cases hmem
  | cons p d ih =>
    obtain ⟨j, w⟩ := p
    obtain ⟨hj, hd⟩ := List.nodup_cons.mp h
    rcases List.mem_cons.mp hmem with heq | hin
    · obtain ⟨rfl, rfl⟩ := Prod.mk.inj heq
      have hnone : d.filter (fun p => p.1 = k) = [] := by
        refine List.filter_eq_nil_iff.mpr fun p hp hpk => hj ?_
        have hkey : p.1 ∈ d.map Prod.fst := List.mem_map_of_mem hp
        rwa [of_decide_eq_true hpk] at hkey
      rw [List.filter_cons_of_pos (by simp), hnone]
    · have hne : ¬ j = k := by
        rintro rfl
        have hkey : (j, v).1 ∈ d.map Prod.fst := List.mem_map_of_mem hin
        exact hj hkey
      rw [List.filter_cons_of_neg (by simpa using hne)]
      exact ih hd hin

theorem mem_keys_set_iff {k' : String} :
    k' ∈ (PyDict.set d k v).map Prod.fst ↔ k' = k ∨ k' ∈ d.map Prod.fst := by
  constructor
  · exact mem_keys_set
  · intro h
    have hget : ∃ w, get? (PyDict.set d k v) k' = some w := by
      rw [get?_set]
      split
      · exact ⟨v, rfl⟩
      · next hne => exact get?_of_mem_keys (h.resolve_left hne)
    obtain ⟨w, hw⟩ := hget
    exact List.mem_map_of_mem (f := Prod.fst) (mem_of_get? hw)

theorem Unique.mem_iff (h : Unique d) : p ∈ d ↔ get? d p.1 = some p.2 :=
  ⟨h.get?_of_mem, mem_of_get?⟩

theorem Unique.mem_set_iff (h : Unique d) :
    p ∈ PyDict.set d k v ↔ p = (k, v) ∨ (p.1 ≠ k ∧ p ∈ d) := by
  obtain ⟨j, w⟩ := p
  rw [(h.set k v).mem_iff, h.mem_iff, get?_set, Prod.mk.injEq]
  by_cases hk : j = k
  · simp [hk, eq_comm]
  · simp [hk]

theorem length_le_set (d : Dict α) (k : String) (v : α) : d.length ≤ (PyDict.set d k v).length := by
  induction d with
  | nil => exact Nat.zero_le _
  | cons p d ih =>
    obtain ⟨j, w⟩ := p
    rw [PyDict.set]
    split
    · exact Nat.le_refl _
    · exact Nat.succ_le_succ ih

theorem set_of_not_mem (h : k ∉ d.map Prod.fst) (v : α) : PyDict.set d k v = d ++ [(k, v)] := by
  induction d with
  | nil => rfl
  | cons p d ih =>
    obtain ⟨j, w⟩ := p
    rw [List.map_cons, List.mem_cons, not_or] at h
    rw [PyDict.set, if_neg h.1, ih h.2, List.cons_append]

/-! ## Assignments one after the other -/

def assign (d : Dict α) (l : List (String × α)) : Dict α :=
  l.foldl (fun d p => PyDict.set d p.1 p.2) d

theorem assign_cons (d : Dict α) (p : String × α) (l : List (String × α)) :
    assign d (p :: l) = assign (PyDict.set d p.1 p.2) l := rfl

theorem assign_append (d : Dict α) (l l' : List (String × α)) :
    assign d (l ++ l') = assign (assign d l) l' := List.foldl_append ..

theorem Unique.assign (h : Unique d) (l : List (String × α)) : Unique (PyDict.assign d l) := by
  induction l generalizing d with
  | nil => exact h
  | cons p l ih => exact ih (h.set p.1 p.2)

variable {l : List (String × α)}

theorem mem_keys_assign :
    k ∈ (assign d l).map Prod.fst ↔ k ∈ d.map Prod.fst ∨ k ∈ l.map Prod.fst := by
  induction l generalizing d with
  | nil => simp [assign]
  | cons p l ih =>
    rw [assign_cons, ih, mem_keys_set_iff, List.map_cons, List.mem_cons]
    tauto

/-- A key that is assigned one value only reads this value. -/
theorem get?_assign (h : (k, v) ∈ l)
    (honly : ∀ p ∈ l, p.1 = k → p.2 = v) (d : Dict α) : get? (assign d l) k = some v := by
  have hkeep (l' : List (String × α)) (hl' : ∀ p ∈ l', p.1 = k → p.2 = v) (d' : Dict α)
      (hd' : get? d' k = some v) : get? (assign d' l') k = some v := by
    induction l' generalizing d' with
    | nil => exact hd'
    | cons p l' ih =>
      refine ih (List.forall_mem_cons.mp hl').2 _ ?_
      rw [get?_set]
      split
      · next hk => rw [hl' p List.mem_cons_self hk.symm]
      · exact hd'
  induction l generalizing d with
  | nil => cases h
  | cons p l ih =>
    have htail : ∀ q ∈ l, q.1 = k → q.2 = v := (List.forall_mem_cons.mp honly).2
    rcases List.mem_cons.mp h with rfl | h
    · refine hkeep l htail _ ?_
      rw [get?_set, if_pos rfl]
    · exact ih h htail _

theorem get?_assign_of_not_mem (h : k ∉ l.map Prod.fst)
    (d : Dict α) : get? (assign d l) k = get? d k := by
  induction l generalizing d with
  | nil => rfl
  | cons p l ih =>
    rw [List.map_cons, List.mem_cons, not_or] at h
    rw [assign_cons, ih h.2, get?_set, if_neg h.1]

theorem assign_of_unique (h : Unique (d ++ l)) : assign d l = d ++ l := by
  induction l generalizing d with
  | nil => exact (List.append_nil d).symm
  | cons p l ih =>
    have hp : p.1 ∉ d.map Prod.fst := by
      rw [Unique, List.map_append, List.nodup_append] at h
      exact fun hmem => h.2.2 _ hmem _ List.mem_cons_self rfl
    rw [assign_cons, set_of_not_mem hp]
    have happ : d ++ p :: l = (d ++ [(p.1, p.2)]) ++ l := by simp
    rw [happ] at h ⊢
    exact ih h

/-! ## Loops over a dictionary -/

variable {β : Type*} {ε : Type*}

/-- Assigning for every item of a dictionary: its keys read what was assigned, the other ones what
they read before. -/
theorem get?_foldl_set (f : String × α → β) {l : Dict α} (hl : Unique l) (d : Dict β) (k : String) :
    get? (l.foldl (fun d p => set d p.1 (f p)) d) k =
      match get? l k with
      | some v => some (f (k, v))
      | none => get? d k := by
  induction l generalizing d with
  | nil => rfl
  | cons p l ih =>
    obtain ⟨j, w⟩ := p
    rw [List.foldl_cons, ih (List.nodup_cons.mp hl).2, get?_cons]
    by_cases hk : k = j
    · subst hk
      rw [hl.get?_eq_none, if_pos rfl, get?_set, if_pos rfl]
    · rw [if_neg hk, get?_set, if_neg hk]

/-- The dictionary that a loop over the items of another one builds: for each item the loop adds
an item under the same key, adds nothing, or raises. -/
def filterMapM (f : α → Except ε (Option β)) : Dict α → Except ε (Dict β)
  | [] => .ok []
  | (k, v) :: d =>
    match f v with
    | .error e => .error e
    | .ok r =>
      match filterMapM f d with
      | .error e => .error e
      | .ok d' => .ok (r.toList.map (fun b => (k, b)) ++ d')

variable {f : α → Except ε (Option β)} {out : Dict β}

theorem filterMapM_cons_ok (h : filterMapM f ((k, v) :: d) = .ok out) :
    ∃ r d', f v = .ok r ∧ filterMapM f d = .ok d' ∧
      out = r.toList.map (fun b => (k, b)) ++ d' := by
  rw [filterMapM] at h
  rcases hf : f v with e | r
  · rw [hf] at h
    simp at h
  · rcases hd : filterMapM f d with e | d'
    · rw [hf, hd] at h
      simp at h
    · rw [hf, hd] at h
      exact ⟨r, d', rfl, rfl, (Except.ok.inj h).symm⟩

theorem keys_filterMapM (h : filterMapM f d = .ok out) (hk : k ∈ out.map Prod.fst) :
    k ∈ d.map Prod.fst := by
  induction d generalizing out with
  | nil =>
    obtain rfl : [] = out := Except.ok.inj h
    cases hk
  | cons p d ih =>
    obtain ⟨j, v⟩ := p
    obtain ⟨r, d', -, hd, rfl⟩ := filterMapM_cons_ok h
    rw [List.map_append, List.mem_append] at hk
    rcases hk with hk | hk
    · have hkj : k = j := by
        rcases r with _ | b
        · cases hk
        · simpa using hk
      rw [hkj]
      exact List.mem_cons_self ..
    · exact List.mem_cons_of_mem _ (ih hd hk)

/-- A key of the new dictionary reads what the loop made of the value of the old one. -/
theorem get?_filterMapM (h : filterMapM f d = .ok out) (hu : Unique d) (k : String) :
    ∀ v, get? d k = some v → ∃ r, f v = .ok r ∧ get? out k = r := by
  induction d generalizing out with
  | nil =>
    intro v hv
    simp at hv
  | cons p d ih =>
    obtain ⟨j, w⟩ := p
    obtain ⟨r, d', hf, hd, rfl⟩ := filterMapM_cons_ok h
    obtain ⟨hj, hud⟩ := List.nodup_cons.mp hu
    intro v hv
    rw [get?_cons] at hv
    by_cases hk : k = j
    · subst hk
      rw [if_pos rfl] at hv
      obtain rfl := Option.some.inj hv
      refine ⟨r, hf, ?_⟩
      rcases r with _ | b
      · -- the key is not in the rest
        rcases hg : get? d' k with _ | b
        · simpa using hg
        · exact absurd (keys_filterMapM hd (List.mem_map_of_mem (f := Prod.fst) (mem_of_get? hg))) hj
      · simp [get?_cons]
    · rw [if_neg hk] at hv
      obtain ⟨r', hr', hg⟩ := ih hd hud v hv
      refine ⟨r', hr', ?_⟩
      rcases r with _ | b
      · simpa using hg
      · simpa [get?_cons, hk] using hg

theorem get?_filterMapM_none
    (h : filterMapM f d = .ok out) (hk : get? d k = none) : get? out k = none := by
  rcases hg : get? out k with _ | b
  · rfl
  · have hmem := keys_filterMapM h (List.mem_map_of_mem (f := Prod.fst) (mem_of_get? hg))
    obtain ⟨v, hv⟩ := get?_of_mem_keys hmem
    rw [hk] at hv
    simp at hv

theorem mem_mapM_ok {f : α → Except ε β} {l : List α} {l' : List β} (h : l.mapM f = .ok l')
    {y : β} (hy : y ∈ l') : ∃ x ∈ l, f x = .ok y := by
  induction l generalizing l' with
  | nil =>
    obtain rfl : [] = l' := Except.ok.inj h
    cases hy
  | cons a l ih =>
    rw [List.mapM_cons] at h
    rcases ha : f a with e | b
    · rw [ha] at h
      exact absurd h (by simp [bind, Except.bind])
    · rcases hl : l.mapM f with e | bs
      · rw [ha, hl] at h
        exact absurd h (by simp [bind, Except.bind])
      · rw [ha, hl] at h
        obtain rfl : b :: bs = l' := Except.ok.inj h
        rcases List.mem_cons.mp hy with rfl | hy
        · exact ⟨a, List.mem_cons_self .., ha⟩
        · obtain ⟨x, hx, hfx⟩ := ih hl hy
          exact ⟨x, List.mem_cons_of_mem _ hx, hfx⟩

theorem exists_mapM_ok {f : α → Except ε β} {l : List α} :
    (∃ l', l.mapM f = .ok l') ↔ ∀ a ∈ l, ∃ b, f a = .ok b := by
  induction l with
  | nil => exact ⟨fun _ a ha => absurd ha List.not_mem_nil, fun _ => ⟨[], rfl⟩⟩
  | cons a l ih =>
    rw [List.forall_mem_cons, ← ih, List.mapM_cons]
    cases ha : f a with
    | error e => exact ⟨fun ⟨l', h⟩ => (nomatch h), fun ⟨⟨b, h⟩, _⟩ => (nomatch h)⟩
    | ok b =>
      cases hl : l.mapM f with
      | error e => exact ⟨fun ⟨l', h⟩ => (nomatch h), fun ⟨_, l', h⟩ => (nomatch h)⟩
      | ok bs => exact ⟨fun _ => ⟨⟨b, rfl⟩, bs, rfl⟩, fun _ => ⟨b :: bs, rfl⟩⟩

theorem mem_of_mapM_ok {f : α → Except ε β} {l : List α} {l' : List β}
    (h : l.mapM f = .ok l') {x : α} {y : β} (hx : x ∈ l) (hy : f x = .ok y) : y ∈ l' := by
  induction l generalizing l' with
  | nil => exact absurd hx List.not_mem_nil
  | cons a l ih =>
    rw [List.mapM_cons] at h
    cases ha : f a with
    | error e =>
      rw [ha] at h
      cases h
    | ok b =>
      cases hl : l.mapM f with
      | error e =>
        rw [ha, hl] at h
        cases h
      | ok bs =>
        rw [ha, hl] at h
        obtain rfl : b :: bs = l' := Except.ok.inj h
        rcases List.mem_cons.mp hx with rfl | hx
        · rw [ha] at hy
          rw [Except.ok.inj hy]
          exact List.mem_cons_self ..
        · exact List.mem_cons_of_mem b (ih hl hx)

end PyDict
