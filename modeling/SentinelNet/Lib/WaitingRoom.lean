import Mathlib

/-!
# Items that wait for a definition

Definitions are announced under keys, and items come that need the definition of a key.  An item
whose key is known is served at once; the others wait until their key is announced.

* `Arrival`, `Room`, `Room.step`, `served`, `roomAfter`: the machine.
* `served_perm`: every item whose key is announced is served once.
* `waiting_roomAfter`: the others wait.
* `served_perm_of_same`: the order of the arrivals does not matter.
-/

namespace WaitingRoom

variable {K F P : Type*}

/-- A definition is announced, or an item comes. -/
inductive Arrival (K F P : Type*) where
  | announce (k : K) (f : F)
  | item (k : K) (p : P)

/-- The known definitions, and the items that wait. -/
structure Room (K F P : Type*) where
  known : K → Option F
  waiting : List (K × P)

def Arrival.definition? [DecidableEq K] (k : K) : Arrival K F P → Option F
  | .announce k' f => if k' = k then some f else none
  | .item _ _ => none

/-- The item that comes, with its key. -/
def Arrival.item? : Arrival K F P → Option (K × P)
  | .announce _ _ => none
  | .item k p => some (k, p)

def items (as : List (Arrival K F P)) : List (K × P) := as.filterMap Arrival.item?

@[simp] theorem items_concat_announce (as : List (Arrival K F P)) (k : K) (f : F) :
    items (as ++ [.announce k f]) = items as := by
  rw [items, List.filterMap_append]
  exact List.append_nil _

@[simp] theorem items_concat_item (as : List (Arrival K F P)) (k : K) (p : P) :
    items (as ++ [.item k p]) = items as ++ [(k, p)] := by
  rw [items, List.filterMap_append]
  rfl

theorem mem_items {as : List (Arrival K F P)} {k : K} {p : P} :
    (k, p) ∈ items as ↔ Arrival.item k p ∈ as := by
  rw [items, List.mem_filterMap]
  constructor
  · rintro ⟨a, ha, hitem⟩
    cases a with
    | announce k' f => exact absurd hitem (by simp [Arrival.item?])
    | item k' p' =>
      obtain ⟨rfl, rfl⟩ := Prod.mk.inj (Option.some.inj hitem)
      exact ha
  · exact fun h => ⟨_, h, rfl⟩

section Machine

variable [DecidableEq K]

def Room.step (r : Room K F P) : Arrival K F P → Room K F P × List (P × F)
  | .announce k f =>
    (⟨Function.update r.known k (some f), r.waiting.filter fun x => x.1 ≠ k⟩,
      (r.waiting.filter fun x => x.1 = k).map fun x => (x.2, f))
  | .item k p =>
    match r.known k with
    | some f => (r, [(p, f)])
    | none => ({ r with waiting := r.waiting ++ [(k, p)] }, [])

/-- Nothing is known, and nothing waits. -/
def Room.empty : Room K F P := ⟨fun _ => none, []⟩

def roomAfter (as : List (Arrival K F P)) : Room K F P := as.foldl (fun r a => (r.step a).1) Room.empty

def Room.serves : Room K F P → List (Arrival K F P) → List (P × F)
  | _, [] => []
  | r, a :: as => (r.step a).2 ++ (r.step a).1.serves as

/-- What some arrivals serve. -/
def served (as : List (Arrival K F P)) : List (P × F) := Room.empty.serves as

theorem roomAfter_concat (as : List (Arrival K F P)) (a : Arrival K F P) :
    roomAfter (as ++ [a]) = ((roomAfter as).step a).1 := by
  rw [roomAfter, List.foldl_append]
  rfl

theorem serves_append (r : Room K F P) (as bs : List (Arrival K F P)) :
    r.serves (as ++ bs) = r.serves as ++ (as.foldl (fun r a => (r.step a).1) r).serves bs := by
  induction as generalizing r with
  | nil => rfl
  | cons a as ih => rw [List.cons_append, Room.serves, Room.serves, ih, List.append_assoc]; rfl

theorem served_concat (as : List (Arrival K F P)) (a : Arrival K F P) :
    served (as ++ [a]) = served as ++ ((roomAfter as).step a).2 := by
  rw [served, serves_append, Room.serves, Room.serves, List.append_nil]
  rfl

/-! ## What is known -/

/-- The last definition that is announced for a key. -/
def announced (as : List (Arrival K F P)) (k : K) : Option F :=
  (as.filterMap (Arrival.definition? k)).getLast?

theorem announced_concat_announce (as : List (Arrival K F P)) (k k' : K) (f : F) :
    announced (as ++ [.announce k f]) k' = if k = k' then some f else announced as k' := by
  rw [announced, List.filterMap_append, List.filterMap_cons, List.filterMap_nil, Arrival.definition?]
  split
  · next h =>
    split at h
    · simp at h
    · next hk => rw [if_neg hk, List.append_nil, announced]
  · next f' h =>
    split at h
    · next hk => rw [if_pos hk, List.getLast?_concat, Option.some.inj h]
    · simp at h

@[simp] theorem announced_concat_item (as : List (Arrival K F P)) (k k' : K) (p : P) :
    announced (as ++ [.item k p]) k' = announced as k' := by
  rw [announced, List.filterMap_append]
  exact congrArg List.getLast? (List.append_nil _)

variable {as : List (Arrival K F P)}

theorem mem_of_announced {k : K} {f : F} (h : announced as k = some f) :
    Arrival.announce k f ∈ as := by
  obtain ⟨a, ha, hdef⟩ := List.mem_filterMap.mp (List.mem_of_getLast? h)
  cases a with
  | announce k' f' =>
    rw [Arrival.definition?] at hdef
    split at hdef
    · next hk =>
      rw [← Option.some.inj hdef, ← hk]
      exact ha
    · simp at hdef
  | item k' p => exact absurd hdef (by simp [Arrival.definition?])

theorem announced_isSome {k : K} {f : F}
    (h : Arrival.announce k f ∈ as) : (announced as k).isSome = true := by
  have hne : as.filterMap (Arrival.definition? k) ≠ [] :=
    List.ne_nil_of_mem (List.mem_filterMap.mpr ⟨_, h, if_pos rfl⟩)
  rw [announced, List.getLast?_eq_some_getLast hne, Option.isSome_some]

theorem known_roomAfter (as : List (Arrival K F P)) (k : K) :
    (roomAfter as).known k = announced as k := by
  induction as using List.reverseRecOn with
  | nil => rfl
  | append_singleton as a ih =>
    rw [roomAfter_concat]
    cases a with
    | announce k' f =>
      rw [announced_concat_announce, ← ih]
      show Function.update (roomAfter as).known k' (some f) k = _
      rw [Function.update_apply]
      exact if_congr eq_comm rfl rfl
    | item k' p =>
      rw [announced_concat_item, ← ih, Room.step]
      split
      · rfl
      · rfl

/-- The items wait whose key was not announced. -/
theorem waiting_roomAfter (as : List (Arrival K F P)) :
    (roomAfter as).waiting = (items as).filter fun x => (announced as x.1).isNone := by
  induction as using List.reverseRecOn with
  | nil => rfl
  | append_singleton as a ih =>
    rw [roomAfter_concat]
    cases a with
    | announce k f =>
      rw [items_concat_announce, Room.step, ih, List.filter_filter]
      refine List.filter_congr fun x _ => ?_
      rw [announced_concat_announce]
      by_cases hk : k = x.1
      · simp [hk]
      · simp [hk, Ne.symm hk]
    | item k p =>
      rw [items_concat_item, List.filter_append, Room.step]
      simp only [announced_concat_item, List.filter_cons, List.filter_nil]
      rw [← ih, ← known_roomAfter as k]
      split
      · next f hf => rw [hf, Option.isNone_some, if_neg (by decide), List.append_nil]
      · next hf => rw [hf, Option.isNone_none, if_pos rfl]

/-! ## What is served -/

/-- The key of an item is not announced with different definitions. -/
def Consistent (as : List (Arrival K F P)) : Prop :=
  ∀ k p, Arrival.item k p ∈ as → ∀ f f', Arrival.announce k f ∈ as → Arrival.announce k f' ∈ as →
    f = f'

/-- The item with the definition of its key. -/
def resolved (as : List (Arrival K F P)) (x : K × P) : Option (P × F) :=
  (announced as x.1).map fun f => (x.2, f)

theorem filterMap_perm {α β : Type*} {g g' : α → Option β} {q : α → Prop} [DecidablePred q]
    {h : α → β} {l : List α} (hq : ∀ x ∈ l, q x → g x = none ∧ g' x = some (h x))
    (hn : ∀ x ∈ l, ¬ q x → g' x = g x) :
    (l.filterMap g').Perm (l.filterMap g ++ (l.filter fun x => q x).map h) := by
  induction l with
  | nil => exact List.Perm.refl _
  | cons x l ih =>
    have ih := ih (List.forall_mem_cons.mp hq).2
      (List.forall_mem_cons.mp hn).2
    by_cases hx : q x
    · obtain ⟨hnone, hsome⟩ := hq x List.mem_cons_self hx
      rw [List.filterMap_cons_some hsome, List.filterMap_cons_none hnone,
        List.filter_cons_of_pos (by simpa using hx), List.map_cons]
      exact (ih.cons _).trans List.perm_middle.symm
    · rw [List.filter_cons_of_neg (by simpa using hx), List.filterMap_cons, List.filterMap_cons,
        hn x List.mem_cons_self hx]
      cases g x with
      | none => exact ih
      | some b => exact ih.cons _

/-- Every item whose key is announced is served once, with the definition of its key. -/
theorem served_perm (h : Consistent as) :
    (served as).Perm ((items as).filterMap (resolved as)) := by
  induction as using List.reverseRecOn with
  | nil => exact List.Perm.refl _
  | append_singleton as a ih =>
    have ih := ih fun k p hp f f' hf hf' => h k p (List.mem_append_left _ hp) f f'
      (List.mem_append_left _ hf) (List.mem_append_left _ hf')
    rw [served_concat]
    cases a with
    | announce k f =>
      rw [items_concat_announce]
      have hnew : ((roomAfter as).step (.announce k f)).2 =
          ((items as).filter fun x => x.1 = k ∧ announced as x.1 = none).map fun x => (x.2, f) := by
        show ((roomAfter as).waiting.filter _).map _ = _
        rw [waiting_roomAfter, List.filter_filter]
        refine congrArg _ (List.filter_congr fun x _ => ?_)
        cases announced as x.1 with
        | none => simp
        | some f' => simp
      rw [hnew]
      refine (ih.append_right _).trans (filterMap_perm (fun x _ hx => ?_) fun x hx hnot => ?_).symm
      · rw [resolved, resolved, announced_concat_announce, hx.2, if_pos hx.1.symm]
        exact ⟨rfl, rfl⟩
      · rw [resolved, resolved, announced_concat_announce]
        split
        · next hk =>
          -- the key is known already, with the same definition
          obtain ⟨f', hf'⟩ := Option.ne_none_iff_exists'.mp fun hnone => hnot ⟨hk.symm, hnone⟩
          rw [hf', h x.1 x.2 (List.mem_append_left _ (mem_items.mp hx)) f f'
            (by rw [← hk]; exact List.mem_append_right _ (List.mem_singleton_self _))
            (List.mem_append_left _ (mem_of_announced hf'))]
        · rfl
    | item k p =>
      have hsame : resolved (as ++ [.item k p]) = resolved (as : List (Arrival K F P)) :=
        funext fun x => by rw [resolved, resolved, announced_concat_item]
      rw [items_concat_item, List.filterMap_append, hsame]
      refine ih.append (List.Perm.of_eq ?_)
      rw [Room.step, known_roomAfter]
      cases hk : announced as k with
      | none => simp [resolved, hk]
      | some f => simp [resolved, hk]

/-! ## The order of the arrivals -/

/-- The same items come, and the same definitions are announced, in whatever order. -/
structure SameArrivals (as bs : List (Arrival K F P)) : Prop where
  items : (items as).Perm (items bs)
  announced : ∀ k f, Arrival.announce k f ∈ as ↔ Arrival.announce k f ∈ bs

omit [DecidableEq K] in
variable {bs : List (Arrival K F P)}

theorem SameArrivals.of_perm (h : as.Perm bs) : SameArrivals as bs where
  items := h.filterMap _
  announced _ _ := h.mem_iff

omit [DecidableEq K] in
theorem Consistent.of_same (h : Consistent as) (hsame : SameArrivals as bs) : Consistent bs := by
  intro k p hp f f' hf hf'
  exact h k p (mem_items.mp (hsame.items.mem_iff.mpr (mem_items.mpr hp))) f f'
    ((hsame.announced k f).mpr hf) ((hsame.announced k f').mpr hf')

theorem resolved_of_same (h : Consistent as)
    (hsame : SameArrivals as bs) {x : K × P} (hx : x ∈ items as) :
    resolved bs x = resolved as x := by
  unfold resolved
  cases ha : announced as x.1 with
  | none =>
    have hb : announced bs x.1 = none := Option.eq_none_iff_forall_ne_some.mpr fun f hf => by
      have hsome := announced_isSome ((hsame.announced x.1 f).mpr (mem_of_announced hf))
      rw [ha] at hsome
      exact absurd hsome Bool.false_ne_true
    rw [hb]
  | some f =>
    have hf := mem_of_announced ha
    obtain ⟨f', hf'⟩ := Option.isSome_iff_exists.mp
      (announced_isSome ((hsame.announced x.1 f).mp hf))
    rw [hf', h x.1 x.2 (mem_items.mp hx) f f' hf
      ((hsame.announced x.1 f').mpr (mem_of_announced hf'))]

/-- What is served does not depend on the order of the arrivals. -/
theorem served_perm_of_same (h : Consistent as)
    (hsame : SameArrivals as bs) : (served as).Perm (served bs) := by
  have hresolved : (items as).filterMap (resolved as) = (items as).filterMap (resolved bs) :=
    List.filterMap_congr fun x hx => (resolved_of_same h hsame hx).symm
  calc (served as).Perm ((items as).filterMap (resolved as)) := served_perm h
    _ = (items as).filterMap (resolved bs) := hresolved
    _ |>.Perm ((items bs).filterMap (resolved bs)) := hsame.items.filterMap _
    _ |>.Perm (served bs) := (served_perm (h.of_same hsame)).symm

end Machine

end WaitingRoom
