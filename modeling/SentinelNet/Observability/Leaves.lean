import SentinelNet.Observability.Snapshots

/-!
# What a snapshot flattens to

`_flatten` stops once it has more than 400 paths.  Up to there it assigns the scalars of the
snapshot to their paths, in order.

* `flatten_eq_assign`: a flattening that did not stop assigns all leaves.
* `mem_leaves`: the path of a leaf goes on from the path of the value.
-/

namespace SentinelNet.Observability

open PyDict PyText

mutual

/-- The paths that `_flatten` assigns, without the limit on their number. -/
def leaves (v : Json) (path : String) (depth : ℕ) : List (String × Json) :=
  if 4 < depth then []
  else
    match v with
    | .obj kvs => leavesMembers kvs path (depth + 1)
    | .arr vs => leavesItems vs 0 path (depth + 1)
    | .null => [(path, .null)]
    | .bool b => [(path, .bool b)]
    | .int n => [(path, .int n)]
    | .float q => [(path, .float q)]
    | .str s => [(path, .str s)]
termination_by structural v

def leavesMembers (kvs : List (String × Json)) (path : String) (depth : ℕ) :
    List (String × Json) :=
  match kvs with
  | [] => []
  | kv :: kvs => leavesMember kv path depth ++ leavesMembers kvs path depth
termination_by structural kvs

def leavesMember (kv : String × Json) (path : String) (depth : ℕ) : List (String × Json) :=
  match kv with
  | (k, v) => leaves v (childPath path k) depth
termination_by structural kv

def leavesItems (vs : List Json) (i : ℕ) (path : String) (depth : ℕ) : List (String × Json) :=
  match vs with
  | [] => []
  | v :: vs =>
    if i < 50 then leaves v (itemPath path i) depth ++ leavesItems vs (i + 1) path depth else []
termination_by structural vs

end

/-! ## No path is lost below the limit -/

mutual

theorem length_le_flatten (v : Json) (path : String) (out : Dict Json) (depth : ℕ) :
    out.length ≤ (flatten v path out depth).length := by
  rw [flatten.eq_def]
  split
  · exact le_rfl
  · cases v with
    | obj kvs => exact length_le_flattenMembers kvs path out (depth + 1)
    | arr vs => exact length_le_flattenItems vs 0 path out (depth + 1)
    | null => exact length_le_set _ _ _
    | bool b => exact length_le_set _ _ _
    | int n => exact length_le_set _ _ _
    | float q => exact length_le_set _ _ _
    | str s => exact length_le_set _ _ _

theorem length_le_flattenMembers (kvs : List (String × Json)) (path : String) (out : Dict Json)
    (depth : ℕ) : out.length ≤ (flattenMembers kvs path out depth).length := by
  match kvs with
  | [] => exact le_rfl
  | kv :: kvs =>
    exact (length_le_flattenMember kv path out depth).trans
      (length_le_flattenMembers kvs path _ depth)

theorem length_le_flattenMember (kv : String × Json) (path : String) (out : Dict Json)
    (depth : ℕ) : out.length ≤ (flattenMember kv path out depth).length := by
  match kv with
  | (k, v) => exact length_le_flatten v (childPath path k) out depth

theorem length_le_flattenItems (vs : List Json) (i : ℕ) (path : String) (out : Dict Json)
    (depth : ℕ) : out.length ≤ (flattenItems vs i path out depth).length := by
  match vs with
  | [] => exact le_rfl
  | v :: vs =>
    rw [flattenItems]
    split
    · exact (length_le_flatten v (itemPath path i) out depth).trans
        (length_le_flattenItems vs (i + 1) path _ depth)
    · exact le_rfl

end

mutual

theorem flatten_eq_assign (v : Json) (path : String) (out : Dict Json) (depth : ℕ)
    (h : (flatten v path out depth).length ≤ 400) :
    flatten v path out depth = assign out (leaves v path depth) := by
  have hout := (length_le_flatten v path out depth).trans h
  rw [flatten.eq_def] at h ⊢
  rw [leaves.eq_def]
  by_cases hd : 4 < depth
  · rw [if_pos (Or.inl hd), if_pos hd]
    rfl
  · have hgo : ¬ (4 < depth ∨ 400 < out.length) := by omega
    rw [if_neg hgo] at h ⊢
    rw [if_neg hd]
    cases v with
    | obj kvs => exact flattenMembers_eq_assign kvs path out (depth + 1) h
    | arr vs => exact flattenItems_eq_assign vs 0 path out (depth + 1) h
    | null => rfl
    | bool b => rfl
    | int n => rfl
    | float q => rfl
    | str s => rfl

theorem flattenMembers_eq_assign (kvs : List (String × Json)) (path : String) (out : Dict Json)
    (depth : ℕ) (h : (flattenMembers kvs path out depth).length ≤ 400) :
    flattenMembers kvs path out depth = assign out (leavesMembers kvs path depth) := by
  match kvs with
  | [] => rfl
  | kv :: kvs =>
    rw [flattenMembers] at h ⊢
    have hhead := (length_le_flattenMembers kvs path _ depth).trans h
    rw [leavesMembers, assign_append, ← flattenMember_eq_assign kv path out depth hhead]
    exact flattenMembers_eq_assign kvs path _ depth h

theorem flattenMember_eq_assign (kv : String × Json) (path : String) (out : Dict Json)
    (depth : ℕ) (h : (flattenMember kv path out depth).length ≤ 400) :
    flattenMember kv path out depth = assign out (leavesMember kv path depth) := by
  match kv, h with
  | (k, v), h => exact flatten_eq_assign v (childPath path k) out depth h

theorem flattenItems_eq_assign (vs : List Json) (i : ℕ) (path : String) (out : Dict Json)
    (depth : ℕ) (h : (flattenItems vs i path out depth).length ≤ 400) :
    flattenItems vs i path out depth = assign out (leavesItems vs i path depth) := by
  match vs, h with
  | [], _ => rfl
  | v :: vs, h =>
    rw [flattenItems] at h ⊢
    rw [leavesItems]
    by_cases hi : i < 50
    · rw [if_pos hi] at h ⊢
      rw [if_pos hi]
      have hhead := (length_le_flattenItems vs (i + 1) path _ depth).trans h
      rw [assign_append, ← flatten_eq_assign v (itemPath path i) out depth hhead]
      exact flattenItems_eq_assign vs (i + 1) path _ depth h
    · rw [if_neg hi, if_neg hi]
      rfl

end

/-! ## Paths go on from their start -/

/-- A path that goes on from another one: at its end, with a member, or with an item. -/
def GoesOn (path path' : String) : Prop :=
  ∃ rest, path'.toList = path.toList ++ rest ∧ ∀ c ∈ rest.head?, c = '.' ∨ c = '['

theorem GoesOn.refl (path : String) : GoesOn path path :=
  ⟨[], (List.append_nil _).symm, by simp⟩

variable {path : String}

theorem GoesOn.child {k path' : String} (hne : path ≠ "")
    (h : GoesOn (childPath path k) path') : GoesOn path path' := by
  obtain ⟨rest, heq, -⟩ := h
  refine ⟨'.' :: (k.toList ++ rest), ?_, ?_⟩
  · rw [heq, childPath, if_neg hne]
    simp
  · intro c hc
    exact Or.inl (Option.some.inj hc).symm

theorem GoesOn.item {path' : String} {i : ℕ} (h : GoesOn (itemPath path i) path') :
    GoesOn path path' := by
  obtain ⟨rest, heq, -⟩ := h
  refine ⟨'[' :: ((str i).toList ++ ']' :: rest), ?_, ?_⟩
  · rw [heq, itemPath]
    simp
  · intro c hc
    exact Or.inr (Option.some.inj hc).symm

theorem childPath_ne_empty {k : String} (h : path ≠ "") : childPath path k ≠ "" := by
  rw [childPath, if_neg h]
  intro heq
  have hlen := congrArg String.toList heq
  simp at hlen

theorem itemPath_ne_empty {i : ℕ} : itemPath path i ≠ "" := by
  intro heq
  have hlen := congrArg String.toList heq
  simp [itemPath] at hlen

mutual

/-- The path of a leaf goes on from the path of the value. -/
theorem mem_leaves (v : Json) (path : String) (depth : ℕ) (hne : path ≠ "") {p : String × Json}
    (h : p ∈ leaves v path depth) : GoesOn path p.1 := by
  rw [leaves.eq_def] at h
  split at h
  · cases h
  · cases v with
    | obj kvs => exact mem_leavesMembers kvs path (depth + 1) hne h
    | arr vs => exact mem_leavesItems vs 0 path (depth + 1) h
    | null => exact List.mem_singleton.mp h ▸ GoesOn.refl path
    | bool b => exact List.mem_singleton.mp h ▸ GoesOn.refl path
    | int n => exact List.mem_singleton.mp h ▸ GoesOn.refl path
    | float q => exact List.mem_singleton.mp h ▸ GoesOn.refl path
    | str s => exact List.mem_singleton.mp h ▸ GoesOn.refl path

theorem mem_leavesMembers (kvs : List (String × Json)) (path : String) (depth : ℕ)
    (hne : path ≠ "") {p : String × Json} (h : p ∈ leavesMembers kvs path depth) :
    GoesOn path p.1 := by
  match kvs, h with
  | [], h => cases h
  | kv :: kvs, h =>
    rw [leavesMembers] at h
    rcases List.mem_append.mp h with h | h
    · exact mem_leavesMember kv path depth hne h
    · exact mem_leavesMembers kvs path depth hne h

theorem mem_leavesMember (kv : String × Json) (path : String) (depth : ℕ) (hne : path ≠ "")
    {p : String × Json} (h : p ∈ leavesMember kv path depth) : GoesOn path p.1 := by
  match kv, h with
  | (k, v), h => exact (mem_leaves v (childPath path k) depth (childPath_ne_empty hne) h).child hne

theorem mem_leavesItems (vs : List Json) (i : ℕ) (path : String) (depth : ℕ)
    {p : String × Json} (h : p ∈ leavesItems vs i path depth) : GoesOn path p.1 := by
  match vs, h with
  | [], h => cases h
  | v :: vs, h =>
    rw [leavesItems] at h
    split at h
    · rcases List.mem_append.mp h with h | h
      · exact (mem_leaves v (itemPath path i) depth itemPath_ne_empty h).item
      · exact mem_leavesItems vs (i + 1) path depth h
    · cases h

end

theorem leavesMembers_eq_flatMap (kvs : List (String × Json)) (path : String) (depth : ℕ) :
    leavesMembers kvs path depth =
      kvs.flatMap fun kv => leaves kv.2 (childPath path kv.1) depth := by
  induction kvs with
  | nil => rfl
  | cons kv kvs ih =>
    obtain ⟨k, v⟩ := kv
    rw [leavesMembers, ih]
    rfl

theorem leaves_of_isScalar {v : Json} (h : v.isScalar) (path : String) {depth : ℕ}
    (hd : ¬ 4 < depth) : leaves v path depth = [(path, v)] := by
  rw [leaves.eq_def, if_neg hd]
  cases v with
  | obj kvs => exact absurd h (by simp [Json.isScalar])
  | arr vs => exact absurd h (by simp [Json.isScalar])
  | null => rfl
  | bool b => rfl
  | int n => rfl
  | float q => rfl
  | str s => rfl

end SentinelNet.Observability
