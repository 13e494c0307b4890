import SentinelNet.Lib.Assoc

/-!
# Trees of files

Directories and the files in them.  A directory is named by the names on the way to it from the root
of the file system; a file by its directory and its name.

* `Tree.read_discard`, `Tree.read_transfer`: what is read after them.
-/

namespace FileTree

open Assoc

/-- The names on the way to a directory. -/
abbrev Dir := List String

/-- Under a name, so that definitions that look for a directory need no proof of their own. -/
instance : LawfulBEq Dir := inferInstance

/-- A directory and a name in it. -/
abbrev Path := Dir × String

/-- The directory that a name leads to. -/
def push (d : Dir) (part : String) : Dir :=
  if part = "" ∨ part = "." then d else if part = ".." then d.dropLast else d ++ [part]

/-- A name that leads to a directory of its own. -/
def Proper (part : String) : Prop := part ≠ "" ∧ part ≠ "." ∧ part ≠ ".."

instance (part : String) : Decidable (Proper part) := inferInstanceAs (Decidable (_ ∧ _))

theorem push_of_proper {part : String} (h : Proper part) (d : Dir) : push d part = d ++ [part] := by
  obtain ⟨hempty, hdot, hdots⟩ := h
  rw [push, if_neg (not_or.mpr ⟨hempty, hdot⟩), if_neg hdots]

/-- Directories, and files with their contents. -/
structure Tree (C : Type*) where
  dirs : List Dir
  files : List (Path × C)

namespace Tree

variable {C : Type*}

/-- Before the first directory. -/
def empty : Tree C := ⟨[], []⟩

/-- The content of a file. -/
def read (t : Tree C) (p : Path) : Option C := find t.files p

/-- A file is written. -/
def write (t : Tree C) (p : Path) (c : C) : Tree C := { t with files := put t.files p c }

/-- A file is removed. -/
def remove (t : Tree C) (p : Path) : Tree C := { t with files := erase t.files p }

/-- A file takes the place of another one. -/
def move (t : Tree C) (p q : Path) : Tree C :=
  match t.read p with
  | some c => (t.remove p).write q c
  | none => t

/-- A directory is made, if it is not there. -/
def mkdir (t : Tree C) (d : Dir) : Tree C :=
  if d ∈ t.dirs then t else { t with dirs := t.dirs ++ [d] }

/-- A directory is made, and those on the way to it. -/
def makedirs (t : Tree C) (d : Dir) : Tree C := d.inits.foldl mkdir t

/-- The names of the files in a directory. -/
def listing (t : Tree C) (d : Dir) : List String :=
  (t.files.filter fun e => e.1.1 = d).map fun e => e.1.2

/-- A directory and those below it. -/
def below (t : Tree C) (root : Dir) : List Dir := t.dirs.filter fun d => root <+: d

/-- The selected files of a directory are removed. -/
def discard (t : Tree C) (d : Dir) (sel : String → Bool) : Tree C :=
  ((t.listing d).filter sel).foldl (fun t f => t.remove (d, f)) t

/-- The selected files of a directory are moved to another one. -/
def transfer (t : Tree C) (src dst : Dir) (sel : String → Bool) : Tree C :=
  ((t.listing src).filter sel).foldl (fun t f => t.move (src, f) (dst, f)) t

/-! ## What is read -/

variable (t : Tree C)

@[simp] theorem read_empty (p : Path) : (empty : Tree C).read p = none := rfl

theorem read_write (p q : Path) (c : C) :
    (t.write p c).read q = if p = q then some c else t.read q :=
  find_put t.files p q c

theorem read_remove (p q : Path) : (t.remove p).read q = if p = q then none else t.read q :=
  find_erase t.files p q

theorem read_move {p q : Path} (hne : p ≠ q) (r : Path) :
    (t.move p q).read r =
      if r = p then none else if r = q then (t.read p).or (t.read q) else t.read r := by
  unfold move
  cases hp : t.read p with
  | none =>
    show t.read r = _
    by_cases hr : r = p
    · rw [if_pos hr, hr]
      exact hp
    · rw [if_neg hr, Option.none_or]
      by_cases hq : r = q
      · rw [if_pos hq, hq]
      · rw [if_neg hq]
  | some c =>
    show ((t.remove p).write q c).read r = _
    rw [read_write, read_remove, Option.some_or]
    by_cases hr : r = p
    · rw [if_pos hr, if_neg fun h => hne (hr.symm.trans h.symm), if_pos hr.symm]
    · rw [if_neg hr, if_neg (Ne.symm hr)]
      by_cases hq : r = q
      · rw [if_pos hq, if_pos hq.symm]
      · rw [if_neg hq, if_neg (Ne.symm hq)]

theorem mem_listing {d : Dir} {f : String} : f ∈ t.listing d ↔ (t.read (d, f)).isSome := by
  unfold listing read
  rw [List.mem_map]
  constructor
  · rintro ⟨e, he, rfl⟩
    obtain ⟨hmem, hd⟩ := List.mem_filter.mp he
    have hfound := find_ne_none hmem
    rw [← of_decide_eq_true hd]
    exact Option.isSome_iff_ne_none.mpr hfound
  · intro h
    obtain ⟨c, hc⟩ := Option.isSome_iff_exists.mp h
    exact ⟨((d, f), c), List.mem_filter.mpr ⟨mem_of_find hc, decide_eq_true rfl⟩, rfl⟩

theorem read_foldl_remove (d : Dir) (names : List String) (t : Tree C) (e : Dir) (f : String) :
    (names.foldl (fun t f => t.remove (d, f)) t).read (e, f) =
      if e = d ∧ f ∈ names then none else t.read (e, f) := by
  induction names generalizing t with
  | nil => rw [List.foldl_nil, if_neg fun h => List.not_mem_nil h.2]
  | cons g names ih =>
    rw [List.foldl_cons, ih, read_remove]
    by_cases hrest : e = d ∧ f ∈ names
    · rw [if_pos hrest, if_pos ⟨hrest.1, List.mem_cons_of_mem _ hrest.2⟩]
    · rw [if_neg hrest]
      by_cases hhere : e = d ∧ f = g
      · rw [if_pos (Prod.ext hhere.1.symm hhere.2.symm),
          if_pos ⟨hhere.1, List.mem_cons.mpr (.inl hhere.2)⟩]
      · rw [if_neg fun h => hhere ⟨(congrArg Prod.fst h).symm, (congrArg Prod.snd h).symm⟩,
          if_neg ?_]
        rintro ⟨hd, hf⟩
        rcases List.mem_cons.mp hf with hf | hf
        · exact hhere ⟨hd, hf⟩
        · exact hrest ⟨hd, hf⟩

/-- What is read after selected files of a directory were removed. -/
theorem read_discard (d : Dir) (sel : String → Bool) (e : Dir) (f : String) :
    (t.discard d sel).read (e, f) = if e = d ∧ sel f = true then none else t.read (e, f) := by
  rw [discard, read_foldl_remove]
  by_cases hsel : e = d ∧ sel f = true
  · rw [if_pos hsel]
    by_cases hmem : f ∈ (t.listing d).filter sel
    · rw [if_pos ⟨hsel.1, hmem⟩]
    · rw [if_neg fun h => hmem h.2, hsel.1]
      have hout : f ∉ t.listing d := fun h => hmem (List.mem_filter.mpr ⟨h, hsel.2⟩)
      rw [mem_listing, Bool.not_eq_true, Option.isSome_eq_false_iff, Option.isNone_iff_eq_none]
        at hout
      exact hout
  · rw [if_neg hsel, if_neg fun h => hsel ⟨h.1, (List.mem_filter.mp h.2).2⟩]

theorem read_foldl_move {src dst : Dir} (hne : src ≠ dst) (names : List String) (t : Tree C)
    (e : Dir) (f : String) :
    (names.foldl (fun t f => t.move (src, f) (dst, f)) t).read (e, f) =
      if f ∈ names then
        if e = src then none
        else if e = dst then (t.read (src, f)).or (t.read (dst, f)) else t.read (e, f)
      else t.read (e, f) := by
  induction names generalizing t with
  | nil => rw [List.foldl_nil, if_neg List.not_mem_nil]
  | cons g names ih =>
    have hpath : ((src, g) : Path) ≠ (dst, g) := fun h => hne (congrArg Prod.fst h)
    have hmove : ∀ e' : Dir, (t.move (src, g) (dst, g)).read (e', f) =
        if f = g then
          if e' = src then none
          else if e' = dst then (t.read (src, f)).or (t.read (dst, f)) else t.read (e', f)
        else t.read (e', f) := by
      intro e'
      rw [read_move t hpath]
      by_cases hf : f = g
      · subst hf
        rw [if_pos rfl]
        simp only [Prod.mk.injEq, and_true]
      · rw [if_neg hf, if_neg fun h => hf (congrArg Prod.snd h),
          if_neg fun h => hf (congrArg Prod.snd h)]
    rw [List.foldl_cons, ih, hmove, hmove, hmove]
    by_cases hf : f = g
    · rw [if_pos hf, if_pos hf, if_pos hf, if_pos (List.mem_cons.mpr (.inl hf)), if_pos rfl,
        if_neg hne.symm, if_pos rfl, Option.none_or]
      by_cases hsrc : e = src
      · rw [if_pos hsrc, if_pos hsrc, ite_self]
      · rw [if_neg hsrc, if_neg hsrc]
        by_cases hdst : e = dst
        · rw [if_pos hdst, if_pos hdst, ite_self]
        · rw [if_neg hdst, if_neg hdst, ite_self]
    · rw [if_neg hf, if_neg hf, if_neg hf]
      by_cases hrest : f ∈ names
      · rw [if_pos hrest, if_pos (List.mem_cons_of_mem _ hrest)]
      · rw [if_neg hrest, if_neg fun h => (List.mem_cons.mp h).elim hf hrest]

/-- What is read after selected files of a directory were moved to another one. -/
theorem read_transfer {src dst : Dir} (hne : src ≠ dst) (sel : String → Bool) (e : Dir)
    (f : String) :
    (t.transfer src dst sel).read (e, f) =
      if sel f = true then
        if e = src then none
        else if e = dst then (t.read (src, f)).or (t.read (dst, f)) else t.read (e, f)
      else t.read (e, f) := by
  rw [transfer, read_foldl_move hne]
  by_cases hsel : sel f = true
  · rw [if_pos hsel]
    by_cases hmem : f ∈ t.listing src
    · rw [if_pos (List.mem_filter.mpr ⟨hmem, hsel⟩)]
    · rw [if_neg fun h => hmem (List.mem_filter.mp h).1]
      rw [mem_listing, Bool.not_eq_true, Option.isSome_eq_false_iff, Option.isNone_iff_eq_none]
        at hmem
      split
      · next he => rw [he, hmem]
      · split
        · next he => rw [he, hmem, Option.none_or]
        · rfl
  · rw [if_neg hsel, if_neg fun h => hsel (List.mem_filter.mp h).2]

/-! ## Directories -/

@[simp] theorem dirs_write (p : Path) (c : C) : (t.write p c).dirs = t.dirs := rfl

@[simp] theorem dirs_remove (p : Path) : (t.remove p).dirs = t.dirs := rfl

@[simp] theorem dirs_move (p q : Path) : (t.move p q).dirs = t.dirs := by
  unfold move
  split
  · rfl
  · rfl

@[simp] theorem dirs_discard (d : Dir) (sel : String → Bool) : (t.discard d sel).dirs = t.dirs :=
  List.foldlRecOn (motive := fun t' : Tree C => t'.dirs = t.dirs) _ _ rfl fun _ h _ _ => h

@[simp] theorem dirs_transfer (src dst : Dir) (sel : String → Bool) :
    (t.transfer src dst sel).dirs = t.dirs :=
  List.foldlRecOn (motive := fun t' : Tree C => t'.dirs = t.dirs) _ _ rfl
    fun t' h _ _ => (t'.dirs_move _ _).trans h

theorem mem_dirs_mkdir {d e : Dir} : e ∈ (t.mkdir d).dirs ↔ e ∈ t.dirs ∨ e = d := by
  unfold mkdir
  split
  · next h => exact ⟨.inl, fun he => he.elim id fun he => he ▸ h⟩
  · rw [List.mem_append, List.mem_singleton]

theorem read_mkdir (d : Dir) (p : Path) : (t.mkdir d).read p = t.read p := by
  unfold mkdir
  split
  · rfl
  · rfl

theorem mem_dirs_makedirs {d e : Dir} : e ∈ (t.makedirs d).dirs ↔ e ∈ t.dirs ∨ e <+: d := by
  have hfold : ∀ (ds : List Dir) (t : Tree C),
      e ∈ (ds.foldl mkdir t).dirs ↔ e ∈ t.dirs ∨ e ∈ ds := by
    intro ds
    induction ds with
    | nil => exact fun t => (or_iff_left List.not_mem_nil).symm
    | cons d' ds ih =>
      intro t
      rw [List.foldl_cons, ih, mem_dirs_mkdir, List.mem_cons, or_assoc]
  rw [makedirs, hfold, List.mem_inits]

@[simp] theorem read_makedirs (d : Dir) (p : Path) : (t.makedirs d).read p = t.read p :=
  List.foldlRecOn (motive := fun t' : Tree C => t'.read p = t.read p) _ _ rfl
    fun t' h d' _ => (t'.read_mkdir d' p).trans h

theorem nodup_mkdir {t : Tree C} (h : t.dirs.Nodup) (d : Dir) : (t.mkdir d).dirs.Nodup := by
  unfold mkdir
  split
  · exact h
  · next hd => exact List.nodup_append'.mpr ⟨h, List.nodup_singleton d, by simpa using hd⟩

theorem nodup_makedirs {t : Tree C} (h : t.dirs.Nodup) (d : Dir) : (t.makedirs d).dirs.Nodup :=
  List.foldlRecOn (motive := fun t' : Tree C => t'.dirs.Nodup) _ _ h
    fun _ h d' _ => nodup_mkdir h d'

theorem nodup_below {t : Tree C} (h : t.dirs.Nodup) (root : Dir) : (t.below root).Nodup :=
  h.sublist List.filter_sublist

theorem mem_below {root d : Dir} : d ∈ t.below root ↔ d ∈ t.dirs ∧ root <+: d := by
  rw [below, List.mem_filter, decide_eq_true_eq]

end Tree
end FileTree
