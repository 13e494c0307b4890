import SentinelNet.Backups.Names

/-!
# The walk over the folders of a tenant

A turn of the walk of `remove_stale_backups` moves the backups of an address, and what is in the
history of the address, to the folder where the next backup goes; in this folder it removes the
backups under other names.

* `read_visit_current`, `Tidy.read_visit_historyOf`: what a turn leaves.
* `Ready.walk_current`, `Ready.walk_isSome`, `Ready.walk_some`: what the turns leave of backups.
* `Ready.walk_historyOf`, `Ready.walk_holds`: what they leave of the history.
-/

namespace SentinelNet.Backups

open PyText FileTree Inventory

variable {base : Dir} {s : BackupTree} {ip keep f : String} {new d e : Dir} {c : Content}

/-! ## A turn -/

theorem read_moveHistory (s : BackupTree) (root : Dir) (ip : String) (new e : Dir) (f : String) :
    (moveHistory s root ip new).read (e, f) =
      if isHistoryOf ip f = true ∧ historyOf root ∈ s.dirs ∧ root ≠ new then
        if e = historyOf root then none
        else if e = historyOf new then
          (s.read (historyOf root, f)).or (s.read (historyOf new, f))
        else s.read (e, f)
      else s.read (e, f) := by
  unfold moveHistory
  by_cases hdir : historyOf root ∈ s.dirs
  · rw [if_pos hdir]
    by_cases hroot : root = new
    · rw [if_pos (congrArg historyOf hroot), if_neg fun h => h.2.2 hroot]
    · have hne : historyOf root ≠ historyOf new := fun h => hroot (historyOf_inj.mp h)
      rw [if_neg hne, Tree.read_transfer _ hne, Tree.read_makedirs, Tree.read_makedirs,
        Tree.read_makedirs]
      by_cases hf : isHistoryOf ip f = true
      · have hall : isHistoryOf ip f = true ∧ historyOf root ∈ s.dirs ∧ root ≠ new :=
          ⟨hf, hdir, hroot⟩
        rw [if_pos hf, if_pos hall]
      · rw [if_neg hf, if_neg fun h => hf h.1]
  · rw [if_neg hdir, if_neg fun h => hdir h.2.1]

theorem mem_dirs_moveHistory {root x : Dir} : x ∈ (moveHistory s root ip new).dirs ↔
    x ∈ s.dirs ∨ (historyOf root ∈ s.dirs ∧ root ≠ new ∧ x <+: historyOf new) := by
  unfold moveHistory
  by_cases hdir : historyOf root ∈ s.dirs
  · rw [if_pos hdir]
    by_cases hroot : root = new
    · rw [if_pos (congrArg historyOf hroot), or_iff_left fun h => h.2.1 hroot]
    · rw [if_neg fun h => hroot (historyOf_inj.mp h), Tree.dirs_transfer, Tree.mem_dirs_makedirs]
      exact or_congr_right ⟨fun h => ⟨hdir, hroot, h⟩, fun h => h.2.2⟩
  · rw [if_neg hdir, or_iff_left fun h => hdir h.1]

theorem mem_dirs_visit {x : Dir} : x ∈ (visit ip new keep s d).dirs ↔
    x ∈ s.dirs ∨ (historyOf d ∈ s.dirs ∧ d ≠ new ∧ x <+: historyOf new) := by
  unfold visit
  by_cases hd : d = new
  · rw [if_pos hd, Tree.dirs_discard, or_iff_left fun h => h.2.1 hd]
  · rw [if_neg hd, mem_dirs_moveHistory, Tree.dirs_transfer]

theorem nodup_visit (h : s.dirs.Nodup) (d : Dir) : (visit ip new keep s d).dirs.Nodup := by
  unfold visit moveHistory
  split_ifs
  · rw [Tree.dirs_discard]
    exact h
  · rw [Tree.dirs_transfer]
    exact h
  · rw [Tree.dirs_transfer]
    refine Tree.nodup_makedirs ?_ _
    rw [Tree.dirs_transfer]
    exact h
  · rw [Tree.dirs_transfer]
    exact h

/-- What a turn leaves outside of the history folders. -/
theorem read_visit_current (he : ∀ x, e ≠ historyOf x) :
    (visit ip new keep s d).read (e, f) =
      if isBackupOf ip f = true then
        if d = new then if e = new ∧ f ≠ keep then none else s.read (e, f)
        else if e = d then none
        else if e = new then (s.read (d, f)).or (s.read (new, f)) else s.read (e, f)
      else s.read (e, f) := by
  unfold visit
  by_cases hd : d = new
  · rw [if_pos hd, Tree.read_discard, hd]
    simp only [Bool.and_eq_true, decide_eq_true_eq]
    by_cases hf : isBackupOf ip f = true
    · rw [if_pos hf, if_pos trivial]
      by_cases hcase : e = new ∧ f ≠ keep
      · have hall : e = new ∧ isBackupOf ip f = true ∧ f ≠ keep := ⟨hcase.1, hf, hcase.2⟩
        rw [if_pos hcase, if_pos hall]
      · have hout : ¬ (e = new ∧ isBackupOf ip f = true ∧ f ≠ keep) :=
          fun h => hcase ⟨h.1, h.2.2⟩
        rw [if_neg hcase, if_neg hout]
    · have hout : ¬ (e = new ∧ isBackupOf ip f = true ∧ f ≠ keep) := fun h => hf h.2.1
      rw [if_neg hf, if_neg hout]
  · rw [if_neg hd, read_moveHistory, if_neg (he d), if_neg (he new), ite_self,
      Tree.read_transfer _ hd]
    by_cases hf : isBackupOf ip f = true
    · rw [if_pos hf, if_pos hf, if_neg hd]
    · rw [if_neg hf, if_neg hf]

/-! ## Tidy trees -/

/-- Files are in folders that were made, with those on the way to them.  What is in a history folder
is no backup, and has one place in its tenant.  An index lists files of its address. -/
structure Tidy (base : Dir) (s : BackupTree) : Prop where
  distinct : s.dirs.Nodup
  housed : ∀ d f, (s.read (d, f)).isSome → d ∈ s.dirs
  closed : ∀ d ∈ s.dirs, ∀ e, e <+: d → e ∈ s.dirs
  archive : ∀ d f, (s.read (historyOf d, f)).isSome →
    ∀ ip, validIp ip = true → isBackupOf ip f = false
  single : ∀ t d e f, base ++ [t] <+: d → base ++ [t] <+: e →
    (s.read (historyOf d, f)).isSome → (s.read (historyOf e, f)).isSome → d = e
  listed : ∀ d ip i, s.read (historyOf d, indexName ip) = some (.index i) →
    ∀ v ∈ i.versions, isHistoryOf ip v.file = true

theorem tidy_empty (base : Dir) : Tidy base Tree.empty where
  distinct := List.nodup_nil
  housed _ _ h := absurd h Bool.false_ne_true
  closed _ h := nomatch h
  archive _ _ h := absurd h Bool.false_ne_true
  single _ _ _ _ _ _ h := absurd h Bool.false_ne_true
  listed _ _ _ h := nomatch h

theorem Tidy.read_eq_none (hs : Tidy base s) (hip : validIp ip)
    (hf : isBackupOf ip f) (d : Dir) : s.read (historyOf d, f) = none := by
  rw [← Option.not_isSome_iff_eq_none]
  intro h
  rw [hs.archive d f h ip hip] at hf
  exact Bool.false_ne_true hf

/-- What a turn leaves in the history folders. -/
theorem Tidy.read_visit_historyOf (hs : Tidy base s) (hip : validIp ip)
    (hnew : ∀ x, new ≠ historyOf x) (keep : String) (d e : Dir) (f : String) :
    (visit ip new keep s d).read (historyOf e, f) =
      if isHistoryOf ip f = true ∧ d ≠ new then
        if e = d then none
        else if e = new then (s.read (historyOf d, f)).or (s.read (historyOf new, f))
        else s.read (historyOf e, f)
      else s.read (historyOf e, f) := by
  unfold visit
  by_cases hd : d = new
  · rw [if_pos hd, Tree.read_discard, hd, if_neg fun h => hnew e h.1.symm, if_neg fun h => h.2 rfl]
  · have htransfer : ∀ x, (s.transfer d new (isBackupOf ip)).read (historyOf x, f) =
        s.read (historyOf x, f) := by
      intro x
      rw [Tree.read_transfer _ hd, if_neg (Ne.symm (hnew x))]
      by_cases hf : isBackupOf ip f = true
      · rw [hs.read_eq_none hip hf x, ite_self, ite_self]
      · rw [if_neg hf]
    rw [if_neg hd, read_moveHistory, Tree.dirs_transfer, htransfer, htransfer, htransfer]
    by_cases hf : isHistoryOf ip f = true
    · have hmoves : isHistoryOf ip f = true ∧ d ≠ new := ⟨hf, hd⟩
      rw [if_pos hmoves]
      by_cases hdir : historyOf d ∈ s.dirs
      · have hall : isHistoryOf ip f = true ∧ historyOf d ∈ s.dirs ∧ d ≠ new := ⟨hf, hdir, hd⟩
        rw [if_pos hall]
        simp only [historyOf_inj]
      · have hnone : s.read (historyOf d, f) = none := by
          rw [← Option.not_isSome_iff_eq_none]
          exact fun h => hdir (hs.housed _ _ h)
        have hout : ¬ (isHistoryOf ip f = true ∧ historyOf d ∈ s.dirs ∧ d ≠ new) :=
          fun h => hdir h.2.1
        rw [if_neg hout, hnone, Option.none_or]
        by_cases he : e = d
        · rw [if_pos he, he, hnone]
        · rw [if_neg he]
          by_cases hen : e = new
          · rw [if_pos hen, hen]
          · rw [if_neg hen]
    · rw [if_neg fun h => hf h.1, if_neg fun h => hf h.1]

theorem Tidy.origin (hs : Tidy base s) (hip : validIp ip) (hnew : ∀ x, new ≠ historyOf x)
    (h : (visit ip new keep s d).read (historyOf e, f) = some c) :
    (s.read (historyOf e, f) = some c ∧ (isHistoryOf ip f = true → d ≠ new → e ≠ d)) ∨
      (isHistoryOf ip f = true ∧ d ≠ new ∧ e = new ∧ s.read (historyOf d, f) = some c) := by
  rw [hs.read_visit_historyOf hip hnew] at h
  by_cases hmoves : isHistoryOf ip f = true ∧ d ≠ new
  · rw [if_pos hmoves] at h
    by_cases hed : e = d
    · rw [if_pos hed] at h
      cases h
    · rw [if_neg hed] at h
      by_cases hen : e = new
      · rw [if_pos hen] at h
        cases hread : s.read (historyOf d, f) with
        | none =>
          rw [hread, Option.none_or] at h
          rw [hen]
          exact .inl ⟨h, fun _ hne hnd => hne hnd.symm⟩
        | some c' =>
          rw [hread, Option.some_or] at h
          exact .inr ⟨hmoves.1, hmoves.2, hen, h⟩
      · rw [if_neg hen] at h
        exact .inl ⟨h, fun _ _ => hed⟩
  · rw [if_neg hmoves] at h
    exact .inl ⟨h, fun hf hd => absurd ⟨hf, hd⟩ hmoves⟩

theorem eq_of_append_prefixes {t t' : String} (h : base ++ [t] <+: d) (h' : base ++ [t'] <+: d) :
    t = t' := by
  have heq := List.IsPrefix.eq_of_length (List.prefix_of_prefix_length_le h h' (by simp)) (by simp)
  exact (List.cons.inj (List.append_inj' heq rfl).2).1

/-- The tree is tidy, and the folder where the next backup goes was made. -/
structure Ready (base : Dir) (t : String) (new : Dir) (s : BackupTree) : Prop where
  tidy : Tidy base s
  made : new ∈ s.dirs
  inside : base ++ [t] <+: new
  current : ∀ x, new ≠ historyOf x

variable {t : String}

/-- A turn keeps the tree tidy. -/
theorem Ready.visit (hs : Ready base t new s) (hip : validIp ip)
    (hd : base ++ [t] <+: d) (keep : String) : Ready base t new (visit ip new keep s d) := by
  obtain ⟨htidy, hmade, hinside, hnew⟩ := hs
  refine ⟨⟨nodup_visit htidy.distinct d, fun e f h => ?_, fun x hx y hy => ?_,
    fun e f h ip' hip' => ?_, fun t' e₁ e₂ f h₁ h₂ hr₁ hr₂ => ?_, fun e ip' i h => ?_⟩,
    mem_dirs_visit.mpr (.inl hmade), hinside, hnew⟩
  · rw [mem_dirs_visit]
    by_cases he : ∃ x, e = historyOf x
    · obtain ⟨x, rfl⟩ := he
      obtain ⟨c, hc⟩ := Option.isSome_iff_exists.mp h
      rcases htidy.origin hip hnew hc with ⟨hread, -⟩ | ⟨-, hne, rfl, hread⟩
      · exact .inl (htidy.housed _ _ (by rw [hread]; rfl))
      · exact .inr ⟨htidy.housed _ _ (by rw [hread]; rfl), hne, List.prefix_refl _⟩
    · rw [not_exists] at he
      rw [read_visit_current he] at h
      left
      by_cases hen : e = new
      · rw [hen]
        exact hmade
      · have hout : ¬ (e = new ∧ f ≠ keep) := fun h => hen h.1
        rw [if_neg hout, if_neg hen] at h
        by_cases hsame : (s.read (e, f)).isSome
        · exact htidy.housed e f hsame
        · rw [Bool.not_eq_true, Option.isSome_eq_false_iff, Option.isNone_iff_eq_none] at hsame
          rw [hsame, ite_self, ite_self, ite_self] at h
          exact absurd h Bool.false_ne_true
  · rw [mem_dirs_visit] at hx ⊢
    rcases hx with hx | ⟨hdir, hne, hx⟩
    · exact .inl (htidy.closed x hx y hy)
    · exact .inr ⟨hdir, hne, hy.trans hx⟩
  · obtain ⟨c, hc⟩ := Option.isSome_iff_exists.mp h
    rcases htidy.origin hip hnew hc with ⟨hread, -⟩ | ⟨-, -, -, hread⟩
    · exact htidy.archive _ f (by rw [hread]; rfl) ip' hip'
    · exact htidy.archive _ f (by rw [hread]; rfl) ip' hip'
  · obtain ⟨c₁, hc₁⟩ := Option.isSome_iff_exists.mp hr₁
    obtain ⟨c₂, hc₂⟩ := Option.isSome_iff_exists.mp hr₂
    rcases htidy.origin hip hnew hc₁ with ⟨hread₁, hstay₁⟩ | ⟨hf, hne, hen₁, hread₁⟩
    · rcases htidy.origin hip hnew hc₂ with ⟨hread₂, -⟩ | ⟨hf, hne, rfl, hread₂⟩
      · exact htidy.single t' e₁ e₂ f h₁ h₂ (by rw [hread₁]; rfl) (by rw [hread₂]; rfl)
      · obtain rfl := eq_of_append_prefixes hinside h₂
        exact absurd (htidy.single t e₁ d f h₁ hd (by rw [hread₁]; rfl) (by rw [hread₂]; rfl))
          (hstay₁ hf hne)
    · rcases htidy.origin hip hnew hc₂ with ⟨hread₂, hstay₂⟩ | ⟨-, -, hen₂, -⟩
      · rw [hen₁] at h₁
        obtain rfl := eq_of_append_prefixes hinside h₁
        exact absurd (htidy.single t e₂ d f h₂ hd (by rw [hread₂]; rfl) (by rw [hread₁]; rfl))
          (hstay₂ hf hne)
      · rw [hen₁, hen₂]
  · rcases htidy.origin hip hnew h with ⟨hread, -⟩ | ⟨-, -, -, hread⟩
    · exact htidy.listed _ ip' i hread
    · exact htidy.listed _ ip' i hread

/-! ## The walk -/

variable {ds : List Dir}

section

variable (hs : Ready base t new s) (hip : validIp ip = true) (hds : ∀ d ∈ ds, base ++ [t] <+: d)

include hs hip hds

/-- Turns keep the tree tidy. -/
theorem Ready.walk (keep : String) :
    Ready base t new (ds.foldl (Backups.visit ip new keep) s) :=
  List.foldlRecOn (motive := Ready base t new) ds _ hs
    fun _ h d hd => h.visit hip (hds d hd) keep

/-- A directory that is not visited keeps its backups. -/
theorem Ready.walk_current (hf : isBackupOf ip f) (he : e ∉ ds) (hne : e ≠ new) :
    (ds.foldl (Backups.visit ip new keep) s).read (e, f) = s.read (e, f) := by
  by_cases hhist : ∃ x, e = historyOf x
  · obtain ⟨x, rfl⟩ := hhist
    rw [(hs.walk hip hds keep).tidy.read_eq_none hip hf, hs.tidy.read_eq_none hip hf]
  · rw [not_exists] at hhist
    induction ds generalizing s with
    | nil => rfl
    | cons d ds ih =>
      rw [List.mem_cons, not_or] at he
      have hout : ¬ (e = new ∧ f ≠ keep) := fun h => hne h.1
      rw [List.foldl_cons, ih (hs.visit hip (hds d List.mem_cons_self) keep)
        (List.forall_mem_cons.mp hds).2 he.2, read_visit_current hhist,
        if_pos hf, if_neg hout, if_neg he.1, if_neg hne, ite_self]

theorem Ready.walk_visited (hf : isBackupOf ip f) (he : e ∈ ds) (hne : e ≠ new) :
    (ds.foldl (Backups.visit ip new keep) s).read (e, f) = none := by
  by_cases hhist : ∃ x, e = historyOf x
  · obtain ⟨x, rfl⟩ := hhist
    exact (hs.walk hip hds keep).tidy.read_eq_none hip hf x
  · rw [not_exists] at hhist
    induction ds generalizing s with
    | nil => cases he
    | cons d ds ih =>
      have hnext := hs.visit hip (hds d List.mem_cons_self) keep
      have hrest : ∀ d' ∈ ds, base ++ [t] <+: d' :=
        (List.forall_mem_cons.mp hds).2
      rw [List.foldl_cons]
      by_cases hin : e ∈ ds
      · exact ih hnext hrest hin
      · obtain rfl := (List.mem_cons.mp he).resolve_right hin
        rw [hnext.walk_current hip hrest hf hin hne, read_visit_current hhist, if_pos hf,
          if_neg hne, if_pos rfl]

/-- What the folder of the next backup has after a walk over others. -/
theorem Ready.walk_some (hf : isBackupOf ip f) (hout : new ∉ ds)
    (h : (ds.foldl (Backups.visit ip new keep) s).read (new, f) = some c) :
    s.read (new, f) = some c ∨ ∃ d ∈ ds, s.read (d, f) = some c := by
  induction ds generalizing s with
  | nil => exact .inl h
  | cons d ds ih =>
    rw [List.mem_cons, not_or] at hout
    have hnext := hs.visit hip (hds d List.mem_cons_self) keep
    rcases ih hnext (List.forall_mem_cons.mp hds).2 hout.2 h with
      hread | ⟨d', hd', hread⟩
    · rw [read_visit_current hs.current, if_pos hf, if_neg (Ne.symm hout.1), if_neg hout.1,
        if_pos rfl] at hread
      rcases Option.or_eq_some_iff.mp hread with hread | ⟨-, hread⟩
      · exact .inr ⟨d, List.mem_cons_self .., hread⟩
      · exact .inl hread
    · by_cases hhist : ∃ x, d' = historyOf x
      · obtain ⟨x, rfl⟩ := hhist
        rw [hnext.tidy.read_eq_none hip hf] at hread
        cases hread
      · rw [not_exists] at hhist
        have hne : d' ≠ new := fun h => hout.2 (h ▸ hd')
        rw [read_visit_current hhist, if_pos hf, if_neg (Ne.symm hout.1), if_neg hne] at hread
        by_cases hdd : d' = d
        · rw [if_pos hdd] at hread
          cases hread
        · rw [if_neg hdd] at hread
          exact .inr ⟨d', List.mem_cons_of_mem _ hd', hread⟩

/-- The folder of the next backup has a name after a walk over others exactly where it had it or one
of them. -/
theorem Ready.walk_isSome (hf : isBackupOf ip f) (hout : new ∉ ds) :
    ((ds.foldl (Backups.visit ip new keep) s).read (new, f)).isSome ↔
      (s.read (new, f)).isSome ∨ ∃ d ∈ ds, (s.read (d, f)).isSome := by
  constructor
  · intro h
    obtain ⟨c, hc⟩ := Option.isSome_iff_exists.mp h
    rcases hs.walk_some hip hds hf hout hc with hread | ⟨d, hd, hread⟩
    · exact .inl (by rw [hread]; rfl)
    · exact .inr ⟨d, hd, by rw [hread]; rfl⟩
  · induction ds generalizing s with
    | nil => exact fun h => h.elim id fun ⟨_, hd, _⟩ => nomatch hd
    | cons d ds ih =>
      rw [List.mem_cons, not_or] at hout
      have hnext := hs.visit hip (hds d List.mem_cons_self) keep
      have hrest : ∀ d' ∈ ds, base ++ [t] <+: d' :=
        (List.forall_mem_cons.mp hds).2
      have hread : (Backups.visit ip new keep s d).read (new, f) =
          (s.read (d, f)).or (s.read (new, f)) := by
        rw [read_visit_current hs.current, if_pos hf, if_neg (Ne.symm hout.1), if_neg hout.1,
          if_pos rfl]
      intro h
      refine ih hnext hrest hout.2 ?_
      rw [hread, Option.isSome_or, Bool.or_eq_true]
      rcases h with h | ⟨d', hd', h⟩
      · exact .inl (.inr h)
      · rcases List.mem_cons.mp hd' with rfl | hd'
        · exact .inl (.inl h)
        · by_cases hdd : d' = d
          · exact .inl (.inl (hdd ▸ h))
          · have hhist : ∀ x, d' ≠ historyOf x := by
              rintro x rfl
              rw [hs.tidy.read_eq_none hip hf] at h
              exact Bool.false_ne_true h
            have hne : d' ≠ new := fun h => hout.2 (h ▸ hd')
            refine .inr ⟨d', hd', ?_⟩
            rw [read_visit_current hhist, if_pos hf, if_neg (Ne.symm hout.1), if_neg hdd,
              if_neg hne]
            exact h

/-- A history folder beside a directory that was visited has nothing of the address any more. -/
theorem Ready.walk_historyOf (hf : isHistoryOf ip f) (he : e ∈ ds) (hne : e ≠ new) :
    (ds.foldl (Backups.visit ip new keep) s).read (historyOf e, f) = none := by
  have hkeep : ∀ (ds : List Dir) (s : BackupTree), Ready base t new s →
      (∀ d ∈ ds, base ++ [t] <+: d) → s.read (historyOf e, f) = none →
        (ds.foldl (Backups.visit ip new keep) s).read (historyOf e, f) = none := by
    intro ds
    induction ds with
    | nil => exact fun _ _ _ h => h
    | cons d ds ih =>
      intro s hs hds h
      refine ih _ (hs.visit hip (hds d List.mem_cons_self) keep)
        (List.forall_mem_cons.mp hds).2 ?_
      rw [hs.tidy.read_visit_historyOf hip hs.current, if_neg hne, h, ite_self, ite_self]
  induction ds generalizing s with
  | nil => cases he
  | cons d ds ih =>
    have hnext := hs.visit hip (hds d List.mem_cons_self) keep
    have hrest : ∀ d' ∈ ds, base ++ [t] <+: d' :=
      (List.forall_mem_cons.mp hds).2
    rw [List.foldl_cons]
    rcases List.mem_cons.mp he with rfl | he
    · refine hkeep ds _ hnext hrest ?_
      rw [hs.tidy.read_visit_historyOf hip hs.current, if_pos ⟨hf, hne⟩, if_pos rfl]
    · exact ih hnext hrest he

theorem Ready.walk_origin (hne : e ≠ new)
    (h : (ds.foldl (Backups.visit ip new keep) s).read (historyOf e, f) = some c) :
    s.read (historyOf e, f) = some c := by
  induction ds generalizing s with
  | nil => exact h
  | cons d ds ih =>
    have hnext := hs.visit hip (hds d List.mem_cons_self) keep
    have hread := ih hnext (List.forall_mem_cons.mp hds).2 h
    rcases hs.tidy.origin hip hs.current hread with ⟨hread, -⟩ | ⟨-, -, hen, -⟩
    · exact hread
    · exact absurd hen hne

/-- What is in the history of the address is still there after a walk, or in the folder of the next
backup. -/
theorem Ready.walk_holds (he : base ++ [t] <+: e) (h : s.read (historyOf e, f) = some c) :
    (ds.foldl (Backups.visit ip new keep) s).read (historyOf e, f) = some c ∨
      (ds.foldl (Backups.visit ip new keep) s).read (historyOf new, f) = some c := by
  induction ds generalizing s e with
  | nil => exact .inl h
  | cons d ds ih =>
    have hd := hds d List.mem_cons_self
    have hnext := hs.visit hip hd keep
    have hrest : ∀ d' ∈ ds, base ++ [t] <+: d' :=
      (List.forall_mem_cons.mp hds).2
    have hread := hs.tidy.read_visit_historyOf hip hs.current keep d
    rw [List.foldl_cons]
    by_cases hmoves : isHistoryOf ip f = true ∧ d ≠ new
    · by_cases hed : e = d
      · right
        refine (ih hnext hrest hs.inside ?_).elim id id
        rw [hread, if_pos hmoves, if_neg (Ne.symm hmoves.2), if_pos rfl, ← hed, h, Option.some_or]
      · refine ih hnext hrest he ?_
        rw [hread, if_pos hmoves, if_neg hed]
        by_cases hen : e = new
        · have hnone : s.read (historyOf d, f) = none := by
            rw [← Option.not_isSome_iff_eq_none]
            exact fun hsome => hed (hs.tidy.single t e d f he hd (by rw [h]; rfl) hsome)
          rw [if_pos hen, hnone, Option.none_or, ← hen, h]
        · rw [if_neg hen, h]
    · refine ih hnext hrest he ?_
      rw [hread, if_neg hmoves, h]

end

end SentinelNet.Backups
