import SentinelNet.Backups.Walk
import SentinelNet.Lib.Runs

/-!
# One current backup

A backup that is saved is to be the only one of its device, with the whole history beside it, and a
backup that cannot be written is to leave an earlier one.  The walk moves what it finds to the
folder of the backup before this is written, and takes away what it finds there: what comes from
folders that it sees later stays, and what was there is lost.

* `Tidy.step`: backups keep the tree tidy.
* `run_kept_iff`: backups are kept in a run exactly where it is orderly.
-/

namespace SentinelNet.Backups

open PyText FileTree Inventory StepRuns

/-! ## What is kept -/

section Statement

variable (base : Dir) (s : BackupTree) (c : Call)

/-- The folders of a backup have names of their own. -/
structure Call.IsPlain : Prop where
  tenant : Plain (tenantFolder c.device.group)
  vendor : c.device.vendor ≠ "" → Plain (vendorFolder c.device.vendor)

def Call.root : Dir := tenantDir base c.device.group

def Call.dir : Dir := groupBackupDir base c.device.group c.device.vendor

def Call.name : String := backupName c.sysName c.device.ip

def Call.order : List Dir := walked base (s.makedirs (c.dir base)) c.device.group c.scan

/-- The directories that the walk sees after the folder of the backup. -/
def Call.later : List Dir := ((c.order base s).dropWhile fun d => d ≠ c.dir base).tail

/-- There is one backup of the device in the folders of its tenant, the one that was written, and
every version that could be read beside one of these folders can be read in the present one. -/
structure OneCurrent (s' : BackupTree) : Prop where
  only : ∀ d f, c.root base <+: d → isBackupOf c.device.ip f = true → (s'.read (d, f)).isSome →
    d = c.dir base ∧ f = c.name
  written : s'.read (c.dir base, c.name) = some (.text c.config)
  history : ∀ d, c.root base <+: d → ∀ seenAt, readVersionIn s d c.device.ip seenAt ≠ "" →
    readVersion base s' c.device seenAt = readVersionIn s d c.device.ip seenAt

def StillThere (s' : BackupTree) : Prop :=
  (∃ d f, c.root base <+: d ∧ isBackupOf c.device.ip f = true ∧ (s.read (d, f)).isSome) →
    ∃ d f content, c.root base <+: d ∧ isBackupOf c.device.ip f = true ∧
      s'.read (d, f) = some content ∧ ∃ d₀ f₀, c.root base <+: d₀ ∧
        isBackupOf c.device.ip f₀ = true ∧ s.read (d₀, f₀) = some content

/-- A backup that is saved is the only one, and one that cannot be written leaves an earlier one. -/
def Kept : Prop :=
  let s' := (saveBackup base s c.device c.sysName c.config c.scan c.outcome).1
  match c.outcome with
  | .written => OneCurrent base s c s'
  | .notOpened => StillThere base s c s'
  | .broken _ => StillThere base s c s'

/-- Where the backup is written, the directories that the walk sees after its folder have backups of
the device under its present name only.  Where its file cannot be opened, the device has no
backup, or one under its present name, or one in a directory that the walk sees after the folder.
Where the file is emptied and then cannot be written, the device has no backup, or one under
another name in such a directory, or one that is just what was written until then. -/
def Orderly : Prop :=
  let some := ∃ d ∈ c.order base s, ∃ f ∈ s.listing d, isBackupOf c.device.ip f = true
  match c.outcome with
  | .written =>
    ∀ d ∈ c.later base s, ∀ f ∈ s.listing d, isBackupOf c.device.ip f = true → f = c.name
  | .notOpened => some →
    (∃ d ∈ c.order base s, c.name ∈ s.listing d) ∨
      ∃ d ∈ c.later base s, ∃ f ∈ s.listing d, isBackupOf c.device.ip f = true
  | .broken k => some →
    (∃ d ∈ c.later base s, ∃ f ∈ s.listing d, isBackupOf c.device.ip f = true ∧ f ≠ c.name) ∨
      ∃ d ∈ c.order base s, ∃ f, isBackupOf c.device.ip f = true ∧
        s.read (d, f) = .some (.text (String.ofList (c.config.toList.take k)))

end Statement

/-! ## The walk of a backup -/

variable {base : Dir} {s : BackupTree} {c : Call} {content : Content} {f : String} {d : Dir}

theorem Call.IsPlain.root_eq (h : c.IsPlain) :
    c.root base = base ++ [tenantFolder c.device.group] :=
  push_of_proper h.tenant.1 base

theorem Call.IsPlain.root_prefix (h : c.IsPlain) : c.root base <+: c.dir base := by
  unfold Call.root Call.dir groupBackupDir
  split
  · exact List.prefix_refl _
  · next hvendor =>
    rw [push_of_proper (h.vendor hvendor).1]
    exact List.prefix_append _ _

theorem Call.IsPlain.current (h : c.IsPlain) (x : Dir) : c.dir base ≠ historyOf x := by
  unfold Call.dir groupBackupDir tenantDir
  rw [push_of_proper h.tenant.1]
  split
  · exact h.tenant.ne_historyOf base x
  · next hvendor =>
    rw [push_of_proper (h.vendor hvendor).1]
    exact (h.vendor hvendor).ne_historyOf _ x

theorem Tidy.makedirs (hs : Tidy base s) (dir : Dir) : Tidy base (s.makedirs dir) where
  distinct := Tree.nodup_makedirs hs.distinct dir
  housed d f h := by
    rw [Tree.read_makedirs] at h
    exact (s.mem_dirs_makedirs).mpr (.inl (hs.housed d f h))
  closed d hd e he := by
    rw [Tree.mem_dirs_makedirs] at hd ⊢
    exact hd.imp (fun hd => hs.closed d hd e he) fun hd => he.trans hd
  archive d f h := by
    rw [Tree.read_makedirs] at h
    exact hs.archive d f h
  single t d e f hd he h h' := by
    rw [Tree.read_makedirs] at h h'
    exact hs.single t d e f hd he h h'
  listed d ip i h := by
    rw [Tree.read_makedirs] at h
    exact hs.listed d ip i h

theorem Call.IsPlain.ready (h : c.IsPlain) (hs : Tidy base s) :
    Ready base (tenantFolder c.device.group) (c.dir base) (s.makedirs (c.dir base)) where
  tidy := hs.makedirs _
  made := s.mem_dirs_makedirs.mpr (.inr (List.prefix_refl _))
  inside := by
    have hroot : c.root base = base ++ [tenantFolder c.device.group] := h.root_eq
    rw [← hroot]
    exact h.root_prefix
  current := h.current

theorem Call.mem_order : d ∈ c.order base s ↔
    (d ∈ s.dirs ∨ d <+: c.dir base) ∧ c.root base <+: d := by
  unfold Call.order walked
  rw [(c.scan.perm _).mem_iff, Tree.mem_below, Tree.mem_dirs_makedirs]
  rfl

theorem Call.IsPlain.prefix_of_mem (h : c.IsPlain) : ∀ d ∈ c.order base s,
    base ++ [tenantFolder c.device.group] <+: d := by
  intro d hd
  rw [← h.root_eq]
  exact (Call.mem_order.mp hd).2

theorem Tidy.mem_order (hs : Tidy base s) (hd : c.root base <+: d) (h : (s.read (d, f)).isSome) :
    d ∈ c.order base s :=
  Call.mem_order.mpr ⟨.inl (hs.housed d f h), hd⟩

theorem Call.IsPlain.exists_order (h : c.IsPlain) (hs : Tidy base s) :
    ∃ earlier, c.order base s = earlier ++ c.dir base :: c.later base s ∧
      c.dir base ∉ earlier ∧ c.dir base ∉ c.later base s ∧
        ∀ d ∈ c.later base s, d ∉ earlier := by
  have hnodup : (c.order base s).Nodup :=
    (c.scan.perm _).nodup_iff.mpr (Tree.nodup_below (Tree.nodup_makedirs hs.distinct _) _)
  have hdir : c.dir base ∈ c.order base s :=
    Call.mem_order.mpr ⟨.inr (List.prefix_refl _), h.root_prefix⟩
  obtain ⟨earlier, later, horder⟩ := List.append_of_mem hdir
  rw [horder, List.nodup_append, List.nodup_cons] at hnodup
  obtain ⟨-, ⟨hlater, -⟩, hdisjoint⟩ := hnodup
  have hearlier : c.dir base ∉ earlier := fun hin =>
    hdisjoint _ hin _ List.mem_cons_self rfl
  have hskip : ∀ d ∈ earlier, decide (d ≠ c.dir base) = true := fun d hd =>
    decide_eq_true fun h => hearlier (h ▸ hd)
  have hstop : ¬ decide (c.dir base ≠ c.dir base) = true := fun h => of_decide_eq_true h rfl
  have heq : c.later base s = later := by
    rw [Call.later, horder, List.dropWhile_append_of_pos hskip, List.dropWhile_cons, if_neg hstop,
      List.tail_cons]
  refine ⟨earlier, heq ▸ horder, hearlier, heq ▸ hlater, fun d hd hin => ?_⟩
  exact hdisjoint d hin d (List.mem_cons_of_mem _ (heq ▸ hd)) rfl

theorem Call.mem_order_of_later (h : c.IsPlain) (hs : Tidy base s) (hd : d ∈ c.later base s) :
    d ∈ c.order base s := by
  obtain ⟨earlier, horder, -⟩ := h.exists_order hs
  rw [horder]
  exact List.mem_append_right _ (List.mem_cons_of_mem _ hd)

def Call.after (base : Dir) (s : BackupTree) (c : Call) : BackupTree :=
  (c.order base s).foldl (visit c.device.ip (c.dir base) c.name) (s.makedirs (c.dir base))

theorem Call.IsPlain.ready_after (h : c.IsPlain) (hs : Tidy base s) :
    Ready base (tenantFolder c.device.group) (c.dir base) (c.after base s) :=
  (h.ready hs).walk c.device.valid h.prefix_of_mem _

theorem Call.IsPlain.after_eq_none (h : c.IsPlain) (hs : Tidy base s)
    (hf : isBackupOf c.device.ip f) (hd : c.root base <+: d) (hne : d ≠ c.dir base) :
    (c.after base s).read (d, f) = none := by
  by_cases hin : d ∈ c.order base s
  · exact (h.ready hs).walk_visited c.device.valid h.prefix_of_mem hf hin hne
  · unfold Call.after
    rw [(h.ready hs).walk_current c.device.valid h.prefix_of_mem hf hin hne, Tree.read_makedirs,
      ← Option.not_isSome_iff_eq_none]
    exact fun hsome => hin (hs.mem_order hd hsome)

/-- The walk over the directories before the folder of the backup, the tree `s'` after the turn of
this folder, and the walk over the rest. -/
structure Turns (base : Dir) (s : BackupTree) (c : Call) (earlier : List Dir) (s' : BackupTree) :
    Prop where
  order : c.order base s = earlier ++ c.dir base :: c.later base s
  notEarlier : c.dir base ∉ earlier
  notLater : c.dir base ∉ c.later base s
  ready : Ready base (tenantFolder c.device.group) (c.dir base) s'
  after : c.after base s = (c.later base s).foldl (visit c.device.ip (c.dir base) c.name) s'
  later : ∀ f, isBackupOf c.device.ip f = true → ∀ d ∈ c.later base s,
    s'.read (d, f) = s.read (d, f)
  folder : ∀ f, isBackupOf c.device.ip f = true → s'.read (c.dir base, f) =
    if f = c.name then
      (earlier.foldl (visit c.device.ip (c.dir base) c.name) (s.makedirs (c.dir base))).read
        (c.dir base, f)
    else none

variable {s' : BackupTree}

theorem Turns.prefix_earlier {earlier : List Dir} (h : Turns base s c earlier s') (hc : c.IsPlain) :
    ∀ d ∈ earlier, base ++ [tenantFolder c.device.group] <+: d := by
  intro d hd
  refine hc.prefix_of_mem (s := s) d ?_
  rw [h.order]
  exact List.mem_append_left _ hd

theorem Turns.prefix_later {earlier : List Dir} (h : Turns base s c earlier s') (hc : c.IsPlain) :
    ∀ d ∈ c.later base s, base ++ [tenantFolder c.device.group] <+: d := by
  intro d hd
  refine hc.prefix_of_mem (s := s) d ?_
  rw [h.order]
  exact List.mem_append_right _ (List.mem_cons_of_mem _ hd)

theorem Call.IsPlain.exists_turns (h : c.IsPlain) (hs : Tidy base s) :
    ∃ earlier s', Turns base s c earlier s' := by
  obtain ⟨earlier, horder, hearlier, hlater, hdisjoint⟩ := h.exists_order hs
  have hprefix : ∀ d ∈ earlier, base ++ [tenantFolder c.device.group] <+: d := by
    intro d hd
    refine h.prefix_of_mem (s := s) d ?_
    rw [horder]
    exact List.mem_append_left _ hd
  have hready := (h.ready hs).walk c.device.valid hprefix c.name
  have hnext := hready.visit c.device.valid (h.ready hs).inside c.name
  refine ⟨earlier, _, horder, hearlier, hlater, hnext, ?_, fun f hf d hd => ?_, fun f hf => ?_⟩
  · unfold Call.after
    rw [horder, List.foldl_append, List.foldl_cons]
  · have hne : d ≠ c.dir base := fun heq => hlater (heq ▸ hd)
    by_cases hhist : ∃ x, d = historyOf x
    · obtain ⟨x, rfl⟩ := hhist
      rw [hnext.tidy.read_eq_none c.device.valid hf, hs.read_eq_none c.device.valid hf]
    · rw [not_exists] at hhist
      have hout : ¬ (d = c.dir base ∧ f ≠ c.name) := fun h => hne h.1
      rw [read_visit_current hhist, if_pos hf, if_pos rfl, if_neg hout,
        (h.ready hs).walk_current c.device.valid hprefix hf (hdisjoint d hd) hne,
        Tree.read_makedirs]
  · rw [read_visit_current h.current, if_pos hf, if_pos rfl]
    by_cases hname : f = c.name
    · have hout : ¬ (c.dir base = c.dir base ∧ f ≠ c.name) := fun h => h.2 hname
      rw [if_neg hout, if_pos hname]
    · have hin : c.dir base = c.dir base ∧ f ≠ c.name := ⟨rfl, hname⟩
      rw [if_pos hin, if_neg hname]

theorem Call.IsPlain.exists_of_after (h : c.IsPlain) (hs : Tidy base s)
    (hf : isBackupOf c.device.ip f)
    (hread : (c.after base s).read (c.dir base, f) = some content) :
    ∃ d ∈ c.order base s, s.read (d, f) = some content := by
  obtain ⟨earlier, s', ht⟩ := h.exists_turns hs
  rw [ht.after] at hread
  rw [ht.order]
  rcases ht.ready.walk_some c.device.valid (ht.prefix_later h) hf ht.notLater hread
    with hread | ⟨d, hd, hread⟩
  · rw [ht.folder f hf] at hread
    by_cases hname : f = c.name
    · rw [if_pos hname] at hread
      rcases (h.ready hs).walk_some c.device.valid (ht.prefix_earlier h) hf ht.notEarlier hread
        with hread | ⟨d, hd, hread⟩
      · rw [Tree.read_makedirs] at hread
        exact ⟨c.dir base, List.mem_append_right _ List.mem_cons_self, hread⟩
      · rw [Tree.read_makedirs] at hread
        exact ⟨d, List.mem_append_left _ hd, hread⟩
    · rw [if_neg hname] at hread
      cases hread
  · rw [ht.later f hf d hd] at hread
    exact ⟨d, List.mem_append_right _ (List.mem_cons_of_mem _ hd), hread⟩

theorem isBackupOf_name (c : Call) : isBackupOf c.device.ip c.name = true :=
  (isBackupOf_backupName c.device.valid c.device.valid c.sysName).mpr rfl

theorem Call.IsPlain.after_name (h : c.IsPlain) (hs : Tidy base s) :
    ((c.after base s).read (c.dir base, c.name)).isSome ↔
      ∃ d ∈ c.order base s, (s.read (d, c.name)).isSome := by
  have hf := isBackupOf_name c
  constructor
  · intro hsome
    obtain ⟨content, hread⟩ := Option.isSome_iff_exists.mp hsome
    obtain ⟨d, hd, hread⟩ := h.exists_of_after hs hf hread
    exact ⟨d, hd, by rw [hread]; rfl⟩
  · obtain ⟨earlier, s', ht⟩ := h.exists_turns hs
    rw [ht.order]
    rintro ⟨d, hd, hsome⟩
    rw [ht.after, ht.ready.walk_isSome c.device.valid (ht.prefix_later h) hf ht.notLater,
      ht.folder _ hf, if_pos rfl,
      (h.ready hs).walk_isSome c.device.valid (ht.prefix_earlier h) hf ht.notEarlier]
    rcases List.mem_append.mp hd with hd | hd
    · exact .inl (.inr ⟨d, hd, by rwa [Tree.read_makedirs]⟩)
    · rcases List.mem_cons.mp hd with rfl | hd
      · exact .inl (.inl (by rwa [Tree.read_makedirs]))
      · exact .inr ⟨d, hd, by rwa [ht.later _ hf d hd]⟩

/-- A backup under another name is left where one was in a directory that the walk saw after the
folder of the backup. -/
theorem Call.IsPlain.after_other (h : c.IsPlain) (hs : Tidy base s)
    (hf : isBackupOf c.device.ip f) (hne : f ≠ c.name) :
    ((c.after base s).read (c.dir base, f)).isSome ↔
      ∃ d ∈ c.later base s, (s.read (d, f)).isSome := by
  obtain ⟨earlier, s', ht⟩ := h.exists_turns hs
  rw [ht.after, ht.ready.walk_isSome c.device.valid (ht.prefix_later h) hf ht.notLater,
    ht.folder f hf, if_neg hne, Option.isSome_none, or_iff_right Bool.false_ne_true]
  refine exists_congr fun d => and_congr_right fun hd => ?_
  rw [ht.later f hf d hd]

/-! ## What is kept of the backups -/

theorem saveBackup_written (base : Dir) (s : BackupTree) (c : Call) (h : c.outcome = .written) :
    saveBackup base s c.device c.sysName c.config c.scan c.outcome =
      ((c.after base s).write (c.dir base, c.name) (.text c.config), true) := by
  rw [h]
  rfl

theorem saveBackup_notOpened (base : Dir) (s : BackupTree) (c : Call) (h : c.outcome = .notOpened) :
    saveBackup base s c.device c.sysName c.config c.scan c.outcome = (c.after base s, false) := by
  rw [h]
  rfl

theorem saveBackup_broken (base : Dir) (s : BackupTree) (c : Call) {k : ℕ}
    (h : c.outcome = .broken k) :
    saveBackup base s c.device c.sysName c.config c.scan c.outcome =
      ((c.after base s).write (c.dir base, c.name)
        (.text (String.ofList (c.config.toList.take k))), false) := by
  rw [h]
  rfl

/-- What the walk leaves after a backup was written is the only one exactly where the directories
that it saw later had the present name only. -/
theorem Call.IsPlain.only_iff (h : c.IsPlain) (hs : Tidy base s) (content : Content) :
    (∀ d f, c.root base <+: d → isBackupOf c.device.ip f = true →
      (((c.after base s).write (c.dir base, c.name) content).read (d, f)).isSome →
        d = c.dir base ∧ f = c.name) ↔
      ∀ d ∈ c.later base s, ∀ f ∈ s.listing d, isBackupOf c.device.ip f = true → f = c.name := by
  constructor
  · intro honly d hd f hf hbackup
    by_contra hne
    have hsome : ((c.after base s).read (c.dir base, f)).isSome :=
      (h.after_other hs hbackup hne).mpr ⟨d, hd, (s.mem_listing).mp hf⟩
    refine hne (honly _ f h.root_prefix hbackup ?_).2
    rw [Tree.read_write, if_neg fun heq => hne (congrArg Prod.snd heq).symm]
    exact hsome
  · intro hlater d f hd hbackup hsome
    rw [Tree.read_write] at hsome
    by_cases hhere : (c.dir base, c.name) = (d, f)
    · exact ⟨(congrArg Prod.fst hhere).symm, (congrArg Prod.snd hhere).symm⟩
    · rw [if_neg hhere] at hsome
      by_cases hdir : d = c.dir base
      · subst hdir
        by_cases hname : f = c.name
        · exact ⟨rfl, hname⟩
        · obtain ⟨d', hd', hsome'⟩ := (h.after_other hs hbackup hname).mp hsome
          exact absurd (hlater d' hd' f ((s.mem_listing).mpr hsome') hbackup) hname
      · rw [h.after_eq_none hs hbackup hd hdir] at hsome
        exact absurd hsome Bool.false_ne_true

theorem Tidy.some_iff (hs : Tidy base s) :
    (∃ d f, c.root base <+: d ∧ isBackupOf c.device.ip f = true ∧ (s.read (d, f)).isSome) ↔
      ∃ d ∈ c.order base s, ∃ f ∈ s.listing d, isBackupOf c.device.ip f = true := by
  constructor
  · rintro ⟨d, f, hd, hf, hsome⟩
    exact ⟨d, hs.mem_order hd hsome, f, (s.mem_listing).mpr hsome, hf⟩
  · rintro ⟨d, hd, f, hin, hf⟩
    exact ⟨d, f, (Call.mem_order.mp hd).2, hf, (s.mem_listing).mp hin⟩

/-- A tree in which the backups of the device come from earlier ones, but for one that is as `new`,
still has an earlier one exactly where it has one from them, or `new` is as one of them. -/
theorem stillThere_iff (hs : Tidy base s) :
    StillThere base s c s' ↔
      ((∃ d ∈ c.order base s, ∃ f ∈ s.listing d, isBackupOf c.device.ip f = true) →
        ∃ d f content, c.root base <+: d ∧ isBackupOf c.device.ip f = true ∧
          s'.read (d, f) = some content ∧ ∃ d₀ ∈ c.order base s, ∃ f₀,
            isBackupOf c.device.ip f₀ = true ∧ s.read (d₀, f₀) = some content) := by
  unfold StillThere
  rw [hs.some_iff]
  refine imp_congr_right fun _ => ?_
  refine exists_congr fun d => exists_congr fun f => exists_congr fun content => ?_
  refine and_congr_right fun _ => and_congr_right fun _ => and_congr_right fun _ => ?_
  constructor
  · rintro ⟨d₀, f₀, hd₀, hf₀, hread⟩
    exact ⟨d₀, hs.mem_order hd₀ (by rw [hread]; rfl), f₀, hf₀, hread⟩
  · rintro ⟨d₀, hd₀, f₀, hf₀, hread⟩
    exact ⟨d₀, f₀, (Call.mem_order.mp hd₀).2, hf₀, hread⟩

/-- Where the file cannot be opened, an earlier backup is there exactly where there was one under
the present name, or in a directory that the walk saw later. -/
theorem Call.IsPlain.stillThere_notOpened (h : c.IsPlain) (hs : Tidy base s) :
    StillThere base s c (c.after base s) ↔
      ((∃ d ∈ c.order base s, ∃ f ∈ s.listing d, isBackupOf c.device.ip f = true) →
        (∃ d ∈ c.order base s, c.name ∈ s.listing d) ∨
          ∃ d ∈ c.later base s, ∃ f ∈ s.listing d, isBackupOf c.device.ip f = true) := by
  rw [stillThere_iff hs]
  refine imp_congr_right fun _ => ?_
  constructor
  · rintro ⟨d, f, content, hd, hf, hread, -⟩
    have hdir : d = c.dir base := by
      by_contra hne
      rw [h.after_eq_none hs hf hd hne] at hread
      cases hread
    subst hdir
    by_cases hname : f = c.name
    · subst hname
      obtain ⟨d', hd', hsome⟩ := (h.after_name hs).mp (by rw [hread]; rfl)
      exact .inl ⟨d', hd', (s.mem_listing).mpr hsome⟩
    · obtain ⟨d', hd', hsome⟩ := (h.after_other hs hf hname).mp (by rw [hread]; rfl)
      exact .inr ⟨d', hd', f, (s.mem_listing).mpr hsome, hf⟩
  · have hleft : ∀ f, isBackupOf c.device.ip f = true →
        ((c.after base s).read (c.dir base, f)).isSome →
          ∃ d f content, c.root base <+: d ∧ isBackupOf c.device.ip f = true ∧
            (c.after base s).read (d, f) = some content ∧ ∃ d₀ ∈ c.order base s, ∃ f₀,
              isBackupOf c.device.ip f₀ = true ∧ s.read (d₀, f₀) = some content := by
      intro f hf hsome
      obtain ⟨content, hread⟩ := Option.isSome_iff_exists.mp hsome
      obtain ⟨d₀, hd₀, hread₀⟩ := h.exists_of_after hs hf hread
      exact ⟨_, f, content, h.root_prefix, hf, hread, d₀, hd₀, f, hf, hread₀⟩
    rintro (⟨d, hd, hin⟩ | ⟨d, hd, f, hin, hf⟩)
    · exact hleft _ (isBackupOf_name c) ((h.after_name hs).mpr ⟨d, hd, (s.mem_listing).mp hin⟩)
    · refine hleft f hf ?_
      by_cases hname : f = c.name
      · subst hname
        exact (h.after_name hs).mpr
          ⟨d, Call.mem_order_of_later h hs hd, (s.mem_listing).mp hin⟩
      · exact (h.after_other hs hf hname).mpr ⟨d, hd, (s.mem_listing).mp hin⟩

/-- Where the file is emptied and then not written as a whole, an earlier backup is there exactly
where one under another name was in a directory that the walk saw later, or one was just what was
written. -/
theorem Call.IsPlain.stillThere_broken (h : c.IsPlain) (hs : Tidy base s) (content : Content) :
    StillThere base s c ((c.after base s).write (c.dir base, c.name) content) ↔
      ((∃ d ∈ c.order base s, ∃ f ∈ s.listing d, isBackupOf c.device.ip f = true) →
        (∃ d ∈ c.later base s, ∃ f ∈ s.listing d, isBackupOf c.device.ip f = true ∧ f ≠ c.name) ∨
          ∃ d ∈ c.order base s, ∃ f, isBackupOf c.device.ip f = true ∧
            s.read (d, f) = some content) := by
  rw [stillThere_iff hs]
  refine imp_congr_right fun _ => ?_
  constructor
  · rintro ⟨d, f, content', hd, hf, hread, d₀, hd₀, f₀, hf₀, hread₀⟩
    rw [Tree.read_write] at hread
    by_cases hhere : (c.dir base, c.name) = (d, f)
    · rw [if_pos hhere] at hread
      obtain rfl := Option.some.inj hread
      exact .inr ⟨d₀, hd₀, f₀, hf₀, hread₀⟩
    · rw [if_neg hhere] at hread
      have hdir : d = c.dir base := by
        by_contra hne
        rw [h.after_eq_none hs hf hd hne] at hread
        cases hread
      subst hdir
      have hname : f ≠ c.name := fun heq => hhere (heq ▸ rfl)
      obtain ⟨d', hd', hsome⟩ := (h.after_other hs hf hname).mp (by rw [hread]; rfl)
      exact .inl ⟨d', hd', f, (s.mem_listing).mpr hsome, hf, hname⟩
  · rintro (⟨d, hd, f, hin, hf, hname⟩ | ⟨d, hd, f, hf, hread⟩)
    · have hsome := (h.after_other hs hf hname).mpr ⟨d, hd, (s.mem_listing).mp hin⟩
      obtain ⟨content', hread⟩ := Option.isSome_iff_exists.mp hsome
      obtain ⟨d₀, hd₀, hread₀⟩ := h.exists_of_after hs hf hread
      refine ⟨_, f, content', h.root_prefix, hf, ?_, d₀, hd₀, f, hf, hread₀⟩
      rw [Tree.read_write, if_neg fun heq => hname (congrArg Prod.snd heq).symm]
      exact hread
    · refine ⟨_, _, content, h.root_prefix, isBackupOf_name c, ?_, d, hd, f, hf, hread⟩
      rw [Tree.read_write, if_pos rfl]

/-! ## What is kept of the history -/

theorem Tidy.beside_mem (hs : Tidy base s) (h : (s.read (historyOf d, f)).isSome) : d ∈ s.dirs :=
  hs.closed _ (hs.housed _ f h) d (List.prefix_append _ _)

theorem Call.IsPlain.after_historyOf (h : c.IsPlain) (hs : Tidy base s) (hd : c.root base <+: d)
    (hf : isHistoryOf c.device.ip f) (hread : s.read (historyOf d, f) = some content) :
    (c.after base s).read (historyOf (c.dir base), f) = some content := by
  have hready := h.ready hs
  have hprefix : base ++ [tenantFolder c.device.group] <+: d := by
    rw [← h.root_eq]
    exact hd
  have hstart : (s.makedirs (c.dir base)).read (historyOf d, f) = some content := by
    rw [Tree.read_makedirs]
    exact hread
  have hholds : (c.after base s).read (historyOf d, f) = some content ∨
      (c.after base s).read (historyOf (c.dir base), f) = some content :=
    hready.walk_holds c.device.valid h.prefix_of_mem hprefix hstart
  rcases hholds with hafter | hafter
  · by_cases hdir : d = c.dir base
    · rw [hdir] at hafter
      exact hafter
    · have hhoused : d ∈ s.dirs := hs.beside_mem (by rw [hread]; rfl)
      have hin : d ∈ c.order base s := Call.mem_order.mpr ⟨.inl hhoused, hd⟩
      unfold Call.after at hafter
      rw [hready.walk_historyOf c.device.valid h.prefix_of_mem hf hin hdir] at hafter
      cases hafter
  · exact hafter

theorem Call.IsPlain.gathered (h : c.IsPlain) (hs : Tidy base s) (hd : c.root base <+: d)
    (hf : isHistoryOf c.device.ip f)
    (hsome : ((c.after base s).read (historyOf d, f)).isSome) : d = c.dir base := by
  by_contra hne
  obtain ⟨content, hread⟩ := Option.isSome_iff_exists.mp hsome
  have hready := h.ready hs
  have hstart := hready.walk_origin c.device.valid h.prefix_of_mem hne hread
  rw [Tree.read_makedirs] at hstart
  have hhoused : d ∈ s.dirs := hs.beside_mem (by rw [hstart]; rfl)
  have hin : d ∈ c.order base s := Call.mem_order.mpr ⟨.inl hhoused, hd⟩
  unfold Call.after at hread
  rw [hready.walk_historyOf c.device.valid h.prefix_of_mem hf hin hne] at hread
  cases hread

variable {seenAt : String}

theorem readVersionIn_ne {ip : String} (h : readVersionIn s d ip seenAt ≠ "") :
    ∃ i v config, s.read (historyOf d, indexName ip) = some (.index i) ∧
      i.versions.find? (fun v => v.seenAt = seenAt) = some v ∧
      s.read (historyOf d, v.file) = some (.text config) ∧
      readVersionIn s d ip seenAt = config := by
  unfold readVersionIn loadIndex at h ⊢
  split at h
  · next v hfind =>
    split at h
    · next config hread =>
      split at hfind
      · next i hindex => exact ⟨i, v, config, hindex, hfind, hread, rfl⟩
      · cases hfind
    · exact absurd rfl h
  · exact absurd rfl h

theorem readVersionIn_eq {ip config : String} {i : Index} {v : Version}
    (hindex : s.read (historyOf d, indexName ip) = some (.index i))
    (hfind : i.versions.find? (fun v => v.seenAt = seenAt) = some v)
    (hread : s.read (historyOf d, v.file) = some (.text config)) :
    readVersionIn s d ip seenAt = config := by
  unfold readVersionIn loadIndex
  rw [hindex]
  dsimp only
  rw [hfind]
  dsimp only
  rw [hread]

theorem Call.IsPlain.history (h : c.IsPlain) (hs : Tidy base s) (content : Content)
    (hd : c.root base <+: d) (hne : readVersionIn s d c.device.ip seenAt ≠ "") :
    readVersion base ((c.after base s).write (c.dir base, c.name) content) c.device seenAt =
      readVersionIn s d c.device.ip seenAt := by
  obtain ⟨i, v, config, hindex, hfind, hread, heq⟩ := readVersionIn_ne hne
  have hfile := hs.listed d c.device.ip i hindex v (List.mem_of_find?_eq_some hfind)
  have hwrite : ∀ f, ((c.after base s).write (c.dir base, c.name) content).read
      (historyOf (c.dir base), f) = (c.after base s).read (historyOf (c.dir base), f) := fun f => by
    rw [Tree.read_write, if_neg fun heq => h.current _ (congrArg Prod.fst heq)]
  rw [heq]
  refine readVersionIn_eq (i := i) (v := v) ?_ hfind ?_
  · exact (hwrite _).trans (h.after_historyOf hs hd (isHistoryOf_indexName _) hindex)
  · exact (hwrite _).trans (h.after_historyOf hs hd hfile hread)

theorem kept_iff (hs : Tidy base s) (h : c.IsPlain) : Kept base s c ↔ Orderly base s c := by
  unfold Kept Orderly
  cases houtcome : c.outcome with
  | written =>
    rw [← houtcome, saveBackup_written base s c houtcome]
    rw [houtcome]
    dsimp only
    rw [← h.only_iff hs (.text c.config)]
    constructor
    · exact fun hone => hone.only
    · refine fun honly => ⟨honly, ?_, fun d hd seenAt hne => h.history hs _ hd hne⟩
      rw [Tree.read_write, if_pos rfl]
  | notOpened =>
    rw [← houtcome, saveBackup_notOpened base s c houtcome]
    rw [houtcome]
    exact h.stillThere_notOpened hs
  | broken k =>
    rw [← houtcome, saveBackup_broken base s c houtcome]
    rw [houtcome]
    exact h.stillThere_broken hs _

/-! ## Steps -/

theorem Tidy.remove (hs : Tidy base s) (p : Path) : Tidy base (s.remove p) := by
  have hread : ∀ q, ((s.remove p).read q).isSome → (s.read q).isSome := by
    intro q h
    rw [Tree.read_remove] at h
    split at h
    · exact absurd h Bool.false_ne_true
    · exact h
  refine ⟨hs.distinct, fun d f h => hs.housed d f (hread _ h), hs.closed,
    fun d f h => hs.archive d f (hread _ h),
    fun t d e f hd he h h' => hs.single t d e f hd he (hread _ h) (hread _ h'),
    fun d ip i h => ?_⟩
  rw [Tree.read_remove] at h
  split at h
  · cases h
  · exact hs.listed d ip i h

theorem Tidy.write_current (hs : Tidy base s) (hmade : d ∈ s.dirs) (hcurrent : ∀ x, d ≠ historyOf x)
    (f : String) (content : Content) : Tidy base (s.write (d, f) content) := by
  have hhist : ∀ e f', (s.write (d, f) content).read (historyOf e, f') =
      s.read (historyOf e, f') := fun e f' => by
    rw [Tree.read_write, if_neg fun h => hcurrent e (congrArg Prod.fst h)]
  refine ⟨hs.distinct, fun e f' h => ?_, hs.closed, fun e f' h => ?_,
    fun t e₁ e₂ f' h₁ h₂ hr₁ hr₂ => ?_, fun e ip i h => ?_⟩
  · rw [Tree.read_write] at h
    split at h
    · next heq =>
      obtain ⟨rfl, -⟩ := Prod.mk.inj heq
      exact hmade
    · exact hs.housed e f' h
  · rw [hhist] at h
    exact hs.archive e f' h
  · rw [hhist] at hr₁ hr₂
    exact hs.single t e₁ e₂ f' h₁ h₂ hr₁ hr₂
  · rw [hhist] at h
    exact hs.listed e ip i h

theorem Tidy.write_historyOf (hs : Tidy base s) (hmade : historyOf d ∈ s.dirs)
    (harchive : ∀ ip, validIp ip = true → isBackupOf ip f = false)
    (hgathered : ∀ t e, base ++ [t] <+: d → base ++ [t] <+: e →
      (s.read (historyOf e, f)).isSome → e = d)
    (hlisted : ∀ ip i, f = indexName ip → content = .index i →
      ∀ v ∈ i.versions, isHistoryOf ip v.file = true) :
    Tidy base (s.write (historyOf d, f) content) := by
  refine ⟨hs.distinct, fun e f' h => ?_, hs.closed, fun e f' h ip hip => ?_,
    fun t e₁ e₂ f' h₁ h₂ hr₁ hr₂ => ?_, fun e ip i h => ?_⟩
  · rw [Tree.read_write] at h
    split at h
    · next heq =>
      obtain ⟨rfl, -⟩ := Prod.mk.inj heq
      exact hmade
    · exact hs.housed e f' h
  · rw [Tree.read_write] at h
    split at h
    · next heq =>
      obtain ⟨-, rfl⟩ := Prod.mk.inj heq
      exact harchive ip hip
    · exact hs.archive e f' h ip hip
  · rw [Tree.read_write] at hr₁ hr₂
    by_cases heq₁ : (historyOf d, f) = (historyOf e₁, f')
    · obtain ⟨hd₁, hf₁⟩ := Prod.mk.inj heq₁
      have hd₁ := historyOf_inj.mp hd₁
      by_cases heq₂ : (historyOf d, f) = (historyOf e₂, f')
      · exact hd₁.symm.trans (historyOf_inj.mp (Prod.mk.inj heq₂).1)
      · rw [if_neg heq₂, ← hf₁] at hr₂
        exact hd₁.symm.trans (hgathered t e₂ (hd₁ ▸ h₁) h₂ hr₂).symm
    · rw [if_neg heq₁] at hr₁
      by_cases heq₂ : (historyOf d, f) = (historyOf e₂, f')
      · obtain ⟨hd₂, hf₂⟩ := Prod.mk.inj heq₂
        have hd₂ := historyOf_inj.mp hd₂
        rw [← hf₂] at hr₁
        exact (hgathered t e₁ (hd₂ ▸ h₂) h₁ hr₁).trans hd₂
      · rw [if_neg heq₂] at hr₂
        exact hs.single t e₁ e₂ f' h₁ h₂ hr₁ hr₂
  · rw [Tree.read_write] at h
    split at h
    · next heq =>
      exact hlisted ip i (congrArg Prod.snd heq) (Option.some.inj h)
    · exact hs.listed e ip i h

/-- The history of an address is in one folder of its tenant. -/
def Gathered (base : Dir) (ip : String) (dir : Dir) (s : BackupTree) : Prop :=
  ∀ t e f, base ++ [t] <+: dir → base ++ [t] <+: e → isHistoryOf ip f = true →
    (s.read (historyOf e, f)).isSome → e = dir

/-- The tree is tidy, and the history of an address is in one folder of its tenant. -/
structure Filed (base : Dir) (ip : String) (dir : Dir) (s : BackupTree) : Prop where
  tidy : Tidy base s
  made : historyOf dir ∈ s.dirs
  gathered : Gathered base ip dir s

variable {ip : String} {dir : Dir}

theorem Filed.write (h : Filed base ip dir s)
    (harchive : ∀ ip', validIp ip' = true → isBackupOf ip' f = false)
    (hf : isHistoryOf ip f)
    (hlisted : ∀ ip' i, f = indexName ip' → content = .index i →
      ∀ v ∈ i.versions, isHistoryOf ip' v.file = true) :
    Filed base ip dir (s.write (historyOf dir, f) content) := by
  refine ⟨h.tidy.write_historyOf h.made harchive
    (fun t e ht he hsome => h.gathered t e f ht he hf hsome) hlisted, h.made,
    fun t e f' ht he hf' hsome => ?_⟩
  rw [Tree.read_write] at hsome
  by_cases heq : (historyOf dir, f) = (historyOf e, f')
  · exact (historyOf_inj.mp (congrArg Prod.fst heq)).symm
  · rw [if_neg heq] at hsome
    exact h.gathered t e f' ht he hf' hsome

theorem Filed.remove (h : Filed base ip dir s) (p : Path) : Filed base ip dir (s.remove p) := by
  refine ⟨h.tidy.remove p, h.made, fun t e f ht he hf hsome => ?_⟩
  rw [Tree.read_remove] at hsome
  split at hsome
  · exact absurd hsome Bool.false_ne_true
  · exact h.gathered t e f ht he hf hsome

theorem Tidy.loadIndex_listed (hs : Tidy base s) (dir : Dir) (ip : String) :
    ∀ v ∈ (loadIndex s (historyOf dir) ip).versions, isHistoryOf ip v.file = true := by
  unfold loadIndex
  split
  · next i h => exact hs.listed dir ip i h
  · exact fun v hv => nomatch hv

theorem Filed.saveIndex (h : Filed base ip dir s) {i : Index}
    (hi : ∀ v ∈ i.versions, isHistoryOf ip v.file = true) :
    Filed base ip dir (saveIndex s (historyOf dir) ip i) := by
  refine h.write (fun ip' _ => not_isBackupOf_indexName ip' ip) (isHistoryOf_indexName ip) ?_
  intro ip' i' hname hcontent
  obtain rfl := indexName_inj hname
  obtain rfl := Content.index.inj hcontent
  exact hi

theorem Filed.prune (h : Filed base ip dir s) (keep : ℤ) :
    Filed base ip dir (prune s (historyOf dir) ip keep) := by
  unfold Backups.prune
  dsimp only
  split_ifs
  · exact h
  · exact h
  · exact h
  · refine Filed.saveIndex ?_ fun v hv => ?_
    · exact List.foldlRecOn (motive := Filed base ip dir) _ _ h fun _ h v _ => h.remove _
    · obtain ⟨v', hv', rfl⟩ := List.mem_map.mp hv
      have hin := (List.mem_filter.mp hv').1
      exact h.tidy.loadIndex_listed dir ip _ (List.fst_mem_of_mem_zipIdx hin)

variable {digest : String → String → String} {keep : ℤ}

theorem Tidy.recordVersion (hs : Tidy base s) {d : Device}
    (hgathered : Gathered base d.ip (groupBackupDir base d.group d.vendor) s) (config : String)
    (now : Stamp) : Tidy base (recordVersion base digest s d config now keep) := by
  have hmade : Filed base d.ip (groupBackupDir base d.group d.vendor)
      (s.makedirs (historyDir base d)) := by
    refine ⟨hs.makedirs _, s.mem_dirs_makedirs.mpr (.inr (List.prefix_refl _)),
      fun t e f ht he hf hsome => ?_⟩
    rw [Tree.read_makedirs] at hsome
    exact hgathered t e f ht he hf hsome
  have hlisted := hmade.tidy.loadIndex_listed (groupBackupDir base d.group d.vendor) d.ip
  unfold Backups.recordVersion
  dsimp only
  split_ifs
  · refine Filed.tidy (Filed.saveIndex hmade ?_)
    exact hlisted
  · refine (Filed.prune (Filed.saveIndex (Filed.write hmade ?_ ?_ ?_) ?_) keep).tidy
    · exact fun ip' hip' => not_isBackupOf_archiveName hip' _ _ _
    · exact isHistoryOf_archiveName _ _ _
    · exact fun _ _ _ hcontent => nomatch hcontent
    · intro v hv
      rcases List.mem_cons.mp hv with rfl | hv
      · exact isHistoryOf_archiveName _ _ _
      · exact hlisted v hv

/-- A backup, with what is archived of it, keeps the tree tidy. -/
theorem Tidy.step (hs : Tidy base s) (h : c.IsPlain) : Tidy base (step base digest keep s c) := by
  have hready := h.ready_after hs
  have hwritten : ∀ content, Tidy base ((c.after base s).write (c.dir base, c.name) content) :=
    fun content => hready.tidy.write_current hready.made h.current _ content
  unfold Backups.step
  dsimp only
  cases houtcome : c.outcome with
  | written =>
    rw [← houtcome, saveBackup_written base s c houtcome]
    cases harchived : c.archived with
    | none => exact hwritten _
    | some now =>
      refine Tidy.recordVersion (hwritten _) (fun t e f ht he hf hsome => ?_) c.config now
      obtain rfl := eq_of_append_prefixes (h.ready hs).inside ht
      rw [Tree.read_write, if_neg fun heq => h.current e (congrArg Prod.fst heq)] at hsome
      refine h.gathered hs ?_ hf hsome
      rw [h.root_eq]
      exact he
  | notOpened =>
    rw [← houtcome, saveBackup_notOpened base s c houtcome]
    exact hready.tidy
  | broken k =>
    rw [← houtcome, saveBackup_broken base s c houtcome]
    exact hwritten _

/-- In every run of backups with folders of their own, one backup of the device is kept at every
step exactly where every step is orderly. -/
theorem run_kept_iff (base : Dir) (digest : String → String → String) (keep : ℤ)
    (calls : List Call) (s : BackupTree) :
    Run (step base digest keep) (fun s c => c.IsPlain ∧ Kept base s c) Tree.empty calls s ↔
      Run (step base digest keep) (fun s c => c.IsPlain ∧ Orderly base s c) Tree.empty calls s :=
  ⟨fun h => h.mono (fun _ _ hs hc => hs.step hc.1)
      (fun _ _ hs hc => ⟨hc.1, (kept_iff hs hc.1).mp hc.2⟩) (tidy_empty base),
    fun h => h.mono (fun _ _ hs hc => hs.step hc.1)
      (fun _ _ hs hc => ⟨hc.1, (kept_iff hs hc.1).mpr hc.2⟩) (tidy_empty base)⟩

/-! ## Other tenants -/

variable {root new e : Dir} {d : Device}

theorem read_visit_outside {turn : Dir} {name : String} (hturn : root <+: turn)
    (hnew : root <+: new) (he : ¬ root <+: e) :
    (visit ip new name s turn).read (e, f) = s.read (e, f) := by
  have hhist : ∀ x, root <+: x → e ≠ historyOf x := by
    rintro x hx rfl
    exact he (hx.trans (List.prefix_append _ _))
  have hne : e ≠ turn := fun h => he (h ▸ hturn)
  have hnew' : e ≠ new := fun h => he (h ▸ hnew)
  unfold visit
  split
  · rw [Tree.read_discard, if_neg fun h => hne h.1]
  · next hdiff =>
    rw [read_moveHistory, if_neg (hhist turn hturn), if_neg (hhist new hnew), ite_self,
      Tree.read_transfer _ hdiff, if_neg hne, if_neg hnew', ite_self]

theorem read_saveBackup_outside (sysName config : String) (scan : Scan) (outcome : Outcome)
    (hdir : tenantDir base d.group <+: groupBackupDir base d.group d.vendor)
    (he : ¬ tenantDir base d.group <+: e) :
    (saveBackup base s d sysName config scan outcome).1.read (e, f) = s.read (e, f) := by
  have hwalk : (removeStaleBackups base (s.makedirs (groupBackupDir base d.group d.vendor)) d.ip
      (groupBackupDir base d.group d.vendor) (backupName sysName d.ip) d.group scan).read (e, f) =
        s.read (e, f) := by
    have hstart := s.read_makedirs (groupBackupDir base d.group d.vendor) (e, f)
    refine List.foldlRecOn (motive := fun s' : BackupTree => s'.read (e, f) = s.read (e, f)) _ _
      hstart fun s' hs' turn hturn => ?_
    unfold walked at hturn
    rw [(scan.perm _).mem_iff, Tree.mem_below] at hturn
    rw [read_visit_outside hturn.2 hdir he]
    exact hs'
  have hout : ∀ name, (groupBackupDir base d.group d.vendor, name) ≠ (e, f) := fun name h =>
    he ((Prod.mk.inj h).1 ▸ hdir)
  unfold saveBackup
  cases outcome with
  | written => exact (Tree.read_write _ _ _ _).trans ((if_neg (hout _)).trans hwalk)
  | notOpened => exact hwalk
  | broken k => exact (Tree.read_write _ _ _ _).trans ((if_neg (hout _)).trans hwalk)

theorem read_recordVersion_outside (config : String) (now : Stamp)
    (hdir : tenantDir base d.group <+: groupBackupDir base d.group d.vendor)
    (he : ¬ tenantDir base d.group <+: e) :
    (recordVersion base digest s d config now keep).read (e, f) = s.read (e, f) := by
  have hout : ∀ name, (historyDir base d, name) ≠ (e, f) := fun name h =>
    he ((Prod.mk.inj h).1 ▸ hdir.trans (List.prefix_append _ _))
  have hsave : ∀ (s' : BackupTree) (i : Index),
      (saveIndex s' (historyDir base d) d.ip i).read (e, f) = s'.read (e, f) := fun s' i => by
    rw [saveIndex, Tree.read_write, if_neg (hout _)]
  have hprune : ∀ s' : BackupTree,
      (prune s' (historyDir base d) d.ip keep).read (e, f) = s'.read (e, f) := by
    intro s'
    unfold prune
    dsimp only
    split_ifs
    · rfl
    · rfl
    · rfl
    · rw [hsave]
      refine List.foldlRecOn (motive := fun t : BackupTree => t.read (e, f) = s'.read (e, f)) _ _
        rfl fun t ht v _ => ?_
      rw [Tree.read_remove, if_neg (hout _)]
      exact ht
  unfold recordVersion
  dsimp only
  split_ifs
  · rw [hsave, Tree.read_makedirs]
  · rw [hprune, hsave, Tree.read_write, if_neg (hout _), Tree.read_makedirs]

/-! ## Two backups, and none -/

/-- A backup of a device of a tenant, where the directories come in the order in which they were
made. -/
def backupOf (ip vendor sysName : String) (valid : validIp ip = true) (outcome : Outcome) :
    Call where
  device := ⟨ip, "acme", vendor, "", valid⟩
  sysName := sysName
  config := sysName
  scan := ⟨id, List.Perm.refl⟩
  outcome := outcome
  archived := none

def twoSwitches : BackupTree :=
  [backupOf "10.0.0.2" "aruba" "access" (by decide) .written,
    backupOf "10.0.0.1" "cisco" "sw1" (by decide) .written].foldl
      (step ["backup-config"] (fun _ config => config) 0) Tree.empty

theorem isPlain_backupOf {ip vendor sysName : String} {valid : validIp ip = true}
    {outcome : Outcome} (h : Plain (vendorFolder vendor)) :
    (backupOf ip vendor sysName valid outcome).IsPlain where
  tenant := show Plain (tenantFolder "acme") by decide
  vendor _ := h

theorem tidy_twoSwitches : Tidy ["backup-config"] twoSwitches := by
  rw [twoSwitches, List.foldl_cons, List.foldl_cons, List.foldl_nil]
  exact ((tidy_empty _).step (isPlain_backupOf (by decide))).step
    (isPlain_backupOf (by decide))

/-- A switch that was replaced by one of the other vendor, with another name, has two backups, as
the walk comes to the old folder after the new one; and a switch that was renamed has none, where
the file of the new name cannot be opened. -/
theorem two_or_none :
    ¬ Kept ["backup-config"] twoSwitches
        (backupOf "10.0.0.1" "aruba" "core" (by decide) .written) ∧
      ¬ Kept ["backup-config"] twoSwitches
        (backupOf "10.0.0.1" "cisco" "core" (by decide) .notOpened) := by
  constructor
  · rw [kept_iff tidy_twoSwitches (isPlain_backupOf (by decide))]
    intro h
    have hname := h ["backup-config", "acme", "cisco"] (by decide) "sw1-10.0.0.1.txt"
      (by decide) (by decide)
    exact absurd hname (by decide)
  · rw [kept_iff tidy_twoSwitches (isPlain_backupOf (by decide))]
    intro h
    rcases h ⟨["backup-config", "acme", "cisco"], by decide, "sw1-10.0.0.1.txt",
      by decide, by decide⟩ with hname | hlater
    · exact absurd hname (by decide)
    · exact absurd hlater (by decide)

end SentinelNet.Backups
