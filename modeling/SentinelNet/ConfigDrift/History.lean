import SentinelNet.Lib.Assoc
import SentinelNet.Lib.Runs

/-!
# The history of a configuration

`services/config_drift/history.py` keeps every version of the configuration of a device in a file of
its own, and an index of the versions.  `record_version` writes the file before the index, so that
a failure between the two leaves a file that no version has.  `prune` goes the other way about: it
deletes the files of the versions it drops, and then writes the index.  A failure between the two
leaves versions without their files.

* `archive`, `prune`, `pin`: the operations, with what becomes of their writes.
* `run_faithful_iff`: when every operation of a run is faithful.
-/

namespace SentinelNet.ConfigDrift

open Assoc StepRuns

/-! ## The folder and the index -/

structure Version where
  hash : String
  seenAt : String
  size : ℕ
  file : String
  pinned : Bool
  deriving DecidableEq

structure Index where
  device : String
  versions : List Version
  lastSeenAt : String

/-- The folder `.history`, as far as a device is concerned; without an index that can be read there
are no versions. -/
structure Archive where
  files : List (String × String)
  index : Option Index

/-- Nothing was recorded yet. -/
def Archive.empty : Archive := ⟨[], none⟩

/-- What becomes of the index when it is written: it is there, it is as before, or it is cut. -/
inductive Outcome where
  | written
  | missing
  | cut
  deriving DecidableEq

def Archive.loadIndex (a : Archive) (ip : String) : Index := a.index.getD ⟨ip, [], ""⟩

def Archive.versions (a : Archive) : List Version := (a.index.map Index.versions).getD []

def Archive.saveIndex (a : Archive) (index : Index) : Outcome → Archive
  | .written => { a with index := some index }
  | .missing => a
  | .cut => { a with index := none }

/-! ## Operations -/

/-- A pruning: the setting, the files that it gets to delete, and what becomes of the index. -/
structure Pruning where
  keep : ℤ
  removed : String → Bool
  saved : Outcome

/-- A configuration that was collected: the name of the device, the text, the time, what is in the
file when its write ends, what becomes of the index, and the pruning that follows. -/
structure Collected where
  name : String
  text : String
  stamp : String
  content : Option String
  saved : Outcome
  pruning : Pruning

/-- An operation on the history. -/
inductive Action where
  | record (c : Collected)
  | prune (p : Pruning)
  | pin (seenAt : String) (pinned : Bool) (saved : Outcome)

section Operations

variable (digest : String → String) (ip : String)

def fileName (name stamp : String) : String := name ++ "-" ++ ip ++ "." ++ stamp ++ ".txt"

def Collected.version (c : Collected) : Version where
  hash := digest c.text
  seenAt := c.stamp
  size := c.text.length
  file := fileName ip c.name c.stamp
  pinned := false

/-- The configuration is the newest version. -/
def isNewest (a : Archive) (c : Collected) : Bool :=
  a.versions.head?.map Version.hash = some (digest c.text)

/-- The folder when the write of a file ends. -/
def Archive.writeFile (a : Archive) (file : String) : Option String → Archive
  | none => a
  | some content => { a with files := put a.files file content }

/-- The index with the time of a configuration. -/
def Archive.seen (a : Archive) (c : Collected) : Index :=
  { a.loadIndex ip with device := ip, lastSeenAt := c.stamp }

/-- `record_version` up to its pruning, and whether it gets there. -/
def Archive.archive (a : Archive) (c : Collected) : Archive × Bool :=
  if isNewest digest a c then (a.saveIndex (a.seen ip c) c.saved, false)
  else
    let a' := a.writeFile (fileName ip c.name c.stamp) c.content
    if c.content ≠ some c.text then (a', false)
    else
      (a'.saveIndex { a.seen ip c with versions := c.version digest ip :: a.versions } c.saved,
        c.saved = .written)

/-- The versions that a pruning drops. -/
def toPrune (keep : ℕ) (versions : List Version) : List Version :=
  (versions.drop keep).filter fun v => !v.pinned

def toKeep (keep : ℕ) (versions : List Version) : List Version :=
  versions.take keep ++ (versions.drop keep).filter fun v => v.pinned

/-- The folder without the files of some versions, as far as they are deleted. -/
def deleteFiles (removed : String → Bool) (files : List (String × String)) (vs : List Version) :
    List (String × String) :=
  vs.foldl (fun files v => if v.file ≠ "" ∧ removed v.file then erase files v.file else files) files

def Archive.prune (a : Archive) (p : Pruning) : Archive :=
  if p.keep ≤ 0 then a
  else if toPrune p.keep.toNat a.versions = [] then a
  else
    { a with files := deleteFiles p.removed a.files (toPrune p.keep.toNat a.versions) }.saveIndex
      { a.loadIndex ip with versions := toKeep p.keep.toNat a.versions } p.saved

def Archive.recordVersion (a : Archive) (c : Collected) : Archive :=
  let (a', archived) := a.archive digest ip c
  if archived then a'.prune ip c.pruning else a'

/-- The version of a time is pinned or not. -/
def Archive.pin (a : Archive) (seenAt : String) (pinned : Bool) (saved : Outcome) : Archive :=
  a.saveIndex
    { a.loadIndex ip with
      versions := a.versions.map fun v => if v.seenAt = seenAt then { v with pinned := pinned } else v }
    saved

/-- The history after an operation. -/
def Archive.step (a : Archive) : Action → Archive
  | .record c => a.recordVersion digest ip c
  | .prune p => a.prune ip p
  | .pin seenAt pinned saved => a.pin ip seenAt pinned saved

/-! ## What an operation should leave -/

/-- Every version has its file, with the recorded digest. -/
def Trusted (a : Archive) : Prop :=
  ∀ v ∈ a.versions, ∃ text, find a.files v.file = some text ∧ digest text = v.hash

/-- The pruning of an operation, with the history that it starts from. -/
def pruningOf (a : Archive) : Action → Option (Archive × Pruning)
  | .record c =>
    if (a.archive digest ip c).2 then some ((a.archive digest ip c).1, c.pruning) else none
  | .prune p => some (a, p)
  | .pin _ _ _ => none

/-- What an operation should leave of the versions: every version has its file, a configuration that
is the newest version adds nothing, and a pruning keeps the newest version and the pinned ones and
drops only versions beyond the number that it keeps. -/
structure Faithful (a : Archive) (act : Action) : Prop where
  trusted : Trusted digest (a.step digest ip act)
  unchanged : ∀ c, act = .record c → isNewest digest a c = true →
    (a.step digest ip act).files = a.files ∧ ∀ v ∈ (a.step digest ip act).versions, v ∈ a.versions
  newest : ∀ a' p, pruningOf digest ip a act = some (a', p) → ∀ v, a'.versions.head? = some v →
    (a.step digest ip act).versions.head? = some v
  pinned : ∀ a' p, pruningOf digest ip a act = some (a', p) → ∀ v ∈ a'.versions, v.pinned = true →
    v ∈ (a.step digest ip act).versions
  oldest : ∀ a' p, pruningOf digest ip a act = some (a', p) → ∀ v ∈ a'.versions,
    v ∉ (a.step digest ip act).versions →
      0 < p.keep ∧ v.pinned = false ∧ v ∈ a'.versions.drop p.keep.toNat

/-- No version is recorded under the name of another one's file. -/
def FreshName (a : Archive) : Action → Prop
  | .record c => isNewest digest a c = true ∨ ∀ v ∈ a.versions, v.file ≠ fileName ip c.name c.stamp
  | _ => True

/-- A pruning that drops a version writes its index, or leaves it as it was and has deleted none of
the files. -/
def Pruning.Completes (a : Archive) (p : Pruning) : Prop :=
  p.keep ≤ 0 ∨ toPrune p.keep.toNat a.versions = [] ∨ p.saved = .written ∨
    (p.saved = .missing ∧ ∀ v ∈ toPrune p.keep.toNat a.versions, p.removed v.file = false)

/-- The pruning of an operation, if there is one, completes. -/
def PrunesWhole (a : Archive) (act : Action) : Prop :=
  ∀ a' p, pruningOf digest ip a act = some (a', p) → p.Completes a'

end Operations

/-! ## The writes -/

section Writes

variable {digest : String → String} {ip : String} {a : Archive}

theorem versions_saveIndex (a : Archive) (index : Index) (o : Outcome) :
    (a.saveIndex index o).versions =
      match o with
      | .written => index.versions
      | .missing => a.versions
      | .cut => [] := by
  cases o <;> rfl

theorem files_saveIndex (a : Archive) (index : Index) (o : Outcome) :
    (a.saveIndex index o).files = a.files := by
  cases o <;> rfl

theorem find_deleteFiles (removed : String → Bool) (files : List (String × String))
    (vs : List Version) (f : String) :
    find (deleteFiles removed files vs) f =
      if ∃ v ∈ vs, v.file = f ∧ f ≠ "" ∧ removed f = true then none else find files f := by
  induction vs generalizing files with
  | nil => simp [deleteFiles]
  | cons v vs ih =>
    rw [deleteFiles, List.foldl_cons]
    refine (ih _).trans ?_
    by_cases hvs : ∃ w ∈ vs, w.file = f ∧ f ≠ "" ∧ removed f = true
    · obtain ⟨w, hw, hfile⟩ := hvs
      rw [if_pos ⟨w, hw, hfile⟩, if_pos ⟨w, List.mem_cons_of_mem v hw, hfile⟩]
    · rw [if_neg hvs]
      by_cases hv : v.file = f ∧ f ≠ "" ∧ removed f = true
      · obtain ⟨rfl, hremoved⟩ := hv
        rw [if_pos hremoved, if_pos ⟨v, List.mem_cons_self, rfl, hremoved⟩, find_erase, if_pos rfl]
      · have hnone : ¬ ∃ w ∈ v :: vs, w.file = f ∧ f ≠ "" ∧ removed f = true := by
          rintro ⟨w, hw, hfile⟩
          rcases List.mem_cons.mp hw with rfl | hw
          · exact hv hfile
          · exact hvs ⟨w, hw, hfile⟩
        rw [if_neg hnone]
        split
        · next hremoved =>
          rw [find_erase, if_neg]
          rintro rfl
          exact hv ⟨rfl, hremoved⟩
        · rfl

variable {keep : ℕ} {versions : List Version} {v : Version}

theorem mem_toPrune : v ∈ toPrune keep versions ↔ v ∈ versions.drop keep ∧ v.pinned = false := by
  simp [toPrune]

theorem mem_toKeep :
    v ∈ toKeep keep versions ↔ v ∈ versions.take keep ∨ v ∈ versions.drop keep ∧ v.pinned = true := by
  simp [toKeep]

theorem toKeep_sublist (keep : ℕ) (versions : List Version) :
    (toKeep keep versions).Sublist versions := by
  have h := (List.Sublist.refl (versions.take keep)).append
    (@List.filter_sublist _ (fun v : Version => v.pinned) (versions.drop keep))
  rwa [List.take_append_drop] at h

theorem mem_toKeep_or_toPrune
    (h : v ∈ versions) : v ∈ toKeep keep versions ∨ v ∈ toPrune keep versions := by
  rw [← List.take_append_drop keep versions, List.mem_append] at h
  rw [mem_toKeep, mem_toPrune]
  rcases h with h | h
  · exact Or.inl (Or.inl h)
  · cases hpinned : v.pinned with
    | true => exact Or.inl (Or.inr ⟨h, rfl⟩)
    | false => exact Or.inr ⟨h, rfl⟩

theorem file_ne_of_toKeep
    (h : (versions.map Version.file).Nodup) {w : Version} (hv : v ∈ toKeep keep versions)
    (hw : w ∈ toPrune keep versions) : w.file ≠ v.file := by
  intro hfile
  have hmem : v ∈ versions := (toKeep_sublist keep versions).subset hv
  obtain ⟨hdrop, hpinned⟩ := mem_toPrune.mp hw
  obtain rfl := List.inj_on_of_nodup_map h (List.mem_of_mem_drop hdrop) hmem hfile
  rcases mem_toKeep.mp hv with htake | ⟨-, hpinned'⟩
  · rw [← List.take_append_drop keep versions] at h
    exact (List.nodup_append'.mp (List.Nodup.of_map _ h)).2.2 htake hdrop
  · rw [hpinned] at hpinned'
    exact Bool.false_ne_true hpinned'

/-! ## Invariants -/

/-- Every version has its file, and no two have the same. -/
structure Sound (digest : String → String) (a : Archive) : Prop where
  trusted : Trusted digest a
  files : (a.versions.map Version.file).Nodup
  named : ∀ v ∈ a.versions, v.file ≠ ""

theorem sound_empty : Sound digest Archive.empty where
  trusted _ hv := nomatch hv
  files := List.nodup_nil
  named _ hv := nomatch hv

theorem Sound.saveIndex {index : Index} (o : Outcome) (h : Sound digest a)
    (hnew : Sound digest { a with index := some index }) : Sound digest (a.saveIndex index o) := by
  cases o with
  | written => exact hnew
  | missing => exact h
  | cut => exact ⟨fun v hv => absurd hv List.not_mem_nil, List.nodup_nil,
      fun v hv => absurd hv List.not_mem_nil⟩

theorem Sound.same {index : Index} (h : Sound digest a) (hindex : index.versions = a.versions) :
    Sound digest { a with index := some index } where
  trusted v hv := h.trusted v (hindex ▸ hv)
  files := by
    show (index.versions.map Version.file).Nodup
    rw [hindex]
    exact h.files
  named v hv := h.named v (hindex ▸ hv)

theorem versions_loadIndex (a : Archive) (ip : String) :
    (a.loadIndex ip).versions = a.versions := by
  rw [Archive.loadIndex, Archive.versions]
  cases a.index <;> rfl

theorem fileName_ne (ip name stamp : String) : fileName ip name stamp ≠ "" := by
  intro h
  have hlength := congrArg String.length h
  rw [fileName] at hlength
  simp only [String.length_append] at hlength
  have htxt : ".txt".length = 4 := rfl
  have hempty : "".length = 0 := rfl
  omega

theorem Sound.writeFile {file : String} (content : Option String) (h : Sound digest a)
    (hfresh : ∀ v ∈ a.versions, v.file ≠ file) : Sound digest (a.writeFile file content) := by
  cases content with
  | none => exact h
  | some content =>
    refine ⟨fun v hv => ?_, h.files, h.named⟩
    obtain ⟨text, hfind, hhash⟩ := h.trusted v hv
    refine ⟨text, ?_, hhash⟩
    rw [← hfind]
    exact (find_put a.files file v.file content).trans (if_neg (hfresh v hv).symm)

/-- A configuration leaves a sound history, also if a write fails. -/
theorem Sound.archive {c : Collected} (h : Sound digest a)
    (hfresh : FreshName digest ip a (.record c)) : Sound digest (a.archive digest ip c).1 := by
  rw [Archive.archive]
  split
  · exact h.saveIndex c.saved (h.same (versions_loadIndex a ip))
  · next hnewest =>
    have hfresh := hfresh.resolve_left hnewest
    have hwritten := h.writeFile c.content hfresh
    split
    · exact hwritten
    · next hcontent =>
      refine hwritten.saveIndex c.saved ⟨fun v hv => ?_, ?_, fun v hv => ?_⟩
      · rcases List.mem_cons.mp hv with rfl | hv
        · refine ⟨c.text, ?_, rfl⟩
          rw [not_not.mp hcontent]
          exact (find_put a.files _ _ c.text).trans (if_pos rfl)
        · exact hwritten.trusted v (by rw [not_not.mp hcontent]; exact hv)
      · refine List.nodup_cons.mpr ⟨fun hmem => ?_, h.files⟩
        obtain ⟨v, hv, hfile⟩ := List.mem_map.mp hmem
        exact hfresh v hv hfile
      · rcases List.mem_cons.mp hv with rfl | hv
        · exact fileName_ne ip c.name c.stamp
        · exact h.named v hv

/-- A pin changes neither files nor names. -/
theorem Sound.pin {seenAt : String} {pinned : Bool} {o : Outcome} (h : Sound digest a) :
    Sound digest (a.pin ip seenAt pinned o) := by
  have hfile : ∀ v : Version,
      (if v.seenAt = seenAt then { v with pinned := pinned } else v).file = v.file := by
    intro v
    split <;> rfl
  have hhash : ∀ v : Version,
      (if v.seenAt = seenAt then { v with pinned := pinned } else v).hash = v.hash := by
    intro v
    split <;> rfl
  refine h.saveIndex o ⟨fun v hv => ?_, ?_, fun v hv => ?_⟩
  · obtain ⟨w, hw, rfl⟩ := List.mem_map.mp hv
    rw [hfile, hhash]
    exact h.trusted w hw
  · show ((a.versions.map _).map Version.file).Nodup
    have hsame : (a.versions.map fun v =>
        if v.seenAt = seenAt then { v with pinned := pinned } else v).map Version.file =
          a.versions.map Version.file := by
      rw [List.map_map]
      exact List.map_congr_left fun v _ => hfile v
    exact hsame ▸ h.files
  · obtain ⟨w, hw, rfl⟩ := List.mem_map.mp hv
    rw [hfile]
    exact h.named w hw

/-! ## Prunings -/

variable {p : Pruning}

theorem versions_prune (hp : p.Completes a) :
    (a.prune ip p).versions = a.versions ∨
      0 < p.keep ∧ (a.prune ip p).versions = toKeep p.keep.toNat a.versions := by
  rw [Archive.prune]
  split
  · exact Or.inl rfl
  · next hkeep =>
    split
    · exact Or.inl rfl
    · next hdrop =>
      rcases hp with h | h | h | ⟨h, -⟩
      · exact absurd h hkeep
      · exact absurd h hdrop
      · rw [h]
        exact Or.inr ⟨Int.not_le.mp hkeep, rfl⟩
      · rw [h]
        exact Or.inl rfl

/-- A pruning that completes leaves a sound history. -/
theorem Sound.prune (h : Sound digest a) (hp : p.Completes a) : Sound digest (a.prune ip p) := by
  rw [Archive.prune]
  split
  · exact h
  · next hkeep =>
    split
    · exact h
    · next hdrop =>
      rcases hp with hp | hp | hp | ⟨hp, hremoved⟩
      · exact absurd hp hkeep
      · exact absurd hp hdrop
      · rw [hp]
        refine ⟨fun v hv => ?_, ?_, fun v hv => ?_⟩
        · obtain ⟨text, hfind, hhash⟩ := h.trusted v ((toKeep_sublist _ _).subset hv)
          refine ⟨text, ?_, hhash⟩
          rw [← hfind]
          refine (find_deleteFiles _ _ _ _).trans (if_neg ?_)
          rintro ⟨w, hw, hfile, -⟩
          exact file_ne_of_toKeep h.files hv hw hfile
        · exact h.files.sublist ((toKeep_sublist _ _).map Version.file)
        · exact h.named v ((toKeep_sublist _ _).subset hv)
      · rw [hp]
        refine ⟨fun v hv => ?_, h.files, h.named⟩
        obtain ⟨text, hfind, hhash⟩ := h.trusted v hv
        refine ⟨text, ?_, hhash⟩
        rw [← hfind]
        refine (find_deleteFiles _ _ _ _).trans (if_neg ?_)
        rintro ⟨w, hw, hfile, -, hgone⟩
        rw [← hfile, hremoved w hw] at hgone
        exact Bool.false_ne_true hgone

theorem not_completes (h : Sound digest a) (hp : ¬ p.Completes a) :
    (∃ v, a.versions.head? = some v ∧ (a.prune ip p).versions = []) ∨
      ¬ Trusted digest (a.prune ip p) := by
  rw [Pruning.Completes, not_or, not_or, not_or, not_and] at hp
  obtain ⟨hkeep, hdrop, hwritten, hmissing⟩ := hp
  rw [Archive.prune, if_neg hkeep, if_neg hdrop]
  obtain ⟨w, hw⟩ := List.exists_mem_of_ne_nil _ hdrop
  have hmem : w ∈ a.versions := List.mem_of_mem_drop (mem_toPrune.mp hw).1
  cases hsaved : p.saved with
  | written => exact absurd hsaved hwritten
  | cut =>
    left
    cases hversions : a.versions with
    | nil => exact absurd (hversions ▸ hmem) List.not_mem_nil
    | cons v vs => exact ⟨v, rfl, rfl⟩
  | missing =>
    right
    have hsome := hmissing hsaved
    simp only [not_forall, Bool.not_eq_false] at hsome
    obtain ⟨v, hv, hremoved⟩ := hsome
    intro htrusted
    have hmem : v ∈ a.versions := List.mem_of_mem_drop (mem_toPrune.mp hv).1
    obtain ⟨text, hfind, -⟩ := htrusted v hmem
    have hnone := (find_deleteFiles p.removed a.files (toPrune p.keep.toNat a.versions) v.file).trans
      (if_pos ⟨v, hv, rfl, h.named v hmem, hremoved⟩)
    exact Option.some_ne_none text (hfind.symm.trans hnone)

/-! ## Runs -/

variable {act : Action}

theorem step_of_pruningOf {a' : Archive}
    (h : pruningOf digest ip a act = some (a', p)) : a.step digest ip act = a'.prune ip p := by
  cases act with
  | record c =>
    rw [pruningOf] at h
    split at h
    · next harchived =>
      obtain ⟨rfl, rfl⟩ := Prod.mk.inj (Option.some.inj h)
      show a.recordVersion digest ip c = _
      rw [Archive.recordVersion]
      exact if_pos harchived
    · simp at h
  | prune p' =>
    obtain ⟨rfl, rfl⟩ := Prod.mk.inj (Option.some.inj h)
    rfl
  | pin seenAt pinned o => exact absurd h (by simp [pruningOf])

theorem step_of_not_archived {c : Collected} (h : ¬ (a.archive digest ip c).2) :
    a.step digest ip (.record c) = (a.archive digest ip c).1 := by
  show a.recordVersion digest ip c = _
  rw [Archive.recordVersion]
  exact if_neg h

theorem Sound.pruningOf {a' : Archive} (h : Sound digest a)
    (hfresh : FreshName digest ip a act) (hp : pruningOf digest ip a act = some (a', p)) :
    Sound digest a' := by
  cases act with
  | record c =>
    rw [ConfigDrift.pruningOf] at hp
    split at hp
    · obtain ⟨rfl, rfl⟩ := Prod.mk.inj (Option.some.inj hp)
      exact h.archive hfresh
    · simp at hp
  | prune p' =>
    obtain ⟨rfl, rfl⟩ := Prod.mk.inj (Option.some.inj hp)
    exact h
  | pin seenAt pinned o => exact absurd hp (by simp [ConfigDrift.pruningOf])

theorem Sound.step (h : Sound digest a) (hfresh : FreshName digest ip a act)
    (hwhole : PrunesWhole digest ip a act) : Sound digest (a.step digest ip act) := by
  cases hp : ConfigDrift.pruningOf digest ip a act with
  | some x =>
    obtain ⟨a', p⟩ := x
    rw [step_of_pruningOf hp]
    exact (h.pruningOf hfresh hp).prune (hwhole a' p hp)
  | none =>
    cases act with
    | record c =>
      rw [ConfigDrift.pruningOf] at hp
      split at hp
      · simp at hp
      · next harchived =>
        rw [step_of_not_archived harchived]
        exact h.archive hfresh
    | prune p => exact absurd hp (by simp [ConfigDrift.pruningOf])
    | pin seenAt pinned o => exact h.pin

theorem archive_of_isNewest {c : Collected} (h : isNewest digest a c) :
    (a.step digest ip (.record c)).files = a.files ∧
      ∀ v ∈ (a.step digest ip (.record c)).versions, v ∈ a.versions := by
  have harchive : a.archive digest ip c = (a.saveIndex (a.seen ip c) c.saved, false) := if_pos h
  rw [step_of_not_archived (by rw [harchive]; exact Bool.false_ne_true), harchive]
  refine ⟨files_saveIndex a _ c.saved, fun v hv => ?_⟩
  rw [versions_saveIndex] at hv
  cases hsaved : c.saved with
  | written =>
    rw [hsaved] at hv
    rw [← versions_loadIndex a ip]
    exact hv
  | missing =>
    rw [hsaved] at hv
    exact hv
  | cut =>
    rw [hsaved] at hv
    cases hv

theorem head?_toKeep (hkeep : 0 < keep) (versions : List Version) :
    (toKeep keep versions).head? = versions.head? := by
  cases versions with
  | nil => simp [toKeep]
  | cons v vs =>
    obtain ⟨n, rfl⟩ := Nat.exists_eq_succ_of_ne_zero (Nat.pos_iff_ne_zero.mp hkeep)
    rfl

/-- An operation on a sound history is faithful exactly if its pruning completes. -/
theorem faithful_iff {act : Action} (h : Sound digest a) (hfresh : FreshName digest ip a act) :
    Faithful digest ip a act ↔ PrunesWhole digest ip a act := by
  constructor
  · intro hfaithful a' p hp
    by_contra hbroken
    rcases not_completes (h.pruningOf hfresh hp) hbroken with ⟨v, hhead, hnone⟩ | hlost
    · have hkept := hfaithful.newest a' p hp v hhead
      rw [step_of_pruningOf hp, hnone] at hkept
      exact Option.some_ne_none v hkept.symm
    · exact hlost (step_of_pruningOf hp ▸ hfaithful.trusted)
  · intro hwhole
    refine ⟨(h.step hfresh hwhole).trusted, ?_, ?_, ?_, ?_⟩
    · rintro c rfl hnewest
      exact archive_of_isNewest hnewest
    · intro a' p hp v hhead
      rw [step_of_pruningOf hp]
      rcases @versions_prune ip a' p (hwhole a' p hp) with hsame | ⟨hkeep, hkept⟩
      · rw [hsame, hhead]
      · rw [hkept, head?_toKeep (by omega), hhead]
    · intro a' p hp v hv hpinned
      rw [step_of_pruningOf hp]
      rcases @versions_prune ip a' p (hwhole a' p hp) with hsame | ⟨-, hkept⟩
      · rw [hsame]
        exact hv
      · rw [hkept]
        refine (mem_toKeep_or_toPrune hv).resolve_right fun hdrop => ?_
        rw [(mem_toPrune.mp hdrop).2] at hpinned
        exact Bool.false_ne_true hpinned
    · intro a' p hp v hv hlost
      rw [step_of_pruningOf hp] at hlost
      rcases @versions_prune ip a' p (hwhole a' p hp) with hsame | ⟨hkeep, hkept⟩
      · rw [hsame] at hlost
        exact absurd hv hlost
      · rw [hkept] at hlost
        obtain ⟨hdrop, hpinned⟩ := mem_toPrune.mp ((mem_toKeep_or_toPrune hv).resolve_left hlost)
        exact ⟨hkeep, hpinned, hdrop⟩

/-- In a run in which no version is recorded under the name of another one's file, every operation
is faithful exactly if every pruning completes. -/
theorem run_faithful_iff (digest : String → String) (ip : String) (acts : List Action)
    (a : Archive) :
    Run (Archive.step digest ip) (fun a act => FreshName digest ip a act ∧ Faithful digest ip a act)
        Archive.empty acts a ↔
      Run (Archive.step digest ip)
        (fun a act => FreshName digest ip a act ∧ PrunesWhole digest ip a act)
        Archive.empty acts a := by
  constructor
  · refine fun hrun => hrun.mono (I := Sound digest) (fun a act h hact => ?_)
      (fun a act h hact => ?_) sound_empty
    · exact h.step hact.1 ((faithful_iff h hact.1).mp hact.2)
    · exact ⟨hact.1, (faithful_iff h hact.1).mp hact.2⟩
  · refine fun hrun => hrun.mono (I := Sound digest) (fun a act h hact => ?_)
      (fun a act h hact => ?_) sound_empty
    · exact h.step hact.1 hact.2
    · exact ⟨hact.1, (faithful_iff h hact.1).mpr hact.2⟩

end Writes

/-! ## A pruning whose index is not written -/

/-- A configuration that is written, and the pruning after it. -/
def collected (text stamp : String) (pruning : Pruning) : Collected :=
  ⟨"sw1", text, stamp, some text, .written, pruning⟩

/-- One version is kept; the second configuration drops the first one, whose file is deleted, and
the write of the index fails. -/
def lostFile : List Action :=
  [.record (collected "vlan 1" "20260101T000000.000001Z" ⟨1, fun _ => true, .written⟩),
    .record (collected "vlan 2" "20260101T000000.000002Z" ⟨1, fun _ => true, .missing⟩)]

/-- The index has a version without its file. -/
theorem lostFile_not_trusted :
    Run (Archive.step id "10.0.0.1") (FreshName id "10.0.0.1") Archive.empty lostFile
        (lostFile.foldl (Archive.step id "10.0.0.1") Archive.empty) ∧
      ¬ Trusted id (lostFile.foldl (Archive.step id "10.0.0.1") Archive.empty) := by
  constructor
  · refine Run.cons (Or.inr ?_) (Run.cons (Or.inr ?_) (Run.nil _))
    · decide
    · decide
  · intro h
    have hgone : ∃ v ∈ (lostFile.foldl (Archive.step id "10.0.0.1") Archive.empty).versions,
        find (lostFile.foldl (Archive.step id "10.0.0.1") Archive.empty).files v.file = none := by
      decide
    obtain ⟨v, hv, hnone⟩ := hgone
    obtain ⟨text, hfind, -⟩ := h v hv
    exact Option.some_ne_none text (hfind.symm.trans hnone)

end SentinelNet.ConfigDrift
