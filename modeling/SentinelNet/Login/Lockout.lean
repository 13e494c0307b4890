import Mathlib

/-!
# The store of failed attempts

`security/security_manager.py` keeps the times of failed attempts under a key, in memory and in a
file, so that a restart does not forget them.  Only the attempts of the last `LOCKOUT_SECONDS`
count, and each reading drops the older ones.

* `Store.isLockedOut`, `Store.recordFailedAttempt`, `Store.resetFailedAttempts`: the operations.
* `later_isLockedOut`, `later_recordFailedAttempt`, `later_resetFailedAttempts`: what the operations
  do to the attempts that count.
-/

namespace SentinelNet.Login

def maxAttempts : ℕ := 5

def lockoutSeconds : ℚ := 300

/-- `_failed_attempts`, the file, and `_attempts_loaded`. -/
structure Store where
  failed : String → List ℚ
  disk : String → List ℚ
  loaded : Bool

/-- `[t for t in times if now - t < LOCKOUT_SECONDS]`. -/
def recent (now : ℚ) (times : List ℚ) : List ℚ :=
  times.filter fun t => now - t < lockoutSeconds

section Operations

variable (now : ℚ) (key : String) (s : Store)

/-- `_load_attempts`. -/
def Store.load : Store :=
  if s.loaded = true then s
  else
    { failed := fun key => recent now (s.disk key)
      disk := s.disk
      loaded := true }

/-- `_save_attempts`, which the file system may refuse: keys whose last attempt is old are left
out. -/
def Store.save (saved : Bool) : Store :=
  if saved = true then
    { s with
      disk := fun key =>
        if (s.failed key).getLast?.any (fun t => now - t < lockoutSeconds) = true then s.failed key
        else [] }
  else s

def Store.isLockedOut : Bool × Store :=
  let s := s.load now
  let attempts := recent now (s.failed key)
  (decide (maxAttempts ≤ attempts.length),
    { s with failed := Function.update s.failed key attempts })

def Store.recordFailedAttempt (saved : Bool) : Store :=
  let s := s.load now
  Store.save now { s with failed := Function.update s.failed key (s.failed key ++ [now]) } saved

/-- `reset_failed_attempts`; a key without attempts is saved as one that is not there. -/
def Store.resetFailedAttempts (saved : Bool) : Store :=
  let s := s.load now
  Store.save now { s with failed := Function.update s.failed key [] } saved

/-- A process that starts has the file only. -/
def Store.restart : Store := ⟨fun _ => [], s.disk, false⟩

end Operations

/-! ## The attempts that count -/

/-- How many times of a list come after a given one. -/
def later (x : ℚ) (times : List ℚ) : ℕ := times.countP fun t => x < t

theorem later_concat (x : ℚ) (times : List ℚ) (t : ℚ) :
    later x (times ++ [t]) = later x times + if x < t then 1 else 0 := by
  rw [later, later, List.countP_append, List.countP_singleton]
  simp only [decide_eq_true_eq]

theorem later_anti {x y : ℚ} (h : x ≤ y) (times : List ℚ) : later y times ≤ later x times :=
  List.countP_mono_left fun t _ ht => by
    rw [decide_eq_true_eq] at ht ⊢
    exact lt_of_le_of_lt h ht

theorem later_eq_zero {x : ℚ} {times : List ℚ} (h : ∀ t ∈ times, t ≤ x) : later x times = 0 :=
  List.countP_eq_zero.mpr fun t ht => by
    rw [decide_eq_true_eq]
    exact not_lt.mpr (h t ht)

theorem later_recent {now x : ℚ} (hx : now - lockoutSeconds ≤ x) (times : List ℚ) :
    later x (recent now times) = later x times := by
  rw [later, later, recent, List.countP_filter]
  refine List.countP_congr fun t _ => ?_
  rw [Bool.and_eq_true, decide_eq_true_eq, decide_eq_true_eq]
  exact ⟨fun h => h.1, fun h => ⟨h, by linarith⟩⟩

theorem length_recent (now : ℚ) (times : List ℚ) :
    (recent now times).length = later (now - lockoutSeconds) times := by
  rw [recent, later, ← List.countP_eq_length_filter]
  refine List.countP_congr fun t _ => ?_
  rw [decide_eq_true_eq, decide_eq_true_eq]
  exact ⟨fun h => by linarith, fun h => by linarith⟩

/-! ## What the store knows -/

/-- The attempts of a key: in memory, or in the file before that is read. -/
def Store.times (s : Store) (key : String) : List ℚ :=
  if s.loaded = true then s.failed key else s.disk key

/-- The failures in memory that count are in the file. -/
def Store.Saved (now : ℚ) (s : Store) : Prop :=
  s.loaded = true → ∀ key, (recent now (s.failed key)).Sublist (s.disk key)

variable {now x : ℚ} (s : Store) (key k : String) (saved : Bool)

theorem loaded_load : (s.load now).loaded = true := by
  rw [Store.load]
  split
  · next h => exact h
  · rfl

theorem disk_load : (s.load now).disk = s.disk := by
  rw [Store.load]
  split <;> rfl

theorem later_load (hx : now - lockoutSeconds ≤ x) :
    later x ((s.load now).failed k) = later x (s.times k) := by
  rw [Store.load, Store.times]
  split
  · rfl
  · exact later_recent hx _

theorem times_save {s : Store} (h : s.loaded) :
    (s.save now saved).times k = s.failed k := by
  rw [Store.save]
  split
  · exact if_pos h
  · exact if_pos h

theorem later_disk_save {s : Store} {n : ℕ} (hdisk : later x (s.disk k) ≤ n)
    (hfailed : later x (s.failed k) ≤ n) : later x ((s.save now saved).disk k) ≤ n := by
  rw [Store.save]
  split
  · dsimp only
    split
    · exact hfailed
    · exact Nat.zero_le _
  · exact hdisk

theorem isLockedOut_iff : (s.isLockedOut now key).1 = true ↔
    maxAttempts ≤ later (now - lockoutSeconds) (s.times key) := by
  rw [Store.isLockedOut, decide_eq_true_iff, length_recent, later_load s key (le_refl _)]

theorem later_isLockedOut (hx : now - lockoutSeconds ≤ x) :
    later x ((s.isLockedOut now key).2.times k) = later x (s.times k) := by
  have htimes : (s.isLockedOut now key).2.times k =
      Function.update (s.load now).failed key (recent now ((s.load now).failed key)) k :=
    if_pos (loaded_load s)
  rw [htimes, Function.update_apply]
  split
  · next h => rw [h, later_recent hx, later_load s key hx]
  · exact later_load s k hx

theorem disk_isLockedOut : (s.isLockedOut now key).2.disk = s.disk := disk_load s

theorem times_recordFailedAttempt : (s.recordFailedAttempt now key saved).times k =
    Function.update (s.load now).failed key ((s.load now).failed key ++ [now]) k :=
  times_save k saved (loaded_load s)

theorem times_resetFailedAttempts : (s.resetFailedAttempts now key saved).times k =
    Function.update (s.load now).failed key [] k :=
  times_save k saved (loaded_load s)

/-- A failure that is recorded counts for its key only. -/
theorem later_recordFailedAttempt (hx : now - lockoutSeconds ≤ x) :
    later x ((s.recordFailedAttempt now key saved).times k) =
      later x (s.times k) + if k = key ∧ x < now then 1 else 0 := by
  rw [times_recordFailedAttempt, Function.update_apply]
  by_cases hk : k = key
  · rw [if_pos hk, later_concat, later_load s key hx, hk]
    simp
  · rw [if_neg hk, later_load s k hx, if_neg fun h => hk h.1, Nat.add_zero]

/-- A reset forgets the attempts of its key only. -/
theorem later_resetFailedAttempts (hx : now - lockoutSeconds ≤ x) :
    later x ((s.resetFailedAttempts now key saved).times k) =
      if k = key then 0 else later x (s.times k) := by
  rw [times_resetFailedAttempts, Function.update_apply]
  split
  · rfl
  · exact later_load s k hx

theorem later_disk_recordFailedAttempt {n : ℕ} (hdisk : later x (s.disk k) ≤ n)
    (htimes : later x ((s.recordFailedAttempt now key saved).times k) ≤ n) :
    later x ((s.recordFailedAttempt now key saved).disk k) ≤ n := by
  rw [times_recordFailedAttempt] at htimes
  rw [← @disk_load now s] at hdisk
  exact later_disk_save k saved hdisk htimes

theorem later_disk_resetFailedAttempts {n : ℕ} (hdisk : later x (s.disk k) ≤ n)
    (htimes : later x ((s.resetFailedAttempts now key saved).times k) ≤ n) :
    later x ((s.resetFailedAttempts now key saved).disk k) ≤ n := by
  rw [times_resetFailedAttempts] at htimes
  rw [← @disk_load now s] at hdisk
  exact later_disk_save k saved hdisk htimes

theorem later_le_restart {s : Store} (hsaved : s.Saved now) (hx : now - lockoutSeconds ≤ x) :
    later x (s.times k) ≤ later x (s.restart.times k) := by
  rw [Store.times, Store.restart, Store.times, if_neg Bool.false_ne_true]
  split
  · next h =>
    rw [← later_recent hx]
    exact (hsaved h k).countP_le
  · exact le_refl _

end SentinelNet.Login
