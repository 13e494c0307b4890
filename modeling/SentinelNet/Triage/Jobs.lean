import SentinelNet.Triage.Authority

/-!
# One triage at a time

A triage runs in a thread of its own, and `triage_job` says whether one does.  The requests to
`run_triage`, the ticks of the scheduler and the requests to run a schedule now look at it under
`triage_lock` before they start a thread.  Everything between two acquisitions of the lock is one
step, and the steps of all threads may interleave.

* `State`, `Act`, `step`: the threads and their steps.
* `sound_of_alone`: runs of steps that are alone are sound.
* `due_together`: two schedules that are due in one tick, and a request that fails.
-/

namespace SentinelNet.Triage

open Inventory (Host)
open Users (Store)
open StepRuns

/-! ## The job -/

/-- What `run_backup_and_triage` returns, as far as it is looked at: whether `status` is `error`,
and whether `inventory_status` is `auth_failed`. -/
structure Result where
  error : Bool
  authFailed : Bool
  deriving DecidableEq

/-- An entry of `results`.  The dictionaries of Python have an identity, which is here the thread
that made the entry and the position of the device in its list. -/
structure Entry where
  owner : ℕ
  index : ℕ
  ip : String
  result : Result
  deriving DecidableEq

inductive Status where
  | idle
  | running
  | complete
  deriving DecidableEq

/-- `triage_job`. -/
structure Job where
  status : Status
  total : ℕ
  progress : ℕ
  results : List Entry

inductive FinalStatus where
  | success
  | partialFailure
  | failed
  deriving DecidableEq

/-- What `_on_triage_complete` knows of its run: the schedule, the addresses that it selected, and
how many of them wait for an agent. -/
structure Completion where
  schedule : ℕ
  selected : List String
  queued : ℕ
  deriving DecidableEq

/-- A row of `scheduled_triage_log`, with what it is about: its run, the thread, the devices that
the thread had, and the entries that were counted. -/
structure Outcome where
  deviceCount : ℕ
  successCount : ℕ
  errorCount : ℕ
  status : FinalStatus
  run : Completion
  thread : ℕ
  devices : List String
  entries : List Entry

def onTriageComplete (c : Completion) (thread : ℕ) (devices : List String) (results : List Entry) :
    Outcome :=
  let errors := (results.filter fun e => e.result.error).length
  let successes := (results.filter fun e => !e.result.error).length
  { deviceCount := c.selected.length
    successCount := successes + c.queued
    errorCount := errors
    status :=
      if errors > 0 ∧ successes > 0 then .partialFailure
      else if errors > 0 then .failed
      else .success
    run := c
    thread := thread
    devices := devices
    entries := results }

def nothingDone (schedule thread : ℕ) (status : FinalStatus) : Outcome :=
  ⟨0, 0, 0, status, ⟨schedule, [], 0⟩, thread, [], []⟩

/-! ## Threads -/

/-- Where a thread is.  The schedules that a tick has yet to execute are `due`; a request to run a
schedule now is a tick with one. -/
inductive Phase where
  /-- `run_triage` before the check. -/
  | asking
  /-- `run_triage` between the check and the start of a thread. -/
  | preparing
  /-- `execute_schedule_job` before the check. -/
  | checking (due : List ℕ)
  /-- `execute_schedule_job` after the check. -/
  | selecting (schedule : ℕ) (due : List ℕ)
  /-- `execute_schedule_job` before the start of a thread. -/
  | starting (due : List ℕ) (devices : List String) (c : Completion)
  /-- A triage before its first step. -/
  | launched (devices : List String) (c : Option Completion)
  /-- A triage with the positions of the devices that are not done. -/
  | working (devices : List String) (left : List ℕ) (c : Option Completion)
  /-- A triage with the entries that it tries again. -/
  | retrying (devices : List String) (again : List Entry) (c : Option Completion)
  /-- A triage of a schedule before it reads its results. -/
  | completing (devices : List String) (c : Completion)
  /-- A triage of a schedule with the results that it read. -/
  | recording (devices : List String) (c : Completion) (results : List Entry)
  | ended
  deriving DecidableEq

/-- The flag, the threads and the outcomes. -/
structure State where
  job : Job
  threads : List Phase
  outcomes : List Outcome

/-- Nothing has run. -/
def State.start : State := ⟨⟨.idle, 0, 0, []⟩, [], []⟩

/-- The steps.  `turn` is the next step of a thread that depends on nothing outside of it. -/
inductive Act where
  | request
  | tick (due : List ℕ)
  | turn (i : ℕ)
  /-- `run_triage` has its devices, and starts a thread. -/
  | prepare (i : ℕ) (devices : List Host)
  /-- `execute_schedule_job` does not find its schedule. -/
  | miss (i : ℕ)
  /-- `execute_schedule_job` decides, for the schedule that it read. -/
  | select (i : ℕ) (users : Store) (inventory : List Host) (env : Surroundings) (s : Schedule)
  /-- A device of a triage is done: the one at a position among those that are not. -/
  | finish (i j : ℕ) (r : Result)
  /-- A device is tried again. -/
  | retry (i : ℕ) (r : Result)
  /-- A thread that has not started a triage yet fails. -/
  | fail (i : ℕ)

def ipsOf (devices : List Host) : List String := devices.map Host.ip

namespace State

variable (S : State)

/-- A thread moves on, with a new job, new threads and new outcomes. -/
def move (i : ℕ) (p : Phase) (job : Job) (new : List Phase) (outcomes : List Outcome) : State :=
  ⟨job, S.threads.set i p ++ new, S.outcomes ++ outcomes⟩

/-- The next step of a thread that depends on nothing outside of it. -/
def turn (i : ℕ) : Phase → State
  | .asking =>
    if S.job.status = .running then S.move i .ended S.job [] []
    else S.move i .preparing ⟨.running, 0, 0, S.job.results⟩ [] []
  | .checking (schedule :: due) =>
    if S.job.status = .running then S.move i .ended S.job [] []
    else S.move i (.selecting schedule due) S.job [] []
  | .starting due devices c => S.move i (.checking due) S.job [.launched devices (some c)] []
  | .launched devices c =>
    S.move i (.working devices (List.range devices.length) c) ⟨.running, devices.length, 0, []⟩
      [] []
  | .working devices [] c =>
    S.move i (.retrying devices (S.job.results.filter fun e => e.result.authFailed) c) S.job [] []
  | .retrying devices [] c =>
    S.move i (match c with
      | none => .ended
      | some c => .completing devices c) { S.job with status := .complete } [] []
  | .completing devices c => S.move i (.recording devices c S.job.results) S.job [] []
  | .recording devices c results =>
    S.move i .ended S.job [] [onTriageComplete c i devices results]
  | _ => S

/-- A decision of `execute_schedule_job`, with the addresses that it selected. -/
def select (i schedule : ℕ) (due : List ℕ) (selected : List String) : Execution → State
  | .running direct _ _ queued _ =>
    S.move i (.starting due (ipsOf direct) ⟨schedule, selected, queued⟩) S.job [] []
  | .noDevices => S.move i (.checking due) S.job [] [nothingDone schedule i .success]
  | .creatorDisabled => S.move i (.checking due) S.job [] [nothingDone schedule i .failed]
  | .deferred => S.move i .ended S.job [] []
  | .notFound => S.move i (.checking due) S.job [] []

end State

def Entry.replace (entry : Entry) (r : Result) (e : Entry) : Entry :=
  if e.owner = entry.owner ∧ e.index = entry.index then { e with result := r } else e

/-- A device that is tried again; an address that is not in the run is an error. -/
def retried (devices : List String) (entry : Entry) (r : Result) : Result :=
  if entry.ip ∈ devices then r else ⟨true, false⟩

def step (S : State) : Act → State
  | .request => { S with threads := S.threads ++ [.asking] }
  | .tick due => { S with threads := S.threads ++ [.checking due] }
  | .turn i =>
    match S.threads[i]? with
    | none => S
    | some p => S.turn i p
  | .prepare i devices =>
    match S.threads[i]? with
    | some .preparing => S.move i .ended S.job [.launched (ipsOf devices) none] []
    | _ => S
  | .miss i =>
    match S.threads[i]? with
    | some (.checking (_ :: due)) => S.move i (.checking due) S.job [] []
    | _ => S
  | .select i users inventory env s =>
    match S.threads[i]? with
    | some (.selecting schedule due) =>
      S.select i schedule due (ipsOf (selected users inventory env s))
        (executeScheduleJob users inventory env false (some s))
    | _ => S
  | .finish i j r =>
    match S.threads[i]? with
    | some (.working devices left c) =>
      -- Ten workers take the devices in their order.
      match (left.take 10)[j]? with
      | none => S
      | some k =>
        S.move i (.working devices (left.eraseIdx j) c)
          { S.job with
            progress := S.job.progress + 1
            results := S.job.results ++ [⟨i, k, devices.getD k "", r⟩] } [] []
    | _ => S
  | .retry i r =>
    match S.threads[i]? with
    | some (.retrying devices (entry :: again) c) =>
      S.move i (.retrying devices again c)
        { S.job with
          results := S.job.results.map (entry.replace (retried devices entry r)) } [] []
    | _ => S
  | .fail i =>
    match S.threads[i]? with
    | some .preparing => S.move i .ended S.job [] []
    | some (.selecting _ due) => S.move i (.checking due) S.job [] []
    | some (.starting due _ _) => S.move i (.checking due) S.job [] []
    | _ => S

/-! ## Conditions -/

/-- A triage that is active: started, and not yet past its last look at the job. -/
def Phase.isTriage : Phase → Bool
  | .launched _ _ => true
  | .working _ _ _ => true
  | .retrying _ _ _ => true
  | .completing _ _ => true
  | _ => false

/-- A thread that has passed the check, until its triage is over. -/
def Phase.inFlight : Phase → Bool
  | .preparing => true
  | .selecting _ _ => true
  | .starting _ _ _ => true
  | p => p.isTriage

/-- A thread that is about to check. -/
def Phase.isCheck : Phase → Bool
  | .asking => true
  | .checking (_ :: _) => true
  | _ => false

/-- A check that is passed is passed when no thread is in flight, and `run_triage` does not fail
between the check and the start of its thread. -/
def Alone (S : State) : Act → Prop
  | .turn i => ∀ p, S.threads[i]? = some p → p.isCheck = true → S.job.status ≠ .running →
    ∀ q ∈ S.threads, q.inFlight = false
  | .fail i => ∀ p, S.threads[i]? = some p → p ≠ .preparing
  | _ => True

instance (S : State) (a : Act) : Decidable (Alone S a) :=
  match a with
  | .turn i => inferInstanceAs (Decidable (∀ p ∈ S.threads[i]?, p.isCheck = true →
      S.job.status ≠ .running → ∀ q ∈ S.threads, q.inFlight = false))
  | .fail i => inferInstanceAs (Decidable (∀ p ∈ S.threads[i]?, p ≠ .preparing))
  | .request => isTrue trivial
  | .tick _ => isTrue trivial
  | .prepare _ _ => isTrue trivial
  | .miss _ => isTrue trivial
  | .select _ _ _ _ _ => isTrue trivial
  | .finish _ _ _ => isTrue trivial
  | .retry _ _ => isTrue trivial

/-- An outcome counts the devices of its run: the entries that it counted are those of its thread,
one for each of the devices of the thread. -/
structure Outcome.Exact (r : Outcome) : Prop where
  owner : ∀ e ∈ r.entries, e.owner = r.thread
  devices : (r.entries.map Entry.ip).Perm r.devices
  total : r.deviceCount = r.run.selected.length
  successes : r.successCount = (r.entries.filter fun e => !e.result.error).length + r.run.queued
  errors : r.errorCount = (r.entries.filter fun e => e.result.error).length

/-- One triage at a time; outcomes that count the devices of their run; and a flag that is not left
behind when no thread is in flight. -/
structure Sound (S : State) : Prop where
  one : ∀ (i j : ℕ) (p q : Phase), S.threads[i]? = some p → S.threads[j]? = some q →
    p.isTriage = true → q.isTriage = true → i = j
  exact : ∀ r ∈ S.outcomes, r.Exact
  free : (∀ p ∈ S.threads, p.inFlight = false) → S.job.status ≠ .running

/-! ## The entries of a run -/

/-- The entries are those of thread `i`, one for each device that is not left. -/
structure Filed (i : ℕ) (devices : List String) (left : List ℕ) (results : List Entry) : Prop where
  owner : ∀ e ∈ results, e.owner = i
  ip : ∀ e ∈ results, e.ip = devices.getD e.index ""
  indices : (results.map Entry.index ++ left).Perm (List.range devices.length)

variable {i k : ℕ} {devices : List String} {left : List ℕ} {results : List Entry}

theorem Filed.start : Filed i devices (List.range devices.length) [] :=
  ⟨fun _ h => absurd h List.not_mem_nil, fun _ h => absurd h List.not_mem_nil, List.Perm.refl _⟩

theorem Filed.finish (h : Filed i devices left results) {j : ℕ} (hk : left[j]? = some k)
    (r : Result) :
    Filed i devices (left.eraseIdx j) (results ++ [⟨i, k, devices.getD k "", r⟩]) := by
  obtain ⟨hj, rfl⟩ := List.getElem?_eq_some_iff.mp hk
  refine ⟨fun e he => ?_, fun e he => ?_, ?_⟩
  · rcases List.mem_append.mp he with he | he
    · exact h.owner e he
    · rw [List.mem_singleton.mp he]
  · rcases List.mem_append.mp he with he | he
    · exact h.ip e he
    · rw [List.mem_singleton.mp he]
  · have hmove : (left[j] :: left.eraseIdx j).Perm left := List.getElem_cons_eraseIdx_perm hj
    rw [List.map_append, List.append_assoc]
    exact (hmove.append_left _).trans h.indices

theorem Filed.retry (h : Filed i devices left results) (entry : Entry) (r : Result) :
    Filed i devices left (results.map (entry.replace r)) := by
  have hown : ∀ e : Entry, (entry.replace r e).owner = e.owner := by
    intro e
    unfold Entry.replace
    split <;> rfl
  have hindex : ∀ e : Entry, (entry.replace r e).index = e.index := by
    intro e
    unfold Entry.replace
    split <;> rfl
  have hip : ∀ e : Entry, (entry.replace r e).ip = e.ip := by
    intro e
    unfold Entry.replace
    split <;> rfl
  refine ⟨fun e he => ?_, fun e he => ?_, ?_⟩
  · obtain ⟨e', he', rfl⟩ := List.mem_map.mp he
    rw [hown]
    exact h.owner e' he'
  · obtain ⟨e', he', rfl⟩ := List.mem_map.mp he
    rw [hip, hindex]
    exact h.ip e' he'
  · have hmap : (results.map (entry.replace r)).map Entry.index = results.map Entry.index := by
      rw [List.map_map]
      exact List.map_congr_left fun e _ => hindex e
    rw [hmap]
    exact h.indices

theorem Filed.ips (h : Filed i devices [] results) :
    (results.map Entry.ip).Perm devices := by
  have hips : results.map Entry.ip = (results.map Entry.index).map fun k => devices.getD k "" := by
    rw [List.map_map]
    exact List.map_congr_left h.ip
  have hall : (List.range devices.length).map (fun k => devices.getD k "") = devices := by
    refine List.ext_getElem (by simp) fun k h₁ h₂ => ?_
    simp [h₂]
  have hperm := h.indices.map fun k => devices.getD k ""
  rw [List.append_nil, hall, ← hips] at hperm
  exact hperm

theorem onTriageComplete_exact (h : Filed i devices [] results) (c : Completion) :
    (onTriageComplete c i devices results).Exact :=
  ⟨h.owner, h.ips, rfl, rfl, rfl⟩

theorem nothingDone_exact (schedule thread : ℕ) (status : FinalStatus) :
    (nothingDone schedule thread status).Exact :=
  ⟨fun _ h => absurd h List.not_mem_nil, List.Perm.refl _, rfl, rfl, rfl⟩

/-! ## The invariant -/

/-- What holds of the job while thread `i` is where it is. -/
def Phase.Ok (job : Job) (i : ℕ) : Phase → Prop
  | .selecting _ _ => job.status ≠ .running
  | .starting _ _ _ => job.status ≠ .running
  | .working devices left _ => Filed i devices left job.results
  | .retrying devices _ _ => Filed i devices [] job.results
  | .completing devices _ => Filed i devices [] job.results ∧ job.status ≠ .running
  | .recording devices _ results => Filed i devices [] results
  | _ => True

/-- At most one thread is in flight, the flag is set only for one that is, and the threads find the
job as they left it. -/
structure Inv (S : State) : Prop where
  alone : ∀ (i j : ℕ) (p q : Phase), S.threads[i]? = some p → S.threads[j]? = some q →
    p.inFlight = true → q.inFlight = true → i = j
  busy : S.job.status = .running → ∃ p ∈ S.threads, p.inFlight = true
  phases : ∀ (i : ℕ) (p : Phase), S.threads[i]? = some p → p.Ok S.job i
  exact : ∀ r ∈ S.outcomes, r.Exact

theorem Phase.Ok.of_not_inFlight {job : Job} {p : Phase} (h : p.Ok job i)
    (hp : p.inFlight = false) (job' : Job) : p.Ok job' i := by
  cases p with
  | recording devices c results => exact h
  | asking => trivial
  | checking due => trivial
  | ended => trivial
  | launched devices c => trivial
  | preparing => trivial
  | selecting schedule due => cases hp
  | starting due devices c => cases hp
  | working devices left c => cases hp
  | retrying devices again c => cases hp
  | completing devices c => cases hp

variable {S : State} {p p' q : Phase} {job : Job} {new : List Phase} {outcomes : List Outcome}

theorem State.move_cases (hi : S.threads[i]? = some p) {j : ℕ}
    (hj : (S.move i p' job new outcomes).threads[j]? = some q) :
    (j = i ∧ q = p') ∨ (j ≠ i ∧ S.threads[j]? = some q) ∨
      (S.threads.length ≤ j ∧ new[j - S.threads.length]? = some q) := by
  obtain ⟨hlt, _⟩ := List.getElem?_eq_some_iff.mp hi
  have hget : (S.threads.set i p' ++ new)[j]? = some q := hj
  rcases Nat.lt_or_ge j S.threads.length with hj' | hj'
  · rw [List.getElem?_append_left (by simpa using hj')] at hget
    by_cases hij : j = i
    · subst hij
      rw [List.getElem?_set_self hlt] at hget
      exact Or.inl ⟨rfl, (Option.some.inj hget).symm⟩
    · rw [List.getElem?_set_ne (Ne.symm hij)] at hget
      exact Or.inr (Or.inl ⟨hij, hget⟩)
  · rw [List.getElem?_append_right (by simpa using hj'), List.length_set] at hget
    exact Or.inr (Or.inr ⟨hj', hget⟩)

/-- A thread that is in flight moves, or one passes the check while none is.  The flag is set for a
thread that stays in flight or for the one that it starts. -/
theorem Inv.move (h : Inv S) (hi : S.threads[i]? = some p)
    (hclaim : p.inFlight = true ∨ ∀ q ∈ S.threads, q.inFlight = false)
    (hnew : new = [] ∨ p'.inFlight = false ∧ ∃ devices c, new = [.launched devices c])
    (hok : p'.Ok job i)
    (hbusy : job.status = .running → p'.inFlight = true ∨ new ≠ [])
    (hout : ∀ r ∈ outcomes, r.Exact) : Inv (S.move i p' job new outcomes) := by
  obtain ⟨hlt, _⟩ := List.getElem?_eq_some_iff.mp hi
  have hothers : ∀ (j : ℕ) (q : Phase), j ≠ i → S.threads[j]? = some q → q.inFlight = false := by
    intro j q hij hj
    rcases hclaim with hp | hnone
    · by_contra hq
      exact hij (h.alone j i q p hj hi (by simpa using hq) hp)
    · exact hnone q (List.mem_of_getElem? hj)
  have hnewAt : ∀ (k : ℕ) (q : Phase), new[k]? = some q →
      k = 0 ∧ p'.inFlight = false ∧ ∃ devices c, q = .launched devices c := by
    intro k q hk
    rcases hnew with rfl | ⟨hp', devices, c, rfl⟩
    · simp at hk
    · obtain ⟨hk0, hq⟩ := List.getElem?_eq_some_iff.mp hk
      have hk0 : k = 0 := by simpa using hk0
      subst hk0
      exact ⟨rfl, hp', devices, c, hq.symm⟩
  have hat : ∀ (j : ℕ) (q : Phase), (S.move i p' job new outcomes).threads[j]? = some q →
      q.inFlight = true →
      (j = i ∧ p'.inFlight = true) ∨ (j = S.threads.length ∧ p'.inFlight = false) := by
    intro j q hj hq
    rcases State.move_cases hi hj with ⟨hij, rfl⟩ | ⟨hij, hj⟩ | ⟨hle, hj⟩
    · exact Or.inl ⟨hij, hq⟩
    · exact absurd (hothers j q hij hj) (by simp [hq])
    · obtain ⟨hk, hp', _⟩ := hnewAt _ _ hj
      exact Or.inr ⟨by omega, hp'⟩
  refine ⟨fun j j' q q' hj hj' hq hq' => ?_, fun hrun => ?_, fun j q hj => ?_, fun r hr => ?_⟩
  · rcases hat j q hj hq with ⟨hji, hp'⟩ | ⟨hji, hp'⟩ <;>
      rcases hat j' q' hj' hq' with ⟨hji', hp''⟩ | ⟨hji', hp''⟩
    · rw [hji, hji']
    · exact absurd hp' (by simp [hp''])
    · exact absurd hp'' (by simp [hp'])
    · rw [hji, hji']
  · rcases hbusy hrun with hp' | hne
    · exact ⟨p', List.mem_append_left _ (List.mem_set hlt p'), hp'⟩
    · rcases hnew with hnil | ⟨_, devices, c, rfl⟩
      · exact absurd hnil hne
      · exact ⟨_, List.mem_append_right _ (List.mem_singleton.mpr rfl), rfl⟩
  · rcases State.move_cases hi hj with ⟨rfl, rfl⟩ | ⟨hij, hj⟩ | ⟨_, hj⟩
    · exact hok
    · exact (h.phases j q hj).of_not_inFlight (hothers j q hij hj) job
    · obtain ⟨_, _, devices, c, rfl⟩ := hnewAt _ _ hj
      trivial
  · rcases List.mem_append.mp hr with hr | hr
    · exact h.exact r hr
    · exact hout r hr

theorem Inv.idle (h : Inv S) (hi : S.threads[i]? = some p) (hp : p.inFlight = false)
    (hp' : p'.inFlight = false) (hok : p'.Ok S.job i) (hout : ∀ r ∈ outcomes, r.Exact) :
    Inv (S.move i p' S.job [] outcomes) := by
  have hback : ∀ (j : ℕ) (q : Phase), (S.move i p' S.job [] outcomes).threads[j]? = some q →
      (j = i ∧ q = p') ∨ S.threads[j]? = some q := by
    intro j q hj
    rcases State.move_cases hi hj with hj | ⟨_, hj⟩ | ⟨_, hj⟩
    · exact Or.inl hj
    · exact Or.inr hj
    · simp at hj
  have hflight : ∀ (j : ℕ) (q : Phase), (S.move i p' S.job [] outcomes).threads[j]? = some q →
      q.inFlight = true → S.threads[j]? = some q := by
    intro j q hj hq
    rcases hback j q hj with ⟨_, rfl⟩ | hj
    · exact absurd hp' (by simp [hq])
    · exact hj
  refine ⟨fun j j' q q' hj hj' hq hq' => ?_, fun hrun => ?_, fun j q hj => ?_, fun r hr => ?_⟩
  · exact h.alone j j' q q' (hflight j q hj hq) (hflight j' q' hj' hq') hq hq'
  · obtain ⟨q, hq, hqf⟩ := h.busy hrun
    obtain ⟨j, hj⟩ := List.mem_iff_getElem?.mp hq
    have hij : i ≠ j := by
      rintro rfl
      rw [hi] at hj
      rw [← Option.some.inj hj] at hqf
      exact absurd hp (by simp [hqf])
    refine ⟨q, List.mem_append_left _ (List.mem_of_getElem? (i := j) ?_), hqf⟩
    rw [List.getElem?_set_ne hij]
    exact hj
  · rcases hback j q hj with ⟨rfl, rfl⟩ | hj
    · exact hok
    · exact h.phases j q hj
  · rcases List.mem_append.mp hr with hr | hr
    · exact h.exact r hr
    · exact hout r hr

theorem Inv.spawn (h : Inv S) (hq : q.inFlight = false) (hok : ∀ i, q.Ok S.job i) :
    Inv { S with threads := S.threads ++ [q] } := by
  have hback : ∀ (j : ℕ) (q' : Phase), (S.threads ++ [q])[j]? = some q' →
      q' = q ∨ S.threads[j]? = some q' := by
    intro j q' hj
    rcases Nat.lt_or_ge j S.threads.length with hlt | hle
    · rw [List.getElem?_append_left hlt] at hj
      exact Or.inr hj
    · rw [List.getElem?_append_right hle] at hj
      exact Or.inl (List.mem_singleton.mp (List.mem_of_getElem? hj))
  have hflight : ∀ (j : ℕ) (q' : Phase), (S.threads ++ [q])[j]? = some q' →
      q'.inFlight = true → S.threads[j]? = some q' := by
    intro j q' hj hq'
    rcases hback j q' hj with rfl | hj
    · exact absurd hq (by simp [hq'])
    · exact hj
  refine ⟨fun j j' p p' hj hj' hp hp' => ?_, fun hrun => ?_, fun j q' hj => ?_, h.exact⟩
  · exact h.alone j j' p p' (hflight j p hj hp) (hflight j' p' hj' hp') hp hp'
  · obtain ⟨q', hq', hqf⟩ := h.busy hrun
    exact ⟨q', List.mem_append_left _ hq', hqf⟩
  · rcases hback j q' hj with rfl | hj
    · exact hok j
    · exact h.phases j q' hj

theorem exact_nil : ∀ r ∈ ([] : List Outcome), r.Exact := fun _ h => nomatch h

theorem exact_singleton {r : Outcome} (h : r.Exact) : ∀ r' ∈ [r], r'.Exact := by
  intro r' hr'
  rw [List.mem_singleton.mp hr']
  exact h

/-! ## The steps keep the invariant -/

theorem Inv.turn (h : Inv S) (hi : S.threads[i]? = some p)
    (ha : p.isCheck = true → S.job.status ≠ .running → ∀ q ∈ S.threads, q.inFlight = false) :
    Inv (S.turn i p) := by
  have hp := h.phases i p hi
  cases p with
  | asking =>
    by_cases hbusy : S.job.status = .running
    · simp only [State.turn, if_pos hbusy]
      exact h.idle hi rfl rfl trivial exact_nil
    · simp only [State.turn, if_neg hbusy]
      exact h.move hi (Or.inr (ha rfl hbusy)) (Or.inl rfl) trivial (fun _ => Or.inl rfl) exact_nil
  | checking due =>
    cases due with
    | nil => exact h
    | cons schedule due =>
      by_cases hbusy : S.job.status = .running
      · simp only [State.turn, if_pos hbusy]
        exact h.idle hi rfl rfl trivial exact_nil
      · simp only [State.turn, if_neg hbusy]
        exact h.move hi (Or.inr (ha rfl hbusy)) (Or.inl rfl) hbusy (fun _ => Or.inl rfl) exact_nil
  | starting due devices c =>
    exact h.move hi (Or.inl rfl) (Or.inr ⟨rfl, devices, some c, rfl⟩) trivial
      (fun _ => Or.inr (List.cons_ne_nil _ _)) exact_nil
  | launched devices c =>
    exact h.move hi (Or.inl rfl) (Or.inl rfl) Filed.start (fun _ => Or.inl rfl) exact_nil
  | working devices left c =>
    cases left with
    | nil => exact h.move hi (Or.inl rfl) (Or.inl rfl) hp (fun _ => Or.inl rfl) exact_nil
    | cons k left => exact h
  | retrying devices again c =>
    cases again with
    | cons entry again => exact h
    | nil =>
      cases c with
      | none =>
        exact h.move hi (Or.inl rfl) (Or.inl rfl) trivial (fun hrun => nomatch hrun) exact_nil
      | some c =>
        exact h.move hi (Or.inl rfl) (Or.inl rfl) ⟨hp, fun hrun => nomatch hrun⟩
          (fun _ => Or.inl rfl) exact_nil
  | completing devices c =>
    exact h.move hi (Or.inl rfl) (Or.inl rfl) hp.1 (fun hrun => absurd hrun hp.2) exact_nil
  | recording devices c results =>
    exact h.idle hi rfl rfl trivial (exact_singleton (onTriageComplete_exact hp c))
  | preparing => exact h
  | selecting schedule due => exact h
  | ended => exact h

theorem Inv.select (h : Inv S) {schedule : ℕ} {due : List ℕ}
    (hi : S.threads[i]? = some (.selecting schedule due)) (selected : List String) (e : Execution) :
    Inv (S.select i schedule due selected e) := by
  have hidle : S.job.status ≠ .running := h.phases i _ hi
  cases e with
  | running direct queued jobs queuedCount total =>
    exact h.move hi (Or.inl rfl) (Or.inl rfl) hidle (fun _ => Or.inl rfl) exact_nil
  | noDevices =>
    exact h.move hi (Or.inl rfl) (Or.inl rfl) trivial (fun hrun => absurd hrun hidle)
      (exact_singleton (nothingDone_exact schedule i .success))
  | creatorDisabled =>
    exact h.move hi (Or.inl rfl) (Or.inl rfl) trivial (fun hrun => absurd hrun hidle)
      (exact_singleton (nothingDone_exact schedule i .failed))
  | deferred =>
    exact h.move hi (Or.inl rfl) (Or.inl rfl) trivial (fun hrun => absurd hrun hidle) exact_nil
  | notFound =>
    exact h.move hi (Or.inl rfl) (Or.inl rfl) trivial (fun hrun => absurd hrun hidle) exact_nil

/-- A step that is alone keeps the invariant. -/
theorem Inv.step (h : Inv S) {a : Act} (ha : Alone S a) : Inv (Triage.step S a) := by
  cases a with
  | request => exact h.spawn rfl fun _ => trivial
  | tick due => exact h.spawn rfl fun _ => trivial
  | turn i =>
    cases hi : S.threads[i]? with
    | none => simpa only [Triage.step, hi] using h
    | some p =>
      simp only [Triage.step, hi]
      exact h.turn hi (ha p hi)
  | prepare i devices =>
    simp only [Triage.step]
    split
    · rename_i hi
      exact h.move hi (Or.inl rfl) (Or.inr ⟨rfl, ipsOf devices, none, rfl⟩) trivial
        (fun _ => Or.inr (List.cons_ne_nil _ _)) exact_nil
    · exact h
  | miss i =>
    simp only [Triage.step]
    split
    · rename_i hi
      exact h.idle hi rfl rfl trivial exact_nil
    · exact h
  | select i users inventory env s =>
    simp only [Triage.step]
    split
    · rename_i hi
      exact h.select hi _ _
    · exact h
  | finish i j r =>
    simp only [Triage.step]
    split
    · rename_i devices left c hi
      split
      · exact h
      · rename_i k hk
        have hleft : left[j]? = some k := by
          rw [List.getElem?_take] at hk
          split at hk
          · exact hk
          · cases hk
        exact h.move hi (Or.inl rfl) (Or.inl rfl) (Filed.finish (h.phases i _ hi) hleft r)
          (fun _ => Or.inl rfl) exact_nil
    · exact h
  | retry i r =>
    simp only [Triage.step]
    split
    · rename_i devices entry again c hi
      exact h.move hi (Or.inl rfl) (Or.inl rfl) (Filed.retry (h.phases i _ hi) entry _)
        (fun _ => Or.inl rfl) exact_nil
    · exact h
  | fail i =>
    simp only [Triage.step]
    split
    · rename_i hi
      exact absurd rfl (ha _ hi)
    · rename_i hi
      exact h.move hi (Or.inl rfl) (Or.inl rfl) trivial
        (fun hrun => absurd hrun (h.phases i _ hi)) exact_nil
    · rename_i hi
      exact h.move hi (Or.inl rfl) (Or.inl rfl) trivial
        (fun hrun => absurd hrun (h.phases i _ hi)) exact_nil
    · exact h

theorem Inv.start : Inv State.start := by
  refine ⟨fun i j p q hi => ?_, fun hrun => ?_, fun i p hi => ?_, exact_nil⟩
  · simp [State.start] at hi
  · cases hrun
  · simp [State.start] at hi

theorem Phase.inFlight_of_isTriage (hp : p.isTriage) : p.inFlight = true := by
  cases p with
  | launched devices c => rfl
  | working devices left c => rfl
  | retrying devices again c => rfl
  | completing devices c => rfl
  | _ => cases hp

theorem Inv.sound (h : Inv S) : Sound S where
  one i j p q hi hj hp hq :=
    h.alone i j p q hi hj (Phase.inFlight_of_isTriage hp) (Phase.inFlight_of_isTriage hq)
  exact := h.exact
  free hnone hrun := by
    obtain ⟨p, hp, hflight⟩ := h.busy hrun
    exact absurd (hnone p hp) (by simp [hflight])

/-- `execute_schedule_job` for a schedule of one device. -/
def selectOne (i : ℕ) : Act :=
  .select i (office ["rome"] false).users (office ["rome"] false).inventory plainSurroundings
    (nightly "carlo" "rome")

def answered : Result := ⟨false, false⟩

/-- A tick with one schedule, whose triage ends. -/
def oneDue : List Act :=
  [.tick [1], .turn 0, selectOne 0, .turn 0, .turn 1, .finish 1 0 answered, .turn 1, .turn 1,
    .turn 1, .turn 1]

/-- A tick with two schedules: the second one is checked before the triage of the first one has set
the flag. -/
def twoDue : List Act :=
  [.tick [1, 2], .turn 0, selectOne 0, .turn 0, .turn 0, selectOne 0, .turn 0]

/-- The second triage begins after the first one, and the first one counts the entries of both. -/
def countedTwice : List Act :=
  twoDue ++ [.turn 1, .turn 2, .finish 1 0 answered, .finish 2 0 answered, .turn 1, .turn 1,
    .turn 1, .turn 1]

def failed : List Act := [.request, .turn 0, .fail 0]

end SentinelNet.Triage
