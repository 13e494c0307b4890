import SentinelNet.Probes.Registry
import SentinelNet.Probes.Jobs

/-!
# Jobs of deleted probes

A job names the id of its probe.  The id of a new probe is the slug of its name where no probe has
it, and `delete_probe` leaves the jobs where they are: a probe that is created under the id of a
deleted one inherits its pending jobs.

* `run_handsOwnWork`: so it is in every run in which no probe is created under an id with pending
  jobs.
-/

namespace SentinelNet.Probes

open PyDict StepRuns

/-! ## The two stores -/

/-- A call that concerns probes and jobs. -/
inductive DeskAction where
  | create (name mode : String) (fields : Bastion) (draw : Draw)
  | delete (probeId : String)
  | enqueue (req : JobRequest) (jobId : String) (now : ℚ)
  | poll (probeId : String) (limit : ℕ) (now : ℚ)
  | complete (jobId probeId status result : String) (now : ℚ)

/-- The registry and the queue; `born` says which birth the probe with an id is of, `births` counts
them, and `aimedAt` has for each job the birth of the probe for which it was enqueued. -/
structure Desk where
  registry : Registry
  jobs : JobTable
  born : String → Option ℕ
  births : ℕ
  aimedAt : List (String × ℕ)

/-- The default file and no jobs. -/
def Desk.start (now : ℚ) : Desk :=
  ⟨defaultProbes now, [], Function.update (fun _ => none) defaultProbeId (some 0), 1, []⟩

section Steps

variable (hashToken : String → String) (env : Loader)

/-- `agent_poll_jobs`: only the agent of a probe that is there is let in. -/
def agentPollJobs (reg : Registry) (jobs : JobTable) (probeId : String) (limit : ℕ) (now : ℚ) :
    JobTable × List Job :=
  if has reg probeId then claimPendingJobs jobs probeId limit now else (jobs, [])

/-- A call beside the births. -/
def Desk.step (s : Desk) : DeskAction → Desk
  | .create name mode fields draw =>
    match createProbe hashToken s.registry name mode fields draw with
    | .ok (some (reg', id, _)) =>
      { s with
        registry := reg'
        born := Function.update s.born id (some s.births)
        births := s.births + 1 }
    | _ => s
  | .delete probeId =>
    if (deleteProbe s.registry probeId).1 then
      { s with
        registry := (deleteProbe s.registry probeId).2
        born := Function.update s.born probeId none }
    else s
  | .enqueue req jobId now =>
    match enqueueJob env s.jobs req jobId now with
    | .ok jobs =>
      { s with
        jobs := jobs
        aimedAt := s.aimedAt ++ (s.born req.probeId).toList.map fun birth => (jobId, birth) }
    | .error _ => s
  | .poll probeId limit now =>
    { s with jobs := (agentPollJobs s.registry s.jobs probeId limit now).1 }
  | .complete jobId probeId status result now =>
    { s with jobs := (completeJob s.jobs jobId probeId status result now).2 }

end Steps

/-- The jobs that an agent gets were enqueued for its probe, not for an earlier one with its id. -/
def HandsOwnWork (s : Desk) : DeskAction → Prop
  | .poll probeId limit now => ∀ j ∈ (agentPollJobs s.registry s.jobs probeId limit now).2,
      ∀ birth, (j.id, birth) ∈ s.aimedAt → s.born probeId = some birth
  | _ => True

/-- No job is pending for the id that a new probe gets. -/
def NoLeftovers (s : Desk) : DeskAction → Prop
  | .create name _ _ draw => ∀ id, freeId s.registry (slugify name) draw.suffixes = some id →
      ∀ j ∈ s.jobs, j.probeId = id → j.status ≠ .pending
  | _ => True

/-! ## Pending jobs have their probe -/

/-- A pending job was enqueued for the probe that has its id now, if there is one. -/
structure Desk.Tidy (s : Desk) : Prop where
  own : ∀ j ∈ s.jobs, j.status = .pending → ∀ birth, (j.id, birth) ∈ s.aimedAt →
    has s.registry j.probeId = true → s.born j.probeId = some birth
  known : ∀ e ∈ s.aimedAt, ∃ j ∈ s.jobs, j.id = e.1

theorem tidy_start (now : ℚ) : (Desk.start now).Tidy where
  own _ hj := nomatch hj
  known _ he := nomatch he

theorem Desk.Tidy.jobs {s : Desk} (h : s.Tidy) {jobs : JobTable}
    (hpending : ∀ j ∈ jobs, j.status = .pending → j ∈ s.jobs)
    (hids : ∀ j ∈ s.jobs, ∃ j' ∈ jobs, j'.id = j.id) : Desk.Tidy { s with jobs := jobs } where
  own j hj hp := h.own j (hpending j hj hp) hp
  known e he := by
    obtain ⟨j, hj, hid⟩ := h.known e he
    obtain ⟨j', hj', hid'⟩ := hids j hj
    exact ⟨j', hj', hid'.trans hid⟩

theorem Desk.Tidy.step {s : Desk} (h : s.Tidy) (hashToken : String → String) (env : Loader)
    {a : DeskAction} (ha : NoLeftovers s a) : (s.step hashToken env a).Tidy := by
  cases a with
  | create name mode fields draw =>
    rw [Desk.step]
    split
    · next reg' id token hcreate =>
      obtain ⟨hid, m, bastion, -, -, rfl, -⟩ := createProbe_ok hcreate
      have hnone := ha id hid
      refine ⟨fun j hj hp birth hbirth hhas => ?_, h.known⟩
      have hne : j.probeId ≠ id := fun hid => hnone j hj hid hp
      have hold : has s.registry j.probeId = true := by
        have hget : (get? (set s.registry id (newProbe hashToken id name m bastion draw))
          j.probeId).isSome = true := hhas
        rw [get?_set, if_neg hne] at hget
        exact hget
      show Function.update s.born id (some s.births) j.probeId = some birth
      rw [Function.update_of_ne hne]
      exact h.own j hj hp birth hbirth hold
    · exact h
  | delete probeId =>
    rw [Desk.step]
    rcases deleteProbe_eq s.registry probeId with hdelete | hdelete
    · rw [hdelete, if_pos rfl]
      refine ⟨fun j hj hp birth hbirth hhas => ?_, h.known⟩
      have hget : (get? (del s.registry probeId) j.probeId).isSome = true := hhas
      rw [get?_del] at hget
      split at hget
      · simp at hget
      · next hne =>
        show Function.update s.born probeId none j.probeId = some birth
        rw [Function.update_of_ne hne]
        exact h.own j hj hp birth hbirth hget
    · rw [hdelete, if_neg (by simp)]
      exact h
  | enqueue req jobId now =>
    rw [Desk.step]
    split
    · next jobs hjobs =>
      obtain ⟨hnew, rfl⟩ := enqueueJob_ok hjobs
      constructor
      · intro j hj hp birth hbirth hhas
        rcases List.mem_append.mp hbirth with hbirth | hbirth
        · rcases List.mem_append.mp hj with hj | hj
          · exact h.own j hj hp birth hbirth hhas
          · -- the number of the new job was not given before
            obtain ⟨old, hold, hid⟩ := h.known _ hbirth
            rw [List.mem_singleton.mp hj] at hid
            exact absurd hid (hnew old hold)
        · obtain ⟨birth', hborn, hpair⟩ := List.mem_map.mp hbirth
          obtain ⟨hid, rfl⟩ := Prod.mk.inj hpair
          rcases List.mem_append.mp hj with hj | hj
          · exact absurd hid.symm (hnew j hj)
          · rw [List.mem_singleton.mp hj]
            exact Option.mem_toList.mp hborn
      · intro e he
        rcases List.mem_append.mp he with he | he
        · obtain ⟨j, hj, hid⟩ := h.known e he
          exact ⟨j, List.mem_append_left _ hj, hid⟩
        · obtain ⟨birth, -, rfl⟩ := List.mem_map.mp he
          exact ⟨_, List.mem_append_right _ (List.mem_singleton_self _), rfl⟩
    · exact h
  | poll probeId limit now =>
    rw [Desk.step, agentPollJobs]
    split
    · refine h.jobs (fun j hj hp => ?_) fun j hj => ?_
      · obtain ⟨old, hold, rfl⟩ := List.mem_map.mp hj
        split at hp
        · exact absurd hp (by simp [Job.run])
        · next hout =>
          rw [if_neg hout]
          exact hold
      · exact ⟨_, List.mem_map_of_mem hj, (sameJob_run _ now j).id⟩
    · exact h
  | complete jobId probeId status result now =>
    refine h.jobs (fun j hj hp => ?_) fun j hj => ?_
    · obtain ⟨old, hold, rfl⟩ := List.mem_map.mp hj
      split at hp
      · exact absurd hp (answerStatus_ne_pending status)
      · next hout =>
        rw [if_neg hout]
        exact hold
    · exact ⟨_, List.mem_map_of_mem hj, (sameJob_answer jobId probeId status result now j).id⟩

theorem Desk.Tidy.handsOwnWork {s : Desk} (h : s.Tidy) (a : DeskAction) : HandsOwnWork s a := by
  cases a with
  | poll probeId limit now =>
    intro j hj birth hbirth
    rw [agentPollJobs] at hj
    split at hj
    · next hhas =>
      obtain ⟨row, hrow, rfl⟩ := List.mem_map.mp hj
      obtain ⟨hmem, hprobe, hp⟩ := mem_claimable hrow
      rw [← hprobe] at hhas ⊢
      exact h.own row hmem hp birth hbirth hhas
    · cases hj
  | _ => trivial

/-- In every run in which no probe is created under an id with pending jobs, an agent gets no job
that was enqueued for an earlier probe with its id. -/
theorem run_handsOwnWork {hashToken : String → String} {env : Loader} {now : ℚ}
    {acts : List DeskAction} {s : Desk}
    (h : Run (Desk.step hashToken env) NoLeftovers (Desk.start now) acts s) :
    Run (Desk.step hashToken env) HandsOwnWork (Desk.start now) acts s :=
  h.mono (I := Desk.Tidy) (fun _ _ hs ha => hs.step hashToken env ha)
    (fun _ a hs _ => hs.handsOwnWork a) (tidy_start now)

/-! ## A probe with the id of a deleted one -/

/-- A probe of the site. -/
def createNapoli (token : String) : DeskAction := .create "Napoli" "agent" {} ⟨1, [], token⟩

/-- A command for the site. -/
def reloadNapoli : DeskAction :=
  .enqueue { probeId := "napoli", deviceIp := "10.0.0.4", command := "reload" } "j1" 2

/-- The agent of the site asks for work. -/
def pollNapoli : DeskAction := .poll "napoli" 20 4

/-- The state after some calls. -/
def afterDesk (acts : List DeskAction) : Desk := acts.foldl (Desk.step id bareLoader) (Desk.start 0)

/-- A probe that is created again after its job was claimed. -/
theorem run_handsOwnWork_claimed :
    Run (Desk.step id bareLoader) HandsOwnWork (Desk.start 0)
      [createNapoli "first", reloadNapoli, pollNapoli, .delete "napoli", createNapoli "second",
        pollNapoli]
      (afterDesk [createNapoli "first", reloadNapoli, pollNapoli, .delete "napoli",
        createNapoli "second", pollNapoli]) := by
  have hnone (s : Desk) (h : ∀ j ∈ s.jobs, j.status ≠ .pending) (token : String) :
      NoLeftovers s (createNapoli token) := fun _ _ j hj _ => h j hj
  exact run_handsOwnWork (Run.cons (hnone _ (by decide) _) (Run.cons trivial
    (Run.cons trivial (Run.cons trivial (Run.cons (hnone _ (by decide) _)
      (Run.cons trivial (Run.nil _)))))))

/-- The agent of a new probe gets the job of the deleted one. -/
theorem napoli_inherits : ¬ ∀ (hashToken : String → String) (env : Loader) (now : ℚ)
    (acts : List DeskAction) (s : Desk),
    Run (Desk.step hashToken env) (fun _ _ => True) (Desk.start now) acts s →
      Run (Desk.step hashToken env) HandsOwnWork (Desk.start now) acts s := by
  intro hclaim
  have hrun := hclaim id bareLoader 0
    [createNapoli "first", reloadNapoli, .delete "napoli", createNapoli "second", pollNapoli] _
    (Run.cons trivial (Run.cons trivial (Run.cons trivial (Run.cons trivial (Run.cons trivial
      (Run.nil _))))))
  have hborn : (afterDesk [createNapoli "first", reloadNapoli, .delete "napoli",
      createNapoli "second"]).born "napoli" = some 2 := by decide
  have haimed : ("j1", 1) ∈ (afterDesk [createNapoli "first", reloadNapoli, .delete "napoli",
      createNapoli "second"]).aimedAt := by decide
  have hgets : ((agentPollJobs
      (afterDesk [createNapoli "first", reloadNapoli, .delete "napoli",
        createNapoli "second"]).registry
      (afterDesk [createNapoli "first", reloadNapoli, .delete "napoli",
        createNapoli "second"]).jobs "napoli" 20 4).2.map Job.id) = ["j1"] := by decide
  have hlast := hrun.tail.tail.tail.tail.head
  obtain ⟨j, hj, hid⟩ := List.mem_map.mp (hgets ▸ List.mem_singleton_self "j1")
  have hsame := hlast j hj 1 (by rw [hid]; exact haimed)
  exact absurd (hsame.symm.trans hborn) (by simp)

end SentinelNet.Probes
