import SentinelNet.Lib.Runs
import SentinelNet.Observability.Window

/-!
# The queue of jobs

The table `command_jobs` of `services/probe_manager.py` carries commands to the agents of the
probes.  An agent claims the pending jobs of its probe and answers them.  Claiming looks at the
status of a job; answering looks at its probe only, so that an answer to a job that was never
claimed, or a second answer, is recorded too.

* `enqueueJob`, `claimPendingJobs`, `completeJob`: the operations.
* `run_deliversOnce`: when each job is handed out once at most, and moves on only.
-/

namespace SentinelNet.Probes

open Observability PyDict PyText StepRuns

/-! ## The table -/

inductive JobStatus where
  | pending | running | done | error
  deriving DecidableEq

/-- A row of `command_jobs`. -/
structure Job where
  id : String
  probeId : String
  deviceIp : String
  command : String
  kind : String
  blacklistBypass : Bool
  status : JobStatus
  result : String
  requestedBy : String
  created : ℚ
  updated : ℚ

/-- The rows in the order in which they were inserted. -/
abbrev JobTable := List Job

def validJobKinds : List String := ["cli", "rest", "triage"]

def restRelayAllowlist : List String :=
  ["monitor/firewall/policy-lookup", "monitor/firewall/session", "monitor/firewall/policy",
    "monitor/router/ipv4", "monitor/vpn/ipsec", "monitor/network/arp", "monitor/system/interface",
    "monitor/system/status", "log/*/traffic/forward"]

/-- `fnmatch.fnmatchcase`, for patterns whose only wildcard is the star. -/
def globMatch : List Char → List Char → Bool
  | [], cs => cs.isEmpty
  | p :: ps, cs =>
    if p = '*' then cs.tails.any (globMatch ps)
    else
      match cs with
      | [] => false
      | c :: cs => p = c && globMatch ps cs

def restPathAllowed (path : String) : Bool :=
  let p := (strip path).toList.dropWhile (· = '/')
  !p.isEmpty && !contains (String.ofList p) ".." && !contains (String.ofList p) "://" &&
    restRelayAllowlist.any fun pattern => globMatch pattern.toList p

/-- Python as far as jobs need it: `json.loads`, and how a value is shown in a message. -/
structure Loader where
  loads : String → Option Json
  repr : Json → String

/-- `path or ""` of a text; `none` where it has no `strip`. -/
def pathText (v : Json) : Option String := if v.truthy then v.text? else some ""

section Operations

variable (env : Loader)

/-- The check of a job of kind `rest`. -/
def checkRestSpec (command : String) : Except String Unit :=
  match env.loads command with
  | none => .error "Job REST: 'command' deve essere un JSON valido."
  | some (.obj spec) =>
    match pathText ((get? spec "path").getD (.str "")) with
    | none => .error "AttributeError: strip"
    | some path =>
      if restPathAllowed path then .ok ()
      else .error ("Percorso REST non consentito nel relay: " ++
        env.repr ((get? spec "path").getD .null) ++ ". Consentiti (sola lettura): " ++
        join ", " restRelayAllowlist)
  | some _ => .error "AttributeError: get"

structure JobRequest where
  probeId : String
  deviceIp : String
  command : String
  requestedBy : String := ""
  kind : String := "cli"
  blacklistBypass : Bool := false

def newJob (req : JobRequest) (jobId : String) (now : ℚ) : Job where
  id := jobId
  probeId := req.probeId
  deviceIp := req.deviceIp
  command := req.command
  kind := req.kind
  blacklistBypass := req.blacklistBypass
  status := .pending
  result := ""
  requestedBy := req.requestedBy
  created := now
  updated := now

/-- `enqueue_job`, with the number that `uuid4` draws. -/
def enqueueJob (jobs : JobTable) (req : JobRequest) (jobId : String) (now : ℚ) :
    Except String JobTable :=
  if req.kind ∉ validJobKinds then .error ("Tipo di job non valido: " ++ req.kind)
  else
    match if req.kind = "rest" then checkRestSpec env req.command else .ok () with
    | .error e => .error e
    | .ok () =>
      if jobs.any fun j => j.id = jobId then .error "UNIQUE constraint failed: command_jobs.id"
      else .ok (jobs ++ [newJob req jobId now])

end Operations

def Job.pendingFor (probeId : String) (j : Job) : Bool :=
  j.probeId = probeId && j.status = .pending

/-- Older jobs first. -/
abbrev createdLe (a b : Job) : Prop := a.created ≤ b.created

/-- The rows that a claim selects. -/
def claimable (jobs : JobTable) (probeId : String) (limit : ℕ) : List Job :=
  ((jobs.filter (Job.pendingFor probeId)).insertionSort createdLe).take limit

def Job.run (now : ℚ) (j : Job) : Job := { j with status := .running, updated := now }

def claimPendingJobs (jobs : JobTable) (probeId : String) (limit : ℕ) (now : ℚ) :
    JobTable × List Job :=
  let rows := claimable jobs probeId limit
  (jobs.map fun j => if j.id ∈ rows.map Job.id then j.run now else j,
    rows.map fun j => { j with status := .running })

def answerStatus (status : String) : JobStatus := if status = "error" then .error else .done

def Job.answer (status result : String) (now : ℚ) (j : Job) : Job :=
  { j with status := answerStatus status, result := result, updated := now }

/-- `complete_job`: whether there is such a job of the probe, and the table. -/
def completeJob (jobs : JobTable) (jobId probeId status result : String) (now : ℚ) :
    Bool × JobTable :=
  (jobs.any fun j => j.id = jobId && j.probeId = probeId,
    jobs.map fun j => if j.id = jobId ∧ j.probeId = probeId then j.answer status result now else j)

/-! ## Exchanges -/

/-- A call of the central or of an agent, which is authenticated as its probe. -/
inductive JobAction where
  | enqueue (req : JobRequest) (jobId : String) (now : ℚ)
  | claim (probeId : String) (limit : ℕ) (now : ℚ)
  | complete (jobId probeId status result : String) (now : ℚ)

/-- The table, and all jobs that were handed out, with the probe whose agent got them. -/
structure Exchange where
  jobs : JobTable
  handed : List (String × Job)

/-- Before anything was enqueued. -/
def Exchange.empty : Exchange := ⟨[], []⟩

/-- A call. -/
def Exchange.step (env : Loader) (s : Exchange) : JobAction → Exchange
  | .enqueue req jobId now =>
    match enqueueJob env s.jobs req jobId now with
    | .ok jobs => { s with jobs := jobs }
    | .error _ => s
  | .claim probeId limit now =>
    ⟨(claimPendingJobs s.jobs probeId limit now).1,
      s.handed ++ (claimPendingJobs s.jobs probeId limit now).2.map fun j => (probeId, j)⟩
  | .complete jobId probeId status result now =>
    { s with jobs := (completeJob s.jobs jobId probeId status result now).2 }

/-- A job moves from pending over running to done or error, and then no more. -/
def MovesOn (old new : Job) : Prop :=
  (old.status = new.status ∧ old.result = new.result) ∨
    (old.status = .pending ∧ new.status = .running) ∨
    (old.status = .running ∧ (new.status = .done ∨ new.status = .error))

/-- Every job is still there, and moved on at most. -/
def AllMoveOn (before after : JobTable) : Prop :=
  ∀ old ∈ before, ∃ new ∈ after, new.id = old.id ∧ new.probeId = old.probeId ∧
    new.created = old.created ∧ MovesOn old new

def Exchange.handedTo (s : Exchange) (probeId : String) : List Job :=
  (s.handed.filter fun e => e.1 = probeId).map Prod.snd

/-- Each job was handed out once at most, to its own probe, and the jobs of a probe in the order in
which they were created. -/
structure DeliversOnce (s : Exchange) : Prop where
  once : (s.handed.map fun e => e.2.id).Nodup
  own : ∀ e ∈ s.handed, e.2.probeId = e.1
  inOrder : ∀ probeId, (s.handedTo probeId).Pairwise createdLe ∧
    ((s.handedTo probeId).map Job.id).Sublist
      ((s.jobs.filter fun j => j.probeId = probeId).map Job.id)

/-- A call keeps the order of deliveries and moves jobs on. -/
def DeliversStep (env : Loader) (s : Exchange) (a : JobAction) : Prop :=
  DeliversOnce (s.step env a) ∧ AllMoveOn s.jobs (s.step env a).jobs

/-- The answer to a job of the probe is to a running one, or says again what is there. -/
def AnswersRunning (s : Exchange) : JobAction → Prop
  | .complete jobId probeId status result _ => ∀ j ∈ s.jobs, j.id = jobId → j.probeId = probeId →
      j.status = .running ∨ (j.status = answerStatus status ∧ j.result = result)
  | _ => True

/-- A job is not enqueued before an earlier one of its probe. -/
def ClockForward (s : Exchange) : JobAction → Prop
  | .enqueue req _ now => ∀ j ∈ s.jobs, j.probeId = req.probeId → j.created ≤ now
  | _ => True

/-! ## Tables -/

/-- What tells jobs apart and orders them. -/
def Job.key (j : Job) : String × ℚ := (j.id, j.created)

def ofProbe (jobs : JobTable) (probeId : String) : List Job :=
  jobs.filter fun j => j.probeId = probeId

theorem pairwise_key {l : List Job} :
    (l.map Job.key).Pairwise (fun a b => a.2 ≤ b.2) ↔ l.Pairwise createdLe := List.pairwise_map

/-- A job with another status, result and time. -/
structure SameJob (old new : Job) : Prop where
  id : new.id = old.id
  probeId : new.probeId = old.probeId
  created : new.created = old.created

variable {f : Job → Job}

theorem map_key_ofProbe (hf : ∀ j, SameJob j (f j)) (jobs : JobTable) (probeId : String) :
    (ofProbe (jobs.map f) probeId).map Job.key = (ofProbe jobs probeId).map Job.key := by
  have hkey : Job.key ∘ f = Job.key :=
    funext fun j => by rw [Function.comp_apply, Job.key, (hf j).id, (hf j).created, Job.key]
  have hprobe : ((fun j : Job => decide (j.probeId = probeId)) ∘ f) =
      fun j => decide (j.probeId = probeId) :=
    funext fun j => by rw [Function.comp_apply, (hf j).probeId]
  rw [ofProbe, List.filter_map, hprobe, List.map_map, hkey, ofProbe]

theorem map_id_map (hf : ∀ j, SameJob j (f j)) (jobs : JobTable) :
    (jobs.map f).map Job.id = jobs.map Job.id := by
  rw [List.map_map]
  exact List.map_congr_left fun j _ => (hf j).id

variable {jobs : JobTable}

theorem filter_map_of_fixes {p q : Job → Bool}
    (hpq : ∀ j ∈ jobs, p (f j) = q j) (hfix : ∀ j ∈ jobs, q j = true → f j = j) :
    (jobs.map f).filter p = jobs.filter q := by
  have hcongr : jobs.filter (p ∘ f) = jobs.filter q := List.filter_congr hpq
  rw [List.filter_map, hcongr]
  refine (List.map_congr_left fun j hj => ?_).trans (List.map_id _)
  exact hfix j (List.mem_filter.mp hj).1 (List.mem_filter.mp hj).2

theorem filter_not_mem_take {l : List Job} (h : (l.map Job.id).Nodup) (k : ℕ) :
    l.filter (fun j => j.id ∉ (l.take k).map Job.id) = l.drop k := by
  have hsplit : l.take k ++ l.drop k = l := List.take_append_drop k l
  have hdisjoint : ∀ j ∈ l.drop k, j.id ∉ (l.take k).map Job.id := by
    intro j hj hmem
    rw [← hsplit, List.map_append, List.nodup_append] at h
    exact h.2.2 _ hmem _ (List.mem_map_of_mem hj) rfl
  have hfirst : (l.take k).filter (fun j => j.id ∉ (l.take k).map Job.id) = [] :=
    List.filter_eq_nil_iff.mpr fun j hj hout => of_decide_eq_true hout (List.mem_map_of_mem hj)
  have hrest : (l.drop k).filter (fun j => j.id ∉ (l.take k).map Job.id) = l.drop k :=
    List.filter_eq_self.mpr fun j hj => decide_eq_true (hdisjoint j hj)
  calc l.filter (fun j => j.id ∉ (l.take k).map Job.id)
      = (l.take k ++ l.drop k).filter (fun j => j.id ∉ (l.take k).map Job.id) := by rw [hsplit]
    _ = l.drop k := by rw [List.filter_append, hfirst, hrest, List.nil_append]

variable {probeId : String}

theorem pendingFor_iff {j : Job} :
    j.pendingFor probeId = true ↔ j.probeId = probeId ∧ j.status = .pending := by
  rw [Job.pendingFor, Bool.and_eq_true, decide_eq_true_eq, decide_eq_true_eq]

theorem pendingFor_sublist (jobs : JobTable) (probeId : String) :
    (jobs.filter (Job.pendingFor probeId)).Sublist (ofProbe jobs probeId) :=
  List.monotone_filter_right jobs fun _ hj => decide_eq_true (pendingFor_iff.mp hj).1

/-! ## What a claim selects -/

theorem mem_claimable {limit : ℕ} {j : Job} (h : j ∈ claimable jobs probeId limit) :
    j ∈ jobs ∧ j.probeId = probeId ∧ j.status = .pending := by
  have hmem := List.mem_of_mem_take h
  rw [List.mem_insertionSort, List.mem_filter] at hmem
  exact ⟨hmem.1, pendingFor_iff.mp hmem.2⟩

theorem claimable_eq (hclock : (ofProbe jobs probeId).Pairwise createdLe) (limit : ℕ) :
    claimable jobs probeId limit = (jobs.filter (Job.pendingFor probeId)).take limit := by
  rw [claimable, (hclock.sublist (pendingFor_sublist jobs probeId)).insertionSort_eq]

theorem pending_of_mem_claimable {limit : ℕ}
    (hids : (jobs.map Job.id).Nodup) {j : Job} (hj : j ∈ jobs)
    (h : j.id ∈ (claimable jobs probeId limit).map Job.id) :
    j.probeId = probeId ∧ j.status = .pending := by
  obtain ⟨row, hrow, hid⟩ := List.mem_map.mp h
  have hsame := List.inj_on_of_nodup_map hids (mem_claimable hrow).1 hj hid
  rw [← hsame]
  exact (mem_claimable hrow).2

theorem sameJob_run (ids : List String) (now : ℚ) (j : Job) :
    SameJob j (if j.id ∈ ids then j.run now else j) := by
  split
  · exact ⟨rfl, rfl, rfl⟩
  · exact ⟨rfl, rfl, rfl⟩

theorem sameJob_answer (jobId probeId status result : String) (now : ℚ) (j : Job) :
    SameJob j (if j.id = jobId ∧ j.probeId = probeId then j.answer status result now else j) := by
  split
  · exact ⟨rfl, rfl, rfl⟩
  · exact ⟨rfl, rfl, rfl⟩

theorem pending_after_claim
    (hids : (jobs.map Job.id).Nodup) (hclock : (ofProbe jobs probeId).Pairwise createdLe)
    (limit : ℕ) (now : ℚ) (other : String) :
    (claimPendingJobs jobs probeId limit now).1.filter (Job.pendingFor other) =
      if other = probeId then (jobs.filter (Job.pendingFor probeId)).drop limit
      else jobs.filter (Job.pendingFor other) := by
  set rows := claimable jobs probeId limit with hrows
  have hstep : (claimPendingJobs jobs probeId limit now).1.filter (Job.pendingFor other) =
      jobs.filter fun j => j.pendingFor other && j.id ∉ rows.map Job.id := by
    refine filter_map_of_fixes (fun j _ => ?_) (fun j _ hj => ?_)
    · by_cases hin : j.id ∈ rows.map Job.id
      · rw [if_pos hin]
        simp [Job.pendingFor, Job.run, hin]
      · rw [if_neg hin]
        simp [hin]
    · rw [Bool.and_eq_true, decide_eq_true_eq] at hj
      exact if_neg hj.2
  rw [hstep]
  split
  · next hother =>
    subst hother
    have hnodup : ((jobs.filter (Job.pendingFor other)).map Job.id).Nodup :=
      hids.sublist (List.filter_sublist.map _)
    rw [← filter_not_mem_take hnodup limit, ← claimable_eq hclock limit, List.filter_filter]
    exact List.filter_congr fun _ _ => Bool.and_comm _ _
  · next hother =>
    refine List.filter_congr fun j hj => ?_
    by_cases hpending : j.pendingFor other = true
    · have hout : j.id ∉ rows.map Job.id := fun hin =>
        hother ((pendingFor_iff.mp hpending).1.symm.trans (pending_of_mem_claimable hids hj hin).1)
      rw [hpending, decide_eq_true hout]
      rfl
    · rw [Bool.not_eq_true] at hpending
      rw [hpending, Bool.false_and]

/-! ## The order of deliveries -/

/-- What was handed out to a probe and what is pending for it comes in the order of the table, which
is that of the clock; what was handed out is not pending. -/
structure Exchange.Ordered (s : Exchange) : Prop where
  ids : (s.jobs.map Job.id).Nodup
  clock : ∀ probeId, (ofProbe s.jobs probeId).Pairwise createdLe
  own : ∀ e ∈ s.handed, e.2.probeId = e.1
  once : (s.handed.map fun e => e.2.id).Nodup
  started : ∀ e ∈ s.handed, ∃ j ∈ s.jobs, j.id = e.2.id ∧ j.status ≠ .pending
  order : ∀ probeId, ((s.handedTo probeId).map Job.key ++
    (s.jobs.filter (Job.pendingFor probeId)).map Job.key).Sublist
      ((ofProbe s.jobs probeId).map Job.key)

theorem ordered_empty : Exchange.empty.Ordered where
  ids := List.nodup_nil
  clock _ := List.Pairwise.nil
  own _ he := nomatch he
  once := List.nodup_nil
  started _ he := nomatch he
  order _ := List.Sublist.refl _

variable {s : Exchange}

theorem Exchange.Ordered.map (h : s.Ordered) (hf : ∀ j, SameJob j (f j))
    (hpending : ∀ j ∈ s.jobs, (f j).status = .pending ↔ j.status = .pending)
    (hfix : ∀ j ∈ s.jobs, j.status = .pending → f j = j) :
    Exchange.Ordered { s with jobs := s.jobs.map f } where
  ids := by
    show ((s.jobs.map f).map Job.id).Nodup
    rw [map_id_map hf]
    exact h.ids
  clock probeId := by
    have hcreated := pairwise_key.mpr (h.clock probeId)
    rw [← map_key_ofProbe hf] at hcreated
    exact pairwise_key.mp hcreated
  own := h.own
  once := h.once
  started e he := by
    obtain ⟨j, hj, hid, hstarted⟩ := h.started e he
    exact ⟨f j, List.mem_map_of_mem hj, (hf j).id.trans hid,
      fun hp => hstarted ((hpending j hj).mp hp)⟩
  order probeId := by
    show ((s.handedTo probeId).map Job.key ++
      ((s.jobs.map f).filter (Job.pendingFor probeId)).map Job.key).Sublist _
    have hsame : (s.jobs.map f).filter (Job.pendingFor probeId) =
        s.jobs.filter (Job.pendingFor probeId) := by
      refine filter_map_of_fixes (fun j hj => ?_) fun j hj hp =>
        hfix j hj (pendingFor_iff.mp hp).2
      rw [Bool.eq_iff_iff, pendingFor_iff, pendingFor_iff, (hf j).probeId, hpending j hj]
    rw [hsame]
    show List.Sublist _ ((ofProbe (s.jobs.map f) probeId).map Job.key)
    rw [map_key_ofProbe hf]
    exact h.order probeId

variable {jobId : String}

theorem enqueueJob_ok {env : Loader} {jobs' : JobTable} {req : JobRequest}
    {now : ℚ} (h : enqueueJob env jobs req jobId now = .ok jobs') :
    (∀ j ∈ jobs, j.id ≠ jobId) ∧ jobs' = jobs ++ [newJob req jobId now] := by
  rw [enqueueJob] at h
  split at h
  · simp at h
  · split at h
    · simp at h
    · split at h
      · simp at h
      · next hnew =>
        refine ⟨fun j hj hid => hnew ?_, (Except.ok.inj h).symm⟩
        exact List.any_eq_true.mpr ⟨j, hj, decide_eq_true hid⟩

theorem Exchange.Ordered.enqueue (h : s.Ordered) {req : JobRequest}
    {now : ℚ} (hnew : ∀ j ∈ s.jobs, j.id ≠ jobId)
    (hclock : ∀ j ∈ s.jobs, j.probeId = req.probeId → j.created ≤ now) :
    Exchange.Ordered { s with jobs := s.jobs ++ [newJob req jobId now] } where
  ids := by
    show ((s.jobs ++ [_]).map Job.id).Nodup
    rw [List.map_append, List.nodup_append]
    refine ⟨h.ids, by simp, fun a ha b hb hab => ?_⟩
    obtain ⟨j, hj, rfl⟩ := List.mem_map.mp ha
    exact hnew j hj (hab.trans (List.mem_singleton.mp hb))
  clock probeId := by
    show (List.filter _ (s.jobs ++ [_])).Pairwise createdLe
    rw [List.filter_append, List.pairwise_append]
    refine ⟨h.clock probeId, List.Pairwise.sublist List.filter_sublist (List.pairwise_singleton _ _),
      fun a ha b hb => ?_⟩
    obtain ⟨hb, hprobe⟩ := List.mem_filter.mp hb
    rw [List.mem_singleton.mp hb] at hprobe ⊢
    have haprobe := of_decide_eq_true (List.mem_filter.mp ha).2
    exact hclock a (List.mem_filter.mp ha).1 (haprobe.trans (of_decide_eq_true hprobe).symm)
  own := h.own
  once := h.once
  started e he := by
    obtain ⟨j, hj, hrest⟩ := h.started e he
    exact ⟨j, List.mem_append_left _ hj, hrest⟩
  order probeId := by
    show (_ ++ ((s.jobs ++ [newJob req jobId now]).filter _).map Job.key).Sublist
      (((s.jobs ++ [newJob req jobId now]).filter _).map Job.key)
    rw [List.filter_append, List.map_append, ← List.append_assoc, List.filter_append,
      List.map_append]
    refine (h.order probeId).append (List.Sublist.map _ ?_)
    exact List.monotone_filter_right _ fun j hj => decide_eq_true (pendingFor_iff.mp hj).1

theorem handedTo_append (s : Exchange) (probeId other : String) (jobs : JobTable)
    (rows : List Job) :
    Exchange.handedTo ⟨jobs, s.handed ++ rows.map fun j => (probeId, j)⟩ other =
      s.handedTo other ++ if other = probeId then rows else [] := by
  rw [Exchange.handedTo, Exchange.handedTo, List.filter_append, List.map_append]
  refine congrArg (_ ++ ·) ?_
  rw [List.filter_map, List.map_map]
  split
  · next hother =>
    subst hother
    have hall : rows.filter ((fun e : String × Job => decide (e.1 = other)) ∘ fun j => (other, j)) =
        rows := List.filter_eq_self.mpr fun _ _ => decide_eq_true rfl
    rw [hall]
    exact List.map_id _
  · next hother =>
    have hnone : rows.filter ((fun e : String × Job => decide (e.1 = other)) ∘
        fun j => (probeId, j)) = [] :=
      List.filter_eq_nil_iff.mpr fun _ _ h => hother (of_decide_eq_true h).symm
    rw [hnone, List.map_nil]

theorem Exchange.Ordered.claim (h : s.Ordered) (env : Loader) (probeId : String)
    (limit : ℕ) (now : ℚ) : (s.step env (.claim probeId limit now)).Ordered := by
  set rows := claimable s.jobs probeId limit with hrows
  have hsame := sameJob_run (rows.map Job.id) now
  have hkey : (claimPendingJobs s.jobs probeId limit now).2.map Job.key = rows.map Job.key := by
    rw [claimPendingJobs, List.map_map]
    exact List.map_congr_left fun _ _ => rfl
  have htake := claimable_eq (h.clock probeId) limit
  -- a claimed row was pending, and one that was handed out before was not
  have hfresh : ∀ row ∈ rows, ∀ e ∈ s.handed, e.2.id ≠ row.id := by
    intro row hrow e he hid
    obtain ⟨j, hj, hje, hstarted⟩ := h.started e he
    have hin : j.id ∈ rows.map Job.id := by
      rw [hje, hid]
      exact List.mem_map_of_mem hrow
    exact hstarted (pending_of_mem_claimable h.ids hj hin).2
  constructor
  · show ((s.jobs.map _).map Job.id).Nodup
    rw [map_id_map hsame]
    exact h.ids
  · intro q
    have hcreated := pairwise_key.mpr (h.clock q)
    rw [← map_key_ofProbe hsame] at hcreated
    exact pairwise_key.mp hcreated
  · intro e he
    rcases List.mem_append.mp he with he | he
    · exact h.own e he
    · obtain ⟨j, hj, rfl⟩ := List.mem_map.mp he
      obtain ⟨row, hrow, rfl⟩ := List.mem_map.mp hj
      exact (mem_claimable hrow).2.1
  · show ((s.handed ++ _).map _).Nodup
    rw [List.map_append, List.nodup_append]
    refine ⟨h.once, ?_, fun a ha b hb hab => ?_⟩
    · rw [List.map_map, claimPendingJobs, List.map_map]
      show (rows.map Job.id).Nodup
      rw [hrows, htake]
      exact h.ids.sublist (((List.take_sublist _ _).trans List.filter_sublist).map _)
    · obtain ⟨e, he, rfl⟩ := List.mem_map.mp ha
      obtain ⟨e', he', rfl⟩ := List.mem_map.mp hb
      obtain ⟨j, hj, rfl⟩ := List.mem_map.mp he'
      obtain ⟨row, hrow, rfl⟩ := List.mem_map.mp hj
      exact hfresh row hrow e he hab
  · intro e he
    rcases List.mem_append.mp he with he | he
    · obtain ⟨j, hj, hje, hstarted⟩ := h.started e he
      refine ⟨_, List.mem_map_of_mem hj, (hsame j).id.trans hje, ?_⟩
      split
      · exact fun hp => absurd hp (by simp [Job.run])
      · exact hstarted
    · obtain ⟨j, hj, rfl⟩ := List.mem_map.mp he
      obtain ⟨row, hrow, rfl⟩ := List.mem_map.mp hj
      refine ⟨_, List.mem_map_of_mem (mem_claimable hrow).1, (hsame row).id, ?_⟩
      rw [if_pos (List.mem_map_of_mem hrow)]
      exact fun hp => absurd hp (by simp [Job.run])
  · intro q
    show (List.map Job.key (Exchange.handedTo ⟨_, s.handed ++ _⟩ q) ++ _).Sublist
      ((ofProbe (s.jobs.map _) q).map Job.key)
    rw [handedTo_append, map_key_ofProbe hsame, List.map_append]
    show (_ ++ ((claimPendingJobs s.jobs probeId limit now).1.filter _).map Job.key).Sublist _
    rw [pending_after_claim h.ids (h.clock probeId)]
    by_cases hq : q = probeId
    · subst hq
      rw [if_pos rfl, if_pos rfl, hkey, hrows, htake, List.append_assoc, ← List.map_append,
        List.take_append_drop]
      exact h.order q
    · rw [if_neg hq, if_neg hq, List.map_nil, List.append_nil]
      exact h.order q

theorem answerStatus_ne_pending (status : String) : answerStatus status ≠ .pending := by
  rw [answerStatus]
  split
  · simp
  · simp

theorem Exchange.Ordered.complete (h : s.Ordered) (env : Loader) {status result : String} {now : ℚ}
    (hrunning : AnswersRunning s (.complete jobId probeId status result now)) :
    (s.step env (.complete jobId probeId status result now)).Ordered := by
  have hnot : ∀ j ∈ s.jobs, j.id = jobId ∧ j.probeId = probeId → j.status ≠ .pending := by
    intro j hj hmatch hp
    rcases hrunning j hj hmatch.1 hmatch.2 with hrun | ⟨hsame, -⟩
    · exact absurd (hp.symm.trans hrun) (by simp)
    · exact answerStatus_ne_pending status (hsame.symm.trans hp)
  refine h.map (sameJob_answer jobId probeId status result now) (fun j hj => ?_) fun j hj hp => ?_
  · split
    · next hmatch =>
      exact ⟨fun hp => absurd hp (answerStatus_ne_pending status),
        fun hp => absurd hp (hnot j hj hmatch)⟩
    · exact Iff.rfl
  · exact if_neg fun hmatch => hnot j hj hmatch hp

theorem Exchange.Ordered.step (h : s.Ordered) (env : Loader) {a : JobAction}
    (hrunning : AnswersRunning s a) (hclock : ClockForward s a) : (s.step env a).Ordered := by
  cases a with
  | enqueue req jobId now =>
    rw [Exchange.step]
    split
    · next jobs hjobs =>
      obtain ⟨hnew, rfl⟩ := enqueueJob_ok hjobs
      exact h.enqueue hnew hclock
    · exact h
  | claim probeId limit now => exact h.claim env probeId limit now
  | complete jobId probeId status result now => exact h.complete env hrunning

theorem Exchange.Ordered.deliversOnce (h : s.Ordered) : DeliversOnce s where
  once := h.once
  own := h.own
  inOrder probeId := by
    have hkeys := (List.sublist_append_left _ _).trans (h.order probeId)
    constructor
    · exact pairwise_key.mp ((pairwise_key.mpr (h.clock probeId)).sublist hkeys)
    · have hids := hkeys.map Prod.fst
      rw [List.map_map, List.map_map] at hids
      exact hids

/-! ## The moves of jobs -/

theorem movesOn_refl (j : Job) : MovesOn j j := Or.inl ⟨rfl, rfl⟩

theorem allMoveOn_step (h : s.Ordered) (env : Loader) {a : JobAction}
    (hrunning : AnswersRunning s a) : AllMoveOn s.jobs (s.step env a).jobs := by
  intro j hj
  cases a with
  | enqueue req jobId now =>
    refine ⟨j, ?_, rfl, rfl, rfl, movesOn_refl j⟩
    rw [Exchange.step]
    split
    · next jobs hjobs =>
      obtain ⟨-, rfl⟩ := enqueueJob_ok hjobs
      exact List.mem_append_left _ hj
    · exact hj
  | claim probeId limit now =>
    have hsame := sameJob_run ((claimable s.jobs probeId limit).map Job.id) now j
    refine ⟨_, List.mem_map_of_mem hj, hsame.id, hsame.probeId, hsame.created, ?_⟩
    split
    · next hin =>
      exact Or.inr (Or.inl ⟨(pending_of_mem_claimable h.ids hj hin).2, rfl⟩)
    · exact movesOn_refl j
  | complete jobId probeId status result now =>
    have hsame := sameJob_answer jobId probeId status result now j
    refine ⟨_, List.mem_map_of_mem hj, hsame.id, hsame.probeId, hsame.created, ?_⟩
    split
    · next hmatch =>
      rcases hrunning j hj hmatch.1 hmatch.2 with hrun | hagain
      · refine Or.inr (Or.inr ⟨hrun, ?_⟩)
        show answerStatus status = .done ∨ answerStatus status = .error
        rw [answerStatus]
        split
        · exact Or.inr rfl
        · exact Or.inl rfl
      · exact Or.inl hagain
    · exact movesOn_refl j

/-- In every run whose answers are to running jobs and whose clock does not go back, each job is
handed out once at most, to its own probe and in order, and only moves on. -/
theorem run_deliversOnce {env : Loader} {acts : List JobAction} {s : Exchange}
    (h : Run (Exchange.step env) (fun s a => AnswersRunning s a ∧ ClockForward s a)
      Exchange.empty acts s) :
    Run (Exchange.step env) (DeliversStep env) Exchange.empty acts s :=
  h.mono (I := Exchange.Ordered) (fun _ _ hs ha => hs.step env ha.1 ha.2)
    (fun _ _ hs ha => ⟨(hs.step env ha.1 ha.2).deliversOnce, allMoveOn_step hs env ha.1⟩)
    ordered_empty

/-! ## A second answer -/

/-- No JSON is read. -/
def bareLoader : Loader := ⟨fun _ => none, fun _ => ""⟩

/-- A command for a switch of the site. -/
def showClock : JobAction :=
  .enqueue { probeId := "milan", deviceIp := "10.0.0.2", command := "show clock" } "j1" 1

/-- The agent asks for work. -/
def pollMilan : JobAction := .claim "milan" 20 2

def answerClock : JobAction := .complete "j1" "milan" "done" "12:00 UTC" 3

/-- The state after some calls. -/
def afterCalls (acts : List JobAction) : Exchange := acts.foldl (Exchange.step bareLoader) .empty

instance (s : Exchange) (a : JobAction) : Decidable (AnswersRunning s a) := by
  cases a with
  | complete jobId probeId status result now =>
    exact inferInstanceAs (Decidable (∀ j ∈ s.jobs, _ → _ → _))
  | _ => exact isTrue trivial

instance (s : Exchange) (a : JobAction) : Decidable (ClockForward s a) := by
  cases a with
  | enqueue req jobId now => exact inferInstanceAs (Decidable (∀ j ∈ s.jobs, _ → _))
  | _ => exact isTrue trivial

/-- A job that is claimed and answered. -/
theorem run_deliversOnce_clock :
    Run (Exchange.step bareLoader) (DeliversStep bareLoader) Exchange.empty
      [showClock, pollMilan, answerClock] (afterCalls [showClock, pollMilan, answerClock]) :=
  run_deliversOnce (Run.cons (by decide) (Run.cons (by decide)
    (Run.cons (by decide) (Run.nil _))))

/-- A second answer replaces the first one. -/
theorem second_answer_recorded : ¬ ∀ (env : Loader) (acts : List JobAction) (s : Exchange),
    Run (Exchange.step env) ClockForward Exchange.empty acts s →
      Run (Exchange.step env) (DeliversStep env) Exchange.empty acts s := by
  intro hclaim
  have hrun := hclaim bareLoader
    [showClock, pollMilan, answerClock, .complete "j1" "milan" "error" "timeout" 4] _
    (Run.cons (by decide) (Run.cons (by decide) (Run.cons (by decide)
      (Run.cons (by decide) (Run.nil _)))))
  have hbefore : ∀ j ∈ (afterCalls [showClock, pollMilan, answerClock]).jobs, j.status = .done ∧
      j.result = "12:00 UTC" := by decide
  have hafter : ∀ j ∈ (afterCalls [showClock, pollMilan, answerClock,
      .complete "j1" "milan" "error" "timeout" 4]).jobs, j.status = .error := by decide
  have hthere : (afterCalls [showClock, pollMilan, answerClock]).jobs ≠ [] := by
    have hlength : (afterCalls [showClock, pollMilan, answerClock]).jobs.length = 1 := by
      decide
    exact List.ne_nil_of_length_eq_add_one hlength
  have hlast := hrun.tail.tail.tail.head
  obtain ⟨old, hold⟩ := List.exists_mem_of_ne_nil _ hthere
  obtain ⟨new, hnew, -, -, -, hmove⟩ := hlast.2 old hold
  have hdone := (hbefore old hold).1
  have herror := hafter new hnew
  rw [MovesOn, hdone, herror] at hmove
  simp at hmove

end SentinelNet.Probes
