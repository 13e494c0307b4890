import SentinelNet.Probes.Relay

/-!
# Who manages the agents

The queue of the commands together with its routes and the agents that work it off.  Nothing keeps
an operator from sending a text that an agent takes for a management action.

* `Relay`, `Relay.step`: the queue, what administrators enqueued, and what agents carried out.
* `onlyAdministrators_of_guarded`: when it holds.
-/

namespace SentinelNet.Probes

open Observability PyDict PyText StepRuns Outcomes
open Inventory (Host Unicode)

/-! ## The machine -/

/-- A job that a route `agent/…` enqueued, with who asked for it and what the route read. -/
structure Grant where
  jobId : String
  view : RouteView
  me : Caller

/-- The queue; what the routes `agent/…` enqueued, and the management actions that were carried out,
are kept to speak about them. -/
structure Relay where
  jobs : JobTable
  grants : List Grant
  executed : List (Job × Management)

/-- Before the first request. -/
def Relay.empty : Relay := ⟨[], [], []⟩

/-- A request, a job of the central itself, a visit of an agent, or its answer. -/
inductive RelayAction where
  | command (view : RouteView) (me : Caller) (probeId ip text jobId : String) (now : ℚ)
  | send (view : RouteView) (me : Caller) (ip text jobId : String) (now : ℚ)
  | manage (view : RouteView) (me : Caller) (probeId : String) (task : AgentTask) (jobId : String)
      (now : ℚ)
  /-- A job `triage`, as the triage enqueues it. -/
  | triage (probeId ip requestedBy jobId : String) (now : ℚ)
  /-- A job `rest`, as the diagnosis of a client enqueues it. -/
  | diagnose (probeId ip spec jobId : String) (now : ℚ)
  | poll (probeId : String) (known : List String) (now : ℚ)
  | answer (jobId probeId status result : String) (now : ℚ)

section Steps

variable (env : Loader) (u : Unicode)

/-- A job gets into the queue if the table takes it. -/
def Relay.enqueue (s : Relay) (req : JobRequest) (jobId : String) (now : ℚ) : Relay :=
  match enqueueJob env s.jobs req jobId now with
  | .ok jobs => { s with jobs := jobs }
  | .error _ => s

/-- The management actions of a visit. -/
def carriedOut (known : List String) (jobs : List Job) : List (Job × Management) :=
  jobs.filterMap fun j =>
    match handleJob known j with
    | .rpc (some action) => some (j, action)
    | _ => none

def Relay.step (s : Relay) : RelayAction → Relay
  | .command view me probeId ip text jobId now =>
    match probeCommandEp u view me probeId ip text with
    | .ok req => s.enqueue env req jobId now
    | .error _ => s
  | .send view me ip text jobId now =>
    match sendCommand u view me ip text with
    | .ok (some req) => s.enqueue env req jobId now
    | _ => s
  | .manage view me probeId task jobId now =>
    match agentRoute u view me probeId task with
    | .ok req =>
      match enqueueJob env s.jobs req jobId now with
      | .ok jobs => { s with jobs := jobs, grants := s.grants ++ [⟨jobId, view, me⟩] }
      | .error _ => s
    | .error _ => s
  | .triage probeId ip requestedBy jobId now =>
    s.enqueue env { probeId := probeId, deviceIp := ip, command := "", requestedBy := requestedBy,
                    kind := "triage" } jobId now
  | .diagnose probeId ip spec jobId now =>
    s.enqueue env { probeId := probeId, deviceIp := ip, command := spec,
                    requestedBy := "diagnosi client", kind := "rest" } jobId now
  | .poll probeId known now =>
    let (jobs, handed) := claimPendingJobs s.jobs probeId 20 now
    { s with jobs := jobs, executed := s.executed ++ carriedOut known handed }
  | .answer jobId probeId status result now =>
    { s with jobs := (completeJob s.jobs jobId probeId status result now).2 }

/-- A job was enqueued by a route `agent/…`, for an administrator without limits. -/
def Relay.Granted (s : Relay) (jobId : String) : Prop :=
  ∃ g ∈ s.grants, g.jobId = jobId ∧ g.view.isUnscopedAdmin g.me = true

/-- Agents are managed by administrators without limits only. -/
def OnlyAdministrators (s : Relay) : Prop := ∀ e ∈ s.executed, s.Granted e.1.id

/-! ## Operators' commands -/

/-- An operator may send a command to a device of an agent through `/api/probes/{id}/command`. -/
structure MayCommand (view : RouteView) (me : Caller) (probeId ip text : String) : Prop where
  tab : view.holdsTab me "tab-probes" = true
  operator : me.role ≠ .viewer
  oneLine : isOneLine text = true
  agent : ∃ probe, get? view.registry probeId = some probe ∧ probe.mode = .agent
  address : isAddressLike ip = true
  inScope : view.deviceInScope me ip = true
  allowed : view.commandAllowed me u text = true

/-- An operator may send a command to a device of an agent through `/api/send-command`. -/
structure MaySend (view : RouteView) (me : Caller) (ip text : String) : Prop where
  operator : me.role ≠ .viewer
  oneLine : isOneLine text = true
  allowed : view.commandAllowed me u text = true
  agent : ∃ d probe, view.device ip = some d ∧ view.groupAllowed me d.group = true ∧
    get? view.registry (Inventory.orElse d.probe "central") = some probe ∧ probe.mode = .agent

/-- A text that an agent takes for a management action. -/
def isManagement (text : String) : Bool :=
  startsWith text "_agent_" && (executeAgentRpc text).isSome

/-- No operator sends a management action where the routes let it through. -/
def Guarded (_ : Relay) : RelayAction → Prop
  | .command view me probeId ip text _ _ =>
    isManagement text = true → ¬MayCommand u view me probeId ip text
  | .send view me ip text _ _ => isManagement text = true → ¬MaySend u view me ip text
  | _ => True

/-! ## What the routes let through -/

variable {view : RouteView} {me : Caller} {probeId ip text jobId : String} {req : JobRequest}

theorem agentProbe_ok {detail : String} {probe : Probe}
    (h : view.agentProbe probeId detail = .ok probe) :
    get? view.registry probeId = some probe ∧ probe.mode = .agent := by
  unfold RouteView.agentProbe at h
  cases hget : get? view.registry probeId with
  | none =>
    rw [hget] at h
    cases h
  | some found =>
    rw [hget] at h
    by_cases hmode : found.mode = .agent
    · obtain rfl := Except.ok.inj ((if_pos hmode).symm.trans h)
      exact ⟨rfl, hmode⟩
    · exact nomatch (if_neg hmode).symm.trans h

theorem probeCommandEp_ok (h : probeCommandEp u view me probeId ip text = .ok req) :
    MayCommand u view me probeId ip text ∧ req = relayRequest u me probeId ip text := by
  obtain ⟨_, htab, h⟩ := bind_ok h
  obtain ⟨_, hrole, h⟩ := bind_ok h
  obtain ⟨_, hline, h⟩ := bind_ok h
  obtain ⟨probe, hprobe, h⟩ := bind_ok h
  obtain ⟨_, haddress, h⟩ := bind_ok h
  obtain ⟨_, hscope, h⟩ := bind_ok h
  obtain ⟨_, hallowed, h⟩ := bind_ok h
  exact ⟨⟨demand_ok htab, of_decide_eq_true (demand_ok hrole), demand_ok hline,
    ⟨probe, agentProbe_ok hprobe⟩, demand_ok haddress, demand_ok hscope, demand_ok hallowed⟩,
    (Except.ok.inj h).symm⟩

theorem sendCommand_ok (h : sendCommand u view me ip text = .ok (some req)) :
    MaySend u view me ip text ∧ ∃ id, req = relayRequest u me id ip text := by
  obtain ⟨_, hrole, h⟩ := bind_ok h
  obtain ⟨_, hline, h⟩ := bind_ok h
  obtain ⟨_, hallowed, h⟩ := bind_ok h
  cases hdevice : view.device ip with
  | none =>
    rw [hdevice] at h
    cases h
  | some d =>
    rw [hdevice] at h
    obtain ⟨_, hgroup, h⟩ := bind_ok h
    obtain ⟨probe, hprobe, rfl⟩ := Option.map_eq_some_iff.mp (Except.ok.inj h)
    obtain ⟨hprobe, hmode⟩ := Option.filter_eq_some_iff.mp hprobe
    exact ⟨⟨of_decide_eq_true (demand_ok hrole), demand_ok hline, demand_ok hallowed,
      ⟨d, probe, hdevice, demand_ok hgroup, hprobe, of_decide_eq_true hmode⟩⟩, probe.id, rfl⟩

theorem agentRoute_ok {task : AgentTask} (h : agentRoute u view me probeId task = .ok req) :
    view.isUnscopedAdmin me = true := by
  obtain ⟨_, _, h⟩ := bind_ok h
  obtain ⟨_, hadmin, h⟩ := bind_ok h
  obtain ⟨_, _, hadmin⟩ := bind_ok hadmin
  exact demand_ok hadmin

/-! ## The invariant -/

/-- Every job that an agent takes for a management action, and every one that it carried out, was
granted. -/
structure Relay.Sound (s : Relay) : Prop where
  queued : ∀ j ∈ s.jobs, ∀ known action, handleJob known j = .rpc (some action) → s.Granted j.id
  executed : OnlyAdministrators s

variable {s : Relay}

theorem Relay.Granted.mono {s' : Relay} {id : String} (h : s.Granted id)
    (hsub : s.grants ⊆ s'.grants) : s'.Granted id :=
  let ⟨g, hg, hid, hadmin⟩ := h
  ⟨g, hsub hg, hid, hadmin⟩

theorem Relay.Sound.enqueue {env : Loader} {now : ℚ} (hs : s.Sound)
    (hreq : ∀ known action, handleJob known (newJob req jobId now) ≠ .rpc (some action)) :
    (s.enqueue env req jobId now).Sound := by
  unfold Relay.enqueue
  cases henq : enqueueJob env s.jobs req jobId now with
  | error e => exact hs
  | ok jobs =>
    refine ⟨fun j hj known action h => ?_, hs.executed⟩
    rw [(enqueueJob_ok henq).2] at hj
    rcases List.mem_append.mp hj with hj | hj
    · exact hs.queued j hj known action h
    · rw [List.mem_singleton.mp hj] at h
      exact absurd h (hreq known action)

theorem isManagement_of_handleJob {known : List String} {action : Management} {id : String}
    {now : ℚ} (h : handleJob known (newJob (relayRequest u me id ip text) jobId now) =
      .rpc (some action)) : isManagement text = true := by
  obtain ⟨_, _, hstart, haction⟩ := handleJob_rpc h
  exact Bool.and_eq_true_iff.mpr ⟨hstart, Option.isSome_iff_exists.mpr ⟨action, haction⟩⟩

theorem mem_claimPendingJobs {jobs : JobTable} {limit : ℕ} {j : Job} (now : ℚ)
    (h : j ∈ (claimPendingJobs jobs probeId limit now).2) :
    ∃ old ∈ jobs, j = { old with status := .running } := by
  obtain ⟨old, hold, rfl⟩ := List.mem_map.mp h
  exact ⟨old, (mem_claimable hold).1, rfl⟩

theorem mem_carriedOut {known : List String} {jobs : List Job} {e : Job × Management}
    (h : e ∈ carriedOut known jobs) : e.1 ∈ jobs ∧ handleJob known e.1 = .rpc (some e.2) := by
  obtain ⟨j, hj, he⟩ := List.mem_filterMap.mp h
  split at he
  · next action hrpc =>
    obtain rfl := Option.some.inj he
    exact ⟨hj, hrpc⟩
  · cases he

theorem Relay.Sound.poll (hs : s.Sound) (known : List String) (now : ℚ) :
    (s.step env u (.poll probeId known now)).Sound := by
  constructor
  · intro j hj known' action h
    obtain ⟨old, hold, rfl⟩ := List.mem_map.mp hj
    split at h
    · next hclaimed =>
      rw [if_pos hclaimed]
      exact hs.queued old hold known' action h
    · next hclaimed =>
      rw [if_neg hclaimed]
      exact hs.queued old hold known' action h
  · intro e he
    rcases List.mem_append.mp he with he | he
    · exact hs.executed e he
    · obtain ⟨hmem, hrpc⟩ := mem_carriedOut he
      obtain ⟨old, hold, hrunning⟩ := mem_claimPendingJobs now hmem
      rw [hrunning] at hrpc ⊢
      exact hs.queued old hold known e.2 hrpc

theorem Relay.Sound.answer (hs : s.Sound) (status result : String) (now : ℚ) :
    (s.step env u (.answer jobId probeId status result now)).Sound := by
  refine ⟨fun j hj known action h => ?_, hs.executed⟩
  obtain ⟨old, hold, rfl⟩ := List.mem_map.mp hj
  split at h
  · next hjob =>
    rw [if_pos hjob]
    exact hs.queued old hold known action h
  · next hjob =>
    rw [if_neg hjob]
    exact hs.queued old hold known action h

theorem Relay.Sound.manage {task : AgentTask} (hs : s.Sound) (now : ℚ) :
    (s.step env u (.manage view me probeId task jobId now)).Sound := by
  cases hroute : agentRoute u view me probeId task with
  | error e => simpa only [Relay.step, hroute] using hs
  | ok req =>
    cases henq : enqueueJob env s.jobs req jobId now with
    | error e => simpa only [Relay.step, hroute, henq] using hs
    | ok jobs =>
      simp only [Relay.step, hroute, henq]
      have hsub : s.grants ⊆ s.grants ++ [⟨jobId, view, me⟩] := List.subset_append_left ..
      refine ⟨fun j hj known action h => ?_, fun e he => (hs.executed e he).mono hsub⟩
      rw [(enqueueJob_ok henq).2] at hj
      rcases List.mem_append.mp hj with hj | hj
      · exact (hs.queued j hj known action h).mono hsub
      · obtain rfl := List.mem_singleton.mp hj
        exact ⟨⟨jobId, view, me⟩, List.mem_concat_self, rfl, agentRoute_ok u hroute⟩

theorem Relay.Sound.step {a : RelayAction} (hs : s.Sound) (ha : Guarded u s a) :
    (s.step env u a).Sound := by
  cases a with
  | command view me probeId ip text jobId now =>
    cases hroute : probeCommandEp u view me probeId ip text with
    | error e => simpa only [Relay.step, hroute] using hs
    | ok req =>
      simp only [Relay.step, hroute]
      obtain ⟨hmay, rfl⟩ := probeCommandEp_ok u hroute
      exact hs.enqueue fun known action h => ha (isManagement_of_handleJob u h) hmay
  | send view me ip text jobId now =>
    cases hroute : sendCommand u view me ip text with
    | error e => simpa only [Relay.step, hroute] using hs
    | ok queued =>
      cases queued with
      | none => simpa only [Relay.step, hroute] using hs
      | some req =>
        simp only [Relay.step, hroute]
        obtain ⟨hmay, id, rfl⟩ := sendCommand_ok u hroute
        exact hs.enqueue fun known action h => ha (isManagement_of_handleJob u h) hmay
  | manage view me probeId task jobId now => exact hs.manage env u now
  | triage probeId ip requestedBy jobId now =>
    exact hs.enqueue fun known action h => (handleJob_rpc h).2.1 rfl
  | diagnose probeId ip spec jobId now =>
    exact hs.enqueue fun known action h => (handleJob_rpc h).1 rfl
  | poll probeId known now => exact hs.poll env u known now
  | answer jobId probeId status result now => exact hs.answer env u status result now

/-! ## Main results -/

theorem Relay.sound_empty : Relay.empty.Sound :=
  ⟨fun _ hj => absurd hj List.not_mem_nil, fun _ he => absurd he List.not_mem_nil⟩

/-- In every run in which the routes let no management action of an operator through, agents are
managed by administrators without limits only. -/
theorem onlyAdministrators_of_guarded {acts : List RelayAction} {s : Relay}
    (hrun : Run (Relay.step env u) (Guarded u) Relay.empty acts s) : OnlyAdministrators s :=
  (hrun.invariant (fun _ _ hs ha => Relay.Sound.step env u hs ha) Relay.sound_empty).executed

end Steps

/-! ## A site in Rome -/

def account (role : Sessions.Role) (groups : List String) : Users.Record where
  hashedPassword := ""
  role := some role
  groups := groups
  email := ""
  allowedTabs := []
  disabled := false
  mustChangePassword := false
  pendingApproval := false
  awaitingPassword := false
  sessionEpoch := 0

/-- An administrator without limits and an operator for Rome, where an agent keeps one device. -/
def rome : RouteView where
  accounts := ⟨[("root", account .admin []), ("ops", account .operator ["Roma"])], by decide⟩
  cliBlacklistOperators := true
  registry :=
    [("rm", { id := "rm", name := "Roma", mode := .agent, tokenHash := none, created := 0 })]
  devices := [⟨"10.0.0.1", "cisco", "custom", "", "", "", "Roma", "", "rm", "", "", "", "", ""⟩]

/-- Python on texts in ASCII. -/
def ascii : Unicode := ⟨Char.isAlphanum, id⟩

/-- No job of the kind `rest` is read. -/
def noLoads : Loader := ⟨fun _ => none, fun _ => ""⟩

/-- An administrator restarts the agent, and an operator asks a device for its version. -/
def quietDay : List RelayAction :=
  [.manage rome ⟨"root", .admin⟩ "rm" .restart "j1" 0,
    .command rome ⟨"ops", .operator⟩ "rm" "10.0.0.1" "show version" "j2" 1,
    .poll "rm" ["10.0.0.1"] 60]

theorem onlyAdministrators_of_guarded_quietDay :
    OnlyAdministrators (quietDay.foldl (Relay.step noLoads ascii) Relay.empty) := by
  refine @onlyAdministrators_of_guarded noLoads ascii quietDay _ ?_
  rw [quietDay, List.foldl_cons, List.foldl_cons, List.foldl_cons, List.foldl_nil]
  exact Run.cons trivial (Run.cons (fun h => absurd h (by decide))
    (Run.cons trivial (Run.nil _)))

/-- The operator for Rome restarts the agent. -/
theorem operator_restarts_agent :
    let s := [.command rome ⟨"ops", .operator⟩ "rm" "10.0.0.1" "_agent_restart" "j1" 0,
      .poll "rm" ["10.0.0.1"] 60].foldl (Relay.step noLoads ascii) Relay.empty
    s.executed.map Prod.snd = [.restart] ∧ rome.isUnscopedAdmin ⟨"ops", .operator⟩ = false ∧
      ¬OnlyAdministrators s := by
  intro s
  have hexecuted : s.executed.map Prod.snd = [.restart] := by decide
  have hgrants : s.grants.isEmpty = true := by decide
  refine ⟨hexecuted, by decide, fun h => ?_⟩
  obtain ⟨e, he⟩ := List.exists_mem_of_ne_nil s.executed fun hnil => by
    rw [hnil] at hexecuted
    exact nomatch hexecuted
  obtain ⟨g, hg, _⟩ := h e he
  rw [List.isEmpty_iff.mp hgrants] at hg
  exact List.not_mem_nil hg

end SentinelNet.Probes
