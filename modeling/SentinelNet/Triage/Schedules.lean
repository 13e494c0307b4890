import SentinelNet.Inventory.Hosts
import SentinelNet.Users.Checks

/-!
# Schedules of the triage

`services/triage_scheduler.py` keeps the schedules in the table `scheduled_triage`, with the user
who created each one.  A schedule names a tenant or `all`, and may name devices by their addresses.

* `getSchedules`, `createSchedule`, `updateSchedule`, `deleteSchedule`: what a user can do.
-/

namespace SentinelNet.Triage

open Inventory (Host)
open Sessions (Role isAdmin)
open Users (Store CurrentUser Record)

/-! ## Rows -/

/-- A row of `scheduled_triage`. -/
structure Schedule where
  id : ℕ
  name : String
  enabled : Bool
  tenant : String
  /-- The addresses; none stand for all devices of the tenant. -/
  devices : List String
  intervalMinutes : ℕ
  createdBy : String
  createdTs : ℚ
  lastRunTs : Option ℚ
  nextRunTs : ℚ
  lastStatus : String
  lastSummary : Option String

/-- The table, with the next number of its primary key. -/
structure Schedules where
  rows : List Schedule
  nextId : ℕ

/-- `ScheduledTriageRequest`. -/
structure Payload where
  name : String
  tenant : String
  devices : Option (List String)
  intervalMinutes : ℕ
  enabled : Bool
  runImmediately : Bool

/-- Why a request is refused. -/
inductive Refusal where
  | missingName
  | missingTenant
  | tenantDenied (tenant : String)
  | unknownDevice (ip : String)
  | otherGroup (ip group tenant : String)
  | deviceDenied (ip : String)
  | scheduleDenied

def minIntervalMinutes : ℕ := 5

/-! ## Requests -/

variable (users : Store) (inventory : List Host) (now : ℚ)

def Schedules.get (t : Schedules) (id : ℕ) : Option Schedule := t.rows.find? (·.id = id)

/-- `get_schedules`, the newest first. -/
def getSchedules (t : Schedules) (me : CurrentUser) : List Schedule :=
  match users.scopeOf me with
  | none => t.rows.reverse
  | some scope =>
    if isAdmin me.role then t.rows.reverse
    else t.rows.reverse.filter fun s => s.createdBy = me.sub || s.tenant ∈ scope

/-- A scoped user who is no administrator names one of its tenants. -/
def checkTenant (me : CurrentUser) (tenant : String) : Option Refusal :=
  if ¬ isAdmin me.role ∧ (users.scopeOf me).any fun scope => tenant = "all" || tenant ∉ scope then
    some (.tenantDenied tenant)
  else none

/-- `dev_by_ip`: of two devices with one address the last one. -/
def deviceByIp (ip : String) : Option Host := inventory.reverse.find? (·.ip = ip)

def checkDevice (me : CurrentUser) (tenant ip : String) : Option Refusal :=
  match deviceByIp inventory ip with
  | none => some (.unknownDevice ip)
  | some d =>
    if tenant ≠ "all" ∧ d.group ≠ tenant then some (.otherGroup ip d.group tenant)
    else if ¬ isAdmin me.role ∧ (users.scopeOf me).any (d.group ∉ ·) then some (.deviceDenied ip)
    else none

/-- The first device that is refused. -/
def checkDevices (me : CurrentUser) (tenant : String) (ips : List String) : Option Refusal :=
  ips.findSome? (checkDevice users inventory me tenant)

/-- The addresses of a request. -/
def wantedIps (devices : Option (List String)) : List String :=
  ((devices.getD []).map PyText.strip).filter (· ≠ "")

def createSchedule (t : Schedules) (me : CurrentUser) (p : Payload) : Except Refusal Schedules :=
  let name := PyText.strip p.name
  let tenant := PyText.strip p.tenant
  if name = "" then .error .missingName
  else if tenant = "" then .error .missingTenant
  else
    match checkTenant users me tenant with
    | some e => .error e
    | none =>
      match checkDevices users inventory me tenant (wantedIps p.devices) with
      | some e => .error e
      | none =>
        let interval := max p.intervalMinutes minIntervalMinutes
        .ok
          { rows := t.rows ++ [{
              id := t.nextId
              name := name
              enabled := p.enabled
              tenant := tenant
              devices := wantedIps p.devices
              intervalMinutes := interval
              createdBy := me.sub
              createdTs := now
              lastRunTs := none
              nextRunTs := if p.runImmediately then now else now + (interval * 60 : ℕ)
              lastStatus := "idle"
              lastSummary := none }]
            nextId := t.nextId + 1 }

/-- A schedule of another user is touched by administrators and by users with its tenant. -/
def mayTouch (me : CurrentUser) (s : Schedule) : Bool :=
  isAdmin me.role || s.createdBy = me.sub || (users.scopeOf me).all (s.tenant ∈ ·)

def updateSchedule (t : Schedules) (id : ℕ) (me : CurrentUser) (p : Payload) :
    Except Refusal (Option Schedules) :=
  match t.get id with
  | none => .ok none
  | some s =>
    if ¬ mayTouch users me s then .error .scheduleDenied
    else
      let tenant := PyText.strip p.tenant
      match checkTenant users me tenant with
      | some e => .error e
      | none =>
        match checkDevices users inventory me tenant (wantedIps p.devices) with
        | some e => .error e
        | none =>
          let interval := max p.intervalMinutes minIntervalMinutes
          let s' := { s with
            name := PyText.strip p.name
            enabled := p.enabled
            tenant := tenant
            devices := wantedIps p.devices
            intervalMinutes := interval
            nextRunTs := if interval ≠ s.intervalMinutes then
                s.lastRunTs.getD now + (interval * 60 : ℕ) else s.nextRunTs }
          .ok (some { t with rows := t.rows.map fun r => if r.id = id then s' else r })

def deleteSchedule (t : Schedules) (id : ℕ) (me : CurrentUser) :
    Except Refusal (Option Schedules) :=
  match t.get id with
  | none => .ok none
  | some s =>
    if mayTouch users me s then .ok (some { t with rows := t.rows.filter (·.id ≠ id) })
    else .error .scheduleDenied

/-! ## Executions -/

/-- What an execution asks other parts of the program. -/
structure Surroundings where
  /-- `is_telemetry_enabled` for the triage. -/
  telemetry : String → Bool
  /-- `is_manual`. -/
  isManual : Host → Bool
  /-- `is_agent_probe`. -/
  isAgentProbe : String → Bool
  /-- `has_pending_triage_job`, for a probe and an address. -/
  pending : String × String → Bool

/-- `creator_user.get("active", True)`: the records have no such key. -/
def active (_ : Record) : Bool := true

def creatorScope (creator : String) : Option (List String) :=
  match users.user creator with
  | none => none
  | some r =>
    if r.role = some .admin ∨ r.role = some .superAdmin then none else some r.groups

/-- The probe and the address of a device. -/
def jobOf (d : Host) : String × String := (d.probe, d.ip)

section Selection

variable (env : Surroundings)

def selected (s : Schedule) : List Host :=
  let devices :=
    if s.tenant ≠ "all" then inventory.filter (·.group = s.tenant)
    else
      match creatorScope users s.createdBy with
      | none => inventory
      | some scope => inventory.filter (·.group ∈ scope)
  let devices := if s.devices = [] then devices else devices.filter (·.ip ∈ s.devices)
  devices.filter fun d => d.group = "" || env.telemetry d.group

/-- The devices that the central contacts. -/
def Surroundings.direct (devices : List Host) : List Host :=
  devices.filter fun d => !env.isManual d && !env.isAgentProbe d.probe

/-- The devices for which the agent of their probe gets a job. -/
def Surroundings.queued (devices : List Host) : List Host :=
  devices.filter fun d => !env.isManual d && env.isAgentProbe d.probe && !env.pending (jobOf d)

/-- The jobs that are enqueued: one for a probe and an address, which is pending from then on. -/
def Surroundings.jobs (devices : List Host) : List (String × String) :=
  ((env.queued devices).map jobOf).eraseDups

/-- `queued_count`: the devices of agents, with a job that is new or was pending. -/
def Surroundings.queuedCount (devices : List Host) : ℕ :=
  (devices.filter fun d => !env.isManual d && env.isAgentProbe d.probe).length

end Selection

inductive Execution where
  | notFound
  | deferred
  | creatorDisabled
  | noDevices
  | running (direct queued : List Host) (jobs : List (String × String)) (queuedCount total : ℕ)

/-- `execute_schedule_job`, for a schedule that is read; `busy` is what it finds in `triage_job`. -/
def executeScheduleJob (env : Surroundings) (busy : Bool) (s : Option Schedule) : Execution :=
  match s with
  | none => .notFound
  | some s =>
    if busy then .deferred
    else if (users.user s.createdBy).any fun r => !active r then .creatorDisabled
    else
      let devices := selected users inventory env s
      if devices = [] then .noDevices
      else
        .running (env.direct devices) (env.queued devices) (env.jobs devices)
          (env.queuedCount devices) devices.length

/-- The devices that an execution contacts or queues. -/
def Execution.reached : Execution → List Host
  | .running direct queued _ _ _ => direct ++ queued
  | _ => []

end SentinelNet.Triage
