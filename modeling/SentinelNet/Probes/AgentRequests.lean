import SentinelNet.Inventory.Hosts
import SentinelNet.Probes.Registry

/-!
# The requests of an agent

`routers/agent.py` takes what the agent of a site reports: its devices, whether they answer, their
configurations, and a sign of life, which is answered with the devices of the site where the central
manages them.

* `pushDevice`, `pushInventory`, `pushStatus`, `pushBackup`, `heartbeat`: the requests.
-/

namespace SentinelNet.Probes

open Observability PyDict PyText Inventory

/-! ## The central -/

/-- The inventory, the locations in the order of their ids, `detected_versions` and the probes. -/
structure Central where
  table : Table
  decommissioned : List Host
  locations : List Location
  versions : Dict (Dict Json)
  registry : Registry

/-- What the requests take from outside: the vault and `json`, the hash of a token,
`_clean_version`, and the credentials of a device, which may have none. -/
structure Surroundings where
  codec : Codec
  hashToken : String → String
  cleanVersion : String → String
  credentials : Central → Host → Except String (String × String × String)

/-- `get_location`. -/
def Central.location (s : Central) (id : String) : Option Location :=
  s.locations.find? fun l => l.id = id

def normalizeVendor (raw : String) : String :=
  (get? vendorAliases (strip (lowerText raw))).getD (strip (lowerText raw))

/-! ## Versions -/

def detectedVersions (env : Surroundings) (versions : Dict (Dict Json)) : Dict (Dict Json) :=
  versions.map fun p =>
    let info :=
      match get? p.2 "version" with
      | some (.str v) => if v = "" then p.2 else set p.2 "version" (.str (env.cleanVersion v))
      | _ => p.2
    (p.1, if ((get? info "model").getD .null).truthy then info
      else set info "model" (.str "Non Rilevato"))

/-- `update_version_inventory`; an empty model or serial is none. -/
def updateVersionInventory (env : Surroundings) (versions : Dict (Dict Json)) (stamp ip : String)
    (vendor : String) (version : Json) (status model serial : String) : Dict (Dict Json) :=
  let data := detectedVersions env versions
  let entry := assign ((get? data ip).getD [])
    [("vendor", .str vendor), ("version", version), ("status", .str status),
      ("seen_at", .str stamp)]
  let entry :=
    if model ≠ "" && model ≠ "Non Rilevato" then set entry "model" (.str model)
    else if has entry "model" then entry else set entry "model" (.str "Non Rilevato")
  set data ip (if serial = "" then entry else set entry "serial" (.str serial))

/-! ## Inventory -/

/-- `AgentDeviceSchema`. -/
structure PushedDevice where
  ip : String
  vendor : String := "cisco"
  hostname : String := ""
  group : Option String := none

/-- What a push reads of the inventory before its first device. -/
structure PushView where
  devices : List Host
  decommissioned : List Host

/-- Where a reported device belongs. -/
inductive Placement where
  | skipped
  | unlocated
  | inside (group location : String)
  deriving DecidableEq

def onlyLocation : List Location → Placement
  | [l] => .inside l.org l.id
  | _ => .unlocated

/-- `existing_groups.get(ip)`: the last row with the address. -/
def PushView.groupOf (view : PushView) (ip : String) : Option String :=
  (view.devices.reverse.find? fun d => d.ip = ip).map Host.group

def place (view : PushView) (locations : List Location) (probeId : String) (d : PushedDevice) :
    Placement :=
  if (ipParts d.ip).isNone then .skipped
  else
    let reqGroup := strip (d.group.getD "")
    if reqGroup = "" && (view.groupOf d.ip).isNone && view.decommissioned.any fun r => r.ip = d.ip
    then .skipped
    else
      let group := Inventory.orElse reqGroup ((view.groupOf d.ip).getD "")
      if group = "" then onlyLocation (locations.filter fun l => l.probe = probeId)
      else
        match findPair view.devices (group, d.ip) with
        | some existing => .inside group existing.location
        | none => onlyLocation (locations.filter fun l => l.org = group && l.probe = probeId)

section Requests

variable (env : Surroundings) (probeId : String)

/-- The entry that a reported device makes in the inventory. -/
def pushedEntry (d : PushedDevice) (group location : String) : Entry where
  ip := d.ip
  vendor := normalizeVendor d.vendor
  profile := "custom"
  username := ""
  password := ""
  enableSecret := ""
  group := group
  probe := some probeId
  location := some location

/-- The inventory with the entry of a reported device, if it takes it. -/
def Central.upsert (s : Central) (d : PushedDevice) (group location : String) :
    Except String Table :=
  addOrUpdateDevice env.codec s.table s.decommissioned s.location
    (pushedEntry probeId d group location)

/-- A name for a device that has one. -/
def Central.rename (s : Central) (ip hostname : String) : Central :=
  if hostname = "" then s
  else { s with table := updateDeviceHostname s.table ip hostname none }

def pushDevice (view : PushView) (s : Central) (d : PushedDevice) : Central :=
  match place view s.locations probeId d with
  | .skipped => s
  | .unlocated => { s with registry := recordUnlocatedDevice s.registry probeId 1 }
  | .inside group location =>
    match s.upsert env probeId d group location with
    | .error _ => s
    | .ok table => { s with table := table }.rename d.ip d.hostname

/-- What a push reads of the inventory. -/
def Central.view (s : Central) : PushView := ⟨s.table.rows, s.decommissioned⟩

def pushInventory (s : Central) (devices : List PushedDevice) : Central :=
  devices.foldl (pushDevice env probeId s.view) s

/-! ## Status -/

/-- `own.get(ip)`: the last row of the probe with the address. -/
def Central.own (s : Central) (ip : String) : Option Host :=
  (s.table.rows.filter fun d => d.probe = probeId).reverse.find? fun d => d.ip = ip

/-- `agent_push_status`: the versions as the push found them tell the version of each device. -/
def pushStatus (stamp : String) (s : Central) (devices : List (String × Bool)) : Central :=
  let known := detectedVersions env s.versions
  { s with
    versions := devices.foldl (fun versions d =>
      match s.own probeId d.1 with
      | none => versions
      | some row =>
        updateVersionInventory env versions stamp d.1 (Inventory.orElse row.vendor "cisco")
          ((get? ((get? known d.1).getD []) "version").getD (.str "Non Rilevata"))
          (if d.2 then "online" else "offline") "" "") s.versions }

/-! ## Backups -/

/-- `AgentBackupSchema`. -/
structure Backup where
  ip : String
  hostname : String := ""
  vendor : String := "cisco"
  version : String := "Non Rilevata"
  model : String := ""
  serial : String := ""
  config : String

def maxConfigBytes : ℕ := 5 * 1024 * 1024

def Central.refusal (s : Central) (b : Backup) : Option (ℕ × String) :=
  if !(s.table.rows.any fun d => d.ip = b.ip && d.probe = probeId) then
    some (404, "Dispositivo " ++ b.ip ++ " non appartiene alla sonda '" ++ probeId ++ "'.")
  else if maxConfigBytes < b.config.utf8ByteSize then
    some (413, "Config oltre il limite di 5 MB: rifiutata, non troncata.")
  else if strip b.config = "" then
    some (400, "Config vuota: rifiutata, non sovrascrive il backup esistente.")
  else none

/-- What `agent_push_backup` leaves of a backup that it takes. -/
def storeBackup (stamp : String) (s : Central) (b : Backup) : Central :=
  { s with
    versions := updateVersionInventory env s.versions stamp b.ip b.vendor (.str b.version) "online"
      b.model b.serial }.rename b.ip b.hostname

/-! ## Heartbeat -/

/-- The keys that a heartbeat reports, and the names under which the probe keeps them. -/
def reportedKeys : List (String × String) :=
  [("syslog_port", "syslog_port"), ("interval", "interval"), ("backup_interval", "backup_interval"),
    ("l2_interval", "l2_interval"), ("syslog_enabled", "syslog_enabled"),
    ("data_dir", "agent_data_dir"), ("version", "agent_version"), ("commit", "agent_commit"),
    ("branch", "agent_branch"), ("dirty", "agent_dirty")]

/-- The updates of a heartbeat. -/
def reported (payload : Dict Json) : Dict Json :=
  reportedKeys.filterMap fun key => (get? payload key.1).map fun v =>
    (key.2, if key.1 = "syslog_enabled" then .bool v.truthy else v)

/-- `probe.get("central_manages_devices")`. -/
def Probe.managed (probe : Probe) : Bool :=
  ((get? probe.others "central_manages_devices").getD .null).truthy

/-- A device in the answer to a heartbeat. -/
structure DeviceItem where
  ip : String
  vendor : String
  group : String
  hostname : String
  sshPort : String
  credentials : Option (String × String × String)

/-- A device as an agent gets it. -/
def deviceItem (s : Central) (withCredentials : Bool) (d : Host) : Except String DeviceItem :=
  (if withCredentials then (env.credentials s d).map some else .ok none).map fun credentials =>
    ⟨d.ip, d.vendor, d.group, d.hostname, Inventory.orElse d.sshPort "22", credentials⟩

/-- The rows of `_devices_for_probe`. -/
def Central.managedRows (s : Central) : List Host :=
  s.table.rows.filter fun d => d.probe = probeId && !isManual env.codec d

def devicesForProbe (s : Central) (withCredentials : Bool) : Except String (List DeviceItem) :=
  (s.managedRows env probeId).mapM (deviceItem env s withCredentials)

/-- The answer to a request. -/
inductive Response where
  | refused (code : ℕ) (detail : String)
  | success
  | alive (probeId name : String) (devices : Option (List DeviceItem × Bool))

def reportState (reg : Registry) (payload : Dict Json) : Except String Registry :=
  if (reported payload).isEmpty then .ok reg
  else (updateProbe reg probeId none none { others := reported payload }).map Prod.snd

/-- `agent_heartbeat`; the flag says that the request came over `https`. -/
def heartbeat (s : Central) (probe : Probe) (payload : Dict Json) (secure : Bool) :
    Central × Response :=
  match reportState probe.id s.registry payload with
  | .error e => (s, .refused 500 e)
  | .ok reg =>
    let s := { s with registry := reg }
    if probe.managed then
      match devicesForProbe env probe.id s secure with
      | .error e => (s, .refused 500 e)
      | .ok devices => (s, .alive probe.id probe.name (some (devices, secure)))
    else (s, .alive probe.id probe.name none)

/-! ## Requests -/

/-- What an agent asks. -/
inductive Body where
  | inventory (devices : List PushedDevice)
  | status (devices : List (String × Bool))
  | backup (b : Backup)
  | heartbeat (payload : Dict Json) (secure : Bool)

/-- A request: the token and the probe it names, the clock as a number and as a text. -/
structure Request where
  token : String
  claimedId : Option String
  now : ℚ
  stamp : String
  body : Body

/-- `get_agent_probe`: the probe of a token, which is seen now.  The request may name the probe, and
then names this one. -/
def getAgentProbe (s : Central) (r : Request) : Except (ℕ × String) (Central × Probe) :=
  match (authenticate env.hashToken s.registry r.token).filter fun id =>
      id ≠ "" && r.claimedId.all fun claimed => claimed = "" || claimed = id with
  | none => .error (401, "Token di sonda non valido. Un agente installato prima della 0.52 va " ++
      "reinstallato (reinstall the probe agent).")
  | some id =>
    let s := { s with registry := touchLastSeen s.registry id r.now }
    match get? s.registry id with
    | none => .error (500, "'NoneType' object is not subscriptable")
    | some probe => .ok (s, probe)

/-- What an authenticated request does. -/
def serve (s : Central) (probe : Probe) (stamp : String) : Body → Central × Response
  | .inventory devices => (pushInventory env probe.id s devices, .success)
  | .status devices => (pushStatus env probe.id stamp s devices, .success)
  | .backup b =>
    match s.refusal probe.id b with
    | some (code, detail) => (s, .refused code detail)
    | none => (storeBackup env stamp s b, .success)
  | .heartbeat payload secure => heartbeat env s probe payload secure

def handle (s : Central) (r : Request) : Central × Response :=
  match getAgentProbe env s r with
  | .error (code, detail) => (s, .refused code detail)
  | .ok (s, probe) => serve env s probe r.stamp r.body

end Requests

end SentinelNet.Probes
