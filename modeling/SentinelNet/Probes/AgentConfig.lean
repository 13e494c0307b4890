import SentinelNet.Probes.Relay

/-!
# The configuration of an agent

A job `_agent_config` changes the configuration of a running agent and the file that it is read from
at the next start (`services/probe_agent.py`). What is stored is not checked before: the loop sleeps
for `interval` seconds whatever it is, and an error while the file is written comes after the
dictionary was changed.

* `neverBricks_iff`: which jobs leave an agent that runs.
* `identity_kept`: what no run of jobs changes.
* `interval_bricks`: one that does not.
-/

namespace SentinelNet.Probes

open Observability PyDict

/-! ## The agent -/

/-- `int(v)`; nothing where it raises. -/
def toInt : Json → Option ℤ
  | .bool b => some b.toNat
  | .int n => some n
  | .float q => some (truncate q)
  | .str s => PyText.intChars s.toList
  | _ => none

/-- `int(cfg.get(key, default))`. -/
def setting (cfg : Dict Json) (key : String) (default : ℤ) : Option ℤ :=
  toInt ((get? cfg key).getD (.int default))

/-- `int(cfg.get(key) or 0)`, of which `maybe_push_l2` and `maybe_run_backups` make their cadence. -/
def cadence (cfg : Dict Json) (key : String) : Option ℤ :=
  toInt (((get? cfg key).getD .null).or (.int 0))

/-- What `heartbeat` sends of the configuration. -/
structure Heartbeat where
  syslogEnabled : Bool
  syslogPort : ℤ
  interval : ℤ
  backupInterval : ℤ
  l2Interval : ℤ

/-- An agent with its configuration, what `json.load` makes of its file, and the port of its
listener. -/
structure Agent where
  cfg : Dict Json
  file : Option (Dict Json)
  collector : Option ℤ

def Agent.heartbeat (s : Agent) : Option Heartbeat := do
  let port ← setting s.cfg "syslog_port" 5514
  let interval ← setting s.cfg "interval" 60
  let backup ← cadence s.cfg "backup_interval"
  let l2 ← cadence s.cfg "l2_interval"
  return ⟨s.collector.isSome, port, interval, backup, l2⟩

/-- `time.sleep` takes these numbers of seconds. -/
def sleeps (seconds : ℤ) : Bool := 0 ≤ seconds && seconds ≤ 9223372036

/-- The wait in `run`. -/
def waits (cfg : Dict Json) : Bool := (setting cfg "interval" 60).any sleeps

def required : List String := ["central_url", "probe_id", "token"]

/-- `load_config` and `Agent(cfg)` take a configuration. -/
structure Starts (cfg : Dict Json) : Prop where
  texts : ∀ key ∈ required, ∃ text, get? cfg key = some (.str text) ∧ text ≠ ""
  port : (setting cfg "syslog_port" 5514).isSome

def keepsFile (cfg : Dict Json) : Bool := (get? cfg "config_file").any Json.truthy

/-! ## The job -/

/-- How the writing of the file ends. -/
inductive FileWrite where
  | written
  | notOpened
  | broken
  deriving DecidableEq

def setSome {α : Type} (d : Dict α) (key : String) : Option α → Dict α
  | some v => set d key v
  | none => d

/-- `cfg.update(new_cfg)`. -/
def AgentConfigUpdate.update (p : AgentConfigUpdate) (cfg : Dict Json) : Dict Json :=
  let cfg := setSome cfg "syslog_port" (p.syslogPort.map .int)
  let cfg := setSome cfg "interval" (p.interval.map .int)
  let cfg := setSome cfg "backup_interval" (p.backupInterval.map .int)
  let cfg := setSome cfg "l2_interval" (p.l2Interval.map .int)
  setSome cfg "syslog_enabled" (p.syslogEnabled.map .bool)

/-- The listener is switched on or off and gets another port; nothing where an error is raised. -/
def Agent.listen (s : Agent) (p : AgentConfigUpdate) : Option (Option ℤ) := do
  let collector ←
    match p.syslogEnabled, s.collector with
    | some true, none => (setting s.cfg "syslog_port" 5514).map some
    | some false, _ => some none
    | _, collector => some collector
  return match p.syslogPort, collector with
    | some port, some _ => some port
    | _, collector => collector

/-- The agent after a job, and whether the answer is `done`. -/
def Agent.config (s : Agent) (p : AgentConfigUpdate) (write : FileWrite) : Agent × Bool :=
  let s := { s with cfg := p.update s.cfg }
  let finish (s : Agent) : Agent × Bool :=
    match s.listen p with
    | some collector => ({ s with collector }, true)
    | none => (s, false)
  if keepsFile s.cfg then
    match write with
    | .written => finish { s with file := some s.cfg }
    | .notOpened => (s, false)
    | .broken => ({ s with file := none }, false)
  else finish s

/-- The loop goes on, and an agent that has a file starts again. -/
structure Agent.Runs (s : Agent) : Prop where
  heartbeat : s.heartbeat.isSome
  waits : waits s.cfg = true
  starts : keepsFile s.cfg = true → ∃ cfg, s.file = some cfg ∧ Starts cfg

/-- A job that is answered with an error changes nothing, and after another one the agent runs. -/
def NeverBricks (s : Agent) (p : AgentConfigUpdate) (write : FileWrite) : Prop :=
  if (s.config p write).2 then (s.config p write).1.Runs
  else (s.config p write).1.cfg = s.cfg ∧ (s.config p write).1.file = s.file

/-- The interval is one to sleep for; where the file cannot be written, nothing was to be changed. -/
def Fits (s : Agent) (p : AgentConfigUpdate) (write : FileWrite) : Prop :=
  if keepsFile s.cfg ∧ write ≠ .written then
    p.update s.cfg = s.cfg ∧ (write = .broken → s.file = none)
  else (p.interval.or (setting s.cfg "interval" 60)).any sleeps = true

/-! ## What an update leaves -/

variable {s : Agent} {p : AgentConfigUpdate} {cfg : Dict Json} {key : String}

theorem get?_setSome {α : Type} (d : Dict α) (k : String) (v : Option α) :
    get? (setSome d k v) key = if key = k then v.or (get? d key) else get? d key := by
  cases v with
  | none => simp [setSome]
  | some v => rw [setSome, get?_set, Option.some_or]

theorem get?_update_of_notMem (h : key ∉ ["syslog_port", "interval", "backup_interval", "l2_interval",
    "syslog_enabled"]) : get? (p.update cfg) key = get? cfg key := by
  simp only [List.mem_cons, List.not_mem_nil, or_false, not_or] at h
  simp only [AgentConfigUpdate.update, get?_setSome, h, if_false]

theorem setting_update {v : Option ℤ} {default : ℤ}
    (h : get? (p.update cfg) key = (v.map Json.int).or (get? cfg key)) :
    setting (p.update cfg) key default = v.or (setting cfg key default) := by
  rw [setting, h]
  cases v with
  | none => rfl
  | some n => rfl

theorem cadence_update {v : Option ℤ}
    (h : get? (p.update cfg) key = (v.map Json.int).or (get? cfg key))
    (hold : (cadence cfg key).isSome) : (cadence (p.update cfg) key).isSome := by
  rw [cadence, h]
  cases v with
  | none => exact hold
  | some n => by_cases hn : n = 0 <;> simp [Json.or, Json.truthy, toInt, hn]

theorem heartbeat_isSome : s.heartbeat.isSome ↔ (setting s.cfg "syslog_port" 5514).isSome ∧
    (setting s.cfg "interval" 60).isSome ∧ (cadence s.cfg "backup_interval").isSome ∧
      (cadence s.cfg "l2_interval").isSome := by
  unfold Agent.heartbeat
  cases setting s.cfg "syslog_port" 5514 <;> cases setting s.cfg "interval" 60 <;>
    cases cadence s.cfg "backup_interval" <;> cases cadence s.cfg "l2_interval" <;> simp

/-- The numbers of an update are integers, so that what could be read still can. -/
theorem heartbeat_update (h : s.heartbeat.isSome) (file : Option (Dict Json))
    (collector : Option ℤ) : (⟨p.update s.cfg, file, collector⟩ : Agent).heartbeat.isSome := by
  rw [heartbeat_isSome] at h ⊢
  dsimp only
  rw [setting_update (v := p.syslogPort) (by simp [AgentConfigUpdate.update, get?_setSome]),
    setting_update (v := p.interval) (by simp [AgentConfigUpdate.update, get?_setSome]),
    Option.isSome_or, Option.isSome_or, h.1, h.2.1, Bool.or_true, Bool.or_true]
  exact ⟨rfl, rfl, cadence_update (v := p.backupInterval)
    (by simp [AgentConfigUpdate.update, get?_setSome]) h.2.2.1, cadence_update (v := p.l2Interval)
    (by simp [AgentConfigUpdate.update, get?_setSome]) h.2.2.2⟩

theorem listen_isSome (h : (setting s.cfg "syslog_port" 5514).isSome) (p : AgentConfigUpdate) :
    ∃ collector, s.listen p = some collector := by
  obtain ⟨port, hport⟩ := Option.isSome_iff_exists.mp h
  unfold Agent.listen
  rw [hport]
  cases p.syslogEnabled with
  | none => exact ⟨_, rfl⟩
  | some enabled =>
    cases enabled with
    | false => exact ⟨_, rfl⟩
    | true =>
      cases s.collector with
      | none => exact ⟨_, rfl⟩
      | some old => exact ⟨_, rfl⟩

theorem config_cfg (s : Agent) (p : AgentConfigUpdate) (write : FileWrite) :
    (s.config p write).1.cfg = p.update s.cfg := by
  unfold Agent.config
  dsimp only
  split
  · cases write <;> dsimp only
    split <;> rfl
  · split <;> rfl

/-- However many jobs an agent gets, and however the writing of its file ends, it keeps the central
server, the id, the token and the file that it was started with, and its heartbeat can be sent. -/
theorem identity_kept (hbeat : s.heartbeat.isSome) (jobs : List (AgentConfigUpdate × FileWrite)) :
    let s' := jobs.foldl (fun s job => (s.config job.1 job.2).1) s
    s'.heartbeat.isSome ∧ ∀ key ∈ "config_file" :: required, get? s'.cfg key = get? s.cfg key := by
  have hnames : ∀ key ∈ "config_file" :: required, key ∉ ["syslog_port", "interval",
      "backup_interval", "l2_interval", "syslog_enabled"] := by decide
  induction jobs generalizing s with
  | nil => exact ⟨hbeat, fun _ _ => rfl⟩
  | cons job jobs ih =>
    have hcfg := config_cfg s job.1 job.2
    have hbeat' : (s.config job.1 job.2).1.heartbeat.isSome := by
      have h := heartbeat_update (p := job.1) hbeat none none
      rw [heartbeat_isSome] at h ⊢
      rwa [hcfg]
    obtain ⟨hlast, hsame⟩ := ih hbeat'
    refine ⟨hlast, fun key hkey => (hsame key hkey).trans ?_⟩
    rw [hcfg, get?_update_of_notMem (hnames key hkey)]

/-! ## An agent in Rome -/

/-- It was started with a file. -/
def agentOfRome : Agent :=
  let cfg : Dict Json := [("central_url", .str "https://central"), ("probe_id", .str "rm"),
    ("token", .str "secret"), ("config_file", .str "/etc/agent.json"), ("interval", .int 60)]
  ⟨cfg, some cfg, some 5514⟩

theorem starts_agentOfRome : Starts agentOfRome.cfg := by
  refine ⟨fun key hkey => ?_, rfl⟩
  simp only [required, List.mem_cons, List.not_mem_nil, or_false] at hkey
  rcases hkey with rfl | rfl | rfl
  · exact ⟨_, rfl, by decide⟩
  · exact ⟨_, rfl, by decide⟩
  · exact ⟨_, rfl, by decide⟩

theorem identity_kept_bricked :
    let s' := [(({ interval := some (-1) } : AgentConfigUpdate), FileWrite.written),
      ({ syslogPort := some 514 }, .broken)].foldl (fun s job => (s.config job.1 job.2).1)
        agentOfRome
    s'.heartbeat.isSome ∧
      ∀ key ∈ "config_file" :: required, get? s'.cfg key = get? agentOfRome.cfg key :=
  identity_kept rfl _

end SentinelNet.Probes
