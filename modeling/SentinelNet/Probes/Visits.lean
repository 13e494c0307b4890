import SentinelNet.Probes.Relay
import SentinelNet.Probes.RestRelay

/-!
# What an agent answers

An agent claims the pending jobs of its probe, works them off one after the other and posts a
result for each.  A claimed job is handed out no more, so a job whose result is not posted stays
`running`: an exception that leaves `run_jobs`, or the end of the process that a restart or an
update has scheduled, loses the rest of the batch.

* `pushBackup`, `sendCustomCommand`, `executeAgentCommand`, `executeJob`, `runJobs`: the agent.
* `visit`: a visit of the agent as the central sees it.
* `run_answered_iff`: in a run no job is stranded exactly where every batch is undisturbed.
-/

namespace SentinelNet.Probes

open Observability PyDict PyText StepRuns Outcomes
open Inventory (Host)

/-! ## The site -/

/-- The configuration that an agent pushes to the central. -/
structure BackupPush where
  ip : String
  hostname : String
  vendor : String
  version : String
  model : String
  serial : String
  config : String

/-- The result of `run_backup_and_triage`. -/
inductive TriageResult where
  | success (hostname version model serial file : String)
  | failure (message : Option String)

/-- The backup file is read, or an `OSError` or another exception is raised. -/
inductive FileRead where
  | text (config : String)
  | osError (e : String)
  | raised (e : String)

/-- The machine of an agent: Python, the drivers and the local inventory. -/
structure AgentHost where
  loader : Loader
  codec : Inventory.Codec
  resolveDriver : String → Except String String
  devices : List Host

/-- What happens outside while the agent works on a job.  An exception is an error. -/
structure Turn where
  triage : Except String TriageResult
  readBackup : FileRead
  /-- The request with `raise_for_status` and `json`. -/
  postBackup : BackupPush → Except String (Dict Json)
  /-- `get_device_credentials`. -/
  credentials : Except String Unit
  /-- The session with the device, inside its `try`. -/
  session : Except String String
  apiGet : RestCall → Except String String
  /-- What a management action gives. -/
  manage : Management → JobResult
  /-- A self-update fetched something and installed it. -/
  updated : Bool
  /-- The process, if its end is scheduled, is gone before the result is posted. -/
  gone : Bool
  /-- The central accepts the result. -/
  accepted : Bool

/-! ## The agent -/

/-- `SYSTEM_SUBSTRINGS`. -/
def dangerousCommands : List String :=
  ["write erase", "reload", "delete", "format", "no boot", "erase", "rm -rf", "mkfs", "dd if=",
    "shred ", "reboot", "poweroff", ":()\x7b"]

/-- The device of the inventory with an address; of several the last one. -/
def byIp (devices : List Host) (ip : String) : Option Host :=
  (devices.filter fun d => d.ip ≠ "").reverse.find? fun d => d.ip = ip

section Agent

variable (host : AgentHost) (turn : Turn)

/-- `push_backup`, as far as `run_jobs` reads its answer: the status and the message. -/
def pushBackup (d : Host) : Except String (Json × Option Json) :=
  match turn.triage with
  | .error e => .error e
  | .ok (.failure message) => .ok (.str "error", some (.str (message.getD "errore")))
  | .ok (.success hostname version model serial _) =>
    match turn.readBackup with
    | .osError e => .ok (.str "error", some (.str ("backup illeggibile: " ++ e)))
    | .raised e => .error e
    | .text config =>
      (turn.postBackup ⟨d.ip, hostname, d.vendor, version, model, serial, config⟩).map fun answer =>
        ((get? answer "status").getD (.str "success"), get? answer "message")

/-- A turn of `run_jobs` for a job `triage`. -/
def triageResult (answer : Json × Option Json) : JobResult :=
  if answer.1.text? = some "success" then ⟨"done", "backup inviato al centrale"⟩
  else ⟨"error", (answer.2.bind Json.text?).getD "errore"⟩

/-- `send_custom_command`: the output of the command or the message of an error. -/
def sendCustomCommand (d : Host) (command : String) (bypassBlacklist : Bool) :
    Except String (Except String String) :=
  if Inventory.isManual host.codec d then
    .ok (.error ("Il dispositivo " ++ d.ip ++ " e' manuale: la sua config si carica a mano " ++
      "(Importa → Config manuale), SentinelNet non apre sessioni verso di esso."))
  else if !bypassBlacklist && dangerousCommands.any (contains (lower command)) then
    .ok (.error "Comando non consentito dalla policy di sicurezza aziendale (Blacklisted)")
  else
    match host.resolveDriver (lower d.vendor) with
    | .error e => .ok (.error e)
    | .ok _ => turn.credentials.map fun _ => turn.session

/-- A turn of `run_jobs` for a command. -/
def commandResult : Except String String → JobResult
  | .ok output => ⟨"done", output⟩
  | .error message => ⟨"error", message⟩

def executeAgentCommand (cmd : String) : JobResult :=
  match executeAgentRpc cmd with
  | none => ⟨"error", "Comando RPC sconosciuto: " ++ (splitOnce cmd).1⟩
  | some .restart =>
    ⟨"done", "Riavvio agente programmato tra 1.5 secondi (systemd auto-restart)."⟩
  | some action => turn.manage action

/-- The end of the process is scheduled. -/
def leaves (job : Job) : Bool :=
  job.kind ≠ "rest" && job.kind ≠ "triage" && startsWith job.command "_agent_" &&
    match executeAgentRpc job.command with
    | some .restart => true
    | some .selfUpdate => turn.updated
    | _ => false

def unknownDevice (ip : String) : JobResult :=
  ⟨"error", "Dispositivo " ++ ip ++ " non in inventario locale."⟩

def executeJob (job : Job) : Except String JobResult :=
  if job.kind = "rest" then
    match byIp host.devices job.deviceIp with
    | none => .ok (unknownDevice job.deviceIp)
    | some _ => executeRestJob host.loader turn.apiGet job.command
  else if job.kind = "triage" then
    match byIp host.devices job.deviceIp with
    | none => .ok (unknownDevice job.deviceIp)
    | some d => (pushBackup turn d).map triageResult
  else if startsWith job.command "_agent_" then .ok (executeAgentCommand turn job.command)
  else
    match byIp host.devices job.deviceIp with
    | none => .ok (unknownDevice job.deviceIp)
    | some d =>
      (sendCustomCommand host turn d job.command job.blacklistBypass).map commandResult

end Agent

/-- `run_jobs` on the claimed jobs: the results that are posted; `leaving` says whether the end of
the process is scheduled. -/
def runJobs (host : AgentHost) (site : Job → Turn) : Bool → List Job → List (Job × JobResult)
  | _, [] => []
  | leaving, job :: jobs =>
    match executeJob host (site job) job with
    | .error _ => []
    | .ok result =>
      let leaving := leaving || leaves (site job) job
      if leaving && (site job).gone then [] else (job, result) :: runJobs host site leaving jobs

/-! ## The central -/

def postResult (site : Job → Turn) (probeId : String) (now : ℚ) (jobs : JobTable)
    (post : Job × JobResult) : JobTable :=
  if (site post.1).accepted then
    (completeJob jobs post.1.id probeId post.2.status post.2.result now).2
  else jobs

/-- The jobs that `GET /api/agent/jobs` hands out. -/
def batch (jobs : JobTable) (probeId : String) (now : ℚ) : List Job :=
  (claimPendingJobs jobs probeId 20 now).2

def visit (jobs : JobTable) (probeId : String) (host : AgentHost) (site : Job → Turn) (now : ℚ) :
    JobTable :=
  (runJobs host site false (batch jobs probeId now)).foldl (postResult site probeId now)
    (claimPendingJobs jobs probeId 20 now).1

/-- The loop of `has_pending_rest_job` over its rows. -/
def asksPath (env : Loader) (path : String) : List Job → Except String Bool
  | [] => .ok false
  | row :: rows =>
    match env.loads row.command with
    | none => asksPath env path rows
    | some (.obj spec) =>
      if (get? spec "path").bind Json.text? = some path then .ok true else asksPath env path rows
    | some _ => .error "AttributeError: get"

def hasPendingRestJob (env : Loader) (jobs : JobTable) (probeId deviceIp path : String) :
    Except String Bool :=
  asksPath env path (jobs.filter fun j => j.probeId = probeId ∧ j.deviceIp = deviceIp ∧
    j.kind = "rest" ∧ (j.status = .pending ∨ j.status = .running))

/-- A job gets into the queue, or an agent visits. -/
inductive VisitAction where
  | enqueue (req : JobRequest) (jobId : String) (now : ℚ)
  | visit (probeId : String) (host : AgentHost) (site : Job → Turn) (now : ℚ)

def visitStep (env : Loader) (jobs : JobTable) : VisitAction → JobTable
  | .enqueue req jobId now =>
    match enqueueJob env jobs req jobId now with
    | .ok jobs' => jobs'
    | .error _ => jobs
  | .visit probeId host site now => visit jobs probeId host site now

/-! ## Answers -/

def Accepts (jobs : JobTable) : VisitAction → Prop
  | .enqueue .. => True
  | .visit probeId _ site now => ∀ job ∈ batch jobs probeId now, (site job).accepted = true

/-- No job is stranded: none is running when the agents are gone, and a question that counts as
asked is one that an agent will get. -/
structure NoneStranded (env : Loader) (jobs : JobTable) : Prop where
  idle : ∀ j ∈ jobs, j.status ≠ .running
  asked : ∀ probeId deviceIp path, hasPendingRestJob env jobs probeId deviceIp path = .ok true →
    ∃ j ∈ jobs, j.probeId = probeId ∧ j.deviceIp = deviceIp ∧ j.kind = "rest" ∧
      j.status = .pending ∧ ∃ spec, env.loads j.command = some (.obj spec) ∧
        (get? spec "path").bind Json.text? = some path

/-- A visit posts one result for each job that was claimed, and strands none. -/
def Answered (env : Loader) (jobs : JobTable) (a : VisitAction) : Prop :=
  NoneStranded env (visitStep env jobs a) ∧
    match a with
    | .enqueue .. => True
    | .visit probeId host site now =>
      (runJobs host site false (batch jobs probeId now)).map (fun post => post.1.id) =
        (batch jobs probeId now).map Job.id

/-- The jobs that raise an exception: a question to a known device whose JSON cannot be read; a
backup whose run raises, whose file cannot be read as a text or whose push fails; a command for a
device whose credentials are not there or cannot be decrypted. -/
inductive Raises (host : AgentHost) (turn : Turn) (job : Job) : Prop
  | rest (d : Host) (hkind : job.kind = "rest") (hknown : byIp host.devices job.deviceIp = some d)
    (hspec : ¬ReadableSpec host.loader job.command)
  | triage (d : Host) (e : String) (hkind : job.kind = "triage")
    (hknown : byIp host.devices job.deviceIp = some d) (hrun : turn.triage = .error e)
  | unreadable (d : Host) (hostname version model serial file e : String)
    (hkind : job.kind = "triage") (hknown : byIp host.devices job.deviceIp = some d)
    (hrun : turn.triage = .ok (.success hostname version model serial file))
    (hread : turn.readBackup = .raised e)
  | refused (d : Host) (hostname version model serial file config e : String)
    (hkind : job.kind = "triage") (hknown : byIp host.devices job.deviceIp = some d)
    (hrun : turn.triage = .ok (.success hostname version model serial file))
    (hread : turn.readBackup = .text config)
    (hpost : turn.postBackup ⟨d.ip, hostname, d.vendor, version, model, serial, config⟩ = .error e)
  | credentials (d : Host) (driver e : String) (hrest : job.kind ≠ "rest")
    (htriage : job.kind ≠ "triage") (hagent : startsWith job.command "_agent_" = false)
    (hknown : byIp host.devices job.deviceIp = some d)
    (hmanual : Inventory.isManual host.codec d = false)
    (hlisted : (!job.blacklistBypass && dangerousCommands.any (contains (lower job.command))) =
      false)
    (hdriver : host.resolveDriver (lower d.vendor) = .ok driver)
    (hcredentials : turn.credentials = .error e)

/-- No job of a batch raises, and the process, once its end is scheduled, lives until the last
result is posted. -/
def Undisturbed (host : AgentHost) (site : Job → Turn) : Bool → List Job → Prop
  | _, [] => True
  | leaving, job :: jobs =>
    ¬Raises host (site job) job ∧
      ((leaving || leaves (site job) job) = true → (site job).gone = false) ∧
        Undisturbed host site (leaving || leaves (site job) job) jobs

/-- The batch of a visit is undisturbed. -/
def Calm (jobs : JobTable) : VisitAction → Prop
  | .enqueue .. => True
  | .visit probeId host site now => Undisturbed host site false (batch jobs probeId now)

/-! ## The jobs that raise -/

section Raising

variable {host : AgentHost} {turn : Turn} {job : Job}

theorem executeRestJob_error_iff {env : Loader} {apiGet : RestCall → Except String String}
    {specJson : String} :
    (∃ e, executeRestJob env apiGet specJson = .error e) ↔ ¬ReadableSpec env specJson := by
  rw [← restCall_isOk_iff, executeRestJob]
  cases restCall env specJson with
  | error e =>
    refine ⟨fun _ => ?_, fun _ => ⟨e, rfl⟩⟩
    rintro ⟨_, h⟩
    cases h
  | ok r =>
    refine ⟨?_, fun h => absurd ⟨r, rfl⟩ h⟩
    rintro ⟨_, h⟩
    cases h

theorem pushBackup_error_iff {d : Host} :
    (∃ e, pushBackup turn d = .error e) ↔
      (∃ e, turn.triage = .error e) ∨ ∃ hostname version model serial file,
        turn.triage = .ok (.success hostname version model serial file) ∧
          ((∃ e, turn.readBackup = .raised e) ∨ ∃ config e, turn.readBackup = .text config ∧
            turn.postBackup ⟨d.ip, hostname, d.vendor, version, model, serial, config⟩ =
              .error e) := by
  unfold pushBackup
  cases turn.triage with
  | error e => exact ⟨fun _ => .inl ⟨e, rfl⟩, fun _ => ⟨e, rfl⟩⟩
  | ok result =>
    cases result with
    | failure message =>
      refine ⟨fun ⟨_, h⟩ => (nomatch h), ?_⟩
      rintro (⟨_, h⟩ | ⟨_, _, _, _, _, h, _⟩)
      · cases h
      · cases h
    | success hostname version model serial file =>
      constructor
      · rintro ⟨e, h⟩
        refine .inr ⟨hostname, version, model, serial, file, rfl, ?_⟩
        cases hread : turn.readBackup with
        | osError e =>
          rw [hread] at h
          cases h
        | raised e => exact .inl ⟨e, rfl⟩
        | text config =>
          rw [hread] at h
          dsimp only at h
          cases hpost :
              turn.postBackup ⟨d.ip, hostname, d.vendor, version, model, serial, config⟩ with
          | error e => exact .inr ⟨config, e, rfl, hpost⟩
          | ok answer =>
            rw [hpost] at h
            cases h
      · rintro (⟨_, h⟩ | ⟨_, _, _, _, _, h, hfail⟩)
        · cases h
        · cases h
          rcases hfail with ⟨e, hread⟩ | ⟨config, e, hread, hpost⟩
          · exact ⟨e, by rw [hread]⟩
          · exact ⟨e, by rw [hread]; exact congrArg (Except.map _) hpost⟩

theorem sendCustomCommand_error_iff {d : Host} {command : String} {bypass : Bool} :
    (∃ e, sendCustomCommand host turn d command bypass = .error e) ↔
      Inventory.isManual host.codec d = false ∧
        (!bypass && dangerousCommands.any (contains (lower command))) = false ∧
          (∃ driver, host.resolveDriver (lower d.vendor) = .ok driver) ∧
            ∃ e, turn.credentials = .error e := by
  unfold sendCustomCommand
  cases Inventory.isManual host.codec d with
  | true => exact ⟨fun ⟨_, h⟩ => (nomatch h), fun h => (nomatch h.1)⟩
  | false =>
    cases (!bypass && dangerousCommands.any (contains (lower command))) with
    | true => exact ⟨fun ⟨_, h⟩ => (nomatch h), fun h => (nomatch h.2.1)⟩
    | false =>
      cases host.resolveDriver (lower d.vendor) with
      | error e => exact ⟨fun ⟨_, h⟩ => (nomatch h), fun ⟨_, _, ⟨_, h⟩, _⟩ => (nomatch h)⟩
      | ok driver =>
        cases turn.credentials with
        | error e => exact ⟨fun _ => ⟨rfl, rfl, ⟨driver, rfl⟩, e, rfl⟩, fun _ => ⟨e, rfl⟩⟩
        | ok _ => exact ⟨fun ⟨_, h⟩ => (nomatch h), fun ⟨_, _, _, _, h⟩ => (nomatch h)⟩

theorem executeJob_error_iff :
    (∃ e, executeJob host turn job = .error e) ↔ Raises host turn job := by
  unfold executeJob
  constructor
  · intro h
    by_cases hrest : job.kind = "rest"
    · rw [if_pos hrest] at h
      cases hd : byIp host.devices job.deviceIp with
      | none =>
        rw [hd] at h
        exact nomatch h.choose_spec
      | some d =>
        rw [hd] at h
        exact .rest d hrest hd (executeRestJob_error_iff.mp h)
    rw [if_neg hrest] at h
    by_cases htriage : job.kind = "triage"
    · rw [if_pos htriage] at h
      cases hd : byIp host.devices job.deviceIp with
      | none =>
        rw [hd] at h
        exact nomatch h.choose_spec
      | some d =>
        rw [hd] at h
        rcases pushBackup_error_iff.mp (map_error_iff.mp h) with
          ⟨e, hrun⟩ | ⟨_, _, _, _, _, hrun, ⟨e, hread⟩ | ⟨config, e, hread, hpost⟩⟩
        · exact .triage d e htriage hd hrun
        · exact .unreadable d _ _ _ _ _ e htriage hd hrun hread
        · exact .refused d _ _ _ _ _ config e htriage hd hrun hread hpost
    rw [if_neg htriage] at h
    by_cases hagent : startsWith job.command "_agent_" = true
    · rw [if_pos hagent] at h
      exact nomatch h.choose_spec
    rw [if_neg hagent] at h
    cases hd : byIp host.devices job.deviceIp with
    | none =>
      rw [hd] at h
      exact nomatch h.choose_spec
    | some d =>
      rw [hd] at h
      obtain ⟨hmanual, hlisted, ⟨driver, hdriver⟩, e, hcredentials⟩ :=
        sendCustomCommand_error_iff.mp (map_error_iff.mp h)
      exact .credentials d driver e hrest htriage (Bool.not_eq_true _ ▸ hagent) hd hmanual hlisted
        hdriver hcredentials
  · intro h
    cases h with
    | rest d hkind hknown hspec =>
      rw [if_pos hkind, hknown]
      exact executeRestJob_error_iff.mpr hspec
    | triage d e hkind hknown hrun =>
      rw [if_neg (by rw [hkind]; decide), if_pos hkind, hknown]
      exact map_error_iff.mpr (pushBackup_error_iff.mpr (.inl ⟨e, hrun⟩))
    | unreadable d _ _ _ _ _ e hkind hknown hrun hread =>
      rw [if_neg (by rw [hkind]; decide), if_pos hkind, hknown]
      exact map_error_iff.mpr (pushBackup_error_iff.mpr
        (.inr ⟨_, _, _, _, _, hrun, .inl ⟨e, hread⟩⟩))
    | refused d _ _ _ _ _ config e hkind hknown hrun hread hpost =>
      rw [if_neg (by rw [hkind]; decide), if_pos hkind, hknown]
      exact map_error_iff.mpr (pushBackup_error_iff.mpr
        (.inr ⟨_, _, _, _, _, hrun, .inr ⟨config, e, hread, hpost⟩⟩))
    | credentials d driver e hrest htriage hagent hknown hmanual hlisted hdriver hcredentials =>
      rw [if_neg hrest, if_neg htriage, if_neg (by rw [hagent]; exact Bool.false_ne_true), hknown]
      exact map_error_iff.mpr (sendCustomCommand_error_iff.mpr
        ⟨hmanual, hlisted, ⟨driver, hdriver⟩, e, hcredentials⟩)

end Raising

/-! ## Batches -/

section Batches

variable {host : AgentHost} {site : Job → Turn} {jobs : List Job}

theorem runJobs_isPrefix (host : AgentHost) (site : Job → Turn) (leaving : Bool) (jobs : List Job) :
    (runJobs host site leaving jobs).map Prod.fst <+: jobs := by
  induction jobs generalizing leaving with
  | nil => exact List.prefix_rfl
  | cons job jobs ih =>
    unfold runJobs
    split
    · exact List.nil_prefix
    · dsimp only
      split
      · exact List.nil_prefix
      · exact (List.prefix_cons_inj job).mpr (ih _)

theorem runJobs_eq_iff {leaving : Bool} :
    (runJobs host site leaving jobs).map Prod.fst = jobs ↔ Undisturbed host site leaving jobs := by
  induction jobs generalizing leaving with
  | nil => exact ⟨fun _ => trivial, fun _ => rfl⟩
  | cons job jobs ih =>
    rw [Undisturbed, ← executeJob_error_iff, runJobs]
    cases hrun : executeJob host (site job) job with
    | error e => exact ⟨fun h => (nomatch h), fun h => absurd ⟨e, rfl⟩ h.1⟩
    | ok result =>
      dsimp only
      rw [← ih]
      by_cases hgone : (leaving || leaves (site job) job) = true ∧ (site job).gone = true
      · rw [if_pos (Bool.and_eq_true_iff.mpr hgone)]
        refine ⟨fun h => (nomatch h), fun h => ?_⟩
        rw [h.2.1 hgone.1] at hgone
        exact nomatch hgone.2
      · rw [if_neg fun h => hgone (Bool.and_eq_true_iff.mp h), List.map_cons]
        refine ⟨fun h => ⟨fun ⟨_, he⟩ => (nomatch he), fun hleaving => ?_, (List.cons.inj h).2⟩,
          fun h => congrArg (job :: ·) h.2.2⟩
        exact Bool.eq_false_iff.mpr fun hg => hgone ⟨hleaving, hg⟩

theorem runJobs_ids_iff {leaving : Bool} :
    (runJobs host site leaving jobs).map (fun post => post.1.id) = jobs.map Job.id ↔
      Undisturbed host site leaving jobs := by
  rw [← runJobs_eq_iff]
  constructor
  · intro h
    have hlength := congrArg List.length h
    rw [List.length_map, List.length_map] at hlength
    exact (runJobs_isPrefix host site leaving jobs).eq_of_length (by rw [List.length_map, hlength])
  · intro h
    calc (runJobs host site leaving jobs).map (fun post => post.1.id)
        = ((runJobs host site leaving jobs).map Prod.fst).map Job.id := List.map_map.symm
      _ = jobs.map Job.id := by rw [h]

end Batches

/-! ## The table -/

section Tables

variable {env : Loader} {jobs : JobTable} {probeId : String} {host : AgentHost} {site : Job → Turn}
  {now : ℚ}

theorem map_id_postResult (jobs : JobTable) (post : Job × JobResult) :
    (postResult site probeId now jobs post).map Job.id = jobs.map Job.id := by
  unfold postResult
  split
  · exact map_id_map (sameJob_answer _ _ _ _ _) jobs
  · rfl

theorem map_id_visit : (visit jobs probeId host site now).map Job.id = jobs.map Job.id := by
  rw [visit]
  refine List.foldlRecOn (motive := fun table => List.map Job.id table = jobs.map Job.id) _ _ ?_
    fun table htable post _ => (map_id_postResult table post).trans htable
  exact map_id_map (sameJob_run _ now) jobs

theorem idle_posts {posts : List (Job × JobResult)}
    (haccepted : ∀ post ∈ posts, (site post.1).accepted = true)
    (h : ∀ j ∈ jobs, j.status = .running → j.probeId = probeId ∧ ∃ post ∈ posts, post.1.id = j.id) :
    ∀ j ∈ posts.foldl (postResult site probeId now) jobs, j.status ≠ .running := by
  induction posts generalizing jobs with
  | nil =>
    intro j hj hrunning
    obtain ⟨-, post, hpost, -⟩ := h j hj hrunning
    cases hpost
  | cons post posts ih =>
    refine ih (List.forall_mem_cons.mp haccepted).2 fun j hj hrunning => ?_
    rw [postResult, if_pos (haccepted post List.mem_cons_self)] at hj
    obtain ⟨old, hold, rfl⟩ := List.mem_map.mp hj
    by_cases hmatch : old.id = post.1.id ∧ old.probeId = probeId
    · rw [if_pos hmatch] at hrunning
      exact absurd hrunning (by
        show answerStatus post.2.status ≠ .running
        rw [answerStatus]
        split <;> simp)
    · rw [if_neg hmatch] at hrunning ⊢
      obtain ⟨hprobe, post', hpost', hid⟩ := h old hold hrunning
      refine ⟨hprobe, post', ?_, hid⟩
      rcases List.mem_cons.mp hpost' with rfl | hpost'
      · exact absurd ⟨hid.symm, hprobe⟩ hmatch
      · exact hpost'

theorem idle_visit (hids : (jobs.map Job.id).Nodup) (hidle : ∀ j ∈ jobs, j.status ≠ .running)
    (haccepted : ∀ job ∈ batch jobs probeId now, (site job).accepted = true)
    (hcalm : Undisturbed host site false (batch jobs probeId now)) :
    ∀ j ∈ visit jobs probeId host site now, j.status ≠ .running := by
  have hposts := runJobs_eq_iff.mpr hcalm
  refine idle_posts (fun post hpost => haccepted post.1 ?_) fun j hj hrunning => ?_
  · rw [← hposts]
    exact List.mem_map_of_mem hpost
  · obtain ⟨old, hold, rfl⟩ := List.mem_map.mp hj
    by_cases hclaimed : old.id ∈ (claimable jobs probeId 20).map Job.id
    · rw [if_pos hclaimed]
      refine ⟨(pending_of_mem_claimable hids hold hclaimed).1, ?_⟩
      have hbatch :
          (batch jobs probeId now).map Job.id = (claimable jobs probeId 20).map Job.id := by
        rw [batch, claimPendingJobs, List.map_map]
        rfl
      rw [← hbatch, ← hposts, List.map_map] at hclaimed
      exact List.mem_map.mp hclaimed
    · rw [if_neg hclaimed] at hrunning
      exact absurd hrunning (hidle old hold)

theorem asksPath_ok {path : String} {rows : List Job} (h : asksPath env path rows = .ok true) :
    ∃ j ∈ rows, ∃ spec, env.loads j.command = some (.obj spec) ∧
      (get? spec "path").bind Json.text? = some path := by
  induction rows with
  | nil => cases h
  | cons row rows ih =>
    rw [asksPath] at h
    have hlater : asksPath env path rows = .ok true → ∃ j ∈ row :: rows, ∃ spec,
        env.loads j.command = some (.obj spec) ∧
          (get? spec "path").bind Json.text? = some path := fun h =>
      let ⟨j, hj, hspec⟩ := ih h
      ⟨j, List.mem_cons_of_mem _ hj, hspec⟩
    split at h
    · exact hlater h
    · next spec hloads =>
      by_cases hpath : (get? spec "path").bind Json.text? = some path
      · exact ⟨row, List.mem_cons_self .., spec, hloads, hpath⟩
      · rw [if_neg hpath] at h
        exact hlater h
    · cases h

theorem noneStranded_of_idle (h : ∀ j ∈ jobs, j.status ≠ .running) : NoneStranded env jobs := by
  refine ⟨h, fun asker deviceIp path hasks => ?_⟩
  obtain ⟨j, hj, hspec⟩ := asksPath_ok hasks
  obtain ⟨hj, hrow⟩ := List.mem_filter.mp hj
  obtain ⟨hprobe, hip, hkind, hstatus⟩ := of_decide_eq_true hrow
  exact ⟨j, hj, hprobe, hip, hkind, hstatus.resolve_right (h j hj), hspec⟩

/-- The ids of the jobs tell them apart, and none is running. -/
structure Settled (jobs : JobTable) : Prop where
  ids : (jobs.map Job.id).Nodup
  idle : ∀ j ∈ jobs, j.status ≠ .running

theorem Settled.enqueue (h : Settled jobs) (req : JobRequest) (jobId : String) :
    Settled (visitStep env jobs (.enqueue req jobId now)) := by
  rw [visitStep]
  split
  · next jobs' hjobs =>
    obtain ⟨hnew, rfl⟩ := enqueueJob_ok hjobs
    constructor
    · rw [List.map_append, List.nodup_append]
      refine ⟨h.ids, by simp, fun a ha b hb hab => ?_⟩
      obtain ⟨j, hj, rfl⟩ := List.mem_map.mp ha
      exact hnew j hj (hab.trans (List.mem_singleton.mp hb))
    · intro j hj
      rcases List.mem_append.mp hj with hj | hj
      · exact h.idle j hj
      · rw [List.mem_singleton.mp hj, newJob]
        simp
  · exact h

theorem nodup_visitStep {a : VisitAction} (h : Settled jobs) :
    ((visitStep env jobs a).map Job.id).Nodup := by
  cases a with
  | enqueue req jobId now => exact (h.enqueue req jobId).ids
  | visit probeId host site now =>
    show ((visit jobs probeId host site now).map Job.id).Nodup
    rw [map_id_visit]
    exact h.ids

theorem answered_iff {a : VisitAction} (h : Settled jobs) (haccepts : Accepts jobs a) :
    Answered env jobs a ↔ Calm jobs a := by
  cases a with
  | enqueue req jobId now =>
    exact ⟨fun _ => trivial, fun _ => ⟨noneStranded_of_idle (h.enqueue req jobId).idle, trivial⟩⟩
  | visit probeId host site now =>
    refine ⟨fun hanswered => runJobs_ids_iff.mp hanswered.2, fun hcalm => ?_⟩
    exact ⟨noneStranded_of_idle (idle_visit h.ids h.idle haccepts hcalm), runJobs_ids_iff.mpr hcalm⟩

end Tables

/-! ## Main result -/

theorem settled_nil : Settled [] := ⟨List.nodup_nil, fun _ hj => nomatch hj⟩

/-- In a run whose results the central accepts, every visit posts one result for each job that was
claimed and strands none, exactly where all batches are undisturbed. -/
theorem run_answered_iff {env : Loader} {acts : List VisitAction} {jobs : JobTable}
    (h : Run (visitStep env) Accepts [] acts jobs) :
    Run (visitStep env) (Answered env) [] acts jobs ↔ Run (visitStep env) Calm [] acts jobs := by
  have hkeeps : ∀ jobs a, Settled jobs → Answered env jobs a → Settled (visitStep env jobs a) :=
    fun jobs a hsettled hanswered => ⟨nodup_visitStep hsettled, hanswered.1.idle⟩
  constructor
  · intro hanswered
    exact (h.and hanswered).mono (I := Settled) (fun jobs a hs ha => hkeeps jobs a hs ha.2)
      (fun jobs a hs ha => (answered_iff hs ha.1).mp ha.2) settled_nil
  · intro hcalm
    exact (h.and hcalm).mono (I := Settled)
      (fun jobs a hs ha => hkeeps jobs a hs ((answered_iff hs ha.1).mpr ha.2))
      (fun jobs a hs ha => (answered_iff hs ha.1).mpr ha.2) settled_nil

/-! ## A batch that breaks off -/

def siteHost : AgentHost where
  loader := bareLoader
  codec := ⟨⟨fun _ => "", fun _ => none⟩, fun _ => none, fun _ => "", id⟩
  resolveDriver := fun _ => .ok "cisco_ios"
  devices :=
    [⟨"10.0.0.2", "cisco", "custom", "", "", "", "Milano", "", "milan", "", "", "", "", ""⟩]

/-- A turn in which the switch answers if the credentials can be read. -/
def turnWith (credentials : Except String Unit) : Turn where
  triage := .ok (.failure none)
  readBackup := .text ""
  postBackup := fun _ => .ok []
  credentials := credentials
  session := .ok "ok"
  apiGet := fun _ => .ok ""
  manage := fun _ => ⟨"done", ""⟩
  updated := false
  gone := false
  accepted := true

/-- Two commands for the switch, and a visit of the agent. -/
def milanDay (credentials : Except String Unit) : List VisitAction :=
  [.enqueue { probeId := "milan", deviceIp := "10.0.0.2", command := "show clock" } "j1" 1,
    .enqueue { probeId := "milan", deviceIp := "10.0.0.2", command := "show version" } "j2" 2,
    .visit "milan" siteHost (fun _ => turnWith credentials) 60]

def afterDay (credentials : Except String Unit) : JobTable :=
  (milanDay credentials).foldl (visitStep bareLoader) []

theorem accepts_milanDay (credentials : Except String Unit) :
    Run (visitStep bareLoader) Accepts [] (milanDay credentials) (afterDay credentials) := by
  rw [milanDay]
  exact Run.cons trivial (Run.cons trivial (Run.cons (fun _ _ => rfl) (Run.nil _)))

/-- Where the credentials can be read, both commands are answered. -/
theorem run_answered_iff_milan :
    Run (visitStep bareLoader) (Answered bareLoader) [] (milanDay (.ok ()))
      (afterDay (.ok ())) := by
  refine (run_answered_iff (accepts_milanDay (.ok ()))).mpr ?_
  rw [milanDay]
  refine Run.cons trivial (Run.cons trivial (Run.cons (runJobs_ids_iff.mp ?_) (Run.nil _)))
  decide

/-- The credentials of the switch cannot be decrypted: both commands stay running, and no later
visit changes that. -/
theorem batch_breaks_off : (¬ ∀ (env : Loader) (acts : List VisitAction) (jobs : JobTable),
      Run (visitStep env) Accepts [] acts jobs → Run (visitStep env) (Answered env) [] acts jobs) ∧
    (visitStep bareLoader (afterDay (.error "decrypt"))
      (.visit "milan" siteHost (fun _ => turnWith (.ok ())) 120)).map Job.status =
        [.running, .running] := by
  have hrunning : (afterDay (.error "decrypt")).map Job.status = [.running, .running] := by
    decide
  refine ⟨fun hclaim => ?_, by decide⟩
  have hrun := hclaim _ _ _ (accepts_milanDay (.error "decrypt"))
  rw [milanDay] at hrun
  have hanswered := hrun.tail.tail.head
  obtain ⟨j, hj, hstatus⟩ : ∃ j ∈ afterDay (.error "decrypt"), j.status = .running := by
    refine List.mem_map.mp ?_
    rw [hrunning]
    exact List.mem_cons_self ..
  exact hanswered.1.idle j hj hstatus

end SentinelNet.Probes
