import SentinelNet.Backups.Current
import SentinelNet.Probes.SiteBoundary
import SentinelNet.Redundancy.Service
import SentinelNet.Triage.Versions

/-!
# The records of a triage

`_run_backup_and_triage` writes what it reads of a device to five stores: the name to the inventory,
the version to a record of its address, the configuration and its history to the folder of its
tenant, and the stack it is to the redundancy groups.  The name goes to the first device with the
address and the version to the address itself, whichever tenant they belong to.

* `untouched_iff`: a triage leaves the others untouched exactly where it writes its own.
* `namesake_touched`: it does not where another customer has a device with the address.
-/

namespace SentinelNet.Triage

open Observability PyDict PyText FileTree Inventory Backups Redundancy
open Probes (Surroundings detectedVersions updateVersionInventory)

/-! ## Outcomes -/

/-- What is collected, what the file system does when it is saved, and the group that the parser
finds; nothing where the parser raises, and for a firewall. -/
structure Collected where
  sysName : String
  config : String
  scan : Scan
  outcome : Backups.Outcome
  archived : Option Stamp
  redundancy : Option (List CliMember × GroupType)

/-- How a triage ends. -/
inductive Ending where
  /-- A manual device, one of a site agent, or one without credentials. -/
  | refused
  /-- Unreachable, without a driver, or without a session. -/
  | failed (status : String)
  /-- The session breaks after the version was read. -/
  | broken (read : Firmware) (status : String)
  /-- The configuration was read; the status where it cannot be saved, which a firewall has none
  of. -/
  | collected (read : Firmware) (c : Collected) (failure : Option String)

/-- The version that is written where none was read. -/
def notRead : Firmware := ⟨"Non Rilevata", "", ""⟩

/-- The stores that a triage writes to. -/
structure Stores where
  table : Table
  versions : Dict (Dict Json)
  groups : GroupStore
  kept : WellKept groups
  backups : BackupTree

section Operations

variable (env : Surroundings) (base : Dir) (digest : String → String → String) (keep : ℤ)
  (now : String)

/-- `update_version_inventory`. -/
def Stores.detect (s : Stores) (dev : Device) (read : Firmware) (status : String) : Stores :=
  { s with
    versions := updateVersionInventory env s.versions now dev.ip (lower dev.vendor)
      (.str read.version) status read.model read.serial }

/-- `update_device_hostname`, without a tenant. -/
def Stores.rename (s : Stores) (dev : Device) (sysName : String) : Stores :=
  { s with table := updateDeviceHostname s.table dev.ip sysName none }

def detection (dev : Device) (c : Collected) (found : List CliMember × GroupType) :
    RedundancyAction :=
  .cli dev.group dev.ip c.sysName found.1 found.2 now

/-- `upsert_redundancy_from_cli`, whose errors are logged. -/
def Stores.group (s : Stores) (dev : Device) (c : Collected) : Stores :=
  match c.redundancy with
  | some found =>
    { s with
      groups := redundancyStep s.groups (detection now dev c found)
      kept := s.kept.step _ }
  | none => s

/-- `record_version`, whose errors are logged. -/
def Stores.archive (s : Stores) (dev : Device) (c : Collected) : Stores :=
  match c.archived with
  | some stamp =>
    { s with backups := recordVersion base digest s.backups dev c.config stamp keep }
  | none => s

/-- `_run_backup_and_triage`, with `_fortigate_backup_and_triage` for firewalls. -/
def triage (s : Stores) (dev : Device) : Ending → Stores
  | .refused => s
  | .failed status => s.detect env now dev notRead status
  | .broken read status => (s.detect env now dev read "online").detect env now dev notRead status
  | .collected read c failure =>
    let s := (s.detect env now dev read "online").rename dev c.sysName
    let r := saveBackup base s.backups dev c.sysName c.config c.scan c.outcome
    let s := { s with backups := r.1 }
    if r.2 then (s.archive base digest keep dev c).group now dev c
    else
      match failure with
      | some status => s.detect env now dev notRead status
      | none => s

/-! ## Statements -/

/-- No record of a device of another tenant changes. -/
structure Untouched (s s' : Stores) (dev : Device) : Prop where
  hostname : ∀ r ∈ s.table.rows, r.group ≠ dev.group → r ∈ s'.table.rows
  version : ∀ r ∈ s.table.rows, r.group ≠ dev.group →
    reading env s'.versions r.ip = reading env s.versions r.ip
  redundancy : ∀ other, other ≠ dev.group → ofTenant s'.groups other = ofTenant s.groups other
  backups : ∀ r ∈ s.table.rows, r.group ≠ dev.group → ∀ d f, tenantDir base r.group <+: d →
    isBackupOf r.ip f = true ∨ isHistoryOf r.ip f = true →
      s'.backups.read (d, f) = s.backups.read (d, f)

def Ending.sysName : Ending → Option String
  | .collected _ c _ => some c.sysName
  | _ => none

/-- The group that is written, with its name. -/
def Ending.found : Ending → Option (Collected × (List CliMember × GroupType))
  | .collected _ c _ =>
    match c.outcome with
    | .written => c.redundancy.map fun found => (c, found)
    | _ => none
  | _ => none

/-- The versions that are written, each with its status. -/
def Ending.writes : Ending → List (Firmware × String)
  | .refused => []
  | .failed status => [(notRead, status)]
  | .broken read status => [(read, "online"), (notRead, status)]
  | .collected read c failure =>
    (read, "online") ::
      match c.outcome with
      | .written => []
      | _ => (failure.map fun status => (notRead, status)).toList

/-- A reading is what a triage leaves of it: the last version and status that were written, and the
model and serial number that were read. -/
def Reading.Says (r : Reading) (writes : List (Firmware × String)) : Prop :=
  ∀ last, writes.getLast? = some last →
    r.version = cleanField env (some (.str last.1.version)) ∧ r.status = some (.str last.2) ∧
      r.model ≠ none ∧ (∀ w ∈ writes, w.1.hasModel = true → r.model = some (.str w.1.model)) ∧
        ∀ w ∈ writes, w.1.serial ≠ "" → r.serial = some (.str w.1.serial)

/-- The version of an address reads the same where it is cleaned again some times. -/
def Steady (versions : Dict (Dict Json)) (ip : String) (times : ℕ) : Prop :=
  (cleanField env)^[times] (reading env versions ip).version = (reading env versions ip).version

/-- What a triage writes is about its own device, or as it was.  The first device with the address
is of the tenant, or has the name already.  No device of another tenant has the address, or its
record says already what is written; and the other versions are written back as they are read.  The
group with the address is the operator's or of the tenant, or an index refuses the write. -/
structure Own (s : Stores) (dev : Device) (o : Ending) : Prop where
  hostname : ∀ name, o.sysName = some name → ∀ r, s.table.rows.find? (fun r => r.ip = dev.ip) =
    some r → r.group = dev.group ∨ r.hostname = name
  version : ∀ r ∈ s.table.rows, r.group ≠ dev.group →
    if r.ip = dev.ip then (reading env s.versions dev.ip).Says env o.writes
    else Steady env s.versions r.ip o.writes.length
  redundancy : ∀ c found, o.found = some (c, found) → Harmless s.groups (detection now dev c found)

/-- The tenants of the devices have folders of their own. -/
structure Apart (s : Stores) (dev : Device) : Prop where
  tenant : Plain (tenantFolder dev.group)
  vendor : dev.vendor ≠ "" → Plain (vendorFolder dev.vendor)
  others : ∀ r ∈ s.table.rows, r.group ≠ dev.group →
    Plain (tenantFolder r.group) ∧ tenantFolder r.group ≠ tenantFolder dev.group

end Operations

/-! ## What a triage writes -/

variable {env : Surroundings} {base : Dir} {digest : String → String → String} {keep : ℤ}
  {now : String} {s : Stores} {dev : Device} {o : Ending}

theorem archive_eq (s : Stores) (c : Collected) : s.archive base digest keep dev c =
    { s with backups := (s.archive base digest keep dev c).backups } := by
  unfold Stores.archive
  split
  · rfl
  · rfl

theorem group_eq (s : Stores) (c : Collected) : s.group now dev c =
    { s with groups := (s.group now dev c).groups, kept := (s.group now dev c).kept } := by
  unfold Stores.group
  split
  · rfl
  · rfl

/-- What a triage writes before its backup is there or is not. -/
def Stores.saved (env : Surroundings) (base : Dir) (now : String) (s : Stores) (dev : Device)
    (read : Firmware) (c : Collected) : Stores :=
  let s := (s.detect env now dev read "online").rename dev c.sysName
  { s with backups := (saveBackup base s.backups dev c.sysName c.config c.scan c.outcome).1 }

variable {read : Firmware} {c : Collected} {failure : Option String}

theorem triage_written (hout : c.outcome = .written) :
    triage env base digest keep now s dev (.collected read c failure) =
      ((s.saved env base now dev read c).archive base digest keep dev c).group now dev c := by
  have hsnd : (saveBackup base s.backups dev c.sysName c.config c.scan c.outcome).2 = true := by
    unfold saveBackup
    rw [hout]
  exact if_pos hsnd

theorem triage_unwritten (hout : c.outcome ≠ .written) :
    triage env base digest keep now s dev (.collected read c failure) =
      failure.elim (s.saved env base now dev read c)
        ((s.saved env base now dev read c).detect env now dev notRead) := by
  have hsnd : (saveBackup base s.backups dev c.sysName c.config c.scan c.outcome).2 = false := by
    unfold saveBackup
    cases h : c.outcome with
    | written => exact absurd h hout
    | notOpened => rfl
    | broken k => rfl
  refine (if_neg (by rw [← Bool.not_eq_true] at hsnd; exact hsnd)).trans ?_
  cases failure with
  | none => rfl
  | some status => rfl

theorem writes_unwritten (hout : c.outcome ≠ .written) : (Ending.collected read c failure).writes =
    (read, "online") :: (failure.map fun status => (notRead, status)).toList := by
  unfold Ending.writes
  dsimp only
  cases h : c.outcome with
  | written => exact absurd h hout
  | notOpened => rfl
  | broken k => rfl

theorem versions_triage : (triage env base digest keep now s dev o).versions =
    updates env now dev.ip (lower dev.vendor) s.versions o.writes := by
  cases o with
  | refused => rfl
  | failed status => rfl
  | broken read status => rfl
  | collected read c failure =>
    by_cases hout : c.outcome = .written
    · rw [triage_written hout, group_eq, archive_eq, Ending.writes, hout]
      rfl
    · rw [triage_unwritten hout, writes_unwritten hout]
      cases failure with
      | none => rfl
      | some status => rfl

theorem table_triage : (triage env base digest keep now s dev o).table =
    match o.sysName with
    | some name => updateDeviceHostname s.table dev.ip name none
    | none => s.table := by
  cases o with
  | refused => rfl
  | failed status => rfl
  | broken read status => rfl
  | collected read c failure =>
    by_cases hout : c.outcome = .written
    · rw [triage_written hout, group_eq, archive_eq]
      rfl
    · rw [triage_unwritten hout]
      cases failure with
      | none => rfl
      | some status => rfl

theorem groups_triage : (triage env base digest keep now s dev o).groups =
    match o.found with
    | some (c, found) => redundancyStep s.groups (detection now dev c found)
    | none => s.groups := by
  cases o with
  | refused => rfl
  | failed status => rfl
  | broken read status => rfl
  | collected read c failure =>
    by_cases hout : c.outcome = .written
    · rw [triage_written hout, Stores.group, archive_eq, Ending.found, hout]
      cases c.redundancy with
      | none => rfl
      | some found => rfl
    · have hfound : (Ending.collected read c failure).found = none := by
        unfold Ending.found
        dsimp only
        cases h : c.outcome with
        | written => exact absurd h hout
        | notOpened => rfl
        | broken k => rfl
      rw [triage_unwritten hout, hfound]
      cases failure with
      | none => rfl
      | some status => rfl

theorem backups_triage {e : Dir} {f : String}
    (hdir : tenantDir base dev.group <+: groupBackupDir base dev.group dev.vendor)
    (he : ¬ tenantDir base dev.group <+: e) :
    (triage env base digest keep now s dev o).backups.read (e, f) = s.backups.read (e, f) := by
  cases o with
  | refused => rfl
  | failed status => rfl
  | broken read status => rfl
  | collected read c failure =>
    have hsaved := read_saveBackup_outside (s := s.backups) (f := f) c.sysName c.config c.scan
      c.outcome hdir he
    by_cases hout : c.outcome = .written
    · rw [triage_written hout, group_eq]
      unfold Stores.archive
      split
      · exact (read_recordVersion_outside _ _ hdir he).trans hsaved
      · exact hsaved
    · rw [triage_unwritten hout]
      cases failure with
      | none => exact hsaved
      | some status => exact hsaved

theorem backups_triage_of_none (h : o.sysName = none) {p : Dir × String} :
    (triage env base digest keep now s dev o).backups.read p = s.backups.read p := by
  cases o with
  | refused => rfl
  | failed status => rfl
  | broken read status => rfl
  | collected read c failure => cases h

/-! ## Whose records they are -/

variable {r : Reading}

theorem says_singleton {w : Firmware × String} : r.Says env [w] ↔
    r.version = cleanField env (some (.str w.1.version)) ∧ r.status = some (.str w.2) ∧
      r.model ≠ none ∧ (w.1.hasModel = true → r.model = some (.str w.1.model)) ∧
        (w.1.serial ≠ "" → r.serial = some (.str w.1.serial)) := by
  unfold Reading.Says
  rw [List.getLast?_singleton]
  simp only [Option.some.injEq, forall_eq', List.mem_singleton, forall_eq]

theorem write_eq_iff (w : Firmware × String) : r.write env w.1 w.2 = r ↔ r.Says env [w] := by
  rw [says_singleton]
  unfold Reading.write
  constructor
  · intro h
    have hmodel := congrArg Reading.model h
    have hserial := congrArg Reading.serial h
    dsimp only at hmodel hserial
    refine ⟨(congrArg Reading.version h).symm, (congrArg Reading.status h).symm, ?_,
      fun hread => ?_, fun hread => ?_⟩
    · rw [← hmodel]
      split
      · exact Option.some_ne_none _
      · cases r.model with
        | none => exact Option.some_ne_none _
        | some m => exact Option.some_ne_none _
    · rw [if_pos hread] at hmodel
      exact hmodel.symm
    · rw [if_neg hread] at hserial
      exact hserial.symm
  · rintro ⟨hversion, hstatus, hnone, hmodel, hserial⟩
    have hmodel' : (if w.1.hasModel then some (Json.str w.1.model)
        else r.model.or (some (.str "Non Rilevato"))) = r.model := by
      by_cases hread : w.1.hasModel = true
      · rw [if_pos hread]
        exact (hmodel hread).symm
      · rw [if_neg hread]
        obtain ⟨m, hm⟩ := Option.ne_none_iff_exists'.mp hnone
        rw [hm, Option.some_or]
    have hserial' : (if w.1.serial = "" then r.serial else some (Json.str w.1.serial)) =
        r.serial := by
      by_cases hread : w.1.serial = ""
      · rw [if_pos hread]
      · rw [if_neg hread]
        exact (hserial hread).symm
    rw [hmodel', hserial', ← hversion, ← hstatus]

theorem write_notRead_eq_iff {read : Firmware} {status before : String} :
    (r.write env read before).write env notRead status = r ↔
      r.Says env [(read, before), (notRead, status)] := by
  have htells : r.Says env [(read, before), (notRead, status)] ↔
      r.version = cleanField env (some (.str "Non Rilevata")) ∧ r.status = some (.str status) ∧
        r.model ≠ none ∧ (read.hasModel = true → r.model = some (.str read.model)) ∧
          (read.serial ≠ "" → r.serial = some (.str read.serial)) := by
    have hnone : notRead.hasModel = false := rfl
    have hempty : notRead.serial = "" := rfl
    unfold Reading.Says
    simp only [List.getLast?_cons_cons, List.getLast?_singleton, Option.some.injEq, forall_eq',
      List.mem_cons, List.not_mem_nil, or_false, forall_eq_or_imp, forall_eq, hnone, hempty,
      Bool.false_eq_true, false_implies, and_true, ne_eq, not_true_eq_false]
    rfl
  have hone : (r.write env read before).write env notRead status =
      r.write env { read with version := "Non Rilevata" } status := by
    have hread : ({ read with version := "Non Rilevata" } : Firmware).hasModel = read.hasModel :=
      rfl
    have hnone : notRead.hasModel = false := rfl
    have hempty : notRead.serial = "" := rfl
    unfold Reading.write
    dsimp only
    rw [hread, hnone, if_neg Bool.false_ne_true, if_pos hempty]
    have hmodel : (if read.hasModel then some (Json.str read.model)
        else r.model.or (some (.str "Non Rilevato"))).or (some (.str "Non Rilevato")) =
          if read.hasModel then some (Json.str read.model)
          else r.model.or (some (.str "Non Rilevato")) := by
      split
      · rfl
      · cases r.model with
        | none => rfl
        | some m => rfl
    rw [hmodel]
    rfl
  rw [hone, htells]
  exact (write_eq_iff ({ read with version := "Non Rilevata" }, status)).trans says_singleton

theorem updates_eq_iff (o : Ending) :
    o.writes.foldl (fun r w => r.write env w.1 w.2) r = r ↔ r.Says env o.writes := by
  cases o with
  | refused => exact iff_of_true rfl fun _ h => nomatch h
  | failed status => exact write_eq_iff (notRead, status)
  | broken read status => exact write_notRead_eq_iff
  | collected read c failure =>
    by_cases hout : c.outcome = .written
    · rw [Ending.writes, hout]
      exact write_eq_iff (read, "online")
    · rw [writes_unwritten hout]
      cases failure with
      | none => exact write_eq_iff (read, "online")
      | some status => exact write_notRead_eq_iff

/-- What is read of an address after a triage is as before exactly where it says what is written, or
is cleaned to what it is. -/
theorem reading_triage_iff (ip : String) :
    reading env (triage env base digest keep now s dev o).versions ip = reading env s.versions ip ↔
      if ip = dev.ip then (reading env s.versions dev.ip).Says env o.writes
      else Steady env s.versions ip o.writes.length := by
  rw [versions_triage]
  by_cases hip : ip = dev.ip
  · rw [if_pos hip, hip, reading_updates]
    exact updates_eq_iff o
  · rw [if_neg hip, reading_updates_of_ne _ hip]
    unfold Steady
    constructor
    · exact fun h => congrArg Reading.version h
    · intro h
      rw [h]

theorem renamed_mem {p : Host → Bool} {name : String} {rows : List Host} {r : Host}
    (h : rows.find? p = some r) : { r with hostname := name } ∈ renameFirst p name rows := by
  induction rows with
  | nil => cases h
  | cons d rows ih =>
    rw [renameFirst]
    by_cases hd : p d = true
    · rw [List.find?_cons_of_pos hd] at h
      obtain rfl := Option.some.inj h
      rw [if_pos hd]
      exact List.mem_cons_self ..
    · rw [List.find?_cons_of_neg hd] at h
      rw [if_neg hd]
      exact List.mem_cons_of_mem _ (ih h)

/-- The rows of the other tenants are as before exactly where the first row with the address is of
the tenant, or has the name. -/
theorem hostnames_iff (table : Table) (ip group name : String) :
    (∀ r ∈ table.rows, r.group ≠ group → r ∈ (updateDeviceHostname table ip name none).rows) ↔
      ∀ r, table.rows.find? (fun r => r.ip = ip) = some r →
        r.group = group ∨ r.hostname = name := by
  have hfind : (fun d : Host => decide (d.ip = ip) && (none : Option String).all fun g =>
      d.group = g) = fun d => decide (d.ip = ip) := by
    funext d
    exact Bool.and_true _
  unfold updateDeviceHostname
  dsimp only
  rw [hfind]
  constructor
  · intro h r hr
    by_contra hboth
    rw [not_or] at hboth
    have hrow := h r (List.mem_of_find?_eq_some hr) hboth.1
    have hnamed : { r with hostname := name } ∈
        renameFirst (fun d : Host => decide (d.ip = ip)) name table.rows := renamed_mem hr
    have hkeys : ((renameFirst (fun d : Host => decide (d.ip = ip)) name table.rows).map
        Host.pair).Nodup := by
      rw [renameFirst_pair]
      exact table.keys
    have heq : r = { r with hostname := name } := List.inj_on_of_nodup_map hkeys hrow hnamed rfl
    exact hboth.2 (congrArg Host.hostname heq)
  · intro h r hr hgroup
    exact mem_renameFirst hr fun hfirst => (h r hfirst).resolve_left hgroup

/-! ## Folders of others -/

theorem Apart.outside (h : Apart s dev) {r : Host} (hr : r ∈ s.table.rows)
    (hgroup : r.group ≠ dev.group) {d : Dir} (hd : tenantDir base r.group <+: d) :
    ¬ tenantDir base dev.group <+: d := by
  obtain ⟨hplain, hne⟩ := h.others r hr hgroup
  unfold tenantDir at hd ⊢
  rw [push_of_proper hplain.1] at hd
  rw [push_of_proper h.tenant.1]
  exact fun hown => hne (eq_of_append_prefixes hd hown)

theorem Apart.prefix_dir (h : Apart s dev) :
    tenantDir base dev.group <+: groupBackupDir base dev.group dev.vendor := by
  unfold groupBackupDir
  split
  · exact List.prefix_refl _
  · next hvendor =>
    rw [push_of_proper (h.vendor hvendor).1]
    exact List.prefix_append _ _

/-- Where the tenants have folders of their own or nothing is saved, a triage leaves the devices of
the other tenants untouched exactly where it writes its own records. -/
theorem untouched_iff (env : Surroundings) (base : Dir) (digest : String → String → String)
    (keep : ℤ) (now : String) (s : Stores) (dev : Device) (o : Ending)
    (h : o.sysName ≠ none → Apart s dev) :
    Untouched env base s (triage env base digest keep now s dev o) dev ↔ Own env now s dev o := by
  have hnames : (∀ r ∈ s.table.rows, r.group ≠ dev.group →
      r ∈ (triage env base digest keep now s dev o).table.rows) ↔
        ∀ name, o.sysName = some name → ∀ r, s.table.rows.find? (fun r => r.ip = dev.ip) =
          some r → r.group = dev.group ∨ r.hostname = name := by
    rw [table_triage]
    cases o.sysName with
    | none => exact iff_of_true (fun r hr _ => hr) fun _ hname => nomatch hname
    | some name =>
      refine (hostnames_iff s.table dev.ip dev.group name).trans
        ⟨fun h name' hname' => ?_, fun h => h name rfl⟩
      rw [← Option.some.inj hname']
      exact h
  have hgroups : (∀ other, other ≠ dev.group →
      ofTenant (triage env base digest keep now s dev o).groups other = ofTenant s.groups other) ↔
        ∀ c found, o.found = some (c, found) → Harmless s.groups (detection now dev c found) := by
    rw [groups_triage]
    cases o.found with
    | none => exact iff_of_true (fun _ _ => rfl) fun _ _ hfound => nomatch hfound
    | some found =>
      refine (others_cli_iff s.kept _ _ _ _ _ _).trans ⟨fun h c' found' heq => ?_,
        fun h => h found.1 found.2 rfl⟩
      obtain rfl := Option.some.inj heq
      exact h
  have hfiles : ∀ r ∈ s.table.rows, r.group ≠ dev.group → ∀ {d f},
      tenantDir base r.group <+: d → (triage env base digest keep now s dev o).backups.read (d, f) =
        s.backups.read (d, f) := by
    intro r hr hgroup d f hd
    by_cases hsaves : o.sysName = none
    · exact backups_triage_of_none hsaves
    · exact backups_triage (h hsaves).prefix_dir ((h hsaves).outside hr hgroup hd)
  constructor
  · intro huntouched
    exact ⟨hnames.mp huntouched.hostname,
      fun r hr hgroup => (reading_triage_iff r.ip).mp (huntouched.version r hr hgroup),
      hgroups.mp huntouched.redundancy⟩
  · intro hown
    exact ⟨hnames.mpr hown.hostname,
      fun r hr hgroup => (reading_triage_iff r.ip).mpr (hown.version r hr hgroup),
      hgroups.mpr hown.redundancy,
      fun r hr hgroup d f hd _ => hfiles r hr hgroup hd⟩

/-! ## Two customers -/

/-- The stores before a first triage. -/
def newStores (table : Table) : Stores := ⟨table, [], GroupStore.empty, wellKept_empty, Tree.empty⟩

theorem validIp_acme : validIp "10.0.0.1" = true := by decide

def acmeSwitch : Device := ⟨"10.0.0.1", "acme", "cisco", "", validIp_acme⟩

/-- Its triage, which reads a name, a version and a configuration. -/
def switchTriage : Ending :=
  .collected ⟨"15.2", "C2960", "FOC1"⟩ ⟨"core", "hostname core", ⟨id, List.Perm.refl⟩, .written,
    some ⟨"20261010T000000", "000000"⟩, none⟩ (some "error")

/-- What is triaged of `acme` leaves the router of `beta` with another address as it was. -/
theorem untouched_twoSites :
    Untouched Probes.plainSurroundings ["backup-config"] (newStores Probes.twoSites.table)
      (triage Probes.plainSurroundings ["backup-config"] (fun _ config => config) 0 "t1"
        (newStores Probes.twoSites.table) acmeSwitch switchTriage) acmeSwitch := by
  have hapart : Apart (newStores Probes.twoSites.table) acmeSwitch :=
    ⟨by decide, fun _ => by decide, by decide⟩
  refine (untouched_iff _ _ _ _ _ _ _ _ fun _ => hapart).mpr
    ⟨fun name _ r hr => .inl ?_, fun r hr hgroup => ?_, fun c found h => nomatch h⟩
  · have hfirst : (newStores Probes.twoSites.table).table.rows.find?
        (fun r => r.ip = acmeSwitch.ip) =
          some (Probes.plainHost "10.0.0.1" "acme" "central" "hq") := by decide
    rw [← Option.some.inj (hfirst.symm.trans hr)]
    rfl
  · have hip : r.ip ≠ acmeSwitch.ip := by
      revert hgroup
      revert r
      decide
    rw [if_neg hip]
    rfl

/-- The switches of two customers have one address. -/
def oneAddress : Table where
  rows := [Probes.plainHost "10.0.0.1" "beta" "central" "depot",
    Probes.plainHost "10.0.0.1" "acme" "central" "hq"]
  keys := by decide

/-- The switch of `beta` is read as offline where that of `acme` does not answer, and has its name
where it does. -/
theorem namesake_touched :
    ¬ Untouched Probes.plainSurroundings ["backup-config"] (newStores oneAddress)
        (triage Probes.plainSurroundings ["backup-config"] (fun _ config => config) 0 "t1"
          (newStores oneAddress) acmeSwitch (.failed "offline")) acmeSwitch ∧
      ¬ Untouched Probes.plainSurroundings ["backup-config"] (newStores oneAddress)
        (triage Probes.plainSurroundings ["backup-config"] (fun _ config => config) 0 "t1"
          (newStores oneAddress) acmeSwitch switchTriage) acmeSwitch := by
  have hbeta : Probes.plainHost "10.0.0.1" "beta" "central" "depot" ∈
      (newStores oneAddress).table.rows := List.mem_cons_self ..
  constructor
  · intro h
    have htells := (reading_triage_iff _).mp (h.version _ hbeta (by decide))
    have hsame : (Probes.plainHost "10.0.0.1" "beta" "central" "depot").ip = acmeSwitch.ip := rfl
    rw [if_pos hsame] at htells
    exact nomatch (htells (notRead, "offline") rfl).2.1
  · intro h
    have hnames := h.hostname
    rw [table_triage] at hnames
    rcases (hostnames_iff oneAddress "10.0.0.1" "acme" "core").mp hnames _ rfl with hgroup | hname
    · exact absurd hgroup (by decide)
    · exact absurd hname (by decide)

end SentinelNet.Triage
