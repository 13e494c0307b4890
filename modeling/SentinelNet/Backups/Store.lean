import SentinelNet.Inventory.Hosts
import SentinelNet.Lib.FileTree

/-!
# Backups of configurations

`core/backup_store.py` keeps the last configuration of every device in a folder of its tenant, with
one folder for every vendor, and `config_drift/history.py` keeps the earlier ones in a folder beside
it.  A backup that is saved first takes what an earlier vendor or host name of the device has left.

* `sanitizeFilename`, `groupBackupDir`, `backupName`: where a backup is.
* `visit`, `removeStaleBackups`, `saveBackup`: the walk, and the file that is written after it.
* `recordVersion`, `prune`, `readVersion`: the archived versions.
* `Call`, `step`: a backup, and what is archived of it.
-/

namespace SentinelNet.Backups

open PyText FileTree Inventory

/-! ## Names -/

/-- The characters that a file name cannot have. -/
def forbidden : List Char :=
  [Char.ofNat 92, '/', ':', '*', '?', Char.ofNat 34, '<', '>', '|', ' ']

def sanitizeFilename (filename : String) : String :=
  let sanitized := String.ofList <| (filename.toList.filter fun c => 31 < c.toNat).map fun c =>
    if c ∈ forbidden then '_' else c
  if sanitized = "" then "device_unknown" else sanitized

/-- A device of the inventory, which has a valid address. -/
structure Device where
  ip : String
  group : String
  vendor : String
  hostname : String
  valid : validIp ip = true

/-- The folder of a tenant below `BACKUP_FOLDER`. -/
def tenantFolder (group : String) : String := sanitizeFilename (orElse group "unknown")

def vendorFolder (vendor : String) : String := sanitizeFilename (lower vendor)

def backupName (sysName ip : String) : String := sanitizeFilename sysName ++ "-" ++ ip ++ ".txt"

/-- `.history` beside the backups of a directory. -/
def historyOf (d : Dir) : Dir := d ++ [".history"]

def indexName (ip : String) : String := ip ++ "-index.json"

/-- The time of a version: what `strftime` gives, and the microseconds. -/
structure Stamp where
  seconds : String
  micros : String

def Stamp.text (now : Stamp) : String := now.seconds ++ "." ++ now.micros ++ "Z"

def archiveName (hostname ip : String) (now : Stamp) : String :=
  sanitizeFilename (orElse hostname ip) ++ "-" ++ ip ++ "." ++ now.text ++ ".txt"

/-- The name of a current backup of an address. -/
def isBackupOf (ip f : String) : Bool :=
  endsWith f ("-" ++ ip ++ ".txt") || endsWith f ("_" ++ ip ++ ".txt") || f = ip ++ ".txt"

/-- The name of a file of the history of an address. -/
def isHistoryOf (ip f : String) : Bool := contains f ("-" ++ ip ++ ".") || startsWith f (ip ++ "-")

/-! ## Files -/

/-- An entry of `versions`. -/
structure Version where
  hash : String
  seenAt : String
  size : ℕ
  file : String
  pinned : Bool

/-- The index of the versions of a device. -/
structure Index where
  device : String
  lastSeenAt : String
  versions : List Version

/-- What is in a file: a configuration, or an index as JSON. -/
inductive Content where
  | text (config : String)
  | index (i : Index)

/-- The files below `BACKUP_FOLDER`, and their directories. -/
abbrev BackupTree := FileTree.Tree Content

/-- The order in which `os.walk` yields directories. -/
structure Scan where
  order : List Dir → List Dir
  perm : ∀ ds, (order ds).Perm ds

/-- How the new file is written: as a whole, not at all, or up to some character. -/
inductive Outcome where
  | written
  /-- `open` raises. -/
  | notOpened
  /-- `write` raises after the file was emptied. -/
  | broken (k : ℕ)

section Operations

-- `BACKUP_FOLDER`
variable (base : Dir)

/-- `group_backup_dir` without a vendor. -/
def tenantDir (group : String) : Dir := push base (tenantFolder group)

def groupBackupDir (group vendor : String) : Dir :=
  if vendor = "" then tenantDir base group else push (tenantDir base group) (vendorFolder vendor)

def moveHistory (s : BackupTree) (root : Dir) (ip : String) (newDir : Dir) : BackupTree :=
  if historyOf root ∈ s.dirs then
    if historyOf root = historyOf newDir then s
    else (s.makedirs (historyOf newDir)).transfer (historyOf root) (historyOf newDir)
      (isHistoryOf ip)
  else s

/-- A directory of the walk of `remove_stale_backups`. -/
def visit (ip : String) (newDir : Dir) (keep : String) (s : BackupTree) (root : Dir) : BackupTree :=
  if root = newDir then s.discard root fun f => isBackupOf ip f && f ≠ keep
  else moveHistory (s.transfer root newDir (isBackupOf ip)) root ip newDir

/-- The directories of the tenant in the order of the walk. -/
def walked (s : BackupTree) (group : String) (scan : Scan) : List Dir :=
  scan.order (s.below (tenantDir base group))

def removeStaleBackups (s : BackupTree) (ip : String) (newDir : Dir) (keep group : String)
    (scan : Scan) : BackupTree :=
  (walked base s group scan).foldl (visit ip newDir keep) s

/-- `save_backup`, and whether it returns. -/
def saveBackup (s : BackupTree) (d : Device) (sysName config : String) (scan : Scan)
    (outcome : Outcome) : BackupTree × Bool :=
  let dir := groupBackupDir base d.group d.vendor
  let keep := backupName sysName d.ip
  let s := removeStaleBackups base (s.makedirs dir) d.ip dir keep d.group scan
  match outcome with
  | .written => (s.write (dir, keep) (.text config), true)
  | .notOpened => (s, false)
  | .broken k => (s.write (dir, keep) (.text (String.ofList (config.toList.take k))), false)

/-! ## Archived versions -/

def historyDir (d : Device) : Dir := historyOf (groupBackupDir base d.group d.vendor)

/-- `_load_index`, from a history folder. -/
def loadIndex (s : BackupTree) (dir : Dir) (ip : String) : Index :=
  match s.read (dir, indexName ip) with
  | some (.index i) => i
  | _ => ⟨ip, "", []⟩

def saveIndex (s : BackupTree) (dir : Dir) (ip : String) (i : Index) : BackupTree :=
  s.write (dir, indexName ip) (.index i)

/-- `prune`, with the number of versions that are kept, which may be all of them. -/
def prune (s : BackupTree) (dir : Dir) (ip : String) (keep : ℤ) : BackupTree :=
  let i := loadIndex s dir ip
  let kept := fun v : Version × ℕ => (v.2 : ℤ) < keep || v.1.pinned
  let toPrune := i.versions.zipIdx.filter fun v => !kept v
  if keep ≤ 0 then s
  else if (i.versions.length : ℤ) ≤ keep then s
  else if toPrune.isEmpty then s
  else
    saveIndex (toPrune.foldl (fun s v => s.remove (dir, v.1.file)) s) dir ip
      { i with versions := (i.versions.zipIdx.filter kept).map Prod.fst }

/-- `record_version`, with the digest of a configuration without its volatile lines. -/
def recordVersion (digest : String → String → String) (s : BackupTree) (d : Device)
    (config : String) (now : Stamp) (keep : ℤ) : BackupTree :=
  let dir := historyDir base d
  let s := s.makedirs dir
  let i : Index := { loadIndex s dir d.ip with device := d.ip, lastSeenAt := now.text }
  let hash := digest d.vendor config
  if i.versions.head?.any fun v => v.hash = hash then saveIndex s dir d.ip i
  else
    let file := archiveName d.hostname d.ip now
    let version : Version := ⟨hash, now.text, config.length, file, false⟩
    prune (saveIndex (s.write (dir, file) (.text config)) dir d.ip
      { i with versions := version :: i.versions }) dir d.ip keep

/-- `read_version`, from the folder beside a history folder. -/
def readVersionIn (s : BackupTree) (dir : Dir) (ip seenAt : String) : String :=
  match (loadIndex s (historyOf dir) ip).versions.find? fun v => v.seenAt = seenAt with
  | some v =>
    match s.read (historyOf dir, v.file) with
    | some (.text config) => config
    | _ => ""
  | none => ""

def readVersion (s : BackupTree) (d : Device) (seenAt : String) : String :=
  readVersionIn s (groupBackupDir base d.group d.vendor) d.ip seenAt

/-! ## Runs -/

/-- A backup: the device as it is in the inventory, its name and its configuration, and what the
file system does.  Where it is saved, a version is archived, or an error of this is logged. -/
structure Call where
  device : Device
  sysName : String
  config : String
  scan : Scan
  outcome : Outcome
  archived : Option Stamp

def step (digest : String → String → String) (keep : ℤ) (s : BackupTree) (c : Call) : BackupTree :=
  let r := saveBackup base s c.device c.sysName c.config c.scan c.outcome
  match r.2, c.archived with
  | true, some now => recordVersion base digest r.1 c.device c.config now keep
  | _, _ => r.1

end Operations

end SentinelNet.Backups
