import SentinelNet.Observability.Window

/-!
# The inventory

`services/inventory_manager.py` keeps the devices in the table `hosts` under their organization and
address, and the decommissioned ones in a table of the same shape.

* `mergedRow`: the row that an entry makes of the one that is there.
* `addOrUpdateDevice_ok`, `mem_renameFirst`: what they leave of the table.
-/

namespace SentinelNet.Inventory

open Observability PyDict PyText

/-! ## Rows -/

def vendorAliases : List (String × String) :=
  [("fotinet", "fortinet"), ("forti", "fortinet"), ("fortigate", "fortinet"),
    ("fortios", "fortinet"), ("palo-alto", "paloalto"), ("palo_alto", "paloalto"),
    ("palo", "paloalto"), ("panos", "paloalto"), ("hp", "hpe"), ("procurve", "hpe"),
    ("junos", "juniper"), ("juniper_junos", "juniper"), ("cisco_ios", "cisco"),
    ("ubuntu", "linux"), ("debian", "linux"), ("rhel", "linux"), ("redhat", "linux"),
    ("centos", "linux"), ("rocky", "linux"), ("almalinux", "linux"), ("suse", "linux"),
    ("proxmox", "linux"), ("win", "windows"), ("windows server", "windows"),
    ("windows_server", "windows"), ("winsrv", "windows"), ("microsoft", "windows")]

/-- A row of `hosts`, as `read_hosts` gives it: every column a text. -/
structure Host where
  ip : String
  vendor : String
  profile : String
  username : String
  password : String
  enableSecret : String
  group : String
  hostname : String
  probe : String
  location : String
  sshPort : String
  transports : String
  snmpCommunity : String
  snmpDisabled : String
  deriving DecidableEq

/-- `device_pair`: organization and address. -/
def Host.pair (d : Host) : String × String := (d.group, d.ip)

/-- Under a name, so that definitions that look for a pair need no proof of their own. -/
instance lawfulBEqPair : LawfulBEq (String × String) := inferInstance

/-- A location, as far as the inventory reads it. -/
structure Location where
  id : String
  org : String
  probe : String

/-- What the inventory uses of Python and of the vault: `json`, the text of a value and the
encryption. -/
structure Codec where
  python : Python
  loads : String → Option Json
  dumps : Dict Json → String
  encrypt : String → String

/-! ## Transports -/

def allowedTransports : List String :=
  ["ssh", "telnet", "netconf", "restconf", "tcp", "udp", "manual"]

/-- The transport of a row without a map of transports. -/
def legacyTransports (d : Host) : Dict Json :=
  let port := if strip d.sshPort = "" then 22 else (int (strip d.sshPort)).getD 22
  [("ssh", .int port)]

def parseTransports (env : Codec) (d : Host) : Dict Json :=
  if d.transports = "" then legacyTransports d
  else
    match env.loads d.transports with
    | some (.obj data) =>
      let out := data.filter fun p => p.1 ∈ allowedTransports
      if out.isEmpty then legacyTransports d else out
    | _ => legacyTransports d

def isManual (env : Codec) (d : Host) : Bool := has (parseTransports env d) "manual"

def validateTransport (p : String × Option ℤ) : Except String (String × Option ℤ) :=
  if p.1 ∉ allowedTransports then
    .error ("Protocollo di trasporto non supportato: '" ++ p.1 ++ "'.")
  else if p.1 = "manual" then .ok (p.1, none)
  else
    match p.2 with
    | none => .ok p
    | some port =>
      if 1 ≤ port ∧ port ≤ 65535 then .ok p
      else .error ("Porta non valida per il protocollo '" ++ p.1 ++ "': " ++ intStr port ++ ".")

def validateTransports (transports : Dict (Option ℤ)) : Except String (Dict (Option ℤ)) :=
  (transports.mapM validateTransport).bind fun clean =>
    if has clean "manual" && 1 < clean.length then
      .error "Il trasporto 'manual' non si combina con altri protocolli."
    else .ok clean

/-! ## Entries -/

/-- What a caller says about a device; `none` keeps what is there. -/
structure Entry where
  ip : String
  vendor : String
  profile : String
  username : String
  password : String
  enableSecret : String
  group : String
  probe : Option String := none
  sshPort : Option ℤ := none
  transports : Option (Dict (Option ℤ)) := none
  snmpCommunity : Option String := none
  snmpDisabled : Option Bool := none
  location : Option String := none
  requireLocation : Bool := true
  hostname : Option String := none

/-- The four numbers of `IP_PATTERN`, which a line break may follow. -/
def ipParts (ip : String) : Option (List ℕ) :=
  let cs := if ip.toList.getLast? = some '\n' then ip.toList.dropLast else ip.toList
  let parts := cs.splitOn '.'
  if parts.length = 4 ∧ parts.all fun p => isDigits p && p.length ≤ 3 then
    some (parts.map ofDigits)
  else none

/-- An address that the inventory accepts. -/
def validIp (ip : String) : Bool :=
  match ipParts ip with
  | some parts => parts.all fun n => n ≤ 255
  | none => false

/-- The row with a key. -/
def findPair (devices : List Host) (pair : String × String) : Option Host :=
  devices.find? fun d => d.pair = pair

def orElse (v w : String) : String := if v = "" then w else v

/-- A column of the row that is there. -/
def column (existing : Option Host) (f : Host → String) : String := (existing.map f).getD ""

section Merge

variable (env : Codec)

def encryptPassword (password : String) : String :=
  if password = "" then "" else env.encrypt password

/-- A credential that was given, or the one that is there. -/
def mergedSecret (existing : Option Host) (given : String) (f : Host → String) : String :=
  if given = "" then column existing f else env.encrypt given

def resolveLocation (getLocation : String → Option Location) (existing : Option Host) (e : Entry) :
    Except String (String × String) :=
  let location := e.location.getD (column existing Host.location)
  if e.requireLocation then
    if location = "" then .error "La sede è obbligatoria per un nuovo dispositivo."
    else
      match getLocation location with
      | some l =>
        if l.org = e.group then .ok (location, l.probe)
        else .error ("Sede '" ++ location ++ "' inesistente o non appartenente al gruppo '" ++
          e.group ++ "'.")
      | none => .error ("Sede '" ++ location ++ "' inesistente o non appartenente al gruppo '" ++
          e.group ++ "'.")
  else .ok (location, "")

def resolvedPort (existing : Option Host) (e : Entry) : String :=
  match e.sshPort with
  | some port => intStr port
  | none => orElse (column existing Host.sshPort) "22"

/-- The transports of an entry: those given, those that are there, or the port alone. -/
def resolveTransports (existing : Option Host) (e : Entry) (given : Option (Dict (Option ℤ))) :
    Except String (Dict Json) :=
  match given, existing with
  | some transports, _ =>
    .ok (transports.map fun p => (p.1, (p.2.map Json.int).getD .null))
  | none, some old =>
    if old.transports = "" then sshOnly else .ok (parseTransports env old)
  | none, none => sshOnly
where
  /-- `{"ssh": int(resolved_port)}`. -/
  sshOnly : Except String (Dict Json) :=
    match int (resolvedPort existing e) with
    | some port => .ok [("ssh", .int port)]
    | none => .error "invalid literal for int() with base 10"

/-- The column `SSH Port`, which mirrors the transport. -/
def sshMirror (existing : Option Host) (e : Entry) (transports : Dict Json) : String :=
  match get? transports "ssh" with
  | none => resolvedPort existing e
  | some .null => resolvedPort existing e
  | some v => pyStr env.python v

def entryRow (existing : Option Host) (e : Entry) (location locationProbe : String)
    (transports : Dict Json) : Host where
  ip := e.ip
  vendor := lowerText e.vendor
  profile := e.profile
  username := orElse e.username (column existing Host.username)
  password := mergedSecret env existing e.password Host.password
  enableSecret := mergedSecret env existing e.enableSecret Host.enableSecret
  group := e.group
  hostname := orElse (e.hostname.getD "") (column existing Host.hostname)
  probe := orElse (orElse (e.probe.getD "") (column existing Host.probe))
    (orElse locationProbe "central")
  location := location
  sshPort := sshMirror env existing e transports
  transports := env.dumps transports
  snmpCommunity :=
    match e.snmpCommunity with
    | none => column existing Host.snmpCommunity
    | some community => encryptPassword env community
  snmpDisabled :=
    match e.snmpDisabled with
    | none => column existing Host.snmpDisabled
    | some disabled => if disabled then "1" else ""

def checkEntry (e : Entry) : Except String (Option (Dict (Option ℤ))) :=
  if !validIp e.ip then .error ("IP non valido: " ++ e.ip)
  else if e.sshPort.any fun port => !(decide (1 ≤ port) && decide (port ≤ 65535)) then
    .error ("Porta SSH non valida: " ++ intStr (e.sshPort.getD 0))
  else
    match e.transports with
    | none => .ok none
    | some transports => (validateTransports transports).map some

def mergedRow (devices : List Host) (getLocation : String → Option Location) (e : Entry) :
    Except String Host :=
  match checkEntry e with
  | .error err => .error err
  | .ok given =>
    let existing := findPair devices (e.group, e.ip)
    match resolveLocation getLocation existing e with
    | .error err => .error err
    | .ok (location, locationProbe) =>
      (resolveTransports env existing e given).map
        (entryRow env existing e location locationProbe)

/-! ## Writes -/

/-- `inventory_store.write_hosts`: a row with a key that is there keeps its place, the other rows
come at the end. -/
def writeHosts (old new : List Host) : List Host :=
  old.filterMap (fun d => findPair new d.pair) ++
    new.filter fun d => !(old.any fun o => o.pair = d.pair)

theorem findPair_some {devices : List Host} {pair : String × String} {d : Host}
    (h : findPair devices pair = some d) : d ∈ devices ∧ d.pair = pair := by
  rw [findPair] at h
  have hpair := List.find?_some h
  exact ⟨List.mem_of_find?_eq_some h, of_decide_eq_true hpair⟩

theorem kept_sublist (old new : List Host) :
    ((old.filterMap fun d => findPair new d.pair).map Host.pair).Sublist (old.map Host.pair) := by
  induction old with
  | nil => exact List.Sublist.refl _
  | cons d old ih =>
    cases hfound : findPair new d.pair with
    | none =>
      rw [List.filterMap_cons, hfound, List.map_cons]
      exact ih.cons d.pair
    | some row =>
      rw [List.filterMap_cons, hfound, List.map_cons, List.map_cons, (findPair_some hfound).2]
      exact ih.cons_cons d.pair

theorem writeHosts_keys {old new : List Host} (hold : (old.map Host.pair).Nodup)
    (hnew : (new.map Host.pair).Nodup) : ((writeHosts old new).map Host.pair).Nodup := by
  rw [writeHosts, List.map_append]
  refine List.Nodup.append (hold.sublist (kept_sublist old new))
    (hnew.sublist (List.filter_sublist.map _)) fun pair hkept hadded => ?_
  obtain ⟨o, ho, hpair⟩ := List.mem_map.mp ((kept_sublist old new).subset hkept)
  obtain ⟨d, hd, rfl⟩ := List.mem_map.mp hadded
  have hfree := (List.mem_filter.mp hd).2
  rw [Bool.not_eq_true', List.any_eq_false] at hfree
  exact hfree o ho (decide_eq_true hpair)

/-- The table `hosts`, whose primary key is the organization and the address. -/
structure Table where
  rows : List Host
  keys : (rows.map Host.pair).Nodup

/-- `write_devices`: no key twice, and no new row for a decommissioned device. -/
def Table.write (table : Table) (decommissioned new : List Host) : Except String Table :=
  if hnew : (new.map Host.pair).Nodup then
    if new.any fun d => !(table.rows.any fun o => o.pair = d.pair) &&
        decommissioned.any fun r => r.pair = d.pair then
      .error "è dismesso nel tenant: riattivalo o eliminalo prima"
    else .ok ⟨writeHosts table.rows new, writeHosts_keys table.keys hnew⟩
  else .error "è già presente nell'organizzazione"

/-- `upsert_devices` of one entry, `add_or_update_device`. -/
def addOrUpdateDevice (table : Table) (decommissioned : List Host)
    (getLocation : String → Option Location) (e : Entry) : Except String Table :=
  match mergedRow env table.rows getLocation e with
  | .error err => .error err
  | .ok row => table.write decommissioned (table.rows.filter (·.pair ≠ row.pair) ++ [row])

end Merge

/-- The rows with the name set on the first one of a kind. -/
def renameFirst (p : Host → Bool) (hostname : String) : List Host → List Host
  | [] => []
  | d :: ds => if p d then { d with hostname := hostname } :: ds else d :: renameFirst p hostname ds

theorem renameFirst_pair (p : Host → Bool) (hostname : String) (rows : List Host) :
    (renameFirst p hostname rows).map Host.pair = rows.map Host.pair := by
  induction rows with
  | nil => rfl
  | cons d rows ih =>
    rw [renameFirst]
    split
    · rfl
    · rw [List.map_cons, List.map_cons, ih]

/-- `update_device_hostname`: without an organization the first row with the address. -/
def updateDeviceHostname (table : Table) (ip hostname : String) (group : Option String) : Table where
  rows := renameFirst (fun d => d.ip = ip && group.all fun g => d.group = g) hostname table.rows
  keys := by
    rw [renameFirst_pair]
    exact table.keys

/-! ## What an entry leaves -/

theorem mergedRow_ok {env : Codec} {devices : List Host} {getLocation : String → Option Location}
    {e : Entry} {row : Host} (h : mergedRow env devices getLocation e = .ok row) :
    ∃ location locationProbe transports,
      row = entryRow env (findPair devices (e.group, e.ip)) e location locationProbe transports := by
  rw [mergedRow] at h
  split at h
  · simp at h
  · dsimp only at h
    split at h
    · simp at h
    · next location locationProbe _ =>
      cases ht : resolveTransports env (findPair devices (e.group, e.ip)) e _ with
      | error err =>
        rw [ht] at h
        exact absurd h (by simp [Except.map])
      | ok transports =>
        rw [ht] at h
        exact ⟨location, locationProbe, transports, (Except.ok.inj h).symm⟩

theorem findPair_of_mem {devices : List Host} (hnodup : (devices.map Host.pair).Nodup) {d : Host}
    (h : d ∈ devices) : findPair devices d.pair = some d := by
  cases hfound : findPair devices d.pair with
  | none =>
    have hnone := List.find?_eq_none.mp hfound d h
    simp at hnone
  | some d' =>
    obtain ⟨hmem, hpair⟩ := findPair_some hfound
    rw [List.inj_on_of_nodup_map hnodup hmem h hpair]

theorem writeHosts_replace {old : List Host} (hnodup : (old.map Host.pair).Nodup) (row : Host) :
    writeHosts old (old.filter (·.pair ≠ row.pair) ++ [row]) =
      old.map (fun d => if d.pair = row.pair then row else d) ++
        if old.any fun d => d.pair = row.pair then [] else [row] := by
  have hfilter : ((old.filter (·.pair ≠ row.pair)).map Host.pair).Nodup :=
    hnodup.sublist (List.filter_sublist.map _)
  have hfind : ∀ d ∈ old, findPair (old.filter (·.pair ≠ row.pair) ++ [row]) d.pair =
      some (if d.pair = row.pair then row else d) := by
    intro d hd
    rw [findPair, List.find?_append]
    by_cases hpair : d.pair = row.pair
    · have hnone : (old.filter (·.pair ≠ row.pair)).find? (fun o => o.pair = d.pair) = none := by
        refine List.find?_eq_none.mpr fun o ho => ?_
        have hne := of_decide_eq_true (List.mem_filter.mp ho).2
        rw [hpair]
        simpa using hne
      rw [hnone, Option.none_or, if_pos hpair, List.find?_singleton, if_pos (by simp [hpair])]
    · have hmem : d ∈ old.filter (·.pair ≠ row.pair) :=
        List.mem_filter.mpr ⟨hd, decide_eq_true hpair⟩
      have hsome := findPair_of_mem hfilter hmem
      rw [findPair] at hsome
      rw [hsome, if_neg hpair, Option.some_or]
  rw [writeHosts]
  refine congrArg₂ (· ++ ·) ?_ ?_
  · rw [List.filterMap_congr hfind]
    exact congrFun (List.filterMap_eq_map (f := fun d => if d.pair = row.pair then row else d)) old
  · have hnew : (old.filter (·.pair ≠ row.pair)).filter
        (fun d => !(old.any fun o => o.pair = d.pair)) = [] := by
      refine List.filter_eq_nil_iff.mpr fun d hd => ?_
      have hany : (old.any fun o => o.pair = d.pair) = true :=
        List.any_eq_true.mpr ⟨d, (List.mem_filter.mp hd).1, decide_eq_true rfl⟩
      rw [hany]
      simp
    rw [List.filter_append, hnew, List.nil_append, List.filter_singleton]
    cases old.any fun d => d.pair = row.pair <;> rfl

/-- An entry that is accepted replaces the row with its key, or adds one at the end. -/
theorem addOrUpdateDevice_ok {env : Codec} {table table' : Table} {decommissioned : List Host}
    {getLocation : String → Option Location} {e : Entry}
    (h : addOrUpdateDevice env table decommissioned getLocation e = .ok table') :
    ∃ location locationProbe transports row,
      row = entryRow env (findPair table.rows (e.group, e.ip)) e location locationProbe transports ∧
      table'.rows = table.rows.map (fun d => if d.pair = row.pair then row else d) ++
        if table.rows.any fun d => d.pair = row.pair then [] else [row] := by
  rw [addOrUpdateDevice] at h
  split at h
  · simp at h
  · next row hrow =>
    obtain ⟨location, locationProbe, transports, hrow⟩ := mergedRow_ok hrow
    refine ⟨location, locationProbe, transports, row, hrow, ?_⟩
    rw [Table.write] at h
    split at h
    · split at h
      · simp at h
      · rw [← Except.ok.inj h]
        exact writeHosts_replace table.keys row
    · simp at h

/-- A row that is not the first of its kind keeps its name. -/
theorem mem_renameFirst {p : Host → Bool} {hostname : String} {rows : List Host} {d : Host}
    (h : d ∈ rows) (hfirst : rows.find? p = some d → d.hostname = hostname) :
    d ∈ renameFirst p hostname rows := by
  induction rows with
  | nil => cases h
  | cons o rows ih =>
    rw [renameFirst]
    rcases List.mem_cons.mp h with rfl | hmem
    · split
      · next hp =>
        rw [← hfirst (List.find?_cons_of_pos hp)]
        exact List.mem_cons_self
      · exact List.mem_cons_self
    · split
      · exact List.mem_cons_of_mem _ hmem
      · next hp =>
        exact List.mem_cons_of_mem _ (ih hmem fun hfound =>
          hfirst ((List.find?_cons_of_neg hp).trans hfound))

theorem of_mem_renameFirst {p : Host → Bool} {hostname : String} {rows : List Host} {d : Host}
    (h : d ∈ renameFirst p hostname rows) : ∃ o ∈ rows, o.pair = d.pair ∧ o.probe = d.probe := by
  induction rows with
  | nil => cases h
  | cons o rows ih =>
    rw [renameFirst] at h
    split at h
    · rcases List.mem_cons.mp h with rfl | hmem
      · exact ⟨o, List.mem_cons_self, rfl, rfl⟩
      · exact ⟨d, List.mem_cons_of_mem _ hmem, rfl, rfl⟩
    · rcases List.mem_cons.mp h with rfl | hmem
      · exact ⟨d, List.mem_cons_self, rfl, rfl⟩
      · obtain ⟨o', ho', hsame⟩ := ih hmem
        exact ⟨o', List.mem_cons_of_mem _ ho', hsame⟩

end SentinelNet.Inventory
