import SentinelNet.Lib.Upsert
import SentinelNet.Lib.Dict
import SentinelNet.Lib.Text

/-!
# The history of MAC addresses

`collectors/mac_history.py` keeps three tables: where a MAC address was seen, the addresses of the
switches' own interfaces, and the bindings of MAC addresses to IP addresses that the gateways know.
A scan of a device writes its rows by upserts, and the tenant of the device is a column that the key
does not have; the table of the interfaces has no tenant at all.

* `normalizeMac`, `expandIface`: the spellings of addresses and interfaces.
* `recordSightings`, `recordSwitchIfMacs`, `recordArpEntries`: the scans.
* `Scan`, `History.run`: a scan of a device of a tenant, and the tables after a list of scans.
-/

namespace SentinelNet.MacHistory

open PyDict PyText Upsert

/-! ## Spellings -/

def isHex (c : Char) : Bool := c.isDigit || ('a' ≤ c && c ≤ 'f') || ('A' ≤ c && c ≤ 'F')

/-- The digits two by two, with colons. -/
def colons : List Char → List Char
  | a :: b :: c :: cs => a :: b :: ':' :: colons (c :: cs)
  | cs => cs

/-- `normalize_mac`; a MAC that is not given is an empty text. -/
def normalizeMac (raw : String) : Option String :=
  let hexs := (raw.toList.filter isHex).map Char.toLower
  if hexs.length = 12 then some (String.ofList (colons hexs)) else none

/-- The abbreviations of `expand_iface`, with what they become. -/
def abbreviations : List (List String × String) :=
  [(["GigabitEthernet", "Gi"], "GigabitEthernet"),
    (["TenGigabitEthernet", "TenGigE", "Te", "XGi", "10Ge"], "TenGigabitEthernet"),
    (["TwentyFiveGigE", "Twe", "25Ge"], "TwentyFiveGigE"),
    (["FortyGigabitEthernet", "FortyGigE", "Fo", "40Ge"], "FortyGigE"),
    (["HundredGigE", "Hu", "100Ge"], "HundredGigE"),
    (["FastEthernet", "Fa", "fe"], "FastEthernet"),
    (["Ethernet", "Eth", "Et", "e"], "Ethernet"),
    (["Port-channel", "Port-Channel", "Po"], "Port-channel")]

/-- What follows an abbreviation, if a number follows it. -/
def afterAbbreviation (name : List Char) (abbr : String) : Option (List Char) :=
  if (lower abbr).toList.isPrefixOf (name.map Char.toLower) then
    let rest := name.drop abbr.length
    if (rest.head?.map Char.isDigit).getD false then some rest else none
  else none

def expandIface (name : String) : String :=
  let name := strip name
  match abbreviations.findSome? fun e =>
    (e.1.findSome? (afterAbbreviation name.toList)).map fun rest =>
      e.2 ++ String.ofList rest with
  | some full => full
  | none => name

/-! ## Rows -/

/-- The key of a sighting: `ux_mac_pos`. -/
structure Position where
  mac : String
  switchIp : String
  interface : String
  vlan : String
  deriving DecidableEq

/-- A row of `mac_sightings`. -/
structure Sighting where
  mac : String
  ouiVendor : String
  vlan : String
  switchIp : String
  switchName : String
  interface : String
  portChannel : String
  isUplink : Bool
  uplinkTo : String
  tenant : String
  probe : String
  firstSeen : String
  lastSeen : String
  seenCount : ℕ
  deriving DecidableEq

/-- Where it was. -/
def Sighting.position (r : Sighting) : Position := ⟨r.mac, r.switchIp, r.interface, r.vlan⟩

/-- The key of a row of `switch_if_macs`. -/
structure Port where
  mac : String
  switchIp : String
  interface : String
  deriving DecidableEq

/-- A row of `switch_if_macs`. -/
structure InterfaceMac where
  mac : String
  switchIp : String
  switchName : String
  interface : String
  lastSeen : String
  deriving DecidableEq

def InterfaceMac.port (r : InterfaceMac) : Port := ⟨r.mac, r.switchIp, r.interface⟩

/-- The key of a binding: `ux_arp`. -/
structure BindingKey where
  mac : String
  ip : String
  sourceIp : String
  deriving DecidableEq

/-- A row of `arp_entries`. -/
structure ArpEntry where
  mac : String
  ip : String
  vlan : String
  interface : String
  sourceIp : String
  sourceName : String
  sourceType : String
  tenant : String
  probe : String
  firstSeen : String
  lastSeen : String
  seenCount : ℕ
  deriving DecidableEq

/-- What is bound, and who says so. -/
def ArpEntry.binding (r : ArpEntry) : BindingKey := ⟨r.mac, r.ip, r.sourceIp⟩

/-- The tables; their rows are in the order of their ids. -/
structure History where
  sightings : List Sighting
  switchIfMacs : List InterfaceMac
  arpEntries : List ArpEntry
  deriving DecidableEq

/-- Nothing was scanned yet. -/
def History.empty : History := ⟨[], [], []⟩

/-- What a scan reports: the rows that are new, those that were there, and those that it skips. -/
structure Tally where
  new : ℕ
  updated : ℕ
  skipped : ℕ
  deriving DecidableEq

/-! ## Sightings -/

/-- A line of a MAC address table; what it does not say is an empty text. -/
structure Seen where
  mac : String
  vlan : String
  interface : String
  portChannel : String
  isUplink : Bool
  uplinkTo : String
  ouiVendor : String

/-- The statements of `record_sightings` for a row: `UPDATE`, or `INSERT`. -/
def Sighting.entry (row : Sighting) : Entry Sighting Position where
  key := row.position
  fresh := row
  touch old :=
    { old with
      lastSeen := row.lastSeen
      seenCount := old.seenCount + 1
      isUplink := row.isUplink
      portChannel := row.portChannel
      ouiVendor := row.ouiVendor
      switchName := row.switchName
      tenant := row.tenant
      uplinkTo := row.uplinkTo
      probe := row.probe }

/-- The row of a line, if its address is one. -/
def Seen.row (switchIp switchName tenant probe now : String) (r : Seen) : Option Sighting :=
  (normalizeMac r.mac).map fun mac =>
    { mac := mac
      ouiVendor := strip r.ouiVendor
      vlan := r.vlan
      switchIp := switchIp
      switchName := switchName
      interface := expandIface (strip r.interface)
      portChannel := expandIface (strip r.portChannel)
      isUplink := r.isUplink
      uplinkTo := strip r.uplinkTo
      tenant := tenant
      probe := probe
      firstSeen := now
      lastSeen := now
      seenCount := 1 }

def recordSightings (h : History) (rows : List Seen)
    (switchIp switchName tenant probe now : String) : History × Tally :=
  let es := (rows.filterMap (Seen.row switchIp switchName tenant probe now)).map Sighting.entry
  let counts := tally Sighting.position h.sightings es
  ({ h with sightings := es.foldl (write Sighting.position) h.sightings },
    ⟨counts.1, counts.2, rows.length - es.length⟩)

/-! ## The switches' own interfaces -/

/-- An interface of a switch with its address. -/
structure Own where
  interface : String
  mac : String

/-- The statements of `record_switch_if_macs` for a row. -/
def InterfaceMac.entry (row : InterfaceMac) : Entry InterfaceMac Port where
  key := row.port
  fresh := row
  touch old := { old with lastSeen := row.lastSeen, switchName := row.switchName }

def Own.row (switchIp switchName now : String) (r : Own) : Option InterfaceMac :=
  if expandIface (strip r.interface) = "" then none
  else
    (normalizeMac r.mac).map fun mac =>
      { mac := mac
        switchIp := switchIp
        switchName := switchName
        interface := expandIface (strip r.interface)
        lastSeen := now }

def recordSwitchIfMacs (h : History) (rows : List Own) (switchIp switchName now : String) :
    History × Tally :=
  let es := (rows.filterMap (Own.row switchIp switchName now)).map InterfaceMac.entry
  let counts := tally InterfaceMac.port h.switchIfMacs es
  ({ h with switchIfMacs := es.foldl (write InterfaceMac.port) h.switchIfMacs },
    ⟨counts.1, counts.2, rows.length - es.length⟩)

/-! ## Bindings -/

/-- A line of an ARP table. -/
structure Bound where
  mac : String
  ip : String
  vlan : String
  interface : String

/-- The statements of `record_arp_entries` for a row; without a tenant the old one stays. -/
def ArpEntry.entry (row : ArpEntry) : Entry ArpEntry BindingKey where
  key := row.binding
  fresh := row
  touch old :=
    { old with
      lastSeen := row.lastSeen
      seenCount := old.seenCount + 1
      vlan := row.vlan
      interface := row.interface
      sourceName := row.sourceName
      sourceType := row.sourceType
      tenant := if row.tenant = "" then old.tenant else row.tenant
      probe := row.probe }

/-- The row of a line, if it has two addresses. -/
def Bound.row (sourceIp sourceName sourceType tenant probe now : String) (r : Bound) :
    Option ArpEntry :=
  if strip r.ip = "" then none
  else
    (normalizeMac r.mac).map fun mac =>
      { mac := mac
        ip := strip r.ip
        vlan := r.vlan
        interface := expandIface (strip r.interface)
        sourceIp := sourceIp
        sourceName := sourceName
        sourceType := sourceType
        tenant := tenant
        probe := probe
        firstSeen := now
        lastSeen := now
        seenCount := 1 }

def recordArpEntries (h : History) (rows : List Bound)
    (sourceIp sourceName sourceType tenant probe now : String) : History × Tally :=
  let es := (rows.filterMap (Bound.row sourceIp sourceName sourceType tenant probe now)).map
    ArpEntry.entry
  let counts := tally ArpEntry.binding h.arpEntries es
  ({ h with arpEntries := es.foldl (write ArpEntry.binding) h.arpEntries },
    ⟨counts.1, counts.2, rows.length - es.length⟩)

/-! ## Scans -/

/-- A scan of a device, at a time.  The scan of the interfaces is not told the tenant of the switch;
it stands here to say whose device it is. -/
inductive Scan where
  | sightings (rows : List Seen) (switchIp switchName tenant probe now : String)
  | switchIfMacs (rows : List Own) (switchIp switchName now tenant : String)
  | arpEntries (rows : List Bound) (sourceIp sourceName sourceType tenant probe now : String)

/-- Whose device is scanned. -/
def Scan.tenant : Scan → String
  | .sightings _ _ _ tenant _ _ => tenant
  | .switchIfMacs _ _ _ _ tenant => tenant
  | .arpEntries _ _ _ _ tenant _ _ => tenant

/-- What a scan makes of the tables. -/
def History.step (h : History) : Scan → History
  | .sightings rows switchIp switchName tenant probe now =>
    (recordSightings h rows switchIp switchName tenant probe now).1
  | .switchIfMacs rows switchIp switchName now _ =>
    (recordSwitchIfMacs h rows switchIp switchName now).1
  | .arpEntries rows sourceIp sourceName sourceType tenant probe now =>
    (recordArpEntries h rows sourceIp sourceName sourceType tenant probe now).1

def History.run (scans : List Scan) : History := scans.foldl History.step History.empty

/-! ## What is written where -/

/-- The rows that a scan writes into the table of the sightings. -/
def Scan.seenRows : Scan → List Sighting
  | .sightings rows switchIp switchName tenant probe now =>
    rows.filterMap (Seen.row switchIp switchName tenant probe now)
  | _ => []

def Scan.ownRows : Scan → List InterfaceMac
  | .switchIfMacs rows switchIp switchName now _ =>
    rows.filterMap (Own.row switchIp switchName now)
  | _ => []

/-- The rows that a scan writes into the table of the bindings. -/
def Scan.boundRows : Scan → List ArpEntry
  | .arpEntries rows sourceIp sourceName sourceType tenant probe now =>
    rows.filterMap (Bound.row sourceIp sourceName sourceType tenant probe now)
  | _ => []

theorem run_eq (scans : List Scan) : History.run scans =
    ⟨table Sighting.position ((scans.flatMap Scan.seenRows).map Sighting.entry),
      table InterfaceMac.port ((scans.flatMap Scan.ownRows).map InterfaceMac.entry),
      table ArpEntry.binding ((scans.flatMap Scan.boundRows).map ArpEntry.entry)⟩ := by
  induction scans using List.reverseRecOn with
  | nil => rfl
  | append_singleton scans c ih =>
    rw [History.run, List.foldl_append, List.foldl_cons, List.foldl_nil, ← History.run, ih,
      List.flatMap_append, List.flatMap_append, List.flatMap_append, List.flatMap_singleton,
      List.flatMap_singleton, List.flatMap_singleton, List.map_append, List.map_append,
      List.map_append, table_append, table_append, table_append]
    cases c <;> rfl

theorem Sighting.keyed_entry (row : Sighting) : row.entry.Keyed Sighting.position :=
  ⟨rfl, fun _ => rfl⟩

theorem InterfaceMac.keyed_entry (row : InterfaceMac) : row.entry.Keyed InterfaceMac.port :=
  ⟨rfl, fun _ => rfl⟩

theorem ArpEntry.keyed_entry (row : ArpEntry) : row.entry.Keyed ArpEntry.binding :=
  ⟨rfl, fun _ => rfl⟩

end SentinelNet.MacHistory
