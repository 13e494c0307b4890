import SentinelNet.Backups.Store
import SentinelNet.Lib.Regex

/-!
# What the network map reads

`_generate_network_map` walks over the folder of backups and reads from every file the device whose
address is in its name, with its neighbours as CDP and LLDP announce them.  The last file with an
address is what is known of it, and the last file with a host name is whom the name leads to.

* `normalizeIface`, `isPortchannelPort`, `looksLikeIp`, `firstAddress`, `macKey`: texts.
* `readFile`, `parsedDevices`, `announcements`: the devices with a backup, and what they announce.
* `hostnameToIp`, `nameCandidates`, `neighborInfo`: the tables of names.
-/

namespace SentinelNet.NetMap

open PyDict PyText Regex Inventory

/-! ## Texts -/

/-- An address as a pattern has it: four groups of up to three digits. -/
def addressRe : Re :=
  .seq (.many Char.isDigit 1 (some 3)) <| .seq (.chr (· == '.')) <|
    .seq (.many Char.isDigit 1 (some 3)) <| .seq (.chr (· == '.')) <|
      .seq (.many Char.isDigit 1 (some 3)) <| .seq (.chr (· == '.')) <|
        .many Char.isDigit 1 (some 3)

def looksLikeIp (value : String) : Bool :=
  (matchStart (.seq addressRe .eol) (strip value).toList).isSome

def firstAddress (filename : String) : Option String :=
  (search (.group "ip" addressRe) filename.toList).map fun m => String.ofList (capture m "ip")

def ifaceAliases : Dict String :=
  [("ethernet", "et"), ("eth", "et"), ("et", "et"), ("gigabitethernet", "gi"), ("gigabit", "gi"),
    ("gig", "gi"), ("gi", "gi"), ("ge", "gi"), ("tengigabitethernet", "te"), ("tengige", "te"),
    ("tengig", "te"), ("te", "te"), ("twentyfivegige", "twe"), ("twe", "twe"),
    ("fortygigabitethernet", "fo"), ("fortygige", "fo"), ("fo", "fo"), ("hundredgige", "hu"),
    ("hu", "hu"), ("fastethernet", "fa"), ("fast", "fa"), ("fa", "fa"), ("portchannel", "po"),
    ("port-channel", "po"), ("po", "po")]

/-- The name of an interface: a code and a number. -/
def ifaceRe : Re :=
  .seq (.group "code" (.seq (.chr Char.isAlpha) (.many (fun c => c.isAlpha || c == '-') 0 none))) <|
    .seq Re.spaces0 <|
      .seq (.group "number" (.many (fun c => c.isDigit || c == '/' || c == '.' || c == ':') 1 none))
        (.seq Re.spaces0 .eol)

def normalizeIface (name : String) : String :=
  let name := strip name
  match matchStart ifaceRe name.toList with
  | some m =>
    let code := lower (String.ofList ((capture m "code").filter (· ≠ '-')))
    (get? ifaceAliases code).getD code ++ String.ofList (capture m "number")
  | none => String.ofList ((lower name).toList.filter (· ≠ ' '))

def portchannelRe : Re :=
  let numbered (code : String) : Re := .seq (Re.litNoCase code.toList) Re.digits1
  .alt (numbered "po") <|
    .alt (.seq (Re.litNoCase "port".toList)
      (.seq (.opt (.chr (· == '-'))) (Re.litNoCase "channel".toList))) <|
      .alt (numbered "trk") <|
        .alt (.seq (Re.litNoCase "lag".toList) (.seq Re.spaces0 Re.digits1)) <|
          .alt (numbered "ae") <| .alt (Re.litNoCase "bridge-aggregation".toList) <|
            .alt (numbered "bagg") <| .alt (Re.litNoCase "bundle-ether".toList) <|
              Re.litNoCase "eth-trunk".toList

def isPortchannelPort (port : String) : Bool :=
  (matchStart portchannelRe (strip port).toList).isSome

def isHex (c : Char) : Bool := c.isDigit || ('a' ≤ c && c ≤ 'f') || ('A' ≤ c && c ≤ 'F')

def macKey (value : String) : String :=
  let chars := (strip value).toList
  let hexes := chars.filter isHex
  if hexes.length = 12 ∧ chars.all (fun c => isHex c || c == '.' || c == ':' || c == '-') then
    lower (String.ofList hexes)
  else ""

/-- `name.split('.')[0]`. -/
def baseName (name : String) : String := String.ofList (name.toList.takeWhile (· ≠ '.'))

/-! ## Backups -/

/-- A neighbour that `parse_cdp_lldp_neighbors` finds; an empty text where it has none. -/
structure Neighbor where
  neighborId : String
  neighborIp : String := ""
  localPort : String := "Unknown"
  remotePort : String := "Unknown"
  version : String := ""
  description : String := ""
  platform : String := ""
  capabilities : String := ""
  vtpDomain : String := ""
  chassisId : String := ""
  /-- The names and versions under which one port has it. -/
  nameOptions : List (String × String) := []

/-- The state of an aggregate in `parse_etherchannel_status`. -/
structure ChannelStatus where
  status : String
  up : ℕ
  total : ℕ
  issue : Bool
  issueMsg : String

/-- What the parsers find in a configuration; an empty text where they find nothing. -/
structure Backup where
  hostname : String := ""
  vtpMode : String := ""
  vtpDomain : String := ""
  model : String := ""
  serial : String := ""
  /-- `extract_mgmt_vlan`, for an address. -/
  mgmtVlan : String → String := fun _ => ""
  /-- `parse_channel_groups`. -/
  channelGroups : Dict String := []
  neighbors : List Neighbor := []
  /-- `port_facts`: what is drawn at a port, as text. -/
  portFacts : Dict String := []
  /-- `parse_portchannel_summary`: the aggregates with their members, and the other ports. -/
  portchannels : Dict (List String) := []
  singles : List String := []
  /-- `parse_etherchannel_status`. -/
  channelStatus : Dict ChannelStatus := []
  /-- `parse_shutdown_interfaces`. -/
  shutdown : List String := []

/-- A file that the walk yields, with the folders on the way to it from the folder of backups; its
content, if it can be read, and its time. -/
structure File where
  dir : List String
  name : String
  content : Option Backup
  modified : Option ℤ := none

/-- The record of an address in `get_detected_versions`. -/
structure Detected where
  version : String
  model : String
  serial : String
  status : String

/-- What the operator has assigned to a node. -/
structure Assignment where
  category : String := ""
  name : String := ""
  version : String := ""
  vendor : String := ""
  model : String := ""

/-- What the map is made of. -/
structure Sources where
  rows : List Host
  valid : ∀ d ∈ rows, validIp d.ip = true
  /-- The files in the order of the walk. -/
  walk : List File
  versions : Dict Detected
  assignments : Dict Assignment
  /-- `port_mac_table`: the addresses that were seen on the ports of a switch. -/
  portMacTable : String → Dict (List String)
  /-- `own_macs`. -/
  ownMacs : String → List String

/-- The functions that tell what a device is from texts. -/
structure Classifiers where
  /-- `classify_device_type`: host name, description, platform, capabilities and model. -/
  classifyDeviceType : String → String → String → String → String → String
  /-- `guess_vendor`: platform, description and host name. -/
  guessVendor : String → String → String → String
  /-- `extract_model`: platform and description. -/
  extractModel : String → String → String

/-! ## Devices -/

structure ParsedDevice where
  hostname : String
  backup : Backup

/-- The name of a device in the name of its file. -/
def hostnameOfFile (filename : String) : String :=
  let stem := filename.toList.take (filename.toList.length - 4)
  let parts := stem.splitOn '-'
  if 2 ≤ parts.length then join "-" (parts.dropLast.map String.ofList) else String.ofList stem

/-- The files that are scanned: `.history` is left out. -/
def backupFiles (walk : List File) : List File :=
  walk.filter fun f => ".history" ∉ f.dir && endsWith f.name ".txt"

/-- What is read from a file, under the first address in its name. -/
def readFile (f : File) : Option (String × ParsedDevice) :=
  match firstAddress f.name, f.content with
  | some ip, some b =>
    some (ip, ⟨if b.hostname = "" then hostnameOfFile f.name else b.hostname, b⟩)
  | _, _ => none

section Tables

variable (w : Sources)

def Sources.reads : List (String × ParsedDevice) := (backupFiles w.walk).filterMap readFile

def Sources.parsedDevices : Dict ParsedDevice := assign [] w.reads

def Sources.ipToDevice : Dict Host := assign [] (w.rows.map fun d => (d.ip, d))

/-- The neighbours with the addresses of those who announce them, in the order of the loop. -/
def Sources.announcements : List (String × Neighbor) :=
  w.parsedDevices.flatMap fun p => p.2.backup.neighbors.map fun n => (p.1, n)

/-- What an announcement tells of the platform of a neighbour. -/
structure NeighborInfo where
  platform : String
  capabilities : String
  description : String

/-- The keys under which an announcement is looked up. -/
def Neighbor.infoKeys (n : Neighbor) : List String :=
  [lower n.neighborId, lower (baseName n.neighborId), n.neighborIp].filter (· ≠ "")

def Sources.neighborInfo : Dict NeighborInfo :=
  w.announcements.foldl (fun d e => e.2.infoKeys.foldl (fun d k =>
    setDefault d k ⟨e.2.platform, e.2.capabilities, e.2.description⟩) d) []

/-! ## Names -/

/-- The host names of the files. -/
def Sources.fileNames : Dict String :=
  assign [] (w.reads.map fun p => (lower p.2.hostname, p.1))

/-- The host names of the files and of the inventory. -/
def Sources.knownNames : Dict String :=
  w.ipToDevice.foldl (fun d p =>
    let hn := strip p.2.hostname
    if hn = "" then d
    else setDefault (setDefault d (lower hn) p.1) (lower (baseName hn)) p.1) w.fileNames

/-- `hostname_to_ip`, with the names without their domains. -/
def Sources.hostnameToIp : Dict String :=
  w.knownNames.foldl (fun d p => setDefault d (baseName p.1) p.2) w.knownNames

def addName (d : Dict (List String)) (name ip : String) : Dict (List String) :=
  [lower name, lower (baseName name)].foldl (fun d k =>
    let lst := (get? d k).getD []
    set d k (if ip ∈ lst then lst else lst ++ [ip])) d

/-- The devices with a name, those with a backup first. -/
def Sources.namedDevices : List (String × String) :=
  w.parsedDevices.map (fun p => (p.2.hostname, p.1)) ++
    (w.ipToDevice.filter fun p => strip p.2.hostname ≠ "").map fun p => (strip p.2.hostname, p.1)

def Sources.nameCandidates : Dict (List String) :=
  w.namedDevices.foldl (fun d p => addName d p.1 p.2) []

end Tables

end SentinelNet.NetMap
