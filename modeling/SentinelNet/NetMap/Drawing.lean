import SentinelNet.Lib.FreshNames
import SentinelNet.NetMap.Scan

/-!
# The network map

`_generate_network_map` draws a node for every device of the inventory, and goes through the
announcements: each leads to a node that is there, or to a new one, and adds its ports to the link
between the two.

* `pickSameName`, `sameDiscovered`: which device a shared name is, and whether two are one.
* `Drawing`, `target`, `announce`: the loop over the announcements.
* `generateNetworkMap`: the map, for one group or for all.
-/

namespace SentinelNet.NetMap

open PyDict PyText Inventory
open Backups (sanitizeFilename)

/-! ## Nodes -/

/-- A node of the map; an empty text where the source has none. -/
structure Node where
  id : String
  label : String
  group : String
  status : String
  deviceType : String
  vendor : String
  version : String
  vtpMode : String := ""
  vtpDomain : String := ""
  model : String := ""
  serial : String := ""
  mgmtIp : String := ""
  mgmtVlan : String := ""
  reportedIp : String := ""
  platform : String := ""
  nameOptions : List (String × String) := []
  portInfo : Dict String := []
  isBoundary : Bool := false
  deriving DecidableEq

section Nodes

variable (c : Classifiers) (w : Sources)

def akey (tenant nodeId : String) : String := strip tenant ++ "|" ++ nodeId

def Sources.applyCategory (nodeId autoType tenant : String) : String :=
  match get? w.assignments (akey tenant nodeId) with
  | some a => orElse a.category autoType
  | none => autoType

/-- What was announced of a device. -/
def Sources.infoOf (ip label : String) : NeighborInfo :=
  ((get? w.neighborInfo (lower label)).or ((get? w.neighborInfo (lower (baseName label))).or
    (get? w.neighborInfo ip))).getD ⟨"", "", ""⟩

def inventoryNode (ip : String) (d : Host) : Node :=
  let pinfo := get? w.parsedDevices ip
  let label := pinfo.elim ip ParsedDevice.hostname
  let detected := get? w.versions ip
  let info := w.infoOf ip label
  let model := pinfo.elim "" fun p => p.backup.model
  let autoType := c.classifyDeviceType label (orElse info.description d.vendor) info.platform
    info.capabilities (orElse model (detected.elim "" Detected.model))
  { id := ip
    label := label
    group := d.group
    status := detected.elim "offline" Detected.status
    deviceType := w.applyCategory ip autoType d.group
    vendor := d.vendor
    version := detected.elim "" Detected.version
    vtpMode := pinfo.elim "" fun p => p.backup.vtpMode
    vtpDomain := pinfo.elim "" fun p => p.backup.vtpDomain
    model := model
    serial := orElse (detected.elim "" Detected.serial) (pinfo.elim "" fun p => p.backup.serial)
    mgmtIp := ip
    mgmtVlan := pinfo.elim "" fun p => p.backup.mgmtVlan ip }

def inventoryNodes : Dict Node := w.ipToDevice.map fun p => (p.1, inventoryNode c w p.1 p.2)

def Sources.column (ip : String) (f : Host → String) : String := (get? w.ipToDevice ip).elim "" f

/-- A neighbour that is not in the inventory: the node inherits the group of who announces it. -/
def discoveredNode (ip : String) (n : Neighbor) (t : String) : Node where
  id := t
  label := baseName n.neighborId
  group := w.column ip Host.group
  status := "discovered"
  deviceType := w.applyCategory t (c.classifyDeviceType (baseName n.neighborId) n.description
    n.platform n.capabilities "") ""
  vendor := orElse (c.guessVendor n.platform n.description (baseName n.neighborId)) "discovered"
  version := n.version
  reportedIp := n.neighborIp
  vtpDomain := n.vtpDomain
  platform := n.platform
  model := c.extractModel n.platform n.description
  nameOptions := n.nameOptions

/-- What an announcement adds to a node that is there. -/
def refreshNode (n : Neighbor) (t : String) (node : Node) : Node :=
  { node with
    version := if n.version ≠ "" ∧ node.version ∈ ["Non Rilevata", "Unknown", ""] then n.version
      else node.version
    reportedIp := if n.neighborIp ≠ t then orElse node.reportedIp n.neighborIp
      else node.reportedIp
    vtpDomain := orElse node.vtpDomain n.vtpDomain
    platform := orElse node.platform n.platform
    model := orElse node.model (c.extractModel n.platform n.description) }

end Nodes

/-! ## Names that several devices have -/

section Names

variable (w : Sources)

def Sources.portMacs (switchIp iface : String) : List String :=
  (get? (w.portMacTable switchIp) (normalizeIface iface)).getD []

/-- Two sets have an element in common. -/
def meets (a b : List String) : Bool := a.any fun x => x ∈ b

def Sources.pickSameName (candidates : List String) (sourceIp : String) (ports : List String)
    (neighIp : String) : Option String :=
  if neighIp ∈ candidates then some neighIp
  else
    let seen := ports.flatMap (w.portMacs sourceIp)
    let hits := candidates.filter fun c => meets (w.ownMacs c) seen
    let nearest :=
      let same (key : Host → String) := candidates.filter fun c =>
        w.column sourceIp key ≠ "" && w.column c key = w.column sourceIp key
      match same Host.location, same Host.group with
      | [c], _ => some c
      | _, [c] => some c
      | _, _ => candidates.head?
    if seen = [] then nearest
    else
      match hits with
      | [c] => some c
      | [] => if candidates.all fun c => w.ownMacs c ≠ [] then none else nearest
      | _ => nearest

/-- Where a name that is not managed was seen first. -/
structure Sighting where
  loc : String
  chassis : String
  seen : String × String

def Sources.sameDiscovered (a b : Sighting) : Bool :=
  let ca := macKey a.chassis
  let cb := macKey b.chassis
  if ca ≠ "" ∧ cb ≠ "" then ca = cb
  else
    let ma := w.portMacs a.seen.1 a.seen.2
    let mb := w.portMacs b.seen.1 b.seen.2
    if ma ≠ [] ∧ mb ≠ [] then meets ma mb else a.loc = b.loc

/-- The aggregate of a port in the backup of a device. -/
def Sources.aggregate (ip iface : String) : String :=
  ((get? w.parsedDevices ip).bind fun p =>
    get? p.backup.channelGroups (normalizeIface iface)).getD ""

/-- The devices with the name of a neighbour. -/
def Sources.candidates (n : Neighbor) : List String :=
  let full := (get? w.nameCandidates (lower n.neighborId)).getD []
  if full = [] then (get? w.nameCandidates (lower (baseName n.neighborId))).getD [] else full

def Sources.sameName (ip : String) (n : Neighbor) : List String :=
  (w.candidates n).filter (· ≠ ip)

/-- The device that the name of a neighbour leads to; an empty text for none. -/
def Sources.named (ip : String) (n : Neighbor) : String :=
  let same := w.sameName ip n
  if 1 < same.length then
    let ports := [n.localPort, w.aggregate ip n.localPort].filter (· ≠ "")
    (w.pickSameName same ip ports n.neighborIp).getD ""
  else
    orElse ((get? w.hostnameToIp (lower n.neighborId)).getD "")
      ((get? w.hostnameToIp (lower (baseName n.neighborId))).getD "")

end Names

/-! ## Links -/

/-- `acc`: what is gathered of a link. -/
structure Bundle where
  source : String
  target : String
  srcPorts : Dict String := []
  tgtPorts : Dict String := []
  srcGuess : Dict String := []
  tgtGuess : Dict String := []
  srcPc : List String := []
  tgtPc : List String := []
  pcNames : List String := []
  namePc : Bool := false

structure Link where
  source : String
  target : String
  localPort : String
  remotePort : String
  localPorts : List String
  remotePorts : List String
  isPortchannel : Bool
  pcName : String
  localPc : String
  remotePc : String
  pcNames : List String
  memberCount : ℕ
  deriving DecidableEq

/-- A name joins a set. -/
def addTo (s : List String) (name : String) : List String :=
  if name = "" then s else s.insert name

def addPort (d : Dict String) (port : String) : Dict String :=
  if port = "Unknown" then d else set d (normalizeIface port) port

/-- What an announcement adds to a link. -/
def Bundle.add (b : Bundle) (ip localPort remotePort localPc remotePc : String) : Bundle :=
  let b :=
    { b with
      namePc := b.namePc || isPortchannelPort localPort || isPortchannelPort remotePort
      pcNames := addTo (addTo b.pcNames localPc) remotePc }
  if ip = b.source then
    { b with
      srcPorts := addPort b.srcPorts localPort
      tgtGuess := addPort b.tgtGuess remotePort
      srcPc := addTo b.srcPc localPc
      tgtPc := addTo b.tgtPc remotePc }
  else
    { b with
      tgtPorts := addPort b.tgtPorts localPort
      srcGuess := addPort b.srcGuess remotePort
      tgtPc := addTo b.tgtPc localPc
      srcPc := addTo b.srcPc remotePc }

/-- The ports of the source that are drawn: its own ones, or what the other side tells. -/
def Bundle.srcList (b : Bundle) : List String :=
  (if b.srcPorts = [] then b.srcGuess else b.srcPorts).map Prod.snd

/-- The ports of the target. -/
def Bundle.tgtList (b : Bundle) : List String :=
  (if b.tgtPorts = [] then b.tgtGuess else b.tgtPorts).map Prod.snd

/-- `sorted(s)[0] if s else None`, of a set. -/
def leastOf (s : List String) : String := ((s.insertionSort (· ≤ ·)).head?).getD ""

/-- The first aggregate among some ports. -/
def firstPortchannel (ports : List String) : String := (ports.find? isPortchannelPort).getD ""

def Bundle.link (b : Bundle) : Link :=
  let symmetricBundle := 1 < b.srcPorts.length && 1 < b.tgtPorts.length
  let pcNames := b.pcNames.insertionSort (· ≤ ·)
  let isPc := pcNames ≠ [] || b.namePc || symmetricBundle
  let pcName := orElse (leastOf b.pcNames)
    (if b.namePc then firstPortchannel (b.srcList ++ b.tgtList) else "")
  { source := b.source
    target := b.target
    localPort := b.srcList.head?.getD "Unknown"
    remotePort := b.tgtList.head?.getD "Unknown"
    localPorts := b.srcList
    remotePorts := b.tgtList
    isPortchannel := isPc
    pcName := pcName
    localPc := if isPc then orElse (leastOf b.srcPc) (firstPortchannel b.srcList) else ""
    remotePc := if isPc then orElse (leastOf b.tgtPc) (firstPortchannel b.tgtList) else ""
    pcNames := pcNames
    memberCount := max 1 (max b.srcList.length b.tgtList.length) }

def linkKey (a b : String) : String × String := (min a b, max a b)

/-! ## Announcements -/

/-- What the loop over the announcements has drawn. -/
structure Drawing where
  nodes : Dict Node
  links : List ((String × String) × Bundle)
  /-- `disc_meta`. -/
  sightings : Dict Sighting

section Loop

variable (c : Classifiers) (w : Sources)

/-- Where an announcement is seen. -/
def Sources.sighting (ip : String) (n : Neighbor) : Sighting :=
  ⟨w.column ip Host.location, n.chassisId, (ip, n.localPort)⟩

def numbered (name : String) (i : ℕ) : String :=
  if i = 0 then name else name ++ "~" ++ str (i + 1)

/-- The key of a neighbour that is not managed: the first one that is free, or is this device. -/
def Sources.discoveredKey (sightings : Dict Sighting) (ip : String) (n : Neighbor) : String :=
  let others := sightings.filter fun p => !w.sameDiscovered p.2 (w.sighting ip n)
  FreshNames.firstFree (numbered ("discovered_" ++ sanitizeFilename (baseName n.neighborId)))
    (others.map Prod.fst)

def Neighbor.hasName (n : Neighbor) : Bool :=
  baseName n.neighborId ≠ "" && !looksLikeIp (baseName n.neighborId)

/-- The node that an announcement leads to. -/
def Sources.target (d : Drawing) (ip : String) (n : Neighbor) : String :=
  if w.named ip n ≠ "" then w.named ip n
  else if n.neighborIp ≠ "" ∧ has d.nodes n.neighborIp = true then n.neighborIp
  else if n.hasName then w.discoveredKey d.sightings ip n
  else orElse n.neighborIp ("discovered_" ++ sanitizeFilename (baseName n.neighborId))

/-- An announcement of a neighbour that is looked up among what was discovered. -/
def Sources.isDiscovery (d : Drawing) (ip : String) (n : Neighbor) : Bool :=
  w.named ip n = "" && !(n.neighborIp ≠ "" && has d.nodes n.neighborIp) && n.hasName

def announce (d : Drawing) (e : String × Neighbor) : Drawing :=
  let ip := e.1
  let n := e.2
  let t := w.target d ip n
  let node :=
    match get? d.nodes t with
    | some node => refreshNode c n t node
    | none => discoveredNode c w ip n t
  let bundle := ((Assoc.find d.links (linkKey ip t)).getD { source := ip, target := t }).add ip
    n.localPort n.remotePort (w.aggregate ip n.localPort) (w.aggregate t n.remotePort)
  { nodes := set d.nodes t node
    links := Assoc.put d.links (linkKey ip t) bundle
    sightings := if w.isDiscovery d ip n then setDefault d.sightings t (w.sighting ip n)
      else d.sightings }

def Drawing.initial : Drawing := ⟨inventoryNodes c w, [], []⟩

/-- The map after all announcements. -/
def drawing : Drawing := w.announcements.foldl (announce c w) (Drawing.initial c w)

end Loop

/-! ## The map -/

section Map

variable (c : Classifiers) (w : Sources)

def addFact (facts : Dict String) (node : Node) (port : String) : Node :=
  match get? facts (normalizeIface port) with
  | some fact => { node with portInfo := set node.portInfo port fact }
  | none => node

/-- The facts of the ports at one end of a link. -/
def Sources.addFacts (nodes : Dict Node) (e : String × List String) : Dict Node :=
  match get? w.parsedDevices e.1, get? nodes e.1 with
  | some p, some node => set nodes e.1 (e.2.foldl (addFact p.backup.portFacts) node)
  | _, _ => nodes

/-- What the operator has assigned. -/
def Sources.override (id : String) (node : Node) : Node :=
  match get? w.assignments (akey (w.column id Host.group) id) with
  | some a =>
    { node with
      label := orElse a.name node.label
      version := orElse a.version node.version
      vendor := orElse a.vendor node.vendor
      model := orElse a.model node.model }
  | none => node

structure NetworkMap where
  nodes : List Node
  links : List Link

/-- The map of all groups. -/
def fullMap : NetworkMap :=
  let d := drawing c w
  let links := d.links.map fun e => e.2.link
  let nodes := (links.flatMap fun l => [(l.source, l.localPorts), (l.target, l.remotePorts)]).foldl
    w.addFacts d.nodes
  ⟨nodes.map fun p => w.override p.1 p.2, links⟩

def NetworkMap.ofGroup (m : NetworkMap) (group : String) : NetworkMap :=
  let inGroup := (m.nodes.filter fun n => n.group = group).map Node.id
  let boundary := m.links.flatMap fun l =>
    (if l.source ∈ inGroup then [l.target] else []) ++
      if l.target ∈ inGroup then [l.source] else []
  { nodes := m.nodes.filterMap fun n =>
      if n.id ∈ inGroup then some n
      else if n.id ∈ boundary then some { n with isBoundary := true }
      else none
    links := m.links.filter fun l =>
      (l.source ∈ inGroup || l.source ∈ boundary) && (l.target ∈ inGroup || l.target ∈ boundary) }

def generateNetworkMap (groupFilter : Option String) : NetworkMap :=
  match groupFilter with
  | some group => if group = "" ∨ group = "all" then fullMap c w else (fullMap c w).ofGroup group
  | none => fullMap c w

end Map

end SentinelNet.NetMap
