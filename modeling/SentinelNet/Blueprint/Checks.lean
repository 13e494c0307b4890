import SentinelNet.Blueprint.Operations
import SentinelNet.Inventory.Hosts
import SentinelNet.Lib.IpNetwork
import SentinelNet.Lib.Worklist

/-!
# The checks of the blueprint

`services/blueprint_checks.py` compares the model of an organization with what was observed: its
devices, the ARP entries, the routes and the tunnels of the gateways.  A finding may carry draft
operations that close the gap.

* `Finding`, `Observed`: what the checks say, and what they look at.
* `modelChecks`, `subnetChecks`, `routingChecks`, `vpnChecks`: the four groups of checks.
* `Addresses.run`: all of them, by severity.
-/

namespace SentinelNet.Blueprint

open Observability PyDict PyText IpNetwork
open Inventory (Host)

/-! ## Addresses -/

/-- The library with what `ip_network` and `ip_address` read, and the texts of networks and
addresses. -/
structure Addresses extends Library where
  /-- `ip_network(text, strict=False)`; `none` is `ValueError`. -/
  readNetwork : String → Option Network
  /-- `ip_address(text)`; `none` is `ValueError`. -/
  readAddress : String → Option Address
  /-- `str(network)`. -/
  networkText : Network → String
  /-- `str(address)`. -/
  addressText : Address → String
  network_eq : ∀ s, network s = (readNetwork s).map networkText
  address_eq : ∀ s, address s = (readAddress s).isSome
  readNetwork_text : ∀ s n, readNetwork s = some n → readNetwork (networkText n) = some n
  space_not_mem : ∀ s n, readNetwork s = some n → ' ' ∉ (networkText n).toList

def networkOfV4 (net : Ipv4.Network) : Network := ⟨.v4, net.address.toNat, net.prefixlen⟩

def networkTextV4 (n : Network) : String :=
  String.ofList (Ipv4.Network.format ⟨BitVec.ofNat 32 n.first, n.prefixlen⟩)

theorem networkTextV4_ofV4 (net : Ipv4.Network) :
    networkTextV4 (networkOfV4 net) = String.ofList net.format := by
  rw [networkTextV4, networkOfV4, BitVec.ofNat_toNat, BitVec.setWidth_eq]

/-- Addresses and networks of the version 4. -/
def ipv4Addresses : Addresses where
  toLibrary := ipv4Library
  readNetwork s := (Ipv4.networkOfChars s.toList).map networkOfV4
  readAddress s := (Ipv4.ofChars s.toList).map fun a => ⟨.v4, a.toNat⟩
  networkText := networkTextV4
  addressText ip := String.ofList (Ipv4.format (BitVec.ofNat 32 ip.value))
  network_eq s := by
    rw [Option.map_map]
    exact congrArg (fun f => (Ipv4.networkOfChars s.toList).map f)
      (funext fun net => (networkTextV4_ofV4 net).symm)
  address_eq s := by
    rw [Option.isSome_map]
    rfl
  readNetwork_text s n h := by
    obtain ⟨net, hnet, rfl⟩ := Option.map_eq_some_iff.mp h
    rw [networkTextV4_ofV4, String.toList_ofList, Ipv4.networkOfChars_format hnet, Option.map_some]
  space_not_mem s n h hmem := by
    obtain ⟨net, -, rfl⟩ := Option.map_eq_some_iff.mp h
    rw [networkTextV4_ofV4, String.toList_ofList] at hmem
    exact absurd (Ipv4.isSpace_of_mem_networkFormat hmem) (by decide)

structure ArpEntry where
  ip : String
  sourceIp : String
  deriving DecidableEq

/-- A row of a routing table, as `_slim` leaves it. -/
structure RouteRow where
  network : String
  interface : String
  gateway : String
  fromBackup : Bool
  deriving DecidableEq

/-- The routes of a gateway. -/
structure RouteEntry where
  rows : List RouteRow
  error : String
  fromBackup : Bool
  deriving DecidableEq

structure Tunnel where
  name : String
  remoteGw : String
  up : Bool
  dst : List String
  deriving DecidableEq

structure TunnelEntry where
  tunnels : List Tunnel
  error : String
  deriving DecidableEq

structure Observed where
  devices : List Host
  arp : List ArpEntry
  routes : Dict RouteEntry
  tunnels : Dict TunnelEntry

/-! ## Findings -/

inductive Severity where
  | error | warning | unknown | info
  deriving DecidableEq

def Severity.order : Severity → ℕ
  | .error => 0
  | .warning => 1
  | .unknown => 2
  | .info => 3

/-- What a finding is about. -/
inductive Code where
  | subnetOverlap | locationNoSubnets | locationIsolated | locationNoGateway
  | gatewayNotInLocation | deviceOutsideSubnets | arpUncovered | subnetUnused | linkNoRoute
  | routeWithoutLink | vpnLinkDown | tunnelWithoutLink
  deriving DecidableEq

def Code.word : Code → String
  | .subnetOverlap => "subnet_overlap"
  | .locationNoSubnets => "location_no_subnets"
  | .locationIsolated => "location_isolated"
  | .locationNoGateway => "location_no_gateway"
  | .gatewayNotInLocation => "gateway_not_in_location"
  | .deviceOutsideSubnets => "device_outside_subnets"
  | .arpUncovered => "arp_uncovered"
  | .subnetUnused => "subnet_unused"
  | .linkNoRoute => "link_no_route"
  | .routeWithoutLink => "route_without_link"
  | .vpnLinkDown => "vpn_link_down"
  | .tunnelWithoutLink => "tunnel_without_link"

inductive Subject where
  | location (id : String)
  | link (id : String)
  | device (ip : String)
  deriving DecidableEq

structure Finding where
  code : Code
  severity : Severity
  subject : Subject
  params : Dict Json
  proposal : Option (List Json) := none
  deriving DecidableEq

def hubRoles : List String := ["hq", "datacenter"]

def spokeRoles : List String := ["branch", "warehouse"]

def gatewayVendors : List String := ["fortinet", "cisco"]

def lanNets : List Network :=
  [⟨.v4, 10 * 2 ^ 24, 8⟩, ⟨.v4, 172 * 2 ^ 24 + 16 * 2 ^ 16, 12⟩,
    ⟨.v4, 192 * 2 ^ 24 + 168 * 2 ^ 16, 16⟩]

/-! ## Operations that are proposed -/

def addLinkOp (a b kind : String) : Json :=
  .obj [("op", .str "add_link"), ("a", .str a), ("b", .str b), ("kind", .str kind),
    ("note", .str "")]

def setGatewayOp (id ip : String) : Json :=
  .obj [("op", .str "set_gateway"), ("id", .str id), ("ip", .str ip)]

def addSubnetOp (id subnet : String) : Json :=
  .obj [("op", .str "add_subnet"), ("id", .str id), ("subnet", .str subnet)]

/-! ## The model -/

def sortedItems {α : Type} (d : Dict α) : Dict α := d.insertionSort fun e f => e.1 ≤ f.1

/-- `locs[lid]`, for a location that is there. -/
def View.at (view : View) (lid : String) : Location :=
  (get? view.locations lid).getD ⟨"", "", "", [], .null, ""⟩

/-- `combinations(items, 2)`. -/
def combinations {α : Type} : List α → List (α × α)
  | [] => []
  | a :: items => items.map (fun b => (a, b)) ++ combinations items

def View.hubs (view : View) : List String :=
  ((sortedItems view.locations).filter fun e => e.2.role ∈ hubRoles).map Prod.fst

/-- `adj[lid]`. -/
def View.adjacent (view : View) (lid : String) : List String :=
  view.links.flatMap fun k =>
    (if k.2.a = lid then [k.2.b] else []) ++ if k.2.b = lid then [k.2.a] else []

/-- `reach`: the locations that links join to a hub. -/
def View.reach (view : View) : List String :=
  Worklist.flood view.adjacent view.locations.length view.hubs view.hubs

def View.hub (view : View) : Option String :=
  (((sortedItems view.locations).find? fun e => e.2.role = "hq").map Prod.fst).or view.hubs.head?

/-- The locations that no link joins to a hub. -/
def View.isolated (view : View) : List Finding :=
  ((sortedItems view.locations).filter fun e => e.2.role ∈ spokeRoles ∧ e.1 ∉ view.reach).map
    fun e =>
      { code := .locationIsolated
        severity := .warning
        subject := .location e.1
        params := [("name", .str e.2.name)]
        proposal := view.hub.map fun hub => [addLinkOp hub e.1 "vpn"] }

def devicesOf (devices : List Host) (lid : String) : List Host :=
  devices.filter fun d => d.location = lid

/-- The devices that can be the gateway of a location. -/
def candidates (devices : List Host) (lid : String) : List String :=
  (((devicesOf devices lid).filter fun d => lowerText d.vendor ∈ gatewayVendors).map
    Host.ip).insertionSort (· ≤ ·)

def gatewayFinding (devices : List Host) (e : String × Location) : Option Finding :=
  if e.2.gateway = "" then
    let cands := candidates devices e.1
    some
      { code := .locationNoGateway
        severity := .warning
        subject := .location e.1
        params := [("name", .str e.2.name), ("candidates", .arr (cands.map .str))]
        proposal :=
          match cands with
          | [ip] => some [setGatewayOp e.1 ip]
          | _ => none }
  else if (devicesOf devices e.1).any fun d => d.ip = e.2.gateway then none
  else
    some
      { code := .gatewayNotInLocation
        severity := .error
        subject := .location e.1
        params := [("name", .str e.2.name), ("ip", .str e.2.gateway)] }

section Networks

variable (ad : Addresses)

def Addresses.net (text : String) : Option Network :=
  ad.readNetwork ((strip text).map fun c => if c = ' ' then '/' else c)

def Addresses.nets (subnets : List String) : List Network := subnets.filterMap ad.net

def Addresses.addr (ip : String) : Option Address := ad.readAddress (strip ip)

def covers (nets : List Network) (ip : Address) : Bool := nets.any fun n => n.has ip

def Addresses.slash24 (ip : String) : Except Exc String :=
  match ad.network (ip ++ "/24") with
  | some t => .ok t
  | none => .error (.valueError (.badSubnet (ip ++ "/24")))

def Addresses.overlapFinding (a b : String × Location) (na nb : Network) : Option Finding :=
  if na.version = nb.version ∧ na.overlaps nb = true then
    some
      { code := .subnetOverlap
        severity := .error
        subject := .location a.1
        params := [("a", .str a.2.name), ("b", .str b.2.name),
          ("subnet_a", .str (ad.networkText na)), ("subnet_b", .str (ad.networkText nb))] }
  else none

/-- The subnets of two locations that overlap. -/
def Addresses.overlaps (view : View) : List Finding :=
  (combinations (sortedItems view.locations)).flatMap fun p =>
    (ad.nets p.1.2.subnets).flatMap fun na =>
      (ad.nets p.2.2.subnets).filterMap (ad.overlapFinding p.1 p.2 na)

/-- The locations without subnets. -/
def View.bare (view : View) : List Finding :=
  ((sortedItems view.locations).filter fun e => e.2.subnets = []).map fun e =>
    { code := .locationNoSubnets
      severity := .warning
      subject := .location e.1
      params := [("name", .str e.2.name)] }

def Addresses.modelChecks (view : View) (devices : List Host) : List Finding :=
  ad.overlaps view ++ view.bare ++ view.isolated ++
    (sortedItems view.locations).filterMap (gatewayFinding devices)

/-! ## Subnets -/

def Addresses.netsAt (view : View) (lid : String) : List Network := ad.nets (view.at lid).subnets

def Addresses.allNets (view : View) : List Network :=
  view.locations.flatMap fun e => ad.nets e.2.subnets

/-- Another location with the address. -/
def Addresses.owner (view : View) (lid : String) (ip : Address) : Option String :=
  ((sortedItems view.locations).find? fun e => e.1 ≠ lid ∧ covers (ad.nets e.2.subnets) ip).map
    Prod.fst

/-- The subnet that is proposed for a device. -/
def Addresses.outsideProposal (d : Host) (ip : Address) (owner : String) :
    Except Exc (Option (List Json)) :=
  if owner ≠ "" ∨ ip.version ≠ .v4 then .ok none
  else (ad.slash24 d.ip).map fun subnet => some [addSubnetOp d.location subnet]

/-- A device outside of the subnets of its location. -/
def outsideFinding (view : View) (d : Host) (owner : String) (proposal : Option (List Json)) :
    Finding where
  code := .deviceOutsideSubnets
  severity := .warning
  subject := .device d.ip
  params := [("ip", .str d.ip), ("name", .str (view.at d.location).name),
    ("owner", .str (if owner ≠ "" then (view.at owner).name else ""))]
  proposal := proposal

def Addresses.deviceFinding (view : View) (d : Host) : Except Exc (Option Finding) :=
  match ad.addr d.ip with
  | none => .ok none
  | some ip =>
    if has view.locations d.location = false ∨ ad.netsAt view d.location = [] ∨
        covers (ad.netsAt view d.location) ip = true then .ok none
    else
      let owner := (ad.owner view d.location ip).getD ""
      (ad.outsideProposal d ip owner).map fun proposal =>
        some (outsideFinding view d owner proposal)

/-- `gw_loc`. -/
def View.gatewayLocations (view : View) : Dict String :=
  view.locations.foldl (fun d e => if e.2.gateway = "" then d else set d e.2.gateway e.1) []

/-- The location and the network of an ARP entry that no subnet covers. -/
def Addresses.uncovered (view : View) (e : ArpEntry) : Except Exc (Option (String × String)) :=
  match get? view.gatewayLocations e.sourceIp, ad.addr e.ip with
  | some lid, some ip =>
    if covers lanNets ip = false ∨ covers (ad.allNets view) ip = true then .ok none
    else (ad.slash24 (ad.addressText ip)).map fun net => some (lid, net)
  | _, _ => .ok none

/-- `sorted(seen.items())`, without the counts. -/
def seenKeys (keys : List (String × String)) : List (String × String) :=
  keys.dedup.insertionSort fun k l => k.1 < l.1 ∨ (k.1 = l.1 ∧ k.2 ≤ l.2)

/-- The networks of ARP entries that no subnet covers. -/
def arpFindings (view : View) (keys : List (String × String)) : List Finding :=
  (seenKeys keys).map fun k =>
    { code := .arpUncovered
      severity := .warning
      subject := .location k.1
      params := [("name", .str (view.at k.1).name), ("subnet", .str k.2),
        ("count", .int (keys.count k))]
      proposal := some [addSubnetOp k.1 k.2] }

def Addresses.used (devices : List Host) (arp : List ArpEntry) : List Address :=
  (devices.map Host.ip ++ arp.map ArpEntry.ip).filterMap ad.addr

/-- The subnets of a location that nobody uses. -/
def Addresses.unused (devices : List Host) (arp : List ArpEntry) (e : String × Location) :
    List Finding :=
  if e.2.gateway = "" ∨ e.2.gateway ∉ arp.map ArpEntry.sourceIp then []
  else
    ((ad.nets e.2.subnets).filter fun n => !(ad.used devices arp).any n.has).map fun n =>
      { code := .subnetUnused
        severity := .info
        subject := .location e.1
        params := [("name", .str e.2.name), ("subnet", .str (ad.networkText n))] }

def Addresses.subnetChecks (view : View) (devices : List Host) (arp : List ArpEntry) :
    Except Exc (List Finding) := do
  let outside ← devices.mapM (ad.deviceFinding view)
  let keys ← arp.mapM (ad.uncovered view)
  pure (outside.reduceOption ++ arpFindings view keys.reduceOption ++
    (sortedItems view.locations).flatMap (ad.unused devices arp))

/-! ## Routes -/

def Addresses.routeNets (rows : List RouteRow) : List (Network × RouteRow) :=
  rows.filterMap fun r => (ad.net r.network).map fun n => (n, r)

/-- The rows of the gateway of a location. -/
def View.entryOf {α : Type} (view : View) (data : Dict α) (lid : String) : Option α :=
  if (view.at lid).gateway = "" then none else get? data (view.at lid).gateway

/-- A route covers a subnet. -/
def routed (nets : List (Network × RouteRow)) (s : Network) : Bool :=
  nets.any fun n => n.1.version = s.version ∧ 0 < n.1.prefixlen ∧ s.subnetOf n.1

def routedByDefault (nets : List (Network × RouteRow)) (s : Network) : Bool :=
  nets.any fun n => n.1.version = s.version ∧ n.1.prefixlen = 0

/-- A subnet that the gateway of the other side has no route for. -/
def Addresses.noRoute (view : View) (lkid src dst : String) (entry : RouteEntry) (s : Network) :
    Option Finding :=
  let nets := ad.routeNets entry.rows
  if routed nets s = true then none
  else
    some
      { code := .linkNoRoute
        severity := if routedByDefault nets s ∨ entry.fromBackup then .warning else .error
        subject := .link lkid
        params := [("subnet", .str (ad.networkText s)),
          ("via", .str (if routedByDefault nets s then "default" else "")),
          ("backup_only", .bool entry.fromBackup), ("src", .str (view.at src).name),
          ("dst", .str (view.at dst).name)] }

/-- Nothing is known of the routes of a location. -/
def unknownRoute (view : View) (lkid src dst : String) : Finding where
  code := .linkNoRoute
  severity := .unknown
  subject := .link lkid
  params := [("reason", .str (if (view.at src).gateway = "" then "no_gateway" else "no_routes")),
    ("src", .str (view.at src).name), ("dst", .str (view.at dst).name)]

/-- The check of a direction of a link. -/
def Addresses.directionFindings (view : View) (routes : Dict RouteEntry) (lkid src dst : String) :
    List Finding :=
  match view.entryOf routes src with
  | none => [unknownRoute view lkid src dst]
  | some entry =>
    if entry.rows = [] then [unknownRoute view lkid src dst]
    else (ad.nets (view.at dst).subnets).filterMap (ad.noRoute view lkid src dst entry)

def Addresses.linkFindings (view : View) (routes : Dict RouteEntry) (k : String × Link) :
    List Finding :=
  ad.directionFindings view routes k.1 k.2.a k.2.b ++
    ad.directionFindings view routes k.1 k.2.b k.2.a

/-- `frozenset((a, b))`, for two different ids. -/
def pair (a b : String) : String × String := ordered a b

def View.linked (view : View) (p : Link → Bool) : List (String × String) :=
  (view.links.filter fun k => p k.2).map fun k => pair k.2.a k.2.b

/-- The first route that overlaps a subnet of a location. -/
def Addresses.hit (view : View) (rows : List RouteRow) (dst : String) : Option RouteRow :=
  ((ad.routeNets rows).find? fun n => 0 < n.1.prefixlen ∧
    (ad.nets (view.at dst).subnets).any fun s => n.1.version = s.version ∧ n.1.overlaps s).map
    Prod.snd

def routeFinding (view : View) (tunnels : Dict TunnelEntry) (src dst : String) (hit : RouteRow) :
    Finding :=
  let names := ((get? tunnels (view.at src).gateway).map fun t => t.tunnels.map Tunnel.name).getD []
  { code := .routeWithoutLink
    severity := .info
    subject := .location src
    params := [("src", .str (view.at src).name), ("dst", .str (view.at dst).name),
      ("network", .str hit.network), ("interface", .str hit.interface)]
    proposal := some [addLinkOp src dst (if hit.interface ∈ names then "vpn" else "wan")] }

/-- The findings so far, and the pairs that were proposed. -/
abbrev Proposing := List Finding × List (String × String)

def Addresses.routePair (view : View) (routes : Dict RouteEntry) (tunnels : Dict TunnelEntry)
    (st : Proposing) (p : String × String) : Proposing :=
  match view.entryOf routes p.1 with
  | none => st
  | some entry =>
    if p.2 = p.1 ∨ pair p.1 p.2 ∈ view.linked (fun _ => true) ∨ pair p.1 p.2 ∈ st.2 then st
    else
      match ad.hit view entry.rows p.2 with
      | none => st
      | some hit => (st.1 ++ [routeFinding view tunnels p.1 p.2 hit], pair p.1 p.2 :: st.2)

/-- The pairs of locations, in the order of the two loops. -/
def View.pairs (view : View) : List (String × String) :=
  (sortedItems view.locations).flatMap fun e =>
    (sortedItems view.locations).map fun f => (e.1, f.1)

def Addresses.routingChecks (view : View) (routes : Dict RouteEntry) (tunnels : Dict TunnelEntry) :
    List Finding :=
  (sortedItems view.links).flatMap (ad.linkFindings view routes) ++
    (view.pairs.foldl (ad.routePair view routes tunnels) ([], [])).1

/-! ## Tunnels -/

def Addresses.tunnelMatches (t : Tunnel) (other : Location) : Bool :=
  (other.gateway ≠ "" && t.remoteGw = other.gateway) ||
    (ad.nets t.dst).any fun n =>
      (ad.nets other.subnets).any fun s => n.version = s.version ∧ n.overlaps s

/-- `vendor.get(gw)`: the last row of an address counts. -/
def vendorOf (devices : List Host) (ip : String) : Option String :=
  ((devices.filter fun d => d.ip = ip).getLast?).map fun d => lowerText d.vendor

def View.sideTunnels (view : View) (tunnels : Dict TunnelEntry) (devices : List Host)
    (lid : String) : Option (List Tunnel) :=
  if vendorOf devices (view.at lid).gateway ≠ some "fortinet" then none
  else
    match view.entryOf tunnels lid with
    | none => none
    | some data => if data.error ≠ "" ∧ data.tunnels = [] then none else some data.tunnels

def vpnDown (lkid state tunnel side other : String) (severity : Severity) : Finding where
  code := .vpnLinkDown
  severity := severity
  subject := .link lkid
  params := [("state", .str state), ("tunnel", .str tunnel), ("side", .str side),
    ("other", .str other)]

def Addresses.sideFindings (view : View) (lkid side other : String) (ts : List Tunnel) :
    List Finding :=
  match ts.filter fun t => ad.tunnelMatches t (view.at other) with
  | [] => [vpnDown lkid "missing" "" (view.at side).name (view.at other).name .error]
  | t :: found =>
    if (t :: found).any Tunnel.up then []
    else [vpnDown lkid "down" t.name (view.at side).name (view.at other).name .error]

/-- The check of a link of tunnels. -/
def Addresses.vpnFindings (view : View) (tunnels : Dict TunnelEntry) (devices : List Host)
    (k : String × Link) : List Finding :=
  let a := view.sideTunnels tunnels devices k.2.a
  let b := view.sideTunnels tunnels devices k.2.b
  (a.map (ad.sideFindings view k.1 k.2.a k.2.b)).getD [] ++
    (b.map (ad.sideFindings view k.1 k.2.b k.2.a)).getD [] ++
    if a = none ∧ b = none then
      [vpnDown k.1 "unknown" "" (view.at k.2.a).name (view.at k.2.b).name .unknown]
    else []

def tunnelFinding (view : View) (src dst : String) (t : Tunnel) : Finding where
  code := .tunnelWithoutLink
  severity := .info
  subject := .location src
  params := [("src", .str (view.at src).name), ("dst", .str (view.at dst).name),
    ("tunnel", .str t.name)]
  proposal := some [addLinkOp src dst "vpn"]

def Addresses.tunnelPair (view : View) (st : Proposing) (c : String × Tunnel × String) :
    Proposing :=
  if c.2.2 = c.1 ∨ pair c.1 c.2.2 ∈ view.linked (fun k => k.kind = "vpn") ∨
      pair c.1 c.2.2 ∈ st.2 ∨ ad.tunnelMatches c.2.1 (view.at c.2.2) = false then st
  else (st.1 ++ [tunnelFinding view c.1 c.2.2 c.2.1], pair c.1 c.2.2 :: st.2)

/-- The tunnels that are up with the locations, in the order of the three loops. -/
def View.tunnelPairs (view : View) (tunnels : Dict TunnelEntry) (devices : List Host) :
    List (String × Tunnel × String) :=
  (sortedItems view.locations).flatMap fun e =>
    (((view.sideTunnels tunnels devices e.1).getD []).filter Tunnel.up).flatMap fun t =>
      (sortedItems view.locations).map fun f => (e.1, t, f.1)

def Addresses.vpnChecks (view : View) (tunnels : Dict TunnelEntry) (devices : List Host) :
    List Finding :=
  ((sortedItems view.links).filter fun k => k.2.kind = "vpn").flatMap
      (ad.vpnFindings view tunnels devices) ++
    ((view.tunnelPairs tunnels devices).foldl (ad.tunnelPair view) ([], [])).1

/-! ## All checks -/

/-- The order of the findings. -/
def Finding.le (f g : Finding) : Prop :=
  f.severity.order < g.severity.order ∨
    (f.severity.order = g.severity.order ∧ f.code.word ≤ g.code.word)

instance (f g : Finding) : Decidable (f.le g) := inferInstanceAs (Decidable (_ ∨ _))

def Addresses.run (view : View) (observed : Observed) : Except Exc (List Finding) := do
  let subnets ← ad.subnetChecks view observed.devices observed.arp
  pure ((ad.modelChecks view observed.devices ++ subnets ++
    ad.routingChecks view observed.routes observed.tunnels ++
    ad.vpnChecks view observed.tunnels observed.devices).insertionSort Finding.le)

end Networks

end SentinelNet.Blueprint
