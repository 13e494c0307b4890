import SentinelNet.Blueprint.Checks
import SentinelNet.RouteTable.Collect

/-!
# What the checks are given

`services/blueprint_observe.py` reads the routes and the tunnels of the gateways of an organization.
`observe` asks the gateways and stores what they say; `gather` takes the stored answers, and the
static routes of the backup for a gateway that was not asked.

* `slim`: what is kept of a row of `route_table`.
* `gateways`: the gateways that are in the inventory.
* `observe`, `gather`: the two reads.
-/

namespace SentinelNet.Blueprint

open Observability PyDict PyText
open Inventory (Host)
open RouteTable (CollectedRow collectFor routesFromBackup)

def slim (r : CollectedRow) : RouteRow := ⟨r.network, r.interface, r.gateway, r.fromBackup⟩

/-- The devices of an organization under their addresses. -/
def devicesByIp (org : String) (devices : List Host) : Dict Host :=
  (devices.filter fun d => d.group = org).foldl (fun devs d => set devs d.ip d) []

def gateways (org : String) (view : View) (devices : List Host) : List (String × Host) :=
  (sortedItems view.locations).filterMap fun e =>
    (get? (devicesByIp org devices) e.2.gateway).map fun d => (e.1, d)

/-- What the collectors say of a gateway: the answer of `collect_for`, the rows of
`routes_from_backup` and the answer of `_tunnels`. -/
structure Sources where
  collect : Host → RouteTable.Answer
  backup : Host → Option (List CollectedRow)
  tunnels : Host → TunnelEntry
  backup_fromBackup : ∀ d rows, backup d = some rows → ∀ r ∈ rows, r.fromBackup = true

theorem routesFromBackup_fromBackup {ip : String}
    {analysis : Option (List RouteTable.StaticRoute)} {rows : List CollectedRow}
    (h : routesFromBackup ip analysis = some rows) :
    ∀ r ∈ rows, r.fromBackup = true := by
  cases analysis with
  | none => cases h
  | some static =>
    rw [routesFromBackup] at h
    split at h
    · cases h
    · cases h
      intro r hr
      obtain ⟨e, -, rfl⟩ := List.mem_map.mp hr
      rfl

/-- The collectors of `route_table`, from the live answers and the analyses of the last backups. -/
def Sources.ofRouteTable (live : Host → RouteTable.Answer)
    (analysis : Host → Option (List RouteTable.StaticRoute)) (tunnels : Host → TunnelEntry) :
    Sources where
  collect d := collectFor (live d) (routesFromBackup d.ip (analysis d))
  backup d := routesFromBackup d.ip (analysis d)
  tunnels := tunnels
  backup_fromBackup _ _ h := routesFromBackup_fromBackup h

structure GatewayData where
  rows : List RouteRow
  error : String
  tunnels : Option TunnelEntry

/-- `entry` of `observe`. -/
def gatewayData (src : Sources) (d : Host) : GatewayData where
  rows := ((src.collect d).rows.getD []).map slim
  error := (src.collect d).error
  tunnels := if lowerText d.vendor = "fortinet" then some (src.tunnels d) else none

/-- `observe`: what is stored. -/
def observe (src : Sources) (org : String) (view : View) (devices : List Host) : Dict GatewayData :=
  (gateways org view devices).foldl (fun data g => set data g.2.ip (gatewayData src g.2)) []

/-- The routes of a gateway that was asked. -/
def GatewayData.entry (g : GatewayData) : RouteEntry where
  rows := g.rows
  error := g.error
  fromBackup := !g.rows.isEmpty && g.rows.all RouteRow.fromBackup

/-- The routes of a gateway that was not asked. -/
def backupEntry (src : Sources) (d : Host) : Option RouteEntry :=
  match src.backup d with
  | none => none
  | some rows => if rows = [] then none else some ⟨rows.map slim, "", true⟩

def gatewayRoutes (src : Sources) (live : Dict GatewayData) (d : Host) : Option RouteEntry :=
  match get? live d.ip with
  | some g => some g.entry
  | none => backupEntry src d

/-- A value is written if there is one. -/
def setSome {α : Type} (d : Dict α) (k : String) : Option α → Dict α
  | some v => set d k v
  | none => d

def gatherRoutes (src : Sources) (live : Dict GatewayData) (gws : List (String × Host)) :
    Dict RouteEntry :=
  gws.foldl (fun routes g => setSome routes g.2.ip (gatewayRoutes src live g.2)) []

def gatherTunnels (live : Dict GatewayData) (gws : List (String × Host)) : Dict TunnelEntry :=
  gws.foldl (fun tunnels g =>
    setSome tunnels g.2.ip ((get? live g.2.ip).bind GatewayData.tunnels)) []

def gather (src : Sources) (org : String) (view : View) (devices : List Host) (arp : List ArpEntry)
    (live : Dict GatewayData) : Observed where
  devices := devices.filter fun d => d.group = org
  arp := arp
  routes := gatherRoutes src live (gateways org view devices)
  tunnels := gatherTunnels live (gateways org view devices)

end SentinelNet.Blueprint
