import SentinelNet.RouteTable.IosRoutes

/-!
# The routes of a device

`services/route_table.py`, what the routes view and the path trace are given for a device: the rows
the device answered with and the static routes of its last backup.  The rows of a backup that the
device has not answered with are added below its own, whatever table they belong to.

* `collectedRow`: a row as the view holds it, from an entry of either source.
* `routesFromBackup`: the static routes of a backup.
-/

namespace SentinelNet.RouteTable

open PyText Regex

/-- A number of a REST answer, as JSON has it. -/
inductive Value where
  | none
  | bool (b : Bool)
  | int (n : ℤ)
  | text (s : String)
  | other
  deriving DecidableEq

/-- An entry of a source of routes; a field the source does not name is empty. -/
structure Entry where
  ipMask : String := ""
  network : String := ""
  gateway : String := ""
  interface : String := ""
  type : String := ""
  vrf : String := ""
  distance : Value := .none
  metric : Value := .none
  fromBackup : Bool := false

/-- A row of the routes view. -/
structure CollectedRow where
  deviceIp : String
  network : String
  vrf : String
  gateway : String
  interface : String
  type : String
  distance : Value
  metric : Value
  fromBackup : Bool
  deriving DecidableEq

def typeAliases : List (String × String) :=
  [("connect", "connected"), ("connected", "connected"), ("direct", "connected"),
    ("local", "local"), ("static", "static"), ("ospf", "ospf"), ("ospf-inter-area", "ospf"),
    ("ospf-external", "ospf"), ("bgp", "bgp"), ("rip", "rip"), ("isis", "isis"),
    ("eigrp", "eigrp")]

def normalizeType (raw : String) : String :=
  let key := lower (strip raw)
  (typeAliases.lookup key).getD (if key ≠ "" then "other" else "unknown")

/-- `a or b` of two texts. -/
def orElse (a b : String) : String := if a ≠ "" then a else b

def collectedRow (deviceIp : String) (e : Entry) : CollectedRow :=
  { deviceIp
    network := orElse e.ipMask e.network
    vrf := e.vrf
    gateway := e.gateway
    interface := e.interface
    type := normalizeType e.type
    distance := e.distance
    metric := e.metric
    fromBackup := e.fromBackup }

/-- An entry of `parse_ios_routes`. -/
def Row.entry (r : Row) : Entry :=
  { network := r.network, gateway := r.gateway, interface := r.interface, type := r.type,
    distance := .int r.distance, metric := .int r.metric }

/-! ## The static routes of a backup -/

structure StaticRoute where
  net : String
  nextHop : String := ""
  distance : String := ""
  ad : String := ""
  device : String := ""
  vrf : String := ""

/-- `_hop`: the gateway and the interface. -/
def hop (value : String) : String × String :=
  let text := strip value
  if (fullmatch reQuad text.toList).isSome then (text, "") else ("", text)

def staticEntry (r : StaticRoute) : Entry :=
  let gw := hop r.nextHop
  let distance := orElse r.distance r.ad
  { network := r.net
    gateway := gw.1
    interface := orElse gw.2 r.device
    type := "static"
    vrf := r.vrf
    distance := if isdigit distance then .int (nat distance) else .none
    fromBackup := true }

def routesFromBackup (deviceIp : String) (analysis : Option (List StaticRoute)) :
    Option (List CollectedRow) :=
  match analysis with
  | none => none
  | some static =>
    if static = [] then none
    else some (static.map fun r => collectedRow deviceIp (staticEntry r))

/-! ## Both sources -/

/-- What is known of the routes of a device. -/
structure Answer where
  rows : Option (List CollectedRow)
  error : String := ""

/-- The key under which a row of the backup is one the device has answered with. -/
def rowKey (r : CollectedRow) : String × String × String := (r.vrf, r.network, r.gateway)

def addBackupRow (st : List (String × String × String) × List CollectedRow) (r : CollectedRow) :
    List (String × String × String) × List CollectedRow :=
  if rowKey r ∈ st.1 then st else (rowKey r :: st.1, st.2 ++ [r])

/-- `collect_for`, from what the device answered with and the rows of its backup. -/
def collectFor (live : Answer) (fallback : Option (List CollectedRow)) : Answer :=
  match fallback with
  | none => live
  | some backup =>
    match live.rows.getD [] with
    | [] => { rows := some backup, error := live.error }
    | rows => { live with rows := some (backup.foldl addBackupRow (rows.map rowKey, rows)).2 }

end SentinelNet.RouteTable
