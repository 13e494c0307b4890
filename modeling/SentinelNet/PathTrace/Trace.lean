import SentinelNet.Lib.Ipv4Network
import SentinelNet.Lib.StableSort
import SentinelNet.RouteTable.Collect

/-!
# The path of an address

`services/path_trace.py`: from one device to the next, each time by the route its table prefers.
The tables are IPv4, as the view accepts nothing else.

* `candidates`: the routes that cover an address, the preferred one first.
* `ownerOf`: the device that holds the address of a next hop.
* `trace`: the path, of at most `maxHops` devices.
-/

namespace SentinelNet.PathTrace

open PyText PyDict RouteTable

def defaultAd : List (String × ℤ) :=
  [("connected", 0), ("local", 0), ("static", 1), ("bgp", 20), ("eigrp", 90), ("ospf", 110),
    ("isis", 115), ("rip", 120)]

def maxHops : ℕ := 16

def net (value : String) : Option Ipv4.Network := Ipv4.networkOfChars (strip value).toList

def addr (value : String) : Option Ipv4.Addr := Ipv4.ofChars (strip value).toList

structure IfaceAddress where
  iface : String
  ip : String
  network : String

/-- The interface addresses that the local routes of a table give, the part of `addresses_for` that
needs no answer of a device. -/
def localAddresses (rows : List CollectedRow) : List IfaceAddress :=
  rows.filterMap fun r =>
    if r.type = "local" then
      match net r.network with
      | some n =>
        if n.prefixlen = 32 then
          let ip := String.ofList (Ipv4.format n.address)
          some ⟨r.interface, ip, ip ++ "/32"⟩
        else none
      | none => none
    else none

def num : Value → Option ℤ
  | .int n => some n
  | .text s => PyText.int s
  | _ => none

def ad (row : CollectedRow) : ℤ := (num row.distance).getD ((defaultAd.lookup row.type).getD 255)

/-- A route that covers the address, with what it is ranked by. -/
structure Candidate where
  row : CollectedRow
  prefixlen : ℕ
  ad : ℤ
  metric : ℤ
  deriving DecidableEq

def candidate? (target : Ipv4.Addr) (r : CollectedRow) : Option Candidate :=
  if r.type = "local" then none
  else
    match net r.network with
    | some n =>
      if n.has target then some ⟨r, n.prefixlen, ad r, (num r.metric).getD 0⟩ else none
    | none => none

/-- One candidate is at least as good as another one: a longer prefix, then a smaller distance,
then a smaller metric. -/
def Candidate.Le (a b : Candidate) : Prop :=
  b.prefixlen < a.prefixlen ∨
    (a.prefixlen = b.prefixlen ∧ (a.ad < b.ad ∨ (a.ad = b.ad ∧ a.metric ≤ b.metric)))

instance : DecidableRel Candidate.Le := fun a b => by
  unfold Candidate.Le
  infer_instance

def candidates (rows : List CollectedRow) (dst : String) : List Candidate :=
  match addr dst with
  | none => []
  | some target => (rows.filterMap (candidate? target)).insertionSort Candidate.Le

/-- What decided between the candidates. -/
inductive Decision where
  | unica
  | prefisso
  | distanza
  | metrica
  | ecmp
  deriving DecidableEq

def decidedBy : List Candidate → Decision
  | first :: second :: _ =>
    if first.prefixlen ≠ second.prefixlen then .prefisso
    else if first.ad ≠ second.ad then .distanza
    else if first.metric ≠ second.metric then .metrica
    else .ecmp
  | _ => .unica

def ownerOf (hopIp : String) (addresses : Dict (List IfaceAddress)) (exclude : String) :
    Option String :=
  match addr hopIp with
  | none => none
  | some target =>
    (addresses.find? fun p =>
      p.1 != exclude && p.2.any fun a => addr a.ip == some target).map Prod.fst

def onOwnLan (hopIp : String) (addrs : List IfaceAddress) : Bool :=
  match addr hopIp with
  | none => false
  | some target => addrs.any fun a => (net a.network).any fun n => n.has target

def sameChoice (a b : Candidate) : Bool :=
  a.prefixlen == b.prefixlen && a.ad == b.ad && a.metric == b.metric

/-- How a path ends. -/
inductive Outcome where
  | nonInterrogato
  | anello
  | nessunaRotta
  | biforcazione
  | consegna
  | fuoriInventario
  | limiteSalti
  deriving DecidableEq

/-- A device of a path. -/
structure Hop where
  deviceIp : String
  device : String
  fromBackup : Bool := false
  candidates : List Candidate := []
  outcome : Option Outcome := none
  best : Option Candidate := none
  decidedBy : Option Decision := none
  tied : List Candidate := []
  nextDeviceIp : Option String := none

structure Path where
  hops : List Hop
  outcome : Outcome
  deviceIp : Option String := none
  branches : List (Candidate × Option String) := []
  exitHop : Option String := none
  exitLocal : Bool := false

/-- What `trace` is given besides the tables. -/
structure Fleet where
  addresses : Dict (List IfaceAddress)
  hostnames : Dict String

def Fleet.name (fleet : Fleet) (ip : String) : String := orElse ((get? fleet.hostnames ip).getD "") ip

/-- The hop of a device and where the path goes from it: on to another device, or nowhere. -/
def hopAt (fleet : Fleet) (dst current : String) (rows : List CollectedRow) :
    Path ⊕ (Hop × String) :=
  let cand := candidates rows dst
  let hop : Hop :=
    { deviceIp := current, device := fleet.name current,
      fromBackup := rows.any CollectedRow.fromBackup, candidates := cand }
  match cand with
  | [] => .inl { hops := [{ hop with outcome := some .nessunaRotta }], outcome := .nessunaRotta }
  | best :: _ =>
    let hop := { hop with best := some best, decidedBy := some (decidedBy cand) }
    let tied := cand.filter (sameChoice · best)
    if 1 < tied.length then
      .inl
        { hops := [{ hop with outcome := some .biforcazione, tied }], outcome := .biforcazione,
          branches := tied.map fun r => (r, ownerOf r.row.gateway fleet.addresses current) }
    else if best.row.type = "connected" ∨ best.row.type = "local" then
      .inl { hops := [{ hop with outcome := some .consegna }], outcome := .consegna }
    else
      match ownerOf best.row.gateway fleet.addresses current with
      | none =>
        .inl
          { hops := [hop], outcome := .fuoriInventario, exitHop := some best.row.gateway,
            exitLocal := onOwnLan best.row.gateway ((get? fleet.addresses current).getD []) }
      | some nxt => .inr ({ hop with nextDeviceIp := some nxt }, nxt)

/-- The loop of `trace`, with the number of hops it may still take and the devices it has seen. -/
def traceFrom (fleet : Fleet) (dst : String) (tables : Dict (List CollectedRow)) :
    ℕ → List String → String → Path
  | 0, _, _ => { hops := [], outcome := .limiteSalti }
  | n + 1, seen, current =>
    match get? tables current with
    | none => { hops := [], outcome := .nonInterrogato, deviceIp := some current }
    | some rows =>
      if current ∈ seen then
        { hops := [{ deviceIp := current, device := fleet.name current, outcome := some .anello }],
          outcome := .anello }
      else
        match hopAt fleet dst current rows with
        | .inl path => path
        | .inr (hop, nxt) =>
          let rest := traceFrom fleet dst tables n (current :: seen) nxt
          { rest with hops := hop :: rest.hops }

def trace (fleet : Fleet) (dst start : String) (tables : Dict (List CollectedRow)) : Path :=
  traceFrom fleet dst tables maxHops [] start

end SentinelNet.PathTrace
