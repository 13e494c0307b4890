import SentinelNet.Lib.Grouping
import SentinelNet.MacHistory.Store
import SentinelNet.NetMap.Scan

/-!
# The inventory of endpoints

`endpoint_inventory` derives one endpoint for every MAC address of a tenant from the tables: its
rows are read in the tenants that are asked for, but the addresses of the switches' own interfaces,
and the network map that decides which ports go to other switches, are those of all tenants.

* `endpointInventory_congr`: what it depends on.
-/

namespace SentinelNet.MacHistory

open PyDict PyText Grouping

/-! ## MAC addresses -/

inductive MacCategory where
  | broadcast | multicast | unicast
  deriving DecidableEq

/-- What `classify_mac` says of an address, without its texts. -/
structure MacInfo where
  category : MacCategory
  isLocal : Bool
  vendorKind : Option String
  deriving DecidableEq

def virtualOui : Dict String :=
  [("00:50:56", "VMware"), ("00:0c:29", "VMware"), ("00:05:69", "VMware"), ("00:1c:14", "VMware"),
    ("00:15:5d", "Hyper-V"), ("00:03:ff", "Hyper-V"), ("08:00:27", "VirtualBox"),
    ("0a:00:27", "VirtualBox"), ("52:54:00", "QEMU/KVM"), ("00:16:3e", "Xen"),
    ("00:1c:42", "Parallels")]

/-- A digit of `int(s, 16)`, in lower case. -/
def hexValue (c : Char) : ℕ := if c.isDigit then c.toNat - 48 else c.toNat - 87

/-- `int(normalized[:2], 16)`. -/
def firstByte (mac : List Char) : ℕ := (mac.take 2).foldl (fun n c => 16 * n + hexValue c) 0

def classifyMac (mac : String) : Option MacInfo :=
  (normalizeMac mac).map fun normalized =>
    let first := firstByte normalized.toList
    { category :=
        if normalized = "ff:ff:ff:ff:ff:ff" then .broadcast
        else if first % 2 = 1 then .multicast
        else .unicast
      isLocal := first / 2 % 2 = 1
      vendorKind := get? virtualOui (String.ofList (normalized.toList.take 8)) }

def isStableIdentity (mac : String) : Bool :=
  match classifyMac mac with
  | none => false
  | some info => info.category = .unicast && (!info.isLocal || info.vendorKind.isSome)

/-! ## The network map -/

/-- `_normalize_iface`: letters and a number, or the name in lower case. -/
def normalizeIface (name : String) : String :=
  let cs := stripChars name.toList
  let letters := cs.takeWhile fun c => c.isAlpha || c == '-'
  let number := (cs.dropWhile fun c => c.isAlpha || c == '-').dropWhile isSpace
  if (letters.head?.map Char.isAlpha).getD false ∧ number ≠ [] ∧
      number.all (fun c => c.isDigit || c == '/' || c == '.' || c == ':') then
    let code := String.ofList ((letters.map Char.toLower).filter (· ≠ '-'))
    (get? NetMap.ifaceAliases code).getD code ++ String.ofList number
  else String.ofList ((cs.map Char.toLower).filter (· ≠ ' '))

def History.portMacs (h : History) (switchIp : String) : List (String × String × String) :=
  (h.sightings.filter fun r => r.switchIp = switchIp).map fun r =>
    (r.mac, r.interface, r.portChannel)

/-- `own_macs`: the addresses of a device's interfaces, and those bound to its address. -/
def History.ownMacs (h : History) (ip : String) : List String :=
  (h.switchIfMacs.filter fun r => r.switchIp = ip).map (·.mac) ++
    (h.arpEntries.filter fun r => r.ip = ip).map (·.mac)

/-- What is read beside the tables. -/
structure Surroundings where
  /-- `topology_uplinks`: the uplinks of a switch that the network map knows, by their normalized
  ports.  The map asks for MAC addresses where devices share a name. -/
  uplinks : (String → List (String × String × String)) → (String → List String) → String →
    Option (Dict String)
  /-- The devices whose MAC addresses decide the uplinks of a switch. -/
  consulted : String → List String
  reads : ∀ ports ports' own own' switchIp,
    (∀ ip ∈ consulted switchIp, ports ip = ports' ip ∧ own ip = own' ip) →
      uplinks ports own switchIp = uplinks ports' own' switchIp
  /-- `get_retention_days`. -/
  retentionDays : ℕ
  /-- `get_category_assignments`. -/
  assignments : Dict (Dict String)
  /-- Whether `ip_address` accepts a text. -/
  isAddress : String → Bool
  /-- `datetime.fromisoformat`, in days; `none` is `ValueError`. -/
  days : String → Option ℚ
  now : ℚ

/-- The uplinks as the network map has them. -/
def Surroundings.uplinksIn (env : Surroundings) (h : History) : String → Option (Dict String) :=
  env.uplinks h.portMacs h.ownMacs

/-- `reclassify_sightings`, for a row. -/
def reclassify (uplinks : String → Option (Dict String)) (r : Sighting) : Sighting :=
  match uplinks r.switchIp with
  | none => r
  | some ups =>
    let npc := if r.portChannel = "" then "" else normalizeIface r.portChannel
    let direct := (get? ups (normalizeIface r.interface)).getD ""
    let neigh :=
      if direct ≠ "" then direct else if npc = "" then "" else (get? ups npc).getD ""
    { r with isUplink := neigh ≠ "", uplinkTo := neigh }

theorem mac_reclassify (uplinks : String → Option (Dict String)) (r : Sighting) :
    (reclassify uplinks r).mac = r.mac := by
  rw [reclassify]
  cases uplinks r.switchIp with
  | none => rfl
  | some ups => rfl

/-! ## Filters -/

structure Filters where
  probe : Option String
  switchIp : Option String
  vlan : Option String
  q : Option String
  staleDays : ℤ
  limit : ℤ
  frm : Option String
  upTo : Option String

def given (filter : Option String) : Option String := filter.filter (· ≠ "")

/-- `LIKE`: a percent sign stands for any text, an underscore for a character, and the case of
letters does not matter. -/
def likeChars : List Char → List Char → Bool
  | [], text => text.isEmpty
  | c :: pattern, text =>
    if c = '%' then text.tails.any (likeChars pattern)
    else
      match text with
      | [] => false
      | d :: text => (c = '_' || c.toLower = d.toLower) && likeChars pattern text

def like (text pattern : String) : Bool := likeChars pattern.toList text.toList

/-- `re.fullmatch(r"[0-9]+(\.[0-9]*){0,3}", q)`. -/
def ipv4ish (q : String) : Bool :=
  let parts := q.toList.splitOn '.'
  parts.length ≤ 4 && parts.all (·.all Char.isDigit) && !(parts.headD []).isEmpty

section Request

variable (env : Surroundings) (h : History) (tenants : Option (List String)) (f : Filters)

def inTenants (tenant : String) : Bool := tenants.all (·.contains tenant)

def History.seenIn : List Sighting := h.sightings.filter fun r => inTenants tenants r.tenant

def History.boundIn : List ArpEntry := h.arpEntries.filter fun b => inTenants tenants b.tenant

def Filters.window (firstSeen lastSeen : String) : Bool :=
  (given f.frm).all (· ≤ lastSeen) && (given f.upTo).all (firstSeen ≤ ·)

def Filters.admits (r : Sighting) : Bool :=
  (given f.probe).all (· = r.probe) && (given f.switchIp).all (· = r.switchIp) &&
    (given f.vlan).all (· = r.vlan) && f.window r.firstSeen r.lastSeen

def holder (mac tenant : String) : String := mac ++ "|" ++ tenant

/-- `arp_sub`: who held an address of a kind. -/
def holders (bound : List ArpEntry) (held : String → Bool) : List String :=
  (bound.filter fun b => held b.ip && f.window b.firstSeen b.lastSeen).map fun b =>
    holder b.mac b.tenant

/-- The condition of `q` on a sighting; `none` is a search that finds nothing. -/
def search (bound : List ArpEntry) : Option (Sighting → Bool) :=
  match given f.q with
  | none => some fun _ => true
  | some q =>
    let isIp := env.isAddress q
    let exact := holders f bound (· = q)
    let held : Option (List String) :=
      if isIp ∧ exact ≠ [] then some exact
      else if ipv4ish q then some (holders f bound (like · (q ++ "%")))
      else none
    if isIp ∧ held = none then none
    else
      some fun r =>
        (!isIp && (like r.mac ("%" ++ q ++ "%") || like r.ouiVendor ("%" ++ q ++ "%") ||
          like r.switchName ("%" ++ q ++ "%") || like r.interface ("%" ++ q ++ "%"))) ||
        (held.any (·.contains (holder r.mac r.tenant)))

/-- The addresses of the switches' own interfaces. -/
def History.infra : List String := h.switchIfMacs.map (·.mac)

def inventoryRows (cond : Sighting → Bool) : List Sighting :=
  (((h.seenIn tenants).filter fun r => f.admits r && cond r).map
    (reclassify (env.uplinksIn h))).filter fun r => r.mac ∉ h.infra

end Request

/-! ## Endpoints -/

structure Endpoint where
  mac : String
  tenant : String
  ouiVendor : String
  probe : String
  ips : List String
  ipSources : List (String × String)
  switchIp : String
  switchName : String
  interface : String
  vlan : String
  firstSeen : String
  lastSeen : String
  seenCount : ℕ
  accessPortCount : ℕ
  clientType : String
  flags : List String
  deriving DecidableEq

/-- `min` and `max` of a list of texts that is not empty. -/
def extreme (pick : String → String → String) : List String → String
  | [] => ""
  | s :: ss => ss.foldl pick s

/-- The newest bindings of their source; with a window all of them. -/
def Filters.current (f : Filters) (raw : List ArpEntry) : List ArpEntry :=
  if f.frm = none ∧ f.upTo = none then
    raw.filter fun b =>
      b.lastSeen = extreme max ((raw.filter fun b' => b'.sourceIp = b.sourceIp).map (·.lastSeen))
  else raw

/-- The order of the bindings: the newest first, and then by their addresses, backwards. -/
def ArpEntry.before (b b' : ArpEntry) : Prop :=
  b'.lastSeen < b.lastSeen ∨ b'.lastSeen = b.lastSeen ∧ b'.ip ≤ b.ip

instance (b b' : ArpEntry) : Decidable (b.before b') := inferInstanceAs (Decidable (_ ∨ _))

/-- `src_of`: the addresses, each with the gateway that said so first. -/
def sourcesOf (current : List ArpEntry) : Dict String :=
  (current.insertionSort ArpEntry.before).foldl
    (fun d b => if b.ip = "" then d else setDefault d b.ip b.sourceIp) []

section Endpoints

variable (env : Surroundings) (f : Filters)

/-- `_age_days`. -/
def Surroundings.age (iso : String) : Option ℚ :=
  if iso = "" then none else (env.days iso).map (env.now - ·)

def akey (tenant ip : String) : String := strip tenant ++ "|" ++ ip

/-- The type of a client: the one that was assigned to one of its addresses by hand. -/
def Surroundings.clientType (tenant : String) (ips : List String) : String :=
  let assigned := ips.findSome? fun ip =>
    (get? env.assignments (akey tenant ip)).filter (· ≠ [])
  match assigned.bind fun fields => given (get? fields "category") with
  | some category => category
  | none => "client"

def Surroundings.flags (mac firstSeen lastSeen : String) (ports ips access : ℕ) : List String :=
  (if 1 < ports then ["AMBIGUOUS"] else []) ++
    (if ((classifyMac mac).bind (·.vendorKind)).isSome then ["VM"]
      else if isStableIdentity mac then [] else ["RANDOM"]) ++
    (if 1 < ips then ["MULTI-IP"] else []) ++
    (if ips = 0 then ["NO-IP"] else []) ++
    (if access = 0 then ["TRANSIT-ONLY"] else []) ++
    (if (env.age lastSeen).any (fun age => (f.staleDays : ℚ) < age) then ["STALE"] else []) ++
    (if (env.age firstSeen).any (fun born => born ≤ (f.staleDays : ℚ)) then ["NEW"] else [])

/-- The endpoint of a group of sightings, with what its address was bound to. -/
def endpoint (bound : List ArpEntry) (g : (String × String) × List Sighting) : Endpoint :=
  let access := (g.2.filter fun s => !s.isUplink).insertionSort fun s t => t.lastSeen ≤ s.lastSeen
  let ports := (access.map fun s => (s.switchIp, lower s.interface)).dedup.length
  let raw := bound.filter fun b =>
    b.mac = g.1.1 && b.tenant = g.1.2 && f.window b.firstSeen b.lastSeen
  let sources := sourcesOf (f.current raw)
  let ips := sources.map Prod.fst
  let best (column : Sighting → String) : String := (access.head?.map column).getD ""
  let firstSeen := extreme min (g.2.map (·.firstSeen))
  let lastSeen := extreme max (g.2.map (·.lastSeen))
  { mac := g.1.1
    tenant := g.1.2
    ouiVendor := ((g.2.map (·.ouiVendor)).find? (· ≠ "")).getD ""
    probe := (g.2.head?.map (·.probe)).getD ""
    ips := ips
    ipSources := sources
    switchIp := best (·.switchIp)
    switchName := best (·.switchName)
    interface := best (·.interface)
    vlan := best (·.vlan)
    firstSeen := firstSeen
    lastSeen := lastSeen
    seenCount := (g.2.map (·.seenCount)).sum
    accessPortCount := ports
    clientType := env.clientType g.1.2 ips
    flags := env.flags f g.1.1 firstSeen lastSeen ports ips.length access.length }

end Endpoints

/-! ## The inventory -/

structure Counts where
  endpoints : ℕ
  switches : ℕ
  vlans : ℕ
  stale : ℕ
  new : ℕ
  noIp : ℕ
  random : ℕ
  deriving DecidableEq

/-- What `endpoint_inventory` answers. -/
structure Inventory where
  results : List Endpoint
  total : ℕ
  truncated : Bool
  counts : Counts
  outsideRetention : Bool
  retentionDays : ℕ
  deriving DecidableEq

section Inventory

variable (env : Surroundings) (h : History) (tenants : Option (List String)) (f : Filters)

/-- An inventory without endpoints. -/
def Surroundings.emptyInventory : Inventory :=
  ⟨[], 0, false, ⟨0, 0, 0, 0, 0, 0, 0⟩, false, env.retentionDays⟩

def countsOf (results : List Endpoint) : Counts where
  endpoints := results.length
  switches := ((results.map (·.switchIp)).filter (· ≠ "")).dedup.length
  vlans := ((results.map (·.vlan)).filter (· ≠ "")).dedup.length
  stale := results.countP (·.flags.contains "STALE")
  new := results.countP (·.flags.contains "NEW")
  noIp := results.countP (·.flags.contains "NO-IP")
  random := results.countP (·.flags.contains "RANDOM")

/-- The report: the endpoints that were seen last come first. -/
def report (endpoints : List Endpoint) : Inventory :=
  let results := endpoints.insertionSort fun e e' => e'.lastSeen ≤ e.lastSeen
  let cap := (max 1 (min 20000 f.limit)).toNat
  { results := results.take cap
    total := results.length
    truncated := cap < results.length
    counts := countsOf results
    outsideRetention := ((given f.frm).bind env.age).any fun age => (env.retentionDays : ℚ) < age
    retentionDays := env.retentionDays }

/-- `endpoint_inventory`, without its cache. -/
def endpointInventory : Inventory :=
  if tenants = some [] then env.emptyInventory
  else
    match search env f (h.boundIn tenants) with
    | none => env.emptyInventory
    | some cond =>
      let rows := inventoryRows env h tenants f cond
      if rows = [] then env.emptyInventory
      else
        report env f ((groupOn (fun r => (r.mac, r.tenant)) rows).map
          (endpoint env f (h.boundIn tenants)))

end Inventory

/-! ## What it depends on -/

/-- The inventory of some tenants depends on their sightings and bindings, on whether their
addresses are those of interfaces, and on what the network map makes of their ports. -/
theorem endpointInventory_congr {env : Surroundings} {h h' : History}
    {tenants : Option (List String)} (f : Filters) (hseen : h.seenIn tenants = h'.seenIn tenants)
    (hbound : h.boundIn tenants = h'.boundIn tenants)
    (hinfra : ∀ r ∈ h'.seenIn tenants, r.mac ∈ h.infra ↔ r.mac ∈ h'.infra)
    (hmap : ∀ r ∈ h'.seenIn tenants, env.uplinksIn h r.switchIp = env.uplinksIn h' r.switchIp) :
    endpointInventory env h tenants f = endpointInventory env h' tenants f := by
  have hrows : ∀ cond, inventoryRows env h tenants f cond = inventoryRows env h' tenants f cond := by
    intro cond
    have hsame : ((h'.seenIn tenants).filter fun r => f.admits r && cond r).map
        (reclassify (env.uplinksIn h)) =
          ((h'.seenIn tenants).filter fun r => f.admits r && cond r).map
            (reclassify (env.uplinksIn h')) := by
      refine List.map_congr_left fun r hr => ?_
      rw [reclassify, reclassify, hmap r (List.mem_filter.mp hr).1]
    rw [inventoryRows, inventoryRows, hseen, hsame]
    refine List.filter_congr fun r hr => ?_
    obtain ⟨r₀, hr₀, rfl⟩ := List.mem_map.mp hr
    rw [mac_reclassify, decide_eq_decide, not_iff_not]
    exact hinfra r₀ (List.mem_filter.mp hr₀).1
  rw [endpointInventory, endpointInventory, hbound]
  simp only [hrows]

end SentinelNet.MacHistory
