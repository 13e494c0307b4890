import SentinelNet.FwAnalyzers.FortiTree
import SentinelNet.Lib.Dyadic
import SentinelNet.Lib.Worklist
import SentinelNet.PolicyTest.Builtins

/-!
# The FortiOS front end

`services/policy_test/fortios.py`: addresses, address groups, services, service groups,
interfaces, static routes and policies of a FortiOS configuration.

A dictionary the source fills in a loop over the children of a section is built by
`PyDict.filterMapM`: the loop body adds an entry, adds none, or raises.  The loops over the
services of a group and of a policy merge the three dimensions in the same way; both are
`mergeServices`.

* `resolveAddresses`, `resolveServices`: the groups.
* `parseFortiosConfig`: the environment.
-/

namespace SentinelNet.PolicyTest

open PyText FwAnalyzers

/-- `FortiOSPolicyEnvironment`.  An interface is kept as its address, mask and status. -/
structure FortiOSPolicyEnvironment where
  policies : List Rule := []
  routeTable : RouteTable := {}
  interfaces : PyDict.Dict (String × String × String) := []
  addresses : PyDict.Dict (List Cube) := []
  services : PyDict.Dict ServiceDef := []
  unresolved : List String := []

def getSets (entry : Node) (key : String) (default : List String) : List String :=
  (PyDict.get? entry.sets key).getD default

/-! ## Addresses -/

/-- `[Cube.from_cidr(str(net.network_address), net.prefixlen) for net in
summarize_address_range(first, last)]`, for a range that is not empty. -/
def summarizeRange (first last : Addr) : Py (List Cube) :=
  (Dyadic.blocks 32 first.toNat last.toNat).mapM fun b =>
    Cube.fromCidr (intToIp (BitVec.ofNat 32 b.1)) (32 - b.2)

def rangeCubes (startIp endIp : String) : Py (List Cube) := do
  let s ← ipToInt startIp
  let e ← ipToInt endIp
  if s = e then do
    let c ← Cube.fromIp startIp
    pure [c]
  else if s.toNat > e.toNat then .error "last IP address must be greater than first"
  else summarizeRange s e

/-- `try: ... except Exception: pass`. -/
def orSkip {α : Type} (x : Py α) : Option α := x.toOption

def subnetCubes (subnet : List String) : Py (Option (List Cube)) :=
  match subnet with
  | [t] =>
    if contains t "/" then
      let ipPart := String.ofList (t.toList.takeWhile (· != '/'))
      let pfxPart := String.ofList ((t.toList.dropWhile (· != '/')).drop 1)
      if isIp ipPart ∧ isdigit pfxPart then do
        let c ← Cube.fromCidr ipPart (nat pfxPart)
        pure (some [c])
      else pure none
    else pure none
  | a :: m :: _ =>
    if isIp a ∧ isIp m then pure ((orSkip (Cube.fromNetmask a m)).map fun c => [c]) else pure none
  | [] => pure none

def addressType (entry : Node) : Py String :=
  match getSets entry "type" ["ipmask"] with
  | t :: _ => .ok (lower t)
  | [] => .error "list index out of range"

/-- One address object: its cubes, none of them for an FQDN, and `none` when the object gets no
entry at all. -/
def addressCubes (entry : Node) : Py (Option (List Cube)) := do
  let atype ← addressType entry
  if atype = "ipmask" then subnetCubes (getSets entry "subnet" [])
  else if atype = "iprange" then
    let startIp := fortiSet1 entry "start-ip" ""
    let endIp := fortiSet1 entry "end-ip" ""
    if isIp startIp ∧ isIp endIp then pure (orSkip (rangeCubes startIp endIp)) else pure none
  else if atype = "fqdn" then pure (some [])
  else pure none

def rawAddresses (root : Node) : Py (PyDict.Dict (List Cube)) :=
  PyDict.filterMapM addressCubes (fortiItems root "firewall address")

def groupMembers (root : Node) (path : String) : PyDict.Dict (List String) :=
  (fortiItems root path).map fun p => (p.1, getSets p.2 "member" [])

/-- The groups the queue of a group resolution goes into: those whose name is no object. -/
def openGroups (known : String → Bool) (groups : PyDict.Dict (List String)) :
    PyDict.Dict (List String) :=
  groups.filter fun p => !known p.1

/-- The names a group resolution takes from its queue, in order. -/
def reachedNames (known : String → Bool) (groups : PyDict.Dict (List String)) (gname : String)
    (members : List String) : List String :=
  Worklist.explore (openGroups known groups) gname members

def knownAddress (raw : PyDict.Dict (List Cube)) (name : String) : Bool :=
  (lookupBuiltinAddress name).isSome || PyDict.has raw name

def memberCubes (raw : PyDict.Dict (List Cube)) (name : String) : List Cube :=
  match lookupBuiltinAddress name with
  | some cubes => cubes
  | none => (PyDict.get? raw name).getD []

def groupCubes (raw : PyDict.Dict (List Cube)) (groups : PyDict.Dict (List String))
    (gname : String) (members : List String) : List Cube :=
  (reachedNames (knownAddress raw) groups gname members).flatMap (memberCubes raw)

def resolveAddresses (raw : PyDict.Dict (List Cube)) (groups : PyDict.Dict (List String)) :
    PyDict.Dict (List Cube) :=
  groups.foldl (fun d p => PyDict.set d p.1 (groupCubes raw groups p.1 p.2)) raw

/-- `_collect_policy_address`: the cubes of an address and the reasons it is not resolved. -/
def collectPolicyAddress (addresses : PyDict.Dict (List Cube)) (pid name : String) :
    List Cube × List String :=
  match lookupBuiltinAddress name with
  | some cubes => (cubes, [])
  | none =>
    match PyDict.get? addresses name with
    | some [] =>
      ([], [s!"address '{name}' referenced by policy {pid} cannot be resolved offline " ++
        "(FQDN, dynamic or geography object)"])
    | some cubes => (cubes, [])
    | none => ([], [s!"address '{name}' referenced by policy {pid} is not defined"])

/-! ## Services -/

/-- One part of a port range, `80` or `80-90`. -/
def portInterval (sub : List Char) : Option (ℤ × ℤ) :=
  if '-' ∈ sub then
    match intChars (sub.takeWhile (· != '-')), intChars ((sub.dropWhile (· != '-')).drop 1) with
    | some p1, some p2 => some (min p1 p2, max p1 p2)
    | _, _ => none
  else if isDigits sub then some ((ofDigits sub : ℤ), (ofDigits sub : ℤ))
  else none

/-- `parse_port_ranges`: the destination ports of a port range setting. -/
def parsePortRanges (spec : String) : List (ℤ × ℤ) :=
  (splitWs spec.toList).flatMap fun chunk =>
    ((chunk.takeWhile (· != ':')).splitOn ',').filterMap fun sub => portInterval (stripChars sub)

def orNone {α : Type} (l : List α) : Option (List α) :=
  match l with
  | [] => none
  | l => some l

/-- One custom service; `none` when its protocol number is no number. -/
def serviceDef (entry : Node) : Option ServiceDef :=
  let protocol := upper (fortiSet1 entry "protocol" "TCP/UDP/SCTP")
  let tcpRange := fortiSet1 entry "tcp-portrange" ""
  let udpRange := fortiSet1 entry "udp-portrange" ""
  let protoNum := fortiSet1 entry "protocol-number" ""
  if protocol = "IP" ∧ protoNum ≠ "" then (int protoNum).map fun n => { protos := some [n] }
  else if protocol = "ICMP" then
    let icmptype := fortiSet1 entry "icmptype" ""
    some
      { protos := some [1]
        icmpTypes := if isdigit icmptype then some [(nat icmptype : ℤ)] else none }
  else
    let protos := (if tcpRange ≠ "" then [6] else []) ++ (if udpRange ≠ "" then [17] else [])
    some
      { protos := some (if protos = [] then [6, 17] else protos)
        dstPorts := orNone (parsePortRanges tcpRange ++ parsePortRanges udpRange) }

def rawServices (root : Node) : Py (PyDict.Dict ServiceDef) :=
  PyDict.filterMapM (fun entry => .ok (serviceDef entry)) (fortiItems root "firewall service custom")

/-- One dimension of several services: not restricted when one of them is not, else all of their
values. -/
def mergeDim {α : Type} (dims : List (Option (List α))) : Option (List α) :=
  if dims.any Option.isNone then none else orNone (dims.flatMap fun d => d.getD [])

/-- The three dimensions of several services, each merged on its own. -/
def mergeServices (defs : List ServiceDef) : ServiceDef where
  protos := mergeDim (defs.map ServiceDef.protos)
  dstPorts := mergeDim (defs.map ServiceDef.dstPorts)
  icmpTypes := mergeDim (defs.map ServiceDef.icmpTypes)

def knownService (raw : PyDict.Dict ServiceDef) (name : String) : Bool :=
  (lookupBuiltinService name).isSome || PyDict.has raw name

/-- The service a name stands for: the factory table first. -/
def lookupService (services : PyDict.Dict ServiceDef) (name : String) : Option ServiceDef :=
  match lookupBuiltinService name with
  | some d => some d
  | none => PyDict.get? services name

def groupServices (raw : PyDict.Dict ServiceDef) (groups : PyDict.Dict (List String))
    (gname : String) (members : List String) : List ServiceDef :=
  (reachedNames (knownService raw) groups gname members).filterMap (lookupService raw)

def resolveServices (raw : PyDict.Dict ServiceDef) (groups : PyDict.Dict (List String)) :
    PyDict.Dict ServiceDef :=
  groups.foldl (fun d p => PyDict.set d p.1 (mergeServices (groupServices raw groups p.1 p.2))) raw

/-! ## Interfaces and routes -/

def interfaceInfo (entry : Node) : Option (String × String × String) :=
  match getSets entry "ip" [] with
  | ip :: mask :: _ =>
    if isIp ip ∧ isIp mask then some (ip, mask, lower (fortiSet1 entry "status" "up")) else none
  | _ => none

def fortiConnectedRoute (name : String) (info : String × String × String) : Option Route :=
  let (ip, mask, status) := info
  if status = "up" ∧ ip ≠ "0.0.0.0" then
    (orSkip (Cube.fromNetmask ip mask)).map fun c =>
      let pfxLen := match maskToPrefixLen c.mask with
        | some (n + 1) => n + 1
        | _ => 24
      { network := prefixText c pfxLen
        cube := c
        interface := name
        source := .connected
        distance := 0 }
  else none

/-- `int(_forti_set1(entry, "distance", "10") or 10)`. -/
def routeDistance (entry : Node) : Py ℤ :=
  let text := fortiSet1 entry "distance" "10"
  if text = "" then .ok 10
  else
    match int text with
    | some n => .ok n
    | none => .error s!"invalid literal for int() with base 10: '{text}'"

/-- The egress interface of a static route: its device, else the first connected subnet of its
gateway. -/
def staticEgress (connected : List Route) (gw device : String) : Py String :=
  if gw ≠ "" ∧ device = "" then do
    let gwInt ← ipToInt gw
    pure (((connected.find? fun cr => cr.cube.containsIp gwInt).map Route.interface).getD "")
  else pure device

def fortiStaticRoute (connected : List Route) (entry : Node) : Py (Option Route) :=
  if lower (fortiSet1 entry "status" "enable") = "disable" then pure none
  else do
    let gw := fortiSet1 entry "gateway" ""
    let distance ← routeDistance entry
    match getSets entry "dst" ["0.0.0.0", "0.0.0.0"] with
    | net :: mask :: _ =>
      if isIp net ∧ isIp mask then
        pure (orSkip do
          let c ← Cube.fromNetmask net mask
          let egress ← staticEgress connected gw (fortiSet1 entry "device" "")
          pure
            { network := prefixText c ((maskToPrefixLen c.mask).getD 0)
              cube := c
              nextHop := if gw = "" then none else some gw
              interface := egress
              source := .static
              distance := distance })
      else pure none
    | _ => pure none

/-! ## Policies -/

def negateKeys : List String :=
  ["srcaddr-negate", "dstaddr-negate", "service-negate", "internet-service-negate",
    "internet-service-src-negate"]

def narrowingKeys : List String :=
  ["groups", "users", "fsso-groups", "application", "app-category", "app-group", "url-category"]

/-- The reason the legacy action of a policy gives. -/
def actionReasons (pid : String) (entry : Node) : List String :=
  if lower (fortiSet1 entry "action" "deny") = "ipsec" then
    [s!"policy {pid} uses the legacy 'ipsec' action: the traffic is " ++
      "forwarded into a VPN tunnel, which is neither a plain accept nor a deny"]
  else []

def serviceReasons (services : PyDict.Dict ServiceDef) (pid : String) (names : List String) :
    List String :=
  (names.filter fun s => (lookupService services s).isNone).map fun s =>
    s!"service '{s}' referenced by policy {pid} is not defined"

/-- The reason of the internet services of a policy. -/
def isdbReasons (pid : String) (entry : Node) : List String :=
  if fortiSet1 entry "internet-service" "" = "enable" ∨
      getSets entry "internet-service-name" [] ≠ [] ∨
      fortiSet1 entry "internet-service-src" "" = "enable" ∨
      getSets entry "internet-service-src-name" [] ≠ [] then
    [s!"policy {pid} references ISDB internet-service which cannot be resolved offline"]
  else []

/-- The reasons of the negated matches of a policy. -/
def negateReasons (pid : String) (entry : Node) : List String :=
  (negateKeys.filter fun key => fortiSet1 entry key "" = "enable").map fun key =>
    s!"policy {pid} sets {key}: the match is inverted and cannot be modelled"

/-- The conditions of a policy that restrict it and are not evaluated. -/
def policyNarrowing (entry : Node) : List String :=
  let schedule := fortiSet1 entry "schedule" "always"
  (if schedule ≠ "" ∧ schedule ≠ "always" then [s!"schedule {schedule}"] else []) ++
    narrowingKeys.filter fun key => getSets entry key [] ≠ []

/-- The reason of the conditions of a policy. -/
def narrowingReasons (pid : String) (entry : Node) : List String :=
  if policyNarrowing entry = [] then []
  else [s!"policy {pid} condition not evaluated: " ++ join ", " (policyNarrowing entry)]

/-- `None if "any" in names else set(names)`. -/
def intfNames (names : List String) : Option (List String) :=
  if "any" ∈ names then none else some names

/-- The cubes of an address list and the reasons it is not resolved. -/
def collectAddresses (addresses : PyDict.Dict (List Cube)) (pid : String) (names : List String) :
    List Cube × List String :=
  (names.flatMap fun a => (collectPolicyAddress addresses pid a).1,
    names.flatMap fun a => (collectPolicyAddress addresses pid a).2)

def orAny (cubes : List Cube) : List Cube :=
  match cubes with
  | [] => [Cube.any]
  | cubes => cubes

def policyUnresolved (addresses : PyDict.Dict (List Cube)) (services : PyDict.Dict ServiceDef)
    (pid : String) (entry : Node) : List String :=
  actionReasons pid entry ++
    (collectAddresses addresses pid (getSets entry "srcaddr" ["all"])).2 ++
    (collectAddresses addresses pid (getSets entry "dstaddr" ["all"])).2 ++
    serviceReasons services pid (getSets entry "service" ["ALL"]) ++ isdbReasons pid entry ++
    negateReasons pid entry ++ narrowingReasons pid entry

/-- The services of a policy, merged; none of its dimensions is restricted when no service of the
policy is defined. -/
def policyService (services : PyDict.Dict ServiceDef) (entry : Node) : ServiceDef :=
  mergeServices ((getSets entry "service" ["ALL"]).filterMap (lookupService services))

def policyRawText (pid : String) (entry : Node) : String :=
  s!"edit {pid}\n" ++ join "\n" (entry.sets.map fun p => "  set " ++ p.1 ++ " " ++ join " " p.2)

def policyRule (addresses : PyDict.Dict (List Cube)) (services : PyDict.Dict ServiceDef)
    (pid : String) (entry : Node) : Rule :=
  let action := if lower (fortiSet1 entry "action" "deny") = "accept" then Action.permit else .deny
  let reasons := policyUnresolved addresses services pid entry
  let service := policyService services entry
  { id := pid
    name := fortiSet1 entry "name" ""
    action := if reasons = [] then action else .unknown
    fields :=
      { srcIps := orAny (collectAddresses addresses pid (getSets entry "srcaddr" ["all"])).1
        dstIps := orAny (collectAddresses addresses pid (getSets entry "dstaddr" ["all"])).1
        srcPorts := none
        dstPorts := service.dstPorts.map PortSet.fromList
        protos := service.protos
        icmpTypes := service.icmpTypes
        ingressIntfs := intfNames (getSets entry "srcintf" ["any"])
        egressIntfs := intfNames (getSets entry "dstintf" ["any"])
        isOpaque := decide (reasons ≠ [])
        narrowingQuals := policyNarrowing entry }
    disabled := decide (lower (fortiSet1 entry "status" "enable") = "disable")
    rawText := policyRawText pid entry
    natEnabled := decide (lower (fortiSet1 entry "nat" "disable") = "enable")
    unresolved := reasons }

/-! ## The configuration -/

/-- `parse_fortios_config` on the tree of a configuration. -/
def parseFortiosTree (root : Node) : Py FortiOSPolicyEnvironment := do
  let rawAddrs ← rawAddresses root
  let addresses := resolveAddresses rawAddrs (groupMembers root "firewall addrgrp")
  let rawSvcs ← rawServices root
  let services := resolveServices rawSvcs (groupMembers root "firewall service group")
  let interfaces := (fortiItems root "system interface").filterMap fun p =>
    (interfaceInfo p.2).map fun info => (p.1, info)
  let connected := interfaces.filterMap fun p => fortiConnectedRoute p.1 p.2
  let statics ← (fortiItems root "router static").mapM fun p => fortiStaticRoute connected p.2
  let ospf := (fortiGet root "router ospf").isSome
  let dynamicPresent := ospf || (fortiGet root "router bgp").isSome
  let policies := (fortiItems root "firewall policy").map fun p =>
    policyRule addresses services p.1 p.2
  pure
    { policies := policies
      routeTable :=
        { routes := connected ++ statics.reduceOption
          dynamicRoutingPresent := dynamicPresent
          protocols := if dynamicPresent then [if ospf then "ospf" else "bgp"] else [] }
      interfaces := interfaces
      addresses := addresses
      services := services
      unresolved := policies.flatMap Rule.unresolved }

def parseFortiosConfig (configText : String) : Py FortiOSPolicyEnvironment :=
  parseFortiosTree (fortiTree configText)

variable {root : Node}

theorem parseFortiosTree_ok {env : FortiOSPolicyEnvironment} (h : parseFortiosTree root = .ok env) :
    ∃ rawAddrs rawSvcs, rawAddresses root = .ok rawAddrs ∧ rawServices root = .ok rawSvcs ∧
      env.services = resolveServices rawSvcs (groupMembers root "firewall service group") ∧
      env.policies = (fortiItems root "firewall policy").map fun p =>
        policyRule (resolveAddresses rawAddrs (groupMembers root "firewall addrgrp"))
          env.services p.1 p.2 := by
  rw [parseFortiosTree] at h
  obtain ⟨rawAddrs, haddrs, h⟩ := bind_eq_ok h
  obtain ⟨rawSvcs, hsvcs, h⟩ := bind_eq_ok h
  obtain ⟨statics, -, h⟩ := bind_eq_ok h
  obtain rfl := Except.ok.inj h
  exact ⟨rawAddrs, rawSvcs, haddrs, hsvcs, rfl, rfl⟩

/-! ## Names and groups -/

theorem unique_groupMembers (hu : root.Unique) (path : String) :
    PyDict.Unique (groupMembers root path) := by
  have hitems : PyDict.Unique (fortiItems root path) := unique_fortiItems hu path
  rw [groupMembers, PyDict.Unique, List.map_map]
  exact hitems

theorem next_openGroups_subset {known : String → Bool} {groups : PyDict.Dict (List String)}
    (hu : PyDict.Unique groups) {gname : String} {members : List String}
    (hg : PyDict.get? groups gname = some members) :
    ∀ b ∈ Worklist.next (openGroups known groups) gname, b ∈ members := by
  intro b hb
  rw [Worklist.next] at hb
  rcases hl : (openGroups known groups).lookup gname with _ | ms
  · rw [hl] at hb
    cases hb
  · have hmem : (gname, ms) ∈ openGroups known groups := PyDict.mem_of_get? hl
    have hms : PyDict.get? groups gname = some ms := hu.get?_of_mem (List.mem_of_mem_filter hmem)
    obtain rfl : members = ms := Option.some.inj (hg.symm.trans hms)
    rw [hl] at hb
    exact hb

/-- A group resolution takes from its queue what the members refer to, through any number of
groups. -/
theorem mem_reachedNames {known : String → Bool} {groups : PyDict.Dict (List String)}
    (hu : PyDict.Unique groups) {gname : String} {members : List String}
    (hg : PyDict.get? groups gname = some members) {m : String} :
    m ∈ reachedNames known groups gname members ↔
      m ≠ gname ∧ ∃ q ∈ members,
        Relation.ReflTransGen (Worklist.Refers (openGroups known groups)) q m :=
  Worklist.mem_explore_iff (next_openGroups_subset hu hg)

variable {raw : PyDict.Dict ServiceDef}

theorem get?_rawServices (hu : root.Unique) (hraw : rawServices root = .ok raw) (name : String) :
    PyDict.get? raw name =
      (PyDict.get? (fortiItems root "firewall service custom") name).bind serviceDef := by
  have hitems : PyDict.Unique (fortiItems root "firewall service custom") :=
    unique_fortiItems hu _
  rcases he : PyDict.get? (fortiItems root "firewall service custom") name with _ | entry
  · exact PyDict.get?_filterMapM_none hraw he
  · obtain ⟨r, hr, hg⟩ := PyDict.get?_filterMapM hraw hitems name entry he
    rw [hg, Option.bind_some, Except.ok.inj hr]

theorem get?_resolveServices (hu : root.Unique) (n : String) :
    PyDict.get? (resolveServices raw (groupMembers root "firewall service group")) n =
      match PyDict.get? (groupMembers root "firewall service group") n with
      | some members => some (mergeServices
          (groupServices raw (groupMembers root "firewall service group") n members))
      | none => PyDict.get? raw n := by
  rw [resolveServices, PyDict.get?_foldl_set
    (fun p => mergeServices
      (groupServices raw (groupMembers root "firewall service group") p.1 p.2))
    (unique_groupMembers hu _) raw n]
  rcases PyDict.get? (groupMembers root "firewall service group") n with _ | members <;> rfl

/-- A name a policy may list as a service: a factory service, a service group, or a custom service
that is kept. -/
def DefinesService (root : Node) (name : String) : Prop :=
  (lookupBuiltinService name).isSome ∨
    PyDict.has (groupMembers root "firewall service group") name = true ∨
    ((PyDict.get? (fortiItems root "firewall service custom") name).bind serviceDef).isSome

theorem isSome_lookupService_iff (hu : root.Unique)
    (hraw : rawServices root = .ok raw) (name : String) :
    (lookupService (resolveServices raw (groupMembers root "firewall service group"))
      name).isSome = true ↔ DefinesService root name := by
  rw [lookupService, DefinesService, PyDict.has]
  rcases lookupBuiltinService name with _ | d
  · dsimp only
    rw [get?_resolveServices hu, get?_rawServices hu hraw]
    rcases PyDict.get? (groupMembers root "firewall service group") name with _ | members <;> simp
  · simp

end SentinelNet.PolicyTest
