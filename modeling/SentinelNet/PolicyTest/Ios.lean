import SentinelNet.Lib.Regex
import SentinelNet.Lib.Worklist
import SentinelNet.PolicyTest.Model

/-!
# The Cisco IOS front end

`services/policy_test/ios.py`: the parser of access control entries, of object groups, and of a
running configuration as a whole.

The source walks a token list with an index; here a consumer takes the tokens that are left and
returns those it did not take.  `parse_ace_line` catches every exception an address can raise and
returns an opaque rule, so `parseAceLine` has no failure; `parse_ios_config` does not, and neither
does `parseIosConfig`.

* `parseObjectGroups`: the object groups, nested references resolved.
* `parseIosConfig`: access lists, interfaces and routes.
-/

namespace SentinelNet.PolicyTest

open PyText

/-! ## Tables -/

def portNames : PyDict.Dict ℕ :=
  [("echo", 7), ("discard", 9), ("daytime", 13), ("chargen", 19), ("ftp-data", 20), ("ftp", 21),
    ("ssh", 22), ("telnet", 23), ("smtp", 25), ("time", 37), ("tacacs", 49), ("domain", 53),
    ("dns", 53), ("bootps", 67), ("dhcps", 67), ("bootpc", 68), ("dhcpc", 68), ("tftp", 69),
    ("gopher", 70), ("finger", 79), ("www", 80), ("http", 80), ("kerberos", 88), ("pop2", 109),
    ("pop3", 110), ("sunrpc", 111), ("ident", 113), ("nntp", 119), ("ntp", 123),
    ("netbios-ns", 137), ("netbios-dgm", 138), ("netbios-ssn", 139), ("imap", 143),
    ("snmp", 161), ("snmptrap", 162), ("bgp", 179), ("ldap", 389), ("https", 443), ("ssl", 443),
    ("ldaps", 636), ("syslog", 514), ("rip", 520), ("l2tp", 1701), ("pptp", 1723),
    ("radius", 1812), ("radius-acct", 1813), ("ms-sql-s", 1433), ("oracle", 1521),
    ("mysql", 3306), ("rdp", 3389), ("sip", 5060)]

/-- `_ICMP_TYPE_NAMES`: ICMP message names that pin a message type and nothing finer. -/
def icmpTypeNames : PyDict.Dict ℤ :=
  [("echo-reply", 0), ("unreachable", 3), ("source-quench", 4), ("redirect", 5),
    ("alternate-address", 6), ("echo", 8), ("router-advertisement", 9),
    ("router-solicitation", 10), ("time-exceeded", 11), ("parameter-problem", 12),
    ("timestamp-request", 13), ("timestamp-reply", 14), ("information-request", 15),
    ("information-reply", 16), ("mask-request", 17), ("mask-reply", 18), ("traceroute", 30),
    ("conversion-error", 31), ("mobile-redirect", 32)]

/-- `_ICMP_CODE_NAMES`: ICMP message names that pin a type and a code. -/
def icmpCodeNames : PyDict.Dict ℤ :=
  [("net-unreachable", 3), ("host-unreachable", 3), ("protocol-unreachable", 3),
    ("port-unreachable", 3), ("packet-too-big", 3), ("source-route-failed", 3),
    ("network-unknown", 3), ("host-unknown", 3), ("host-isolated", 3), ("dod-net-prohibited", 3),
    ("dod-host-prohibited", 3), ("net-tos-unreachable", 3), ("host-tos-unreachable", 3),
    ("administratively-prohibited", 3), ("host-precedence-unreachable", 3),
    ("precedence-unreachable", 3), ("net-redirect", 5), ("host-redirect", 5),
    ("net-tos-redirect", 5), ("host-tos-redirect", 5), ("ttl-exceeded", 11),
    ("reassembly-timeout", 11), ("general-parameter-problem", 12), ("option-missing", 12),
    ("no-room-for-option", 12)]

def tcpFlagNames : List String :=
  ["ack", "fin", "psh", "rst", "syn", "urg", "match-all", "match-any"]

/-- `_QUALIFIERS_WITH_VALUE`: trailing keywords that take a value and narrow the rule. -/
def qualifiersWithValue : List String := ["precedence", "tos", "dscp", "time-range", "option"]

/-- `_QUALIFIERS_IGNORED`: trailing keywords with no matching effect. -/
def qualifiersIgnored : List String := ["log", "log-input"]

/-! ## Consumers -/

/-- What `_consume_trailing_qualifiers` returns. -/
structure Qualifiers where
  established : Bool := false
  icmpTypes : Option (List ℤ) := none
  narrowing : List String := []

/-- The keyword narrows the rule and is not evaluated. -/
def Qualifiers.narrow (q : Qualifiers) (reason : String) : Qualifiers :=
  { q with narrowing := q.narrowing ++ [reason] }

/-- An ICMP message name or number, with the token after it: a message name that pins a code too
narrows the rule, and so does the code after a bare type. -/
def icmpQualifier (low : String) (nextTok : Option String) (q : Qualifiers) : Qualifiers × Bool :=
  match PyDict.get? icmpTypeNames low, PyDict.get? icmpCodeNames low with
  | some t, _ => ({ q with icmpTypes := some [t] }, false)
  | none, some t => ({ q with icmpTypes := some [t] }.narrow low, false)
  | none, none =>
    if isdigit low then
      let q := { q with icmpTypes := some [(nat low : ℤ)] }
      match nextTok with
      | some code => if isdigit code then (q.narrow ("icmp code " ++ code), true) else (q, false)
      | none => (q, false)
    else (q.narrow low, false)

/-- One round of the loop of `_consume_trailing_qualifiers`, and whether it takes the next token
as well. -/
def qualifierStep (isIcmp : Bool) (low : String) (nextTok : Option String) (q : Qualifiers) :
    Qualifiers × Bool :=
  if low = "established" then ({ q with established := true }, false)
  else if low ∈ qualifiersIgnored then (q, false)
  -- the value belongs to the keyword
  else if low ∈ qualifiersWithValue then (q.narrow low, true)
  else if low = "fragments" ∨ low ∈ tcpFlagNames then (q.narrow low, false)
  else if isIcmp then icmpQualifier low nextTok q
  else (q.narrow low, false)

/-- The loop of `_consume_trailing_qualifiers`. -/
def trailingQualifiers (isIcmp : Bool) : List String → Qualifiers → Qualifiers
  | [], q => q
  | tok :: toks, q =>
    let step := qualifierStep isIcmp (lower tok) toks.head? q
    if step.2 then
      match toks with
      | [] => step.1
      | _ :: toks => trailingQualifiers isIcmp toks step.1
    else trailingQualifiers isIcmp toks step.1

theorem trailingQualifiers_cons (isIcmp : Bool) (tok : String) (toks : List String)
    (q : Qualifiers) :
    trailingQualifiers isIcmp (tok :: toks) q =
      if (qualifierStep isIcmp (lower tok) toks.head? q).2 then
        trailingQualifiers isIcmp toks.tail (qualifierStep isIcmp (lower tok) toks.head? q).1
      else trailingQualifiers isIcmp toks (qualifierStep isIcmp (lower tok) toks.head? q).1 := by
  cases toks <;> rfl

/-- `_consume_trailing_qualifiers`: what stands after the address and port specs. -/
def consumeTrailingQualifiers (toks : List String) (protoTok : String) : Qualifiers :=
  trailingQualifiers (decide (protoTok = "icmp" ∨ protoTok = "1")) toks {}

def parsePortVal (tok : String) : Option ℕ :=
  let s := lower (strip tok)
  if isdigit s then (if nat s ≤ 65535 then some (nat s) else none) else PyDict.get? portNames s

structure IOSObjectGroup where
  name : String
  kind : String
  cubes : List Cube := []
  ports : List (ℤ × ℤ) := []
  groupRefs : List String := []

abbrev ObjectGroups := PyDict.Dict IOSObjectGroup

/-- `_consume_ip_spec`: the cubes, the tokens left and the reasons the spec is not resolved;
`none` when there is no address spec. -/
def consumeIpSpec (objGroups : ObjectGroups) (toks : List String) :
    Py (Option (List Cube × List String × List String)) :=
  match toks with
  | [] => pure none
  | t :: args =>
    let tok := lower t
    if tok = "any" ∨ tok = "any4" then pure (some ([Cube.any], args, []))
    else if tok = "host" then
      match args with
      | ip :: rest =>
        if isIp ip then do
          let c ← Cube.fromIp ip
          pure (some ([c], rest, []))
        else pure none
      | [] => pure none
    else if tok = "object-group" then
      match args with
      | gname :: rest =>
        let cubes := ((PyDict.get? objGroups gname).map IOSObjectGroup.cubes).getD []
        if cubes ≠ [] then pure (some (cubes, rest, []))
        else pure (some ([Cube.any], rest, [s!"object-group '{gname}' not found or empty"]))
      | [] => pure none
    else if isIp t then
      match args with
      | wild :: rest =>
        if isIp wild then do
          let c ← Cube.fromWildcard t wild
          pure (some ([c], rest, []))
        else do
          let c ← Cube.fromIp t
          pure (some ([c], args, []))
      | [] => do
        let c ← Cube.fromIp t
        pure (some ([c], [], []))
    else pure none

/-- The ports of `range`, when both ends are known. -/
def rangePorts (v1 v2 : String) : Option PortSet :=
  (parsePortVal v1).bind fun p1 =>
    (parsePortVal v2).map fun p2 : ℕ => PortSet.fromOp "range" p1 (some (p2 : ℤ))

/-- `_consume_port_spec`: the ports, `none` for any, and the tokens left. -/
def consumePortSpec (objGroups : ObjectGroups) (toks : List String) :
    Option PortSet × List String :=
  match toks with
  | [] => (none, [])
  | t :: args =>
    let tok := lower t
    if tok = "eq" ∨ tok = "gt" ∨ tok = "lt" ∨ tok = "neq" then
      match args with
      | v :: rest => ((parsePortVal v).map fun p : ℕ => PortSet.fromOp tok p none, rest)
      | [] => (none, toks)
    else if tok = "range" then
      match args with
      | v1 :: v2 :: rest => (rangePorts v1 v2, rest)
      | _ => (none, toks)
    else if tok = "object-group" then
      match args with
      | gname :: rest =>
        match PyDict.get? objGroups gname with
        | some grp =>
          if grp.kind = "service" ∨ grp.kind = "port" ∨ grp.ports ≠ [] then
            (some (PortSet.fromList grp.ports), rest)
          else (none, toks)
        | none => (none, toks)
      | [] => (none, toks)
    else (none, toks)

/-! ## Entries -/

/-- `_opaque_rule`: an entry the parser could not read, with the reason. -/
def opaqueRule (ruleId : String) (action : Action) (rawLine reason : String) : Rule where
  id := if ruleId = "" then "opaque" else ruleId
  action := action
  fields := { isOpaque := true }
  rawText := rawLine
  unresolved := [s!"ACE not parsed: {reason}"]

def isStandardNumber (n : ℕ) : Bool := (1 ≤ n && n ≤ 99) || (1300 ≤ n && n ≤ 1999)

/-- `^access-list\s+(\d+)\s+(.*)$`, whatever the case. -/
def reNumbered : Regex.Re :=
  .seq (.litNoCase "access-list".toList) (.seq .spaces1 (.seq (.group "num" .digits1)
    (.seq .spaces1 (.seq (.group "rest" .anything) .eol))))

/-- `^(\d+)\s+(.*)$`. -/
def reSeq : Regex.Re :=
  .seq (.group "seq" .digits1) (.seq .spaces1 (.seq (.group "rest" .anything) .eol))

/-- The rule id, the kind of list and the text of an entry without its leading number. -/
def aceHeader (s seq kind : String) : String × String × String :=
  match Regex.matchStart reNumbered s.toList with
  | some m =>
    let num := String.ofList (Regex.capture m "num")
    (if seq = "" then num else seq, if isStandardNumber (nat num) then "standard" else "extended",
      strip (String.ofList (Regex.capture m "rest")))
  | none =>
    match Regex.matchStart reSeq s.toList with
    | some m =>
      (String.ofList (Regex.capture m "seq"), kind,
        strip (String.ofList (Regex.capture m "rest")))
    | none => (seq, kind, s)

/-- An entry of a standard list, from the tokens after its action. -/
def standardRule (ruleId : String) (action : Action) (rawLine : String) (objGroups : ObjectGroups)
    (toks : List String) : Py Rule := do
  match ← consumeIpSpec objGroups toks with
  | none => pure (opaqueRule ruleId action rawLine "source address specification not understood")
  | some (srcCubes, _, unresolved) =>
    pure
      { id := if ruleId = "" then "std" else ruleId
        action := action
        fields := { srcIps := srcCubes, dstIps := [Cube.any] }
        rawText := rawLine
        unresolved := unresolved }

/-- An entry of an extended list, from the tokens after its protocol:
`SRC [PORTS] DST [PORTS] [QUALIFIERS]`. -/
def extendedSpecs (ruleId : String) (action : Action) (rawLine : String)
    (objGroups : ObjectGroups) (protoTok : String) (protos : Option (List ℤ))
    (toks : List String) : Py Rule := do
  match ← consumeIpSpec objGroups toks with
  | none => pure (opaqueRule ruleId action rawLine "source address specification not understood")
  | some (srcCubes, toks, srcReasons) =>
    let (srcPorts, toks) := consumePortSpec objGroups toks
    match ← consumeIpSpec objGroups toks with
    | none =>
      pure (opaqueRule ruleId action rawLine "destination address specification not understood")
    | some (dstCubes, toks, dstReasons) =>
      let (dstPorts, toks) := consumePortSpec objGroups toks
      let q := consumeTrailingQualifiers toks protoTok
      let qualReasons :=
        if q.narrowing = [] then []
        else ["ACE qualifier not evaluated: " ++ join ", " q.narrowing]
      pure
        { id := if ruleId = "" then "ext" else ruleId
          action := action
          fields :=
            { srcIps := srcCubes
              dstIps := dstCubes
              srcPorts := srcPorts
              dstPorts := dstPorts
              protos := protos
              established := q.established
              icmpTypes := q.icmpTypes
              narrowingQuals := q.narrowing }
          rawText := rawLine
          unresolved := srcReasons ++ dstReasons ++ qualReasons }

/-- An entry of an extended list, from its protocol token and the tokens after it. -/
def protocolRule (ruleId : String) (action : Action) (rawLine : String) (objGroups : ObjectGroups)
    (protoTok : String) (protoNum : Option ℤ) (toks : List String) : Py Rule :=
  match protoNum with
  | some n => extendedSpecs ruleId action rawLine objGroups protoTok (some [n]) toks
  | none =>
    if protoTok ∈ ["ip", "ipv4", "ip4", "any", "all"] then
      extendedSpecs ruleId action rawLine objGroups protoTok none toks
    else
      pure (opaqueRule ruleId action rawLine s!"protocol token '{protoTok}' not understood")

/-- An entry of an extended list, from the tokens after its action. -/
def extendedRule (ruleId : String) (action : Action) (rawLine : String) (objGroups : ObjectGroups)
    (toks : List String) : Py Rule :=
  match toks with
  | [] => pure (opaqueRule ruleId action rawLine "ACE ends before a protocol is given")
  | t :: toks =>
    let protoTok := lower t
    protocolRule ruleId action rawLine objGroups protoTok (protoFromName protoTok) toks

/-- The action a token names. -/
def actionOf (tok : String) : Option Action :=
  if tok = "permit" then some .permit else if tok = "deny" then some .deny else none

/-- `parse_ace_line`: `none` for a remark or an empty line. -/
def parseAceLine (rawLine seq kind : String) (objGroups : ObjectGroups) : Option Rule :=
  let s := strip rawLine
  if s = "" ∨ startsWith s "!" then none
  else
    let (ruleId, kind, s) := aceHeader s seq kind
    if startsWith (lower s) "remark " ∨ lower s = "remark" then none
    else
      match split s with
      | [] => none
      | actionTok :: toks =>
        match actionOf (lower actionTok) with
        | none =>
          some
            { id := if ruleId = "" then "opaque" else ruleId
              action := .unknown
              fields := { isOpaque := true }
              rawText := rawLine
              unresolved := ["Unrecognized ACE action: " ++ lower actionTok] }
        | some action =>
          let rule :=
            if startsWith kind "standard" ∨ kind = "named-std" then
              standardRule ruleId action rawLine objGroups toks
            else extendedRule ruleId action rawLine objGroups toks
          match rule with
          | .ok r => some r
          | .error exc =>
            some
              { id := if ruleId = "" then "opaque" else ruleId
                action := action
                fields := { isOpaque := true }
                rawText := rawLine
                unresolved := ["Error parsing ACE: " ++ exc] }

/-! ## Object groups -/

/-- The number of leading blanks of a line. -/
def indent (line : String) : ℕ := (line.toList.takeWhile isSpace).length

def networkItem (g : IOSObjectGroup) (toks : List String) : Py IOSObjectGroup :=
  match toks with
  | [] => pure g
  | t0 :: args =>
    match args with
    | t1 :: _ =>
      if lower t0 = "host" ∧ isIp t1 then do
        let c ← Cube.fromIp t1
        pure { g with cubes := g.cubes ++ [c] }
      else if lower t0 = "group-object" then pure { g with groupRefs := g.groupRefs ++ [t1] }
      else if isIp t0 ∧ isIp t1 then do
        let m ← ipToInt t1
        -- a netmask when its ones are its leading bits, a wildcard otherwise
        let c ← if m.getLsbD 31 ∧ (maskToPrefixLen m).isSome then Cube.fromNetmask t0 t1
          else Cube.fromWildcard t0 t1
        pure { g with cubes := g.cubes ++ [c] }
      else if isIp t0 then do
        let c ← Cube.fromIp t0
        pure { g with cubes := g.cubes ++ [c] }
      else pure g
    | [] =>
      if isIp t0 then do
        let c ← Cube.fromIp t0
        pure { g with cubes := g.cubes ++ [c] }
      else pure g

/-- The ports one token of a service group gives with the tokens after it. -/
def portItem : List String → List (ℤ × ℤ)
  | [] => []
  | t :: args =>
    match lower t, args with
    | "eq", v :: _ =>
      match parsePortVal v with
      | some p => [((p : ℤ), (p : ℤ))]
      | none => []
    | "range", v1 :: v2 :: _ =>
      match parsePortVal v1, parsePortVal v2 with
      | some p1, some p2 => [((min p1 p2 : ℤ), (max p1 p2 : ℤ))]
      | _, _ => []
    | "gt", v :: _ =>
      match parsePortVal v with
      | some p => if p < 65535 then [((p : ℤ) + 1, 65535)] else []
      | none => []
    | "lt", v :: _ =>
      match parsePortVal v with
      | some p => if p > 1 then [(1, (p : ℤ) - 1)] else []
      | none => []
    | _, _ => []

def serviceItem (g : IOSObjectGroup) (toks : List String) : IOSObjectGroup :=
  match toks with
  | t0 :: t1 :: _ =>
    if lower t0 = "group-object" then { g with groupRefs := g.groupRefs ++ [t1] }
    else { g with ports := g.ports ++ toks.tails.flatMap portItem }
  | _ => { g with ports := g.ports ++ toks.tails.flatMap portItem }

/-- An indented line inside a group. -/
def groupItem (g : IOSObjectGroup) (toks : List String) : Py IOSObjectGroup :=
  if g.kind = "network" then networkItem g toks
  else if g.kind = "service" ∨ g.kind = "port" then pure (serviceItem g toks)
  else pure g

/-- One line of the loop of `parse_object_groups`: the groups so far and the name of the current
one. -/
def objectGroupLine (st : ObjectGroups × Option String) (raw : String) :
    Py (ObjectGroups × Option String) :=
  let (groups, current) := st
  let s := strip raw
  if s = "" then pure st
  else if startsWith s "!" then pure (groups, none)
  else if startsWith (lower s) "object-group " then
    match split s with
    | _ :: kind :: name :: _ =>
      pure (PyDict.set groups name { name := name, kind := lower kind }, some name)
    | _ => pure (groups, none)
  else if indent raw = 0 then pure (groups, none)
  else
    match current with
    | none => pure st
    | some name =>
      match PyDict.get? groups name with
      | none => pure st
      | some g => do
        let g ← groupItem g (split s)
        pure (PyDict.set groups name g, current)

/-- The names each group refers to. -/
def groupEdges (groups : ObjectGroups) : List (String × List String) :=
  groups.map fun p => (p.1, p.2.groupRefs)

/-- The groups a group refers to, directly or through others, in the order of the queue. -/
def subGroups (groups : ObjectGroups) (grp : String × IOSObjectGroup) : List IOSObjectGroup :=
  (Worklist.explore (groupEdges groups) grp.1 grp.2.groupRefs).filterMap (PyDict.get? groups)

/-- The second loop of `parse_object_groups`: nested references. -/
def resolveGroups (groups : ObjectGroups) : ObjectGroups :=
  groups.map fun p =>
    (p.1,
      { p.2 with
        name := p.1
        cubes := p.2.cubes ++ (subGroups groups p).flatMap IOSObjectGroup.cubes
        ports := p.2.ports ++ (subGroups groups p).flatMap IOSObjectGroup.ports })

def parseObjectGroups (lines : List String) : Py ObjectGroups := do
  let (groups, _) ← lines.foldlM objectGroupLine ([], none)
  pure (resolveGroups groups)

/-! ## The running configuration -/

/-- An interface of the configuration.  `network` is the source's `prefix`. -/
structure IfaceInfo where
  name : String
  ip : String := ""
  mask : String := ""
  network : String := ""
  secondaryIps : List (String × String × String) := []
  aclIn : Option String := none
  aclOut : Option String := none
  shutdown : Bool := false

structure IOSPolicyEnvironment where
  acls : PyDict.Dict RuleSet := []
  interfaces : PyDict.Dict IfaceInfo := []
  routeTable : RouteTable := {}
  objectGroups : ObjectGroups := []
  unresolved : List String := []

/-- The kinds of configuration blocks. -/
inductive BlockType where
  | interface
  | namedStdAcl
  | namedExtAcl
  | numberedAcl
  | staticRoute
  | router
  deriving DecidableEq

/-- A configuration block: its kind, its header and its indented lines. -/
structure Block where
  kind : BlockType
  header : String
  body : List String := []

def openBlock (s : String) : Option Block :=
  let low := lower s
  if startsWith low "interface " then some ⟨.interface, s, []⟩
  else if startsWith low "ip access-list standard " then some ⟨.namedStdAcl, s, []⟩
  else if startsWith low "ip access-list extended " then some ⟨.namedExtAcl, s, []⟩
  else if startsWith low "router " then some ⟨.router, s, []⟩
  else none

def lineBlock (s : String) : Option Block :=
  let low := lower s
  if startsWith low "access-list " then some ⟨.numberedAcl, s, []⟩
  else if startsWith low "ip route " then some ⟨.staticRoute, s, []⟩
  else none

def blockLine (st : List Block × Option Block) (line : String) : List Block × Option Block :=
  let (blocks, current) := st
  let s := strip line
  if s = "" ∨ startsWith s "!" then st
  else if indent line = 0 then
    (blocks ++ current.toList ++ (lineBlock s).toList, openBlock s)
  else (blocks, current.map fun b => { b with body := b.body ++ [s] })

def extractBlocks (lines : List String) : List Block :=
  let (blocks, current) := lines.foldl blockLine ([], none)
  blocks ++ current.toList

def interfaceLine (info : IfaceInfo) (line : String) : Py IfaceInfo :=
  let low := lower line
  if low = "shutdown" then pure { info with shutdown := true }
  else if startsWith low "ip address " then
    match split line with
    | _ :: t1 :: ipVal :: maskVal :: _ =>
      if lower t1 = "address" then do
        let pfxLen ← if isIp maskVal then maskToPrefixLen <$> ipToInt maskVal else pure none
        let cidr := match pfxLen with
          | some n => s!"{ipVal}/{str n}"
          | none => ipVal
        if contains low "secondary" then
          pure { info with secondaryIps := info.secondaryIps ++ [(ipVal, maskVal, cidr)] }
        else pure { info with ip := ipVal, mask := maskVal, network := cidr }
      else pure info
    | _ => pure info
  else if startsWith low "ip access-group " then
    match split line with
    | _ :: _ :: grpName :: direction :: _ =>
      if lower direction = "in" then pure { info with aclIn := some grpName }
      else if lower direction = "out" then pure { info with aclOut := some grpName }
      else pure info
    | _ => pure info
  else pure info

/-- The connected route of an interface that is up and has an address. -/
def connectedRoute (info : IfaceInfo) : Option Route :=
  if !info.shutdown && info.ip ≠ "" && info.mask ≠ "" then
    match Cube.fromNetmask info.ip info.mask with
    | .ok c =>
      let pfxLen := match maskToPrefixLen c.mask with
        | some (n + 1) => n + 1
        | _ => 24
      some
        { network := prefixText c pfxLen
          cube := c
          nextHop := none
          interface := info.name
          source := .connected
          distance := 0 }
    | .error _ => none
  else none

/-- `_static_route_distance`: the first number that stands on its own. -/
def staticRouteDistance : List String → ℕ
  | [] => 1
  | tok :: toks =>
    if lower tok ∈ ["name", "tag", "track", "metric"] then
      -- the keyword and the value that belongs to it
      match toks with
      | [] => 1
      | _ :: toks => staticRouteDistance toks
    else if isdigit tok then nat tok
    else staticRouteDistance toks

/-- The route of an `ip route` line. -/
def staticRoute (header : String) : Option Route :=
  let rest := (split header).drop 2
  let rest := match rest with
    | "vrf" :: _ :: rest => rest
    | rest => rest
  match rest with
  | net :: mask :: nexthop :: tail =>
    match Cube.fromNetmask net mask with
    | .ok c =>
      some
        { network := prefixText c ((maskToPrefixLen c.mask).getD 0)
          cube := c
          nextHop := if isIp nexthop then some nexthop else none
          interface := if isIp nexthop then "" else nexthop
          source := .static
          distance := staticRouteDistance tail }
    | .error _ => none
  | _ => none

/-- The state of the block loop of `parse_ios_config`. -/
structure ParseState where
  acls : PyDict.Dict RuleSet := []
  interfaces : PyDict.Dict IfaceInfo := []
  connectedRoutes : List Route := []
  staticRoutes : List Route := []
  dynamicProtocols : List String := []

/-- Append the rules to a list, which is made when it is not there. -/
def addRules (acls : PyDict.Dict RuleSet) (name kind : String) (rules : List Rule) :
    PyDict.Dict RuleSet :=
  let acl := (PyDict.get? acls name).getD { name := name, kind := kind }
  PyDict.set acls name { acl with rules := acl.rules ++ rules }

/-- One block of the loop of `parse_ios_config`. -/
def processBlock (objGroups : ObjectGroups) (st : ParseState) (b : Block) : Py ParseState :=
  match b.kind with
  | .numberedAcl =>
    match Regex.matchStart reNumbered b.header.toList with
    | some m =>
      let num := String.ofList (Regex.capture m "num")
      let kind := if isStandardNumber (nat num) then "standard" else "extended"
      let count := ((PyDict.get? st.acls num).map fun acl => acl.rules.length).getD 0
      let rule := parseAceLine b.header (str (count + 1)) kind objGroups
      pure { st with acls := addRules st.acls num ("numbered-" ++ kind) rule.toList }
    | none => pure st
  | .namedStdAcl =>
    let rules := b.body.filterMap fun l => parseAceLine l "" "named-std" objGroups
    pure { st with acls := addRules st.acls ((split b.header).getLastD "") "named-std" rules }
  | .namedExtAcl =>
    let rules := b.body.filterMap fun l => parseAceLine l "" "named-ext" objGroups
    pure { st with acls := addRules st.acls ((split b.header).getLastD "") "named-ext" rules }
  | .interface => do
    let name := strip (String.ofList (b.header.toList.drop 10))
    let info ← b.body.foldlM interfaceLine { name := name }
    pure
      { st with
        interfaces := PyDict.set st.interfaces name info
        connectedRoutes := st.connectedRoutes ++ (connectedRoute info).toList }
  | .staticRoute =>
    pure { st with staticRoutes := st.staticRoutes ++ (staticRoute b.header).toList }
  | .router =>
    let protoName := ((split b.header)[1]?).getD "dynamic"
    pure { st with dynamicProtocols := st.dynamicProtocols ++ [protoName] }

/-- The egress interface of a static route with a next hop: that of the first connected subnet
with this address, and none when there is no such subnet. -/
def resolveStatic (connected : List Route) (sr : Route) : Py Route :=
  match sr.nextHop with
  | some nh =>
    if nh ≠ "" ∧ sr.interface = "" then do
      let nhInt ← ipToInt nh
      match connected.find? fun cr => cr.cube.containsIp nhInt with
      | some cr => pure { sr with interface := cr.interface }
      | none => pure sr
    else pure sr
  | none => pure sr

/-- `parse_ios_config` after the text was split into lines. -/
def parseIosLines (lines : List String) : Py IOSPolicyEnvironment := do
  let objGroups ← parseObjectGroups lines
  let st ← (extractBlocks lines).foldlM (processBlock objGroups) {}
  let resolvedStatic ← st.staticRoutes.mapM (resolveStatic st.connectedRoutes)
  pure
    { acls := st.acls
      interfaces := st.interfaces
      routeTable :=
        { routes := st.connectedRoutes ++ resolvedStatic
          dynamicRoutingPresent := decide (st.dynamicProtocols ≠ [])
          protocols := st.dynamicProtocols }
      objectGroups := objGroups }

def parseIosConfig (configText : String) : Py IOSPolicyEnvironment :=
  parseIosLines ((splitlines configText).map fun l => String.ofList (rstripChars l.toList))

end SentinelNet.PolicyTest
