import SentinelNet.PolicyTest.Model

/-!
# Example traffic

`services/policy_test/examples.py`: for one rule a flow it is meant to match and a flow that just
misses it.  The flow is put together dimension by dimension; each dimension has its own picker.

The loop that writes a number across the free bits of a cube takes the positions that are left and
stops when nothing of the number remains.

* `generateRuleExample`: both flows of a rule.
-/

namespace SentinelNet.PolicyTest

open PyText

def strInt (n : ℤ) : String := if n < 0 then "-" ++ str n.natAbs else str n.toNat

def protoNamesRev : List (ℤ × String) :=
  [(1, "icmp"), (2, "igmp"), (6, "tcp"), (17, "udp"), (47, "gre"), (50, "esp"), (51, "ah"),
    (88, "eigrp"), (89, "ospf"), (103, "pim"), (132, "sctp")]

structure RuleExample where
  ruleId : String
  ruleName : String
  action : Action
  rawText : String
  matchingFlow : Option Flow := none
  nearMissFlow : Option Flow := none
  nearMissReason : String := ""
  matchesAll : Bool := false

/-! ## Addresses -/

/-- The loop of `_scatter_into_free_bits`: the bits of `remaining` go to the positions of `free`,
the lowest first. -/
def scatterBits (free : Addr) : List ℕ → ℕ → Addr → Addr
  | [], _, out => out
  | bit :: bits, remaining, out =>
    if !free.getLsbD bit then scatterBits free bits remaining out
    else
      let out := if remaining % 2 = 1 then out ||| BitVec.twoPow 32 bit else out
      if remaining / 2 = 0 then out else scatterBits free bits (remaining / 2) out

def scatterIntoFreeBits (cube : Cube) (n : ℕ) : Addr :=
  cube.value ||| scatterBits (~~~cube.mask) (List.range 32) n 0

/-- The address picked inside a single cube. -/
def pickIpInCube (first : Cube) (fallback : String) : String :=
  if first.isAny then fallback
  else if first.isExact then intToIp first.value
  else
    match maskToPrefixLen first.mask with
    | some pfx =>
      if pfx ≥ 31 then intToIp first.value
      else
        let offset := if 1 <<< (32 - pfx) > 15 then 10 else 1
        intToIp (first.value + BitVec.ofNat 32 offset)
    -- the free bits of a wildcard with gaps are scattered, so no offset stays inside
    | none => intToIp (scatterIntoFreeBits first 1)

def pickIpInCubes (cubes : List Cube) (hints : List String) (fallback : String) : String :=
  match hints.find? fun h => cubesHave cubes h with
  | some h => h
  | none =>
    match cubes with
    | [] => fallback
    | first :: _ => pickIpInCube first fallback

def pickOutsideIp (cube : Cube) : String :=
  if cube.isAny then "192.0.2.1"
  else
    let lsb := if cube.mask = 0 then 1 else cube.mask &&& -cube.mask
    intToIp (cube.value ^^^ lsb)

/-! ## The matching flow -/

/-- The protocol of the example: its number and its text. -/
def exampleProto (protos : Option (List ℤ)) : ℤ × String :=
  match protos with
  | some (n :: _) => (n, (protoNamesRev.lookup n).getD (strInt n))
  | _ => (6, "tcp")

def hasPorts (proto : ℤ) : Bool := proto == 6 || proto == 17

def exampleDport (proto : ℤ) (ports : Option PortSet) : Option ℤ :=
  if hasPorts proto then
    match ports with
    | some ⟨(lo, _) :: _⟩ => some (if lo > 0 then lo else if proto = 6 then 80 else 53)
    | _ => some (if proto = 6 then 443 else 53)
  else none

def exampleSport (proto : ℤ) (ports : Option PortSet) : Option ℤ :=
  if hasPorts proto then
    match ports with
    | some ⟨(lo, _) :: _⟩ => some lo
    | _ => some 52100
  else none

/-- `next(iter(s)) if s else None`. -/
def firstOf {α : Type} (s : Option (List α)) : Option α := s.bind List.head?

/-- The matching flow of `generate_rule_example`. -/
def exampleFlow (fields : FieldSet) (hints : List String) : Flow :=
  let proto := exampleProto fields.protos
  { srcIp := pickIpInCubes fields.srcIps hints "192.0.2.50"
    dstIp := pickIpInCubes fields.dstIps hints "198.51.100.20"
    proto := proto.2
    sport := exampleSport proto.1 fields.srcPorts
    dport := exampleDport proto.1 fields.dstPorts
    ingressIntf := firstOf fields.ingressIntfs
    egressIntf := firstOf fields.egressIntfs
    established := fields.established
    icmpType := firstOf fields.icmpTypes }

/-! ## The near miss -/

/-- The first port just outside the intervals, in the order of the source. -/
def portOutside (ports : PortSet) : List (ℤ × ℤ) → Option ℤ
  | [] => none
  | (lo, hi) :: intervals =>
    if hi < 65535 ∧ !ports.containsPort (hi + 1) then some (hi + 1)
    else if lo > 1 ∧ !ports.containsPort (lo - 1) then some (lo - 1)
    else portOutside ports intervals

def mutatedPort (ports : PortSet) : ℤ :=
  match portOutside ports ports.intervals with
  | some p => p
  | none => if !ports.containsPort 65534 then 65534 else 1

/-- The near miss on the destination port; none when the mutated port is still a port of the
rule. -/
def portNearMiss (ports : PortSet) (flow : Flow) : Option Flow × String :=
  let port := mutatedPort ports
  if !ports.containsPort port then
    (some { flow with dport := some port },
      s!"Destination port {strInt port} outside allowed ports")
  else (none, "")

/-- The near-miss flow of `generate_rule_example` with its reason: the first dimension that is
restricted is the one that is changed. -/
def nearMiss (fields : FieldSet) (flow : Flow) : Option Flow × String :=
  let proto := exampleProto fields.protos
  match flow.icmpType, fields.dstPorts, flow.dport with
  | some t, _, _ =>
    let other := if t = 8 then 0 else 8
    (some { flow with icmpType := some other },
      s!"ICMP message type {strInt other} instead of {strInt t}")
  | none, some ⟨p :: intervals⟩, some _ => portNearMiss ⟨p :: intervals⟩ flow
  | none, _, _ =>
    if !fields.dstIps.all Cube.isAny then
      let outside := (fields.dstIps.head?.map pickOutsideIp).getD ""
      (some { flow with dstIp := outside },
        s!"Destination IP {outside} outside target network")
    else if !fields.srcIps.all Cube.isAny then
      let outside := (fields.srcIps.head?.map pickOutsideIp).getD ""
      (some { flow with srcIp := outside },
        s!"Source IP {outside} outside allowed source network")
    else if fields.protos.isSome then
      let other := if proto.1 = 6 then "udp" else "tcp"
      (some { flow with proto := other },
        s!"Protocol {other} does not match allowed protocol ({proto.2})")
    else if fields.established then
      (some { flow with established := false },
        "Connection is not established (SYN packet without ACK/RST)")
    else (none, "Rule matches all traffic (no near-miss)")

def generateRuleExample (rule : Rule) (hints : List String) : RuleExample :=
  let fields := rule.fields
  if fields.isOpaque then
    let reason := join "; " rule.unresolved
    { ruleId := rule.id
      ruleName := rule.name
      action := rule.action
      rawText := rule.rawText
      nearMissReason := if reason = "" then "rule could not be parsed: coverage unknown" else reason }
  else
    let flow := exampleFlow fields hints
    { ruleId := rule.id
      ruleName := rule.name
      action := rule.action
      rawText := rule.rawText
      matchingFlow := some flow
      nearMissFlow := (nearMiss fields flow).1
      nearMissReason := (nearMiss fields flow).2
      matchesAll := fields.isAnyAny }

def generateRulesetExamples (rules : List Rule) (hints : List String) : List RuleExample :=
  rules.map fun r => generateRuleExample r hints

end SentinelNet.PolicyTest
