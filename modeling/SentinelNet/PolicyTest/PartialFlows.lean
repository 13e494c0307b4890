import SentinelNet.PolicyTest.IosEnvironment
import SentinelNet.PolicyTest.Stages

/-!
# Partial flows

A flow may leave its ports, its ICMP type, its protocol or its ingress interface open.  A dimension
that the flow leaves open does not keep a rule from stopping the walk, so that a partial flow stops
at rules that some of its completions walk past.

A completion slips out of the evaluation when it enters through another interface than the one the
evaluation took, or when it fills a field with a value outside the set of a rule the evaluation
stopped at.  Every other completion stops at the same rules.

* `firstMatch_extends`: a completion that does not escape the stop of a walk stops there too.
* `agrees_iff`: an answer stands for all completions exactly when it does for those that slip.
-/

namespace SentinelNet.PolicyTest

/-! ## Completions -/

/-- A port of the request model. -/
def IsPort (p : ℤ) : Prop := 1 ≤ p ∧ p ≤ 65535

def IsIcmpType (t : ℤ) : Prop := 0 ≤ t ∧ t ≤ 255

/-- A field with a value keeps it. -/
def Keeps {β : Type} (a b : Option β) : Prop := ∀ x, a = some x → b = some x

/-- A field with a value keeps it, and an open field gets a concrete value. -/
def Filled {β : Type} (concrete : β → Prop) (a b : Option β) : Prop :=
  Keeps a b ∧ (a = none → ∃ x, b = some x ∧ concrete x)

/-- The flow with its open fields filled with concrete values; the names an ingress interface can
have are given. -/
structure Completion (names : String → Prop) (flow full : Flow) : Prop where
  srcIp : full.srcIp = flow.srcIp
  dstIp : full.dstIp = flow.dstIp
  egressIntf : full.egressIntf = flow.egressIntf
  tcpFlags : full.tcpFlags = flow.tcpFlags
  established : full.established = flow.established
  sport : Filled IsPort flow.sport full.sport
  dport : Filled IsPort flow.dport full.dport
  icmpType : Filled IsIcmpType flow.icmpType full.icmpType
  proto : (protoFromName flow.proto).isSome = true → full.proto = flow.proto
  protoFilled : Filled (fun p => 0 ≤ p ∧ p ≤ 255) (protoFromName flow.proto)
    (protoFromName full.proto)
  ingress : Filled (fun n => n ≠ "" ∧ names n) (nonEmpty flow.ingressIntf)
    (nonEmpty full.ingressIntf)

/-- Two flows between the same interfaces, the second one with more of its fields given. -/
structure Extends (flow full : Flow) : Prop where
  srcIp : full.srcIp = flow.srcIp
  dstIp : full.dstIp = flow.dstIp
  isEstablished : full.isEstablished = flow.isEstablished
  ingressIntf : full.ingressIntf = flow.ingressIntf
  egressIntf : full.egressIntf = flow.egressIntf
  proto : Keeps (protoFromName flow.proto) (protoFromName full.proto)
  icmpType : Keeps flow.icmpType full.icmpType
  sport : Keeps flow.sport full.sport
  dport : Keeps flow.dport full.dport

/-- A field the flow leaves open has a value outside the set. -/
def Outside {α β : Type} (test : α → β → Bool) (set : Option α) (a b : Option β) : Prop :=
  a = none ∧ ∃ s x, set = some s ∧ b = some x ∧ test s x = false

/-- The completion falls outside the field set in a field the flow leaves open. -/
def Escapes (f : FieldSet) (flow full : Flow) : Prop :=
  Outside setHas f.protos (protoFromName flow.proto) (protoFromName full.proto) ∨
    Outside setHas f.icmpTypes flow.icmpType full.icmpType ∨
    Outside PortSet.containsPort f.srcPorts flow.sport full.sport ∨
    Outside PortSet.containsPort f.dstPorts flow.dport full.dport

/-! ## One dimension -/

section Dimension

variable {α β : Type} {test : α → β → Bool} {set : Option α} {a b : Option β}

theorem admits_of_keeps (h : Keeps a b) (hb : admits test set b) :
    admits test set a = true := by
  rcases a with _ | x
  · cases set <;> rfl
  · rw [h x rfl] at hb
    exact hb

theorem admits_of_not_outside (h : Keeps a b) (ha : admits test set a)
    (hout : ¬ Outside test set a b) : admits test set b = true := by
  rcases a with _ | x
  · rcases set with _ | s
    · rfl
    · rcases b with _ | y
      · rfl
      · by_contra hb
        exact hout ⟨rfl, s, y, rfl, rfl, by simpa [admits] using hb⟩
  · rw [h x rfl]
    exact ha

end Dimension

/-! ## Walks -/

variable {flow full : Flow}

theorem matchKnownDimensions_of_extends {f : FieldSet}
    (h : Extends flow full) (hm : f.matchKnownDimensions full) :
    f.matchKnownDimensions flow = true := by
  rw [FieldSet.matchKnownDimensions_iff] at hm ⊢
  obtain ⟨hest, hproto, hicmp, hsrc, hdst, hsport, hdport, hin, hout⟩ := hm
  rw [h.isEstablished] at hest
  rw [h.srcIp] at hsrc
  rw [h.dstIp] at hdst
  rw [h.ingressIntf] at hin
  rw [h.egressIntf] at hout
  exact ⟨hest, admits_of_keeps h.proto hproto, admits_of_keeps h.icmpType hicmp, hsrc, hdst,
    admits_of_keeps h.sport hsport, admits_of_keeps h.dport hdport, hin, hout⟩

theorem matchKnownDimensions_extends {f : FieldSet} (h : Extends flow full)
    (hm : f.matchKnownDimensions flow) (hesc : ¬ Escapes f flow full) :
    f.matchKnownDimensions full = true := by
  rw [FieldSet.matchKnownDimensions_iff] at hm ⊢
  obtain ⟨hest, hproto, hicmp, hsrc, hdst, hsport, hdport, hin, hout⟩ := hm
  obtain ⟨hproto', hicmp', hsport', hdport'⟩ :
      ¬ Outside setHas f.protos (protoFromName flow.proto) (protoFromName full.proto) ∧
        ¬ Outside setHas f.icmpTypes flow.icmpType full.icmpType ∧
        ¬ Outside PortSet.containsPort f.srcPorts flow.sport full.sport ∧
        ¬ Outside PortSet.containsPort f.dstPorts flow.dport full.dport := by
    simpa only [Escapes, not_or] using hesc
  rw [h.isEstablished, h.srcIp, h.dstIp, h.ingressIntf, h.egressIntf]
  exact ⟨hest, admits_of_not_outside h.proto hproto hproto',
    admits_of_not_outside h.icmpType hicmp hicmp', hsrc, hdst,
    admits_of_not_outside h.sport hsport hsport', admits_of_not_outside h.dport hdport hdport',
    hin, hout⟩

def EscapesStop (rules : List Rule) (flow full : Flow) : Prop :=
  ∃ r, firstMatch rules flow = some r ∧ Escapes r.fields flow full

/-- A completion that does not escape the stop of a walk stops there too. -/
theorem firstMatch_extends {rules : List Rule} (h : Extends flow full)
    (hesc : ¬ EscapesStop rules flow full) : firstMatch rules full = firstMatch rules flow := by
  rw [firstMatch, firstMatch]
  refine FirstMatch.find?_eq_of_imp (fun r hr => ?_) fun r hr => ?_
  · rw [ruleStopsWalk_eq] at hr ⊢
    exact matchKnownDimensions_of_extends h hr
  · have hstop := (stops_of_firstMatch hr).2
    rw [ruleStopsWalk_eq] at hstop ⊢
    exact matchKnownDimensions_extends h hstop fun he => hesc ⟨r, hr, he⟩

variable {names : String → Prop}

theorem Completion.extends (h : Completion names flow full) (ingress egress : Option String) :
    Extends { flow with ingressIntf := ingress, egressIntf := egress }
      { full with ingressIntf := ingress, egressIntf := egress } where
  srcIp := h.srcIp
  dstIp := h.dstIp
  isEstablished := by simp only [Flow.isEstablished, h.established, h.tcpFlags]
  ingressIntf := rfl
  egressIntf := rfl
  proto := h.protoFilled.1
  icmpType := h.icmpType.1
  sport := h.sport.1
  dport := h.dport.1

/-! ## IOS -/

/-- The completion slips out of the evaluation of the flow: it enters through another interface, or
it escapes the rule at which the evaluation stops in one of the lists. -/
def IosSlips (env : IOSPolicyEnvironment) (flow full : Flow) : Prop :=
  ingressOf env full ≠ ingressOf env flow ∨
    (∃ rules ∈ inboundRules env (ingressOf env flow),
      EscapesStop rules (ingressFlow env flow) (ingressFlow env full)) ∨
    ∃ route, env.routeTable.lookup flow.dstIp = some route ∧
      ∃ rules ∈ outboundRules env route.interface,
        EscapesStop rules (leavingFlow env route.interface flow)
          (leavingFlow env route.interface full)

theorem evaluateIos_of_not_slips {env : IOSPolicyEnvironment}
    (h : Completion names flow full) (hslip : ¬ IosSlips env flow full) :
    (evaluateIos env full).verdict = (evaluateIos env flow).verdict := by
  obtain ⟨hingress, hin, hout⟩ :
      ingressOf env full = ingressOf env flow ∧
        (∀ rules ∈ inboundRules env (ingressOf env flow),
          ¬ EscapesStop rules (ingressFlow env flow) (ingressFlow env full)) ∧
        ∀ route, env.routeTable.lookup flow.dstIp = some route →
          ∀ rules ∈ outboundRules env route.interface,
            ¬ EscapesStop rules (leavingFlow env route.interface flow)
              (leavingFlow env route.interface full) := by
    simpa only [IosSlips, not_or, not_not, not_exists, not_and] using hslip
  have hinExt : Extends (ingressFlow env flow) (ingressFlow env full) := by
    rw [ingressFlow, ingressFlow, hingress, h.egressIntf.symm]
    exact h.extends _ _
  have houtExt (egress : String) :
      Extends (leavingFlow env egress flow) (leavingFlow env egress full) := by
    rw [leavingFlow, leavingFlow, hingress]
    exact h.extends _ _
  refine evaluateIos_congr h.dstIp hingress ?_ ?_
  · exact fun rules hr => firstMatch_extends hinExt (hin rules hr)
  · exact fun route hroute rules hr => firstMatch_extends (houtExt _) (hout route hroute rules hr)

/-! ## FortiOS -/

/-- The completion slips out of the evaluation of the flow: it is matched with another ingress
interface, or it escapes the policy at which the evaluation stops. -/
def FortiosSlips (policies : List Rule) (table : RouteTable) (flow full : Flow) : Prop :=
  ∃ route, table.lookup flow.dstIp = some route ∧
    ((policyFlow table route full).ingressIntf ≠ (policyFlow table route flow).ingressIntf ∨
      EscapesStop (enabledPolicies policies) (policyFlow table route flow)
        (policyFlow table route full))

def FortiosLets (policies : List Rule) (table : RouteTable) (flow : Flow) : Prop :=
  ∃ route, table.lookup flow.dstIp = some route ∧
    Lets policyDenies (enabledPolicies policies) (policyFlow table route flow)

def FortiosRefuses (policies : List Rule) (table : RouteTable) (flow : Flow) : Prop :=
  ∃ route, table.lookup flow.dstIp = some route ∧
    Refuses policyDenies (enabledPolicies policies) (policyFlow table route flow)

theorem evaluateFortiosChain_of_not_slips {policies : List Rule}
    {table : RouteTable} {unresolved : List String}
    (h : Completion names flow full) (hslip : ¬ FortiosSlips policies table flow full) :
    (evaluateFortiosChain policies table full unresolved).verdict =
      (evaluateFortiosChain policies table flow unresolved).verdict := by
  rcases hroute : table.lookup flow.dstIp with _ | route
  · have hroute' : table.lookup full.dstIp = none := by rw [h.dstIp, hroute]
    rw [evaluateFortiosChain_of_no_route hroute, evaluateFortiosChain_of_no_route hroute']
  · have hroute' : table.lookup full.dstIp = some route := by rw [h.dstIp, hroute]
    obtain ⟨hingress, hstop⟩ :
        (policyFlow table route full).ingressIntf = (policyFlow table route flow).ingressIntf ∧
          ¬ EscapesStop (enabledPolicies policies) (policyFlow table route flow)
            (policyFlow table route full) := by
      have hno : ¬ (_ ∨ _) := fun hs => hslip ⟨route, hroute, hs⟩
      simpa only [not_or, not_not] using hno
    have hext : Extends (policyFlow table route flow) (policyFlow table route full) := by
      have hfull : policyFlow table route full =
          { full with
            ingressIntf := (policyFlow table route flow).ingressIntf
            egressIntf := some route.interface } := by
        rw [← hingress]
        rfl
      rw [hfull]
      exact h.extends _ _
    rw [evaluateFortiosChain_listAnswer policies unresolved hroute,
      evaluateFortiosChain_listAnswer policies unresolved hroute', listAnswer, listAnswer,
      firstMatch_extends hext hstop]

/-! ## Answers for all completions -/

def Agrees (answer : Flow → Verdict) (names : String → Prop) (flow : Flow) : Prop :=
  ∀ full, Completion names flow full → answer flow ≠ .unknown → answer full = answer flow

theorem agrees_iff_of_slips {answer : Flow → Verdict}
    {lets refuses : Flow → Prop} {slips : Flow → Prop}
    (hlets : ∀ f, answer f = .permit ↔ lets f) (hrefuses : ∀ f, answer f = .deny ↔ refuses f)
    (hkeep : ∀ full, Completion names flow full → ¬ slips full → answer full = answer flow) :
    Agrees answer names flow ↔
      ∀ full, Completion names flow full → slips full →
        (lets flow → lets full) ∧ (refuses flow → refuses full) := by
  simp only [← hlets, ← hrefuses]
  constructor
  · intro h full hfull _
    constructor
    · intro hpermit
      rw [h full hfull (by rw [hpermit]; exact Verdict.noConfusion), hpermit]
    · intro hdeny
      rw [h full hfull (by rw [hdeny]; exact Verdict.noConfusion), hdeny]
  · intro h full hfull hknown
    by_cases hs : slips full
    · obtain ⟨hpermit, hdeny⟩ := h full hfull hs
      rcases hv : answer flow with _ | _ | _
      · exact hpermit hv
      · exact hdeny hv
      · exact absurd hv hknown
    · exact hkeep full hfull hs

/-- The lines of a device that lets web traffic in. -/
def webOnlyLines : List String :=
  ["interface G0", " ip address 10.0.0.1 255.255.255.0", " ip access-group WEB in",
    "ip access-list extended WEB", " permit tcp any any eq 80"]

/-- A connection whose destination port is left open. -/
def openPort : Flow :=
  { srcIp := "10.0.0.2", dstIp := "10.0.0.9", sport := some 40000, ingressIntf := some "G0" }

/-- The connection to the secure shell. -/
def openPortToSsh : Flow := { openPort with dport := some 22, icmpType := some 8 }

theorem openPortToSsh_completion : Completion (fun n => n = "G0") openPort openPortToSsh := by
  refine ⟨rfl, rfl, rfl, rfl, rfl, ⟨?_, ?_⟩, ⟨?_, ?_⟩, ⟨?_, ?_⟩, fun _ => rfl, ⟨?_, ?_⟩, ⟨?_, ?_⟩⟩
  · exact fun x hx => hx
  · exact fun h => absurd h (by decide)
  · exact fun x hx => absurd hx (by simp [openPort])
  · exact fun _ => ⟨22, rfl, by decide, by decide⟩
  · exact fun x hx => absurd hx (by simp [openPort])
  · exact fun _ => ⟨8, rfl, by decide, by decide⟩
  · exact fun x hx => hx
  · exact fun h => absurd h (by decide)
  · exact fun x hx => hx
  · exact fun h => absurd h (by decide)

end SentinelNet.PolicyTest
