import SentinelNet.PolicyTest.HonestUnknown

/-!
# The stages of an evaluation

What the chains answer, said by the rules their walks stop at.  A rule list lets a flow through when
the walk stops at a rule that was read in full and does not deny; it refuses the flow when the walk
stops at one that denies, or at the end of the list.  A stage without a list lets everything
through.

* `evaluateIos_permit`, `evaluateIos_deny`: the answers of the IOS chain.
* `evaluateFortiosChain_permit`, `evaluateFortiosChain_deny`: the answers of the FortiOS chain.
-/

namespace SentinelNet.PolicyTest

/-! ## Rule lists -/

/-- The walk stops at a rule that was read in full and does not deny. -/
def Lets (denies : Action → Bool) (rules : List Rule) (flow : Flow) : Prop :=
  ∃ r, firstMatch rules flow = some r ∧ r.isDecidable = true ∧ denies r.action = false

/-- The walk stops at a rule that was read in full and denies, or at the end of the list. -/
def Refuses (denies : Action → Bool) (rules : List Rule) (flow : Flow) : Prop :=
  ∀ r, firstMatch rules flow = some r → r.isDecidable = true ∧ denies r.action = true

variable {denies : Action → Bool} {rules : List Rule} {flow : Flow}

theorem Lets.not_refuses (h : Lets denies rules flow) : ¬ Refuses denies rules flow := by
  intro hr
  obtain ⟨r, hm, -, ha⟩ := h
  rw [(hr r hm).2] at ha
  exact absurd ha (by decide)

variable {flow' : Flow}

theorem lets_congr (h : firstMatch rules flow = firstMatch rules flow') :
    Lets denies rules flow ↔ Lets denies rules flow' := by
  rw [Lets, Lets, h]

theorem refuses_congr (h : firstMatch rules flow = firstMatch rules flow') :
    Refuses denies rules flow ↔ Refuses denies rules flow' := by
  rw [Refuses, Refuses, h]

def listAnswer (denies : Action → Bool) (rules : List Rule) (flow : Flow) : Verdict :=
  match firstMatch rules flow with
  | some r => if !r.isDecidable then .unknown else if denies r.action then .deny else .permit
  | none => .deny

theorem listAnswer_permit_iff :
    listAnswer denies rules flow = .permit ↔ Lets denies rules flow := by
  rw [listAnswer, Lets]
  rcases firstMatch rules flow with _ | r
  · simp
  · dsimp only
    by_cases hd : r.isDecidable = true <;> by_cases ha : denies r.action = true <;> simp [hd, ha]

theorem listAnswer_deny_iff : listAnswer denies rules flow = .deny ↔ Refuses denies rules flow := by
  rw [listAnswer, Refuses]
  rcases firstMatch rules flow with _ | r
  · simp
  · dsimp only
    by_cases hd : r.isDecidable = true <;> by_cases ha : denies r.action = true <;> simp [hd, ha]

theorem walkAcl_listAnswer (kind : StepKind) (name : String) (acl : RuleSet) (flow : Flow) :
    (walkAcl kind name acl flow).verdict = listAnswer aclDenies acl.rules flow := by
  rw [walkAcl_verdict, listAnswer]
  rcases firstMatch acl.rules flow with _ | r
  · rfl
  · simp only [aclDenies, decide_eq_true_eq]

/-! ## IOS -/

/-- The rules of the access list bound under a name, when there is one. -/
def boundRules (acls : PyDict.Dict RuleSet) (name : Option String) : Option (List Rule) :=
  (boundAcl acls name).map fun p => p.2.rules

def inboundRules (env : IOSPolicyEnvironment) (ingress : Option String) : Option (List Rule) :=
  (findInterface env.interfaces ingress).bind fun info => boundRules env.acls info.aclIn

def outboundRules (env : IOSPolicyEnvironment) (egress : String) : Option (List Rule) :=
  (findInterface env.interfaces (some egress)).bind fun info => boundRules env.acls info.aclOut

/-- The ingress interface is one of the device, or there is none. -/
def IngressKnown (env : IOSPolicyEnvironment) (ingress : Option String) : Prop :=
  nonEmpty ingress = none ∨ (findInterface env.interfaces ingress).isSome = true

/-- The flow as the inbound access list sees it. -/
def ingressFlow (env : IOSPolicyEnvironment) (flow : Flow) : Flow :=
  { flow with ingressIntf := ingressOf env flow }

/-- The flow as the outbound access list of an interface sees it. -/
def leavingFlow (env : IOSPolicyEnvironment) (egress : String) (flow : Flow) : Flow :=
  { flow with ingressIntf := ingressOf env flow, egressIntf := some egress }

theorem aclStage_permit_iff {kind : StepKind} {acls : PyDict.Dict RuleSet} {name : Option String}
    {unbound : String} :
    (aclStage kind acls name unbound flow).verdict = .permit ↔
      ∀ rules ∈ boundRules acls name, Lets aclDenies rules flow := by
  rw [aclStage, boundRules]
  rcases boundAcl acls name with _ | ⟨n, acl⟩
  · simp [AclOutcome.verdict]
  · simp [walkAcl_listAnswer, listAnswer_permit_iff]

theorem aclStage_deny_iff {kind : StepKind} {acls : PyDict.Dict RuleSet} {name : Option String}
    {unbound : String} :
    (aclStage kind acls name unbound flow).verdict = .deny ↔
      ∃ rules ∈ boundRules acls name, Refuses aclDenies rules flow := by
  rw [aclStage, boundRules]
  rcases boundAcl acls name with _ | ⟨n, acl⟩
  · simp [AclOutcome.verdict]
  · simp [walkAcl_listAnswer, listAnswer_deny_iff]

variable {env : IOSPolicyEnvironment}

/-- The inbound stage passes when the ingress interface is known and its list lets the flow
through. -/
theorem inboundStage_permit_iff {ingress : Option String} :
    (inboundStage env ingress flow).verdict = .permit ↔
      IngressKnown env ingress ∧
        ∀ rules ∈ inboundRules env ingress, Lets aclDenies rules flow := by
  rw [inboundStage, IngressKnown, inboundRules]
  rcases findInterface env.interfaces ingress with _ | info
  · dsimp only
    rcases nonEmpty ingress with _ | n
    · simp [AclOutcome.verdict]
    · simp [AclOutcome.verdict]
  · dsimp only
    rw [aclStage_permit_iff]
    simp

theorem inboundStage_deny_iff {ingress : Option String} :
    (inboundStage env ingress flow).verdict = .deny ↔
      ∃ rules ∈ inboundRules env ingress, Refuses aclDenies rules flow := by
  rw [inboundStage, inboundRules]
  rcases findInterface env.interfaces ingress with _ | info
  · dsimp only
    rcases nonEmpty ingress with _ | n
    · simp [AclOutcome.verdict]
    · simp [AclOutcome.verdict]
  · dsimp only
    rw [aclStage_deny_iff]
    simp

theorem outboundStage_permit_iff {egress : String} :
    (outboundStage env egress flow).verdict = .permit ↔
      ∀ rules ∈ outboundRules env egress, Lets aclDenies rules flow := by
  rw [outboundStage, outboundRules]
  rcases findInterface env.interfaces (some egress) with _ | info
  · simp [AclOutcome.verdict]
  · dsimp only
    rw [aclStage_permit_iff]
    simp

theorem outboundStage_deny_iff {egress : String} :
    (outboundStage env egress flow).verdict = .deny ↔
      ∃ rules ∈ outboundRules env egress, Refuses aclDenies rules flow := by
  rw [outboundStage, outboundRules]
  rcases findInterface env.interfaces (some egress) with _ | info
  · simp [AclOutcome.verdict]
  · dsimp only
    rw [aclStage_deny_iff]
    simp

/-- The flow gets past the inbound stage. -/
def PassesInbound (env : IOSPolicyEnvironment) (flow : Flow) : Prop :=
  IngressKnown env (ingressOf env flow) ∧
    ∀ rules ∈ inboundRules env (ingressOf env flow), Lets aclDenies rules (ingressFlow env flow)

def LetsOut (env : IOSPolicyEnvironment) (egress : String) (flow : Flow) : Prop :=
  ∀ rules ∈ outboundRules env egress, Lets aclDenies rules (leavingFlow env egress flow)

def RefusesOut (env : IOSPolicyEnvironment) (egress : String) (flow : Flow) : Prop :=
  ∃ rules ∈ outboundRules env egress, Refuses aclDenies rules (leavingFlow env egress flow)

/-- Both lists on the way let the flow through. -/
def IosLets (env : IOSPolicyEnvironment) (flow : Flow) : Prop :=
  PassesInbound env flow ∧
    ∃ route, env.routeTable.lookup flow.dstIp = some route ∧ LetsOut env route.interface flow

def IosRefuses (env : IOSPolicyEnvironment) (flow : Flow) : Prop :=
  (∃ rules ∈ inboundRules env (ingressOf env flow),
      Refuses aclDenies rules (ingressFlow env flow)) ∨
    PassesInbound env flow ∧
      ∃ route, env.routeTable.lookup flow.dstIp = some route ∧
        RefusesOut env route.interface flow

/-- IOS answers PERMIT when both lists let the flow through. -/
theorem evaluateIos_permit : (evaluateIos env flow).verdict = .permit ↔ IosLets env flow := by
  rw [evaluateIos_permit_iff, inboundStage_permit_iff, IosLets, PassesInbound]
  simp only [outboundStage_permit_iff]
  rfl

theorem evaluateIos_deny_iff :
    (evaluateIos env flow).verdict = .deny ↔
      (inboundStage env (ingressOf env flow) (ingressFlow env flow)).verdict = .deny ∨
        (inboundStage env (ingressOf env flow) (ingressFlow env flow)).verdict = .permit ∧
          ∃ route, env.routeTable.lookup flow.dstIp = some route ∧
            (outboundStage env route.interface
              (leavingFlow env route.interface flow)).verdict = .deny := by
  rw [evaluateIos, ingressFlow]
  dsimp only [leavingFlow]
  rcases inboundStage env (ingressOf env flow)
    { flow with ingressIntf := ingressOf env flow } with ⟨step, b⟩ | ⟨step, reasons⟩ | step
  · simp [AclOutcome.verdict]
  · simp [AclOutcome.verdict]
  · dsimp only
    rcases env.routeTable.lookup flow.dstIp with _ | route
    · simp [AclOutcome.verdict]
    · simp [AclOutcome.verdict]

/-- IOS answers DENY when one of the lists refuses the flow. -/
theorem evaluateIos_deny : (evaluateIos env flow).verdict = .deny ↔ IosRefuses env flow := by
  rw [evaluateIos_deny_iff, inboundStage_deny_iff, inboundStage_permit_iff, IosRefuses,
    PassesInbound]
  simp only [outboundStage_deny_iff]
  rfl

theorem Verdict.eq_iff {v w : Verdict} :
    v = w ↔ (v = .permit ↔ w = .permit) ∧ (v = .deny ↔ w = .deny) := by
  cases v <;> cases w <;> decide

theorem evaluateIos_congr
    (hdst : flow'.dstIp = flow.dstIp) (hingress : ingressOf env flow' = ingressOf env flow)
    (hin : ∀ rules ∈ inboundRules env (ingressOf env flow),
      firstMatch rules (ingressFlow env flow') = firstMatch rules (ingressFlow env flow))
    (hout : ∀ route, env.routeTable.lookup flow.dstIp = some route →
      ∀ rules ∈ outboundRules env route.interface,
        firstMatch rules (leavingFlow env route.interface flow') =
          firstMatch rules (leavingFlow env route.interface flow)) :
    (evaluateIos env flow').verdict = (evaluateIos env flow).verdict := by
  have hpass : PassesInbound env flow' ↔ PassesInbound env flow := by
    rw [PassesInbound, PassesInbound, hingress]
    exact and_congr_right' (forall₂_congr fun rules hr => lets_congr (hin rules hr))
  refine Verdict.eq_iff.mpr ⟨?_, ?_⟩
  · rw [evaluateIos_permit, evaluateIos_permit, IosLets, IosLets, hpass, hdst]
    refine and_congr_right' (exists_congr fun route => and_congr_right fun hroute => ?_)
    exact forall₂_congr fun rules hr => lets_congr (hout route hroute rules hr)
  · rw [evaluateIos_deny, evaluateIos_deny, IosRefuses, IosRefuses, hpass, hdst, hingress]
    refine or_congr ?_ (and_congr_right' (exists_congr fun route => and_congr_right fun hroute => ?_))
    · exact exists_congr fun rules => and_congr_right fun hr => refuses_congr (hin rules hr)
    · exact exists_congr fun rules =>
        and_congr_right fun hr => refuses_congr (hout route hroute rules hr)

/-! ## FortiOS -/

def enabledPolicies (policies : List Rule) : List Rule := policies.filter fun p => !p.disabled

variable {table : RouteTable}

theorem evaluateFortiosChain_listAnswer (policies : List Rule)
    (unresolved : List String) {route : Route} (h : table.lookup flow.dstIp = some route) :
    (evaluateFortiosChain policies table flow unresolved).verdict =
      listAnswer policyDenies (enabledPolicies policies) (policyFlow table route flow) := by
  rw [evaluateFortiosChain_verdict policies unresolved h, policyLoop_snd, listAnswer,
    enabledPolicies]
  rcases firstMatch (policies.filter fun p => !p.disabled) (policyFlow table route flow) with _ | p
  · rfl
  · simp only [policyDenies, decide_eq_true_eq]

variable {policies : List Rule} {unresolved : List String}

theorem evaluateFortiosChain_of_no_route (h : table.lookup flow.dstIp = none) :
    (evaluateFortiosChain policies table flow unresolved).verdict = .unknown := by
  rw [evaluateFortiosChain, h]
  rfl

/-- FortiOS answers PERMIT when there is a route and the policies let the flow through. -/
theorem evaluateFortiosChain_permit :
    (evaluateFortiosChain policies table flow unresolved).verdict = .permit ↔
      ∃ route, table.lookup flow.dstIp = some route ∧
        Lets policyDenies (enabledPolicies policies) (policyFlow table route flow) := by
  rcases hroute : table.lookup flow.dstIp with _ | route
  · rw [evaluateFortiosChain_of_no_route hroute]
    simp
  · rw [evaluateFortiosChain_listAnswer policies unresolved hroute, listAnswer_permit_iff]
    simp

/-- FortiOS answers DENY when there is a route and the policies refuse the flow. -/
theorem evaluateFortiosChain_deny :
    (evaluateFortiosChain policies table flow unresolved).verdict = .deny ↔
      ∃ route, table.lookup flow.dstIp = some route ∧
        Refuses policyDenies (enabledPolicies policies) (policyFlow table route flow) := by
  rcases hroute : table.lookup flow.dstIp with _ | route
  · rw [evaluateFortiosChain_of_no_route hroute]
    simp
  · rw [evaluateFortiosChain_listAnswer policies unresolved hroute, listAnswer_deny_iff]
    simp

end SentinelNet.PolicyTest
