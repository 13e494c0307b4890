import SentinelNet.PolicyTest.Ios

/-!
# The evaluation engine

`services/policy_test/engine.py`: the walk over a rule list, the IOS chain (inbound list, route,
outbound list) and the FortiOS chain (route, policy list).

The two halves of `evaluate_ios` that walk an access list differ in the kind of their step only;
`walkAcl` is this half.  It either stops the evaluation with a verdict or lets it go on.

* `firstMatch`: the rule the walk stops at.
* `evaluateIos`, `evaluateFortiosChain`: the traces.
* `evaluateIos_permit_iff`: when a trace says PERMIT.
-/

namespace SentinelNet.PolicyTest

open PyText

/-! ## The walk -/

/-- `_rule_stops_walk`: the rule matches, or it is undecidable and could match. -/
def ruleStopsWalk (rule : Rule) (flow : Flow) : Bool :=
  if rule.isDecidable then rule.fields.matchesFlow flow else rule.fields.mayMatch flow

def firstMatch (rules : List Rule) (flow : Flow) : Option Rule :=
  rules.find? fun r => ruleStopsWalk r flow

def findInterface (interfaces : PyDict.Dict IfaceInfo) (name : Option String) :
    Option IfaceInfo :=
  match name with
  | none => none
  | some n =>
    if n = "" then none
    else
      match PyDict.get? interfaces n with
      | some info => some info
      | none => (interfaces.find? fun p => decide (lower p.1 = lower n)).map Prod.snd

def deriveIngressIntf (srcIp : String) (t : RouteTable) : Option String :=
  match ipToInt srcIp with
  | .ok ip => (t.connectedSubnets.find? fun r => r.cube.containsIp ip).map Route.interface
  | .error _ => none

/-- A name or `None`, with the empty name read as `None`. -/
def nonEmpty (name : Option String) : Option String := name.filter fun n => n ≠ ""

/-! ## IOS -/

/-- What an access list does to the evaluation: only `pass` lets it go on. -/
inductive AclOutcome where
  | deny (step : Step) (implicitDeny : Bool)
  /-- The trace ends here, with these reasons added to it. -/
  | unknown (step : Step) (reasons : List String)
  | pass (step : Step)

/-- The verdict of an access list on its own. -/
def AclOutcome.verdict : AclOutcome → Verdict
  | .deny _ _ => .deny
  | .unknown _ _ => .unknown
  | .pass _ => .permit

/-- The trace when an access list ends it. -/
def AclOutcome.close (trace : Trace) (before : List Step) : AclOutcome → Trace
  | .deny step implicitDeny =>
    { trace with verdict := .deny, steps := before ++ [step], implicitDeny := implicitDeny }
  | .unknown step reasons =>
    { trace with
      verdict := .unknown
      steps := before ++ [step]
      unresolved := trace.unresolved ++ reasons }
  | .pass step => { trace with verdict := .permit, steps := before ++ [step] }

@[simp] theorem AclOutcome.close_verdict (trace : Trace) (before : List Step) (o : AclOutcome) :
    (o.close trace before).verdict = o.verdict := by
  cases o <;> rfl

def matchedText (r : Rule) : String := if r.id = "" then "rule" else s!"seq {r.id}"

/-- The walk over a bound access list. -/
def walkAcl (kind : StepKind) (name : String) (acl : RuleSet) (flow : Flow) : AclOutcome :=
  match firstMatch acl.rules flow with
  | some r =>
    let step : Step :=
      { kind := kind
        acl := some name
        matched := some (matchedText r)
        ruleId := some r.id
        rawText := some r.rawText }
    if !r.isDecidable then
      .unknown { step with action := .unknown, note := some "unresolved or opaque ACE" }
        r.unresolved
    else if r.action = .deny then .deny { step with action := .deny } false
    else .pass { step with action := .permit }
  | none =>
    .deny
      { kind := kind
        acl := some name
        matched := some "implicit deny"
        action := .deny
        note := some "implicit deny at end of ACL" }
      true

/-- The access list bound under a name, when there is one. -/
def boundAcl (acls : PyDict.Dict RuleSet) (name : Option String) : Option (String × RuleSet) :=
  (nonEmpty name).bind fun n => (PyDict.get? acls n).map fun acl => (n, acl)

/-- An access-list stage of an interface: the list is walked when it is bound and defined. -/
def aclStage (kind : StepKind) (acls : PyDict.Dict RuleSet) (name : Option String)
    (unbound : String) (flow : Flow) : AclOutcome :=
  match boundAcl acls name with
  | some (n, acl) => walkAcl kind n acl flow
  | none => .pass { kind := kind, note := some unbound }

/-- The ingress interface of a flow: the one it names, else the connected subnet of its
source. -/
def ingressOf (env : IOSPolicyEnvironment) (flow : Flow) : Option String :=
  match nonEmpty flow.ingressIntf with
  | some n => some n
  | none => deriveIngressIntf flow.srcIp env.routeTable

def inboundStage (env : IOSPolicyEnvironment) (ingress : Option String) (flow : Flow) :
    AclOutcome :=
  match findInterface env.interfaces ingress with
  | some info =>
    let name := ingress.getD ""
    aclStage .aclIn env.acls info.aclIn s!"no inbound ACL bound on {name}" flow
  | none =>
    match nonEmpty ingress with
    | some n =>
      .unknown
        { kind := .aclIn
          action := .unknown
          note := some s!"interface {n} does not exist on this device" }
        [s!"ingress interface '{n}' is not configured on this device"]
    | none => .pass { kind := .aclIn, note := some "ingress interface unknown; inbound ACL skipped" }

def outboundStage (env : IOSPolicyEnvironment) (egress : String) (flow : Flow) : AclOutcome :=
  match findInterface env.interfaces (some egress) with
  | some info => aclStage .aclOut env.acls info.aclOut "no ACL bound outbound" flow
  | none => .pass { kind := .aclOut, note := some "no ACL bound outbound" }

def noRouteStep : Step where
  kind := .route
  matched := some "no_static_route"
  action := .unknown
  note := some "no connected or static route found for destination"

def routeStep (r : Route) : Step where
  kind := .route
  network := some r.network
  nextHop := r.nextHop
  egress := some r.interface
  source := some r.source

def evaluateIos (env : IOSPolicyEnvironment) (flow : Flow) : Trace :=
  let ingress := ingressOf env flow
  let evaluated := { flow with ingressIntf := ingress }
  let trace : Trace :=
    { verdict := .permit
      dynamicRoutingPresent := env.routeTable.dynamicRoutingPresent
      unresolved := env.unresolved
      flow := evaluated }
  match inboundStage env ingress evaluated with
  | .pass inStep =>
    match env.routeTable.lookup flow.dstIp with
    | none => { trace with verdict := .unknown, steps := [inStep, noRouteStep] }.dedupe
    | some route =>
      let evaluated := { evaluated with egressIntf := some route.interface }
      ((outboundStage env route.interface evaluated).close { trace with flow := evaluated }
        [inStep, routeStep route]).dedupe
  | ended => (ended.close trace []).dedupe

/-! ## FortiOS -/

def policyText (p : Rule) : String := s!"policy {p.id}"

def policyName (p : Rule) : String := if p.name = "" then policyText p else p.name

/-- The step of a disabled policy. -/
def skippedStep (p : Rule) : Step where
  kind := .skippedPolicy
  acl := some (policyName p)
  matched := some (policyText p)
  action := .skip
  ruleId := some p.id
  note := some "status disable"

/-- The policy loop: the steps of the disabled policies on the way and the policy the walk stops
at. -/
def policyLoop (flow : Flow) : List Rule → List Step × Option Rule
  | [] => ([], none)
  | p :: policies =>
    if p.disabled then
      let (steps, matched) := policyLoop flow policies
      (skippedStep p :: steps, matched)
    else if ruleStopsWalk p flow then ([], some p)
    else policyLoop flow policies

/-- The flow the policies are matched against. -/
def policyFlow (table : RouteTable) (route : Route) (flow : Flow) : Flow :=
  { flow with
    ingressIntf :=
      match nonEmpty flow.ingressIntf with
      | some n => some n
      | none => deriveIngressIntf flow.srcIp table
    egressIntf := some route.interface }

def evaluateFortiosChain (policies : List Rule) (table : RouteTable) (flow : Flow)
    (unresolved : List String) : Trace :=
  let dynamicPresent := table.dynamicRoutingPresent
  match table.lookup flow.dstIp with
  | none =>
    ({ verdict := .unknown
       steps := [noRouteStep]
       dynamicRoutingPresent := dynamicPresent
       unresolved := unresolved
       flow := flow } : Trace).dedupe
  | some route =>
    let evaluated := policyFlow table route flow
    let trace : Trace :=
      { verdict := .deny
        dynamicRoutingPresent := dynamicPresent
        unresolved := unresolved
        flow := evaluated }
    let (skipped, matched) := policyLoop evaluated policies
    let steps := routeStep route :: skipped
    match matched with
    | some p =>
      let trace := { trace with natApplied := p.natEnabled }
      let step : Step :=
        { kind := .policy
          acl := some (policyName p)
          matched := some (policyText p)
          ruleId := some p.id
          rawText := some p.rawText }
      if !p.isDecidable then
        let note := if p.unresolved = [] then "unresolved object" else join ", " p.unresolved
        { trace with
          verdict := .unknown
          steps := steps ++ [{ step with action := .unknown, note := some note }]
          unresolved := unresolved ++ p.unresolved }.dedupe
      else if p.action = .deny ∨ p.action = .drop then
        { trace with verdict := .deny, steps := steps ++ [{ step with action := .deny }] }.dedupe
      else
        { trace with verdict := .permit, steps := steps ++ [step] }.dedupe
    | none =>
      let step : Step :=
        { kind := .policy
          acl := some "default"
          matched := some "implicit deny"
          action := .deny
          note := some "implicit deny (policy 0)" }
      { trace with steps := steps ++ [step], implicitDeny := true }.dedupe

/-! ## What a trace says -/

theorem ruleStopsWalk_eq (rule : Rule) (flow : Flow) :
    ruleStopsWalk rule flow = rule.fields.matchKnownDimensions flow := by
  rw [ruleStopsWalk]
  split
  · next h =>
    have hread : rule.fields.isOpaque = false := by
      rw [Rule.isDecidable, Bool.and_eq_true] at h
      simpa using h.1
    rw [FieldSet.matchesFlow, hread, if_neg Bool.false_ne_true]
  · rfl

variable {flow : Flow}

theorem stops_of_firstMatch {rules : List Rule} {r : Rule}
    (h : firstMatch rules flow = some r) : r ∈ rules ∧ ruleStopsWalk r flow = true :=
  ⟨List.mem_of_find?_eq_some h, List.find?_some (p := fun r => ruleStopsWalk r flow) h⟩

theorem walkAcl_verdict (kind : StepKind) (name : String) (acl : RuleSet) (flow : Flow) :
    (walkAcl kind name acl flow).verdict =
      match firstMatch acl.rules flow with
      | some r => if !r.isDecidable then .unknown else if r.action = .deny then .deny else .permit
      | none => .deny := by
  rw [walkAcl]
  rcases firstMatch acl.rules flow with _ | r
  · rfl
  · dsimp only
    split_ifs <;> rfl

theorem policyLoop_snd (flow : Flow) (policies : List Rule) :
    (policyLoop flow policies).2 = firstMatch (policies.filter fun p => !p.disabled) flow := by
  induction policies with
  | nil => rfl
  | cons p policies ih =>
    rw [policyLoop]
    by_cases hd : p.disabled = true
    · rw [if_pos hd, List.filter_cons_of_neg (by simp [hd])]
      exact ih
    · rw [if_neg hd, List.filter_cons_of_pos (by simpa using hd), firstMatch]
      by_cases hs : ruleStopsWalk p flow = true
      · rw [if_pos hs, List.find?_cons, hs]
      · have hs' : ruleStopsWalk p flow = false := by simpa using hs
        rw [if_neg hs, List.find?_cons, hs', ih, firstMatch]

theorem evaluateFortiosChain_verdict (policies : List Rule) {table : RouteTable}
    (unresolved : List String) {route : Route} (h : table.lookup flow.dstIp = some route) :
    (evaluateFortiosChain policies table flow unresolved).verdict =
      match (policyLoop (policyFlow table route flow) policies).2 with
      | some p =>
        if !p.isDecidable then .unknown
        else if p.action = .deny ∨ p.action = .drop then .deny else .permit
      | none => .deny := by
  rw [evaluateFortiosChain, h]
  dsimp only
  rcases (policyLoop (policyFlow table route flow) policies).2 with _ | p
  · rfl
  · dsimp only
    split_ifs <;> rfl

/-- IOS answers PERMIT exactly when both stages pass and there is a route between them. -/
theorem evaluateIos_permit_iff {env : IOSPolicyEnvironment} :
    (evaluateIos env flow).verdict = .permit ↔
      (inboundStage env (ingressOf env flow)
          { flow with ingressIntf := ingressOf env flow }).verdict = .permit ∧
        ∃ route, env.routeTable.lookup flow.dstIp = some route ∧
          (outboundStage env route.interface
            { flow with
              ingressIntf := ingressOf env flow
              egressIntf := some route.interface }).verdict = .permit := by
  rw [evaluateIos]
  dsimp only
  rcases hin : inboundStage env (ingressOf env flow)
    { flow with ingressIntf := ingressOf env flow } with ⟨step, b⟩ | ⟨step, reasons⟩ | step
  · simp [AclOutcome.verdict]
  · simp [AclOutcome.verdict]
  · dsimp only
    rcases env.routeTable.lookup flow.dstIp with _ | route
    · simp
    · simp [AclOutcome.verdict]

end SentinelNet.PolicyTest
