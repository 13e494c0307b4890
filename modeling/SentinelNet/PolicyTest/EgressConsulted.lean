import SentinelNet.PolicyTest.Engine
import SentinelNet.PolicyTest.IosEnvironment

/-!
# The outbound access list

When a PERMIT of the IOS chain comes after the outbound access list of the interface the packet
leaves through, and when it comes from an interface that was never found.

The egress interface is the end of a chain: the route that wins the lookup is a connected one, a
static one over a next hop, or a static one over an interface; a next hop is resolved by the
connected subnets.  Each link has a way to fail, and `outboundStage` passes after all of them.

* `consultsEgress_iff`: the one exactly when the other.
-/

namespace SentinelNet.PolicyTest

open PyText

/-- A discard interface, such as `Null0`. -/
def isDiscard (name : String) : Bool := startsWith (lower name) "null"

/-- The flow as the outbound access list sees it. -/
def egressFlow (env : IOSPolicyEnvironment) (flow : Flow) (route : Route) : Flow :=
  { flow with ingressIntf := ingressOf env flow, egressIntf := some route.interface }

def NextHopConnected (env : IOSPolicyEnvironment) (nh : String) : Prop :=
  ∃ ip, ipToInt nh = .ok ip ∧
    ∃ c ∈ env.routeTable.connectedSubnets, c.cube.containsIp ip = true

/-- A PERMIT is backed by the egress interface: a route won, its interface exists and is no discard
interface, its next hop lies in a connected subnet, and the first entry of the outbound access list
that stops the walk, if a list is bound and defined, was read in full and permits. -/
def ConsultsEgress (env : IOSPolicyEnvironment) (flow : Flow) : Prop :=
  (evaluateIos env flow).verdict = .permit →
    ∃ route info, env.routeTable.lookup flow.dstIp = some route ∧
      findInterface env.interfaces (some route.interface) = some info ∧
      (∀ name acl, boundAcl env.acls info.aclOut = some (name, acl) →
        ∃ r, firstMatch acl.rules (egressFlow env flow route) = some r ∧ r.isDecidable = true ∧
          r.action = .permit) ∧
      isDiscard route.interface = false ∧
      ∀ nh, route.nextHop = some nh → NextHopConnected env nh

/-- The egress interface of a route is known: a next hop lies in a connected subnet, a static route
without one names an interface of the device, and a discard interface is closed outbound. -/
structure EgressKnown (env : IOSPolicyEnvironment) (flow : Flow) (route : Route) : Prop where
  nextHop : ∀ nh, route.nextHop = some nh → NextHopConnected env nh
  configured : route.source = .static → route.nextHop = none →
    (findInterface env.interfaces (some route.interface)).isSome = true
  closed : isDiscard route.interface = true →
    (outboundStage env route.interface (egressFlow env flow route)).verdict ≠ .permit

theorem findInterface_isSome {interfaces : PyDict.Dict IfaceInfo} {name : String} (hne : name ≠ "")
    (h : PyDict.has interfaces name) :
    (findInterface interfaces (some name)).isSome = true := by
  obtain ⟨info, hinfo⟩ := Option.isSome_iff_exists.mp h
  rw [findInterface, if_neg hne, hinfo]
  rfl

variable {env : IOSPolicyEnvironment} {flow : Flow}

theorem outboundStage_of_unknown {egress : String}
    (h : findInterface env.interfaces (some egress) = none) :
    (outboundStage env egress flow).verdict = .permit := by
  rw [outboundStage, h]
  rfl

theorem mem_of_boundAcl {acls : PyDict.Dict RuleSet} {name : Option String} {n : String}
    {acl : RuleSet} (h : boundAcl acls name = some (n, acl)) : (n, acl) ∈ acls := by
  rw [boundAcl] at h
  obtain ⟨m, -, hm⟩ := Option.bind_eq_some_iff.mp h
  obtain ⟨acl', hacl, heq⟩ := Option.map_eq_some_iff.mp hm
  obtain ⟨rfl, rfl⟩ := Prod.mk.inj heq
  exact PyDict.mem_of_get? hacl

theorem firstMatch_of_outboundStage (hs : env.Sound) {egress : String} {info : IfaceInfo}
    (hinfo : findInterface env.interfaces (some egress) = some info)
    (hpass : (outboundStage env egress flow).verdict = .permit) {name : String} {acl : RuleSet}
    (hbound : boundAcl env.acls info.aclOut = some (name, acl)) :
    ∃ r, firstMatch acl.rules flow = some r ∧ r.isDecidable = true ∧ r.action = .permit := by
  have hwalk : (walkAcl .aclOut name acl flow).verdict = .permit := by
    rw [outboundStage, hinfo] at hpass
    dsimp only at hpass
    rw [aclStage, hbound] at hpass
    exact hpass
  rw [walkAcl_verdict] at hwalk
  rcases hm : firstMatch acl.rules flow with _ | r
  · rw [hm] at hwalk
    exact Verdict.noConfusion hwalk
  · rw [hm] at hwalk
    dsimp only at hwalk
    split_ifs at hwalk with hdec hdeny
    have hdec' : r.isDecidable = true := by simpa using hdec
    refine ⟨r, rfl, hdec', ?_⟩
    have hwf := hs.rules _ (mem_of_boundAcl hbound) r (stops_of_firstMatch hm).1
    exact (hwf.action hdec').resolve_right hdeny

theorem EgressKnown.isSome (hs : env.Sound)
    {route : Route} (hroute : route ∈ env.routeTable.routes) (h : EgressKnown env flow route) :
    (findInterface env.interfaces (some route.interface)).isSome = true := by
  rcases hs.routes route hroute with hc | hr
  · exact findInterface_isSome hc.named hc.known
  · rcases hhop : route.nextHop with _ | nh
    · exact h.configured hr.source hhop
    · obtain ⟨ip, hip, ⟨c, hc, -, hintf⟩ | ⟨hnone, -⟩⟩ := hr.nextHop nh hhop
      · have hcon := hs.connected c hc
        rw [hintf]
        exact findInterface_isSome hcon.named hcon.known
      · obtain ⟨ip', hip', c, hc, hcube⟩ := h.nextHop nh hhop
        obtain rfl : ip = ip' := Except.ok.inj (hip.symm.trans hip')
        exact absurd hcube (hnone c hc)

/-- For every IOS configuration and every flow: a PERMIT is backed by the egress interface exactly
when, once the inbound stage passes, the egress interface of the route that wins is known. -/
theorem consultsEgress_iff {configText : String} {env : IOSPolicyEnvironment}
    (h : parseIosConfig configText = .ok env) (flow : Flow) :
    ConsultsEgress env flow ↔
      ((inboundStage env (ingressOf env flow)
          { flow with ingressIntf := ingressOf env flow }).verdict = .permit →
        ∀ route, env.routeTable.lookup flow.dstIp = some route → EgressKnown env flow route) := by
  have hs : env.Sound := parseIosConfig_sound h
  constructor
  · intro hconsults hin route hroute
    have hbacked (hout : (outboundStage env route.interface
        (egressFlow env flow route)).verdict = .permit) :
        (findInterface env.interfaces (some route.interface)).isSome = true ∧
          isDiscard route.interface = false ∧
          ∀ nh, route.nextHop = some nh → NextHopConnected env nh := by
      obtain ⟨route', info, hroute', hinfo, -, hdiscard, hhop⟩ :=
        hconsults (evaluateIos_permit_iff.mpr ⟨hin, route, hroute, hout⟩)
      obtain rfl : route = route' := Option.some.inj (hroute.symm.trans hroute')
      exact ⟨by rw [hinfo]; rfl, hdiscard, hhop⟩
    refine ⟨fun nh hnh => ?_, fun hsource hnone => ?_, fun hdiscard hout => ?_⟩
    · rcases hs.routes route (RouteTable.mem_of_lookup hroute).1 with hc | hr
      · exact absurd (hc.nextHop.symm.trans hnh) (by simp)
      · obtain ⟨ip, hip, ⟨c, hc, hcube, -⟩ | ⟨-, hintf⟩⟩ := hr.nextHop nh hnh
        · exact ⟨ip, hip, c, hc, hcube⟩
        · have hunknown : findInterface env.interfaces (some route.interface) = none := by
            rw [findInterface, if_pos hintf]
          exact (hbacked (outboundStage_of_unknown hunknown)).2.2 nh hnh
    · by_contra hunknown
      have hunknown' : findInterface env.interfaces (some route.interface) = none := by
        simpa using hunknown
      exact hunknown (hbacked (outboundStage_of_unknown hunknown')).1
    · have hopen := (hbacked hout).2.1
      rw [hdiscard] at hopen
      simp at hopen
  · intro hknown hpermit
    obtain ⟨hin, route, hroute, hout⟩ := evaluateIos_permit_iff.mp hpermit
    have hegress := hknown hin route hroute
    have hmem := (RouteTable.mem_of_lookup hroute).1
    obtain ⟨info, hinfo⟩ := Option.isSome_iff_exists.mp (hegress.isSome hs hmem)
    refine ⟨route, info, hroute, hinfo, fun name acl hbound => ?_, ?_, hegress.nextHop⟩
    · exact firstMatch_of_outboundStage hs hinfo hout hbound
    · by_contra hdiscard
      exact hegress.closed (by simpa using hdiscard) hout

/-- A device with a static route whose next hop lies in none of its subnets. -/
def recursiveRoute : String :=
  "interface G0\n ip address 10.0.0.1 255.255.255.0\n" ++
    "ip route 192.168.0.0 255.255.0.0 10.9.9.9"

def overStaticRoute : Flow :=
  { srcIp := "10.0.0.2", dstIp := "192.168.0.1", ingressIntf := some "G0" }

/-- The device with the recursive next hop is one of those the equivalence is about. -/
theorem consultsEgress_iff_recursiveRoute :
    ∃ env, parseIosConfig recursiveRoute = .ok env ∧
      (ConsultsEgress env overStaticRoute ↔
        ((inboundStage env (ingressOf env overStaticRoute)
            { overStaticRoute with
              ingressIntf := ingressOf env overStaticRoute }).verdict = .permit →
          ∀ route, env.routeTable.lookup overStaticRoute.dstIp = some route →
            EgressKnown env overStaticRoute route)) := by
  have heval : (parseIosConfig recursiveRoute).toOption.isSome = true := by decide +kernel
  obtain ⟨env, henv⟩ := Option.isSome_iff_exists.mp heval
  exact ⟨env, eq_ok_of_toOption henv, consultsEgress_iff (eq_ok_of_toOption henv) overStaticRoute⟩

/-- The flow over the static route is permitted although no egress interface was found. -/
theorem recursiveRoute_permitted :
    ¬ ∀ (configText : String) (env : IOSPolicyEnvironment) (flow : Flow),
      parseIosConfig configText = .ok env →
        (findInterface env.interfaces (ingressOf env flow)).isSome = true →
          ConsultsEgress env flow := by
  intro hall
  have heval : ((parseIosConfig recursiveRoute).toOption.any fun env =>
      (findInterface env.interfaces (ingressOf env overStaticRoute)).isSome &&
        decide ((evaluateIos env overStaticRoute).verdict = .permit) &&
        (env.routeTable.lookup overStaticRoute.dstIp).all fun route =>
          (findInterface env.interfaces (some route.interface)).isNone) = true := by
    decide +kernel
  obtain ⟨env, henv, heval⟩ := (Option.any_eq_true _ _).mp heval
  simp only [Bool.and_eq_true, decide_eq_true_eq] at heval
  obtain ⟨⟨hingress, hpermit⟩, hunknown⟩ := heval
  obtain ⟨route, info, hroute, hinfo, -⟩ :=
    hall recursiveRoute env overStaticRoute (eq_ok_of_toOption henv) hingress hpermit
  rw [hroute, Option.all_some, hinfo] at hunknown
  exact absurd hunknown Bool.false_ne_true

end SentinelNet.PolicyTest
