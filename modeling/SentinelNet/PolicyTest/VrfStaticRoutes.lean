import SentinelNet.PolicyTest.RouteLines
import SentinelNet.PolicyTest.Stages

/-!
# Static routes of a VRF

The parser puts the static routes of every VRF into the one route table of the environment.  Two
runs are compared: the evaluation on a configuration, and the one on the same configuration without
its `ip route vrf NAME …` lines.

Both runs have the same access lists, interfaces and connected subnets, so that they agree up to the
route lookup.  They part when a route wins the lookup that does not win it without the lines, and
the access lists of the two egress interfaces treat the flow differently.

* `verdict_eq_iff_alike`: two environments that differ in static routes only.
* `verdict_withoutVrfRoutes_iff`: the two runs on a configuration.
-/

namespace SentinelNet.PolicyTest

open PyText

/-! ## Configurations -/

/-- The configuration without its `ip route vrf NAME …` lines. -/
def withoutVrfRoutes (configText : String) : String :=
  unlines ((splitlines configText).filter fun line => !isVrfRoute (rstrip line))

theorem configLines_withoutVrfRoutes (configText : String) :
    configLines (withoutVrfRoutes configText) = dropVrfRoutes (configLines configText) := by
  have hcomm (lines : List String) (p : String → Bool) :
      (lines.filter fun line => !p (rstrip line)).map rstrip =
        (lines.map rstrip).filter fun line => !p line := by
    rw [List.filter_map]
    rfl
  have hbreak : ∀ line ∈ (splitlines configText).filter fun line => !isVrfRoute (rstrip line),
      ∀ c ∈ line.toList, isLineBreak c = false := by
    intro line hline c hc
    obtain ⟨chars, hchars, rfl⟩ := List.mem_map.mp (List.mem_of_mem_filter hline)
    rw [String.toList_ofList] at hc
    exact isLineBreak_of_mem_splitlines hchars hc
  rw [configLines, withoutVrfRoutes, splitlines_unlines hbreak, hcomm]
  rfl

/-- A line of an interface block that puts the interface into a VRF. -/
def isVrfMember (line : String) : Bool :=
  startsWith (lower line) "vrf forwarding " || startsWith (lower line) "ip vrf forwarding "

/-- An interface of the global table: its block does not put it into a VRF. -/
def isGlobalInterface (configText name : String) : Bool :=
  (extractBlocks (configLines configText)).any fun b =>
    decide (b.kind = .interface) &&
      decide (strip (String.ofList (b.header.toList.drop 10)) = name) && !b.body.any isVrfMember

def EntersGlobal (configText : String) (env : IOSPolicyEnvironment) (flow : Flow) : Prop :=
  ∃ name, ingressOf env flow = some name ∧ isGlobalInterface configText name = true

/-! ## Environments that differ in static routes -/

section SameButStatics

variable {env env' : IOSPolicyEnvironment} (h : SameButStatics env env')

include h

theorem SameButStatics.ingressOf_eq (flow : Flow) : ingressOf env' flow = ingressOf env flow := by
  rw [ingressOf, ingressOf]
  rcases nonEmpty flow.ingressIntf with _ | n
  · dsimp only
    rw [deriveIngressIntf, deriveIngressIntf, h.connected]
  · rfl

theorem SameButStatics.passesInbound_iff (flow : Flow) :
    PassesInbound env' flow ↔ PassesInbound env flow := by
  rw [PassesInbound, PassesInbound, IngressKnown, IngressKnown, inboundRules, inboundRules,
    ingressFlow, ingressFlow, h.ingressOf_eq, h.interfaces, h.acls]

theorem SameButStatics.letsOut_iff (egress : String) (flow : Flow) :
    LetsOut env' egress flow ↔ LetsOut env egress flow := by
  rw [LetsOut, LetsOut, outboundRules, outboundRules, leavingFlow, leavingFlow, h.ingressOf_eq,
    h.interfaces, h.acls]

theorem SameButStatics.refusesOut_iff (egress : String) (flow : Flow) :
    RefusesOut env' egress flow ↔ RefusesOut env egress flow := by
  rw [RefusesOut, RefusesOut, outboundRules, outboundRules, leavingFlow, leavingFlow,
    h.ingressOf_eq, h.interfaces, h.acls]

end SameButStatics

theorem RouteTable.foldl_lookupStep_isSome {ip : Addr} {l : List Route} {best : Option Route}
    (h : best.isSome = true ∨ ∃ r ∈ l, r.cube.containsIp ip = true) :
    (l.foldl (lookupStep ip) best).isSome = true := by
  induction l generalizing best with
  | nil =>
    rcases h with h | ⟨r, hr, -⟩
    · exact h
    · cases hr
  | cons r l ih =>
    rw [List.foldl_cons]
    have hkeep : best.isSome = true ∨ r.cube.containsIp ip = true →
        (lookupStep ip best r).isSome = true := by
      intro hb
      unfold lookupStep
      split_ifs with hc
      · rcases best with _ | b
        · rfl
        · dsimp only
          split_ifs <;> rfl
      · exact hb.resolve_right hc
    rcases h with h | ⟨r', hr', hc⟩
    · exact ih (Or.inl (hkeep (Or.inl h)))
    · rcases List.mem_cons.mp hr' with rfl | hr'
      · exact ih (Or.inl (hkeep (Or.inr hc)))
      · exact ih (Or.inr ⟨r', hr', hc⟩)

theorem RouteTable.lookup_eq_none_of_sublist {t t' : RouteTable} (h : t'.routes.Sublist t.routes)
    {dstIp : String} (hnone : t.lookup dstIp = none) : t'.lookup dstIp = none := by
  rcases hr : t'.lookup dstIp with _ | r
  · rfl
  · obtain ⟨hmem, ip, hip, hc⟩ := RouteTable.mem_of_lookup hr
    have hsome : (t.routes.foldl (RouteTable.lookupStep ip) none).isSome = true :=
      RouteTable.foldl_lookupStep_isSome (Or.inr ⟨r, h.subset hmem, hc⟩)
    rw [RouteTable.lookup, hip] at hnone
    dsimp only at hnone
    rw [hnone] at hsome
    exact absurd hsome (by decide)

/-- The access list of the interface of a route treats the flow as that of the other route does;
without another route it neither lets the flow through nor refuses it. -/
def Alike (env : IOSPolicyEnvironment) (flow : Flow) (r : Route) : Option Route → Prop
  | none => ¬ LetsOut env r.interface flow ∧ ¬ RefusesOut env r.interface flow
  | some r' =>
    (LetsOut env r.interface flow ↔ LetsOut env r'.interface flow) ∧
      (RefusesOut env r.interface flow ↔ RefusesOut env r'.interface flow)

/-- The lookups of the two tables lead the flow to the same treatment. -/
def SameWayOut (env env' : IOSPolicyEnvironment) (flow : Flow) : Prop :=
  PassesInbound env flow → ∀ r, env.routeTable.lookup flow.dstIp = some r →
    env'.routeTable.lookup flow.dstIp ≠ some r →
      Alike env flow r (env'.routeTable.lookup flow.dstIp)

theorem iosRefuses_of_passes {env : IOSPolicyEnvironment} {flow : Flow}
    (hpass : PassesInbound env flow) :
    IosRefuses env flow ↔ ∃ route, env.routeTable.lookup flow.dstIp = some route ∧
      RefusesOut env route.interface flow := by
  rw [IosRefuses]
  constructor
  · rintro (⟨rules, hr, href⟩ | ⟨-, h⟩)
    · exact absurd href (hpass.2 rules hr).not_refuses
    · exact h
  · exact fun h => Or.inr ⟨hpass, h⟩

/-- Two environments that differ in static routes give the same verdict exactly when the lookups lead
the flow to the same treatment. -/
theorem verdict_eq_iff_sameWayOut {env env' : IOSPolicyEnvironment} (h : SameButStatics env env')
    (flow : Flow) :
    (evaluateIos env flow).verdict = (evaluateIos env' flow).verdict ↔
      SameWayOut env env' flow := by
  rw [Verdict.eq_iff, evaluateIos_permit, evaluateIos_permit, evaluateIos_deny, evaluateIos_deny]
  by_cases hpass : PassesInbound env flow
  · have hpass' : PassesInbound env' flow := (h.passesInbound_iff flow).mpr hpass
    rw [iosRefuses_of_passes hpass, iosRefuses_of_passes hpass', IosLets, IosLets, SameWayOut]
    simp only [hpass, hpass', true_and, forall_true_left, h.letsOut_iff, h.refusesOut_iff]
    rcases hr : env.routeTable.lookup flow.dstIp with _ | r
    · rw [RouteTable.lookup_eq_none_of_sublist h.routes hr]
      simp
    · rcases hr' : env'.routeTable.lookup flow.dstIp with _ | r'
      · simp [Alike]
      · by_cases heq : r' = r
        · subst heq
          simp
        · simp [Alike, heq]
  · have hpass' : ¬ PassesInbound env' flow := fun hp => hpass ((h.passesInbound_iff flow).mp hp)
    have hin : inboundRules env' (ingressOf env' flow) = inboundRules env (ingressOf env flow) := by
      rw [inboundRules, inboundRules, h.ingressOf_eq, h.interfaces, h.acls]
    have hflow : ingressFlow env' flow = ingressFlow env flow := by
      rw [ingressFlow, ingressFlow, h.ingressOf_eq]
    simp [IosLets, IosRefuses, SameWayOut, hpass, hpass', hin, hflow]

/-! ## The two runs -/

/-- For every configuration and every flow: the verdict is the same without the VRF route lines
exactly when the inbound stage ends the evaluation, or the same route wins the lookup, or the access
lists of the two egress interfaces treat the flow alike. -/
theorem verdict_withoutVrfRoutes_iff {configText : String} {env : IOSPolicyEnvironment}
    (hone : oneLine (configLines configText) = true) (h : parseIosConfig configText = .ok env)
    (flow : Flow) :
    ∃ env', parseIosConfig (withoutVrfRoutes configText) = .ok env' ∧
      ((evaluateIos env flow).verdict = (evaluateIos env' flow).verdict ↔
        SameWayOut env env' flow) := by
  obtain ⟨env', henv', hsame⟩ := parseIosLines_filter hone h
  rw [← configLines_withoutVrfRoutes] at henv'
  exact ⟨env', henv', verdict_eq_iff_sameWayOut hsame flow⟩

/-- The lines of a device that reaches `192.168.0.0/16` in a VRF only. -/
def vrfOnlyLines : List String :=
  ["interface G0", " ip address 10.0.0.1 255.255.255.0",
    "ip route vrf BLUE 192.168.0.0 255.255.0.0 10.0.0.9"]

/-- The configuration of the device. -/
def vrfOnly : String := unlines vrfOnlyLines

/-- A flow of the global table to an address that only the VRF reaches. -/
def intoVrf : Flow := { srcIp := "10.0.0.2", dstIp := "192.168.0.1", ingressIntf := some "G0" }

theorem configLines_vrfOnly : configLines vrfOnly = vrfOnlyLines :=
  configLines_unlines (by decide) (by decide)

theorem parseIosConfig_vrfOnly :
    parseIosConfig vrfOnly = parseIosLines vrfOnlyLines := by
  rw [parseIosConfig_eq, configLines_vrfOnly]

theorem parseIosConfig_withoutVrfOnly :
    parseIosConfig (withoutVrfRoutes vrfOnly) =
      parseIosLines (dropVrfRoutes vrfOnlyLines) := by
  rw [parseIosConfig_eq, configLines_withoutVrfRoutes, configLines_vrfOnly]

theorem vrfOnly_permit :
    ∃ env, parseIosConfig vrfOnly = .ok env ∧ (evaluateIos env intoVrf).verdict = .permit := by
  have heval : ((parseIosLines vrfOnlyLines).toOption.any fun env =>
      decide ((evaluateIos env intoVrf).verdict = .permit)) = true := by
    decide
  rw [← parseIosConfig_vrfOnly] at heval
  obtain ⟨env, henv, hpermit⟩ := (Option.any_eq_true _ _).mp heval
  exact ⟨env, eq_ok_of_toOption henv, of_decide_eq_true hpermit⟩

theorem withoutVrfOnly_unknown :
    ∃ env, parseIosConfig (withoutVrfRoutes vrfOnly) = .ok env ∧
      (evaluateIos env intoVrf).verdict = .unknown := by
  have heval : ((parseIosLines (dropVrfRoutes vrfOnlyLines)).toOption.any fun env =>
      decide ((evaluateIos env intoVrf).verdict = .unknown)) = true := by
    decide
  rw [← parseIosConfig_withoutVrfOnly] at heval
  obtain ⟨env, henv, hunknown⟩ := (Option.any_eq_true _ _).mp heval
  exact ⟨env, eq_ok_of_toOption henv, of_decide_eq_true hunknown⟩

/-- The device with the VRF route is one of those the equivalence is about. -/
theorem verdict_withoutVrfRoutes_iff_vrfOnly :
    ∃ env env', parseIosConfig vrfOnly = .ok env ∧
      parseIosConfig (withoutVrfRoutes vrfOnly) = .ok env' ∧
      ((evaluateIos env intoVrf).verdict = (evaluateIos env' intoVrf).verdict ↔
        SameWayOut env env' intoVrf) := by
  obtain ⟨env, henv, -⟩ := vrfOnly_permit
  have hone : oneLine (configLines vrfOnly) = true := by
    rw [configLines_vrfOnly]
    decide
  obtain ⟨env', henv', hiff⟩ :=
    verdict_withoutVrfRoutes_iff hone henv intoVrf
  exact ⟨env, env', henv, henv', hiff⟩

/-- The route of the VRF permits a flow that the global table has no route for. -/
theorem vrfOnly_permitted :
    ¬ ∀ (configText : String) (env env' : IOSPolicyEnvironment) (flow : Flow),
      parseIosConfig configText = .ok env →
        parseIosConfig (withoutVrfRoutes configText) = .ok env' →
          EntersGlobal configText env flow →
            (evaluateIos env flow).verdict = (evaluateIos env' flow).verdict := by
  intro hall
  obtain ⟨env, henv, hpermit⟩ := vrfOnly_permit
  obtain ⟨env', henv', hunknown⟩ := withoutVrfOnly_unknown
  have hglobal : EntersGlobal vrfOnly env intoVrf := by
    refine ⟨"G0", rfl, ?_⟩
    rw [isGlobalInterface, configLines_vrfOnly]
    decide
  have hsame := hall vrfOnly env env' intoVrf henv henv' hglobal
  rw [hpermit, hunknown] at hsame
  exact Verdict.noConfusion hsame

end SentinelNet.PolicyTest
