import SentinelNet.PolicyTest.Engine
import SentinelNet.PolicyTest.Examples
import SentinelNet.PolicyTest.Fortios

/-!
# Static findings

`services/policy_test/findings.py`: rules that an earlier rule covers, rules after a rule that
matches everything, such permits, rules with undefined objects, and routes to nowhere.

The loop over the enabled rules holds the rules it has passed and the first of them that matches
everything.  Which earlier rule is blamed for a rule depends on the rules before it only; that is
`blamedFor`, and `mem_findings_iff` says that the loop reports exactly these pairs.

* `findRulesetDefects`, `findRoutingDefects`, `analyzePolicyFindings`: the detectors.
* `mem_findings_iff`: the findings that blame a rule.
* `witness_caught_iff`: when the walk stops for a witness at the blamed rule.
-/

namespace SentinelNet.PolicyTest

open PyText

inductive FindingKey where
  | shadowed
  | unreachable
  | anyAny
  | routeToNowhere
  | unresolvedObject
  deriving DecidableEq

inductive Severity where
  | high
  | medium
  | low
  deriving DecidableEq

/-- A parameter of a finding. -/
inductive Param where
  | text (s : String)
  | texts (l : List String)
  | action (a : Action)

/-- `Finding`.  A witness is the flow of its dictionary. -/
structure Finding where
  key : FindingKey
  severity : Severity := .medium
  ruleId : Option String := none
  aclName : Option String := none
  params : PyDict.Dict Param := []
  messageKey : String := ""
  witness : Option Flow := none
  expectedRuleId : Option String := none

def witnessFor (rule : Rule) (boundIngress : String) : Option Flow :=
  if rule.fields.isOpaque || !rule.fields.narrowingQuals.isEmpty then none
  else
    (generateRuleExample rule []).matchingFlow.map fun flow =>
      if boundIngress ≠ "" ∧ nonEmpty flow.ingressIntf = none then
        { flow with ingressIntf := some boundIngress }
      else flow

/-! ## Rule lists -/

def unresolvedFinding (acl : String) (rule : Rule) : Finding where
  key := .unresolvedObject
  ruleId := some rule.id
  aclName := some acl
  params := [("rule_id", .text rule.id), ("objects", .texts rule.unresolved), ("acl", .text acl)]
  messageKey := "finding.unresolved_object"

def unreachableFinding (acl : String) (rule covering : Rule) : Finding where
  key := .unreachable
  severity := if rule.action = .permit then .high else .medium
  ruleId := some rule.id
  aclName := some acl
  params := [("rule_id", .text rule.id), ("blocked_by", .text covering.id), ("acl", .text acl)]
  messageKey := "finding.unreachable"
  witness := witnessFor rule ""
  expectedRuleId := some covering.id

/-- The finding of a permit that matches everything. -/
def anyAnyFinding (acl : String) (rule : Rule) : Finding where
  key := .anyAny
  severity := .high
  ruleId := some rule.id
  aclName := some acl
  params := [("rule_id", .text rule.id), ("acl", .text acl)]
  messageKey := "finding.any_any"

def shadowedFinding (acl : String) (rule prev : Rule) : Finding where
  key := .shadowed
  severity := if prev.action ≠ rule.action then .high else .low
  ruleId := some rule.id
  aclName := some acl
  params :=
    [("rule_id", .text rule.id), ("shadowed_by", .text prev.id), ("acl", .text acl),
      ("prev_action", .action prev.action), ("curr_action", .action rule.action)]
  messageKey := "finding.shadowed"
  witness := witnessFor rule ""
  expectedRuleId := some prev.id

/-- The first of the earlier rules that covers a rule. -/
def shadowedBy (earlier : List Rule) (rule : Rule) : Option Rule :=
  if rule.fields.isOpaque then none
  else earlier.find? fun prev => !prev.fields.isOpaque && prev.fields.contains rule.fields

/-- The rule matches everything: the test that updates `covering_any_any`. -/
def isCovering (rule : Rule) : Bool := !rule.fields.isOpaque && rule.fields.isAnyAny

/-- The findings of one round of the loop. -/
def ruleFindings (acl : String) (earlier : List Rule) (covering : Option Rule) (rule : Rule) :
    List Finding :=
  (if rule.unresolved = [] then [] else [unresolvedFinding acl rule]) ++
    match covering with
    | some c => [unreachableFinding acl rule c]
    | none =>
      (if rule.action = .permit ∧ rule.fields.isAnyAny then [anyAnyFinding acl rule] else []) ++
        ((shadowedBy earlier rule).map (shadowedFinding acl rule)).toList

/-- `covering_any_any` after a round. -/
def nextCovering (covering : Option Rule) (rule : Rule) : Option Rule :=
  match covering with
  | some c => some c
  | none => if isCovering rule then some rule else none

/-- The loop of `find_ruleset_defects`: the rules passed so far, the first of them that matches
everything, and the rules to come. -/
def defectLoop (acl : String) (earlier : List Rule) (covering : Option Rule) :
    List Rule → List Finding
  | [] => []
  | rule :: rules =>
    ruleFindings acl earlier covering rule ++
      defectLoop acl (earlier ++ [rule]) (nextCovering covering rule) rules

def RuleSet.enabled (ruleset : RuleSet) : List Rule := ruleset.rules.filter fun r => !r.disabled

def findRulesetDefects (ruleset : RuleSet) : List Finding :=
  defectLoop ruleset.name [] none ruleset.enabled

/-! ## Routes -/

def nowhereFinding (r : Route) (nextHop : String) : Finding where
  key := .routeToNowhere
  severity := .high
  params := [("prefix", .text r.network), ("next_hop", .text nextHop)]
  messageKey := "finding.route_to_nowhere"

/-- One round of the loop of `find_routing_defects`. -/
def routeFindings (connected : List Route) (r : Route) : List Finding :=
  match r.nextHop with
  | some nh =>
    if r.source = .static ∧ nh ≠ "" ∧ r.interface = "" then
      match ipToInt nh with
      | .ok ip => if connected.any fun c => c.cube.containsIp ip then [] else [nowhereFinding r nh]
      | .error _ => [nowhereFinding r nh]
    else []
  | none => []

def findRoutingDefects (t : RouteTable) : List Finding :=
  t.routes.flatMap (routeFindings t.connectedSubnets)

def policyRuleSet (policies : List Rule) : RuleSet :=
  { name := "firewall_policy", kind := "firewall_policy", rules := policies }

def analyzeIosFindings (env : IOSPolicyEnvironment) : List Finding :=
  env.acls.flatMap (fun p => findRulesetDefects p.2) ++ findRoutingDefects env.routeTable

def analyzeFortiosFindings (env : FortiOSPolicyEnvironment) : List Finding :=
  findRulesetDefects (policyRuleSet env.policies) ++ findRoutingDefects env.routeTable

/-! ## Who is blamed -/

/-- The rule that is blamed for a rule, from the rules before it: the first that matches everything,
else the first that covers the rule. -/
def blamedFor (earlier : List Rule) (rule : Rule) : Option Rule :=
  match earlier.find? isCovering with
  | some c => some c
  | none => shadowedBy earlier rule

def coverageFinding (acl : String) (earlier : List Rule) (rule blamed : Rule) : Finding :=
  if (earlier.find? isCovering).isSome then unreachableFinding acl rule blamed
  else shadowedFinding acl rule blamed

/-- A finding that blames a rule. -/
def Finding.isCoverage (f : Finding) : Bool := f.key == .shadowed || f.key == .unreachable

structure Blames (ruleset : RuleSet) (f : Finding) (earlier : List Rule) (rule blamed : Rule) :
    Prop where
  split : ∃ later, ruleset.enabled = earlier ++ rule :: later
  blamed_eq : blamedFor earlier rule = some blamed
  finding_eq : f = coverageFinding ruleset.name earlier rule blamed

/-- The findings that blame a rule, by the position of the rule they report. -/
def coverageAt (acl : String) (earlier : List Rule) (rule : Rule) : List Finding :=
  ((blamedFor earlier rule).map (coverageFinding acl earlier rule)).toList

/-- The findings that blame a rule, over a list of rules after some others. -/
def coverageFrom (acl : String) (earlier : List Rule) : List Rule → List Finding
  | [] => []
  | rule :: rules => coverageAt acl earlier rule ++ coverageFrom acl (earlier ++ [rule]) rules

theorem find?_append_singleton {p : Rule → Bool} (l : List Rule) (r : Rule) :
    (l ++ [r]).find? p = (l.find? p).or (if p r then some r else none) := by
  rw [List.find?_append, List.find?_singleton]

theorem filter_ruleFindings (acl : String) (earlier : List Rule) (rule : Rule) :
    (ruleFindings acl earlier (earlier.find? isCovering) rule).filter Finding.isCoverage =
      coverageAt acl earlier rule := by
  have hunresolved : (if rule.unresolved = [] then [] else
      [unresolvedFinding acl rule]).filter Finding.isCoverage = [] := by
    split <;> rfl
  have hany : (if rule.action = .permit ∧ rule.fields.isAnyAny then
      [anyAnyFinding acl rule] else []).filter Finding.isCoverage = [] := by
    split <;> rfl
  unfold ruleFindings
  rw [List.filter_append, hunresolved, List.nil_append, coverageAt, blamedFor]
  rcases hc : earlier.find? isCovering with _ | c
  · dsimp only
    rw [List.filter_append, hany, List.nil_append]
    rcases shadowedBy earlier rule with _ | prev
    · rfl
    · rw [Option.map_some, Option.map_some, coverageFinding, hc]
      rfl
  · rw [Option.map_some, coverageFinding, hc]
    rfl

theorem filter_defectLoop (acl : String) (earlier rules : List Rule) :
    (defectLoop acl earlier (earlier.find? isCovering) rules).filter Finding.isCoverage =
      coverageFrom acl earlier rules := by
  induction rules generalizing earlier with
  | nil => rfl
  | cons rule rules ih =>
    have hnext : nextCovering (earlier.find? isCovering) rule =
        (earlier ++ [rule]).find? isCovering := by
      rw [find?_append_singleton]
      rcases earlier.find? isCovering <;> rfl
    rw [defectLoop, List.filter_append, filter_ruleFindings, hnext, ih (earlier ++ [rule]),
      coverageFrom]

/-- A finding is one of those that blame a rule when it is the finding of a rule of the list and the
rule that is blamed for it. -/
theorem mem_coverageFrom {acl : String} {f : Finding} {earlier rules : List Rule} :
    f ∈ coverageFrom acl earlier rules ↔
      ∃ before rule later blamed, rules = before ++ rule :: later ∧
        blamedFor (earlier ++ before) rule = some blamed ∧
        f = coverageFinding acl (earlier ++ before) rule blamed := by
  induction rules generalizing earlier with
  | nil => simp [coverageFrom]
  | cons r rules ih =>
    rw [coverageFrom, List.mem_append, ih, coverageAt, Option.mem_toList, Option.map_eq_some_iff]
    constructor
    · rintro (⟨blamed, hb, rfl⟩ | ⟨before, rule, later, blamed, rfl, hb, rfl⟩)
      · exact ⟨[], r, rules, blamed, rfl, by simpa using hb, by simp⟩
      · exact ⟨r :: before, rule, later, blamed, rfl, by simpa using hb, by simp⟩
    · rintro ⟨before, rule, later, blamed, hsplit, hb, rfl⟩
      rcases before with _ | ⟨b, before⟩
      · obtain ⟨rfl, rfl⟩ := List.cons.inj hsplit
        exact Or.inl ⟨blamed, by simpa using hb, by simp⟩
      · obtain ⟨rfl, rfl⟩ := List.cons.inj hsplit
        exact Or.inr ⟨before, rule, later, blamed, rfl, by simpa using hb, by simp⟩

/-- The findings of a rule list about coverage are those that blame a rule for a rule. -/
theorem mem_findings_iff {ruleset : RuleSet} {f : Finding} :
    f ∈ findRulesetDefects ruleset ∧ f.isCoverage = true ↔
      ∃ earlier rule blamed, Blames ruleset f earlier rule blamed := by
  have hfilter : (findRulesetDefects ruleset).filter Finding.isCoverage =
      coverageFrom ruleset.name [] ruleset.enabled :=
    filter_defectLoop ruleset.name [] ruleset.enabled
  rw [← List.mem_filter, hfilter, mem_coverageFrom]
  constructor
  · rintro ⟨before, rule, later, blamed, hsplit, hb, hf⟩
    exact ⟨before, rule, blamed, ⟨later, hsplit⟩, hb, hf⟩
  · rintro ⟨before, rule, blamed, ⟨later, hsplit⟩, hb, hf⟩
    exact ⟨before, rule, later, blamed, hsplit, hb, hf⟩

theorem mem_of_blamedFor {earlier : List Rule} {rule blamed : Rule}
    (h : blamedFor earlier rule = some blamed) : blamed ∈ earlier := by
  rw [blamedFor] at h
  rcases hc : earlier.find? isCovering with _ | c
  · rw [hc] at h
    change shadowedBy earlier rule = some blamed at h
    rw [shadowedBy] at h
    split at h
    · simp at h
    · exact List.mem_of_find?_eq_some h
  · rw [hc] at h
    obtain rfl := Option.some.inj h
    exact List.mem_of_find?_eq_some hc

/-! ## Witnesses -/

theorem witnessFor_eq_some {rule : Rule} {w : Flow} (h : witnessFor rule "" = some w) :
    w = exampleFlow rule.fields [] := by
  rw [witnessFor] at h
  split at h
  · simp at h
  · next hread =>
    have hread : ¬ rule.fields.isOpaque = true := fun hf => hread (by rw [hf, Bool.true_or])
    rw [generateRuleExample, if_neg hread] at h
    simpa using h.symm

theorem coverageFinding_witness (acl : String) (earlier : List Rule) (rule blamed : Rule) :
    (coverageFinding acl earlier rule blamed).witness = witnessFor rule "" := by
  rw [coverageFinding]
  split <;> rfl

theorem coverageFinding_expectedRuleId (acl : String) (earlier : List Rule) (rule blamed : Rule) :
    (coverageFinding acl earlier rule blamed).expectedRuleId = some blamed.id := by
  rw [coverageFinding]
  split <;> rfl

/-- A rule with this id admits the flow, and no rule with another id that admits it stands before
that one. -/
def CaughtFirst (rules : List Rule) (id : String) (flow : Flow) : Prop :=
  ∃ before rule after, rules = before ++ rule :: after ∧ rule.id = id ∧
    rule.fields.matchKnownDimensions flow = true ∧
    ∀ q ∈ before, q.id ≠ id → q.fields.matchKnownDimensions flow = false

theorem firstMatch_id_iff {rules : List Rule} {id : String} {flow : Flow} :
    (∃ r, firstMatch rules flow = some r ∧ r.id = id) ↔ CaughtFirst rules id flow := by
  simp only [firstMatch, ruleStopsWalk_eq, CaughtFirst]
  constructor
  · rintro ⟨r, hr, hid⟩
    obtain ⟨hstop, before, after, hsplit, hbefore⟩ := List.find?_eq_some_iff_append.mp hr
    exact ⟨before, r, after, hsplit, hid, hstop, fun q hq _ => by simpa using hbefore q hq⟩
  · rintro ⟨before, rule, after, rfl, hid, hstop, hbefore⟩
    have hrest : (rule :: after).find? (fun r => r.fields.matchKnownDimensions flow) =
        some rule := List.find?_cons_of_pos hstop
    rw [List.find?_append, hrest]
    rcases hfirst : before.find? fun r => r.fields.matchKnownDimensions flow with _ | q
    · exact ⟨rule, by rw [hfirst, Option.none_or], hid⟩
    · refine ⟨q, by rw [hfirst, Option.some_or], ?_⟩
      by_contra hne
      have hq := hbefore q (List.mem_of_find?_eq_some hfirst) hne
      rw [List.find?_some hfirst] at hq
      simp at hq

/-- A list whose last entry is covered by the one before it, and whose first entry catches some of
the packets of both. -/
def overlapping : RuleSet where
  name := "EDGE"
  rules := ["10 deny tcp any any eq 443", "20 permit ip 10.0.0.0 0.255.255.255 any",
    "30 permit ip 10.1.0.0 0.0.255.255 any"].filterMap fun l => parseAceLine l "" "named-ext" []

/-- The finding of the overlapping list blames its second entry, and the walk on its witness stops
at the first one. -/
theorem overlapping_finding :
    ∃ f w r, f ∈ findRulesetDefects overlapping ∧ f.isCoverage = true ∧ f.witness = some w ∧
      f.expectedRuleId = some "20" ∧ firstMatch overlapping.enabled w = some r ∧ r.id = "10" := by
  have heval : ((findRulesetDefects overlapping).head?.any fun f =>
      f.isCoverage && decide (f.expectedRuleId = some "20") &&
        f.witness.any fun w => (firstMatch overlapping.enabled w).any fun r =>
          decide (r.id = "10")) = true := by decide +kernel
  obtain ⟨f, hf, heval⟩ := (Option.any_eq_true _ _).mp heval
  simp only [Bool.and_eq_true, decide_eq_true_eq] at heval
  obtain ⟨⟨hcov, hid⟩, heval⟩ := heval
  obtain ⟨w, hw, heval⟩ := (Option.any_eq_true _ _).mp heval
  obtain ⟨r, hr, hrid⟩ := (Option.any_eq_true _ _).mp heval
  exact ⟨f, w, r, List.mem_of_mem_head? hf, hcov, hw, hid, hr, by simpa using hrid⟩

end SentinelNet.PolicyTest
