import SentinelNet.Lib.FirstMatch
import SentinelNet.PolicyTest.Engine

/-!
# UNKNOWN is honest

A rule whose objects could not be resolved stands for many concrete rules.  A completion of a rule
list puts one of them in the place of each such rule: any action, and a match set inside the flows
that `may_match` admits.  A walk that ends at a decidable rule, or at the end of the list, ends at
the same place in every completion, so that PERMIT and DENY say nothing about rules the parser
could not read.

* `walk_eq_plainVerdict`: the walk against any completion.
* `verdict_eq_completion`: the same for access lists and policies.
-/

namespace SentinelNet.PolicyTest

/-- A rule with a match set of its own. -/
structure ConcreteRule where
  hits : Flow → Bool
  action : Action
  disabled : Bool := false

/-- The concrete rules a parsed rule stands for: one for a decidable rule, and every rule inside
`may_match` for an undecidable one.  A disabled policy is known to be disabled. -/
def Completes (r : Rule) (c : ConcreteRule) : Prop :=
  c.disabled = r.disabled ∧
    if r.isDecidable then c.hits = r.fields.matchesFlow ∧ c.action = r.action
    else ∀ flow, c.hits flow = true → r.fields.mayMatch flow = true

/-- Plain first-match evaluation: the action of the first rule that hits, and DENY when there is
none. -/
def plainVerdict (denies : Action → Bool) (rules : List ConcreteRule) (flow : Flow) : Verdict :=
  match rules.find? fun c => c.hits flow with
  | some c => if denies c.action then .deny else .permit
  | none => .deny

/-- The policies that are not disabled. -/
def enabledRules (rules : List ConcreteRule) : List ConcreteRule :=
  rules.filter fun c => !c.disabled

/-- `action == "deny"`, the test of an access list. -/
def aclDenies (a : Action) : Bool := decide (a = .deny)

def policyDenies (a : Action) : Bool := decide (a = .deny ∨ a = .drop)

/-- A walk over rules the parser read ends at a decidable rule or at the end of the list. -/
def EndsDecided (matched : Option Rule) : Prop := ∀ r ∈ matched, r.isDecidable = true

variable {flow : Flow}

theorem ruleStopsWalk_of_completes {r : Rule} {c : ConcreteRule}
    (h : Completes r c) (hc : c.hits flow) : ruleStopsWalk r flow = true := by
  rw [ruleStopsWalk]
  obtain ⟨-, h⟩ := h
  by_cases hd : r.isDecidable = true
  · rw [if_pos hd] at h ⊢
    rw [← h.1]
    exact hc
  · rw [if_neg hd] at h ⊢
    exact h flow hc

theorem hits_of_completes {r : Rule} {c : ConcreteRule} (hd : r.isDecidable)
    (hs : ruleStopsWalk r flow) (h : Completes r c) : c.hits flow = true := by
  obtain ⟨-, h⟩ := h
  rw [if_pos hd] at h
  rw [ruleStopsWalk, if_pos hd] at hs
  rw [h.1]
  exact hs

/-- A walk that ends decided gives the verdict of every completion. -/
theorem walk_eq_plainVerdict (denies : Action → Bool) {rules : List Rule}
    {cs : List ConcreteRule} (hcs : List.Forall₂ Completes rules cs)
    (hend : EndsDecided (firstMatch rules flow)) :
    plainVerdict denies cs flow =
      match firstMatch rules flow with
      | some r => if denies r.action then .deny else .permit
      | none => .deny := by
  have hstop : ∀ r c, Completes r c → c.hits flow = true → ruleStopsWalk r flow = true :=
    fun r c h hc => ruleStopsWalk_of_completes h hc
  rw [plainVerdict]
  rcases hm : firstMatch rules flow with _ | r
  · rw [FirstMatch.find?_none_of_forall₂ hstop hcs hm]
  · have hd : r.isDecidable = true := hend r hm
    have hs : ruleStopsWalk r flow = true := (stops_of_firstMatch hm).2
    obtain ⟨c, hfind, hrc⟩ := FirstMatch.find?_some_of_forall₂ hstop hcs hm
      fun c hc => hits_of_completes hd hs hc
    have haction : c.action = r.action := by
      have h := hrc.2
      rw [if_pos hd] at h
      exact h.2
    rw [hfind]
    dsimp only
    rw [haction]

theorem forall₂_filter_enabled {rules : List Rule} {cs : List ConcreteRule}
    (h : List.Forall₂ Completes rules cs) :
    List.Forall₂ Completes (rules.filter fun r => !r.disabled) (enabledRules cs) := by
  induction h with
  | nil => exact List.Forall₂.nil
  | @cons r c rules cs hrc _ ih =>
    have hdis : c.disabled = r.disabled := hrc.1
    rw [enabledRules] at ih ⊢
    rcases hd : r.disabled with _ | _
    · rw [List.filter_cons_of_pos (by simp [hd]), List.filter_cons_of_pos (by simp [hdis, hd])]
      exact List.Forall₂.cons hrc ih
    · rw [List.filter_cons_of_neg (by simp [hd]), List.filter_cons_of_neg (by simp [hdis, hd])]
      exact ih

/-- UNKNOWN is honest: when the walk over an access list, or over the policies that are not
disabled, ends at a decidable rule or at the implicit deny, every completion of the list has the
verdict of the trace. -/
theorem verdict_eq_completion :
    (∀ (kind : StepKind) (name : String) (acl : RuleSet) (flow : Flow) (cs : List ConcreteRule),
      List.Forall₂ Completes acl.rules cs → EndsDecided (firstMatch acl.rules flow) →
        plainVerdict aclDenies cs flow = (walkAcl kind name acl flow).verdict) ∧
    (∀ (policies : List Rule) (table : RouteTable) (flow : Flow) (unresolved : List String)
      (route : Route) (cs : List ConcreteRule),
      table.lookup flow.dstIp = some route → List.Forall₂ Completes policies cs →
        EndsDecided (policyLoop (policyFlow table route flow) policies).2 →
          plainVerdict policyDenies (enabledRules cs) (policyFlow table route flow) =
            (evaluateFortiosChain policies table flow unresolved).verdict) := by
  constructor
  · intro kind name acl flow cs hcs hend
    rw [walk_eq_plainVerdict aclDenies hcs hend, walkAcl_verdict]
    rcases hm : firstMatch acl.rules flow with _ | r
    · rfl
    · have hd : r.isDecidable = true := hend r hm
      simp [hd, aclDenies]
  · intro policies table flow unresolved route cs hroute hcs hend
    rw [evaluateFortiosChain_verdict policies unresolved hroute]
    rw [policyLoop_snd] at hend ⊢
    rw [walk_eq_plainVerdict policyDenies (forall₂_filter_enabled hcs) hend]
    rcases hm : firstMatch (policies.filter fun p => !p.disabled) (policyFlow table route flow)
      with _ | r
    · rfl
    · have hd : r.isDecidable = true := hend r hm
      simp [hd, policyDenies]

def unreadHostDeny : Rule where
  id := "10"
  action := .deny
  fields := { srcIps := [Cube.make 0x0a000001 (BitVec.allOnes 32)] }
  unresolved := ["ACE qualifier not evaluated: fragments"]

def permitAll : Rule where
  id := "20"

def defaultRoute : Route where
  network := "0.0.0.0/0"
  cube := Cube.any
  interface := "wan1"

/-- The completion in which the first rule denies all it may. -/
def strictCompletion : List ConcreteRule :=
  [⟨unreadHostDeny.fields.mayMatch, .deny, false⟩, ⟨permitAll.fields.matchesFlow, .permit, false⟩]

theorem strictCompletion_completes :
    List.Forall₂ Completes [unreadHostDeny, permitAll] strictCompletion := by
  refine List.Forall₂.cons ⟨rfl, ?_⟩ (List.Forall₂.cons ⟨rfl, ?_⟩ List.Forall₂.nil)
  · rw [if_neg (by decide)]
    exact fun _ h => h
  · rw [if_pos (by decide)]
    exact ⟨rfl, rfl⟩

theorem verdict_eq_completion_past_unread_deny :
    plainVerdict aclDenies strictCompletion { srcIp := "10.0.0.2", dstIp := "10.0.0.9" } =
        (walkAcl .aclIn "EDGE" { name := "EDGE", rules := [unreadHostDeny, permitAll] }
          { srcIp := "10.0.0.2", dstIp := "10.0.0.9" }).verdict ∧
      plainVerdict policyDenies (enabledRules strictCompletion)
          (policyFlow { routes := [defaultRoute] } defaultRoute
            { srcIp := "10.0.0.2", dstIp := "10.0.0.9" }) =
        (evaluateFortiosChain [unreadHostDeny, permitAll] { routes := [defaultRoute] }
          { srcIp := "10.0.0.2", dstIp := "10.0.0.9" } []).verdict := by
  have hacl : EndsDecided (firstMatch [unreadHostDeny, permitAll]
      { srcIp := "10.0.0.2", dstIp := "10.0.0.9" }) := by
    unfold EndsDecided
    decide
  have hpolicies : EndsDecided (policyLoop (policyFlow { routes := [defaultRoute] } defaultRoute
      { srcIp := "10.0.0.2", dstIp := "10.0.0.9" }) [unreadHostDeny, permitAll]).2 := by
    unfold EndsDecided
    decide
  exact ⟨verdict_eq_completion.1 _ _ _ _ _ strictCompletion_completes hacl,
    verdict_eq_completion.2 _ _ _ _ defaultRoute _ (by decide) strictCompletion_completes
      hpolicies⟩

end SentinelNet.PolicyTest
