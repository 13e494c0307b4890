import SentinelNet.PolicyTest.Findings
import SentinelNet.PolicyTest.IosEnvironment

/-!
# What a finding says about coverage

`FieldSet.contains` and `FieldSet.is_any_any` compared with the matching of flows, and the rule that
a finding blames compared with the rule it reports.

Containment is sound in every dimension, for every flow.  A rule that matches everything may have a
port set that starts at port 1, so it is sound for a flow with a port 0 only when the other rule
excludes this port as well; `CoversZero` says so.

* `matchesFlow_of_contains`: containment is sound.
* `matchesFlow_of_isAnyAny`: what a rule that matches everything matches.
* `coverage_honest_iff`: when a finding is right.
-/

namespace SentinelNet.PolicyTest

/-! ## Containment -/

theorem admits_of_coversDim {α β : Type} {test : α → β → Bool} {covers : α → α → Bool}
    (hsound : ∀ s o x, covers s o = true → test o x = true → test s x = true) {s o : Option α}
    {x : Option β} (h : coversDim covers s o) (ho : admits test o x) :
    admits test s x = true := by
  rcases s with _ | s
  · rfl
  · rcases o with _ | o
    · exact absurd h Bool.false_ne_true
    · rcases x with _ | x
      · rfl
      · exact hsound s o x h ho

theorem setHas_of_setCovers {α : Type} [DecidableEq α] (s o : List α) (x : α)
    (h : setCovers s o) (hx : setHas o x) : setHas s x = true :=
  List.all_eq_true.mp h x (of_decide_eq_true hx)

theorem intfHas_of_intfCovers (s o : List String) (x : String) (h : intfCovers s o)
    (hx : intfHas o x) : intfHas s x = true :=
  setHas_of_setCovers _ _ _ h hx

theorem hasPort_of_containsPortset (s o : PortSet) (port : ℤ) (h : s.containsPortset o)
    (hp : o.containsPort port) : s.containsPort port = true :=
  PortSet.containsPort_of_containsPortset h hp

theorem cubesHave_iff {cubes : List Cube} {ip : String} :
    cubesHave cubes ip = true ↔
      ∃ v, ipToInt ip = .ok v ∧ ∃ c ∈ cubes, c.containsIp v = true := by
  rw [cubesHave]
  rcases ipToInt ip with e | v <;> simp

theorem cubesHave_of_cubesCover {s o : List Cube} {ip : String} (h : cubesCover s o)
    (ho : cubesHave o ip) : cubesHave s ip = true := by
  obtain ⟨v, hip, oc, hoc, hv⟩ := cubesHave_iff.mp ho
  obtain ⟨sc, hsc, hcube⟩ := List.any_eq_true.mp (List.all_eq_true.mp h oc hoc)
  have hmem : v ∈ sc.addrs := Cube.addrs_subset_of_containsCube hcube (Cube.containsIp_iff.mp hv)
  exact cubesHave_iff.mpr ⟨v, hip, sc, hsc, Cube.containsIp_iff.mpr hmem⟩

/-- A field set that covers another one matches every flow that this one matches. -/
theorem matchesFlow_of_contains {f g : FieldSet} {flow : Flow} (h : f.contains g)
    (hg : g.matchesFlow flow) : f.matchesFlow flow = true := by
  simp only [FieldSet.contains, Bool.and_eq_true, Bool.not_eq_true', Bool.or_eq_false_iff,
    Bool.and_eq_false_iff] at h
  obtain ⟨⟨⟨⟨⟨⟨⟨⟨⟨⟨⟨hf, hgo⟩, -⟩, hest⟩, hproto⟩, hicmp⟩, hsrc⟩, hdst⟩, hsport⟩, hdport⟩, hin⟩, hout⟩ := h
  rw [FieldSet.matchesFlow, hgo, if_neg Bool.false_ne_true, FieldSet.matchKnownDimensions_iff] at hg
  obtain ⟨gest, gproto, gicmp, gsrc, gdst, gsport, gdport, gin, gout⟩ := hg
  rw [FieldSet.matchesFlow, hf, if_neg Bool.false_ne_true, FieldSet.matchKnownDimensions_iff]
  refine ⟨fun hfest => gest ?_, admits_of_coversDim setHas_of_setCovers hproto gproto,
    admits_of_coversDim setHas_of_setCovers hicmp gicmp, cubesHave_of_cubesCover hsrc gsrc,
    cubesHave_of_cubesCover hdst gdst, ?_, ?_, admits_of_coversDim intfHas_of_intfCovers hin gin,
    admits_of_coversDim intfHas_of_intfCovers hout gout⟩
  · rcases hest with hest | hest
    · rw [hfest] at hest
      simp at hest
    · simpa using hest
  · exact admits_of_coversDim hasPort_of_containsPortset hsport gsport
  · exact admits_of_coversDim hasPort_of_containsPortset hdport gdport

/-! ## Rules that match everything -/

structure Flow.PortsInRange (flow : Flow) : Prop where
  sport : ∀ p ∈ flow.sport, 0 ≤ p ∧ p ≤ 65535
  dport : ∀ p ∈ flow.dport, 0 ≤ p ∧ p ≤ 65535

/-- A port dimension without port 0 is only blamed for one that excludes port 0 as well. -/
def CoversZero (s o : Option PortSet) : Prop :=
  ∀ p ∈ s, p.containsPort 0 = false → ∃ q ∈ o, q.containsPort 0 = false

theorem containsPort_of_isAny {s : PortSet} (h : s.isAny) {port : ℤ} (hlo : 1 ≤ port)
    (hhi : port ≤ 65535) : s.containsPort port = true := by
  obtain ⟨intervals⟩ := s
  rcases intervals with _ | ⟨p, _ | ⟨q, rest⟩⟩
  · exact absurd h Bool.false_ne_true
  · rw [PortSet.isAny, Bool.and_eq_true, decide_eq_true_eq, beq_iff_eq] at h
    rw [PortSet.containsPort, List.any_cons, Bool.or_eq_true, Bool.and_eq_true,
      decide_eq_true_eq, decide_eq_true_eq]
    exact Or.inl ⟨by omega, by omega⟩
  · exact absurd h Bool.false_ne_true

theorem admits_ports_of_isAny {s o : Option PortSet} {port : Option ℤ}
    (hany : s.all PortSet.isAny) (hzero : CoversZero s o)
    (hrange : ∀ p ∈ port, 0 ≤ p ∧ p ≤ 65535)
    (ho : admits PortSet.containsPort o port) :
    admits PortSet.containsPort s port = true := by
  rcases s with _ | s
  · rfl
  · rcases port with _ | port
    · rfl
    · obtain ⟨hlo, hhi⟩ := hrange port rfl
      by_cases hpos : 1 ≤ port
      · exact containsPort_of_isAny hany hpos hhi
      · obtain rfl : port = 0 := by omega
        rcases hs : s.containsPort 0 with _ | _
        · obtain ⟨q, hq, hq0⟩ := hzero s rfl hs
          rw [Option.mem_def.mp hq] at ho
          exact absurd (hq0.symm.trans ho) Bool.false_ne_true
        · exact hs

theorem cubesHave_of_isAny {cubes : List Cube} (hne : cubes ≠ [])
    (hany : cubes.all Cube.isAny) {o : List Cube} {ip : String}
    (ho : cubesHave o ip) : cubesHave cubes ip = true := by
  obtain ⟨v, hip, -⟩ := cubesHave_iff.mp ho
  obtain ⟨c, hc⟩ := List.exists_mem_of_ne_nil cubes hne
  exact cubesHave_iff.mpr
    ⟨v, hip, c, hc, Cube.containsIp_of_isAny (List.all_eq_true.mp hany c hc) v⟩

/-- A rule that matches everything matches a flow that another rule matches, unless a port 0
comes between them. -/
theorem matchesFlow_of_isAnyAny {f g : FieldSet} {flow : Flow} (h : f.isAnyAny)
    (hsrc : f.srcIps ≠ []) (hdst : f.dstIps ≠ []) (hs : CoversZero f.srcPorts g.srcPorts)
    (hd : CoversZero f.dstPorts g.dstPorts) (hrange : flow.PortsInRange)
    (hg : g.matchesFlow flow) : f.matchesFlow flow = true := by
  rw [FieldSet.isAnyAny] at h
  split at h
  · exact absurd h Bool.false_ne_true
  · next hread =>
    simp only [Bool.and_eq_true, Bool.not_eq_true', Option.isNone_iff_eq_none] at h
    obtain ⟨⟨⟨⟨⟨⟨⟨hsany, hdany⟩, hspany⟩, hdpany⟩, hproto, hicmp⟩, hin, hout⟩, hest⟩, -⟩ := h
    rw [FieldSet.matchesFlow] at hg
    split at hg
    · exact absurd hg Bool.false_ne_true
    · rw [FieldSet.matchKnownDimensions_iff] at hg
      obtain ⟨-, -, -, gsrc, gdst, gsport, gdport, -, -⟩ := hg
      rw [FieldSet.matchesFlow, if_neg hread, FieldSet.matchKnownDimensions_iff, hest, hproto,
        hicmp, hin, hout]
      exact ⟨fun hf => absurd hf Bool.false_ne_true, rfl, rfl, cubesHave_of_isAny hsrc hsany gsrc,
        cubesHave_of_isAny hdst hdany gdst, admits_ports_of_isAny hspany hs hrange.sport gsport,
        admits_ports_of_isAny hdpany hd hrange.dport gdport, rfl, rfl⟩

/-! ## The rule lists that are analyzed -/

/-- The rule lists the findings of a configuration are about: the access lists of IOS, and the
policies of FortiOS. -/
inductive Analyzed : RuleSet → Prop
  | ios {configText : String} {env : IOSPolicyEnvironment}
      (h : parseIosConfig configText = .ok env) {name : String} {acl : RuleSet}
      (hacl : (name, acl) ∈ env.acls) : Analyzed acl
  | fortios {configText : String} {env : FortiOSPolicyEnvironment}
      (h : parseFortiosConfig configText = .ok env) : Analyzed (policyRuleSet env.policies)

theorem orAny_ne_nil (cubes : List Cube) : orAny cubes ≠ [] := by
  cases cubes with
  | nil => exact List.cons_ne_nil _ _
  | cons c cs => exact List.cons_ne_nil _ _

theorem Analyzed.ips_ne_nil {ruleset : RuleSet} (ha : Analyzed ruleset) {r : Rule}
    (hr : r ∈ ruleset.rules) : r.fields.srcIps ≠ [] ∧ r.fields.dstIps ≠ [] := by
  cases ha with
  | ios h hacl =>
    have hwf := (parseIosConfig_sound h).rules _ hacl r hr
    exact ⟨hwf.srcIps, hwf.dstIps⟩
  | fortios h =>
    obtain ⟨rawAddrs, rawSvcs, -, -, -, hpolicies⟩ := parseFortiosTree_ok h
    change r ∈ _ at hr
    rw [policyRuleSet, hpolicies] at hr
    obtain ⟨p, -, rfl⟩ := List.mem_map.mp hr
    exact ⟨orAny_ne_nil _, orAny_ne_nil _⟩

/-- A finding about coverage is right: the blamed rule stands before the reported one, was read in
full, and matches every flow that the reported one matches, so that the walk stops before it. -/
structure HonestBlame (earlier : List Rule) (rule blamed : Rule) : Prop where
  precedes : blamed ∈ earlier
  decidable : blamed.isDecidable = true
  covers : ∀ flow : Flow, flow.PortsInRange → rule.fields.matchesFlow flow = true →
    blamed.fields.matchesFlow flow = true
  unreached : ∀ flow : Flow, flow.PortsInRange → rule.fields.matchesFlow flow = true →
    (firstMatch earlier flow).isSome = true

/-- The blamed rule has no unresolved object, and on neither side of it a port set excludes port 0
that the reported rule, when it could be read, allows. -/
structure JustifiedBlame (rule blamed : Rule) : Prop where
  resolved : blamed.unresolved = []
  srcZero : rule.fields.isOpaque = false → CoversZero blamed.fields.srcPorts rule.fields.srcPorts
  dstZero : rule.fields.isOpaque = false → CoversZero blamed.fields.dstPorts rule.fields.dstPorts

theorem blamed_covers {earlier : List Rule} {rule blamed : Rule}
    (h : blamedFor earlier rule = some blamed) :
    blamed.fields.isOpaque = false ∧
      (blamed.fields.isAnyAny = true ∨ blamed.fields.contains rule.fields = true) := by
  rw [blamedFor] at h
  rcases hc : earlier.find? isCovering with _ | c
  · rw [hc] at h
    change shadowedBy earlier rule = some blamed at h
    rw [shadowedBy] at h
    split at h
    · simp at h
    · have hp := List.find?_some h
      rw [Bool.and_eq_true, Bool.not_eq_true'] at hp
      exact ⟨hp.1, Or.inr hp.2⟩
  · rw [hc] at h
    obtain rfl := Option.some.inj h
    have hp := List.find?_some hc
    rw [isCovering, Bool.and_eq_true, Bool.not_eq_true'] at hp
    exact ⟨hp.1, Or.inl hp.2⟩

/-- A flow between two cubes that says nothing but its ports. -/
def portFlow (src dst : Cube) (sport dport : Option ℤ) : Flow :=
  { srcIp := intToIp src.value
    dstIp := intToIp dst.value
    proto := "ip"
    sport := sport
    dport := dport
    established := true }

theorem matchesFlow_portFlow {f : FieldSet} {src dst : Cube} {sport dport : Option ℤ}
    (hread : f.isOpaque = false) (hsrc : src ∈ f.srcIps) (hdst : dst ∈ f.dstIps)
    (hs : admits PortSet.containsPort f.srcPorts sport)
    (hd : admits PortSet.containsPort f.dstPorts dport) :
    f.matchesFlow (portFlow src dst sport dport) = true := by
  have hhas {cubes : List Cube} {c : Cube} (hc : c ∈ cubes) :
      cubesHave cubes (intToIp c.value) = true :=
    cubesHave_iff.mpr ⟨c.value, ipToInt_intToIp c.value, c, hc,
      Cube.containsIp_eq_true.mpr c.canonical⟩
  have hproto : protoFromName "ip" = none := by decide
  have hnone {α β : Type} {test : α → β → Bool} (s : Option α) : admits test s none = true := by
    cases s <;> rfl
  rw [FieldSet.matchesFlow, hread, if_neg Bool.false_ne_true, FieldSet.matchKnownDimensions_iff]
  refine ⟨fun _ => rfl, ?_, hnone _, hhas hsrc, hhas hdst, hs, hd, hnone _, hnone _⟩
  change admits setHas f.protos (protoFromName "ip") = true
  rw [hproto]
  exact hnone _

theorem coversZero_of_admits {s o : Option PortSet}
    (h : admits PortSet.containsPort o (some 0) = true →
      admits PortSet.containsPort s (some 0) = true) : CoversZero s o := by
  rintro p hp hp0
  rw [Option.mem_def.mp hp] at h
  rcases o with _ | q
  · exact absurd (hp0.symm.trans (h rfl)) Bool.false_ne_true
  · refine ⟨q, rfl, ?_⟩
    by_contra hq0
    have hq : q.containsPort 0 = true := by simpa using hq0
    exact absurd (hp0.symm.trans (h hq)) Bool.false_ne_true

/-- For every finding about coverage of an IOS or FortiOS configuration: it is right exactly when
the rule it blames has no unresolved object and no port 0 comes between the two rules. -/
theorem coverage_honest_iff {ruleset : RuleSet} (ha : Analyzed ruleset) {f : Finding}
    (hf : f ∈ findRulesetDefects ruleset) (hcov : f.isCoverage = true) :
    (∃ earlier rule blamed, Blames ruleset f earlier rule blamed) ∧
      ∀ earlier rule blamed, Blames ruleset f earlier rule blamed →
        (HonestBlame earlier rule blamed ↔ JustifiedBlame rule blamed) := by
  refine ⟨mem_findings_iff.mp ⟨hf, hcov⟩, fun earlier rule blamed hb => ?_⟩
  obtain ⟨⟨later, hsplit⟩, hblame, -⟩ := hb
  have hmem : blamed ∈ earlier := mem_of_blamedFor hblame
  have hips {r : Rule} (hr : r ∈ earlier ++ rule :: later) :
      r.fields.srcIps ≠ [] ∧ r.fields.dstIps ≠ [] :=
    ha.ips_ne_nil (List.mem_of_mem_filter (hsplit ▸ hr : r ∈ ruleset.enabled))
  obtain ⟨hclear, hcover⟩ := blamed_covers hblame
  constructor
  · intro hhonest
    obtain ⟨hsrc, hdst⟩ := hips (List.mem_append_right earlier List.mem_cons_self)
    obtain ⟨src, hsrc⟩ := List.exists_mem_of_ne_nil _ hsrc
    obtain ⟨dst, hdst⟩ := List.exists_mem_of_ne_nil _ hdst
    have hadmits {sport dport : Option ℤ} (hplain : rule.fields.isOpaque = false)
        (hrange : (portFlow src dst sport dport).PortsInRange)
        (hs : admits PortSet.containsPort rule.fields.srcPorts sport = true)
        (hd : admits PortSet.containsPort rule.fields.dstPorts dport = true) :
        admits PortSet.containsPort blamed.fields.srcPorts sport = true ∧
          admits PortSet.containsPort blamed.fields.dstPorts dport = true := by
      have hm := hhonest.covers _ hrange (matchesFlow_portFlow hplain hsrc hdst hs hd)
      rw [FieldSet.matchesFlow, hclear, if_neg Bool.false_ne_true,
        FieldSet.matchKnownDimensions_iff] at hm
      exact ⟨hm.2.2.2.2.2.1, hm.2.2.2.2.2.2.1⟩
    have hnone (s : Option PortSet) : admits PortSet.containsPort s none = true := by
      cases s <;> rfl
    refine ⟨?_, fun hplain => ?_, fun hplain => ?_⟩
    · have hdec := hhonest.decidable
      rw [Rule.isDecidable, Bool.and_eq_true] at hdec
      exact List.isEmpty_iff.mp hdec.2
    · refine coversZero_of_admits fun hs => (hadmits hplain ⟨?_, ?_⟩ hs (hnone _)).1
      · simp [portFlow]
      · simp [portFlow]
    · refine coversZero_of_admits fun hd => (hadmits hplain ⟨?_, ?_⟩ (hnone _) hd).2
      · simp [portFlow]
      · simp [portFlow]
  · rintro ⟨hresolved, hsrcZero, hdstZero⟩
    have hdec : blamed.isDecidable = true := by
      rw [Rule.isDecidable, hclear, hresolved]
      rfl
    have hcovers : ∀ flow : Flow, flow.PortsInRange → rule.fields.matchesFlow flow = true →
        blamed.fields.matchesFlow flow = true := by
      intro flow hrange hm
      have hplain : rule.fields.isOpaque = false := by
        rw [FieldSet.matchesFlow] at hm
        split at hm
        · exact absurd hm Bool.false_ne_true
        · next hplain => simpa using hplain
      rcases hcover with hany | hcontains
      · obtain ⟨hsrc, hdst⟩ := hips (List.mem_append_left _ hmem)
        exact matchesFlow_of_isAnyAny hany hsrc hdst (hsrcZero hplain) (hdstZero hplain) hrange hm
      · exact matchesFlow_of_contains hcontains hm
    refine ⟨hmem, hdec, hcovers, fun flow hrange hm => ?_⟩
    rw [firstMatch, List.find?_isSome]
    refine ⟨blamed, hmem, ?_⟩
    rw [ruleStopsWalk, if_pos hdec]
    exact hcovers flow hrange hm

/-- An access list that starts with a deny on an object group that is not defined. -/
def undefinedGroup : String :=
  "ip access-list extended A\n 10 deny ip object-group X any\n 20 permit ip host 10.0.0.1 any"

theorem undefinedGroup_finding :
    ∃ ruleset f, Analyzed ruleset ∧ f ∈ findRulesetDefects ruleset ∧ f.isCoverage = true ∧
      f.expectedRuleId = some "10" ∧ ∀ r ∈ ruleset.enabled, r.id = "10" → r.isDecidable = false := by
  have heval : ((parseIosConfig undefinedGroup).toOption.any fun env => env.acls.head?.any fun p =>
      ((findRulesetDefects p.2).any fun f =>
        f.isCoverage && decide (f.expectedRuleId = some "10")) &&
      p.2.enabled.all fun r => decide (r.id ≠ "10") || !r.isDecidable) = true := by
    decide +kernel
  obtain ⟨env, henv, heval⟩ := (Option.any_eq_true _ _).mp heval
  obtain ⟨⟨name, acl⟩, hacl, heval⟩ := (Option.any_eq_true _ _).mp heval
  rw [Bool.and_eq_true] at heval
  obtain ⟨hfinding, hrules⟩ := heval
  obtain ⟨f, hf, hfinding⟩ := List.any_eq_true.mp hfinding
  rw [Bool.and_eq_true, decide_eq_true_eq] at hfinding
  refine ⟨acl, f, .ios (eq_ok_of_toOption henv) (List.mem_of_mem_head? hacl), hf, hfinding.1,
    hfinding.2, fun r hr hid => ?_⟩
  have hr := List.all_eq_true.mp hrules r hr
  simpa [hid] using hr

/-- The list with the undefined group is one of those the equivalence is about. -/
theorem coverage_honest_iff_undefinedGroup :
    ∃ ruleset f, f ∈ findRulesetDefects ruleset ∧
      (∃ earlier rule blamed, Blames ruleset f earlier rule blamed) ∧
      ∀ earlier rule blamed, Blames ruleset f earlier rule blamed →
        (HonestBlame earlier rule blamed ↔ JustifiedBlame rule blamed) := by
  obtain ⟨ruleset, f, ha, hf, hcov, -⟩ := undefinedGroup_finding
  exact ⟨ruleset, f, hf, coverage_honest_iff ha hf hcov⟩

/-- An entry on an undefined object group, which was widened to every address, is blamed for the
entry after it. -/
theorem undefinedGroup_blamed :
    ¬ ∀ (ruleset : RuleSet), Analyzed ruleset → ∀ f ∈ findRulesetDefects ruleset,
      f.isCoverage = true → ∀ earlier rule blamed, Blames ruleset f earlier rule blamed →
        HonestBlame earlier rule blamed := by
  intro hall
  obtain ⟨ruleset, f, ha, hf, hcov, hid, hrules⟩ := undefinedGroup_finding
  obtain ⟨earlier, rule, blamed, hb⟩ := mem_findings_iff.mp ⟨hf, hcov⟩
  have hhonest := hall ruleset ha f hf hcov earlier rule blamed hb
  have hblamed : blamed.id = "10" := by
    rw [hb.finding_eq, coverageFinding_expectedRuleId] at hid
    exact Option.some.inj hid
  obtain ⟨later, hsplit⟩ := hb.split
  have hmem : blamed ∈ ruleset.enabled := by
    rw [hsplit]
    exact List.mem_append_left _ hhonest.precedes
  have hdec := hhonest.decidable
  rw [hrules blamed hmem hblamed] at hdec
  exact absurd hdec Bool.false_ne_true

end SentinelNet.PolicyTest
