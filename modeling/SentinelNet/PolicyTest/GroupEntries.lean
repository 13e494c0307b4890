import SentinelNet.PolicyTest.AceSoundness
import SentinelNet.PolicyTest.GroupMembers

/-!
# Entries that name object groups

An entry names groups as addresses and as ports.  The parser takes the lines that it has read, and
tells of an address group that has none, and of a port group that is not defined.  It does not tell
of a reference to a group that is not there, nor of a line that it has passed over.

* `follows_iff`: when it does.
-/

namespace SentinelNet.PolicyTest

open PyText PyDict

/-! ## Entries -/

/-- An address of an entry. -/
inductive AddrTerm where
  | spec (s : AddrSpec)
  | group (name : String)

inductive PortTerm where
  | any
  | op (o : PortOp)
  | group (name : String)

namespace AddrTerm

def tokens : AddrTerm → List String
  | .spec s => s.tokens
  | .group name => ["object-group", name]

/-- The group that an address names. -/
def names : AddrTerm → List String
  | .spec _ => []
  | .group name => [name]

theorem eq_group_of_mem {t : AddrTerm} {a : String} (h : a ∈ t.names) : t = .group a := by
  cases t with
  | spec s => cases h
  | group b => rw [List.mem_singleton.mp h]

end AddrTerm

namespace PortTerm

def tokens : PortTerm → List String
  | .any => []
  | .op o => o.tokens
  | .group name => ["object-group", name]

/-- The group that the ports name. -/
def names : PortTerm → List String
  | .group name => [name]
  | _ => []

/-- The ports after the first one of `eq`. -/
def more : PortTerm → List PortTok
  | .op o => o.more
  | _ => []

theorem eq_group_of_mem {t : PortTerm} {a : String} (h : a ∈ t.names) : t = .group a := by
  cases t with
  | any => cases h
  | op o => cases h
  | group b => rw [List.mem_singleton.mp h]

end PortTerm

/-- An extended entry with groups.  Only an entry for TCP or UDP has ports. -/
structure GroupAce where
  permit : Bool
  proto : String
  src : AddrTerm
  sports : PortTerm
  dst : AddrTerm
  dports : PortTerm
  established : Bool
  log : Bool
  known : (protoFromName (lower proto)).isSome = true ∨
    lower proto ∈ ["ip", "ipv4", "ip4", "any", "all"]
  portless : (sports = .any ∧ dports = .any) ∨ lower proto = "tcp" ∨ lower proto = "udp"

namespace GroupAce

variable (ace : GroupAce)

/-- The keywords at the end of an entry. -/
def keywords : List String :=
  (if ace.established then ["established"] else []) ++ (if ace.log then ["log"] else [])

/-- The tokens of an entry after its protocol. -/
def specTokens : List String :=
  ace.src.tokens ++ (ace.sports.tokens ++ (ace.dst.tokens ++ (ace.dports.tokens ++ ace.keywords)))

def tokens : List String := actionWord ace.permit :: ace.proto :: ace.specTokens

def addressGroups : List String := ace.src.names ++ ace.dst.names

def portGroups : List String := ace.sports.names ++ ace.dports.names

/-- The groups of an entry are of the kinds they are named as. -/
structure Proper (ds : List Definition) : Prop where
  addresses : ∀ a ∈ ace.addressGroups, ∀ d, defined ds a = some d → d.IsNetwork
  ports : ∀ a ∈ ace.portGroups, ∀ d, defined ds a = some d → d.IsService

end GroupAce

/-! ## What the entry should match -/

/-- The cubes have the addresses of the group. -/
def AddrTerm.Exact (ds : List Definition) (t : AddrTerm) (cubes : List Cube) : Prop :=
  ∀ a ∈ t.names, ∀ x, (∃ c ∈ cubes, c.containsIp x = true) ↔ GroupHasAddress ds a x

def PortTerm.Exact (ds : List Definition) (t : PortTerm) (ports : Option PortSet) : Prop :=
  ∀ a ∈ t.names, ∀ p : ℕ, p ≤ 65535 →
    (admits PortSet.containsPort ports (some (p : ℤ)) = true ↔ GroupHasPort ds a p)

namespace GroupAce

variable (ace : GroupAce) (ds : List Definition)

def NamesFlawed : Prop := ∃ a ∈ ace.addressGroups ++ ace.portGroups, Flawed ds a

/-- The rule of an entry is what its groups say, or it is marked where one of them is flawed. -/
structure Follows (rule : Rule) : Prop where
  marked : ace.NamesFlawed ds → rule.unresolved ≠ []
  readable : ¬ ace.NamesFlawed ds → rule.fields.isOpaque = false
  src : ¬ ace.NamesFlawed ds → ace.src.Exact ds rule.fields.srcIps
  dst : ¬ ace.NamesFlawed ds → ace.dst.Exact ds rule.fields.dstIps
  sports : ¬ ace.NamesFlawed ds → ace.sports.Exact ds rule.fields.srcPorts
  dports : ¬ ace.NamesFlawed ds → ace.dports.Exact ds rule.fields.dstPorts

/-- A line that is reached names a port. -/
def HasPorts (a : String) : Prop :=
  ∃ x d, ReachesGroup ds a x ∧ defined ds x = some d ∧ d.ports ≠ []

/-- The group of the destination has ports, through a reference to a group of ports, and stands
where the source ports would. -/
def Misplaced : Prop := ace.sports = .any ∧ ∃ a, ace.dst = .group a ∧ HasPorts ds a

/-- What the parser tells of an entry. -/
def Told : Prop :=
  (∃ a ∈ ace.portGroups, defined ds a = none) ∨ ace.sports.more ≠ [] ∨
    (∃ a ∈ ace.src.names, ¬ Leads ds a) ∨
    (ace.Misplaced ds ∧ ∀ b ∈ ace.dports.names, ¬ Leads ds b) ∨
    ¬ ace.Misplaced ds ∧ ((∃ a ∈ ace.dst.names, ¬ Leads ds a) ∨ ace.dports.more ≠ [])

end GroupAce

/-! ## The consumers on the tokens of an entry -/

section Consumers

variable {groups : ObjectGroups}

def cubesRead (groups : ObjectGroups) (a : String) : List Cube :=
  ((get? groups a).map IOSObjectGroup.cubes).getD []

theorem cubesRead_of_undefined {a : String} (h : get? groups a = none) :
    cubesRead groups a = [] := by
  unfold cubesRead
  rw [h]
  rfl

/-- The cubes that the parser takes for an address. -/
def AddrTerm.cubes (groups : ObjectGroups) : AddrTerm → List Cube
  | .spec s => [s.cube]
  | .group a => if cubesRead groups a ≠ [] then cubesRead groups a else [Cube.any]

/-- The reasons that the parser gives for an address. -/
def AddrTerm.reasons (groups : ObjectGroups) : AddrTerm → List String
  | .spec _ => []
  | .group a =>
    if cubesRead groups a ≠ [] then [] else [s!"object-group '{a}' not found or empty"]

theorem AddrTerm.reasons_ne_nil_iff {t : AddrTerm} :
    t.reasons groups ≠ [] ↔ ∃ a ∈ t.names, cubesRead groups a = [] := by
  cases t with
  | spec s =>
    refine iff_of_false (fun h => h rfl) ?_
    rintro ⟨a, ha, -⟩
    cases ha
  | group a =>
    unfold reasons names
    dsimp only
    split
    · next hne =>
      refine iff_of_false (fun h => h rfl) ?_
      rintro ⟨b, hb, hnil⟩
      rw [List.mem_singleton.mp hb] at hnil
      exact hne hnil
    · next hnil =>
      exact iff_of_true (List.cons_ne_nil _ _)
        ⟨a, List.mem_singleton_self a, not_not.mp hnil⟩

/-- The ports that the parser takes. -/
def PortTerm.read (groups : ObjectGroups) : PortTerm → Option PortSet
  | .any => none
  | .op o => o.read
  | .group a => (get? groups a).map fun g => PortSet.fromList g.ports

theorem consumeIpSpec_term (t : AddrTerm) (rest : List String) :
    consumeIpSpec groups (t.tokens ++ rest) =
      .ok (some (t.cubes groups, rest, t.reasons groups)) := by
  cases t with
  | spec s => exact consumeIpSpec_tokens s rest
  | group a =>
    have hlow : lower "object-group" = "object-group" := by decide
    change consumeIpSpec groups ("object-group" :: a :: rest) = _
    unfold AddrTerm.cubes AddrTerm.reasons cubesRead consumeIpSpec
    dsimp only
    rw [hlow, if_neg (by decide), if_neg (by decide), if_pos rfl]
    split
    · rfl
    · rfl

theorem consumeIpSpec_keywords (established log : Bool) :
    consumeIpSpec groups ((if established then ["established"] else []) ++
      (if log then ["log"] else [])) = .ok none := by
  cases established <;> cases log <;> rfl

theorem consumeIpSpec_op (o : PortOp) (rest : List String) :
    consumeIpSpec groups (o.tokens ++ rest) = .ok none := by
  cases o <;> rfl

theorem consumePortSpec_group {a : String} {g : IOSObjectGroup} (hg : get? groups a = some g)
    (h : g.kind = "service" ∨ g.kind = "port" ∨ g.ports ≠ []) (rest : List String) :
    consumePortSpec groups ("object-group" :: a :: rest) =
      (some (PortSet.fromList g.ports), rest) := by
  have hlow : lower "object-group" = "object-group" := by decide
  unfold consumePortSpec
  dsimp only
  rw [hlow, if_neg (by decide), if_neg (by decide), if_pos rfl]
  rw [hg]
  dsimp only
  rw [if_pos h]

theorem consumePortSpec_other {a : String} (h : ∀ g, get? groups a = some g →
    ¬ (g.kind = "service" ∨ g.kind = "port" ∨ g.ports ≠ [])) (rest : List String) :
    consumePortSpec groups ("object-group" :: a :: rest) =
      (none, "object-group" :: a :: rest) := by
  have hlow : lower "object-group" = "object-group" := by decide
  unfold consumePortSpec
  dsimp only
  rw [hlow, if_neg (by decide), if_neg (by decide), if_pos rfl]
  cases hg : get? groups a with
  | none => rfl
  | some g =>
    dsimp only
    rw [if_neg (h g hg)]

theorem consumePortSpec_keywords (established log : Bool) :
    consumePortSpec groups ((if established then ["established"] else []) ++
      (if log then ["log"] else [])) =
        (none, (if established then ["established"] else []) ++ (if log then ["log"] else [])) := by
  have hall : ∀ established log : Bool,
      ∀ t ∈ ((if established then ["established"] else []) ++
        (if log then ["log"] else [])).head?,
      lower t ∉ ["eq", "gt", "lt", "neq", "range", "object-group"] := by decide
  exact consumePortSpec_of_notMem (hall established log)

theorem consumePortSpec_term {t : PortTerm} {rest : List String}
    (h : ∀ a ∈ t.names, ∃ g, get? groups a = some g ∧ (g.kind = "service" ∨ g.kind = "port"))
    (hrest : t = .any → consumePortSpec groups rest = (none, rest)) :
    consumePortSpec groups (t.tokens ++ rest) =
      (t.read groups, t.more.map PortTok.text ++ rest) := by
  cases t with
  | any => exact hrest rfl
  | op o => exact consumePortSpec_tokens o rest
  | group a =>
    obtain ⟨g, hg, hkind⟩ := h a (List.mem_singleton_self a)
    have hread : (PortTerm.group a).read groups = some (PortSet.fromList g.ports) := by
      unfold PortTerm.read
      dsimp only
      rw [hg]
      rfl
    rw [hread]
    exact consumePortSpec_group hg (hkind.imp_right .inl) rest

theorem consumePortSpec_address {t : AddrTerm} (h : ∀ a ∈ t.names, ∀ g, get? groups a = some g →
    ¬ (g.kind = "service" ∨ g.kind = "port" ∨ g.ports ≠ [])) (rest : List String) :
    consumePortSpec groups (t.tokens ++ rest) = (none, t.tokens ++ rest) := by
  cases t with
  | spec s => exact consumePortSpec_of_notMem (head?_tokens_notMem s rest)
  | group a => exact consumePortSpec_other (h a (List.mem_singleton_self a)) rest

theorem qualifierStep_narrowing_ne_nil {isIcmp : Bool} {low : String} {nextTok : Option String}
    {q : Qualifiers} (h : q.narrowing ≠ []) :
    (qualifierStep isIcmp low nextTok q).1.narrowing ≠ [] := by
  have hnarrow : ∀ reason, (q.narrow reason).narrowing ≠ [] := fun reason hnil =>
    h (List.append_eq_nil_iff.mp hnil).1
  unfold qualifierStep
  split
  · exact h
  · split
    · exact h
    · split
      · exact hnarrow low
      · split
        · exact hnarrow low
        · split
          · unfold icmpQualifier
            split
            · exact h
            · exact hnarrow low
            · split
              · dsimp only
                split
                · split
                  · next code _ => exact hnarrow ("icmp code " ++ code)
                  · exact h
                · exact h
              · exact hnarrow low
          · exact hnarrow low

theorem trailingQualifiers_narrowing_ne_nil {isIcmp : Bool} (toks : List String) {q : Qualifiers}
    (h : q.narrowing ≠ []) : (trailingQualifiers isIcmp toks q).narrowing ≠ [] := by
  induction hn : toks.length using Nat.strong_induction_on generalizing toks q with
  | _ n ih =>
    cases toks with
    | nil => exact h
    | cons t toks =>
      have hstep : (qualifierStep isIcmp (lower t) toks.head? q).1.narrowing ≠ [] :=
        qualifierStep_narrowing_ne_nil h
      rw [trailingQualifiers_cons]
      rw [List.length_cons] at hn
      split
      · refine ih _ ?_ toks.tail hstep rfl
        rw [List.length_tail]
        omega
      · exact ih _ (by omega) toks hstep rfl

theorem trailingQualifiers_group (a : String) (rest : List String) :
    (trailingQualifiers false ("object-group" :: a :: rest) {}).narrowing ≠ [] := by
  have hstep : qualifierStep false (lower "object-group") (some a) {} =
      (({} : Qualifiers).narrow "object-group", false) := by
    have hlow : lower "object-group" = "object-group" := by decide
    rw [qualifierStep, hlow, if_neg (by decide), if_neg (by decide), if_neg (by decide),
      if_neg (by decide), if_neg Bool.false_ne_true]
  rw [trailingQualifiers_cons, List.head?_cons, hstep, if_neg Bool.false_ne_true]
  exact trailingQualifiers_narrowing_ne_nil _ (List.cons_ne_nil _ _)

end Consumers

/-! ## The rule of an entry -/

namespace GroupAce

variable {ace : GroupAce} {groups : ObjectGroups}

/-- The groups of an entry are of the kinds they are named as, where they were read. -/
structure Fits (ace : GroupAce) (groups : ObjectGroups) : Prop where
  addresses : ∀ a ∈ ace.addressGroups, ∀ g, get? groups a = some g → g.kind = "network"
  ports : ∀ a ∈ ace.portGroups, ∀ g, get? groups a = some g →
    g.kind = "service" ∨ g.kind = "port"

/-- The group of the destination has ports and stands where the source ports would. -/
def Swallowed (ace : GroupAce) (groups : ObjectGroups) : Prop :=
  ace.sports = .any ∧ ∃ a, ace.dst = .group a ∧ ∃ g, get? groups a = some g ∧ g.ports ≠ []

/-- The parser tells of an entry. -/
def Marked (ace : GroupAce) (groups : ObjectGroups) : Prop :=
  (∃ a ∈ ace.portGroups, get? groups a = none) ∨ ace.sports.more ≠ [] ∨
    (∃ a ∈ ace.src.names, cubesRead groups a = []) ∨
    (ace.Swallowed groups ∧ ∀ b ∈ ace.dports.names, cubesRead groups b = []) ∨
    ¬ ace.Swallowed groups ∧
      ((∃ a ∈ ace.dst.names, cubesRead groups a = []) ∨ ace.dports.more ≠ [])

/-- What the parser makes of an entry: a rule that is marked, or with the cubes and the ports that
were read. -/
structure Reading (ace : GroupAce) (groups : ObjectGroups) (rule : Rule) : Prop where
  marked : rule.unresolved ≠ [] ↔ ace.Marked groups
  several : ace.sports.more ≠ [] → rule.fields.isOpaque = true
  read : (∀ a ∈ ace.portGroups, get? groups a ≠ none) → ace.sports.more = [] →
    ¬ ace.Swallowed groups → rule.fields.isOpaque = false ∧
      rule.fields.srcIps = ace.src.cubes groups ∧ rule.fields.dstIps = ace.dst.cubes groups ∧
      rule.fields.srcPorts = ace.sports.read groups ∧
      rule.fields.dstPorts = ace.dports.read groups

theorem isIcmp_eq_false (h : ace.sports ≠ .any ∨ ace.dports ≠ .any) :
    decide (lower ace.proto = "icmp" ∨ lower ace.proto = "1") = false := by
  rcases ace.portless with ⟨hs, hd⟩ | hp | hp
  · exact (h.elim (fun hno => hno hs) fun hno => hno hd).elim
  · rw [hp]
    decide
  · rw [hp]
    decide

theorem trailingQualifiers_end (isIcmp established log : Bool) (narrowing : List String) :
    trailingQualifiers isIcmp
        ((if established then ["established"] else []) ++ (if log then ["log"] else []))
        { narrowing := narrowing } =
      { established := established, narrowing := narrowing } := by
  cases isIcmp <;> cases established <;> cases log <;> rfl

theorem consumeTrailingQualifiers_end :
    consumeTrailingQualifiers (ace.dports.more.map PortTok.text ++ ace.keywords)
        (lower ace.proto) =
      { established := ace.established
        narrowing := ace.dports.more.map fun t => lower t.text } := by
  unfold consumeTrailingQualifiers keywords
  by_cases hports : ace.dports = .any
  · rw [hports]
    exact trailingQualifiers_end _ _ _ []
  · rw [isIcmp_eq_false (.inr hports), trailingQualifiers_ports, List.nil_append,
      trailingQualifiers_end]

section Specs

variable (ruleId rawLine : String) (action : Action) (protos : Option (List ℤ))

def qualifierReasons (q : Qualifiers) : List String :=
  if q.narrowing = [] then [] else ["ACE qualifier not evaluated: " ++ join ", " q.narrowing]

theorem qualifierReasons_eq_nil_iff {q : Qualifiers} :
    qualifierReasons q = [] ↔ q.narrowing = [] := by
  unfold qualifierReasons
  split
  · next h => exact iff_of_true rfl h
  · next h => exact iff_of_false (List.cons_ne_nil _ _) h

theorem extendedSpecs_of_parts (protoTok : String) {toks toks₁ toks₂ toks₃ toks₄ : List String}
    {src dst : List Cube} {sports dports : Option PortSet} {reasons reasons' : List String}
    (hsrc : consumeIpSpec groups toks = .ok (some (src, toks₁, reasons)))
    (hsports : consumePortSpec groups toks₁ = (sports, toks₂))
    (hdst : consumeIpSpec groups toks₂ = .ok (some (dst, toks₃, reasons')))
    (hdports : consumePortSpec groups toks₃ = (dports, toks₄)) :
    ∃ rule, extendedSpecs ruleId action rawLine groups protoTok protos toks = .ok rule ∧
      rule.fields.isOpaque = false ∧ rule.fields.srcIps = src ∧ rule.fields.dstIps = dst ∧
      rule.fields.srcPorts = sports ∧ rule.fields.dstPorts = dports ∧
      rule.unresolved =
        reasons ++ reasons' ++ qualifierReasons (consumeTrailingQualifiers toks₄ protoTok) := by
  unfold extendedSpecs
  rw [hsrc]
  simp only [bind, Except.bind]
  rw [hsports]
  dsimp only
  rw [hdst]
  dsimp only
  rw [hdports]
  exact ⟨_, rfl, rfl, rfl, rfl, rfl, rfl, rfl⟩

theorem extendedSpecs_of_none (protoTok : String) {toks toks₁ toks₂ : List String}
    {src : List Cube} {sports : Option PortSet} {reasons : List String}
    (hsrc : consumeIpSpec groups toks = .ok (some (src, toks₁, reasons)))
    (hsports : consumePortSpec groups toks₁ = (sports, toks₂))
    (hdst : consumeIpSpec groups toks₂ = .ok none) :
    ∃ rule, extendedSpecs ruleId action rawLine groups protoTok protos toks = .ok rule ∧
      rule.fields.isOpaque = true ∧ rule.unresolved ≠ [] := by
  unfold extendedSpecs
  rw [hsrc]
  simp only [bind, Except.bind]
  rw [hsports]
  dsimp only
  rw [hdst]
  exact ⟨_, rfl, rfl, List.cons_ne_nil _ _⟩

theorem reading_of_several (h : ace.sports.more ≠ []) :
    ∃ rule, extendedSpecs ruleId action rawLine groups (lower ace.proto) protos ace.specTokens =
      .ok rule ∧ ace.Reading groups rule := by
  obtain ⟨o, ho⟩ : ∃ o, ace.sports = .op o := by
    cases hs : ace.sports with
    | any =>
      rw [hs] at h
      exact absurd rfl h
    | op o => exact ⟨o, rfl⟩
    | group a =>
      rw [hs] at h
      exact absurd rfl h
  obtain ⟨t, ts, hmore⟩ : ∃ t ts, o.more = t :: ts := by
    rw [ho] at h
    exact List.exists_cons_of_ne_nil h
  have hsports : consumePortSpec groups
      (ace.sports.tokens ++ (ace.dst.tokens ++ (ace.dports.tokens ++ ace.keywords))) =
        (o.read, t.text :: (ts.map PortTok.text ++
          (ace.dst.tokens ++ (ace.dports.tokens ++ ace.keywords)))) := by
    rw [ho]
    refine (consumePortSpec_tokens o _).trans ?_
    rw [hmore]
    rfl
  obtain ⟨rule, hrule, hobscure, hunresolved⟩ := extendedSpecs_of_none ruleId rawLine action protos
    (lower ace.proto) (consumeIpSpec_term ace.src _) hsports (consumeIpSpec_port t _)
  exact ⟨rule, hrule, iff_of_true hunresolved (.inr (.inl h)), fun _ => hobscure,
    fun _ hno => absurd hno h⟩

theorem reading_of_undefined (h : ∃ a, ace.sports = .group a ∧ get? groups a = none) :
    ∃ rule, extendedSpecs ruleId action rawLine groups (lower ace.proto) protos ace.specTokens =
      .ok rule ∧ ace.Reading groups rule := by
  obtain ⟨a, ha, hnone⟩ := h
  have hmem : a ∈ ace.portGroups := by
    unfold portGroups
    rw [ha]
    exact List.mem_append_left _ (List.mem_singleton_self a)
  have hsports : consumePortSpec groups
      (ace.sports.tokens ++ (ace.dst.tokens ++ (ace.dports.tokens ++ ace.keywords))) =
        (none, (AddrTerm.group a).tokens ++
          (ace.dst.tokens ++ (ace.dports.tokens ++ ace.keywords))) := by
    rw [ha]
    exact consumePortSpec_other (fun g hg => absurd (hnone.symm.trans hg) (by simp)) _
  obtain ⟨rule, hrule, -, -, -, -, -, hunresolved⟩ := extendedSpecs_of_parts ruleId rawLine action
    protos (lower ace.proto) (consumeIpSpec_term ace.src _) hsports
    (consumeIpSpec_term (.group a) _) (Prod.mk.eta ..).symm
  refine ⟨rule, hrule, iff_of_true ?_ (.inl ⟨a, hmem, hnone⟩), fun hno => absurd ?_ hno,
    fun hall => absurd hnone (hall a hmem)⟩
  · rw [hunresolved]
    intro hnil
    have hreasons := (List.append_eq_nil_iff.mp (List.append_eq_nil_iff.mp hnil).1).2
    exact AddrTerm.reasons_ne_nil_iff (t := .group a).mpr
      ⟨a, List.mem_singleton_self a, cubesRead_of_undefined hnone⟩ hreasons
  · rw [ha]
    rfl

theorem reading_of_swallowed (h : ace.Swallowed groups) :
    ∃ rule, extendedSpecs ruleId action rawLine groups (lower ace.proto) protos ace.specTokens =
      .ok rule ∧ ace.Reading groups rule := by
  obtain ⟨hany, a, ha, g, hg, hne⟩ := h
  have hmore : ace.sports.more = [] := by
    rw [hany]
    rfl
  have hsports : consumePortSpec groups
      (ace.sports.tokens ++ (ace.dst.tokens ++ (ace.dports.tokens ++ ace.keywords))) =
        (some (PortSet.fromList g.ports), ace.dports.tokens ++ ace.keywords) := by
    rw [hany, ha]
    exact consumePortSpec_group hg (.inr (.inr hne)) _
  have hobscure : consumeIpSpec groups (ace.dports.tokens ++ ace.keywords) = .ok none →
      ace.dports.names = [] →
      ∃ rule, extendedSpecs ruleId action rawLine groups (lower ace.proto) protos ace.specTokens =
        .ok rule ∧ ace.Reading groups rule := by
    intro hdst hnames
    obtain ⟨rule, hrule, -, hunresolved⟩ := extendedSpecs_of_none ruleId rawLine action protos
      (lower ace.proto) (consumeIpSpec_term ace.src _) hsports hdst
    refine ⟨rule, hrule, iff_of_true hunresolved ?_, fun hno => absurd hmore hno,
      fun _ _ hno => absurd ⟨hany, a, ha, g, hg, hne⟩ hno⟩
    refine .inr (.inr (.inr (.inl ⟨⟨hany, a, ha, g, hg, hne⟩, fun b hb => ?_⟩)))
    rw [hnames] at hb
    cases hb
  cases hd : ace.dports with
  | any =>
    refine hobscure ?_ ?_
    · rw [hd]
      exact consumeIpSpec_keywords ace.established ace.log
    · rw [hd]
      rfl
  | op o =>
    refine hobscure ?_ ?_
    · rw [hd]
      exact consumeIpSpec_op o _
    · rw [hd]
      rfl
  | group b =>
    have hdst : consumeIpSpec groups (ace.dports.tokens ++ ace.keywords) =
        .ok (some ((AddrTerm.group b).cubes groups, ace.keywords,
          (AddrTerm.group b).reasons groups)) := by
      rw [hd]
      exact consumeIpSpec_term (.group b) _
    obtain ⟨rule, hrule, -, -, -, -, -, hunresolved⟩ := extendedSpecs_of_parts ruleId rawLine
      action protos (lower ace.proto) (consumeIpSpec_term ace.src _) hsports hdst
      (consumePortSpec_keywords ace.established ace.log)
    refine ⟨rule, hrule, ?_, fun hno => absurd hmore hno,
      fun _ _ hno => absurd ⟨hany, a, ha, g, hg, hne⟩ hno⟩
    have hquals : consumeTrailingQualifiers ace.keywords (lower ace.proto) =
        { established := ace.established } := trailingQualifiers_end _ _ _ []
    unfold keywords at hquals
    rw [hunresolved, hquals, qualifierReasons_eq_nil_iff.mpr rfl, List.append_nil, Ne,
      List.append_eq_nil_iff, not_and_or]
    constructor
    · rintro (hsrc | hdst)
      · exact .inr (.inr (.inl (AddrTerm.reasons_ne_nil_iff.mp hsrc)))
      · refine .inr (.inr (.inr (.inl ⟨⟨hany, a, ha, g, hg, hne⟩, fun b' hb' => ?_⟩)))
        obtain ⟨b'', hb'', hnil⟩ := AddrTerm.reasons_ne_nil_iff.mp hdst
        rw [hd] at hb'
        rw [List.mem_singleton.mp hb', ← List.mem_singleton.mp hb'']
        exact hnil
    · have hdst : cubesRead groups b = [] → (AddrTerm.group b).reasons groups ≠ [] := fun hnil =>
        AddrTerm.reasons_ne_nil_iff.mpr ⟨b, List.mem_singleton_self b, hnil⟩
      rintro (⟨c, hc, hnone⟩ | hno | hsrc | ⟨-, hall⟩ | ⟨hno, -⟩)
      · unfold portGroups at hc
        rw [hany, hd] at hc
        obtain rfl := List.mem_singleton.mp hc
        exact .inr (hdst (cubesRead_of_undefined hnone))
      · exact absurd hmore hno
      · exact .inl (AddrTerm.reasons_ne_nil_iff.mpr hsrc)
      · rw [hd] at hall
        exact .inr (hdst (hall b (List.mem_singleton_self b)))
      · exact absurd ⟨hany, a, ha, g, hg, hne⟩ hno

theorem reading_of_read (hfit : ace.Fits groups)
    (hsports : ∀ a ∈ ace.sports.names, get? groups a ≠ none) (hmore : ace.sports.more = [])
    (hplace : ¬ ace.Swallowed groups) :
    ∃ rule, extendedSpecs ruleId action rawLine groups (lower ace.proto) protos ace.specTokens =
      .ok rule ∧ ace.Reading groups rule := by
  have hnetwork : ∀ a ∈ ace.dst.names, ace.sports = .any → ∀ g, get? groups a = some g →
      ¬ (g.kind = "service" ∨ g.kind = "port" ∨ g.ports ≠ []) := by
    intro a ha hany g hg hno
    have hkind := hfit.addresses a (List.mem_append_right _ ha) g hg
    rw [hkind] at hno
    rcases hno with hno | hno | hno
    · exact absurd hno (by decide)
    · exact absurd hno (by decide)
    · exact hplace ⟨hany, a, AddrTerm.eq_group_of_mem ha, g, hg, hno⟩
  have hdefined : ∀ a ∈ ace.sports.names,
      ∃ g, get? groups a = some g ∧ (g.kind = "service" ∨ g.kind = "port") := by
    intro a ha
    obtain ⟨g, hg⟩ := Option.ne_none_iff_exists'.mp (hsports a ha)
    exact ⟨g, hg, hfit.ports a (List.mem_append_left _ ha) g hg⟩
  have hsrc : consumePortSpec groups
      (ace.sports.tokens ++ (ace.dst.tokens ++ (ace.dports.tokens ++ ace.keywords))) =
        (ace.sports.read groups, ace.dst.tokens ++ (ace.dports.tokens ++ ace.keywords)) := by
    rw [consumePortSpec_term hdefined fun hany =>
      consumePortSpec_address (fun a ha => hnetwork a ha hany) _, hmore]
    rfl
  have hswallowed : ∀ P : Prop, ¬ (ace.Swallowed groups ∧ P) := fun _ h => hplace h.1
  by_cases hdports : ∃ b, ace.dports = .group b ∧ get? groups b = none
  · obtain ⟨b, hb, hnone⟩ := hdports
    have hmem : b ∈ ace.portGroups := by
      unfold portGroups
      rw [hb]
      exact List.mem_append_right _ (List.mem_singleton_self b)
    have hlast : consumePortSpec groups (ace.dports.tokens ++ ace.keywords) =
        (none, "object-group" :: b :: ace.keywords) := by
      rw [hb]
      exact consumePortSpec_other (fun g hg => absurd (hnone.symm.trans hg) (by simp)) _
    obtain ⟨rule, hrule, -, -, -, -, -, hunresolved⟩ := extendedSpecs_of_parts ruleId rawLine
      action protos (lower ace.proto) (consumeIpSpec_term ace.src _) hsrc
      (consumeIpSpec_term ace.dst _) hlast
    refine ⟨rule, hrule, iff_of_true ?_ (.inl ⟨b, hmem, hnone⟩), fun hno => absurd hmore hno,
      fun hall => absurd hnone (hall b hmem)⟩
    have hports : ace.dports ≠ .any := by
      rw [hb]
      exact fun hno => nomatch hno
    rw [hunresolved, consumeTrailingQualifiers, isIcmp_eq_false (.inr hports)]
    intro hnil
    exact trailingQualifiers_group b ace.keywords
      (qualifierReasons_eq_nil_iff.mp (List.append_eq_nil_iff.mp hnil).2)
  · have hlast : consumePortSpec groups (ace.dports.tokens ++ ace.keywords) =
        (ace.dports.read groups, ace.dports.more.map PortTok.text ++ ace.keywords) := by
      refine consumePortSpec_term (fun b hb => ?_) fun _ =>
        consumePortSpec_keywords ace.established ace.log
      obtain ⟨g, hg⟩ := Option.ne_none_iff_exists'.mp fun hnone =>
        hdports ⟨b, PortTerm.eq_group_of_mem hb, hnone⟩
      exact ⟨g, hg, hfit.ports b (List.mem_append_right _ hb) g hg⟩
    obtain ⟨rule, hrule, hobscure, hsrcIps, hdstIps, hsrcPorts, hdstPorts, hunresolved⟩ :=
      extendedSpecs_of_parts ruleId rawLine action protos (lower ace.proto)
        (consumeIpSpec_term ace.src _) hsrc (consumeIpSpec_term ace.dst _) hlast
    refine ⟨rule, hrule, ?_, fun hno => absurd hmore hno,
      fun _ _ _ => ⟨hobscure, hsrcIps, hdstIps, hsrcPorts, hdstPorts⟩⟩
    have hquals : qualifierReasons (consumeTrailingQualifiers
        (ace.dports.more.map PortTok.text ++ ace.keywords) (lower ace.proto)) ≠ [] ↔
          ace.dports.more ≠ [] := by
      rw [Ne, qualifierReasons_eq_nil_iff, consumeTrailingQualifiers_end]
      exact not_congr List.map_eq_nil_iff
    have hports : ¬ ∃ a ∈ ace.portGroups, get? groups a = none := by
      rintro ⟨a, ha, hnone⟩
      rcases List.mem_append.mp ha with ha | ha
      · exact hsports a ha hnone
      · exact hdports ⟨a, PortTerm.eq_group_of_mem ha, hnone⟩
    unfold Marked
    rw [hunresolved, Ne, List.append_eq_nil_iff, List.append_eq_nil_iff, not_and_or, not_and_or,
      ← Ne, ← Ne, ← Ne, hquals, AddrTerm.reasons_ne_nil_iff, AddrTerm.reasons_ne_nil_iff, or_assoc,
      or_iff_right hports, or_iff_right (not_not.mpr hmore), or_iff_right (hswallowed _),
      and_iff_right hplace]

theorem extendedSpecs_reading (hfit : ace.Fits groups) :
    ∃ rule, extendedSpecs ruleId action rawLine groups (lower ace.proto) protos ace.specTokens =
      .ok rule ∧ ace.Reading groups rule := by
  by_cases hmore : ace.sports.more = []
  · by_cases hplace : ace.Swallowed groups
    · exact reading_of_swallowed ruleId rawLine action protos hplace
    · by_cases hsports : ∀ a ∈ ace.sports.names, get? groups a ≠ none
      · exact reading_of_read ruleId rawLine action protos hfit hsports hmore hplace
      · push Not at hsports
        obtain ⟨a, ha, hnone⟩ := hsports
        exact reading_of_undefined ruleId rawLine action protos
          ⟨a, PortTerm.eq_group_of_mem ha, hnone⟩
  · exact reading_of_several ruleId rawLine action protos hmore

end Specs

theorem parseAceLine_reading (hfit : ace.Fits groups) {line seq kind : String}
    (hline : split line = ace.tokens) (hstd : startsWith kind "standard" = false)
    (hnamed : kind ≠ "named-std") :
    ∃ rule, parseAceLine line seq kind groups = some rule ∧ ace.Reading groups rule := by
  have hproto : ∃ rule, extendedRule seq (if ace.permit then .permit else .deny) line groups
      (ace.proto :: ace.specTokens) = .ok rule ∧ ace.Reading groups rule := by
    unfold extendedRule protocolRule
    dsimp only
    cases hnum : protoFromName (lower ace.proto) with
    | some n => exact extendedSpecs_reading seq line _ _ hfit
    | none =>
      have hany : lower ace.proto ∈ ["ip", "ipv4", "ip4", "any", "all"] := by
        refine ace.known.resolve_left ?_
        rw [hnum]
        exact Bool.false_ne_true
      dsimp only
      rw [if_pos hany]
      exact extendedSpecs_reading seq line _ _ hfit
  obtain ⟨rule, hrule, hreading⟩ := hproto
  exact ⟨rule, parseAceLine_of_action hline hstd hnamed hrule, hreading⟩

end GroupAce

/-! ## The rule against the groups -/

section Resolved

variable {ds : List Definition} {raw : ObjectGroups} {ace : GroupAce} {a : String}
  (h : ∀ name, get? raw name = (defined ds name).map Definition.group)

include h

theorem get?_resolved_eq_none_iff : get? (resolveGroups raw) a = none ↔ defined ds a = none := by
  cases hd : defined ds a with
  | none => exact iff_of_true (resolved_of_not_defined h hd) rfl
  | some d =>
    obtain ⟨g, hg, -⟩ := resolved_of_defined h hd
    rw [hg]
    exact iff_of_false (fun hno => nomatch hno) fun hno => nomatch hno

theorem cubesRead_eq_nil_iff : cubesRead (resolveGroups raw) a = [] ↔ ¬ Leads ds a := by
  cases hd : defined ds a with
  | none =>
    refine iff_of_true (cubesRead_of_undefined (resolved_of_not_defined h hd)) ?_
    rintro ⟨d, toks, ⟨x, hreach, hx, -⟩, -⟩
    rcases Relation.ReflTransGen.cases_head hreach with rfl | ⟨y, ⟨e, he, -⟩, -⟩
    · rw [hd] at hx
      cases hx
    · rw [hd] at he
      cases he
  | some d =>
    obtain ⟨g, hg, -, hcubes, -⟩ := resolved_of_defined h hd
    have hgroup : cubesRead (resolveGroups raw) a = g.cubes := by
      unfold cubesRead
      rw [hg]
      rfl
    rw [hgroup, ← leads_iff hcubes, not_not]

theorem ports_ne_nil_iff {g : IOSObjectGroup} (hg : get? (resolveGroups raw) a = some g) :
    g.ports ≠ [] ↔ GroupAce.HasPorts ds a := by
  cases hd : defined ds a with
  | none =>
    rw [resolved_of_not_defined h hd] at hg
    cases hg
  | some d =>
    obtain ⟨g', hg', -, -, hports⟩ := resolved_of_defined h hd
    rw [hg] at hg'
    obtain rfl := Option.some.inj hg'
    constructor
    · intro hne
      obtain ⟨q, hq⟩ := List.exists_mem_of_ne_nil _ hne
      obtain ⟨x, e, hreach, he, hq⟩ := (hports q).mp hq
      exact ⟨x, e, hreach, he, List.ne_nil_of_mem hq⟩
    · rintro ⟨x, e, hreach, he, hne⟩
      obtain ⟨q, hq⟩ := List.exists_mem_of_ne_nil _ hne
      exact List.ne_nil_of_mem ((hports q).mpr ⟨x, e, hreach, he, hq⟩)

namespace GroupAce

theorem swallowed_iff : ace.Swallowed (resolveGroups raw) ↔ ace.Misplaced ds := by
  constructor
  · rintro ⟨hany, a, ha, g, hg, hne⟩
    exact ⟨hany, a, ha, (ports_ne_nil_iff h hg).mp hne⟩
  · rintro ⟨hany, a, ha, hports⟩
    refine ⟨hany, a, ha, ?_⟩
    cases hg : get? (resolveGroups raw) a with
    | some g => exact ⟨g, rfl, (ports_ne_nil_iff h hg).mpr hports⟩
    | none =>
      have hd := (get?_resolved_eq_none_iff h).mp hg
      obtain ⟨x, e, hreach, he, -⟩ := hports
      rcases Relation.ReflTransGen.cases_head hreach with rfl | ⟨y, ⟨e', he', -⟩, -⟩
      · rw [hd] at he
        cases he
      · rw [hd] at he'
        cases he'

theorem marked_iff : ace.Marked (resolveGroups raw) ↔ ace.Told ds := by
  unfold Marked Told
  simp only [get?_resolved_eq_none_iff h, cubesRead_eq_nil_iff h, swallowed_iff h]

theorem fits_of_proper (hproper : ace.Proper ds) : ace.Fits (resolveGroups raw) := by
  have hkind : ∀ {a g}, get? (resolveGroups raw) a = some g →
      ∃ d, defined ds a = some d ∧ g.kind = d.kind := by
    intro a g hg
    cases hd : defined ds a with
    | none =>
      rw [resolved_of_not_defined h hd] at hg
      cases hg
    | some d =>
      obtain ⟨g', hg', hk, -⟩ := resolved_of_defined h hd
      rw [hg] at hg'
      rw [Option.some.inj hg']
      exact ⟨d, rfl, hk⟩
  constructor
  · intro a ha g hg
    obtain ⟨d, hd, hk⟩ := hkind hg
    exact hk.trans (hproper.addresses a ha d hd)
  · intro a ha g hg
    obtain ⟨d, hd, hk⟩ := hkind hg
    rw [hk]
    exact hproper.ports a ha d hd

theorem exact_cubes_iff {t : AddrTerm} (hsound : ∀ a ∈ t.names, ¬ Flawed ds a) :
    t.Exact ds (t.cubes (resolveGroups raw)) ↔ ∀ a ∈ t.names, Leads ds a := by
  refine forall₂_congr fun a ha => ?_
  obtain rfl := AddrTerm.eq_group_of_mem ha
  have hgood := hsound a ha
  have hcubes : (AddrTerm.group a).cubes (resolveGroups raw) =
      if cubesRead (resolveGroups raw) a ≠ [] then cubesRead (resolveGroups raw) a
      else [Cube.any] := rfl
  rw [hcubes]
  by_cases hleads : Leads ds a
  · have hne : cubesRead (resolveGroups raw) a ≠ [] := fun hnil =>
      (cubesRead_eq_nil_iff h).mp hnil hleads
    rw [if_pos hne]
    refine iff_of_true (fun x => ?_) hleads
    cases hd : defined ds a with
    | none => exact absurd (.inl ⟨a, .refl, hd⟩) hgood
    | some d =>
      obtain ⟨g, hg, -, hc, -⟩ := resolved_of_defined h hd
      have hgroup : cubesRead (resolveGroups raw) a = g.cubes := by
        unfold cubesRead
        rw [hg]
        rfl
      rw [hgroup, ← addresses_of_resolved hc hgood x]
      simp only [Cube.containsIp_iff]
  · have hnil : ¬ cubesRead (resolveGroups raw) a ≠ [] := fun hne =>
      hne ((cubesRead_eq_nil_iff h).mpr hleads)
    rw [if_neg hnil]
    refine iff_of_false (fun hall => ?_) hleads
    exact not_groupHasAddress hleads 0
      ((hall 0).mp ⟨Cube.any, List.mem_singleton_self _, Cube.containsIp_any 0⟩)

theorem exact_read_iff {t : PortTerm} (hsound : ∀ a ∈ t.names, ¬ Flawed ds a) :
    t.Exact ds (t.read (resolveGroups raw)) ↔ ∀ a ∈ t.names, PortsNamed ds a := by
  refine forall₂_congr fun a ha => ?_
  obtain rfl := PortTerm.eq_group_of_mem ha
  have hgood := hsound a ha
  cases hd : defined ds a with
  | none => exact absurd (.inl ⟨a, .refl, hd⟩) hgood
  | some d =>
    obtain ⟨g, hg, -, -, hports⟩ := resolved_of_defined h hd
    have hread : (PortTerm.group a).read (resolveGroups raw) = some (PortSet.fromList g.ports) := by
      unfold PortTerm.read
      dsimp only
      rw [hg]
      rfl
    rw [hread]
    exact ports_of_resolved hports hgood

/-- The rule that the parser makes of an entry is what its groups say, or is marked, under these
conditions. -/
theorem follows_iff_of_reading {rule : Rule} (hreading : ace.Reading (resolveGroups raw) rule)
    (hproper : ace.Proper ds) :
    ace.Follows ds rule ↔ (ace.NamesFlawed ds → ace.Told ds) ∧
      (¬ ace.NamesFlawed ds → ace.sports.more = [] ∧ (∀ a ∈ ace.addressGroups, Leads ds a) ∧
        ∀ a ∈ ace.portGroups, PortsNamed ds a) := by
  have hmarked : rule.unresolved ≠ [] ↔ ace.Told ds := hreading.marked.trans (marked_iff h)
  by_cases hflawed : ace.NamesFlawed ds
  · constructor
    · exact fun hfollows => ⟨fun _ => hmarked.mp (hfollows.marked hflawed), absurd hflawed⟩
    · exact fun hcond => ⟨fun _ => hmarked.mpr (hcond.1 hflawed), absurd hflawed, absurd hflawed,
        absurd hflawed, absurd hflawed, absurd hflawed⟩
  · have haddress : ∀ a ∈ ace.addressGroups, ¬ Flawed ds a := fun a ha hno =>
      hflawed ⟨a, List.mem_append_left _ ha, hno⟩
    have hport : ∀ a ∈ ace.portGroups, ¬ Flawed ds a := fun a ha hno =>
      hflawed ⟨a, List.mem_append_right _ ha, hno⟩
    have hdefined : ∀ a ∈ ace.portGroups, get? (resolveGroups raw) a ≠ none := fun a ha hnone =>
      hport a ha (.inl ⟨a, .refl, (get?_resolved_eq_none_iff h).mp hnone⟩)
    have hplace : ¬ ace.Swallowed (resolveGroups raw) := by
      rw [swallowed_iff h]
      rintro ⟨-, a, ha, x, e, hreach, he, hne⟩
      have hmem : a ∈ ace.addressGroups := by
        unfold addressGroups
        rw [ha]
        exact List.mem_append_right _ (List.mem_singleton_self a)
      cases hd : defined ds a with
      | none => exact haddress a hmem (.inl ⟨a, .refl, hd⟩)
      | some d =>
        have hservice : e.IsService := by
          by_contra hno
          unfold Definition.ports at hne
          rw [if_neg hno] at hne
          exact hne rfl
        exact haddress a hmem (.inr (.inr ⟨d, x, e, hd, hreach, he, fun hiff =>
          Definition.not_isNetwork_of_isService hservice
            (hiff.mpr (hproper.addresses a hmem d hd))⟩))
    have hread : ace.sports.more = [] → _ := fun hmore => hreading.read hdefined hmore hplace
    constructor
    · intro hfollows
      refine ⟨fun hno => absurd hno hflawed, fun _ => ?_⟩
      have hmore : ace.sports.more = [] := by
        by_contra hno
        exact absurd ((hreading.several hno).symm.trans (hfollows.readable hflawed)) (by decide)
      obtain ⟨-, hsrc, hdst, hsports, hdports⟩ := hread hmore
      have hsrcLeads := (exact_cubes_iff h fun a ha =>
        haddress a (List.mem_append_left _ ha)).mp (hsrc ▸ hfollows.src hflawed)
      have hdstLeads := (exact_cubes_iff h fun a ha =>
        haddress a (List.mem_append_right _ ha)).mp (hdst ▸ hfollows.dst hflawed)
      have hsportsNamed := (exact_read_iff h fun a ha =>
        hport a (List.mem_append_left _ ha)).mp (hsports ▸ hfollows.sports hflawed)
      have hdportsNamed := (exact_read_iff h fun a ha =>
        hport a (List.mem_append_right _ ha)).mp (hdports ▸ hfollows.dports hflawed)
      refine ⟨hmore, fun a ha => ?_, fun a ha => ?_⟩
      · exact (List.mem_append.mp ha).elim (hsrcLeads a) (hdstLeads a)
      · exact (List.mem_append.mp ha).elim (hsportsNamed a) (hdportsNamed a)
    · rintro ⟨-, hcond⟩
      obtain ⟨hmore, hleads, hnamed⟩ := hcond hflawed
      obtain ⟨hobscure, hsrc, hdst, hsports, hdports⟩ := hread hmore
      refine ⟨fun hno => absurd hno hflawed, fun _ => hobscure, fun _ => ?_, fun _ => ?_,
        fun _ => ?_, fun _ => ?_⟩
      · rw [hsrc]
        exact (exact_cubes_iff h fun a ha => haddress a (List.mem_append_left _ ha)).mpr
          fun a ha => hleads a (List.mem_append_left _ ha)
      · rw [hdst]
        exact (exact_cubes_iff h fun a ha => haddress a (List.mem_append_right _ ha)).mpr
          fun a ha => hleads a (List.mem_append_right _ ha)
      · rw [hsports]
        exact (exact_read_iff h fun a ha => hport a (List.mem_append_left _ ha)).mpr
          fun a ha => hnamed a (List.mem_append_left _ ha)
      · rw [hdports]
        exact (exact_read_iff h fun a ha => hport a (List.mem_append_right _ ha)).mpr
          fun a ha => hnamed a (List.mem_append_right _ ha)

end GroupAce

end Resolved

def entryRule (lines : List String) (line seq kind : String) : Option Rule :=
  match parseObjectGroups lines with
  | .ok groups => parseAceLine line seq kind groups
  | .error _ => none

/-- For every set of definitions and every entry that names groups of them by their kinds, the rule
is what the groups say, and marked where one of them is flawed, exactly where every address can be
read, the parser tells of every flaw, and otherwise every address group leads with an address and
every port of a port group is named. -/
theorem follows_iff {lines : List String} {ace : GroupAce} {line seq kind : String}
    (hproper : ace.Proper (written lines)) (hline : split line = ace.tokens)
    (hstd : startsWith kind "standard" = false) (hnamed : kind ≠ "named-std") :
    (∃ rule, entryRule lines line seq kind = some rule ∧ ace.Follows (written lines) rule) ↔
      AllReadable (written lines) ∧
        (ace.NamesFlawed (written lines) → ace.Told (written lines)) ∧
        (¬ ace.NamesFlawed (written lines) → ace.sports.more = [] ∧
          (∀ a ∈ ace.addressGroups, Leads (written lines) a) ∧
          ∀ a ∈ ace.portGroups, PortsNamed (written lines) a) := by
  obtain ⟨hreadable, hraw⟩ := parseObjectGroups_iff lines
  unfold entryRule
  cases hgroups : parseObjectGroups lines with
  | error e =>
    refine iff_of_false ?_ ?_
    · rintro ⟨rule, hrule, -⟩
      exact nomatch hrule
    · rintro ⟨hall, -⟩
      obtain ⟨groups, hok⟩ := hreadable.mp hall
      rw [hgroups] at hok
      exact nomatch hok
  | ok groups =>
    obtain ⟨raw, hget, rfl⟩ := hraw groups hgroups
    have hfit := GroupAce.fits_of_proper hget hproper
    obtain ⟨rule, hrule, hreading⟩ : ∃ rule,
        parseAceLine line seq kind (resolveGroups raw) = some rule ∧
          ace.Reading (resolveGroups raw) rule :=
      GroupAce.parseAceLine_reading hfit hline hstd hnamed
    rw [and_iff_right (hreadable.mpr ⟨_, hgroups⟩),
      ← GroupAce.follows_iff_of_reading hget hreading hproper]
    dsimp only
    constructor
    · rintro ⟨rule', hrule', hfollows⟩
      rw [hrule] at hrule'
      rwa [Option.some.inj hrule']
    · exact fun hfollows => ⟨rule, hrule, hfollows⟩

/-- Two groups of addresses that refer to each other, and a group of ports. -/
def cyclicGroups : List String :=
  ["object-group network BRANCHES",
    " 10.1.0.0 255.255.0.0",
    " group-object OFFICES",
    "object-group network OFFICES",
    " host 192.168.1.1",
    " group-object BRANCHES",
    "object-group service WEB",
    " tcp eq 80",
    " tcp range 8000 8080"]

/-- `permit tcp object-group BRANCHES any object-group WEB`. -/
def webEntry : GroupAce where
  permit := true
  proto := "tcp"
  src := .group "BRANCHES"
  sports := .any
  dst := .spec .any
  dports := .group "WEB"
  established := false
  log := false
  known := .inl (by decide)
  portless := .inr (.inl (by decide))

theorem follows_iff_webEntry :
    (∃ rule, entryRule cyclicGroups "permit tcp object-group BRANCHES any object-group WEB" "10"
        "named-ext" = some rule ∧ webEntry.Follows (written cyclicGroups) rule) ↔
      AllReadable (written cyclicGroups) ∧
        (webEntry.NamesFlawed (written cyclicGroups) → webEntry.Told (written cyclicGroups)) ∧
        (¬ webEntry.NamesFlawed (written cyclicGroups) → webEntry.sports.more = [] ∧
          (∀ a ∈ webEntry.addressGroups, Leads (written cyclicGroups) a) ∧
          ∀ a ∈ webEntry.portGroups, PortsNamed (written cyclicGroups) a) := by
  have hnetwork : ∀ d ∈ defined (written cyclicGroups) "BRANCHES", d.IsNetwork := by
    decide
  have hservice : ∀ d ∈ defined (written cyclicGroups) "WEB", d.IsService := by decide
  refine follows_iff ⟨fun a ha d hd => ?_, fun a ha d hd => ?_⟩ (by decide) (by decide)
    (by decide)
  · obtain rfl := List.mem_singleton.mp ha
    exact hnetwork d hd
  · obtain rfl := List.mem_singleton.mp ha
    exact hservice d hd

/-- A group that refers to one that is not there, and one with a line that is not understood. -/
def flawedGroups : List String :=
  ["object-group network ADMINS",
    " host 10.0.0.1",
    " group-object CONTRACTORS",
    "object-group network LABS",
    " host 10.0.0.2",
    " range 10.0.0.3 10.0.0.9"]

/-- `deny ip object-group NAME any`. -/
def denyEntry (name : String) : GroupAce where
  permit := false
  proto := "ip"
  src := .group name
  sports := .any
  dst := .spec .any
  dports := .any
  established := false
  log := false
  known := .inr (by decide)
  portless := .inl ⟨rfl, rfl⟩

/-- The reference and the line are passed over, and the rules are not marked. -/
theorem flaws_not_told :
    ((denyEntry "ADMINS").Proper (written flawedGroups) ∧
      Flawed (written flawedGroups) "ADMINS" ∧
      ∃ rule, entryRule flawedGroups "deny ip object-group ADMINS any" "10" "named-ext" =
        some rule ∧ ¬ (denyEntry "ADMINS").Follows (written flawedGroups) rule) ∧
    (denyEntry "LABS").Proper (written flawedGroups) ∧
      Flawed (written flawedGroups) "LABS" ∧
      ∃ rule, entryRule flawedGroups "deny ip object-group LABS any" "20" "named-ext" =
        some rule ∧ ¬ (denyEntry "LABS").Follows (written flawedGroups) rule := by
  have hproper : ∀ name, (∀ d ∈ defined (written flawedGroups) name, d.IsNetwork) →
      (denyEntry name).Proper (written flawedGroups) := by
    intro name hnetwork
    refine ⟨fun a ha d hd => ?_, fun a ha => nomatch ha⟩
    rw [List.mem_singleton.mp ha] at hd
    exact hnetwork d hd
  have hunmarked : ∀ {name line seq : String},
      (entryRule flawedGroups line seq "named-ext").map Rule.unresolved = some [] →
        Flawed (written flawedGroups) name →
        ∃ rule, entryRule flawedGroups line seq "named-ext" = some rule ∧
          ¬ (denyEntry name).Follows (written flawedGroups) rule := by
    intro name line seq hrule hflawed
    obtain ⟨rule, hrule, hnil⟩ := Option.map_eq_some_iff.mp hrule
    refine ⟨rule, hrule, fun hfollows => ?_⟩
    exact hfollows.marked ⟨name, List.mem_singleton_self name, hflawed⟩ hnil
  obtain ⟨admins, hadmins, href⟩ : ∃ d, defined (written flawedGroups) "ADMINS" = some d ∧
      "CONTRACTORS" ∈ d.refs := by
    have hrefs : (defined (written flawedGroups) "ADMINS").map Definition.refs =
        some ["CONTRACTORS"] := by decide
    obtain ⟨d, hd, hrefs⟩ := Option.map_eq_some_iff.mp hrefs
    exact ⟨d, hd, hrefs ▸ List.mem_singleton_self _⟩
  have hmissing : defined (written flawedGroups) "CONTRACTORS" = none := by
    rw [← Option.isNone_iff_eq_none]
    decide
  have hadminsFlawed : Flawed (written flawedGroups) "ADMINS" :=
    .inl ⟨"CONTRACTORS", .single ⟨admins, hadmins, href⟩, hmissing⟩
  obtain ⟨labs, hlabs, hmem, hnone⟩ : ∃ d, defined (written flawedGroups) "LABS" = some d ∧
      ["range", "10.0.0.3", "10.0.0.9"] ∈ d.members ∧
        d.member ["range", "10.0.0.3", "10.0.0.9"] = none := by
    have hline : (defined (written flawedGroups) "LABS").map (fun d => (d.members,
        (d.member ["range", "10.0.0.3", "10.0.0.9"]).isNone)) =
          some ([["host", "10.0.0.2"], ["range", "10.0.0.3", "10.0.0.9"]], true) := by
      decide
    obtain ⟨d, hd, hline⟩ := Option.map_eq_some_iff.mp hline
    obtain ⟨hmembers, hnone⟩ := Prod.mk.inj hline
    exact ⟨d, hd, hmembers ▸ by decide, Option.isNone_iff_eq_none.mp hnone⟩
  have hlabsFlawed : Flawed (written flawedGroups) "LABS" :=
    .inr (.inl ⟨labs, _, ⟨"LABS", .refl, hlabs, hmem⟩, hnone⟩)
  exact ⟨⟨hproper _ (by decide), hadminsFlawed,
    hunmarked (by decide) hadminsFlawed⟩, hproper _ (by decide), hlabsFlawed, hunmarked (by decide) hlabsFlawed⟩

end SentinelNet.PolicyTest
