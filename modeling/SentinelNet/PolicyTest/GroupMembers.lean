import SentinelNet.PolicyTest.Ace
import SentinelNet.PolicyTest.GroupDefinitions

/-!
# What the lines of object groups say

A member line says addresses, ports or another group, or is not understood.  A group has the
addresses and the ports of all lines that are reached from it.  Where no group is missing and every
line is understood, the addresses of the parsed group are these.  The ports are these when port zero
is named and no description speaks of ports.

* `addresses_of_resolved`, `ports_of_resolved`: what the parsed groups have of it.
-/

namespace SentinelNet.PolicyTest

open PyText PyDict

/-! ## What the lines say -/

/-- What a member line says: addresses, the ports of a half-open range, another group, or nothing
but a description. -/
inductive Member where
  | addresses (c : Cube)
  | ports (lo hi : ℕ)
  | group (name : String)
  | note

def portMember : List String → Option Member
  | [op, v] =>
    match lower op, parsePortVal v with
    | "eq", some p => some (.ports p (p + 1))
    | "gt", some p => some (.ports (p + 1) 65536)
    | "lt", some p => some (.ports 0 p)
    | _, _ => none
  | [op, v, w] =>
    if lower op = "range" then
      match parsePortVal v, parsePortVal w with
      | some p, some q => some (.ports (min p q) (max p q + 1))
      | _, _ => none
    else none
  | _ => none

/-- The cube of a single address. -/
def hostCube (t : String) : Cube := Cube.make (addrOf t) (BitVec.allOnes 32)

/-- A line of addresses: `X`, `host X`, or `X Y` with a netmask or a wildcard. -/
def addressMember : List String → Option Member
  | [t] => if isIp t then some (.addresses (hostCube t)) else none
  | [t, u] =>
    if lower t = "host" then if isIp u then some (.addresses (hostCube u)) else none
    else if isIp t ∧ isIp u then some (.addresses (pairCube (addrOf t) (addrOf u)))
    else none
  | _ => none

/-- The protocols that a line of ports may start with. -/
def portProtocols : List String := ["tcp", "udp", "tcp-udp"]

/-- What a member line says, where it is one of the lines that the group takes. -/
def Definition.member (d : Definition) (toks : List String) : Option Member :=
  match toks with
  | [] => none
  | t :: rest =>
    if lower t = "description" then some .note
    else if ¬ d.IsNetwork ∧ ¬ d.IsService then none
    else if lower t = "group-object" then
      match rest with
      | [name] => some (.group name)
      | _ => none
    else if d.IsNetwork then addressMember toks
    else if lower t ∈ portProtocols then portMember rest
    else portMember toks

section Meaning

variable (ds : List Definition) (a : String)

def ReachedLine (d : Definition) (toks : List String) : Prop :=
  ∃ x, ReachesGroup ds a x ∧ defined ds x = some d ∧ toks ∈ d.members

/-- An address of the lines that are reached. -/
def GroupHasAddress (x : Addr) : Prop :=
  ∃ d toks c, ReachedLine ds a d toks ∧ d.member toks = some (.addresses c) ∧ x ∈ c.addrs

/-- A port of the lines that are reached. -/
def GroupHasPort (p : ℕ) : Prop :=
  ∃ d toks lo hi, ReachedLine ds a d toks ∧ d.member toks = some (.ports lo hi) ∧ lo ≤ p ∧ p < hi

/-- A group that is reached is not defined, a line that is reached is not understood, or a
reference leads from a group of addresses to one of ports or back. -/
def Flawed : Prop :=
  (∃ x, ReachesGroup ds a x ∧ defined ds x = none) ∨
    (∃ d toks, ReachedLine ds a d toks ∧ d.member toks = none) ∨
    ∃ d x e, defined ds a = some d ∧ ReachesGroup ds a x ∧ defined ds x = some e ∧
      ¬ (e.IsNetwork ↔ d.IsNetwork)

/-- A line that is reached leads with an address. -/
def Leads : Prop :=
  ∃ d toks, ReachedLine ds a d toks ∧ d.IsNetwork ∧ leadingAddresses toks ≠ []

/-- Port zero is named by `eq` or `range` where it is one of the ports, and the words of a
description name no other port. -/
structure PortsNamed : Prop where
  zero : GroupHasPort ds a 0 →
    ∃ x d hi, ReachesGroup ds a x ∧ defined ds x = some d ∧ (0, hi) ∈ d.ports
  notes : ∀ d toks, ReachedLine ds a d toks → d.IsService → d.member toks = some .note →
    ∀ q ∈ namedPorts toks, ∀ p : ℕ, q.1 ≤ p → p ≤ q.2 → GroupHasPort ds a p

end Meaning

/-! ## Lines of addresses -/

theorem not_isIp_of_lower {t w : String} (h : lower t = w)
    (hw : w.toList.head?.any Char.isDigit = false) : isIp t = false := by
  rw [← Bool.not_eq_true]
  intro hip
  have hdigit := Ipv4.head?_isDigit_of_isQuad hip
  cases ht : t.toList with
  | nil =>
    rw [ht] at hdigit
    cases hdigit
  | cons c cs =>
    rw [ht] at hdigit
    have hc : c.isDigit = true := hdigit
    rw [← h, lower, String.toList_ofList, ht, List.map_cons, List.head?_cons, toLower_of_isDigit hc]
      at hw
    rw [show (some c).any Char.isDigit = c.isDigit from rfl, hc] at hw
    cases hw

variable {toks : List String}

theorem leadingCubes_eq_nil_iff : leadingCubes toks = [] ↔ leadingAddresses toks = [] := by
  have hshape : leadingAddresses toks = [] ∨ (∃ a, leadingAddresses toks = [a]) ∨
      ∃ a b, leadingAddresses toks = [a, b] := by
    unfold leadingAddresses
    split
    · exact .inl rfl
    · split
      · exact .inr (.inl ⟨_, rfl⟩)
      · exact .inl rfl
    · split
      · exact .inr (.inl ⟨_, rfl⟩)
      · split
        · exact .inl rfl
        · split
          · exact .inr (.inr ⟨_, _, rfl⟩)
          · split
            · exact .inr (.inl ⟨_, rfl⟩)
            · exact .inl rfl
  unfold leadingCubes
  rcases hshape with h | ⟨a, h⟩ | ⟨a, b, h⟩
  · rw [h]
    exact iff_of_true rfl rfl
  · rw [h]
    exact iff_of_false (List.cons_ne_nil _ _) (List.cons_ne_nil _ _)
  · rw [h]
    exact iff_of_false (List.cons_ne_nil _ _) (List.cons_ne_nil _ _)

theorem leadingCubes_of_addressMember {m : Member}
    (h : addressMember toks = some m) : ∃ c, m = .addresses c ∧ leadingCubes toks = [c] := by
  match toks with
  | [] => cases h
  | [t] =>
    unfold addressMember at h
    dsimp only at h
    split at h
    · next ht =>
      refine ⟨hostCube t, (Option.some.inj h).symm, ?_⟩
      have hlead : leadingAddresses [t] = [t] := if_pos ht
      unfold leadingCubes
      rw [hlead]
      rfl
    · cases h
  | [t, u] =>
    unfold addressMember at h
    dsimp only at h
    split at h
    · next hhost =>
      split at h
      · next hu =>
        refine ⟨hostCube u, (Option.some.inj h).symm, ?_⟩
        have hlead : leadingAddresses [t, u] = [u] := if_pos ⟨hhost, hu⟩
        unfold leadingCubes
        rw [hlead]
        rfl
      · cases h
    · next hhost =>
      split at h
      · next hpair =>
        have hgroup : lower t ≠ "group-object" := by
          intro hgroup
          rw [not_isIp_of_lower hgroup (by decide)] at hpair
          exact nomatch hpair.1
        refine ⟨_, (Option.some.inj h).symm, ?_⟩
        have hlead : leadingAddresses [t, u] = [t, u] := by
          unfold leadingAddresses
          dsimp only
          rw [if_neg fun hc => hhost hc.1, if_neg hgroup, if_pos hpair]
        unfold leadingCubes
        rw [hlead]
      · cases h
  | _ :: _ :: _ :: _ => cases h

theorem leadingAddresses_of_word {t : String} {rest : List String} {w : String} (h : lower t = w)
    (hw : w.toList.head?.any Char.isDigit = false) (hhost : w ≠ "host") :
    leadingAddresses (t :: rest) = [] := by
  have hip := not_isIp_of_lower h hw
  cases rest with
  | nil =>
    unfold leadingAddresses
    dsimp only
    rw [hip]
    rfl
  | cons u rest =>
    unfold leadingAddresses
    dsimp only
    rw [hip, if_neg fun hc => hhost (h.symm.trans hc.1)]
    split
    · rfl
    · rfl

namespace Definition

variable {d : Definition}

/-- A line of a network group that is understood leads with addresses exactly where it says
them. -/
theorem leadingCubes_of_member (hd : d.IsNetwork) {toks : List String} {m : Member}
    (h : d.member toks = some m) :
    (∃ c, m = .addresses c ∧ leadingCubes toks = [c]) ∨
      ((∀ c, m ≠ .addresses c) ∧ leadingCubes toks = []) := by
  match toks with
  | [] => cases h
  | t :: rest =>
    unfold member at h
    dsimp only at h
    split at h
    · next hnote =>
      refine .inr ⟨fun c hc => ?_, ?_⟩
      · rw [← Option.some.inj h] at hc
        cases hc
      · exact leadingCubes_eq_nil_iff.mpr (leadingAddresses_of_word hnote (by decide) (by decide))
    · rw [if_neg fun hno => hno.1 hd] at h
      split at h
      · next hgroup =>
        refine .inr ⟨fun c hc => ?_, ?_⟩
        · split at h
          · rw [← Option.some.inj h] at hc
            cases hc
          · cases h
        · exact leadingCubes_eq_nil_iff.mpr
            (leadingAddresses_of_word hgroup (by decide) (by decide))
      · exact .inl (leadingCubes_of_addressMember h)

end Definition

/-! ## Lines of ports -/

theorem namedPorts_cons (t : String) (rest : List String) :
    namedPorts (t :: rest) = portItem (t :: rest) ++ namedPorts rest := by
  unfold namedPorts
  rw [List.tails_cons, List.flatMap_cons]

def groupOperators : List String := ["eq", "range", "gt", "lt"]

theorem portItem_of_notMem {t : String} (h : lower t ∉ groupOperators) (rest : List String) :
    portItem (t :: rest) = [] := by
  unfold portItem
  split
  · rfl
  · next t' args heq =>
    obtain ⟨rfl, rfl⟩ := List.cons.inj heq
    split
    · next hw => exact absurd (hw ▸ by decide) h
    · next hw => exact absurd (hw ▸ by decide) h
    · next hw => exact absurd (hw ▸ by decide) h
    · next hw => exact absurd (hw ▸ by decide) h
    · rfl

theorem lower_notMem_of_parsePortVal {v : String} {p : ℕ} (h : parsePortVal v = some p) :
    lower v ∉ groupOperators := by
  intro hop
  -- the letters of the stripped word are letters of the operator
  have hletters : ∀ c ∈ (lower (strip v)).toList, c ∈ (lower v).toList := by
    intro c hc
    rw [lower, String.toList_ofList, strip, String.toList_ofList] at hc
    rw [lower, String.toList_ofList]
    obtain ⟨d, hd, rfl⟩ := List.mem_map.mp hc
    exact List.mem_map_of_mem ((List.dropWhile_suffix _).subset
      ((List.rdropWhile_prefix isSpace _).subset hd))
  have hdigits : ∀ w ∈ groupOperators, ∀ c ∈ w.toList, c.isDigit = false := by decide
  have hnames : ∀ w ∈ groupOperators, ∀ q ∈ portNames,
      q.1.toList.all (fun c => c ∈ w.toList) = false := by
    decide
  unfold parsePortVal at h
  dsimp only at h
  split at h
  · next hdigit =>
    rw [isdigit, isDigits, Bool.and_eq_true] at hdigit
    obtain ⟨hne, hall⟩ := hdigit
    cases hchars : (lower (strip v)).toList with
    | nil =>
      rw [hchars] at hne
      cases hne
    | cons c cs =>
      have hc : c ∈ (lower (strip v)).toList := by
        rw [hchars]
        exact List.mem_cons_self ..
      have htrue : c.isDigit = true := List.all_eq_true.mp hall c hc
      rw [hdigits _ hop c (hletters c hc)] at htrue
      cases htrue
  · obtain ⟨c, hc, hnot⟩ := List.all_eq_false.mp (hnames _ hop _ (mem_of_get? h))
    exact hnot (decide_eq_true (hletters c hc))

theorem parsePortVal_le {v : String} {p : ℕ} (h : parsePortVal v = some p) : p ≤ 65535 := by
  unfold parsePortVal at h
  dsimp only at h
  split at h
  · split at h
    · next hle => exact Option.some.inj h ▸ hle
    · cases h
  · exact portNames_le h

section Operators

variable {op : String} (v w : String) (rest : List String)

theorem portItem_eq (h : lower op = "eq") : portItem (op :: v :: rest) =
    match parsePortVal v with
    | some p => [((p : ℤ), (p : ℤ))]
    | none => [] := by
  unfold portItem
  dsimp only
  split
  · next heq =>
    obtain ⟨rfl, -⟩ := List.cons.inj heq
    cases parsePortVal v with
    | none => rfl
    | some p => rfl
  · next hop _ => exact absurd (h.symm.trans hop) (by decide)
  · next hop _ => exact absurd (h.symm.trans hop) (by decide)
  · next hop _ => exact absurd (h.symm.trans hop) (by decide)
  · next hno _ _ _ => exact absurd rfl (hno v rest h)

theorem portItem_gt (h : lower op = "gt") : portItem (op :: v :: rest) =
    match parsePortVal v with
    | some p => if p < 65535 then [((p : ℤ) + 1, 65535)] else []
    | none => [] := by
  unfold portItem
  dsimp only
  split
  · next hop _ => exact absurd (h.symm.trans hop) (by decide)
  · next hop _ => exact absurd (h.symm.trans hop) (by decide)
  · next heq =>
    obtain ⟨rfl, -⟩ := List.cons.inj heq
    cases parsePortVal v with
    | none => rfl
    | some p => rfl
  · next hop _ => exact absurd (h.symm.trans hop) (by decide)
  · next hno _ => exact absurd rfl (hno v rest h)

theorem portItem_lt (h : lower op = "lt") : portItem (op :: v :: rest) =
    match parsePortVal v with
    | some p => if p > 1 then [(1, (p : ℤ) - 1)] else []
    | none => [] := by
  unfold portItem
  dsimp only
  split
  · next hop _ => exact absurd (h.symm.trans hop) (by decide)
  · next hop _ => exact absurd (h.symm.trans hop) (by decide)
  · next hop _ => exact absurd (h.symm.trans hop) (by decide)
  · next heq =>
    obtain ⟨rfl, -⟩ := List.cons.inj heq
    cases parsePortVal v with
    | none => rfl
    | some p => rfl
  · next hno => exact absurd rfl (hno v rest h)

theorem portItem_range (h : lower op = "range") : portItem (op :: v :: w :: rest) =
    match parsePortVal v, parsePortVal w with
    | some p, some q => [((min p q : ℤ), (max p q : ℤ))]
    | _, _ => [] := by
  unfold portItem
  dsimp only
  split
  · next hop _ => exact absurd (h.symm.trans hop) (by decide)
  · next heq =>
    obtain ⟨rfl, hvs⟩ := List.cons.inj heq
    obtain ⟨rfl, -⟩ := List.cons.inj hvs
    cases parsePortVal v with
    | none => rfl
    | some p =>
      cases parsePortVal w with
      | none => rfl
      | some q => rfl
  · next hop _ => exact absurd (h.symm.trans hop) (by decide)
  · next hop _ => exact absurd (h.symm.trans hop) (by decide)
  · next hno _ _ => exact absurd rfl (hno v w rest h)

end Operators

theorem ordered_of_mem_namedPorts {q : ℤ × ℤ} (h : q ∈ namedPorts toks) :
    0 ≤ q.1 ∧ q.1 ≤ q.2 ∧ q.2 ≤ 65535 := by
  obtain ⟨item, -, hq⟩ := List.mem_flatMap.mp h
  unfold portItem at hq
  split at hq
  · cases hq
  · split at hq
    · split at hq
      · next p hp =>
        have hle := parsePortVal_le hp
        rw [List.mem_singleton.mp hq]
        dsimp only
        omega
      · cases hq
    · split at hq
      · next p₁ p₂ hp₁ hp₂ =>
        have hle₁ := parsePortVal_le hp₁
        have hle₂ := parsePortVal_le hp₂
        rw [List.mem_singleton.mp hq]
        dsimp only
        omega
      · cases hq
    · split at hq
      · split at hq
        · rw [List.mem_singleton.mp hq]
          dsimp only
          omega
        · cases hq
      · cases hq
    · split at hq
      · next p hp =>
        have hle := parsePortVal_le hp
        split at hq
        · rw [List.mem_singleton.mp hq]
          dsimp only
          omega
        · cases hq
      · cases hq
    · cases hq

/-- A line names the ports of a half-open range, except perhaps for port zero. -/
structure Names (toks : List String) (lo hi : ℕ) : Prop where
  covers : ∀ p : ℕ, 0 < p → lo ≤ p → p < hi → ∃ q ∈ namedPorts toks, q.1 ≤ p ∧ (p : ℤ) ≤ q.2
  within : ∀ q ∈ namedPorts toks, ∀ p : ℕ, q.1 ≤ p → (p : ℤ) ≤ q.2 → lo ≤ p ∧ p < hi

theorem names_of_nil {lo hi : ℕ} (h : namedPorts toks = [])
    (hnone : ∀ p : ℕ, 0 < p → lo ≤ p → ¬ p < hi) : Names toks lo hi := by
  refine ⟨fun p hp hlo hhi => absurd hhi (hnone p hp hlo), ?_⟩
  rw [h]
  exact fun q hq => nomatch hq

theorem names_of_singleton {lo hi : ℕ} {a b : ℤ} (h : namedPorts toks = [(a, b)])
    (hto : ∀ p : ℕ, 0 < p → lo ≤ p → p < hi → a ≤ p ∧ (p : ℤ) ≤ b)
    (hof : ∀ p : ℕ, a ≤ p → (p : ℤ) ≤ b → lo ≤ p ∧ p < hi) : Names toks lo hi := by
  constructor
  · intro p hp hlo hhi
    rw [h]
    exact ⟨(a, b), List.mem_singleton_self _, hto p hp hlo hhi⟩
  · intro q hq p hlo hhi
    rw [h] at hq
    rw [List.mem_singleton.mp hq] at hlo hhi
    exact hof p hlo hhi

theorem namedPorts_nil : namedPorts [] = [] := rfl

theorem names_of_portMember {m : Member} (h : portMember toks = some m) :
    ∃ lo hi, m = .ports lo hi ∧ hi ≤ 65536 ∧ Names toks lo hi := by
  match toks with
  | [] => cases h
  | [_] => cases h
  | [op, v] =>
    unfold portMember at h
    dsimp only at h
    have hnamed : ∀ p, parsePortVal v = some p → namedPorts [op, v] = portItem [op, v] := by
      intro p hp
      rw [namedPorts_cons, namedPorts_cons, portItem_of_notMem (lower_notMem_of_parsePortVal hp),
        namedPorts_nil, List.append_nil, List.append_nil]
    split at h
    · next p hop hp =>
      have hle := parsePortVal_le hp
      refine ⟨p, p + 1, (Option.some.inj h).symm, by omega, ?_⟩
      have hports : namedPorts [op, v] = [((p : ℤ), (p : ℤ))] := by
        rw [hnamed p hp, portItem_eq v [] hop, hp]
      exact names_of_singleton hports (fun x _ _ _ => by omega) fun x _ _ => by omega
    · next p hop hp =>
      have hle := parsePortVal_le hp
      refine ⟨p + 1, 65536, (Option.some.inj h).symm, le_rfl, ?_⟩
      by_cases hlast : p < 65535
      · have hports : namedPorts [op, v] = [((p : ℤ) + 1, 65535)] := by
          rw [hnamed p hp, portItem_gt v [] hop, hp]
          exact if_pos hlast
        exact names_of_singleton hports (fun x _ _ _ => by omega) fun x _ _ => by omega
      · have hports : namedPorts [op, v] = [] := by
          rw [hnamed p hp, portItem_gt v [] hop, hp]
          exact if_neg hlast
        exact names_of_nil hports fun x _ _ _ => by omega
    · next p hop hp =>
      have hle := parsePortVal_le hp
      refine ⟨0, p, (Option.some.inj h).symm, by omega, ?_⟩
      by_cases hfirst : p > 1
      · have hports : namedPorts [op, v] = [(1, (p : ℤ) - 1)] := by
          rw [hnamed p hp, portItem_lt v [] hop, hp]
          exact if_pos hfirst
        exact names_of_singleton hports (fun x _ _ _ => by omega) fun x _ _ => by omega
      · have hports : namedPorts [op, v] = [] := by
          rw [hnamed p hp, portItem_lt v [] hop, hp]
          exact if_neg hfirst
        exact names_of_nil hports fun x _ _ _ => by omega
    · cases h
  | [op, v, w] =>
    unfold portMember at h
    dsimp only at h
    split at h
    · next hop =>
      split at h
      · next p q hp hq =>
        have hle := parsePortVal_le hp
        have hle' := parsePortVal_le hq
        refine ⟨min p q, max p q + 1, (Option.some.inj h).symm, by omega, ?_⟩
        have hports : namedPorts [op, v, w] = [((min p q : ℤ), (max p q : ℤ))] := by
          rw [namedPorts_cons, namedPorts_cons, namedPorts_cons,
            portItem_of_notMem (lower_notMem_of_parsePortVal hp),
            portItem_of_notMem (lower_notMem_of_parsePortVal hq), namedPorts_nil,
            portItem_range v w [] hop, hp, hq]
          rfl
        exact names_of_singleton hports (fun x _ _ _ => by omega) fun x _ _ => by omega
      · cases h
    · cases h
  | _ :: _ :: _ :: _ :: _ => cases h

namespace Definition

variable {d : Definition}

variable {toks : List String}

/-- A line of a service group that is understood says ports, which it names, or refers to another
group, or is a description. -/
theorem names_of_member (hd : d.IsService) {m : Member} (h : d.member toks = some m) :
    (∃ lo hi, m = .ports lo hi ∧ hi ≤ 65536 ∧ Names toks lo hi ∧ reference toks = none) ∨
      (∃ name, m = .group name ∧ reference toks = some name) ∨
      m = .note ∧ reference toks = none := by
  have hnetwork := not_isNetwork_of_isService hd
  have hreference : ∀ {t rest}, lower t ≠ "group-object" → reference (t :: rest) = none := by
    intro t rest ht
    cases rest with
    | nil => rfl
    | cons u rest => exact if_neg ht
  match toks with
  | [] => cases h
  | t :: rest =>
    unfold member at h
    dsimp only at h
    split at h
    · next hnote =>
      refine .inr (.inr ⟨(Option.some.inj h).symm, hreference ?_⟩)
      rw [hnote]
      decide
    · rw [if_neg fun hno => hno.2 hd] at h
      split at h
      · next hgroup =>
        split at h
        · next name =>
          exact .inr (.inl ⟨name, (Option.some.inj h).symm, if_pos hgroup⟩)
        · cases h
      · next hgroup =>
        split at h
        · next hproto =>
          obtain ⟨lo, hi, hm, hhi, hnames⟩ := names_of_portMember h
          have hop : lower t ∉ groupOperators := by
            have hall : ∀ w ∈ portProtocols, w ∉ groupOperators := by decide
            exact hall _ hproto
          have hsame : namedPorts (t :: rest) = namedPorts rest := by
            rw [namedPorts_cons, portItem_of_notMem hop, List.nil_append]
          refine .inl ⟨lo, hi, hm, hhi, ⟨?_, ?_⟩, hreference hgroup⟩
          · rw [hsame]
            exact hnames.covers
          · rw [hsame]
            exact hnames.within
        · obtain ⟨lo, hi, hm, hhi, hnames⟩ := names_of_portMember h
          exact .inl ⟨lo, hi, hm, hhi, hnames, hreference hgroup⟩

theorem isNetwork_of_addresses {c : Cube}
    (h : d.member toks = some (.addresses c)) : d.IsNetwork := by
  by_contra hnetwork
  by_cases hservice : d.IsService
  · rcases names_of_member hservice h with ⟨lo, hi, hm, -⟩ | ⟨name, hm, -⟩ | ⟨hm, -⟩
    · cases hm
    · cases hm
    · cases hm
  · match toks with
    | [] => cases h
    | t :: rest =>
      unfold member at h
      dsimp only at h
      split at h
      · cases h
      · rw [if_pos ⟨hnetwork, hservice⟩] at h
        cases h

theorem isService_of_ports {lo hi : ℕ} (h : d.member toks = some (.ports lo hi)) : d.IsService := by
  by_contra hservice
  by_cases hnetwork : d.IsNetwork
  · match toks with
    | [] => cases h
    | t :: rest =>
      unfold member at h
      dsimp only at h
      split at h
      · cases h
      · rw [if_neg fun hno => hno.1 hnetwork] at h
        split at h
        · split at h
          · cases h
          · cases h
        · obtain ⟨c, hc, -⟩ := leadingCubes_of_addressMember h
          cases hc
  · match toks with
    | [] => cases h
    | t :: rest =>
      unfold member at h
      dsimp only at h
      split at h
      · cases h
      · rw [if_pos ⟨hnetwork, hservice⟩] at h
        cases h

end Definition

/-! ## What the parsed groups have -/

theorem PortSet.clean_of_ordered {q : ℤ × ℤ} (hfst : 0 ≤ q.1) (hle : q.1 ≤ q.2)
    (hsnd : q.2 ≤ 65535) : PortSet.clean q = q := by
  unfold PortSet.clean
  rw [min_eq_right (hle.trans hsnd), min_eq_right hsnd, max_eq_right hfst,
    max_eq_right (hfst.trans hle)]
  exact if_neg (not_lt.mpr hle)

section Resolved

variable {ds : List Definition} {groups : ObjectGroups} {a : String} {d : Definition}

variable {cubes : List Cube}

theorem cubes_of_resolved
    (h : ∀ c, c ∈ cubes ↔ ∃ x e, ReachesGroup ds a x ∧ defined ds x = some e ∧ c ∈ e.cubes)
    (c : Cube) :
    c ∈ cubes ↔ ∃ e toks, ReachedLine ds a e toks ∧ e.IsNetwork ∧ c ∈ leadingCubes toks := by
  rw [h]
  unfold Definition.cubes
  constructor
  · rintro ⟨x, e, hreach, he, hc⟩
    split at hc
    · next hnetwork =>
      obtain ⟨toks, htoks, hc⟩ := List.mem_flatMap.mp hc
      exact ⟨e, toks, ⟨x, hreach, he, htoks⟩, hnetwork, hc⟩
    · cases hc
  · rintro ⟨e, toks, ⟨x, hreach, he, htoks⟩, hnetwork, hc⟩
    refine ⟨x, e, hreach, he, ?_⟩
    rw [if_pos hnetwork]
    exact List.mem_flatMap.mpr ⟨toks, htoks, hc⟩

theorem leads_iff
    (h : ∀ c, c ∈ cubes ↔ ∃ x e, ReachesGroup ds a x ∧ defined ds x = some e ∧ c ∈ e.cubes) :
    cubes ≠ [] ↔ Leads ds a := by
  constructor
  · intro hne
    obtain ⟨c, hc⟩ := List.exists_mem_of_ne_nil _ hne
    obtain ⟨e, toks, hline, hnetwork, hc⟩ := (cubes_of_resolved h c).mp hc
    exact ⟨e, toks, hline, hnetwork, fun hnil =>
      List.ne_nil_of_mem hc (leadingCubes_eq_nil_iff.mpr hnil)⟩
  · rintro ⟨e, toks, hline, hnetwork, hne⟩
    obtain ⟨c, hc⟩ := List.exists_mem_of_ne_nil _ fun hnil => hne (leadingCubes_eq_nil_iff.mp hnil)
    exact List.ne_nil_of_mem ((cubes_of_resolved h c).mpr ⟨e, toks, hline, hnetwork, hc⟩)

/-- Where nothing is missing, the addresses of a parsed group are those of the lines. -/
theorem addresses_of_resolved
    (h : ∀ c, c ∈ cubes ↔ ∃ x e, ReachesGroup ds a x ∧ defined ds x = some e ∧ c ∈ e.cubes)
    (hsound : ¬ Flawed ds a) (x : Addr) :
    (∃ c ∈ cubes, x ∈ c.addrs) ↔ GroupHasAddress ds a x := by
  have hunderstood : ∀ {e toks}, ReachedLine ds a e toks → ∃ m, e.member toks = some m := by
    intro e toks hline
    cases hm : e.member toks with
    | none => exact absurd (.inr (.inl ⟨e, toks, hline, hm⟩)) hsound
    | some m => exact ⟨m, rfl⟩
  constructor
  · rintro ⟨c, hc, hx⟩
    obtain ⟨e, toks, hline, hnetwork, hc⟩ := (cubes_of_resolved h c).mp hc
    obtain ⟨m, hm⟩ := hunderstood hline
    rcases Definition.leadingCubes_of_member hnetwork hm with ⟨c', rfl, hlead⟩ | ⟨-, hlead⟩
    · rw [hlead, List.mem_singleton] at hc
      rw [hc] at hx
      exact ⟨e, toks, c', hline, hm, hx⟩
    · rw [hlead] at hc
      cases hc
  · rintro ⟨e, toks, c, hline, hm, hx⟩
    have hnetwork := Definition.isNetwork_of_addresses hm
    rcases Definition.leadingCubes_of_member hnetwork hm with ⟨c', hc', hlead⟩ | ⟨hno, -⟩
    · obtain rfl := Member.addresses.inj hc'
      refine ⟨c, (cubes_of_resolved h c).mpr ⟨e, toks, hline, hnetwork, ?_⟩, hx⟩
      rw [hlead]
      exact List.mem_singleton_self c
    · exact absurd rfl (hno c)

theorem not_groupHasAddress (hleads : ¬ Leads ds a) (x : Addr) : ¬ GroupHasAddress ds a x := by
  rintro ⟨e, toks, c, hline, hm, -⟩
  have hnetwork := Definition.isNetwork_of_addresses hm
  refine hleads ⟨e, toks, hline, hnetwork, fun hnil => ?_⟩
  rcases Definition.leadingCubes_of_member hnetwork hm with ⟨c', -, hlead⟩ | ⟨hno, -⟩
  · rw [leadingCubes_eq_nil_iff.mpr hnil] at hlead
    cases hlead
  · exact hno c rfl

/-- Where nothing is missing, the ports of a parsed group are those of the lines exactly where port
zero is named and the descriptions speak of no other port. -/
theorem ports_of_resolved {ports : List (ℤ × ℤ)}
    (h : ∀ q, q ∈ ports ↔ ∃ x e, ReachesGroup ds a x ∧ defined ds x = some e ∧ q ∈ e.ports)
    (hsound : ¬ Flawed ds a) :
    (∀ p : ℕ, p ≤ 65535 →
      ((PortSet.fromList ports).containsPort p = true ↔ GroupHasPort ds a p)) ↔
      PortsNamed ds a := by
  have hunderstood : ∀ {e toks}, ReachedLine ds a e toks → ∃ m, e.member toks = some m := by
    intro e toks hline
    cases hm : e.member toks with
    | none => exact absurd (.inr (.inl ⟨e, toks, hline, hm⟩)) hsound
    | some m => exact ⟨m, rfl⟩
  have hports : ∀ q, q ∈ ports ↔ ∃ e toks, ReachedLine ds a e toks ∧ e.IsService ∧
      reference toks = none ∧ q ∈ namedPorts toks := by
    intro q
    rw [h]
    unfold Definition.ports
    constructor
    · rintro ⟨x, e, hreach, he, hq⟩
      split at hq
      · next hservice =>
        obtain ⟨toks, htoks, hq⟩ := List.mem_flatMap.mp hq
        obtain ⟨htoks, href⟩ := List.mem_filter.mp htoks
        exact ⟨e, toks, ⟨x, hreach, he, htoks⟩, hservice, of_decide_eq_true href, hq⟩
      · cases hq
    · rintro ⟨e, toks, ⟨x, hreach, he, htoks⟩, hservice, href, hq⟩
      refine ⟨x, e, hreach, he, ?_⟩
      rw [if_pos hservice]
      exact List.mem_flatMap.mpr ⟨toks, List.mem_filter.mpr ⟨htoks, decide_eq_true href⟩, hq⟩
  have hordered : ∀ q ∈ ports, 0 ≤ q.1 ∧ q.1 ≤ q.2 ∧ q.2 ≤ 65535 := by
    intro q hq
    obtain ⟨e, toks, -, -, -, hq⟩ := (hports q).mp hq
    exact ordered_of_mem_namedPorts hq
  have hset : ∀ p : ℕ, (PortSet.fromList ports).containsPort p = true ↔
      ∃ q ∈ ports, q.1 ≤ p ∧ (p : ℤ) ≤ q.2 := by
    intro p
    have hclean : ports.map PortSet.clean = ports.map id := by
      refine List.map_congr_left fun q hq => ?_
      have hle := hordered q hq
      exact PortSet.clean_of_ordered hle.1 hle.2.1 hle.2.2
    rw [PortSet.containsPort_fromList, hclean, List.map_id]
    exact Iff.rfl
  constructor
  · intro hexact
    constructor
    · intro hzero
      obtain ⟨q, hq, hlo, -⟩ := (hset 0).mp ((hexact 0 (by omega)).mpr hzero)
      have hfst : q.1 = 0 := le_antisymm hlo (hordered q hq).1
      obtain ⟨x, e, hreach, he, hq⟩ := (h q).mp hq
      refine ⟨x, e, q.2, hreach, he, ?_⟩
      rw [← hfst]
      exact hq
    · intro e toks hline hservice hnote q hq p hlo hhi
      have hle := (ordered_of_mem_namedPorts hq).2.2
      refine (hexact p (by omega)).mp ((hset p).mpr ⟨q, (hports q).mpr ?_, hlo, hhi⟩)
      rcases Definition.names_of_member hservice hnote with ⟨_, _, hm, -⟩ | ⟨_, hm, -⟩ | ⟨-, href⟩
      · cases hm
      · cases hm
      · exact ⟨e, toks, hline, hservice, href, hq⟩
  · intro hnamed p _
    rw [hset]
    constructor
    · rintro ⟨q, hq, hlo, hhi⟩
      obtain ⟨e, toks, hline, hservice, href, hq⟩ := (hports q).mp hq
      obtain ⟨m, hm⟩ := hunderstood hline
      rcases Definition.names_of_member hservice hm with
        ⟨lo, hi, rfl, -, hnames, -⟩ | ⟨name, -, hname⟩ | ⟨rfl, -⟩
      · obtain ⟨hlo', hhi'⟩ := hnames.within q hq p hlo hhi
        exact ⟨e, toks, lo, hi, hline, hm, hlo', hhi'⟩
      · rw [href] at hname
        cases hname
      · exact hnamed.notes e toks hline hservice hm q hq p hlo hhi
    · rintro ⟨e, toks, lo, hi, hline, hm, hlo, hhi⟩
      by_cases hzero : p = 0
      · rw [hzero] at hlo hhi ⊢
        obtain ⟨x, e', hi', hreach, he', hq⟩ :=
          hnamed.zero ⟨e, toks, lo, hi, hline, hm, hlo, hhi⟩
        have hmem : (0, hi') ∈ ports := (h _).mpr ⟨x, e', hreach, he', hq⟩
        exact ⟨_, hmem, le_rfl, (hordered _ hmem).2.1⟩
      · have hservice := Definition.isService_of_ports hm
        rcases Definition.names_of_member hservice hm with
          ⟨lo', hi', hm', -, hnames, href⟩ | ⟨_, hm', -⟩ | ⟨hm', -⟩
        · obtain ⟨rfl, rfl⟩ := Member.ports.inj hm'
          obtain ⟨q, hq, hlo', hhi'⟩ := hnames.covers p (Nat.pos_of_ne_zero hzero) hlo hhi
          exact ⟨q, (hports q).mpr ⟨e, toks, hline, hservice, href, hq⟩, hlo', hhi'⟩
        · cases hm'
        · cases hm'

end Resolved

end SentinelNet.PolicyTest
