import SentinelNet.Lib.FreeBits
import SentinelNet.PolicyTest.Examples

/-!
# Examples that match, and near misses that do not

Every dimension of the example of a rule is picked by itself.  The addresses are always inside: free
bits are set or added.  A port is the first one of the set, but a set that starts at port zero gives
a well-known port instead, which it need not have.  The near miss moves one dimension only, away
from the first cube or from the first element, and the rule may have the moved value elsewhere.

* `FieldSet.Pickable`, `matchesFlow_exampleFlow_iff`: when the example matches.
* `FieldSet.Missable`, `nearMiss_iff`: when the near miss does not.
* `illustrated_iff`: when a rule is illustrated as it should be.
-/

namespace SentinelNet.PolicyTest

open PyText

/-! ## Addresses -/

theorem eq_prefixMask_of_maskToPrefixLen {mask : Addr} {len : ℕ}
    (h : maskToPrefixLen mask = some len) : mask = Cube.prefixMask len := by
  have hzero : BitVec.ofNat 32 (0xFFFFFFFF <<< (32 - 0)) = Cube.prefixMask 0 := by decide
  unfold maskToPrefixLen at h
  split at h
  · next hmask =>
    obtain rfl := Option.some.inj h
    rw [hmask]
    decide
  · dsimp only at h
    split at h
    · split at h
      · next heq =>
        obtain rfl := Option.some.inj h
        rcases Nat.eq_zero_or_pos (countOnes mask) with hcount | hcount
        · rw [hcount] at heq ⊢
          exact heq.trans hzero
        · rw [Cube.prefixMask, if_pos hcount]
          exact heq
      · cases h
    · cases h

theorem scatterBits_and {mask : Addr} (positions : List ℕ) (n : ℕ) {out : Addr}
    (h : out &&& mask = 0) : scatterBits (~~~mask) positions n out &&& mask = 0 := by
  induction positions generalizing n out with
  | nil => exact h
  | cons bit positions ih =>
    unfold scatterBits
    split
    · exact ih n h
    · next hfree =>
      have hset : (if n % 2 = 1 then out ||| BitVec.twoPow 32 bit else out) &&& mask = 0 := by
        split
        · have hbit : BitVec.twoPow 32 bit &&& mask = 0 := by
            rw [BitVec.twoPow_and]
            have hmask : mask.getLsbD bit = false := by
              rw [Bool.not_eq_true, Bool.not_eq_false', BitVec.getLsbD_not] at hfree
              exact (Bool.not_eq_true' _).mp (Bool.and_eq_true_iff.mp hfree).2
            rw [hmask]
            rfl
          rw [BitVec.and_comm, BitVec.and_or_distrib_left, BitVec.and_comm mask, h,
            BitVec.and_comm mask, hbit]
          rfl
        · exact h
      dsimp only
      split
      · exact hset
      · exact ih _ hset

theorem offset_and_prefixMask {len : ℕ} (h : len < 31) :
    BitVec.ofNat 32 (if 1 <<< (32 - len) > 15 then 10 else 1) &&& Cube.prefixMask len = 0 := by
  have hall : ∀ n < 31, BitVec.ofNat 32 (if 1 <<< (32 - n) > 15 then 10 else 1) &&&
      Cube.prefixMask n = 0 := by decide
  exact hall len h

theorem exists_of_mem_addrs {c : Cube} {a : Addr} (h : a ∈ c.addrs) :
    ∃ v, ipToInt (intToIp a) = .ok v ∧ c.containsIp v = true :=
  ⟨a, ipToInt_intToIp a, Cube.containsIp_iff.mpr h⟩

theorem mem_pickIpInCube (c : Cube) {fallback : String} {a : Addr}
    (hfallback : ipToInt fallback = .ok a) :
    ∃ v, ipToInt (pickIpInCube c fallback) = .ok v ∧ c.containsIp v = true := by
  unfold pickIpInCube
  split
  · next hany => exact ⟨a, hfallback, Cube.containsIp_of_isAny hany a⟩
  · split
    · exact exists_of_mem_addrs (Ternary.mem_cube_self c.canonical)
    · split
      · next len hlen =>
        split
        · exact exists_of_mem_addrs (Ternary.mem_cube_self c.canonical)
        · next hshort =>
          refine exists_of_mem_addrs (Ternary.add_mem_cube c.canonical ?_)
          rw [eq_prefixMask_of_maskToPrefixLen hlen]
          exact offset_and_prefixMask (not_le.mp hshort)
      · exact exists_of_mem_addrs
          (Ternary.or_mem_cube c.canonical (scatterBits_and _ 1 BitVec.zero_and))

/-- An address is picked inside the cubes. -/
theorem cubesHave_pickIpInCubes {cubes : List Cube} (hcubes : cubes ≠ []) (hints : List String)
    {fallback : String} {a : Addr} (hfallback : ipToInt fallback = .ok a) :
    cubesHave cubes (pickIpInCubes cubes hints fallback) = true := by
  unfold pickIpInCubes
  cases hhint : hints.find? fun h => cubesHave cubes h with
  | some h => exact List.find?_some (p := fun h => cubesHave cubes h) hhint
  | none =>
    cases cubes with
    | nil => exact absurd rfl hcubes
    | cons first cubes =>
      obtain ⟨v, hv, hin⟩ := mem_pickIpInCube first hfallback
      unfold cubesHave
      rw [hv]
      exact List.any_eq_true.mpr ⟨first, List.mem_cons_self .., hin⟩

/-- The address beside a cube: its lowest significant bit is the other way. -/
def Cube.beside (c : Cube) : Addr := c.value ^^^ (c.mask &&& -c.mask)

theorem Cube.containsIp_beside {c : Cube} (h : c.isAny = false) :
    c.containsIp c.beside = false := by
  have hmask : c.mask ≠ 0 := by
    rw [Cube.isAny, beq_eq_false_iff_ne] at h
    exact h
  have hbits : (c.mask &&& -c.mask) &&& c.mask ≠ 0 := by
    rw [BitVec.and_comm, ← BitVec.and_assoc, BitVec.and_self]
    exact Ternary.and_neg_ne_zero hmask
  rw [← Bool.not_eq_true, Cube.containsIp_iff]
  exact Ternary.xor_notMem_cube c.canonical hbits

theorem pickOutsideIp_of_not_isAny {c : Cube} (h : c.isAny = false) :
    pickOutsideIp c = intToIp c.beside := by
  have hmask : c.mask ≠ 0 := by
    rw [Cube.isAny, beq_eq_false_iff_ne] at h
    exact h
  unfold pickOutsideIp
  rw [h, if_neg Bool.false_ne_true, if_neg hmask]
  rfl

/-- The first cube is restricted, and what lies beside it is in no other one. -/
def ClearBeside (cubes : List Cube) : Prop :=
  ∀ c ∈ cubes.head?, c.isAny = false ∧ ∀ d ∈ cubes.tail, d.containsIp c.beside = false

theorem cubesHave_pickOutsideIp_iff {cubes : List Cube} (hcubes : cubes ≠ []) :
    cubesHave cubes ((cubes.head?.map pickOutsideIp).getD "") = false ↔ ClearBeside cubes := by
  cases cubes with
  | nil => exact absurd rfl hcubes
  | cons first cubes =>
    unfold ClearBeside
    rw [List.head?_cons, Option.map_some, Option.getD_some, List.tail_cons]
    cases hany : first.isAny with
    | true =>
      have hfallback : ipToInt (pickOutsideIp first) = .ok 0xC0000201#32 := by
        rw [pickOutsideIp, hany, if_pos rfl]
        decide
      have hhas : cubesHave (first :: cubes) (pickOutsideIp first) = true := by
        unfold cubesHave
        rw [hfallback]
        exact List.any_eq_true.mpr
          ⟨first, List.mem_cons_self .., Cube.containsIp_of_isAny hany _⟩
      rw [hhas]
      refine iff_of_false (fun h => nomatch h) fun h => ?_
      rw [(h first rfl).1] at hany
      cases hany
    | false =>
      unfold cubesHave
      rw [pickOutsideIp_of_not_isAny hany, ipToInt_intToIp]
      dsimp only
      rw [List.any_eq_false]
      constructor
      · intro h c hc
        obtain rfl := Option.some.inj hc
        exact ⟨hany, fun d hd => Bool.not_eq_true _ ▸ h d (List.mem_cons_of_mem _ hd)⟩
      · intro h d hd
        rw [Bool.not_eq_true]
        rcases List.mem_cons.mp hd with rfl | hd
        · exact Cube.containsIp_beside hany
        · exact (h first rfl).2 d hd

/-! ## Protocols -/

/-- The protocol of the example: the first one of the rule, or TCP. -/
def leadProto (protos : Option (List ℤ)) : ℤ := (firstOf protos).getD 6

theorem exampleProto_fst (protos : Option (List ℤ)) :
    (exampleProto protos).1 = leadProto protos := by
  match protos with
  | none => rfl
  | some [] => rfl
  | some (_ :: _) => rfl

theorem protoFromName_protoNamesRev {n : ℤ} {name : String}
    (h : protoNamesRev.lookup n = some name) : protoFromName name = some n := by
  have hall : ∀ p ∈ protoNamesRev, protoFromName p.2 = some p.1 := by decide
  obtain ⟨pre, post, hnames, -⟩ := List.lookup_eq_some_iff.mp h
  refine hall (n, name) ?_
  rw [hnames]
  exact List.mem_append_right _ List.mem_cons_self

theorem protoFromName_of_digits {s : String}
    (h : ∀ c ∈ s.toList, c = '-' ∨ c.isDigit = true) :
    protoFromName s = if isdigit s then some (nat s : ℤ) else none := by
  have hstrip : strip s = s := by
    refine strip_of_forall fun c hc => ?_
    rcases h c hc with rfl | hdigit
    · decide
    · exact isSpace_of_isDigit hdigit
  have hlower : lower s = s := by
    have hmap : s.toList.map Char.toLower = s.toList.map id := by
      refine List.map_congr_left fun c hc => ?_
      rcases h c hc with rfl | hdigit
      · decide
      · exact toLower_of_isDigit hdigit
    rw [lower, hmap, List.map_id, String.ofList_toList]
  have hnone : PyDict.get? protoMap s = none := by
    cases hget : PyDict.get? protoMap s with
    | none => rfl
    | some v =>
      have hletters : ∀ p ∈ protoMap, p.1.toList.all (fun c => c = '-' || c.isDigit) = false := by
        decide
      obtain ⟨c, hc, hletter⟩ := List.all_eq_false.mp (hletters _ (PyDict.mem_of_get? hget))
      exact absurd (h c hc) (by simpa using hletter)
  unfold protoFromName
  dsimp only
  rw [hstrip, hlower, hnone]

theorem protoFromName_strInt (n : ℤ) : ∀ m ∈ protoFromName (strInt n), m = n := by
  have hdigits : ∀ k : ℕ, ∀ c ∈ (str k).toList, c = '-' ∨ c.isDigit = true :=
    fun k c hc => .inr (isDigit_of_isdigit (isdigit_str k) hc)
  intro m hm
  unfold strInt at hm
  split at hm
  · next hneg =>
    have hchars : ("-" ++ str n.natAbs).toList = '-' :: (str n.natAbs).toList := by
      rw [String.toList_append]
      rfl
    have hnot : isdigit ("-" ++ str n.natAbs) = false := by
      rw [isdigit, hchars]
      rfl
    rw [protoFromName_of_digits, hnot] at hm
    · cases hm
    · rw [hchars]
      intro c hc
      rcases List.mem_cons.mp hc with rfl | hc
      · exact .inl rfl
      · exact hdigits _ c hc
  · next hpos =>
    rw [protoFromName_of_digits (hdigits _), isdigit_str, if_pos rfl, nat_str] at hm
    rw [← Option.some.inj hm, Int.toNat_of_nonneg (not_lt.mp hpos)]

theorem admits_exampleProto_iff (protos : Option (List ℤ)) :
    admits setHas protos (protoFromName (exampleProto protos).2) = true ↔ protos ≠ some [] := by
  match protos with
  | none => exact iff_of_true rfl (fun h => nomatch h)
  | some [] => exact iff_of_false (by decide) (fun h => h rfl)
  | some (n :: protos) =>
    refine iff_of_true ?_ (fun h => nomatch h)
    have hname : ∀ m ∈ protoFromName ((protoNamesRev.lookup n).getD (strInt n)), m = n := by
      cases hn : protoNamesRev.lookup n with
      | none => exact protoFromName_strInt n
      | some name =>
        rw [Option.getD_some, protoFromName_protoNamesRev hn]
        exact fun m hm => (Option.some.inj hm).symm
    unfold exampleProto
    dsimp only
    cases hm : protoFromName ((protoNamesRev.lookup n).getD (strInt n)) with
    | none => rfl
    | some m =>
      rw [hname m hm]
      exact decide_eq_true List.mem_cons_self

/-! ## Ports -/

/-- Closed intervals of ports. -/
def PortSet.Valid (ports : PortSet) : Prop :=
  ∀ p ∈ ports.intervals, 0 ≤ p.1 ∧ p.1 ≤ p.2 ∧ p.2 ≤ 65535

/-- The port that stands for a set that starts at zero. -/
def wellKnownPort (proto : ℤ) : ℤ := if proto = 6 then 80 else 53

def StartsInside (ports : PortSet) (proto : ℤ) : Prop :=
  ∃ first ∈ ports.intervals.head?, first.1 = 0 → ports.containsPort (wellKnownPort proto) = true

theorem containsPort_head {ports : PortSet} (h : ports.Valid) (first : ℤ × ℤ)
    (hfirst : first ∈ ports.intervals.head?) : ports.containsPort first.1 = true := by
  have hmem := List.mem_of_mem_head? hfirst
  rw [PortSet.containsPort_iff]
  exact ⟨first, hmem, le_rfl, (h first hmem).2.1⟩

theorem admits_exampleDport_iff {ports : Option PortSet} (h : ∀ s ∈ ports, s.Valid) (proto : ℤ) :
    admits PortSet.containsPort ports (exampleDport proto ports) = true ↔
      (hasPorts proto = true → ∀ s ∈ ports, StartsInside s proto) := by
  unfold exampleDport
  cases hports : hasPorts proto with
  | false =>
    rw [if_neg Bool.false_ne_true]
    refine iff_of_true ?_ fun hno => nomatch hno
    cases ports with
    | none => rfl
    | some s => rfl
  | true =>
    rw [if_pos rfl]
    match ports with
    | none => exact iff_of_true rfl fun _ s hs => nomatch hs
    | some ⟨[]⟩ =>
      refine iff_of_false (fun hin => nomatch hin) fun hin => ?_
      obtain ⟨first, hfirst, -⟩ := hin rfl _ rfl
      cases hfirst
    | some ⟨(lo, hi) :: intervals⟩ =>
      have hlo := (h _ rfl (lo, hi) List.mem_cons_self).1
      dsimp only
      by_cases hpos : lo > 0
      · rw [if_pos hpos]
        refine iff_of_true (containsPort_head (h _ rfl) (lo, hi) rfl) fun _ s hs => ?_
        obtain rfl := Option.some.inj hs
        exact ⟨(lo, hi), rfl, fun hzero => absurd hzero (ne_of_gt hpos)⟩
      · rw [if_neg hpos]
        constructor
        · intro hin _ s hs
          obtain rfl := Option.some.inj hs
          exact ⟨(lo, hi), rfl, fun _ => hin⟩
        · intro hin
          obtain ⟨first, hfirst, hwell⟩ := hin rfl _ rfl
          obtain rfl := Option.some.inj hfirst
          exact hwell (le_antisymm (not_lt.mp hpos) hlo)

theorem admits_exampleSport_iff {ports : Option PortSet} (h : ∀ s ∈ ports, s.Valid) (proto : ℤ) :
    admits PortSet.containsPort ports (exampleSport proto ports) = true ↔
      (hasPorts proto = true → ∀ s ∈ ports, s.intervals ≠ []) := by
  unfold exampleSport
  cases hports : hasPorts proto with
  | false =>
    rw [if_neg Bool.false_ne_true]
    refine iff_of_true ?_ fun hno => nomatch hno
    cases ports with
    | none => rfl
    | some s => rfl
  | true =>
    rw [if_pos rfl]
    match ports with
    | none => exact iff_of_true rfl fun _ s hs => nomatch hs
    | some ⟨[]⟩ => exact iff_of_false (fun hin => nomatch hin) fun hin => hin rfl _ rfl rfl
    | some ⟨(lo, hi) :: intervals⟩ =>
      refine iff_of_true (containsPort_head (h _ rfl) (lo, hi) rfl) fun _ s hs => ?_
      obtain rfl := Option.some.inj hs
      exact List.cons_ne_nil _ _

/-! ## The example -/

theorem admits_firstOf {α : Type} {test : List α → α → Bool}
    (h : ∀ (a : α) (l : List α), test (a :: l) a = true) (s : Option (List α)) :
    admits test s (firstOf s) = true := by
  match s with
  | none => rfl
  | some [] => rfl
  | some (a :: l) => exact h a l

namespace FieldSet

variable {f : FieldSet}

structure ValidPorts (f : FieldSet) : Prop where
  src : ∀ s ∈ f.srcPorts, s.Valid
  dst : ∀ s ∈ f.dstPorts, s.Valid

/-- The protocols and ports from which an example can be picked: there is a protocol, and for TCP
and UDP there are ports; if the destination ports start at zero, the well-known port is one of
them. -/
structure Pickable (f : FieldSet) : Prop where
  protos : f.protos ≠ some []
  dports : hasPorts (leadProto f.protos) = true →
    ∀ s ∈ f.dstPorts, StartsInside s (leadProto f.protos)
  sports : hasPorts (leadProto f.protos) = true → ∀ s ∈ f.srcPorts, s.intervals ≠ []

theorem read_of_matches {flow : Flow} (h : f.matchesFlow flow) :
    f.isOpaque = false ∧ f.srcIps ≠ [] ∧ f.dstIps ≠ [] := by
  unfold matchesFlow at h
  split at h
  · cases h
  · next hread =>
    have hnone : ∀ ip, cubesHave [] ip = false := by
      intro ip
      unfold cubesHave
      cases ipToInt ip with
      | error e => rfl
      | ok v => rfl
    obtain ⟨-, -, -, hsrc, hdst, -⟩ := matchKnownDimensions_iff.mp h
    refine ⟨(Bool.not_eq_true _).mp hread, fun hempty => ?_, fun hempty => ?_⟩
    · rw [hempty, hnone] at hsrc
      cases hsrc
    · rw [hempty, hnone] at hdst
      cases hdst

/-- The example matches exactly where its protocol and its ports can be picked. -/
theorem matchesFlow_exampleFlow_iff (hread : f.isOpaque = false) (hsrc : f.srcIps ≠ [])
    (hdst : f.dstIps ≠ []) (hports : f.ValidPorts) (hints : List String) :
    f.matchesFlow (exampleFlow f hints) = true ↔ f.Pickable := by
  have hflow : f.established = true → (exampleFlow f hints).isEstablished = true := by
    intro h
    unfold Flow.isEstablished exampleFlow
    dsimp only
    rw [h]
    rfl
  have hsrcFallback : ipToInt "192.0.2.50" = .ok 0xC0000232#32 := by decide
  have hdstFallback : ipToInt "198.51.100.20" = .ok 0xC6336414#32 := by decide
  have hsrcIp := cubesHave_pickIpInCubes hsrc hints hsrcFallback
  have hdstIp := cubesHave_pickIpInCubes hdst hints hdstFallback
  have hset : ∀ (x : ℤ) (l : List ℤ), setHas (x :: l) x = true :=
    fun x l => decide_eq_true List.mem_cons_self
  have hintf : ∀ (x : String) (l : List String), intfHas (x :: l) x = true :=
    fun x l => decide_eq_true (List.mem_map_of_mem List.mem_cons_self)
  have hproto := admits_exampleProto_iff f.protos
  have hdport := admits_exampleDport_iff hports.dst (leadProto f.protos)
  have hsport := admits_exampleSport_iff hports.src (leadProto f.protos)
  rw [← exampleProto_fst] at hdport hsport
  unfold matchesFlow
  rw [hread, if_neg Bool.false_ne_true, matchKnownDimensions_iff]
  constructor
  · rintro ⟨-, hp, -, -, -, hs, hd, -⟩
    have hd' := hdport.mp hd
    have hs' := hsport.mp hs
    rw [exampleProto_fst] at hd' hs'
    exact ⟨hproto.mp hp, hd', hs'⟩
  · intro h
    have hd := h.dports
    have hs := h.sports
    rw [← exampleProto_fst] at hd hs
    exact ⟨hflow, hproto.mpr h.protos, admits_firstOf hset _, hsrcIp, hdstIp, hsport.mpr hs,
      hdport.mpr hd, admits_firstOf hintf _, admits_firstOf hintf _⟩

/-! ## The near miss -/

/-- What the near miss moves to is not in the rule: the other ICMP type, the address beside the
first cube, or the other protocol, for the first of these that is restricted.  A port or the state
of the connection never is. -/
def Missable (f : FieldSet) : Prop :=
  match firstOf f.icmpTypes with
  | some t => ∀ l ∈ f.icmpTypes, (if t = 8 then 0 else 8) ∉ l
  | none =>
    if hasPorts (leadProto f.protos) = true ∧ ∃ s ∈ f.dstPorts, s.intervals ≠ [] then True
    else if !f.dstIps.all Cube.isAny then ClearBeside f.dstIps
    else if !f.srcIps.all Cube.isAny then ClearBeside f.srcIps
    else ∀ l ∈ f.protos, (if leadProto f.protos = 6 then 17 else 6) ∉ l

section Moved

variable {flow : Flow} (h : f.matchesFlow flow = true)

include h

theorem matchesFlow_icmpType (t : ℤ) :
    f.matchesFlow { flow with icmpType := some t } = admits setHas f.icmpTypes (some t) := by
  have hread := (read_of_matches h).1
  unfold matchesFlow at h ⊢
  rw [hread, if_neg Bool.false_ne_true] at h ⊢
  obtain ⟨hest, hproto, -, hrest⟩ := matchKnownDimensions_iff.mp h
  rw [Bool.eq_iff_iff, matchKnownDimensions_iff]
  exact ⟨fun hm => hm.2.2.1, fun ht => ⟨hest, hproto, ht, hrest⟩⟩

theorem matchesFlow_dport (p : ℤ) :
    f.matchesFlow { flow with dport := some p } =
      admits PortSet.containsPort f.dstPorts (some p) := by
  have hread := (read_of_matches h).1
  unfold matchesFlow at h ⊢
  rw [hread, if_neg Bool.false_ne_true] at h ⊢
  obtain ⟨hest, hproto, hicmp, hsrc, hdst, hsport, -, hrest⟩ := matchKnownDimensions_iff.mp h
  rw [Bool.eq_iff_iff, matchKnownDimensions_iff]
  exact ⟨fun hm => hm.2.2.2.2.2.2.1,
    fun hp => ⟨hest, hproto, hicmp, hsrc, hdst, hsport, hp, hrest⟩⟩

theorem matchesFlow_dstIp (ip : String) :
    f.matchesFlow { flow with dstIp := ip } = cubesHave f.dstIps ip := by
  have hread := (read_of_matches h).1
  unfold matchesFlow at h ⊢
  rw [hread, if_neg Bool.false_ne_true] at h ⊢
  obtain ⟨hest, hproto, hicmp, hsrc, -, hrest⟩ := matchKnownDimensions_iff.mp h
  rw [Bool.eq_iff_iff, matchKnownDimensions_iff]
  exact ⟨fun hm => hm.2.2.2.2.1, fun hd => ⟨hest, hproto, hicmp, hsrc, hd, hrest⟩⟩

theorem matchesFlow_srcIp (ip : String) :
    f.matchesFlow { flow with srcIp := ip } = cubesHave f.srcIps ip := by
  have hread := (read_of_matches h).1
  unfold matchesFlow at h ⊢
  rw [hread, if_neg Bool.false_ne_true] at h ⊢
  obtain ⟨hest, hproto, hicmp, -, hrest⟩ := matchKnownDimensions_iff.mp h
  rw [Bool.eq_iff_iff, matchKnownDimensions_iff]
  exact ⟨fun hm => hm.2.2.2.1, fun hs => ⟨hest, hproto, hicmp, hs, hrest⟩⟩

theorem matchesFlow_proto (name : String) :
    f.matchesFlow { flow with proto := name } = admits setHas f.protos (protoFromName name) := by
  have hread := (read_of_matches h).1
  unfold matchesFlow at h ⊢
  rw [hread, if_neg Bool.false_ne_true] at h ⊢
  obtain ⟨hest, -, hrest⟩ := matchKnownDimensions_iff.mp h
  rw [Bool.eq_iff_iff, matchKnownDimensions_iff]
  exact ⟨fun hm => hm.2.1, fun hp => ⟨hest, hp, hrest⟩⟩

end Moved

theorem admits_setHas_eq_false_iff {s : Option (List ℤ)} {x : ℤ} (hs : s.isSome) :
    admits setHas s (some x) = false ↔ ∀ l ∈ s, x ∉ l := by
  cases s with
  | none => cases hs
  | some l =>
    refine decide_eq_false_iff_not.trans ⟨fun hx l' hl' => ?_, fun hx => hx l rfl⟩
    rw [← Option.some.inj hl']
    exact hx

theorem firstOf_eq_some {α : Type} {s : Option (List α)} {a : α} (h : firstOf s = some a) :
    s.isSome = true := by
  cases s with
  | none => cases h
  | some l => rfl

theorem portNearMiss_not_matches {flow near : Flow} {ports : PortSet}
    (h : f.matchesFlow flow) (hports : f.dstPorts = some ports)
    (hnear : near ∈ (portNearMiss ports flow).1) : f.matchesFlow near = false := by
  unfold portNearMiss at hnear
  dsimp only at hnear
  split at hnear
  · next houtside =>
    rw [← Option.some.inj hnear, matchesFlow_dport h, hports]
    exact (Bool.not_eq_true' _).mp houtside
  · cases hnear

/-- The near miss of a rule without an ICMP type and without ports. -/
def restNearMiss (f : FieldSet) (flow : Flow) : Option Flow :=
  if !f.dstIps.all Cube.isAny then
    some { flow with dstIp := (f.dstIps.head?.map pickOutsideIp).getD "" }
  else if !f.srcIps.all Cube.isAny then
    some { flow with srcIp := (f.srcIps.head?.map pickOutsideIp).getD "" }
  else if f.protos.isSome = true then
    some { flow with proto := if leadProto f.protos = 6 then "udp" else "tcp" }
  else if f.established = true then some { flow with established := false }
  else none

theorem nearMiss_of_icmpType {flow : Flow} {t : ℤ} (h : flow.icmpType = some t) :
    (nearMiss f flow).1 = some { flow with icmpType := some (if t = 8 then 0 else 8) } := by
  unfold nearMiss
  rw [h]

theorem nearMiss_of_ports {flow : Flow} {s : PortSet} {d : ℤ} (h : flow.icmpType = none)
    (hports : f.dstPorts = some s) (hs : s.intervals ≠ []) (hd : flow.dport = some d) :
    (nearMiss f flow).1 = (portNearMiss s flow).1 := by
  obtain ⟨l⟩ := s
  obtain ⟨p, intervals, rfl⟩ := List.exists_cons_of_ne_nil hs
  unfold nearMiss
  rw [h, hports, hd]

theorem nearMiss_of_rest {flow : Flow} (h : flow.icmpType = none)
    (hfree : ∀ s ∈ f.dstPorts, s.intervals ≠ [] → flow.dport = none) :
    (nearMiss f flow).1 = restNearMiss f flow := by
  unfold nearMiss restNearMiss
  dsimp only
  rw [exampleProto_fst]
  split
  · next t _ _ ht =>
    rw [h] at ht
    cases ht
  · next p intervals d _ hports hd =>
    rw [hfree _ hports (List.cons_ne_nil _ _)] at hd
    cases hd
  · split
    · rfl
    · split
      · rfl
      · split
        · rfl
        · split
          · rfl
          · rfl

theorem exampleDport_eq_none_iff (proto : ℤ) (ports : Option PortSet) :
    exampleDport proto ports = none ↔ hasPorts proto = false := by
  unfold exampleDport
  cases hasPorts proto with
  | false => exact iff_of_true rfl rfl
  | true =>
    refine iff_of_false ?_ (fun hno => nomatch hno)
    rw [if_pos rfl]
    match ports with
    | none => exact fun hno => nomatch hno
    | some ⟨[]⟩ => exact fun hno => nomatch hno
    | some ⟨_ :: _⟩ => exact fun hno => nomatch hno

theorem restNearMiss_iff {flow : Flow} (h : f.matchesFlow flow)
    (hflags : flow.tcpFlags = none) :
    (∀ near ∈ restNearMiss f flow, f.matchesFlow near = false) ↔
      if !f.dstIps.all Cube.isAny then ClearBeside f.dstIps
      else if !f.srcIps.all Cube.isAny then ClearBeside f.srcIps
      else ∀ l ∈ f.protos, (if leadProto f.protos = 6 then 17 else 6) ∉ l := by
  obtain ⟨hread, hsrc, hdst⟩ := read_of_matches h
  have hsingle : ∀ (near : Flow), (∀ x ∈ some near, f.matchesFlow x = false) ↔
      f.matchesFlow near = false := fun near =>
    ⟨fun hall => hall near rfl, fun hnear x hx => Option.some.inj hx ▸ hnear⟩
  unfold restNearMiss
  split
  · rw [hsingle, matchesFlow_dstIp h]
    exact cubesHave_pickOutsideIp_iff hdst
  · split
    · rw [hsingle, matchesFlow_srcIp h]
      exact cubesHave_pickOutsideIp_iff hsrc
    · split
      · next hprotos =>
        have hname : protoFromName (if leadProto f.protos = 6 then "udp" else "tcp") =
            some (if leadProto f.protos = 6 then 17 else 6) := by
          split
          · decide
          · decide
        rw [hsingle, matchesFlow_proto h, hname]
        exact admits_setHas_eq_false_iff hprotos
      · next hprotos =>
        rw [Option.not_isSome_iff_eq_none.mp hprotos]
        refine iff_of_true ?_ fun l hl => nomatch hl
        split
        · next hest =>
          -- a flow without flags is established by its mark alone
          have hnot : ({ flow with established := false } : Flow).isEstablished = false := by
            unfold Flow.isEstablished
            dsimp only
            rw [hflags]
            rfl
          rw [hsingle, ← Bool.not_eq_true, matchesFlow, hread, if_neg Bool.false_ne_true,
            matchKnownDimensions_iff, hnot]
          exact fun hm => nomatch hm.1 hest
        · exact fun near hnear => nomatch hnear

/-- A near miss of an example that matches does not match exactly where what it moves to is not in
the rule. -/
theorem nearMiss_iff {hints : List String} (h : f.matchesFlow (exampleFlow f hints)) :
    (∀ near ∈ (nearMiss f (exampleFlow f hints)).1, f.matchesFlow near = false) ↔ f.Missable := by
  have hdport : (exampleFlow f hints).dport =
      exampleDport (exampleProto f.protos).1 f.dstPorts := rfl
  rw [exampleProto_fst] at hdport
  unfold Missable
  cases ht : firstOf f.icmpTypes with
  | some t =>
    have hicmp : (exampleFlow f hints).icmpType = some t := ht
    rw [nearMiss_of_icmpType hicmp]
    dsimp only
    rw [← admits_setHas_eq_false_iff (firstOf_eq_some ht), ← matchesFlow_icmpType h]
    exact ⟨fun hall => hall _ rfl, fun hnear x hx => Option.some.inj hx ▸ hnear⟩
  | none =>
    have hicmp : (exampleFlow f hints).icmpType = none := ht
    dsimp only
    split
    · next hports =>
      obtain ⟨hproto, s, hs, hne⟩ := hports
      obtain ⟨d, hd⟩ : ∃ d, (exampleFlow f hints).dport = some d := by
        rw [← Option.ne_none_iff_exists', hdport]
        intro hno
        rw [(exampleDport_eq_none_iff ..).mp hno] at hproto
        cases hproto
      rw [nearMiss_of_ports hicmp hs hne hd]
      exact iff_of_true (fun near hnear => portNearMiss_not_matches h hs hnear) trivial
    · next hports =>
      have hfree : ∀ s ∈ f.dstPorts, s.intervals ≠ [] → (exampleFlow f hints).dport = none := by
        intro s hs hne
        rw [hdport, exampleDport_eq_none_iff, ← Bool.not_eq_true]
        exact fun hproto => hports ⟨hproto, s, hs, hne⟩
      rw [nearMiss_of_rest hicmp hfree]
      exact restNearMiss_iff h rfl

end FieldSet

/-! ## Rules with their examples -/

/-- The example of a rule matches it, and its near miss, if there is one, does not. -/
def Illustrated (rule : Rule) (hints : List String) : Prop :=
  (∃ flow, (generateRuleExample rule hints).matchingFlow = some flow ∧
    rule.fields.matchesFlow flow = true) ∧
    ∀ near, (generateRuleExample rule hints).nearMissFlow = some near →
      rule.fields.matchesFlow near = false

/-- A rule that some flow matches is illustrated exactly where its example can be picked, and where
what the near miss moves to is not in the rule. -/
theorem illustrated_iff {rule : Rule} (h : ∃ flow, rule.fields.matchesFlow flow = true)
    (hports : rule.fields.ValidPorts) (hints : List String) :
    Illustrated rule hints ↔ rule.fields.Pickable ∧ rule.fields.Missable := by
  obtain ⟨flow, hflow⟩ := h
  obtain ⟨hread, hsrc, hdst⟩ := FieldSet.read_of_matches hflow
  have hpick := FieldSet.matchesFlow_exampleFlow_iff hread hsrc hdst hports hints
  have hmatching : (generateRuleExample rule hints).matchingFlow =
      some (exampleFlow rule.fields hints) := by
    unfold generateRuleExample
    dsimp only
    rw [hread]
    rfl
  have hnear : (generateRuleExample rule hints).nearMissFlow =
      (nearMiss rule.fields (exampleFlow rule.fields hints)).1 := by
    unfold generateRuleExample
    dsimp only
    rw [hread]
    rfl
  unfold Illustrated
  rw [hmatching, hnear]
  constructor
  · rintro ⟨⟨shown, hshown, hmatches⟩, hmiss⟩
    rw [← Option.some.inj hshown] at hmatches
    exact ⟨hpick.mp hmatches, (FieldSet.nearMiss_iff hmatches).mp hmiss⟩
  · rintro ⟨hpickable, hmissable⟩
    have hmatches := hpick.mpr hpickable
    exact ⟨⟨_, rfl, hmatches⟩, (FieldSet.nearMiss_iff hmatches).mpr hmissable⟩

/-- `permit tcp any host 192.0.2.7 range 8000 8080`. -/
def webRule : Rule where
  id := "10"
  fields :=
    { dstIps := [Cube.make 0xC0000207#32 0xFFFFFFFF#32]
      dstPorts := some ⟨[(8000, 8080)]⟩
      protos := some [6] }

/-- The web rule has an example on its first port and a near miss on the next one after its
last. -/
theorem illustrated_webRule : Illustrated webRule ["192.0.2.7"] := by
  refine (illustrated_iff ⟨exampleFlow webRule.fields [], by decide⟩ ⟨?_, ?_⟩ _).mpr
    ⟨⟨by decide, ?_, ?_⟩, ?_⟩
  · exact fun s hs => nomatch hs
  · intro s hs
    rw [← Option.some.inj hs]
    unfold PortSet.Valid
    decide
  · intro _ s hs
    rw [← Option.some.inj hs]
    exact ⟨(8000, 8080), rfl, by decide⟩
  · exact fun _ s hs => nomatch hs
  · exact trivial

/-- `permit tcp any any range 0 20`. -/
def lowPortsRule : Rule where
  id := "20"
  fields := { dstPorts := some ⟨[(0, 20)]⟩, protos := some [6] }

/-- `permit icmp any any` for echo replies and echoes. -/
def pingRule : Rule where
  id := "30"
  fields := { protos := some [1], icmpTypes := some [0, 8] }

/-- The example of a rule for the lowest ports has a port it has not, and the near miss of a rule
for two messages is the other message. -/
theorem examples_astray :
    ((∃ flow, lowPortsRule.fields.matchesFlow flow = true) ∧ ¬ Illustrated lowPortsRule []) ∧
      (∃ flow, pingRule.fields.matchesFlow flow = true) ∧ ¬ Illustrated pingRule [] := by
  refine ⟨⟨⟨{ srcIp := "192.0.2.1", dstIp := "192.0.2.2", dport := some 20 }, ?_⟩, fun h => ?_⟩,
    ⟨{ srcIp := "192.0.2.1", dstIp := "192.0.2.2", proto := "icmp" }, ?_⟩, fun h => ?_⟩
  · decide
  · obtain ⟨flow, hflow, hmatches⟩ := h.1
    rw [← Option.some.inj hflow] at hmatches
    revert hmatches
    decide
  · decide
  · have hmiss := h.2 _ rfl
    revert hmiss
    decide

end SentinelNet.PolicyTest
