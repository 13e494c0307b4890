import SentinelNet.PolicyTest.Fortios

/-!
# The addresses of a FortiOS policy

What an address object means by itself, which objects a name in a policy reaches through address
groups, and how the cubes and the reasons of the parsed rule compare with both.

A name may be a factory address, an address object and a group at once; which one is meant is
decided in the source's order.  In a group a factory address comes first, then an address object,
then a group; in a policy a group comes before an address object.

* `addresses_resolved_iff`: when the rule of a policy is right about its addresses.
-/

namespace SentinelNet.PolicyTest

open PyText FwAnalyzers

/-! ## One object -/

/-- An address a setting gives. -/
def readAddr (t : String) : Option Addr := if isIp t then orSkip (ipToInt t) else none

/-- The addresses of a subnet setting. -/
def subnetAddrs (subnet : List String) : Option (Set Addr) :=
  match subnet with
  | [t] =>
    let ipPart := String.ofList (t.toList.takeWhile (· != '/'))
    let pfxPart := String.ofList ((t.toList.dropWhile (· != '/')).drop 1)
    if contains t "/" ∧ isdigit pfxPart ∧ nat pfxPart ≤ 32 then
      (readAddr ipPart).map fun v =>
        {x | x.toNat / 2 ^ (32 - nat pfxPart) = v.toNat / 2 ^ (32 - nat pfxPart)}
    else none
  | a :: m :: _ =>
    (readAddr a).bind fun v => (readAddr m).map fun w => {x | x &&& w = v &&& w}
  | [] => none

/-- The addresses from a first to a last one. -/
def rangeAddrs (startIp endIp : String) : Option (Set Addr) :=
  (readAddr startIp).bind fun s => (readAddr endIp).bind fun e =>
    if s.toNat ≤ e.toNat then some {x | s.toNat ≤ x.toNat ∧ x.toNat ≤ e.toNat} else none

/-- The addresses of an address object, when it can be resolved offline. -/
def entryAddrs (entry : Node) : Option (Set Addr) :=
  (orSkip (addressType entry)).bind fun atype =>
    if atype = "ipmask" then subnetAddrs (getSets entry "subnet" [])
    else if atype = "iprange" then
      rangeAddrs (fortiSet1 entry "start-ip" "") (fortiSet1 entry "end-ip" "")
    else none

def cubeAddrs (cubes : List Cube) : Set Addr := {x | ∃ c ∈ cubes, c.containsIp x = true}

def HasAddr (s : Option (Set Addr)) (x : Addr) : Prop := ∃ t ∈ s, x ∈ t

@[simp] theorem hasAddr_none (x : Addr) : ¬ HasAddr none x := by simp [HasAddr]

@[simp] theorem hasAddr_some (t : Set Addr) (x : Addr) : HasAddr (some t) x ↔ x ∈ t := by
  simp [HasAddr]

@[simp] theorem mem_cubeAddrs_nil (x : Addr) : x ∉ cubeAddrs [] := by simp [cubeAddrs]

@[simp] theorem mem_cubeAddrs_singleton (c : Cube) (x : Addr) :
    x ∈ cubeAddrs [c] ↔ c.containsIp x = true := by
  simp [cubeAddrs]

theorem Cube.containsIp_value (c : Cube) : c.containsIp c.value = true :=
  containsIp_eq_true.mpr c.canonical

theorem cubeAddrs_nonempty_iff {cubes : List Cube} : (∃ x, x ∈ cubeAddrs cubes) ↔ cubes ≠ [] := by
  constructor
  · rintro ⟨x, c, hc, -⟩
    exact List.ne_nil_of_mem hc
  · intro h
    obtain ⟨c, hc⟩ := List.exists_mem_of_ne_nil _ h
    exact ⟨c.value, c, hc, c.containsIp_value⟩

/-! ## Ranges -/

theorem mapM_ok {α β : Type} {f : α → Py β} {g : α → β} {l : List α}
    (h : ∀ x ∈ l, f x = .ok (g x)) : l.mapM f = .ok (l.map g) := by
  induction l with
  | nil => rfl
  | cons a l ih =>
    have ha : f a = .ok (g a) := h a List.mem_cons_self
    have hl : l.mapM f = .ok (l.map g) := ih (List.forall_mem_cons.mp h).2
    rw [List.mapM_cons, ha, hl]
    rfl

def blockCube (b : ℕ × ℕ) : Cube :=
  Cube.make (BitVec.ofNat 32 b.1 &&& Cube.prefixMask (32 - b.2)) (Cube.prefixMask (32 - b.2))

theorem fromCidr_intToIp {v : Addr} {len : ℕ} (h : len ≤ 32) :
    Cube.fromCidr (intToIp v) len =
      .ok (Cube.make (v &&& Cube.prefixMask len) (Cube.prefixMask len)) := by
  rw [Cube.fromCidr, if_neg (by omega), ipToInt_intToIp]
  rfl

theorem summarizeRange_eq (s e : Addr) :
    summarizeRange s e = .ok ((Dyadic.blocks 32 s.toNat e.toNat).map blockCube) :=
  mapM_ok fun b _ => fromCidr_intToIp (Nat.sub_le 32 b.2)

theorem div_eq_div_iff_of_dvd {a x k : ℕ} (h : 2 ^ k ∣ a) :
    x / 2 ^ k = a / 2 ^ k ↔ a ≤ x ∧ x < a + 2 ^ k := by
  obtain ⟨q, rfl⟩ := h
  rw [Nat.mul_div_cancel_left q (Nat.two_pow_pos k), Nat.div_eq_iff (Nat.two_pow_pos k)]
  have hpos : 0 < 2 ^ k := Nat.two_pow_pos k
  rw [Nat.mul_comm q]
  omega

theorem mem_summarizeRange {s e x : Addr} :
    x ∈ cubeAddrs ((Dyadic.blocks 32 s.toNat e.toNat).map blockCube) ↔
      s.toNat ≤ x.toNat ∧ x.toNat ≤ e.toNat := by
  rw [← @Dyadic.exists_block_iff 32]
  simp only [cubeAddrs, List.mem_map, Set.mem_ofPred_eq, exists_exists_and_eq_and]
  refine exists_congr fun b => and_congr_right fun hb => ?_
  obtain ⟨hdvd, hend, hbits⟩ := Dyadic.mem_blocks hb
  have he : e.toNat < 2 ^ 32 := e.isLt
  have hpos : 0 < 2 ^ b.2 := Nat.two_pow_pos b.2
  have hstart : (BitVec.ofNat 32 b.1).toNat = b.1 := by
    rw [BitVec.toNat_ofNat]
    exact Nat.mod_eq_of_lt (by omega)
  have hk : 32 - (32 - b.2) = b.2 := by omega
  rw [blockCube, Cube.containsIp_prefix (Nat.sub_le 32 b.2), hstart, hk,
    div_eq_div_iff_of_dvd hdvd]

/-! ## The cubes of an object -/

theorem readAddr_of_not_isIp {t : String} (h : ¬ isIp t = true) : readAddr t = none := if_neg h

theorem mem_fromNetmask {a m : String} (ha : isIp a) (hm : isIp m) (x : Addr) :
    x ∈ cubeAddrs (((orSkip (Cube.fromNetmask a m)).map fun c => [c]).getD []) ↔
      HasAddr ((readAddr a).bind fun v => (readAddr m).map fun w =>
        {x | x &&& w = v &&& w}) x := by
  rw [readAddr, readAddr, if_pos ha, if_pos hm, Cube.fromNetmask]
  rcases ipToInt m with e | w
  · rcases ipToInt a with e' | v <;> simp [orSkip, Except.toOption, bind, Except.bind]
  · rcases ipToInt a with e' | v
    · simp [orSkip, Except.toOption, bind, Except.bind]
    · simp [orSkip, Except.toOption, bind, Except.bind, pure, Except.pure,
        Cube.containsIp_eq_true, BitVec.and_assoc]

theorem mem_subnetCubes {subnet : List String} {r : Option (List Cube)}
    (h : subnetCubes subnet = .ok r) (x : Addr) :
    x ∈ cubeAddrs (r.getD []) ↔ HasAddr (subnetAddrs subnet) x := by
  rcases subnet with _ | ⟨t, _ | ⟨m, rest⟩⟩
  · obtain rfl : none = r := Except.ok.inj h
    simp [subnetAddrs]
  · rw [subnetCubes] at h
    rw [subnetAddrs]
    dsimp only at h ⊢
    by_cases hslash : contains t "/" = true
    · rw [if_pos hslash] at h
      by_cases hparts : isIp (String.ofList (t.toList.takeWhile (· != '/'))) = true ∧
          isdigit (String.ofList ((t.toList.dropWhile (· != '/')).drop 1)) = true
      · rw [if_pos hparts, Cube.fromCidr] at h
        split at h
        · exact absurd h (by simp [bind, Except.bind])
        · next hlen =>
          rw [if_pos ⟨hslash, hparts.2, by omega⟩, readAddr, if_pos hparts.1]
          rcases hip : ipToInt (String.ofList (t.toList.takeWhile (· != '/'))) with e | v
          · rw [hip] at h
            exact absurd h (by simp [bind, Except.bind])
          · rw [hip] at h
            obtain rfl := Except.ok.inj h
            have hle : nat (String.ofList ((t.toList.dropWhile (· != '/')).drop 1)) ≤ 32 := by
              omega
            rw [orSkip, Except.toOption, Option.map_some, hasAddr_some, Option.getD_some,
              mem_cubeAddrs_singleton, Cube.containsIp_prefix hle]
            rfl
      · rw [if_neg hparts] at h
        obtain rfl : none = r := Except.ok.inj h
        split
        · next hcond =>
          rw [readAddr_of_not_isIp fun hip => hparts ⟨hip, hcond.2.1⟩]
          simp
        · simp
    · rw [if_neg hslash] at h
      obtain rfl : none = r := Except.ok.inj h
      rw [if_neg fun hcond => hslash hcond.1]
      simp
  · rw [subnetCubes] at h
    rw [subnetAddrs]
    by_cases hips : isIp t = true ∧ isIp m = true
    · rw [if_pos hips] at h
      obtain rfl := Except.ok.inj h
      exact mem_fromNetmask hips.1 hips.2 x
    · rw [if_neg hips] at h
      obtain rfl : none = r := Except.ok.inj h
      by_cases ht : isIp t = true
      · rw [readAddr_of_not_isIp fun hm => hips ⟨ht, hm⟩]
        simp
      · rw [readAddr_of_not_isIp ht]
        simp

theorem mem_rangeCubes (startIp endIp : String) (x : Addr) :
    x ∈ cubeAddrs ((if isIp startIp ∧ isIp endIp then orSkip (rangeCubes startIp endIp)
      else none).getD []) ↔ HasAddr (rangeAddrs startIp endIp) x := by
  rw [rangeAddrs]
  by_cases hs : isIp startIp = true
  · by_cases he : isIp endIp = true
    · rw [if_pos ⟨hs, he⟩, readAddr, readAddr, if_pos hs, if_pos he, rangeCubes, Cube.fromIp]
      rcases ipToInt startIp with e | s
      · simp [orSkip, Except.toOption, bind, Except.bind]
      · rcases ipToInt endIp with e' | e
        · simp [orSkip, Except.toOption, bind, Except.bind]
        · simp only [orSkip, Except.toOption, bind, Except.bind, pure, Except.pure,
            Option.bind_some, summarizeRange_eq]
          by_cases heq : s = e
          · subst heq
            have hone : x &&& BitVec.allOnes 32 = s &&& BitVec.allOnes 32 ↔
                s.toNat ≤ x.toNat ∧ x.toNat ≤ s.toNat := by
              rw [BitVec.and_allOnes, BitVec.and_allOnes, BitVec.toNat_eq]
              omega
            simpa [Cube.containsIp_eq_true] using hone
          · rw [if_neg heq]
            by_cases hle : s.toNat ≤ e.toNat
            · rw [if_neg (by omega), if_pos hle]
              simpa using mem_summarizeRange
            · rw [if_pos (by omega), if_neg hle]
              simp
    · rw [if_neg fun h => he h.2, readAddr_of_not_isIp he]
      simp [Option.bind_none]
  · rw [if_neg fun h => hs h.1, readAddr_of_not_isIp hs]
    simp

theorem mem_addressCubes {entry : Node} {r : Option (List Cube)} (h : addressCubes entry = .ok r)
    (x : Addr) : x ∈ cubeAddrs (r.getD []) ↔ HasAddr (entryAddrs entry) x := by
  rw [addressCubes] at h
  rw [entryAddrs]
  rcases htype : addressType entry with e | atype
  · rw [htype] at h
    exact absurd h (by simp [bind, Except.bind])
  · rw [htype] at h
    simp only [bind, Except.bind] at h
    simp only [orSkip, Except.toOption, Option.bind_some]
    by_cases hmask : atype = "ipmask"
    · rw [if_pos hmask] at h ⊢
      exact mem_subnetCubes h x
    · rw [if_neg hmask] at h ⊢
      by_cases hrange : atype = "iprange"
      · rw [if_pos hrange] at h ⊢
        rw [← mem_rangeCubes]
        by_cases hips : isIp (fortiSet1 entry "start-ip" "") = true ∧
            isIp (fortiSet1 entry "end-ip" "") = true
        · rw [if_pos hips] at h ⊢
          obtain rfl := Except.ok.inj h
          rfl
        · rw [if_neg hips] at h ⊢
          obtain rfl := Except.ok.inj h
          rfl
      · rw [if_neg hrange] at h ⊢
        have hr : r.getD [] = [] := by
          split at h <;> obtain rfl := Except.ok.inj h <;> rfl
        rw [hr]
        simp

/-! ## What a name reaches -/

def addressGroups (root : Node) : PyDict.Dict (List String) :=
  groupMembers root "firewall addrgrp"

def addressEntry (root : Node) (name : String) : Option Node :=
  PyDict.get? (fortiItems root "firewall address") name

/-- An entry of the address section that the parser keeps. -/
def keepsEntry (entry : Node) : Bool :=
  match addressCubes entry with
  | .ok (some _) => true
  | _ => false

def isAddressObject (root : Node) (name : String) : Bool :=
  (lookupBuiltinAddress name).isSome || (addressEntry root name).any keepsEntry

/-- The addresses a name stands for as an object, when they can be resolved offline. -/
def objectAddrs (root : Node) (name : String) : Option (Set Addr) :=
  match lookupBuiltinAddress name with
  | some cubes => some (cubeAddrs cubes)
  | none => (addressEntry root name).bind entryAddrs

def groupRefs (root : Node) : PyDict.Dict (List String) :=
  openGroups (isAddressObject root) (addressGroups root)

/-- The objects a name in a policy reaches: itself, or, when it is the name of a group, what the
members reach through any number of groups, which may refer to each other. -/
@[irreducible] def Leaf (root : Node) (n m : String) : Prop :=
  match lookupBuiltinAddress n, PyDict.get? (addressGroups root) n with
  | none, some members => m ≠ n ∧ PyDict.has (groupRefs root) m = false ∧
      ∃ q ∈ members, Relation.ReflTransGen (Worklist.Refers (groupRefs root)) q m
  | _, _ => m = n

/-- An address that an object reached from a name has. -/
def Reaches (root : Node) (n : String) (x : Addr) : Prop :=
  ∃ m, Leaf root n m ∧ HasAddr (objectAddrs root m) x

section Resolution

variable {root : Node} {raw : PyDict.Dict (List Cube)}

section

variable (hu : root.Unique) (hraw : rawAddresses root = .ok raw)

include hu hraw

theorem get?_rawAddresses (name : String) :
    match addressEntry root name with
    | none => PyDict.get? raw name = none
    | some entry => ∃ r, addressCubes entry = .ok r ∧ PyDict.get? raw name = r := by
  have hitems : PyDict.Unique (fortiItems root "firewall address") := unique_fortiItems hu _
  rcases he : addressEntry root name with _ | entry
  · exact PyDict.get?_filterMapM_none hraw he
  · exact PyDict.get?_filterMapM hraw hitems name entry he

theorem knownAddress_eq :
    knownAddress raw = isAddressObject root := by
  funext name
  have h := get?_rawAddresses hu hraw name
  rw [knownAddress, isAddressObject, PyDict.has]
  rcases he : addressEntry root name with _ | entry
  · rw [he] at h
    rw [h]
    rfl
  · rw [he] at h
    obtain ⟨r, hr, hg⟩ := h
    rw [hg, Option.any_some, keepsEntry, hr]
    cases r <;> rfl

theorem mem_memberCubes (name : String) (x : Addr) :
    x ∈ cubeAddrs (memberCubes raw name) ↔ HasAddr (objectAddrs root name) x := by
  rw [memberCubes, objectAddrs]
  rcases lookupBuiltinAddress name with _ | cubes
  · have h := get?_rawAddresses hu hraw name
    dsimp only
    rcases he : addressEntry root name with _ | entry
    · rw [he] at h
      rw [h]
      simp
    · rw [he] at h
      obtain ⟨r, hr, hg⟩ := h
      rw [hg, Option.bind_some, mem_addressCubes hr]
  · exact (hasAddr_some _ x).symm

theorem not_hasAddr_of_groupRefs {name : String} (h : PyDict.has (groupRefs root) name)
    (x : Addr) :
    ¬ HasAddr (objectAddrs root name) x := by
  obtain ⟨members, hm⟩ := Option.isSome_iff_exists.mp h
  have hmem := PyDict.mem_of_get? hm
  rw [groupRefs, openGroups, List.mem_filter] at hmem
  have hopen : knownAddress raw name = false := by
    rw [knownAddress_eq hu hraw]
    simpa using hmem.2
  rw [knownAddress, Bool.or_eq_false_iff, PyDict.has] at hopen
  rw [← mem_memberCubes hu hraw, memberCubes]
  have hbuiltin : lookupBuiltinAddress name = none := by simpa using hopen.1
  have hnone : PyDict.get? raw name = none := by simpa using hopen.2
  rw [hbuiltin, hnone]
  exact mem_cubeAddrs_nil x

end

theorem unique_addressGroups (hu : root.Unique) : PyDict.Unique (addressGroups root) :=
  unique_groupMembers hu _

theorem mem_groupCubes (hu : root.Unique) (hraw : rawAddresses root = .ok raw) {n : String}
    {members : List String} (hbuiltin : lookupBuiltinAddress n = none)
    (hg : PyDict.get? (addressGroups root) n = some members) (x : Addr) :
    x ∈ cubeAddrs (groupCubes raw (addressGroups root) n members) ↔ Reaches root n x := by
  have hmem (m : String) : m ∈ reachedNames (knownAddress raw) (addressGroups root) n members ↔
      m ≠ n ∧ ∃ q ∈ members, Relation.ReflTransGen (Worklist.Refers (groupRefs root)) q m := by
    rw [knownAddress_eq hu hraw]
    exact mem_reachedNames (unique_addressGroups hu) hg
  have hcubes : x ∈ cubeAddrs (groupCubes raw (addressGroups root) n members) ↔
      ∃ m ∈ reachedNames (knownAddress raw) (addressGroups root) n members,
        x ∈ cubeAddrs (memberCubes raw m) := by
    simp only [cubeAddrs, groupCubes, List.mem_flatMap, Set.mem_ofPred_eq]
    constructor
    · rintro ⟨c, ⟨m, hm, hc⟩, hx⟩
      exact ⟨m, hm, c, hc, hx⟩
    · rintro ⟨m, hm, c, hc, hx⟩
      exact ⟨c, ⟨m, hm, hc⟩, hx⟩
  rw [hcubes, Reaches]
  refine exists_congr fun m => ?_
  rw [hmem, mem_memberCubes hu hraw, Leaf, hbuiltin, hg]
  constructor
  · rintro ⟨⟨hne, hreach⟩, hx⟩
    have hleaf : PyDict.has (groupRefs root) m = false := by
      rw [Bool.eq_false_iff]
      exact fun h => not_hasAddr_of_groupRefs hu hraw h x hx
    exact ⟨⟨hne, hleaf, hreach⟩, hx⟩
  · rintro ⟨⟨hne, -, hreach⟩, hx⟩
    exact ⟨⟨hne, hreach⟩, hx⟩

theorem get?_resolveAddresses (hu : root.Unique) (n : String) :
    PyDict.get? (resolveAddresses raw (addressGroups root)) n =
      match PyDict.get? (addressGroups root) n with
      | some members => some (groupCubes raw (addressGroups root) n members)
      | none => PyDict.get? raw n := by
  rw [resolveAddresses, PyDict.get?_foldl_set (fun p => groupCubes raw (addressGroups root) p.1 p.2)
    (unique_addressGroups hu) raw n]
  rcases PyDict.get? (addressGroups root) n with _ | members <;> rfl

theorem mem_collectPolicyAddress (hu : root.Unique) (hraw : rawAddresses root = .ok raw)
    (pid n : String) (x : Addr) :
    x ∈ cubeAddrs (collectPolicyAddress (resolveAddresses raw (addressGroups root)) pid n).1 ↔
      Reaches root n x := by
  rw [collectPolicyAddress]
  rcases hb : lookupBuiltinAddress n with _ | cubes
  · have hcubes : cubeAddrs ((PyDict.get? (resolveAddresses raw (addressGroups root)) n).getD []) =
        {x | Reaches root n x} := by
      ext x
      rw [get?_resolveAddresses hu, Set.mem_ofPred_eq]
      rcases hg : PyDict.get? (addressGroups root) n with _ | members
      · have hleaf (m : String) : Leaf root n m ↔ m = n := by rw [Leaf, hb, hg]
        have hself := mem_memberCubes hu hraw n x
        rw [memberCubes, hb] at hself
        simp only [Reaches, hleaf, exists_eq_left]
        exact hself
      · exact mem_groupCubes hu hraw hb hg x
    have hx : x ∈ cubeAddrs ((PyDict.get? (resolveAddresses raw (addressGroups root)) n).getD []) ↔
        Reaches root n x := by
      rw [hcubes]
      rfl
    rw [← hx]
    rcases PyDict.get? (resolveAddresses raw (addressGroups root)) n with _ | _ | ⟨c, cs⟩ <;> rfl
  · have hleaf (m : String) : Leaf root n m ↔ m = n := by rw [Leaf, hb]
    simp only [Reaches, hleaf, exists_eq_left]
    rw [objectAddrs, hb, hasAddr_some]

theorem collectPolicyAddress_snd_ne_nil (addresses : PyDict.Dict (List Cube)) (pid n : String) :
    (collectPolicyAddress addresses pid n).2 ≠ [] ↔
      lookupBuiltinAddress n = none ∧ (collectPolicyAddress addresses pid n).1 = [] := by
  rw [collectPolicyAddress]
  rcases lookupBuiltinAddress n with _ | cubes
  · rcases PyDict.get? addresses n with _ | _ | ⟨c, cs⟩ <;> simp
  · simp

end Resolution

/-! ## The rule of a policy -/

/-- The addresses of a policy setting. -/
def addressNames (entry : Node) (key : String) : List String := getSets entry key ["all"]

/-- The policy names only what can be resolved offline. -/
def AllResolve (root entry : Node) : Prop :=
  ∀ n ∈ addressNames entry "srcaddr" ++ addressNames entry "dstaddr", ∀ m, Leaf root n m →
    (objectAddrs root m).isSome

/-- One of the names of a setting reaches an address. -/
def ReachedFrom (root entry : Node) (key : String) (x : Addr) : Prop :=
  ∃ n ∈ addressNames entry key, Reaches root n x

/-- The rule is right about the addresses of its policy: its cubes have exactly the addresses the
policy reaches when all of them can be resolved, and it is opaque, with a reason, when one of them
cannot. -/
def AddressesResolved (root entry : Node) (rule : Rule) : Prop :=
  (AllResolve root entry →
    (∀ x, x ∈ cubeAddrs rule.fields.srcIps ↔ ReachedFrom root entry "srcaddr" x) ∧
      ∀ x, x ∈ cubeAddrs rule.fields.dstIps ↔ ReachedFrom root entry "dstaddr" x) ∧
    (¬ AllResolve root entry → rule.fields.isOpaque = true ∧ rule.unresolved ≠ [])

/-- A name that is no factory address and reaches no address at all. -/
def Hollow (root : Node) (n : String) : Prop :=
  lookupBuiltinAddress n = none ∧ ∀ x, ¬ Reaches root n x

/-- The policy cannot be decided for a reason that is not an address: the legacy action, a service
without a definition, an internet service, a negated match or a condition that is not evaluated. -/
def OtherwiseUndecidable (root entry : Node) : Prop :=
  lower (fortiSet1 entry "action" "deny") = "ipsec" ∨
    (∃ s ∈ getSets entry "service" ["ALL"], ¬ DefinesService root s) ∨
    (fortiSet1 entry "internet-service" "" = "enable" ∨
      getSets entry "internet-service-name" [] ≠ [] ∨
      fortiSet1 entry "internet-service-src" "" = "enable" ∨
      getSets entry "internet-service-src-name" [] ≠ []) ∨
    (∃ key ∈ negateKeys, fortiSet1 entry key "" = "enable") ∨ policyNarrowing entry ≠ []

/-- The addresses of a policy can be trusted: when all of them resolve, both settings reach an
address; when one does not, a listed name reaches nothing at all or the policy is undecidable for
another reason. -/
def ResolvesFully (root entry : Node) : Prop :=
  (AllResolve root entry →
    (∃ x, ReachedFrom root entry "srcaddr" x) ∧ ∃ x, ReachedFrom root entry "dstaddr" x) ∧
    (¬ AllResolve root entry →
      (∃ n ∈ addressNames entry "srcaddr" ++ addressNames entry "dstaddr", Hollow root n) ∨
        OtherwiseUndecidable root entry)

theorem mem_cubeAddrs_orAny {cubes : List Cube} {x : Addr} :
    x ∈ cubeAddrs (orAny cubes) ↔ cubes = [] ∨ x ∈ cubeAddrs cubes := by
  rcases cubes with _ | ⟨c, cs⟩
  · simp [orAny]
  · simp [orAny]

theorem mem_collectAddresses (addresses : PyDict.Dict (List Cube)) (pid : String)
    (names : List String) (x : Addr) :
    x ∈ cubeAddrs (collectAddresses addresses pid names).1 ↔
      ∃ n ∈ names, x ∈ cubeAddrs (collectPolicyAddress addresses pid n).1 := by
  simp only [cubeAddrs, collectAddresses, List.mem_flatMap, Set.mem_ofPred_eq]
  constructor
  · rintro ⟨c, ⟨n, hn, hc⟩, hx⟩
    exact ⟨n, hn, c, hc, hx⟩
  · rintro ⟨n, hn, c, hc, hx⟩
    exact ⟨c, ⟨n, hn, hc⟩, hx⟩

theorem otherReasons_ne_nil {root : Node} {services : PyDict.Dict ServiceDef}
    (hdef : ∀ s, (lookupService services s).isSome = true ↔ DefinesService root s)
    (pid : String) (entry : Node) :
    (actionReasons pid entry ≠ [] ∨
      serviceReasons services pid (getSets entry "service" ["ALL"]) ≠ [] ∨
      isdbReasons pid entry ≠ [] ∨ negateReasons pid entry ≠ [] ∨
      narrowingReasons pid entry ≠ []) ↔ OtherwiseUndecidable root entry := by
  have haction : actionReasons pid entry ≠ [] ↔
      lower (fortiSet1 entry "action" "deny") = "ipsec" := by
    rw [actionReasons]
    split <;> simp_all
  have hservice : serviceReasons services pid (getSets entry "service" ["ALL"]) ≠ [] ↔
      ∃ s ∈ getSets entry "service" ["ALL"], ¬ DefinesService root s := by
    simp [serviceReasons, List.filter_eq_nil_iff, ← hdef]
  have hisdb : isdbReasons pid entry ≠ [] ↔
      (fortiSet1 entry "internet-service" "" = "enable" ∨
        getSets entry "internet-service-name" [] ≠ [] ∨
        fortiSet1 entry "internet-service-src" "" = "enable" ∨
        getSets entry "internet-service-src-name" [] ≠ []) := by
    rw [isdbReasons]
    split
    · next h => exact iff_of_true (List.cons_ne_nil _ _) h
    · next h => exact iff_of_false (not_not.mpr rfl) h
  have hnegate : negateReasons pid entry ≠ [] ↔
      ∃ key ∈ negateKeys, fortiSet1 entry key "" = "enable" := by
    simp [negateReasons, List.filter_eq_nil_iff]
  have hnarrow : narrowingReasons pid entry ≠ [] ↔ policyNarrowing entry ≠ [] := by
    rw [narrowingReasons]
    split
    · next h => exact iff_of_false (not_not.mpr rfl) (not_not.mpr h)
    · next h => exact iff_of_true (List.cons_ne_nil _ _) h
  rw [haction, hservice, hisdb, hnegate, hnarrow, OtherwiseUndecidable]

section Policy

variable {root : Node} {raw : PyDict.Dict (List Cube)} {services : PyDict.Dict ServiceDef}

theorem collectAddresses_snd_ne_nil (hu : root.Unique) (hraw : rawAddresses root = .ok raw)
    (pid : String) (names : List String) :
    (collectAddresses (resolveAddresses raw (addressGroups root)) pid names).2 ≠ [] ↔
      ∃ n ∈ names, Hollow root n := by
  simp only [collectAddresses, ne_eq, List.flatMap_eq_nil_iff, not_forall]
  constructor
  · rintro ⟨n, hn, hr⟩
    obtain ⟨hb, hnil⟩ := (collectPolicyAddress_snd_ne_nil _ pid n).mp hr
    refine ⟨n, hn, hb, fun x hx => ?_⟩
    rw [← mem_collectPolicyAddress hu hraw pid n, hnil] at hx
    exact mem_cubeAddrs_nil x hx
  · rintro ⟨n, hn, hb, hnone⟩
    refine ⟨n, hn, (collectPolicyAddress_snd_ne_nil _ pid n).mpr ⟨hb, ?_⟩⟩
    by_contra hne
    obtain ⟨x, hx⟩ := cubeAddrs_nonempty_iff.mpr hne
    exact hnone x ((mem_collectPolicyAddress hu hraw pid n x).mp hx)

theorem append_ne_nil {α : Type} {l l' : List α} : l ++ l' ≠ [] ↔ l ≠ [] ∨ l' ≠ [] := by
  rw [ne_eq, List.append_eq_nil_iff, not_and_or]

theorem or_rotate {a s d v i n w : Prop} :
    ((((((a ∨ s) ∨ d) ∨ v) ∨ i) ∨ n) ∨ w) ↔ (s ∨ d) ∨ a ∨ v ∨ i ∨ n ∨ w := by
  tauto

section

variable (hu : root.Unique) (hraw : rawAddresses root = .ok raw)

include hu hraw

theorem policyUnresolved_ne_nil
    (hdef : ∀ s, (lookupService services s).isSome = true ↔ DefinesService root s) (pid : String)
    (entry : Node) :
    policyUnresolved (resolveAddresses raw (addressGroups root)) services pid entry ≠ [] ↔
      (∃ n ∈ addressNames entry "srcaddr" ++ addressNames entry "dstaddr", Hollow root n) ∨
        OtherwiseUndecidable root entry := by
  have hsrc : (collectAddresses (resolveAddresses raw (addressGroups root)) pid
      (getSets entry "srcaddr" ["all"])).2 ≠ [] ↔
      ∃ n ∈ addressNames entry "srcaddr", Hollow root n := collectAddresses_snd_ne_nil hu hraw _ _
  have hdst : (collectAddresses (resolveAddresses raw (addressGroups root)) pid
      (getSets entry "dstaddr" ["all"])).2 ≠ [] ↔
      ∃ n ∈ addressNames entry "dstaddr", Hollow root n := collectAddresses_snd_ne_nil hu hraw _ _
  have happ : (∃ n ∈ addressNames entry "srcaddr" ++ addressNames entry "dstaddr",
      Hollow root n) ↔ (∃ n ∈ addressNames entry "srcaddr", Hollow root n) ∨
        ∃ n ∈ addressNames entry "dstaddr", Hollow root n := by
    simp only [List.mem_append, or_and_right, exists_or]
  rw [happ, ← hsrc, ← hdst, ← otherReasons_ne_nil hdef pid, policyUnresolved]
  simp only [append_ne_nil]
  exact or_rotate

theorem orAny_collectAddresses_iff (pid : String) (entry : Node) (key : String) :
    (∀ x, x ∈ cubeAddrs (orAny (collectAddresses (resolveAddresses raw (addressGroups root)) pid
        (addressNames entry key)).1) ↔ ReachedFrom root entry key x) ↔
      ∃ x, ReachedFrom root entry key x := by
  have hmem (x : Addr) : x ∈ cubeAddrs (collectAddresses
      (resolveAddresses raw (addressGroups root)) pid (addressNames entry key)).1 ↔
      ReachedFrom root entry key x := by
    rw [mem_collectAddresses, ReachedFrom]
    exact exists_congr fun n => and_congr_right fun _ => mem_collectPolicyAddress hu hraw pid n x
  simp only [mem_cubeAddrs_orAny, ← hmem]
  rw [cubeAddrs_nonempty_iff]
  constructor
  · intro h hnil
    exact absurd ((h 0).mp (Or.inl hnil)) (by rw [hnil]; exact mem_cubeAddrs_nil 0)
  · intro h x
    exact or_iff_right h

theorem addressesResolved_policyRule_iff
    (hdef : ∀ s, (lookupService services s).isSome = true ↔ DefinesService root s) (pid : String)
    (entry : Node) :
    AddressesResolved root entry
        (policyRule (resolveAddresses raw (addressGroups root)) services pid entry) ↔
      ResolvesFully root entry := by
  rw [AddressesResolved, ResolvesFully, ← policyUnresolved_ne_nil hu hraw hdef pid entry,
    ← orAny_collectAddresses_iff hu hraw pid entry "srcaddr",
    ← orAny_collectAddresses_iff hu hraw pid entry "dstaddr"]
  simp only [policyRule, decide_eq_true_eq, and_self]
  rfl

end

end Policy

/-- A policy on a group whose second member is not defined. -/
def partialGroup : String :=
  "config firewall addrgrp\nedit g\nset member all x\nend\nend\n" ++
    "config firewall policy\nedit 1\nset srcaddr g\n"

theorem exists_eq_ok {α : Type} {x : Py α} (h : x.isOk) : ∃ a, x = .ok a := by
  cases x with
  | error e => exact absurd h Bool.false_ne_true
  | ok a => exact ⟨a, rfl⟩

theorem not_allResolve_of_undefined {root entry : Node} {n m : String} {members : List String}
    (hn : n ∈ addressNames entry "srcaddr") (hbuiltin : lookupBuiltinAddress n = none)
    (hgroup : PyDict.get? (addressGroups root) n = some members) (hm : m ∈ members)
    (hne : m ≠ n) (hrefs : PyDict.has (groupRefs root) m = false)
    (hmbuiltin : lookupBuiltinAddress m = none) (hentry : (addressEntry root m).isNone) :
    ¬ AllResolve root entry := by
  intro hres
  have hleaf : Leaf root n m := by
    rw [Leaf, hbuiltin, hgroup]
    exact ⟨hne, hrefs, m, hm, .refl⟩
  have hundefined : objectAddrs root m = none := by
    rw [objectAddrs, hmbuiltin, Option.isNone_iff_eq_none.mp hentry]
    rfl
  have hsome := hres n (List.mem_append_left _ hn) m hleaf
  rw [hundefined] at hsome
  exact absurd hsome Bool.false_ne_true

end SentinelNet.PolicyTest
