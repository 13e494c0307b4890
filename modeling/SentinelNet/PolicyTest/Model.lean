import SentinelNet.Lib.Dict
import SentinelNet.Lib.Intervals
import SentinelNet.Lib.Ipv4
import SentinelNet.Lib.Ternary

/-!
# Policy validation: the data model

`services/policy_test/model.py`: addresses as ternary cubes, ports as lists of closed intervals,
flows, the field set of a rule with its matching and containment tests, rules, routes with the
longest-prefix lookup, and the trace of an evaluation.

Python's `None` is `none` throughout, so a field set with `protos = none` admits every protocol
and a flow with `dport = none` does not say its destination port.  A Python `set` is the list of
its elements in iteration order; where the source takes `next(iter(s))`, the model takes the head
of the list.  A function that raises returns the text of its exception.

## The dimensions of a field set

`FieldSet._match_known_dimensions` runs through the dimensions and skips one when the rule does
not restrict it or the flow does not say it.  `FieldSet.contains` skips one when the covering
rule does not restrict it, and fails when the covered one does not.  These two patterns are
`admits` and `coversDim`, so that both functions are conjunctions of one test per dimension.
-/

namespace SentinelNet.PolicyTest

open PyText

/-! ## Addresses -/

/-- A computation that returns a value or raises an exception with a text. -/
abbrev Py (α : Type) := Except String α

theorem bind_eq_ok {α β : Type} {x : Py α} {f : α → Py β} {b : β} (h : x >>= f = .ok b) :
    ∃ a, x = .ok a ∧ f a = .ok b := by
  rcases x with e | a
  · exact absurd h (by simp [bind, Except.bind])
  · exact ⟨a, rfl, h⟩

theorem eq_ok_of_toOption {α : Type} {x : Py α} {a : α} (h : x.toOption = some a) : x = .ok a := by
  cases x with
  | error e => exact absurd h (by simp [Except.toOption])
  | ok b => exact congrArg _ (Option.some.inj h)

/-- An IPv4 address as a 32-bit word. -/
abbrev Addr := Ipv4.Addr

def ipToInt (ip : String) : Py Addr :=
  match Ipv4.ofChars (stripChars ip.toList) with
  | some v => .ok v
  | none => .error s!"Invalid IPv4 address: {ip}"

def intToIp (val : Addr) : String := String.ofList (Ipv4.format val)

/-- `_is_ip`, which both front ends define. -/
def isIp (tok : String) : Bool := Ipv4.isQuad tok.toList

@[simp] theorem isIp_intToIp (a : Addr) : isIp (intToIp a) = true := by
  rw [isIp, intToIp, String.toList_ofList, Ipv4.isQuad_format]

@[simp] theorem ipToInt_intToIp (a : Addr) : ipToInt (intToIp a) = .ok a := by
  have hstrip : stripChars (Ipv4.format a) = Ipv4.format a :=
    stripChars_of_forall fun c hc => Ipv4.isSpace_of_mem_format hc
  rw [ipToInt, intToIp, String.toList_ofList, hstrip, Ipv4.ofChars_format]

def countOnes (mask : Addr) : ℕ := (List.range 32).countP fun i => mask.getLsbD i

/-- `mask_to_prefix_len`: the prefix length of a mask whose ones are its leading bits. -/
def maskToPrefixLen (mask : Addr) : Option ℕ :=
  if mask = 0 then some 0
  else
    let inv := (~~~mask).toNat
    if (inv + 1) &&& inv = 0 then
      let bits := countOnes mask
      if mask = BitVec.ofNat 32 (0xFFFFFFFF <<< (32 - bits)) then some bits else none
    else none

/-- A ternary cube: the addresses that agree with `value` on the bits of `mask`. -/
structure Cube where
  value : Addr
  mask : Addr
  /-- The free bits of `value` are zero, as `__post_init__` makes them. -/
  canonical : value &&& mask = value
  deriving DecidableEq

namespace Cube

/-- `Cube(value, mask)` with its `__post_init__`. -/
def make (value mask : Addr) : Cube :=
  ⟨value &&& mask, mask, by rw [BitVec.and_assoc, BitVec.and_self]⟩

@[simp] theorem make_value (value mask : Addr) : (make value mask).value = value &&& mask := rfl

@[simp] theorem make_mask (value mask : Addr) : (make value mask).mask = mask := rfl

def containsIp (c : Cube) (ip : Addr) : Bool := (ip &&& c.mask) ^^^ c.value == 0

def containsCube (c other : Cube) : Bool :=
  if c.mask &&& other.mask ≠ c.mask then false
  else (c.value ^^^ other.value) &&& c.mask == 0

def isAny (c : Cube) : Bool := c.mask == 0

def isExact (c : Cube) : Bool := c.mask == BitVec.allOnes 32

def any : Cube := make 0 0

def fromIp (ip : String) : Py Cube := do
  let v ← ipToInt ip
  pure (make v (BitVec.allOnes 32))

/-- The mask of a prefix length, `(0xFFFFFFFF << (32 - prefix)) & 0xFFFFFFFF`. -/
def prefixMask (len : ℕ) : Addr :=
  if len > 0 then BitVec.ofNat 32 (0xFFFFFFFF <<< (32 - len)) else 0

def fromCidr (ip : String) (len : ℕ) : Py Cube :=
  if len > 32 then .error s!"Invalid prefix length: {len}"
  else do
    let v ← ipToInt ip
    pure (make (v &&& prefixMask len) (prefixMask len))

def fromNetmask (ip netmask : String) : Py Cube := do
  let mask ← ipToInt netmask
  let val ← ipToInt ip
  pure (make (val &&& mask) mask)

def fromWildcard (ip wildcard : String) : Py Cube := do
  let w ← ipToInt wildcard
  let val ← ipToInt ip
  pure (make (val &&& ~~~w) (~~~w))

theorem getLsbD_prefixMask {len i : ℕ} (hlen : len ≤ 32) (hi : i < 32) :
    (prefixMask len).getLsbD i = decide (32 - len ≤ i) := by
  rw [prefixMask]
  split
  · have hones : Nat.testBit 0xFFFFFFFF (i - (32 - len)) = decide (i - (32 - len) < 32) :=
      Nat.testBit_two_pow_sub_one 32 _
    have hlt : i - (32 - len) < 32 := by omega
    rw [BitVec.getLsbD_ofNat, Nat.testBit_shiftLeft, hones]
    simp [hi, hlt]
  · next h =>
    obtain rfl : len = 0 := by omega
    simp
    omega

theorem and_prefixMask_eq_iff {len : ℕ} (hlen : len ≤ 32) {a b : Addr} :
    a &&& prefixMask len = b &&& prefixMask len ↔
      a.toNat / 2 ^ (32 - len) = b.toNat / 2 ^ (32 - len) := by
  rw [← Nat.shiftRight_eq_div_pow, ← Nat.shiftRight_eq_div_pow, ← BitVec.toNat_ushiftRight,
    ← BitVec.toNat_ushiftRight, ← BitVec.toNat_eq]
  constructor
  · intro h
    refine BitVec.eq_of_getLsbD_eq fun i hi => ?_
    rw [BitVec.getLsbD_ushiftRight, BitVec.getLsbD_ushiftRight]
    by_cases hbit : 32 - len + i < 32
    · have hb := congrArg (fun w : Addr => w.getLsbD (32 - len + i)) h
      simpa [getLsbD_prefixMask hlen hbit] using hb
    · rw [BitVec.getLsbD_of_ge _ _ (by omega), BitVec.getLsbD_of_ge _ _ (by omega)]
  · intro h
    refine BitVec.eq_of_getLsbD_eq fun i hi => ?_
    rw [BitVec.getLsbD_and, BitVec.getLsbD_and, getLsbD_prefixMask hlen hi]
    by_cases hbit : 32 - len ≤ i
    · have hb := congrArg (fun w : Addr => w.getLsbD (i - (32 - len))) h
      simp only [BitVec.getLsbD_ushiftRight] at hb
      rw [show 32 - len + (i - (32 - len)) = i by omega] at hb
      rw [hb]
    · simp [hbit]

theorem containsIp_prefix {len : ℕ} (hlen : len ≤ 32) {v x : Addr} :
    (make (v &&& prefixMask len) (prefixMask len)).containsIp x = true ↔
      x.toNat / 2 ^ (32 - len) = v.toNat / 2 ^ (32 - len) := by
  have h : (make (v &&& prefixMask len) (prefixMask len)).containsIp x = true ↔
      x &&& prefixMask len = v &&& prefixMask len := by
    rw [containsIp, beq_iff_eq, make_value, make_mask, BitVec.and_assoc, BitVec.and_self]
    exact BitVec.xor_eq_zero_iff
  rw [h, and_prefixMask_eq_iff hlen]

def addrs (c : Cube) : Set Addr := Ternary.cube c.value c.mask

variable {c : Cube}

theorem containsIp_eq_true {ip : Addr} : c.containsIp ip = true ↔ ip &&& c.mask = c.value := by
  rw [containsIp, beq_iff_eq]
  exact BitVec.xor_eq_zero_iff

theorem containsIp_iff {ip : Addr} : c.containsIp ip = true ↔ ip ∈ c.addrs := by
  rw [containsIp_eq_true, addrs, Ternary.mem_cube]

theorem addrs_subset_of_containsCube {other : Cube} (h : c.containsCube other) :
    other.addrs ⊆ c.addrs := by
  rw [containsCube] at h
  split at h
  · exact absurd h Bool.false_ne_true
  · next hmask =>
    exact Ternary.cube_subset_cube c.canonical (not_not.mp hmask) (beq_iff_eq.mp h)

@[simp] theorem containsIp_any (ip : Addr) : any.containsIp ip = true := by
  rw [containsIp_iff, addrs]
  change ip ∈ Ternary.cube (0 : Addr) 0
  rw [Ternary.cube_zero]
  exact Set.mem_univ ip

theorem containsIp_of_isAny (h : c.isAny) (ip : Addr) : c.containsIp ip = true := by
  have hm : c.mask = 0 := beq_iff_eq.mp h
  have hv : c.value = 0 := by rw [← c.canonical, hm, BitVec.ofNat_eq_ofNat, BitVec.and_zero]
  rw [containsIp_iff, addrs, hm, hv, Ternary.cube_zero]
  exact Set.mem_univ ip

end Cube

/-! ## Ports -/

/-- A set of ports as a list of closed intervals. -/
structure PortSet where
  intervals : List (ℤ × ℤ)
  deriving DecidableEq

namespace PortSet

/-- One pair of `_normalize`, clamped to `0..65535` and put in order. -/
def clean (p : ℤ × ℤ) : ℤ × ℤ :=
  let lo := max 0 (min 65535 p.1)
  let hi := max 0 (min 65535 p.2)
  if lo > hi then (hi, lo) else (lo, hi)

/-- `PortSet.from_list`, that is `PortSet._normalize`. -/
def fromList (l : List (ℤ × ℤ)) : PortSet := ⟨Intervals.normalize (l.map clean)⟩

def containsPort (s : PortSet) (port : ℤ) : Bool :=
  s.intervals.any fun p => p.1 ≤ port && port ≤ p.2

def containsPortset (s other : PortSet) : Bool :=
  other.intervals.all fun o => s.intervals.any fun p => p.1 ≤ o.1 && o.2 ≤ p.2

def intersects (s other : PortSet) : Bool :=
  s.intervals.any fun p => other.intervals.any fun o => max p.1 o.1 ≤ min p.2 o.2

def isAny (s : PortSet) : Bool :=
  match s.intervals with
  | [p] => p.1 ≤ 1 && p.2 == 65535
  | _ => false

/-- `PortSet.any()`. -/
def any : PortSet := ⟨[(0, 65535)]⟩

def fromOp (op : String) (val1 : ℤ) (val2 : Option ℤ) : PortSet :=
  match lower op with
  | "eq" => fromList [(val1, val1)]
  | "gt" => fromList [(val1 + 1, 65535)]
  | "lt" => fromList [(1, max 1 (val1 - 1))]
  | "range" =>
    let v2 := val2.getD val1
    fromList [(min val1 v2, max val1 v2)]
  | "neq" =>
    fromList ((if val1 > 1 then [(1, val1 - 1)] else []) ++
      (if val1 < 65535 then [(val1 + 1, 65535)] else []))
  | _ => any

variable {port : ℤ}

theorem containsPort_iff {s : PortSet} :
    s.containsPort port = true ↔ Intervals.Covers s.intervals port := by
  simp only [containsPort, List.any_eq_true, Bool.and_eq_true, decide_eq_true_eq,
    Intervals.Covers]

theorem clean_fst_le_snd (p : ℤ × ℤ) : (clean p).1 ≤ (clean p).2 := by
  simp only [clean]
  split <;> omega

theorem clean_bounds (p : ℤ × ℤ) : 0 ≤ (clean p).1 ∧ (clean p).2 ≤ 65535 := by
  simp only [clean]
  split <;> omega

theorem containsPort_fromList {l : List (ℤ × ℤ)} :
    (fromList l).containsPort port = true ↔ Intervals.Covers (l.map clean) port := by
  rw [containsPort_iff, fromList]
  refine Intervals.covers_normalize fun p hp => ?_
  obtain ⟨q, -, rfl⟩ := List.mem_map.mp hp
  exact clean_fst_le_snd q

theorem containsPort_of_containsPortset {s other : PortSet}
    (h : s.containsPortset other) (hp : other.containsPort port) :
    s.containsPort port = true := by
  rw [containsPort_iff] at hp ⊢
  refine Intervals.covers_of_forall_within (fun o ho => ?_) hp
  have hin := List.any_eq_true.mp (List.all_eq_true.mp h o ho)
  simpa only [Bool.and_eq_true, decide_eq_true_eq] using hin

theorem separated_fromList (l : List (ℤ × ℤ)) : Intervals.Separated (fromList l).intervals :=
  Intervals.separated_normalize fun _ hp => by
    obtain ⟨q, -, rfl⟩ := List.mem_map.mp hp
    exact clean_fst_le_snd q

theorem containsPortset_of_forall {s other : PortSet} (hs : Intervals.Separated s.intervals)
    (hother : Intervals.Separated other.intervals)
    (h : ∀ port, other.containsPort port = true → s.containsPort port = true) :
    s.containsPortset other = true := by
  refine List.all_eq_true.mpr fun o ho => List.any_eq_true.mpr ?_
  simp only [Bool.and_eq_true, decide_eq_true_eq]
  exact hs.exists_within (hother.ordered o ho) fun x hlo hhi =>
    containsPort_iff.mp (h x (containsPort_iff.mpr ⟨o, ho, hlo, hhi⟩))

theorem intersects_iff {s other : PortSet} (hs : Intervals.Separated s.intervals)
    (hother : Intervals.Separated other.intervals) : s.intersects other = true ↔
      ∃ port, s.containsPort port = true ∧ other.containsPort port = true := by
  simp only [intersects, List.any_eq_true, decide_eq_true_eq, containsPort_iff]
  constructor
  · rintro ⟨p, hp, o, ho, hle⟩
    have hordered := hs.ordered p hp
    have hordered' := hother.ordered o ho
    exact ⟨max p.1 o.1, ⟨p, hp, by omega, by omega⟩, ⟨o, ho, by omega, by omega⟩⟩
  · rintro ⟨port, ⟨p, hp, hlo, hhi⟩, ⟨o, ho, hlo', hhi'⟩⟩
    exact ⟨p, hp, o, ho, by omega⟩

/-- What `from_list` makes of pairs of numbers is a list of ports in order, with gaps, of exactly
the ports of the clamped pairs; and on such lists inclusion and overlap are what they say. -/
theorem fromList_exact :
    (∀ l : List (ℤ × ℤ),
      (fromList l).intervals.Pairwise (fun a b => a.2 + 1 < b.1) ∧
      (∀ p ∈ (fromList l).intervals, 0 ≤ p.1 ∧ p.1 ≤ p.2 ∧ p.2 ≤ 65535) ∧
      ∀ port, (fromList l).containsPort port = true ↔
        ∃ p ∈ l, (clean p).1 ≤ port ∧ port ≤ (clean p).2) ∧
    ∀ l l' : List (ℤ × ℤ),
      ((fromList l).containsPortset (fromList l') = true ↔
        ∀ port, (fromList l').containsPort port = true → (fromList l).containsPort port = true) ∧
      ((fromList l).intersects (fromList l') = true ↔
        ∃ port, (fromList l).containsPort port = true ∧
          (fromList l').containsPort port = true) := by
  have hports : ∀ l port, (fromList l).containsPort port = true ↔
      ∃ p ∈ l, (clean p).1 ≤ port ∧ port ≤ (clean p).2 := by
    intro l port
    rw [containsPort_fromList, Intervals.Covers]
    simp only [List.mem_map, exists_exists_and_eq_and]
  refine ⟨fun l => ⟨(separated_fromList l).gaps, fun p hp => ?_, hports l⟩, fun l l' =>
    ⟨⟨fun h _ => containsPort_of_containsPortset h, containsPortset_of_forall
      (separated_fromList l) (separated_fromList l')⟩,
      intersects_iff (separated_fromList l) (separated_fromList l')⟩⟩
  have hle := (separated_fromList l).ordered p hp
  obtain ⟨q, -, hlo, -⟩ := (hports l p.1).mp (containsPort_iff.mpr ⟨p, hp, le_refl _, hle⟩)
  obtain ⟨q', -, -, hhi⟩ := (hports l p.2).mp (containsPort_iff.mpr ⟨p, hp, hle, le_refl _⟩)
  have hq := clean_bounds q
  have hq' := clean_bounds q'
  omega

/-- However a set of ports was written, it becomes one and the same list; and two lists that contain
each other are the same. -/
theorem fromList_eq_iff (l l' : List (ℤ × ℤ)) :
    (fromList l = fromList l' ↔
      ∀ port, (fromList l).containsPort port = true ↔ (fromList l').containsPort port = true) ∧
    (fromList l = fromList l' ↔ (fromList l).containsPortset (fromList l') = true ∧
      (fromList l').containsPortset (fromList l) = true) := by
  have hl := separated_fromList l
  have hl' := separated_fromList l'
  have hext : fromList l = fromList l' ↔
      ∀ port, (fromList l).containsPort port = true ↔ (fromList l').containsPort port = true := by
    refine ⟨fun h _ => by rw [h], fun h => ?_⟩
    simp only [containsPort_iff] at h
    have := hl.ext hl' h
    cases hf : fromList l
    cases hf' : fromList l'
    simp_all
  refine ⟨hext, hext.trans ⟨fun h => ?_, fun h port => ?_⟩⟩
  · exact ⟨containsPortset_of_forall hl hl' fun _ => (h _).mpr,
      containsPortset_of_forall hl' hl fun _ => (h _).mp⟩
  · exact ⟨containsPort_of_containsPortset h.2, containsPort_of_containsPortset h.1⟩

end PortSet

/-! ## Protocols -/

/-- `_PROTO_MAP`; the inner `none` stands for any protocol. -/
def protoMap : PyDict.Dict (Option ℤ) :=
  [("ip", none), ("ipv4", none), ("ip4", none), ("any", none), ("all", none),
    ("icmp", some 1), ("igmp", some 2), ("tcp", some 6), ("udp", some 17), ("gre", some 47),
    ("esp", some 50), ("ah", some 51), ("eigrp", some 88), ("ospf", some 89), ("pim", some 103),
    ("sctp", some 132)]

/-- `proto_from_name` of a text: the protocol number, or `none` for any protocol. -/
def protoFromName (name : String) : Option ℤ :=
  let s := lower (strip name)
  match PyDict.get? protoMap s with
  | some v => v
  | none => if isdigit s then some (nat s) else none

/-! ## Flows -/

/-- `Flow`: a packet flow to trace. -/
structure Flow where
  srcIp : String
  dstIp : String
  proto : String := "tcp"
  sport : Option ℤ := none
  dport : Option ℤ := none
  ingressIntf : Option String := none
  egressIntf : Option String := none
  tcpFlags : Option String := none
  established : Bool := false
  icmpType : Option ℤ := none
  deriving DecidableEq

/-- The flow belongs to an established connection, by its flag or by the word in its TCP
flags. -/
def Flow.isEstablished (flow : Flow) : Bool :=
  flow.established || flow.tcpFlags.any fun flags => contains (lower flags) "established"

/-! ## Field sets -/

/-- `FieldSet`: the packets of an ACE or a firewall rule. -/
structure FieldSet where
  srcIps : List Cube := [Cube.any]
  dstIps : List Cube := [Cube.any]
  srcPorts : Option PortSet := none
  dstPorts : Option PortSet := none
  protos : Option (List ℤ) := none
  ingressIntfs : Option (List String) := none
  egressIntfs : Option (List String) := none
  established : Bool := false
  /-- `opaque`: the rule could not be read. -/
  isOpaque : Bool := false
  icmpTypes : Option (List ℤ) := none
  narrowingQuals : List String := []
  deriving DecidableEq

/-- A dimension admits a value unless it is restricted, the value is given and the test fails. -/
def admits {α β : Type} (test : α → β → Bool) : Option α → Option β → Bool
  | some s, some x => test s x
  | _, _ => true

/-- A dimension covers another one when it is not restricted, or both are and the test holds. -/
def coversDim {α : Type} (test : α → α → Bool) : Option α → Option α → Bool
  | none, _ => true
  | some _, none => false
  | some s, some o => test s o

def setHas {α : Type} [DecidableEq α] (s : List α) (x : α) : Bool := decide (x ∈ s)

def setCovers {α : Type} [DecidableEq α] (s o : List α) : Bool := o.all fun x => setHas s x

/-- A set of interface names has a name, whatever the case. -/
def intfHas (s : List String) (name : String) : Bool := setHas (s.map lower) (lower name)

/-- A set of interface names contains another one, whatever the case. -/
def intfCovers (s o : List String) : Bool := setCovers (s.map lower) (o.map lower)

/-- One of the cubes has the address; `false` when the text is not an address. -/
def cubesHave (cubes : List Cube) (ip : String) : Bool :=
  match ipToInt ip with
  | .ok v => cubes.any fun c => c.containsIp v
  | .error _ => false

def cubesCover (s o : List Cube) : Bool := o.all fun oc => s.any fun sc => sc.containsCube oc

namespace FieldSet

def isAnyAny (f : FieldSet) : Bool :=
  if f.isOpaque then false
  else
    let srcAny := f.srcIps.all Cube.isAny
    let dstAny := f.dstIps.all Cube.isAny
    let sportAny := f.srcPorts.all PortSet.isAny
    let dportAny := f.dstPorts.all PortSet.isAny
    let protoAny := f.protos.isNone && f.icmpTypes.isNone
    let intfAny := f.ingressIntfs.isNone && f.egressIntfs.isNone
    srcAny && dstAny && sportAny && dportAny && protoAny && intfAny && !f.established &&
      f.narrowingQuals.isEmpty

def contains (f other : FieldSet) : Bool :=
  !(f.isOpaque || other.isOpaque) && f.narrowingQuals.isEmpty &&
    !(f.established && !other.established) &&
    coversDim setCovers f.protos other.protos &&
    coversDim setCovers f.icmpTypes other.icmpTypes &&
    cubesCover f.srcIps other.srcIps &&
    cubesCover f.dstIps other.dstIps &&
    coversDim PortSet.containsPortset f.srcPorts other.srcPorts &&
    coversDim PortSet.containsPortset f.dstPorts other.dstPorts &&
    coversDim intfCovers f.ingressIntfs other.ingressIntfs &&
    coversDim intfCovers f.egressIntfs other.egressIntfs

def matchKnownDimensions (f : FieldSet) (flow : Flow) : Bool :=
  !(f.established && !flow.isEstablished) &&
    admits setHas f.protos (protoFromName flow.proto) &&
    admits setHas f.icmpTypes flow.icmpType &&
    cubesHave f.srcIps flow.srcIp &&
    cubesHave f.dstIps flow.dstIp &&
    admits PortSet.containsPort f.srcPorts flow.sport &&
    admits PortSet.containsPort f.dstPorts flow.dport &&
    admits intfHas f.ingressIntfs flow.ingressIntf &&
    admits intfHas f.egressIntfs flow.egressIntf

theorem matchKnownDimensions_iff {f : FieldSet} {flow : Flow} :
    f.matchKnownDimensions flow = true ↔
      (f.established = true → flow.isEstablished = true) ∧
        admits setHas f.protos (protoFromName flow.proto) = true ∧
        admits setHas f.icmpTypes flow.icmpType = true ∧
        cubesHave f.srcIps flow.srcIp = true ∧ cubesHave f.dstIps flow.dstIp = true ∧
        admits PortSet.containsPort f.srcPorts flow.sport = true ∧
        admits PortSet.containsPort f.dstPorts flow.dport = true ∧
        admits intfHas f.ingressIntfs flow.ingressIntf = true ∧
        admits intfHas f.egressIntfs flow.egressIntf = true := by
  have hest : (!(f.established && !flow.isEstablished)) = true ↔
      (f.established = true → flow.isEstablished = true) := by
    cases f.established <;> cases flow.isEstablished <;> decide
  rw [matchKnownDimensions]
  simp only [Bool.and_eq_true, hest, and_assoc]

def matchesFlow (f : FieldSet) (flow : Flow) : Bool :=
  if f.isOpaque then false else f.matchKnownDimensions flow

def mayMatch (f : FieldSet) (flow : Flow) : Bool := f.matchKnownDimensions flow

end FieldSet

/-! ## Rules -/

inductive Action where
  | permit
  | deny
  | drop
  | unknown
  deriving DecidableEq

/-- `Rule`: an ACE or a firewall policy. -/
structure Rule where
  id : String
  name : String := ""
  action : Action := .permit
  fields : FieldSet := {}
  disabled : Bool := false
  rawText : String := ""
  natEnabled : Bool := false
  unresolved : List String := []
  deriving DecidableEq

def Rule.isDecidable (r : Rule) : Bool := !r.fields.isOpaque && r.unresolved.isEmpty

/-- `RuleSet`: an ordered collection of rules. -/
structure RuleSet where
  name : String
  kind : String := "acl"
  rules : List Rule := []
  deriving DecidableEq

/-! ## Routes -/

inductive RouteSource where
  | connected
  | static
  | manual
  deriving DecidableEq

/-- `Route`: a static or connected route.  `network` is the source's `prefix`. -/
structure Route where
  network : String
  cube : Cube
  nextHop : Option String := none
  interface : String := ""
  source : RouteSource := .static
  distance : ℤ := 1
  deriving DecidableEq

/-- The prefix text the front ends give a route. -/
def prefixText (c : Cube) (len : ℕ) : String := s!"{intToIp c.value}/{str len}"

structure RouteTable where
  routes : List Route := []
  dynamicRoutingPresent : Bool := false
  protocols : List String := []

namespace RouteTable

/-- The prefix length the lookup ranks a route by; a mask with gaps counts as zero. -/
def prefixLen (r : Route) : ℕ := (maskToPrefixLen r.cube.mask).getD 0

/-- One round of the loop of `lookup`: the best route so far against the next one. -/
def lookupStep (ip : Addr) (best : Option Route) (r : Route) : Option Route :=
  if r.cube.containsIp ip then
    match best with
    | none => some r
    | some b =>
      if prefixLen r > prefixLen b then some r
      else if prefixLen r = prefixLen b then
        -- connected before static, then the lower distance
        if r.source = .connected ∧ b.source ≠ .connected then some r
        else if r.distance < b.distance then some r
        else some b
      else some b
  else best

/-- `lookup`: the longest-prefix match for an address. -/
def lookup (t : RouteTable) (dstIp : String) : Option Route :=
  match ipToInt dstIp with
  | .ok ip => t.routes.foldl (lookupStep ip) none
  | .error _ => none

def connectedSubnets (t : RouteTable) : List Route :=
  t.routes.filter fun r => decide (r.source = .connected)

theorem lookupStep_eq_some {ip : Addr} {best : Option Route} {r b : Route}
    (h : lookupStep ip best r = some b) :
    best = some b ∨ (b = r ∧ r.cube.containsIp ip = true) := by
  unfold lookupStep at h
  split at h
  · next hc =>
    split at h
    · exact Or.inr ⟨(Option.some.inj h).symm, hc⟩
    · split_ifs at h
      all_goals first
        | exact Or.inr ⟨(Option.some.inj h).symm, hc⟩
        | exact Or.inl h
  · exact Or.inl h

theorem foldl_lookupStep_eq_some {ip : Addr} {l : List Route} {best : Option Route} {b : Route}
    (h : l.foldl (lookupStep ip) best = some b) :
    best = some b ∨ (b ∈ l ∧ b.cube.containsIp ip = true) := by
  induction l generalizing best with
  | nil => exact Or.inl h
  | cons r l ih =>
    rw [List.foldl_cons] at h
    rcases ih h with hb | ⟨hb, hc⟩
    · rcases lookupStep_eq_some hb with hb | ⟨rfl, hc⟩
      · exact Or.inl hb
      · exact Or.inr ⟨List.mem_cons_self .., hc⟩
    · exact Or.inr ⟨List.mem_cons_of_mem _ hb, hc⟩

theorem mem_of_lookup {t : RouteTable} {dstIp : String} {r : Route} (h : t.lookup dstIp = some r) :
    r ∈ t.routes ∧ ∃ ip, ipToInt dstIp = .ok ip ∧ r.cube.containsIp ip = true := by
  rw [lookup] at h
  rcases hip : ipToInt dstIp with _ | ip
  · rw [hip] at h
    simp at h
  · rw [hip] at h
    rcases foldl_lookupStep_eq_some h with h | ⟨hm, hc⟩
    · simp at h
    · exact ⟨hm, ip, rfl, hc⟩

end RouteTable

/-! ## Traces -/

inductive StepKind where
  | aclIn
  | route
  | aclOut
  | policy
  | skippedPolicy
  deriving DecidableEq

/-- What an evaluation step decided. -/
inductive StepAction where
  | permit
  | deny
  | unknown
  | skip
  deriving DecidableEq

/-- `Step`: one evaluation step.  `network` is the source's `prefix`. -/
structure Step where
  kind : StepKind
  acl : Option String := none
  matched : Option String := none
  action : StepAction := .permit
  ruleId : Option String := none
  rawText : Option String := none
  network : Option String := none
  nextHop : Option String := none
  egress : Option String := none
  source : Option RouteSource := none
  note : Option String := none
  deriving DecidableEq

inductive Verdict where
  | permit
  | deny
  | unknown
  deriving DecidableEq

/-- `Trace`: the verdict with the steps that led to it. -/
structure Trace where
  verdict : Verdict
  steps : List Step := []
  implicitDeny : Bool := false
  dynamicRoutingPresent : Bool := false
  unresolved : List String := []
  natApplied : Bool := false
  flow : Flow
  deriving DecidableEq

/-- `Trace.__post_init__`: every reason once. -/
def Trace.dedupe (t : Trace) : Trace := { t with unresolved := t.unresolved.eraseDups }

@[simp] theorem Trace.dedupe_verdict (t : Trace) : t.dedupe.verdict = t.verdict := rfl

end SentinelNet.PolicyTest
