import SentinelNet.PolicyTest.Ios

/-!
# Extended access control entries and what they mean on the device

The entries `permit|deny tcp|udp SRC [OP] DST [OP] [established] [log]` as a syntax tree, the
tokens an entry is written with, and the packets it matches on the device.  A port is a number or
a keyword.  Keywords of the parser's table mean what the table says; for the others the value is
that of the device, which is a parameter.

The second half compares, operator by operator, the ports the device takes with the port set the
parser makes of the operator.

* `PortOp.exact_iff`: when the port set is the device's.
* `PortOp.covers_iff`: when it has at least the device's ports.
-/

namespace SentinelNet.PolicyTest

open PyText

/-! ## Ports -/

/-- The words of the entry grammar itself, which name no port. -/
def aceWords : List String :=
  ["any", "any4", "host", "object-group", "established", "fragments", "eq", "gt", "lt", "neq",
    "range"] ++ qualifiersIgnored ++ qualifiersWithValue ++ tcpFlagNames

structure PortNumber where
  text : String
  digits : isdigit text = true
  le : nat text ≤ 65535

structure PortKeyword where
  text : String
  letter : text.toList.head?.any Char.isAlpha = true
  noSpace : ∀ c ∈ text.toList, isSpace c = false
  notReserved : lower text ∉ aceWords

inductive PortTok where
  | number (n : PortNumber)
  | keyword (k : PortKeyword)

namespace PortTok

/-- The token as it is written. -/
def text : PortTok → String
  | .number n => n.text
  | .keyword k => k.text

/-- The port a token names on the device; `names` gives the keywords the parser's table does not
have. -/
def value (names : String → Fin 65536) : PortTok → ℕ
  | .number n => nat n.text
  | .keyword k =>
    match PyDict.get? portNames (lower k.text) with
    | some v => v
    | none => names (lower k.text)

/-- The port the parser reads, if any. -/
def known (t : PortTok) : Option ℕ := parsePortVal t.text

end PortTok

theorem isDigit_toLower_of_isAlpha {c : Char} (h : c.isAlpha) :
    c.toLower.isDigit = false := by
  simp only [Char.isAlpha, Char.isUpper, Char.isLower, Bool.or_eq_true, Bool.and_eq_true,
    decide_eq_true_eq] at h
  have hlow : 65 ≤ c.toLower.val.toNat := by
    rw [Char.toLower]
    split
    · next hup =>
      have h1 : 65 ≤ c.val.toNat := UInt32.le_iff_toNat_le.mp hup.1
      have h2 : c.val.toNat ≤ 90 := UInt32.le_iff_toNat_le.mp hup.2
      change 65 ≤ (c.val + ('a'.val - 'A'.val)).toNat
      rw [UInt32.toNat_add]
      have h3 : ('a'.val - 'A'.val).toNat = 32 := by decide
      omega
    · next hup =>
      rcases h with h | h
      · exact absurd ⟨h.1, h.2⟩ hup
      · have h1 : 97 ≤ c.val.toNat := UInt32.le_iff_toNat_le.mp h.1
        omega
  rw [Char.isDigit, Bool.and_eq_false_iff]
  refine Or.inr ?_
  rw [decide_eq_false_iff_not]
  intro hle
  have h57 : c.toLower.val.toNat ≤ 57 := UInt32.le_iff_toNat_le.mp hle
  omega

theorem PortKeyword.isdigit_lower (k : PortKeyword) : isdigit (lower k.text) = false := by
  have hletter := k.letter
  rw [isdigit, lower, String.toList_ofList]
  rcases hcs : k.text.toList with _ | ⟨c, cs⟩
  · rfl
  · rw [hcs] at hletter
    have hc : c.toLower.isDigit = false := isDigit_toLower_of_isAlpha (by simpa using hletter)
    simp [isDigits, hc]

theorem parsePortVal_number (n : PortNumber) : parsePortVal n.text = some (nat n.text) := by
  have hstrip : strip n.text = n.text :=
    strip_of_forall fun c hc => isSpace_of_isDigit (isDigit_of_isdigit n.digits hc)
  rw [parsePortVal, hstrip, lower_of_isdigit n.digits, if_pos n.digits, if_pos n.le]

theorem parsePortVal_keyword (k : PortKeyword) :
    parsePortVal k.text = PyDict.get? portNames (lower k.text) := by
  rw [parsePortVal, strip_of_forall k.noSpace, k.isdigit_lower]
  rfl

theorem portNames_le {k : String} {v : ℕ} (h : PyDict.get? portNames k = some v) : v ≤ 65535 := by
  have hall : ∀ p ∈ portNames, p.2 ≤ 65535 := by decide
  exact hall _ (PyDict.mem_of_get? h)

namespace PortTok

variable {names : String → Fin 65536}

theorem value_of_known {t : PortTok} {v : ℕ} (h : t.known = some v) : t.value names = v := by
  cases t with
  | number n =>
    rw [known, text, parsePortVal_number] at h
    exact Option.some.inj h
  | keyword k =>
    rw [known, text, parsePortVal_keyword] at h
    rw [value, h]

theorem value_le (t : PortTok) : t.value names ≤ 65535 := by
  cases t with
  | number n => exact n.le
  | keyword k =>
    rw [value]
    rcases hv : PyDict.get? portNames (lower k.text) with _ | v
    · exact Nat.le_of_lt_succ (names (lower k.text)).isLt
    · exact portNames_le hv

theorem known_le {t : PortTok} {v : ℕ} (h : t.known = some v) : v ≤ 65535 := by
  have hv : t.value (fun _ => 0) = v := value_of_known h
  rw [← hv]
  exact value_le t

end PortTok

/-- A port operator of an entry. -/
inductive PortOp where
  | eq (p : PortTok) (more : List PortTok)
  | neq (p : PortTok)
  | gt (p : PortTok)
  | lt (p : PortTok)
  | range (p q : PortTok)

namespace PortOp

/-- The ports an operator takes on the device. -/
def Has (names : String → Fin 65536) : PortOp → ℕ → Prop
  | .eq p more, x => x = p.value names ∨ ∃ r ∈ more, x = r.value names
  | .neq p, x => x ≠ p.value names
  | .gt p, x => p.value names < x
  | .lt p, x => x < p.value names
  | .range p q, x => min (p.value names) (q.value names) ≤ x ∧
      x ≤ max (p.value names) (q.value names)

def tokens : PortOp → List String
  | .eq p more => "eq" :: p.text :: more.map PortTok.text
  | .neq p => ["neq", p.text]
  | .gt p => ["gt", p.text]
  | .lt p => ["lt", p.text]
  | .range p q => ["range", p.text, q.text]

/-- The ports after the first one of `eq`. -/
def more : PortOp → List PortTok
  | .eq _ more => more
  | _ => []

/-- The port set the parser makes of an operator; `none` is any port. -/
def read : PortOp → Option PortSet
  | .eq p _ => p.known.map fun v : ℕ => PortSet.fromOp "eq" v none
  | .neq p => p.known.map fun v : ℕ => PortSet.fromOp "neq" v none
  | .gt p => p.known.map fun v : ℕ => PortSet.fromOp "gt" v none
  | .lt p => p.known.map fun v : ℕ => PortSet.fromOp "lt" v none
  | .range p q =>
    p.known.bind fun v => q.known.map fun w : ℕ => PortSet.fromOp "range" v (some (w : ℤ))

/-- The port set of the parser is that of the device (for `eq`, with one port). -/
def Exact (names : String → Fin 65536) : PortOp → Prop
  | .eq p _ => p.known.isSome
  | .neq p => p.known = some 0
  | .gt p => ∃ v ∈ p.known, v < 65535
  | .lt _ => False
  | .range p q => (p.known.isSome ∧ q.known.isSome) ∨
      (min (p.value names) (q.value names) = 0 ∧ max (p.value names) (q.value names) = 65535)

/-- The port set of the parser has the ports of the device. -/
def Covered (names : String → Fin 65536) : PortOp → Prop
  | .eq p more => p.known.isSome → ∀ r ∈ more, r.value names = p.value names
  | .neq p => ∀ v ∈ p.known, v = 0
  | .lt p => ∀ v ∈ p.known, v = 0
  | .gt _ => True
  | .range _ _ => True

/-- The operator takes no port at all. -/
def Void (names : String → Fin 65536) : PortOp → Prop
  | .gt p => p.value names = 65535
  | .lt p => p.value names = 0
  | _ => False

end PortOp

/-! ## The port sets of the operators -/

section PortSets

variable {v w x : ℕ}

theorem containsPort_eq (hv : v ≤ 65535) :
    (PortSet.fromOp "eq" v none).containsPort x = true ↔ x = v := by
  change (PortSet.fromList [((v : ℤ), (v : ℤ))]).containsPort x = true ↔ _
  simp only [PortSet.containsPort_fromList, List.map_cons, List.map_nil, Intervals.covers_cons,
    Intervals.covers_nil, or_false, PortSet.clean]
  split_ifs <;> dsimp only <;> omega

theorem containsPort_gt (hv : v ≤ 65535) (hx : x ≤ 65535) :
    (PortSet.fromOp "gt" v none).containsPort x = true ↔ min (v + 1) 65535 ≤ x := by
  change (PortSet.fromList [((v : ℤ) + 1, 65535)]).containsPort x = true ↔ _
  simp only [PortSet.containsPort_fromList, List.map_cons, List.map_nil, Intervals.covers_cons,
    Intervals.covers_nil, or_false, PortSet.clean]
  split_ifs <;> dsimp only <;> omega

theorem containsPort_lt (hv : v ≤ 65535) :
    (PortSet.fromOp "lt" v none).containsPort x = true ↔ 1 ≤ x ∧ x ≤ max 1 (v - 1) := by
  change (PortSet.fromList [(1, max 1 ((v : ℤ) - 1))]).containsPort x = true ↔ _
  simp only [PortSet.containsPort_fromList, List.map_cons, List.map_nil, Intervals.covers_cons,
    Intervals.covers_nil, or_false, PortSet.clean]
  split_ifs <;> dsimp only <;> omega

theorem containsPort_range (hv : v ≤ 65535) (hw : w ≤ 65535) :
    (PortSet.fromOp "range" v (some (w : ℤ))).containsPort x = true ↔ min v w ≤ x ∧ x ≤ max v w := by
  change (PortSet.fromList [(min (v : ℤ) w, max (v : ℤ) w)]).containsPort x = true ↔ _
  simp only [PortSet.containsPort_fromList, List.map_cons, List.map_nil, Intervals.covers_cons,
    Intervals.covers_nil, or_false, PortSet.clean]
  split_ifs <;> dsimp only <;> omega

theorem containsPort_neq (hv : v ≤ 65535) (hx : x ≤ 65535) :
    (PortSet.fromOp "neq" v none).containsPort x = true ↔ 1 ≤ x ∧ x ≠ v := by
  change (PortSet.fromList ((if (v : ℤ) > 1 then [((1 : ℤ), (v : ℤ) - 1)] else []) ++
    (if (v : ℤ) < 65535 then [((v : ℤ) + 1, 65535)] else []))).containsPort x = true ↔ _
  rw [PortSet.containsPort_fromList]
  split_ifs with hlo hhi hhi
  on_goal 4 => omega
  all_goals
    simp only [List.map_cons, List.map_nil, List.cons_append, List.nil_append, List.append_nil,
      Intervals.covers_cons, Intervals.covers_nil, or_false, PortSet.clean]
    split_ifs <;> dsimp only <;> omega

end PortSets

/-! ## The parser's ports against the device's -/

namespace PortOp

variable {names : String → Fin 65536}

theorem read_eq (p : PortTok) (more : List PortTok) :
    (eq p more).read = p.known.map fun v : ℕ => PortSet.fromOp "eq" v none := rfl

theorem read_neq (p : PortTok) :
    (neq p).read = p.known.map fun v : ℕ => PortSet.fromOp "neq" v none := rfl

theorem read_gt (p : PortTok) :
    (gt p).read = p.known.map fun v : ℕ => PortSet.fromOp "gt" v none := rfl

theorem read_lt (p : PortTok) :
    (lt p).read = p.known.map fun v : ℕ => PortSet.fromOp "lt" v none := rfl

theorem read_range (p q : PortTok) :
    (range p q).read =
      p.known.bind fun v => q.known.map fun w : ℕ =>
        PortSet.fromOp "range" v (some (w : ℤ)) := rfl

/-- The ports the parser's reading of an operator admits. -/
def Admits (op : PortOp) (x : ℕ) : Prop :=
  admits PortSet.containsPort op.read (some (x : ℤ)) = true

variable {p : PortTok}

theorem admits_map_iff {f : ℕ → PortSet} {x : ℕ} :
    admits PortSet.containsPort (p.known.map f) (some (x : ℤ)) = true ↔
      ∀ v ∈ p.known, (f v).containsPort x = true := by
  rcases p.known with _ | v
  · simp [admits]
  · simp [admits]

/-- What the parser admits, operator by operator: everything while a port is not known. -/
def Takes : PortOp → ℕ → Prop
  | .eq p _, x => ∀ v ∈ p.known, x = v
  | .neq p, x => ∀ v ∈ p.known, 1 ≤ x ∧ x ≠ v
  | .gt p, x => ∀ v ∈ p.known, min (v + 1) 65535 ≤ x
  | .lt p, x => ∀ v ∈ p.known, 1 ≤ x ∧ x ≤ max 1 (v - 1)
  | .range p q, x => ∀ v ∈ p.known, ∀ w ∈ q.known, min v w ≤ x ∧ x ≤ max v w

variable {op : PortOp}

theorem admits_iff {x : ℕ} (hx : x ≤ 65535) : op.Admits x ↔ op.Takes x := by
  cases op with
  | eq p more =>
    rw [Admits, read_eq, admits_map_iff, Takes]
    exact forall₂_congr fun v hv => containsPort_eq (PortTok.known_le hv)
  | neq p =>
    rw [Admits, read_neq, admits_map_iff, Takes]
    exact forall₂_congr fun v hv => containsPort_neq (PortTok.known_le hv) hx
  | gt p =>
    rw [Admits, read_gt, admits_map_iff, Takes]
    exact forall₂_congr fun v hv => containsPort_gt (PortTok.known_le hv) hx
  | lt p =>
    rw [Admits, read_lt, admits_map_iff, Takes]
    exact forall₂_congr fun v hv => containsPort_lt (PortTok.known_le hv)
  | range p q =>
    rw [Admits, read_range, Takes]
    rcases hp : p.known with _ | v
    · simp [admits]
    · rcases hq : q.known with _ | w
      · simp [admits]
      · have h : (PortSet.fromOp "range" v (some (w : ℤ))).containsPort x = true ↔
            min v w ≤ x ∧ x ≤ max v w :=
          containsPort_range (PortTok.known_le hp) (PortTok.known_le hq)
        simpa [admits] using h

/-- A port as a number of the device's port range. -/
def port (n : ℕ) (h : n ≤ 65535) : Fin 65536 := ⟨n, Nat.lt_succ_of_le h⟩

theorem exists_takes (op : PortOp) : ∃ x : Fin 65536, op.Takes x := by
  cases op with
  | eq p more =>
    rcases hp : p.known with _ | v
    · exact ⟨0, by simp [Takes, hp]⟩
    · exact ⟨port v (PortTok.known_le hp), by simp [Takes, hp, port]⟩
  | neq p =>
    rcases hp : p.known with _ | v
    · exact ⟨0, by simp [Takes, hp]⟩
    · by_cases hv : v = 1
      · exact ⟨2, by simp [Takes, hp, hv]⟩
      · exact ⟨1, by simpa [Takes, hp] using Ne.symm hv⟩
  | gt p => exact ⟨65535, fun v _ => Nat.min_le_right _ _⟩
  | lt p => exact ⟨1, fun v _ => ⟨le_rfl, Nat.le_max_left _ _⟩⟩
  | range p q =>
    rcases hp : p.known with _ | v
    · exact ⟨0, by simp [Takes, hp]⟩
    · refine ⟨port v (PortTok.known_le hp), ?_⟩
      intro v' hv' w _
      obtain rfl : v' = v := Option.some.inj (hv'.symm.trans hp)
      exact ⟨Nat.min_le_left _ _, Nat.le_max_left _ _⟩

/-- The device and the parser take the same ports. -/
def Agrees (names : String → Fin 65536) (op : PortOp) : Prop :=
  ∀ x : Fin 65536, op.Has names x ↔ op.Takes x

theorem agrees_eq_iff : (eq p []).Agrees names ↔ p.known.isSome := by
  constructor
  · intro h
    rcases hp : p.known with _ | v
    · have h0 : 0 = p.value names := by simpa [Has, Takes, hp] using h 0
      have h1 : 1 = p.value names := by simpa [Has, Takes, hp] using h 1
      omega
    · rfl
  · intro h x
    obtain ⟨v, hp⟩ := Option.isSome_iff_exists.mp h
    simp [Has, Takes, hp, PortTok.value_of_known hp]

theorem agrees_neq_iff : (neq p).Agrees names ↔ p.known = some 0 := by
  constructor
  · intro h
    rcases hp : p.known with _ | v
    · have hx := h (port (p.value names) p.value_le)
      simp [Has, Takes, hp, port] at hx
    · have h0 : 0 = v := by simpa [Has, Takes, hp, PortTok.value_of_known hp] using h 0
      rw [h0]
  · intro h x
    rw [Has, Takes, PortTok.value_of_known h, h]
    simp only [Option.mem_def, Option.some.injEq, forall_eq']
    omega

theorem agrees_gt_iff : (gt p).Agrees names ↔ ∃ v ∈ p.known, v < 65535 := by
  constructor
  · intro h
    rcases hp : p.known with _ | v
    · simpa [Has, Takes, hp] using h 0
    · refine ⟨v, rfl, ?_⟩
      simpa [Has, Takes, hp, PortTok.value_of_known hp] using h 65535
  · rintro ⟨v, hp, hv⟩ x
    have hx : (x : ℕ) < 65536 := x.isLt
    rw [Has, Takes, PortTok.value_of_known hp, hp]
    simp only [Option.mem_def, Option.some.injEq, forall_eq']
    omega

theorem not_agrees_lt : ¬ (lt p).Agrees names := by
  intro h
  have hv : p.value names ≤ 65535 := p.value_le
  rcases hp : p.known with _ | v
  · have h1 : 65535 < p.value names := by simpa [Has, Takes, hp] using h 65535
    omega
  · have h0 : v = 0 := by simpa [Has, Takes, hp, PortTok.value_of_known hp] using h 0
    have h1 : 1 < v := by simpa [Has, Takes, hp, PortTok.value_of_known hp] using h 1
    omega

theorem agrees_range_iff {q : PortTok} : (range p q).Agrees names ↔
    (p.known.isSome ∧ q.known.isSome) ∨
      (min (p.value names) (q.value names) = 0 ∧
        max (p.value names) (q.value names) = 65535) := by
  have hpv : p.value names ≤ 65535 := p.value_le
  have hqv : q.value names ≤ 65535 := q.value_le
  by_cases hknown : p.known.isSome ∧ q.known.isSome
  · obtain ⟨v, hp⟩ := Option.isSome_iff_exists.mp hknown.1
    obtain ⟨w, hq⟩ := Option.isSome_iff_exists.mp hknown.2
    refine ⟨fun _ => Or.inl hknown, fun _ x => ?_⟩
    rw [Has, Takes, PortTok.value_of_known hp, PortTok.value_of_known hq, hp, hq]
    simp
  · -- a port the parser does not know makes the whole range any port
    have hall : ∀ x, (range p q).Takes x := by
      intro x v hp w hq
      exact absurd ⟨Option.isSome_of_mem hp, Option.isSome_of_mem hq⟩ hknown
    constructor
    · intro h
      have h0 := (h 0).mpr (hall _)
      have h1 := (h 65535).mpr (hall _)
      rw [Has] at h0 h1
      refine Or.inr ⟨Nat.le_zero.mp h0.1, ?_⟩
      have hmax : 65535 ≤ max (p.value names) (q.value names) := h1.2
      omega
    · rintro (h | ⟨hmin, hmax⟩) x
      · exact absurd h hknown
      · refine iff_of_true ?_ (hall _)
        rw [Has, hmin, hmax]
        exact ⟨Nat.zero_le _, Nat.le_of_lt_succ x.isLt⟩

/-- The parser's port set of an operator with one port is the device's exactly when `Exact`
says so. -/
theorem exact_iff (hmore : op.more = []) : op.Agrees names ↔ op.Exact names := by
  cases op with
  | eq p more =>
    obtain rfl : more = [] := hmore
    exact agrees_eq_iff
  | neq p => exact agrees_neq_iff
  | gt p => exact agrees_gt_iff
  | lt p => exact iff_of_false not_agrees_lt id
  | range p q => exact agrees_range_iff

theorem covered_iff : (∀ x : Fin 65536, op.Has names x → op.Takes x) ↔ op.Covered names := by
  cases op with
  | eq p more =>
    rw [Covered]
    constructor
    · intro h hp r hr
      obtain ⟨v, hp⟩ := Option.isSome_iff_exists.mp hp
      rw [PortTok.value_of_known hp]
      exact h (port (r.value names) r.value_le) (Or.inr ⟨r, hr, rfl⟩) v hp
    · intro h x hx v hp
      have hsome : p.known.isSome := Option.isSome_of_mem hp
      rw [← @PortTok.value_of_known names _ _ hp]
      rcases hx with hx | ⟨r, hr, hx⟩
      · exact hx
      · rw [hx, h hsome r hr]
  | neq p =>
    rw [Covered]
    constructor
    · intro h v hp
      by_contra hv
      have h0 := h 0 (by rw [Has, PortTok.value_of_known hp]; exact Ne.symm hv) v hp
      exact absurd h0.1 (by decide)
    · intro h x hx v hp
      rw [Has, PortTok.value_of_known hp, h v hp] at hx
      exact ⟨Nat.one_le_iff_ne_zero.mpr hx, by rw [h v hp]; exact hx⟩
  | gt p =>
    refine iff_of_true (fun x hx v hp => ?_) trivial
    rw [Has, PortTok.value_of_known hp] at hx
    exact (Nat.min_le_left _ _).trans hx
  | lt p =>
    rw [Covered]
    constructor
    · intro h v hp
      by_contra hv
      have h0 := h 0 (by rw [Has, PortTok.value_of_known hp]; exact Nat.pos_of_ne_zero hv) v hp
      exact absurd h0.1 (by decide)
    · intro h x hx v hp
      rw [Has, PortTok.value_of_known hp, h v hp] at hx
      exact absurd hx (Nat.not_lt_zero _)
  | range p q =>
    refine iff_of_true (fun x hx v hp w hq => ?_) trivial
    rw [Has, PortTok.value_of_known hp, PortTok.value_of_known hq] at hx
    exact hx

theorem void_iff : (∀ x : Fin 65536, ¬ op.Has names x) ↔ op.Void names := by
  cases op with
  | eq p more =>
    exact iff_of_false (fun h => h (port (p.value names) p.value_le) (Or.inl rfl)) id
  | neq p =>
    refine iff_of_false (fun h => ?_) id
    have h0 : p.value names = 0 := by simpa [Has, eq_comm] using h 0
    have h1 : p.value names = 1 := by simpa [Has, eq_comm] using h 1
    omega
  | gt p =>
    have hv : p.value names ≤ 65535 := p.value_le
    rw [Void]
    constructor
    · intro h
      have h1 : 65535 ≤ p.value names := by simpa [Has] using h 65535
      omega
    · intro h x hx
      have hlt : (x : ℕ) < 65536 := x.isLt
      rw [Has, h] at hx
      omega
  | lt p =>
    rw [Void]
    constructor
    · intro h
      simpa [Has] using h 0
    · intro h x hx
      rw [Has, h] at hx
      exact absurd hx (Nat.not_lt_zero _)
  | range p q =>
    refine iff_of_false (fun h => h (port (p.value names) p.value_le) ?_) id
    exact ⟨Nat.min_le_left _ _, Nat.le_max_left _ _⟩

end PortOp

/-! ## Addresses -/

/-- An address specification. -/
inductive AddrSpec where
  | any
  | host (a : Addr)
  | wild (a w : Addr)

namespace AddrSpec

/-- The addresses of a specification: a wildcard frees the bits it has. -/
def Has : AddrSpec → Addr → Prop
  | .any, _ => True
  | .host a, x => x = a
  | .wild a w, x => x &&& ~~~w = a &&& ~~~w

def tokens : AddrSpec → List String
  | .any => ["any"]
  | .host a => ["host", intToIp a]
  | .wild a w => [intToIp a, intToIp w]

/-- The cube the parser makes of a specification. -/
def cube : AddrSpec → Cube
  | .any => Cube.any
  | .host a => Cube.make a (BitVec.allOnes 32)
  | .wild a w => Cube.make (a &&& ~~~w) (~~~w)

theorem containsIp_cube {spec : AddrSpec} {x : Addr} :
    spec.cube.containsIp x = true ↔ spec.Has x := by
  cases spec with
  | any => exact iff_of_true (Cube.containsIp_any x) trivial
  | host a =>
    rw [cube, Cube.containsIp_eq_true, Cube.make_value, Cube.make_mask, BitVec.and_allOnes,
      BitVec.and_allOnes, Has]
  | wild a w =>
    rw [cube, Cube.containsIp_eq_true, Cube.make_value, Cube.make_mask, BitVec.and_assoc,
      BitVec.and_self, Has]

theorem exists_has (spec : AddrSpec) : ∃ x, spec.Has x := by
  cases spec with
  | any => exact ⟨0, trivial⟩
  | host a => exact ⟨a, rfl⟩
  | wild a w => exact ⟨a, rfl⟩

end AddrSpec

/-! ## Entries -/

/-- An extended entry for TCP or UDP. -/
structure Ace where
  permit : Bool
  udp : Bool
  src : AddrSpec
  srcOp : Option PortOp
  dst : AddrSpec
  dstOp : Option PortOp
  established : Bool
  log : Bool

/-- A packet with everything an entry can ask for. -/
structure Packet where
  src : Addr
  dst : Addr
  proto : ℤ
  sport : Fin 65536
  dport : Fin 65536
  established : Bool

def HasPort (names : String → Fin 65536) (op : Option PortOp) (x : Fin 65536) : Prop :=
  ∀ o ∈ op, o.Has names x

def morePorts (op : Option PortOp) : List PortTok := op.toList.flatMap PortOp.more

namespace Ace

/-- The protocol number of an entry. -/
def proto (ace : Ace) : ℤ := if ace.udp then 17 else 6

def tokens (ace : Ace) : List String :=
  (if ace.permit then "permit" else "deny") :: (if ace.udp then "udp" else "tcp") ::
    (ace.src.tokens ++ (ace.srcOp.toList.flatMap PortOp.tokens ++ (ace.dst.tokens ++
      (ace.dstOp.toList.flatMap PortOp.tokens ++
        ((if ace.established then ["established"] else []) ++
          (if ace.log then ["log"] else []))))))

def Matches (names : String → Fin 65536) (ace : Ace) (p : Packet) : Prop :=
  p.proto = ace.proto ∧ ace.src.Has p.src ∧ ace.dst.Has p.dst ∧
    HasPort names ace.srcOp p.sport ∧ HasPort names ace.dstOp p.dport ∧
    (ace.established = true → p.established = true)

/-- The entry is read as the device reads it.  An `eq` with several source ports makes the rule
opaque; with several destination ports the rule is left undecided, and what counts is that it
still has the device's packets; any other entry must have exact port sets on both sides. -/
def ReadFaithfully (names : String → Fin 65536) (ace : Ace) : Prop :=
  morePorts ace.srcOp ≠ [] ∨
    if morePorts ace.dstOp = [] then
      (∀ o ∈ ace.srcOp, o.Exact names) ∧ ∀ o ∈ ace.dstOp, o.Exact names
    else
      (∃ o ∈ ace.srcOp, o.Void names) ∨
        ((∀ o ∈ ace.srcOp, o.Covered names) ∧ ∀ o ∈ ace.dstOp, o.Covered names)

end Ace

end SentinelNet.PolicyTest
