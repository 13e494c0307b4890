import SentinelNet.Observability.Endpoints
import SentinelNet.Observability.Snapshots

/-!
# What the rules read and conclude

The rules of `observability/rules.py` read a window of rows of `events`, with thresholds that an
administrator may change, and conclude findings and retractions.

* `Finding`, `Retraction`, `Item`: the conclusions.
* `paramsFor`: the thresholds of a rule.
* `effective_mem_range`: a threshold is in the range that the rule declares.
-/

namespace SentinelNet.Observability

open PyDict PyText

/-! ## Values -/

/-- Truth. -/
def Json.truthy : Json → Bool
  | .null => false
  | .bool b => b
  | .int n => n ≠ 0
  | .float q => q ≠ 0
  | .str s => s ≠ ""
  | .arr vs => !vs.isEmpty
  | .obj kvs => !kvs.isEmpty

def Json.or (v w : Json) : Json := if v.truthy then v else w

/-- `v is None`. -/
def Json.isNull : Json → Bool
  | .null => true
  | _ => false

def Json.value (v : Json) : ℚ := v.number?.getD 0

def Json.isMeasure (v : Json) : Bool := v.isNull || v.isNumber

def Json.isText : Json → Bool
  | .null => true
  | .str _ => true
  | _ => false

def Json.text? : Json → Option String
  | .str s => some s
  | _ => none

/-- `str(n)`. -/
def intStr : ℤ → String
  | .ofNat n => str n
  | .negSucc n => "-" ++ str (n + 1)

/-- `str(v)`. -/
def pyStr (py : Python) : Json → String
  | .null => "None"
  | .bool b => if b then "True" else "False"
  | .int n => intStr n
  | .str s => s
  | v => py.repr v

def columnStr (s : Option String) : String := s.getD "None"

/-- `s.lower()`, as far as it has letters of ASCII. -/
def lowerText (s : String) : String := String.ofList (s.toList.flatMap lowerChar)

/-! ## Numbers with a fraction -/

/-- The nearest integer, ties to even. -/
def roundHalfEven (q : ℚ) : ℤ :=
  let r := q - ⌊q⌋
  if r < 1 / 2 ∨ (r = 1 / 2 ∧ ⌊q⌋ % 2 = 0) then ⌊q⌋ else ⌊q⌋ + 1

/-- The double nearest to a positive number; `none` is an infinity. -/
def nearestDouble (q : ℚ) : Option ℚ :=
  let e := max (Int.log 2 q - 52) (-1074)
  let r := roundHalfEven (q / 2 ^ e) * (2 : ℚ) ^ e
  if r < 2 ^ (1024 : ℕ) then some r else none

/-- `int(q)`. -/
def truncate (q : ℚ) : ℤ := q.num.tdiv q.den

/-- `v * n` for positive numbers; `none` is an infinity. -/
def Json.times (v : Json) (n : ℤ) : Option ℚ :=
  match v with
  | .float q => nearestDouble (q * n)
  | v => some (v.value * n)

/-- `format(q, ".0f")`. -/
def fixed0 (q : ℚ) : String := (if q < 0 then "-" else "") ++ intStr (roundHalfEven |q|)

/-- `format(q, "+.0f")`. -/
def signed0 (q : ℚ) : String := (if q < 0 then "-" else "+") ++ intStr (roundHalfEven |q|)

/-- `v // 60`. -/
def Json.minutes : Json → Json
  | .float q => .float ⌊q / 60⌋
  | v => .int ⌊v.value / 60⌋

/-! ## Rows -/

/-- A row of the window: a measure is a number or `null`, and so are texts that a rule cuts or looks
up. -/
structure EventRow extends Event where
  id : ℕ
  measures : metrics.all (fun p => p.2.isMeasure) = true
  texts : attrs.all (fun p => p.1 ∉ ["message", "dst_ip"] || p.2.isText) = true

namespace EventRow

theorem measures_nil : ([] : Dict Json).all (fun p => p.2.isMeasure) = true := rfl

theorem texts_nil :
    ([] : Dict Json).all (fun p => p.1 ∉ ["message", "dst_ip"] || p.2.isText) = true := rfl

def attr (ev : EventRow) (k : String) : Json := (get? ev.attrs k).getD .null

def metric (ev : EventRow) (k : String) : Json := (get? ev.metrics k).getD .null

/-- `str(attrs.get("field", ""))`. -/
def field (py : Python) (ev : EventRow) : String :=
  match get? ev.attrs "field" with
  | some v => pyStr py v
  | none => ""

end EventRow

/-- A key is in one row of the window at most. -/
structure Window where
  rows : List EventRow
  distinct : (rows.map EventRow.id).Nodup

/-! ## Conclusions -/

/-- `ROLES`. -/
inductive Role where
  | trigger | supporting | symptom | consequence
  deriving DecidableEq

def Role.word : Role → String
  | .trigger => "trigger"
  | .supporting => "supporting"
  | .symptom => "symptom"
  | .consequence => "consequence"

structure Finding where
  eventId : ℕ
  ts : ℤ
  tenant : String
  role : Role
  entityKey : String
  severity : Option ℤ := none
  srcIp : Option String := none
  dstIp : Option String := none
  switchPort : Option String := none
  summary : String
  attrs : Dict Json := []
  key : Option String := none
  interface : Option String := none

structure Retraction where
  targetRuleId : String
  entityKey : String
  tenant : String
  reason : String
  witness : Finding
  windowS : ℤ

/-- What a rule produces. -/
inductive Item where
  | finding (f : Finding)
  | retraction (r : Retraction)

/-- Whose it is. -/
def Item.tenant : Item → String
  | .finding f => f.tenant
  | .retraction r => r.tenant

/-! ## Thresholds -/

/-- The settings of the administrator that the correlation reads: the section `correlation_rules`
of `app_settings`. -/
abbrev RuleSettings := Dict (Dict Json)

/-- A threshold that a rule declares. -/
structure ParamSpec where
  name : String
  default : Json
  minimum : ℚ
  maximum : ℚ

/-- Thresholds with their values. -/
abbrev Params := Dict Json

def confirmationSpec : ParamSpec := ⟨"min_observations", .int 1, 1, 20⟩

def parameterSpecs (declared : List ParamSpec) : List ParamSpec :=
  if declared.any fun spec => spec.name = confirmationSpec.name then declared
  else declared ++ [confirmationSpec]

/-- A value within the range, in the type of the default. -/
def ParamSpec.cast (spec : ParamSpec) (q : ℚ) : Json :=
  match spec.default with
  | .float _ => .float (max spec.minimum (min spec.maximum q))
  | _ => .int (truncate (max spec.minimum (min spec.maximum q)))

/-- The value of a threshold, given the saved one. -/
def ParamSpec.effective (spec : ParamSpec) (saved : Json) : Json :=
  match saved with
  | .int n => spec.cast n
  | .float q => spec.cast q
  | _ => spec.cast spec.default.value

def paramsFor (settings : RuleSettings) (ruleId : String) (declared : List ParamSpec) : Params :=
  (parameterSpecs declared).map fun spec =>
    (spec.name, spec.effective ((get? ((get? settings ruleId).getD []) spec.name).getD .null))

def numberParam (p : Params) (k : String) : ℚ := ((get? p k).getD .null).value

def intParam (p : Params) (k : String) : ℤ := truncate (numberParam p k)

theorem truncate_mem_range {a b : ℤ} {q : ℚ} (ha : 0 ≤ a) (h : (a : ℚ) ≤ q) (h' : q ≤ b) :
    a ≤ truncate q ∧ truncate q ≤ b := by
  have hq : 0 ≤ q := (by exact_mod_cast ha : (0 : ℚ) ≤ a).trans h
  have htrunc : truncate q = ⌊q⌋ := by
    rw [truncate, Int.tdiv_eq_ediv_of_nonneg (Rat.num_nonneg.mpr hq), Rat.floor_def']
  rw [htrunc]
  exact ⟨Int.le_floor.mpr h, by exact_mod_cast (Int.floor_le q).trans h'⟩

theorem cast_mem_range {spec : ParamSpec} {a b : ℤ} (ha : 0 ≤ a) (hab : a ≤ b)
    (hmin : spec.minimum = a) (hmax : spec.maximum = b) (q : ℚ) :
    spec.minimum ≤ (spec.cast q).value ∧ (spec.cast q).value ≤ spec.maximum := by
  have hle : spec.minimum ≤ spec.maximum := by
    rw [hmin, hmax]
    exact_mod_cast hab
  have hlow : spec.minimum ≤ max spec.minimum (min spec.maximum q) := le_max_left _ _
  have hhigh : max spec.minimum (min spec.maximum q) ≤ spec.maximum :=
    max_le hle (min_le_left _ _)
  unfold ParamSpec.cast
  split
  · exact ⟨hlow, hhigh⟩
  · have hrange := truncate_mem_range ha (hmin.symm.le.trans hlow) (hhigh.trans hmax.le)
    rw [hmin, hmax] at hrange ⊢
    refine ⟨?_, ?_⟩
    · show (a : ℚ) ≤ (truncate _ : ℤ)
      exact_mod_cast hrange.1
    · show ((truncate _ : ℤ) : ℚ) ≤ b
      exact_mod_cast hrange.2

/-- Whatever was saved, a threshold is in the range that its rule declares. -/
theorem effective_mem_range {spec : ParamSpec} {a b : ℤ} (ha : 0 ≤ a) (hab : a ≤ b)
    (hmin : spec.minimum = a) (hmax : spec.maximum = b) (saved : Json) :
    spec.minimum ≤ (spec.effective saved).value ∧ (spec.effective saved).value ≤ spec.maximum := by
  unfold ParamSpec.effective
  split
  · exact cast_mem_range ha hab hmin hmax _
  · exact cast_mem_range ha hab hmin hmax _
  · exact cast_mem_range ha hab hmin hmax _

end SentinelNet.Observability
