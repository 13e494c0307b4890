import SentinelNet.Lib.Grouping
import SentinelNet.Lib.Ranking
import SentinelNet.Observability.Flows
import SentinelNet.Observability.Window

/-!
# Baselines

`observability/baseline.py` measures the traffic of a closed hour by tenant and source address: how
far it is from what is usual, who was never seen before, and who made the most of it.

* `computeHour`, `detectEmergence`, `detectTopContributors`: the three measures.
-/

namespace SentinelNet.Observability

open PyDict PyText Grouping

/-! ## Sums -/

/-- What a column is worth. -/
def SqlNumber.value : SqlNumber → ℕ
  | .int n => n
  | .real n => n

/-- `SUM(total_bytes)`, as far as it fits a column. -/
def sumBytes (rows : List FlowRow) : ℕ := (rows.map fun r => r.totalBytes.value).sum

/-- A tenant and a source address. -/
abbrev Talker := String × String

def FlowRow.talker (r : FlowRow) : Talker := (r.key.tenant, r.key.srcIp)

section Sums

variable {K L : Type*} [DecidableEq K] [LinearOrder L]

/-- `SELECT key, SUM(total_bytes) … GROUP BY key`, in the order of the keys. -/
def totalsBy (rank : K → L) (key : FlowRow → K) (rows : List FlowRow) : List (K × ℕ) :=
  ((groupOn key rows).insertionSort fun g g' => rank g.1 ≤ rank g'.1).map fun g =>
    (g.1, sumBytes g.2)

end Sums

def talkerRank (k : Talker) : String ×ₗ String := toLex k

def hourRank (k : ℤ × Talker) : ℤ ×ₗ (String ×ₗ String) := toLex (k.1, talkerRank k.2)

def hourS : ℤ := 3600

def FlowRow.within (hour : ℤ) (r : FlowRow) : Bool :=
  hour ≤ r.key.windowStart && r.key.windowStart < hour + hourS

def FlowRow.hour (r : FlowRow) : ℤ := r.key.windowStart.tdiv hourS * hourS

def hourlyTotals (rows : List FlowRow) (hours : List ℤ) : List ((ℤ × Talker) × ℕ) :=
  totalsBy hourRank (fun r => (r.hour, r.talker)) (rows.filter fun r => hours.any fun h => r.within h)

def hourTalkers (rows : List FlowRow) (hour : ℤ) : List (Talker × ℕ) :=
  totalsBy talkerRank FlowRow.talker (rows.filter (FlowRow.within hour))

def MoreTraffic (t t' : Talker × ℕ) : Prop := t'.2 ≤ t.2

instance : DecidableRel MoreTraffic := fun t t' => inferInstanceAs (Decidable (t'.2 ≤ t.2))

/-- Most traffic first, and where it is the same as it was. -/
def ranked (talkers : List (Talker × ℕ)) : List (Talker × ℕ) := talkers.insertionSort MoreTraffic

def maxEntitiesPerHour : ℕ := 200

/-- The talkers that a measure looks at. -/
def busiest (talkers : List (Talker × ℕ)) : List (Talker × ℕ) :=
  (ranked talkers).take maxEntitiesPerHour

/-! ## Numbers -/

def roundTo (digits : ℕ) (q : ℚ) : ℚ := roundHalfEven (q * 10 ^ digits) / 10 ^ digits

/-- `statistics.median`: the middle number, or what lies between the two in the middle. -/
def median (samples : List ℕ) : Json :=
  let sorted := samples.insertionSort (· ≤ ·)
  if samples.length % 2 = 1 then .int (sorted.getD (samples.length / 2) 0)
  else .float ((sorted.getD (samples.length / 2 - 1) 0 + sorted.getD (samples.length / 2) 0) / 2)

/-- `_METHOD_WEIGHT`, for the two methods there are. -/
def methodWeight (method : String) : ℚ := if method = "stesso_giorno_stessa_ora" then 1 else 7 / 10

def samplesForFull : ℕ := 8

/-- `_quality`: the value, the label and the factors. -/
def quality (samples : ℕ) (method : String) : ℚ × String × Json :=
  let sampleScore := min 1 ((samples : ℚ) / samplesForFull)
  let value := roundTo 2 (methodWeight method * sampleScore)
  (value, if 7 / 10 ≤ value then "HIGH" else if 4 / 10 ≤ value then "MEDIUM" else "LOW",
    .obj [("samples", .int samples), ("method", .str method),
      ("sample_score", .float (roundTo 2 sampleScore)), ("method_weight", .float (methodWeight method)),
      ("samples_for_full", .int samplesForFull)])

/-! ## Habits -/

/-- `WEEKS_BACK` and `DAYS_BACK`: the hours that an hour is compared with, with the name of the
comparison. -/
def referenceHours (hour : ℤ) : List (List ℤ × String) :=
  [((List.range 4).map fun k => hour - 7 * 86400 * (k + 1), "stesso_giorno_stessa_ora"),
    ((List.range 7).map fun k => hour - 86400 * (k + 1), "media_mobile_stessa_ora")]

def minSamples : ℕ := 2

def alive (totals : List ((ℤ × Talker) × ℕ)) (h : ℤ) (tenant : String) : Bool :=
  totals.any fun t => t.1.1 = h && t.1.2.1 = tenant

/-- `totals.get((h, tenant, src_ip), 0)`. -/
def trafficOf (totals : List ((ℤ × Talker) × ℕ)) (h : ℤ) (talker : Talker) : ℕ :=
  ((totals.find? fun t => t.1 = (h, talker)).map Prod.snd).getD 0

/-- The samples of a talker, and how they were taken: the first comparison with enough of them. -/
def habit (totals : List ((ℤ × Talker) × ℕ)) (hour : ℤ) (talker : Talker) :
    Option (List ℕ × String) :=
  ((referenceHours hour).map fun reference =>
    ((reference.1.filter fun h => alive totals h talker.1).map fun h => trafficOf totals h talker,
      reference.2)).find? fun samples => minSamples ≤ samples.1.length

def expected (totals : List ((ℤ × Talker) × ℕ)) (hour : ℤ) (talker : Talker) :
    Option (Json × List ℕ × String) :=
  ((habit totals hour talker).map fun samples => (median samples.1, samples)).filter fun e =>
    0 < e.1.value

def baselineEvent (hour now : ℤ) (t : Talker × ℕ) (e : Json × List ℕ × String) : Event :=
  let q := quality e.2.1.length e.2.2
  { ts := hour
    ingestedTs := now
    tenant := t.1.1
    source := "baseline"
    eventType := "flow.baseline"
    entityType := "flow"
    entityId := t.1.2
    srcIp := some t.1.2
    metrics := [("observed", .int t.2), ("expected", e.1),
      ("deviation_pct", .float (roundTo 1 ((t.2 - e.1.value) / e.1.value * 100))),
      ("samples", .int e.2.1.length), ("quality", .float q.1)]
    attrs := [("method", .str e.2.2), ("window", .str "1h"), ("quality_label", .str q.2.1),
      ("quality_reason", q.2.2)]
    dedupKey := "baseline:" ++ t.1.1 ++ ":" ++ t.1.2 ++ ":" ++ intStr hour }

/-- The totals that `compute_hour` reads. -/
def comparedTotals (rows : List FlowRow) (hour : ℤ) : List ((ℤ × Talker) × ℕ) :=
  hourlyTotals rows (hour :: (referenceHours hour).flatMap Prod.fst)

def observed (totals : List ((ℤ × Talker) × ℕ)) (hour : ℤ) : List (Talker × ℕ) :=
  (totals.filter fun t => t.1.1 = hour).map fun t => (t.1.2, t.2)

def computeHour (rows : List FlowRow) (hour now : ℤ) : List Event :=
  let totals := comparedTotals rows hour
  (busiest (observed totals hour)).filterMap fun t =>
    (expected totals hour t.1).map (baselineEvent hour now t)

/-! ## Emergence -/

def minHistoryS : ℤ := 86400

/-- `SELECT MIN(window_start) … WHERE tenant = ?`. -/
def oldest (rows : List FlowRow) (tenant : String) : Option ℤ :=
  ((rows.filter fun r => r.key.tenant = tenant).map fun r => r.key.windowStart).min?

def seenBefore (rows : List FlowRow) (hour : ℤ) (talker : Talker) : Bool :=
  rows.any fun r => r.talker = talker && r.key.windowStart < hour

section Measures

variable (py : Python)

def emergenceEvent (hour now since : ℤ) (tenant : String) (t : Talker × ℕ) : Event where
  ts := hour
  ingestedTs := now
  tenant := tenant
  source := "baseline"
  eventType := "flow.emergence"
  entityType := "flow"
  entityId := t.1.2
  srcIp := some t.1.2
  metrics := [("observed", .int t.2)]
  attrs := [("history_since", .int since), ("window", .str "1h")]
  dedupKey := "emergence:" ++ tenant ++ ":" ++ t.1.2 ++ ":" ++ intStr hour

/-- A host that talks for the first time. -/
def isNew (rows : List FlowRow) (hour : ℤ) (talker : Talker) : Bool :=
  !seenBefore rows hour talker && isEndpoint py (some talker.2)

/-- The new talkers of a tenant, if it has enough of a history. -/
def tenantEmergence (rows : List FlowRow) (hour now : ℤ) (g : String × List (Talker × ℕ)) :
    List Event :=
  match oldest rows g.1 with
  | none => []
  | some since =>
    if hour - minHistoryS < since then []
    else (g.2.filter fun t => isNew py rows hour (g.1, t.1.2)).map
      (emergenceEvent hour now since g.1)

def detectEmergence (rows : List FlowRow) (hour now : ℤ) : List Event :=
  (groupOn (fun t : Talker × ℕ => t.1.1) (busiest (hourTalkers rows hour))).flatMap
    (tenantEmergence py rows hour now)

/-! ## Top contributors -/

def topContributors : ℕ := 3

def topEvent (hour now : ℤ) (tenant : String) (total peers rank : ℕ) (t : Talker × ℕ) : Event where
  ts := hour
  ingestedTs := now
  tenant := tenant
  source := "baseline"
  eventType := "flow.top_talker"
  entityType := "flow"
  entityId := t.1.2
  srcIp := some t.1.2
  metrics := [("observed", .int t.2), ("total", .int total),
    ("share_pct", .float (roundTo 1 (t.2 * 100 / total))), ("rank", .int rank)]
  attrs := [("window", .str "1h"),
    ("scope", .str "traffico osservato del tenant, non capacità di un link"),
    ("peers", .int peers)]
  dedupKey := "top:" ++ tenant ++ ":" ++ t.1.2 ++ ":" ++ intStr hour

/-- The hosts among the first talkers of a tenant, with their ranks. -/
def tenantTop (hour now : ℤ) (g : String × List (Talker × ℕ)) : List Event :=
  let total := (g.2.map Prod.snd).sum
  if total = 0 then []
  else
    ((((ranked g.2).take topContributors).zipIdx 1).filter fun t =>
      isEndpoint py (some t.1.1.2)).map fun t => topEvent hour now g.1 total g.2.length t.2 t.1

def detectTopContributors (rows : List FlowRow) (hour now : ℤ) : List Event :=
  (groupOn (fun t : Talker × ℕ => t.1.1) (hourTalkers rows hour)).flatMap (tenantTop py hour now)

end Measures

end SentinelNet.Observability
