import SentinelNet.Observability.Baseline

/-!
# Baselines of tenants

What is measured for a tenant should depend on its own traffic.  `compute_hour` and
`detect_emergence` look at the 200 busiest talkers of all tenants, so a busy tenant hides those of a
quiet one; `detect_top_contributors` ranks each tenant for itself.

* `baselineApart_iff`: the one holds exactly if the other does.
* `quiet_hidden`: a host that appears in a quiet tenant while a busy one has 200 talkers.
-/

namespace SentinelNet.Observability

open PyDict PyText Grouping Ranking

/-! ## Tenants -/

def flowsOf (tenant : String) (rows : List FlowRow) : List FlowRow :=
  rows.filter fun r => r.key.tenant = tenant

def ownTalkers (tenant : String) (talkers : List (Talker × ℕ)) : List (Talker × ℕ) :=
  talkers.filter fun t => t.1.1 = tenant

def ownEvents (tenant : String) (events : List Event) : List Event :=
  events.filter fun e => e.tenant = tenant

section Isolation

variable (py : Python) (rows : List FlowRow) (hour : ℤ) (tenant : String)

/-- What an hour gives for a tenant is what the rows of the tenant give. -/
structure BaselineApart : Prop where
  deviations : ∀ now, ownEvents tenant (computeHour rows hour now) =
    computeHour (flowsOf tenant rows) hour now
  newcomers : ∀ now, ownEvents tenant (detectEmergence py rows hour now) =
    detectEmergence py (flowsOf tenant rows) hour now
  contributors : ∀ now, ownEvents tenant (detectTopContributors py rows hour now) =
    detectTopContributors py (flowsOf tenant rows) hour now

def HasHistory : Prop := ∃ since ∈ oldest rows tenant, since ≤ hour - minHistoryS

/-- Who is among the 200 busiest talkers of the tenant, but not among those of all tenants, has no
habit of talking, and is not new where the tenant has a history. -/
structure Unhidden : Prop where
  habitual : ∀ t ∈ busiest (ownTalkers tenant (observed (comparedTotals rows hour) hour)),
    t ∉ busiest (observed (comparedTotals rows hour) hour) →
      expected (comparedTotals rows hour) hour t.1 = none
  known : ∀ t ∈ busiest (ownTalkers tenant (hourTalkers rows hour)),
    t ∉ busiest (hourTalkers rows hour) → HasHistory rows hour tenant →
      isNew py rows hour t.1 = false

end Isolation

/-! ## Sums of a tenant -/

section Sums

variable {K L : Type*} [DecidableEq K] [LinearOrder L] {rank : K → L} {key : FlowRow → K}

theorem filter_totalsBy (p : K → Bool) (rows : List FlowRow) :
    (totalsBy rank key rows).filter (fun t => p t.1) =
      totalsBy rank key (rows.filter fun r => p (key r)) := by
  rw [totalsBy, totalsBy, List.filter_map, ← filter_groupOn]
  refine congrArg _ (filter_insertionSort (fun x y z => ?_) (fun x y => ?_) _ _)
  · exact le_trans
  · exact le_total _ _

theorem nodup_totalsBy (rows : List FlowRow) : ((totalsBy rank key rows).map Prod.fst).Nodup := by
  rw [totalsBy, List.map_map]
  exact ((List.perm_insertionSort _ _).map _).nodup_iff.mpr (nodup_keys_groupOn rows)

end Sums

variable {py : Python} {rows : List FlowRow} {hour now : ℤ} {tenant : String}

theorem hourTalkers_flowsOf : hourTalkers (flowsOf tenant rows) hour =
    ownTalkers tenant (hourTalkers rows hour) := by
  refine Eq.trans ?_ (filter_totalsBy (fun k : Talker => k.1 = tenant) _).symm
  exact congrArg _ (List.filter_comm ..)

theorem hourlyTotals_flowsOf (hours : List ℤ) : hourlyTotals (flowsOf tenant rows) hours =
    (hourlyTotals rows hours).filter fun t => t.1.2.1 = tenant := by
  refine Eq.trans ?_ (filter_totalsBy (fun k : ℤ × Talker => k.2.1 = tenant) _).symm
  exact congrArg _ (List.filter_comm ..)

theorem observed_ownTalkers (totals : List ((ℤ × Talker) × ℕ)) :
    observed (totals.filter fun t => t.1.2.1 = tenant) hour =
      ownTalkers tenant (observed totals hour) := by
  rw [observed, observed, ownTalkers, List.filter_map, List.filter_comm]
  rfl

theorem nodup_hourTalkers : (hourTalkers rows hour).Nodup :=
  List.Nodup.of_map Prod.fst (nodup_totalsBy _)

theorem nodup_observed : (observed (comparedTotals rows hour) hour).Nodup := by
  have hkeys : (comparedTotals rows hour).Nodup := List.Nodup.of_map Prod.fst (nodup_totalsBy _)
  refine List.Nodup.map_on (fun t ht t' ht' heq => ?_) (hkeys.filter _)
  have hhour := of_decide_eq_true (List.mem_filter.mp ht).2
  have hhour' := of_decide_eq_true (List.mem_filter.mp ht').2
  obtain ⟨htalker, hvalue⟩ := Prod.mk.inj heq
  exact Prod.ext (Prod.ext (hhour.trans hhour'.symm) htalker) hvalue

/-! ## The busiest -/

theorem ranked_ownTalkers (talkers : List (Talker × ℕ)) :
    ownTalkers tenant (ranked talkers) = ranked (ownTalkers tenant talkers) :=
  filter_insertionSort (fun _ _ _ h h' => h'.trans h) (fun t t' => le_total t'.2 t.2) _ _

variable {talkers : List (Talker × ℕ)}

/-- What the busiest talkers of all tenants give for a tenant is what the tenant's own give exactly
if those that are hidden give nothing. -/
theorem filterMap_busiest_iff {β : Type*} (h : talkers.Nodup) {f : Talker × ℕ → Option β} :
    (ownTalkers tenant (busiest talkers)).filterMap f =
        (busiest (ownTalkers tenant talkers)).filterMap f ↔
      ∀ t ∈ busiest (ownTalkers tenant talkers), t ∉ busiest talkers → f t = none := by
  have hranked : (ranked talkers).Nodup :=
    (List.perm_insertionSort MoreTraffic talkers).nodup_iff.mpr h
  rw [busiest, busiest, ← ranked_ownTalkers]
  exact filterMap_take_filter_iff hranked

theorem tenant_of_busiest {t : Talker × ℕ}
    (h : t ∈ busiest (ownTalkers tenant talkers)) : t.1.1 = tenant := by
  have hmem := (List.perm_insertionSort MoreTraffic _).subset (List.mem_of_mem_take h)
  exact of_decide_eq_true (List.mem_filter.mp hmem).2

/-! ## Deviations -/

theorem alive_filter (totals : List ((ℤ × Talker) × ℕ)) (h : ℤ) :
    alive (totals.filter fun t => t.1.2.1 = tenant) h tenant = alive totals h tenant := by
  rw [alive, alive, List.any_filter]
  refine congrArg (totals.any ·) (funext fun t => ?_)
  cases hown : decide (t.1.2.1 = tenant) with
  | true => rw [Bool.and_true, Bool.true_and]
  | false => rw [Bool.and_false, Bool.and_false]

variable {talker : Talker}

theorem trafficOf_filter (totals : List ((ℤ × Talker) × ℕ)) (h : ℤ)
    (hown : talker.1 = tenant) : trafficOf (totals.filter fun t => t.1.2.1 = tenant) h talker =
      trafficOf totals h talker := by
  rw [trafficOf, trafficOf, find?_filter_of fun t ht => ?_]
  rw [of_decide_eq_true ht]
  exact decide_eq_true hown

theorem expected_filter (totals : List ((ℤ × Talker) × ℕ))
    (hown : talker.1 = tenant) : expected (totals.filter fun t => t.1.2.1 = tenant) hour talker =
      expected totals hour talker := by
  have htraffic : (fun h => trafficOf (totals.filter fun t => t.1.2.1 = tenant) h talker) =
      fun h => trafficOf totals h talker := funext fun h => trafficOf_filter totals h hown
  have halive : (fun h => alive (totals.filter fun t => t.1.2.1 = tenant) h talker.1) =
      fun h => alive totals h talker.1 := by
    rw [hown]
    exact funext fun h => alive_filter totals h
  rw [expected, expected, habit, habit, htraffic, halive]

theorem comparedTotals_flowsOf : comparedTotals (flowsOf tenant rows) hour =
    (comparedTotals rows hour).filter fun t => t.1.2.1 = tenant := hourlyTotals_flowsOf _

/-- The deviations of a tenant come from its own rows exactly if no talker with a habit is
hidden. -/
theorem deviations_iff : (∀ now, ownEvents tenant (computeHour rows hour now) =
      computeHour (flowsOf tenant rows) hour now) ↔
    ∀ t ∈ busiest (ownTalkers tenant (observed (comparedTotals rows hour) hour)),
      t ∉ busiest (observed (comparedTotals rows hour) hour) →
        expected (comparedTotals rows hour) hour t.1 = none := by
  have hall : ∀ now, ownEvents tenant (computeHour rows hour now) =
      (ownTalkers tenant (busiest (observed (comparedTotals rows hour) hour))).filterMap fun t =>
        (expected (comparedTotals rows hour) hour t.1).map (baselineEvent hour now t) := by
    intro now
    refine filter_filterMap_of fun t _ e he => ?_
    obtain ⟨_, -, rfl⟩ := Option.map_eq_some_iff.mp he
    rfl
  have hown : ∀ now, computeHour (flowsOf tenant rows) hour now =
      (busiest (ownTalkers tenant (observed (comparedTotals rows hour) hour))).filterMap fun t =>
        (expected (comparedTotals rows hour) hour t.1).map (baselineEvent hour now t) := by
    intro now
    rw [computeHour, comparedTotals_flowsOf, observed_ownTalkers]
    refine List.filterMap_congr fun t ht => ?_
    rw [expected_filter _ (tenant_of_busiest ht)]
  have hiff : ∀ now, ownEvents tenant (computeHour rows hour now) =
      computeHour (flowsOf tenant rows) hour now ↔
        ∀ t ∈ busiest (ownTalkers tenant (observed (comparedTotals rows hour) hour)),
          t ∉ busiest (observed (comparedTotals rows hour) hour) →
            expected (comparedTotals rows hour) hour t.1 = none := by
    intro now
    rw [hall, hown, filterMap_busiest_iff nodup_observed]
    simp only [Option.map_eq_none_iff]
  exact ⟨fun h => (hiff 0).mp (h 0), fun h now => (hiff now).mpr h⟩

/-! ## Emergence -/

theorem seenBefore_flowsOf (hown : talker.1 = tenant) :
    seenBefore (flowsOf tenant rows) hour talker = seenBefore rows hour talker := by
  rw [seenBefore, seenBefore, flowsOf, List.any_filter]
  refine congrArg (rows.any ·) (funext fun r => ?_)
  by_cases htalker : r.talker = talker
  · have hr : r.key.tenant = tenant := (congrArg Prod.fst htalker).trans hown
    rw [decide_eq_true hr, Bool.true_and]
  · rw [decide_eq_false htalker, Bool.false_and, Bool.and_false]

theorem oldest_flowsOf : oldest (flowsOf tenant rows) tenant = oldest rows tenant := by
  rw [oldest, oldest, flowsOf, List.filter_filter]
  simp only [Bool.and_self]

theorem isNew_flowsOf (hown : talker.1 = tenant) :
    isNew py (flowsOf tenant rows) hour talker = isNew py rows hour talker := by
  rw [isNew, isNew, seenBefore_flowsOf hown]

/-- The event of a talker of a tenant, if it is new. -/
def newcomer (py : Python) (rows : List FlowRow) (hour now : ℤ) (tenant : String)
    (t : Talker × ℕ) : Option Event :=
  ((oldest rows tenant).filter fun since => since ≤ hour - minHistoryS).bind fun since =>
    if isNew py rows hour (tenant, t.1.2) then some (emergenceEvent hour now since tenant t) else none

theorem newcomer_flowsOf (t : Talker × ℕ) :
    newcomer py (flowsOf tenant rows) hour now tenant t = newcomer py rows hour now tenant t := by
  have hnew : isNew py (flowsOf tenant rows) hour (tenant, t.1.2) =
      isNew py rows hour (tenant, t.1.2) := isNew_flowsOf rfl
  rw [newcomer, newcomer, oldest_flowsOf, hnew]

theorem newcomer_eq_none_iff {t : Talker × ℕ} (hown : t.1.1 = tenant) :
    newcomer py rows hour now tenant t = none ↔
      (HasHistory rows hour tenant → isNew py rows hour t.1 = false) := by
  have htalker : (tenant, t.1.2) = t.1 := Prod.ext hown.symm rfl
  rw [newcomer, htalker, HasHistory]
  cases oldest rows tenant with
  | none => simp
  | some since => by_cases hsince : since ≤ hour - minHistoryS <;> simp [hsince]

theorem flatMap_tenantEmergence (h : ∀ t ∈ talkers, t.1.1 = tenant) :
    (groupOn (fun t : Talker × ℕ => t.1.1) talkers).flatMap (tenantEmergence py rows hour now) =
      talkers.filterMap (newcomer py rows hour now tenant) := by
  by_cases hne : talkers = []
  · rw [hne]
    rfl
  · rw [groupOn_of_const h hne, List.flatMap_singleton, tenantEmergence]
    cases hold : oldest rows tenant with
    | none => simp [newcomer, hold]
    | some since =>
      dsimp only
      split
      · next hlate => simp [newcomer, hold, not_le.mpr hlate]
      · next hlate =>
        rw [← List.filterMap_eq_map, List.filterMap_filter]
        refine List.filterMap_congr fun t _ => ?_
        rw [newcomer, hold, Option.filter_some, if_pos (decide_eq_true (not_lt.mp hlate))]
        rfl

theorem tenant_of_mem_tenantEmergence {g : String × List (Talker × ℕ)} {e : Event}
    (h : e ∈ tenantEmergence py rows hour now g) : e.tenant = g.1 := by
  rw [tenantEmergence] at h
  split at h
  · cases h
  · split at h
    · cases h
    · obtain ⟨t, -, rfl⟩ := List.mem_map.mp h
      rfl

theorem newcomers_iff : (∀ now, ownEvents tenant (detectEmergence py rows hour now) =
      detectEmergence py (flowsOf tenant rows) hour now) ↔
    ∀ t ∈ busiest (ownTalkers tenant (hourTalkers rows hour)), t ∉ busiest (hourTalkers rows hour) →
      HasHistory rows hour tenant → isNew py rows hour t.1 = false := by
  have hall : ∀ now, ownEvents tenant (detectEmergence py rows hour now) =
      (ownTalkers tenant (busiest (hourTalkers rows hour))).filterMap
        (newcomer py rows hour now tenant) := by
    intro now
    rw [ownEvents, detectEmergence, filter_flatMap_of (q := fun g => g.1 = tenant) fun g _ e he => by
      rw [tenant_of_mem_tenantEmergence he], filter_groupOn fun k => k = tenant]
    exact flatMap_tenantEmergence fun t ht => of_decide_eq_true (List.mem_filter.mp ht).2
  have hown : ∀ now, detectEmergence py (flowsOf tenant rows) hour now =
      (busiest (ownTalkers tenant (hourTalkers rows hour))).filterMap
        (newcomer py rows hour now tenant) := by
    intro now
    rw [detectEmergence, hourTalkers_flowsOf, flatMap_tenantEmergence fun t => tenant_of_busiest]
    exact List.filterMap_congr fun t _ => newcomer_flowsOf t
  have hiff : ∀ now, ownEvents tenant (detectEmergence py rows hour now) =
      detectEmergence py (flowsOf tenant rows) hour now ↔
        ∀ t ∈ busiest (ownTalkers tenant (hourTalkers rows hour)),
          t ∉ busiest (hourTalkers rows hour) → newcomer py rows hour now tenant t = none := by
    intro now
    rw [hall, hown, filterMap_busiest_iff nodup_hourTalkers]
  constructor
  · intro h t ht hlost
    exact (newcomer_eq_none_iff (tenant_of_busiest ht)).mp ((hiff 0).mp (h 0) t ht hlost)
  · exact fun h now => (hiff now).mpr fun t ht hlost =>
      (newcomer_eq_none_iff (tenant_of_busiest ht)).mpr (h t ht hlost)

/-! ## Top contributors -/

theorem contributors_apart (py : Python) (rows : List FlowRow) (hour : ℤ) (tenant : String)
    (now : ℤ) : ownEvents tenant (detectTopContributors py rows hour now) =
      detectTopContributors py (flowsOf tenant rows) hour now := by
  have htenant : ∀ g : String × List (Talker × ℕ), ∀ e ∈ tenantTop py hour now g,
      e.tenant = g.1 := by
    intro g e he
    rw [tenantTop] at he
    split at he
    · cases he
    · obtain ⟨t, -, rfl⟩ := List.mem_map.mp he
      rfl
  rw [ownEvents, detectTopContributors, filter_flatMap_of (q := fun g => g.1 = tenant)
    fun g _ e he => by rw [htenant g e he], filter_groupOn fun k => k = tenant,
    detectTopContributors, hourTalkers_flowsOf]
  rfl

/-- What an hour gives for a tenant comes from the tenant's own rows exactly if no talker of the
tenant with a habit, and no new one, is hidden behind those of other tenants. -/
theorem baselineApart_iff (py : Python) (rows : List FlowRow) (hour : ℤ) (tenant : String) :
    BaselineApart py rows hour tenant ↔ Unhidden py rows hour tenant := by
  constructor
  · exact fun h => ⟨deviations_iff.mp h.deviations, newcomers_iff.mp h.newcomers⟩
  · exact fun h => ⟨deviations_iff.mpr h.habitual, newcomers_iff.mpr h.known,
      contributors_apart py rows hour tenant⟩

/-! ## A quiet tenant and a busy one -/

theorem countP_totalsBy {K L : Type*} [DecidableEq K] [LinearOrder L] {rank : K → L}
    {key : FlowRow → K} {rows : List FlowRow} (h : (rows.map key).Nodup) (p : K × ℕ → Bool) :
    (totalsBy rank key rows).countP p =
      rows.countP fun r => p (key r, r.totalBytes.value) := by
  rw [totalsBy, groupOn_of_nodup h, List.countP_map,
    (List.perm_insertionSort _ _).countP_eq, List.countP_map]
  simp [Function.comp_def, sumBytes]

/-- A row with a source address and some bytes. -/
def trafficRow (start : ℤ) (tenant srcIp : String) (bytes : ℕ) : FlowRow :=
  ⟨⟨start, tenant, srcIp, "192.0.2.1", some 6, some 443⟩, .int bytes, .int 1, .int 1, "10.0.0.254",
    none⟩

/-- The busy tenant: 200 talkers with two bytes each. -/
def busyRows : List FlowRow :=
  (List.range 200).map fun i => trafficRow 172800 "busy" ("10.1.0." ++ str i) 2

/-- The quiet tenant: one host two days ago, and another one now. -/
def quietRows : List FlowRow :=
  [trafficRow 3600 "quiet" "10.0.0.1" 1, trafficRow 172800 "quiet" "10.0.0.9" 1]

/-- Both. -/
def crowdedRows : List FlowRow := quietRows ++ busyRows

theorem flowsOf_crowdedRows : flowsOf "quiet" crowdedRows = quietRows := by
  have hbusy : flowsOf "quiet" busyRows = [] := by
    refine List.filter_eq_nil_iff.mpr fun r hr => ?_
    obtain ⟨i, -, rfl⟩ := List.mem_map.mp hr
    have hne : "busy" ≠ "quiet" := by decide
    exact fun heq => hne (of_decide_eq_true heq)
  rw [crowdedRows, flowsOf, List.filter_append, ← flowsOf, ← flowsOf, hbusy, List.append_nil]
  rfl

theorem not_mem_busiest_crowdedRows :
    (("quiet", "10.0.0.9"), 1) ∉ busiest (hourTalkers crowdedRows 172800) := by
  refine not_mem_take_insertionSort (fun _ _ _ h h' => h'.trans h)
    (fun t t' => le_total t'.2 t.2) ?_
  have hrows : crowdedRows.filter (FlowRow.within 172800) =
      trafficRow 172800 "quiet" "10.0.0.9" 1 :: busyRows := by
    have hbusy : busyRows.filter (FlowRow.within 172800) = busyRows := by
      refine List.filter_eq_self.mpr fun r hr => ?_
      obtain ⟨i, -, rfl⟩ := List.mem_map.mp hr
      rfl
    rw [crowdedRows, List.filter_append, hbusy]
    rfl
  have hkeys : ((trafficRow 172800 "quiet" "10.0.0.9" 1 :: busyRows).map FlowRow.talker).Nodup := by
    rw [List.map_cons, List.nodup_cons, busyRows, List.map_map]
    constructor
    · intro hmem
      obtain ⟨i, -, heq⟩ := List.mem_map.mp hmem
      have hne : "busy" ≠ "quiet" := by decide
      exact hne (congrArg Prod.fst heq)
    · refine List.Nodup.map_on (fun i _ j _ heq => ?_) List.nodup_range
      have htext := congrArg String.toList (congrArg Prod.snd heq)
      exact str_inj (String.toList_injective (by simpa [trafficRow, FlowRow.talker] using htext))
  rw [hourTalkers, hrows, countP_totalsBy hkeys, List.countP_cons, busyRows, List.countP_map]
  have hall : (List.range 200).countP ((fun r : FlowRow => decide
      ¬ MoreTraffic (("quiet", "10.0.0.9"), 1) (r.talker, r.totalBytes.value)) ∘
        fun i => trafficRow 172800 "busy" ("10.1.0." ++ str i) 2) = 200 := by
    have hcount := List.countP_eq_length (l := List.range 200) (p := (fun r : FlowRow => decide
      ¬ MoreTraffic (("quiet", "10.0.0.9"), 1) (r.talker, r.totalBytes.value)) ∘
        fun i => trafficRow 172800 "busy" ("10.1.0." ++ str i) 2)
    rw [List.length_range] at hcount
    exact hcount.mpr fun i _ => rfl
  rw [hall]
  exact Nat.le_add_right _ _

/-- The new host of the quiet tenant gives an event alone, and none behind the busy tenant. -/
theorem quiet_hidden : ¬ ∀ (py : Python) (rows : List FlowRow) (hour : ℤ) (tenant : String),
    BaselineApart py rows hour tenant := by
  intro h
  have hapart := h ⟨fun _ => "", fun _ => none⟩ crowdedRows 172800 "quiet"
  have htalkers : hourTalkers quietRows 172800 = [(("quiet", "10.0.0.9"), 1)] := by decide
  have hmem : (("quiet", "10.0.0.9"), 1) ∈
      busiest (ownTalkers "quiet" (hourTalkers crowdedRows 172800)) := by
    rw [← hourTalkers_flowsOf, flowsOf_crowdedRows, htalkers]
    decide
  have hhistory : HasHistory crowdedRows 172800 "quiet" := by
    refine ⟨3600, ?_, by decide⟩
    rw [← oldest_flowsOf, flowsOf_crowdedRows]
    decide
  have hknown := newcomers_iff.mp hapart.newcomers _ hmem not_mem_busiest_crowdedRows hhistory
  have hsame (py : Python) : isNew py (flowsOf "quiet" crowdedRows) 172800 ("quiet", "10.0.0.9") =
      isNew py crowdedRows 172800 ("quiet", "10.0.0.9") := isNew_flowsOf rfl
  rw [← hsame, flowsOf_crowdedRows] at hknown
  exact absurd hknown (by decide)

end SentinelNet.Observability
