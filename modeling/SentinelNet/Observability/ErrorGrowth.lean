import SentinelNet.Observability.IfaceErrors
import SentinelNet.Observability.Rules

/-!
# The rule for growing errors against the increments

`_interface_errors` takes the difference between the first and the last sample of a port, where a
counter that is not exposed counts as zero.  `increments` adds up the steps of each counter.  The
difference is the increments, plus what counters appear with, less what they vanish with and what
resets take away.

* `step_balance`, `difference_eq`: the balance of a step and of a run of samples.
* `risingErrors_agrees_iff`: when it does.
-/

namespace SentinelNet.Observability

open PyText PyDict StepSums Grouping

/-- The counters that the rule reads. -/
def totalCounters : List String := ["in_errors", "out_errors"]

/-! ## The balance of a counter -/

section Balance

variable (f : String) (a b : Dict Json)

/-- What a sample has of a counter, zero where it does not expose it. -/
def held : ℤ := (exposes a f).getD 0

def appearing : ℤ := if exposes a f = none then held f b else 0

def vanishing : ℤ := if exposes b f = none then held f a else 0

/-- What a reset takes away from a counter. -/
def resetLoss : ℤ :=
  match exposes a f, exposes b f with
  | some x, some y => max (x - y) 0
  | _, _ => 0

/-- The balance of a step. -/
theorem step_balance (hf : get? partOf f = none) :
    held f b - held f a + (vanishing f a b + resetLoss f a b) =
      (rise (countersOf a) (countersOf b) f).getD 0 + appearing f a b := by
  unfold rise held appearing vanishing resetLoss held
  rw [get?_countersOf_total hf, get?_countersOf_total hf]
  cases hx : exposes a f with
  | none =>
    cases hy : exposes b f with
    | none => rfl
    | some y => simp
  | some x =>
    cases hy : exposes b f with
    | none => simp
    | some y =>
      simp only [Option.getD_some, Option.bind_some, Option.map_some, reduceCtorEq, if_false,
        zero_add, add_zero]
      omega

end Balance

section Runs

variable {f : String} {samples : List (Dict Json)}

/-- The samples as `increments` takes them; the times play no part. -/
def counterSamples (samples : List (EventRow × ℤ)) : List (ℤ × Dict ℤ) :=
  samples.map fun s => (s.1.ts, countersOf s.1.metrics)

def measuresOf (samples : List (EventRow × ℤ)) : List (Dict Json) :=
  samples.map fun s => s.1.metrics

def counterGrowth (samples : List (EventRow × ℤ)) (f : String) : ℤ :=
  (get? (increments (counterSamples samples)).1 f).getD 0

theorem counterGrowth_eq (samples : List (EventRow × ℤ)) (f : String) :
    counterGrowth samples f =
      stepSum (fun a b => (rise (countersOf a) (countersOf b) f).getD 0) (measuresOf samples) := by
  have hunique : ∀ s ∈ counterSamples samples, PyDict.Unique s.2 := by
    intro s hs
    obtain ⟨t, -, rfl⟩ := List.mem_map.mp hs
    exact unique_countersOf _
  unfold counterGrowth
  rw [getD_increments hunique]
  unfold growth counterSamples measuresOf
  rw [stepSum_map, stepSum_map]

/-- The difference between the ends of a run, in terms of its increments. -/
theorem difference_eq (hf : get? partOf f = none) {first last : Dict Json}
    (hfirst : samples.head? = some first) (hlast : samples.getLast? = some last) :
    held f last - held f first + (stepSum (vanishing f) samples + stepSum (resetLoss f) samples) =
      stepSum (fun a b => (rise (countersOf a) (countersOf b) f).getD 0) samples +
        stepSum (appearing f) samples := by
  rw [← stepSum_sub (held f) hfirst hlast, ← stepSum_add, ← stepSum_add, ← stepSum_add]
  exact stepSum_congr fun p _ => step_balance f p.1 p.2 hf

end Runs

/-! ## The samples of the rule -/

theorem errorTotal_eq {ev : EventRow} {total : ℤ} (h : errorTotal ev = some total) :
    total = held "in_errors" ev.metrics + held "out_errors" ev.metrics := by
  unfold errorTotal at h
  rw [List.filterMap_congr (g := exposes ev.metrics)] at h
  · rw [List.filterMap_cons, List.filterMap_cons, List.filterMap_nil] at h
    unfold held
    cases hin : exposes ev.metrics "in_errors" with
    | none =>
      cases hout : exposes ev.metrics "out_errors" with
      | none =>
        rw [hin, hout] at h
        cases h
      | some y =>
        rw [hin, hout] at h
        rw [← Option.some.inj h]
        simp
    | some x =>
      cases hout : exposes ev.metrics "out_errors" with
      | none =>
        rw [hin, hout] at h
        rw [← Option.some.inj h]
        simp
      | some y =>
        rw [hin, hout] at h
        rw [← Option.some.inj h]
        simp
  · intro k hk
    have hall : ∀ k ∈ ["in_errors", "out_errors"], has errorFields k = true := by decide
    unfold exposes EventRow.metric
    rw [if_pos (hall k hk)]
    cases get? ev.metrics k with
    | none => rfl
    | some v => cases v <;> rfl

theorem mem_errorSample {ev : EventRow} {s : EventRow × ℤ} (h : s ∈ errorSample ev) :
    s.2 = held "in_errors" s.1.metrics + held "out_errors" s.1.metrics := by
  unfold errorSample at h
  split at h
  · split at h
    · next total htotal =>
      rw [List.mem_singleton.mp h]
      exact errorTotal_eq htotal
    · cases h
  · cases h

def portSamples (events : List EventRow) : List (Port × List (EventRow × ℤ)) :=
  groupOn (fun s : EventRow × ℤ => portOf s.1) (events.flatMap errorSample)

theorem total_of_portSamples {events : List EventRow} {g : Port × List (EventRow × ℤ)}
    (hg : g ∈ portSamples events) :
    ∀ s ∈ g.2, s.2 = held "in_errors" s.1.metrics + held "out_errors" s.1.metrics := by
  intro s hs
  rw [(mem_groupOn.mp hg).1] at hs
  obtain ⟨ev, -, hev⟩ := List.mem_flatMap.mp (List.mem_filter.mp hs).1
  exact mem_errorSample hev

/-! ## The conclusions against the increments -/

/-- The rule concludes for a port: it has two samples, and the last one is above the first one by
the threshold. -/
def RisesEnough (p : Params) (samples : List (EventRow × ℤ)) : Prop :=
  2 ≤ samples.length ∧ ∀ first ∈ samples.head?, ∀ last ∈ samples.getLast?,
    intParam p "min_errors" ≤ last.2 - first.2

/-- What the rule concludes with is no more than the increments, and a counter that is not in the
first sample is counted with no more than its increments. -/
def Agrees (p : Params) (events : List EventRow) : Prop :=
  ∀ g ∈ portSamples events, ∀ f ∈ risingErrors p g.1 g.2, ∀ n,
    ("errors_delta", Json.int n) ∈ f.attrs →
      n ≤ counterGrowth g.2 "in_errors" + counterGrowth g.2 "out_errors" ∧
        ∀ first ∈ g.2.head?, ∀ last ∈ g.2.getLast?, ∀ k ∈ totalCounters,
          exposes first.1.metrics k = none → held k last.1.metrics ≤ counterGrowth g.2 k

/-- What a counter appears with is no more than what it vanishes with and what resets take away. -/
def Offset (counters : List String) (samples : List (EventRow × ℤ)) : Prop :=
  (counters.map fun k => stepSum (appearing k) (measuresOf samples)).sum ≤
    (counters.map fun k => stepSum (vanishing k) (measuresOf samples) +
      stepSum (resetLoss k) (measuresOf samples)).sum

theorem mem_risingErrors_iff {p : Params} {port : Port} {samples : List (EventRow × ℤ)}
    {first last : EventRow × ℤ} (hfirst : samples.head? = some first)
    (hlast : samples.getLast? = some last) (n : ℤ) :
    (∃ f ∈ risingErrors p port samples, ("errors_delta", Json.int n) ∈ f.attrs) ↔
      RisesEnough p samples ∧ n = last.2 - first.2 := by
  have hconcludes : RisesEnough p samples ↔
      ¬ (samples.length < 2 ∨ last.2 - first.2 < intParam p "min_errors") := by
    unfold RisesEnough
    rw [hfirst, hlast, not_or, not_lt, not_lt]
    refine and_congr_right fun _ => ?_
    exact ⟨fun h => h first rfl last rfl, fun h _ hf _ hl =>
      Option.some.inj hf ▸ Option.some.inj hl ▸ h⟩
  unfold risingErrors
  rw [hfirst, hlast, hconcludes]
  dsimp only
  split
  · next hno =>
    refine iff_of_false ?_ fun h => h.1 hno
    rintro ⟨f, hf, -⟩
    cases hf
  · next hyes =>
    rw [and_iff_right hyes]
    constructor
    · rintro ⟨f, hf, hn⟩
      rw [List.mem_singleton.mp hf] at hn
      simp only [List.mem_cons, Prod.mk.injEq, List.not_mem_nil, or_false] at hn
      rcases hn with ⟨hk, -⟩ | ⟨-, hn⟩ | ⟨hk, -⟩ | ⟨hk, -⟩
      · exact absurd hk (by decide)
      · exact Json.int.inj hn
      · exact absurd hk (by decide)
      · exact absurd hk (by decide)
    · rintro rfl
      exact ⟨_, List.mem_singleton_self _, List.mem_cons_of_mem _ List.mem_cons_self⟩

/-- For every window the rule concludes with no more than the increments exactly where, for every
port that it concludes for, what the two counters appear with is no more than what they vanish with
and what resets take away, and likewise for each counter that the first sample does not expose. -/
theorem risingErrors_agrees_iff (p : Params) (events : List EventRow) :
    Agrees p events ↔ ∀ g ∈ portSamples events, RisesEnough p g.2 →
      Offset totalCounters g.2 ∧
        ∀ first ∈ g.2.head?, ∀ k ∈ totalCounters, exposes first.1.metrics k = none →
          Offset [k] g.2 := by
  refine forall₂_congr fun g hg => ?_
  have hne : g.2 ≠ [] := (mem_groupOn.mp hg).2
  obtain ⟨first, hfirst⟩ : ∃ first, g.2.head? = some first :=
    Option.ne_none_iff_exists'.mp fun h => hne (List.head?_eq_none_iff.mp h)
  obtain ⟨last, hlast⟩ : ∃ last, g.2.getLast? = some last :=
    Option.ne_none_iff_exists'.mp fun h => hne (List.getLast?_eq_none_iff.mp h)
  have hfirstTotal := total_of_portSamples hg first (List.mem_of_mem_head? hfirst)
  have hlastTotal := total_of_portSamples hg last (List.mem_of_getLast? hlast)
  have hfirst' : (measuresOf g.2).head? = some first.1.metrics := by
    unfold measuresOf
    rw [List.head?_map, hfirst]
    rfl
  have hlast' : (measuresOf g.2).getLast? = some last.1.metrics := by
    unfold measuresOf
    rw [List.getLast?_map, hlast]
    rfl
  have hin := difference_eq (f := "in_errors") rfl hfirst' hlast'
  have hout := difference_eq (f := "out_errors") rfl hfirst' hlast'
  rw [← counterGrowth_eq] at hin hout
  have hdelta : last.2 - first.2 ≤
      counterGrowth g.2 "in_errors" + counterGrowth g.2 "out_errors" ↔
        Offset totalCounters g.2 := by
    unfold Offset totalCounters
    simp only [List.map_cons, List.map_nil, List.sum_cons, List.sum_nil, add_zero]
    omega
  have hcounter : ∀ k ∈ totalCounters, exposes first.1.metrics k = none →
      (held k last.1.metrics ≤ counterGrowth g.2 k ↔ Offset [k] g.2) := by
    intro k hk hnone
    have hpart : ∀ k ∈ totalCounters, get? partOf k = none := by decide
    have hdiff := difference_eq (hpart k hk) hfirst' hlast'
    rw [← counterGrowth_eq] at hdiff
    have hzero : held k first.1.metrics = 0 := by
      unfold held
      rw [hnone]
      rfl
    unfold Offset
    simp only [List.map_cons, List.map_nil, List.sum_cons, List.sum_nil, add_zero]
    omega
  rw [← hdelta]
  constructor
  · intro h hconcludes
    obtain ⟨f, hf, hn⟩ := (mem_risingErrors_iff hfirst hlast _).mpr ⟨hconcludes, rfl⟩
    obtain ⟨hle, hcounters⟩ := h f hf _ hn
    refine ⟨hle, fun first' hfirst'' k hk hnone => ?_⟩
    obtain rfl : first = first' := Option.some.inj (hfirst.symm.trans hfirst'')
    exact (hcounter k hk hnone).mp (hcounters first hfirst last hlast k hk hnone)
  · intro h f hf n hn
    obtain ⟨hconcludes, rfl⟩ := (mem_risingErrors_iff hfirst hlast n).mp ⟨f, hf, hn⟩
    obtain ⟨hle, hcounters⟩ := h hconcludes
    refine ⟨hle, fun first' hfirst'' last' hlast'' k hk hnone => ?_⟩
    obtain rfl : first = first' := Option.some.inj (hfirst.symm.trans hfirst'')
    obtain rfl : last = last' := Option.some.inj (hlast.symm.trans hlast'')
    exact (hcounter k hk hnone).mpr (hcounters first hfirst k hk hnone)

def portRow (id : ℕ) (ts : ℤ) (metrics : Dict Json)
    (h : metrics.all (fun p => p.2.isMeasure) = true) : EventRow where
  ts := ts
  ingestedTs := ts
  tenant := "a"
  source := "snmp"
  eventType := "interface.state"
  entityType := "interface"
  entityId := "10.0.0.254:port1"
  deviceIp := some "10.0.0.254"
  interface := some "port1"
  metrics := metrics
  dedupKey := "snmp-state:" ++ str id
  id := id
  measures := h
  texts := rfl

/-- A sample without `out_errors`. -/
def earlyRow : EventRow := portRow 1 1000 [("in_errors", .int 10)] rfl

/-- The next sample, which exposes `out_errors`. -/
def laterRow : EventRow :=
  portRow 2 1060 [("in_errors", .int 10), ("out_errors", .int 5000)] rfl

/-- The rule concludes with 5000 errors where nothing grew. -/
theorem appearing_counted : ¬ Agrees [("min_errors", .int 100)] [earlyRow, laterRow] := by
  intro h
  let samples : List (EventRow × ℤ) := [(earlyRow, 10), (laterRow, 5010)]
  have hsamples : [earlyRow, laterRow].flatMap errorSample = samples := rfl
  have hg : (portOf earlyRow, samples) ∈ portSamples [earlyRow, laterRow] := by
    unfold portSamples
    rw [hsamples]
    exact mem_groupOn.mpr ⟨rfl, List.cons_ne_nil _ _⟩
  have hconcludes : RisesEnough [("min_errors", .int 100)] samples := by
    refine ⟨le_rfl, fun first hfirst last hlast => ?_⟩
    rw [← Option.some.inj hfirst, ← Option.some.inj hlast]
    decide
  obtain ⟨f, hf, hn⟩ : ∃ f ∈ risingErrors [("min_errors", .int 100)] (portOf earlyRow) samples,
      ("errors_delta", Json.int 5000) ∈ f.attrs :=
    (mem_risingErrors_iff rfl rfl 5000).mpr ⟨hconcludes, rfl⟩
  have hle := (h _ hg f hf 5000 hn).1
  have hzero : counterGrowth samples "in_errors" + counterGrowth samples "out_errors" = 0 := by
    decide
  rw [hzero] at hle
  exact absurd hle (by decide)

end SentinelNet.Observability
