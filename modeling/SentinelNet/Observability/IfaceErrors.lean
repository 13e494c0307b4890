import SentinelNet.Lib.StepSums
import SentinelNet.Observability.Window

/-!
# Error counters of ports

`observability/iface_errors.py`: the counters of a sample, what they grew by over consecutive
samples, and the verdict on a port.  A detail counter that is above its total is dropped from the
sample.  A detail whose total was compared does not add to the errors, even where the total did not
grow.

* `countersOf`, `increments`, `verdict`, `summarize`, `readResult`: the source's functions.
* `get?_increments`: the increments are sums over the steps.
-/

namespace SentinelNet.Observability

open PyDict StepSums

/-! ## The functions -/

inductive CounterClass where
  | errors
  | physical
  | duplex
  | hardware
  | discards
  deriving DecidableEq

def errorFields : Dict CounterClass :=
  [("in_errors", .errors), ("out_errors", .errors), ("crc", .physical), ("alignment", .physical),
    ("symbol", .physical), ("runts", .physical), ("giants", .physical),
    ("late_collisions", .duplex), ("excessive_collisions", .duplex), ("carrier_sense", .duplex),
    ("mac_rx_errors", .hardware), ("mac_tx_errors", .hardware), ("in_discards", .discards),
    ("out_discards", .discards)]

def classOrder : List CounterClass := [.physical, .duplex, .hardware, .errors, .discards]

/-- `_PART_OF`: the total that a detail counter is part of. -/
def partOf : Dict String :=
  [("crc", "in_errors"), ("alignment", "in_errors"), ("symbol", "in_errors"),
    ("runts", "in_errors"), ("giants", "in_errors"), ("mac_rx_errors", "in_errors"),
    ("late_collisions", "out_errors"), ("excessive_collisions", "out_errors"),
    ("mac_tx_errors", "out_errors"), ("carrier_sense", "out_errors")]

/-- `int(v)` where `_is_num(v)`. -/
def counterValue : Json → Option ℤ
  | .int n => some n
  | .float q => some (truncate q)
  | _ => none

def knownCounters (metrics : Dict Json) : Dict ℤ :=
  errorFields.filterMap fun p => ((get? metrics p.1).bind counterValue).map fun n => (p.1, n)

/-- A detail that exceeds its total is dropped. -/
def dropDetail (out : Dict ℤ) (p : String × String) : Dict ℤ :=
  match get? out p.1, get? out p.2 with
  | some v, some total => if v > total then del out p.1 else out
  | _, _ => out

def countersOf (metrics : Dict Json) : Dict ℤ := partOf.foldl dropDetail (knownCounters metrics)

/-- The increment of one counter between two samples, and whether it was reset. -/
def incrementField (prev : Dict ℤ) (acc : Dict ℤ × Bool) (p : String × ℤ) : Dict ℤ × Bool :=
  match get? prev p.1 with
  | none => acc
  | some before =>
    if p.2 ≥ before then (set acc.1 p.1 ((get? acc.1 p.1).getD 0 + (p.2 - before)), acc.2)
    else (set acc.1 p.1 ((get? acc.1 p.1).getD 0 + 0), true)

/-- The increments between two consecutive samples. -/
def incrementStep (acc : Dict ℤ × Bool) (step : (ℤ × Dict ℤ) × (ℤ × Dict ℤ)) : Dict ℤ × Bool :=
  step.2.2.foldl (incrementField step.1.2) acc

def increments (samples : List (ℤ × Dict ℤ)) : Dict ℤ × Bool :=
  (samples.zip samples.tail).foldl incrementStep ([], false)

inductive PortStatus where
  | singleSample
  | noCounters
  | erroring
  | discards
  | clean
  deriving DecidableEq

def classTotal (delta : Dict ℤ) (c : CounterClass) : ℤ :=
  ((delta.filter fun p => p.2 ≠ 0 ∧ get? errorFields p.1 = some c).map Prod.snd).sum

/-- A counter that adds to the errors: it is no discard, and its total was not compared. -/
def isCounted (delta : Dict ℤ) (p : String × ℤ) : Bool :=
  p.2 ≠ 0 && get? errorFields p.1 ≠ some .discards &&
    !(get? partOf p.1).any fun total => has delta total

/-- The errors, discards excluded. -/
def errorCount (delta : Dict ℤ) : ℤ := ((delta.filter (isCounted delta)).map Prod.snd).sum

/-- `verdict`: the status, the worst class and the errors. -/
def verdict : Option (Dict ℤ) → PortStatus × Option CounterClass × ℤ
  | none => (.singleSample, none, 0)
  | some [] => (.noCounters, none, 0)
  | some (p :: ps) =>
    let delta := p :: ps
    let worst := classOrder.find? fun c => classTotal delta c ≠ 0
    if errorCount delta ≠ 0 then (.erroring, worst, errorCount delta)
    else if classTotal delta .discards ≠ 0 then (.discards, worst, 0)
    else (.clean, none, 0)

def discardCount (delta : Option (Dict ℤ)) : ℤ :=
  (((delta.getD []).filter fun p => get? errorFields p.1 = some .discards).map Prod.snd).sum

/-- What `summarize` returns; the last three are missing without two samples or without one. -/
structure PortSummary where
  status : PortStatus
  counters : Dict ℤ
  delta : Option (Dict ℤ)
  errors : ℤ
  discards : ℤ
  worstClass : Option CounterClass
  samples : ℕ
  observedTs : Option ℤ := none
  reset : Option Bool := none
  spanS : Option ℤ := none

def parsedSamples (samples : List (ℤ × Dict Json)) : List (ℤ × Dict ℤ) :=
  (samples.map fun s => (s.1, countersOf s.2)).filter fun s => s.2 ≠ []

def summarize (samples : List (ℤ × Dict Json)) : PortSummary :=
  let parsed := parsedSamples samples
  match parsed.head?, parsed.getLast? with
  | some first, some last =>
    if parsed.length < 2 then
      { status := .singleSample
        counters := last.2
        delta := none
        errors := 0
        discards := 0
        worstClass := none
        samples := parsed.length
        observedTs := some last.1 }
    else
      let (delta, reset) := increments parsed
      let (status, worst, errors) := verdict (some delta)
      { status := status
        counters := last.2
        delta := some delta
        errors := errors
        discards := discardCount (some delta)
        worstClass := worst
        samples := parsed.length
        observedTs := some last.1
        reset := some reset
        spanS := some (last.1 - first.1) }
  | _, _ =>
    { status := .noCounters
      counters := []
      delta := none
      errors := 0
      discards := 0
      worstClass := none
      samples := 0 }

structure PortResult where
  counters : Dict ℤ
  delta : Option (Dict ℤ)
  status : PortStatus
  worstClass : Option CounterClass
  errors : ℤ
  discards : ℤ

/-- The result of a port from its counters in the two readings. -/
def portResult (prev cur : Dict ℤ) : PortResult :=
  let delta := if prev ≠ [] then some (increments [(0, prev), (1, cur)]).1 else none
  let (status, worst, errors) := verdict delta
  { counters := cur
    delta := delta
    status := status
    worstClass := worst
    errors := errors
    discards := discardCount delta }

def readResult (before after : Dict (Dict Json)) : Dict PortResult :=
  after.filterMap fun p =>
    let cur := countersOf p.2
    if cur = [] then none
    else some (p.1, portResult (countersOf ((get? before p.1).getD [])) cur)

/-! ## The counters of a sample -/

/-- What a sample exposes of a known counter. -/
def exposes (metrics : Dict Json) (f : String) : Option ℤ :=
  if has errorFields f then (get? metrics f).bind counterValue else none

/-- A detail counter that is above its total. -/
def Excessive (metrics : Dict Json) (f : String) : Prop :=
  ∃ total ∈ get? partOf f, ∃ t ∈ exposes metrics total, ∃ v ∈ exposes metrics f, t < v

section Counters

variable {metrics : Dict Json} {f : String}

theorem get?_filterMap_keys {α β : Type} (d : Dict α) (g : String → Option β) (k : String) :
    get? (d.filterMap fun p => (g p.1).map fun n => (p.1, n)) k =
      if has d k then g k else none := by
  induction d with
  | nil => rfl
  | cons p d ih =>
    obtain ⟨j, v⟩ := p
    by_cases hk : k = j
    · have hhas : has ((j, v) :: d) k = true := by
        rw [has, get?_cons, if_pos hk]
        rfl
      rw [if_pos hhas, hk, List.filterMap_cons]
      dsimp only
      cases hg : g j with
      | none =>
        rw [hk, hg, ite_self] at ih
        exact ih
      | some n =>
        rw [Option.map_some]
        dsimp only
        rw [get?_cons, if_pos rfl]
    · have hhas : has ((j, v) :: d) k = has d k := by
        rw [has, get?_cons, if_neg hk, has]
      rw [hhas, List.filterMap_cons]
      dsimp only
      cases hg : g j with
      | none => exact ih
      | some n =>
        rw [Option.map_some]
        dsimp only
        rw [get?_cons, if_neg hk]
        exact ih

theorem get?_knownCounters (metrics : Dict Json) (f : String) :
    get? (knownCounters metrics) f = exposes metrics f :=
  get?_filterMap_keys errorFields (fun k => (get? metrics k).bind counterValue) f

theorem get?_foldl_dropDetail {parts : Dict String} (hunique : PyDict.Unique parts)
    (htotals : ∀ p ∈ parts, p.2 ∉ parts.map Prod.fst) (out : Dict ℤ) (f : String) :
    get? (parts.foldl dropDetail out) f =
      match get? parts f with
      | none => get? out f
      | some total =>
        match get? out f, get? out total with
        | some v, some t => if v > t then none else some v
        | o, _ => o := by
  induction parts generalizing out with
  | nil => rfl
  | cons p parts ih =>
    obtain ⟨k, total⟩ := p
    have hkeys : k ∉ parts.map Prod.fst := (List.nodup_cons.mp hunique).1
    have hrest := ih (List.nodup_cons.mp hunique).2
      fun q hq hmem => htotals q (List.mem_cons_of_mem _ hq) (List.mem_cons_of_mem _ hmem)
    have hother : ∀ g, g ≠ k → get? (dropDetail out (k, total)) g = get? out g := by
      intro g hg
      unfold dropDetail
      split
      · split
        · rw [get?_del, if_neg hg]
        · rfl
      · rfl
    rw [List.foldl_cons, hrest, get?_cons]
    by_cases hf : f = k
    · have hnone : get? parts k = none := by
        cases hget : get? parts k with
        | none => rfl
        | some t => exact absurd (List.mem_map_of_mem (mem_of_get? hget)) hkeys
      rw [hf, hnone, if_pos rfl]
      unfold dropDetail
      dsimp only
      cases hv : get? out k with
      | none => exact hv
      | some v =>
        cases ht : get? out total with
        | none => exact hv
        | some t =>
          dsimp only
          split
          · rw [get?_del, if_pos rfl]
          · exact hv
    · rw [if_neg hf]
      cases hget : get? parts f with
      | none => exact hother f hf
      | some t =>
        have htk : t ≠ k := by
          intro heq
          refine htotals (f, t) (List.mem_cons_of_mem _ (mem_of_get? hget)) ?_
          rw [heq]
          exact List.mem_cons_self ..
        dsimp only
        rw [hother f hf, hother t htk]

open Classical in
theorem get?_countersOf (metrics : Dict Json) (f : String) :
    get? (countersOf metrics) f = if Excessive metrics f then none else exposes metrics f := by
  have hunique : PyDict.Unique partOf := by
    unfold PyDict.Unique
    decide
  unfold countersOf
  rw [get?_foldl_dropDetail hunique (by decide), get?_knownCounters]
  cases hpart : get? partOf f with
  | none =>
    refine (if_neg ?_).symm
    rintro ⟨total, htotal, -⟩
    rw [hpart] at htotal
    cases htotal
  | some total =>
    dsimp only
    rw [get?_knownCounters]
    have hiff : Excessive metrics f ↔
        ∃ t ∈ exposes metrics total, ∃ v ∈ exposes metrics f, t < v := by
      constructor
      · rintro ⟨total', htotal, h⟩
        rw [hpart] at htotal
        rwa [Option.some.inj htotal]
      · exact fun h => ⟨total, hpart, h⟩
    rw [if_congr hiff rfl rfl]
    cases hv : exposes metrics f with
    | none => exact (ite_self _).symm
    | some v =>
      cases ht : exposes metrics total with
      | none =>
        refine (if_neg ?_).symm
        rintro ⟨t, ht', -⟩
        cases ht'
      | some t =>
        refine if_congr ⟨fun h => ⟨t, rfl, v, rfl, h⟩, ?_⟩ rfl rfl
        rintro ⟨t', ht', v', hv', h⟩
        rw [Option.some.inj ht', Option.some.inj hv']
        exact h

theorem get?_countersOf_total (hf : get? partOf f = none) :
    get? (countersOf metrics) f = exposes metrics f := by
  rw [get?_countersOf]
  refine if_neg ?_
  rintro ⟨total, htotal, -⟩
  rw [hf] at htotal
  cases htotal

theorem partOf_total {total : String} (h : get? partOf f = some total) :
    get? partOf total = none := by
  have hall : ∀ p ∈ partOf, get? partOf p.2 = none := by decide
  exact hall _ (mem_of_get? h)

theorem countersOf_ne_nil_iff :
    countersOf metrics ≠ [] ↔ ∃ f, (exposes metrics f).isSome = true := by
  constructor
  · intro h
    obtain ⟨p, hp⟩ := List.exists_mem_of_ne_nil _ h
    obtain ⟨v, hv⟩ := Option.isSome_iff_exists.mp (has_of_mem (k := p.1) (v := p.2) hp)
    rw [get?_countersOf] at hv
    split at hv
    · cases hv
    · exact ⟨p.1, by rw [hv]; rfl⟩
  · rintro ⟨f, hf⟩ hnil
    have hnone : ∀ g, get? (countersOf metrics) g = none := by
      rw [hnil]
      exact fun g => rfl
    have hself := hnone f
    rw [get?_countersOf] at hself
    split at hself
    · next hexcess =>
      obtain ⟨total, htotal, t, ht, -⟩ := hexcess
      have hkept := hnone total
      rw [get?_countersOf_total (partOf_total htotal), ht] at hkept
      cases hkept
    · rw [hself] at hf
      cases hf

theorem unique_countersOf (metrics : Dict Json) : PyDict.Unique (countersOf metrics) := by
  have hknown : PyDict.Unique (knownCounters metrics) := by
    have hsub : ((knownCounters metrics).map Prod.fst).Sublist (errorFields.map Prod.fst) := by
      unfold knownCounters
      induction errorFields with
      | nil => exact List.Sublist.refl _
      | cons p d ih =>
        rw [List.filterMap_cons]
        cases (get? metrics p.1).bind counterValue with
        | none => exact ih.cons _
        | some n => exact ih.cons_cons _
    have hfields : (errorFields.map Prod.fst).Nodup := by decide
    exact hsub.nodup hfields
  have hdrop : ∀ (parts : Dict String) (out : Dict ℤ), PyDict.Unique out →
      PyDict.Unique (parts.foldl dropDetail out) := by
    intro parts
    induction parts with
    | nil => exact fun _ h => h
    | cons p parts ih =>
      intro out h
      refine ih _ ?_
      unfold dropDetail
      split
      · split
        · exact h.del _
        · exact h
      · exact h
  exact hdrop partOf _ hknown

end Counters

/-! ## Increments -/

/-- What a counter grew by between two samples that both have it; a reset is no growth. -/
def rise (prev cur : Dict ℤ) (f : String) : Option ℤ :=
  (get? prev f).bind fun x => (get? cur f).map fun y => max (y - x) 0

theorem rise_nonneg {prev cur : Dict ℤ} {f : String} {n : ℤ} (h : rise prev cur f = some n) :
    0 ≤ n := by
  obtain ⟨x, -, h⟩ := Option.bind_eq_some_iff.mp h
  obtain ⟨y, -, rfl⟩ := Option.map_eq_some_iff.mp h
  exact le_max_right ..

theorem getD_rise_nonneg (prev cur : Dict ℤ) (f : String) : 0 ≤ (rise prev cur f).getD 0 := by
  cases h : rise prev cur f with
  | none => exact le_rfl
  | some n => exact rise_nonneg h

section Increments

variable {f : String}

theorem get?_foldl_incrementField {cur : Dict ℤ} (hcur : PyDict.Unique cur) (prev : Dict ℤ)
    (acc : Dict ℤ × Bool) :
    get? (cur.foldl (incrementField prev) acc).1 f =
      match rise prev cur f with
      | some n => some ((get? acc.1 f).getD 0 + n)
      | none => get? acc.1 f := by
  induction cur generalizing acc with
  | nil =>
    have hrise : rise prev [] f = none := by
      unfold rise
      cases get? prev f with
      | none => rfl
      | some x => rfl
    rw [hrise]
    rfl
  | cons p cur ih =>
    obtain ⟨k, v⟩ := p
    have hkeys : k ∉ cur.map Prod.fst := (List.nodup_cons.mp hcur).1
    have hone : get? (incrementField prev acc (k, v)).1 f =
        if f = k then
          match get? prev k with
          | some x => some ((get? acc.1 k).getD 0 + max (v - x) 0)
          | none => get? acc.1 k
        else get? acc.1 f := by
      unfold incrementField
      dsimp only
      cases hx : get? prev k with
      | none =>
        dsimp only
        split
        · next hf => rw [hf]
        · rfl
      | some x =>
        dsimp only
        split
        · next hle =>
          dsimp only
          rw [get?_set, max_eq_left (by omega)]
        · next hlt =>
          dsimp only
          rw [get?_set, max_eq_right (by omega)]
    rw [List.foldl_cons, ih (List.nodup_cons.mp hcur).2, hone]
    by_cases hf : f = k
    · have hnone : get? cur f = none := by
        rw [hf]
        cases hget : get? cur k with
        | none => rfl
        | some w => exact absurd (List.mem_map_of_mem (mem_of_get? hget)) hkeys
      have hrest : rise prev cur f = none := by
        unfold rise
        rw [hnone]
        cases get? prev f with
        | none => rfl
        | some x => rfl
      have hnow : rise prev ((k, v) :: cur) f = (get? prev k).map fun x => max (v - x) 0 := by
        unfold rise
        rw [get?_cons, if_pos hf, hf]
        cases get? prev k with
        | none => rfl
        | some x => rfl
      rw [hrest, hnow, if_pos hf]
      cases get? prev k with
      | none =>
        dsimp only [Option.map_none]
        rw [hf]
      | some x =>
        dsimp only [Option.map_some]
        rw [hf]
    · have hnow : rise prev ((k, v) :: cur) f = rise prev cur f := by
        unfold rise
        rw [get?_cons, if_neg hf]
      rw [hnow, if_neg hf]

theorem get?_foldl_incrementStep {ps : List ((ℤ × Dict ℤ) × (ℤ × Dict ℤ))}
    (hps : ∀ p ∈ ps, PyDict.Unique p.2.2) (acc : Dict ℤ × Bool) :
    get? (ps.foldl incrementStep acc).1 f =
      if ∃ p ∈ ps, (rise p.1.2 p.2.2 f).isSome = true then
        some ((get? acc.1 f).getD 0 + (ps.map fun p => (rise p.1.2 p.2.2 f).getD 0).sum)
      else get? acc.1 f := by
  induction ps generalizing acc with
  | nil =>
    refine (if_neg ?_).symm
    rintro ⟨p, hp, -⟩
    cases hp
  | cons p ps ih =>
    have hstep : get? (incrementStep acc p).1 f =
        match rise p.1.2 p.2.2 f with
        | some n => some ((get? acc.1 f).getD 0 + n)
        | none => get? acc.1 f :=
      get?_foldl_incrementField (hps p List.mem_cons_self) p.1.2 acc
    have hzero : (¬ ∃ q ∈ ps, (rise q.1.2 q.2.2 f).isSome = true) →
        (ps.map fun q => (rise q.1.2 q.2.2 f).getD 0).sum = 0 := by
      intro hno
      refine List.sum_eq_zero fun x hx => ?_
      obtain ⟨q, hq, rfl⟩ := List.mem_map.mp hx
      cases hr : rise q.1.2 q.2.2 f with
      | none => rfl
      | some m =>
        refine absurd ⟨q, hq, ?_⟩ hno
        rw [hr]
        rfl
    rw [List.foldl_cons, ih fun q hq => hps q (List.mem_cons_of_mem p hq), hstep, List.map_cons,
      List.sum_cons]
    cases hrise : rise p.1.2 p.2.2 f with
    | none =>
      have hiff : (∃ q ∈ p :: ps, (rise q.1.2 q.2.2 f).isSome = true) ↔
          ∃ q ∈ ps, (rise q.1.2 q.2.2 f).isSome = true := by
        rw [List.exists_mem_cons_iff, hrise]
        exact or_iff_right Bool.false_ne_true
      dsimp only
      rw [Option.getD_none, zero_add]
      exact if_congr hiff.symm rfl rfl
    | some n =>
      have hsome : ∃ q ∈ p :: ps, (rise q.1.2 q.2.2 f).isSome = true := by
        refine ⟨p, List.mem_cons_self .., ?_⟩
        rw [hrise]
        rfl
      dsimp only
      rw [Option.getD_some, Option.getD_some, if_pos hsome]
      split
      · rw [add_assoc]
      · next hno => rw [hzero hno, add_zero]

/-- A step has a counter in both of its samples. -/
def ComparedIn (samples : List (ℤ × Dict ℤ)) (f : String) : Prop :=
  ∃ p ∈ steps samples, (rise p.1.2 p.2.2 f).isSome = true

instance (samples : List (ℤ × Dict ℤ)) (f : String) : Decidable (ComparedIn samples f) :=
  inferInstanceAs (Decidable (∃ p ∈ steps samples, _))

/-- What a counter grew by over the steps of the samples. -/
def growth (samples : List (ℤ × Dict ℤ)) (f : String) : ℤ :=
  stepSum (fun a b => (rise a.2 b.2 f).getD 0) samples

theorem growth_nonneg (samples : List (ℤ × Dict ℤ)) (f : String) : 0 ≤ growth samples f :=
  stepSum_nonneg fun _ _ => getD_rise_nonneg ..

/-- The increments are the sums over the steps, for every counter that was compared. -/
theorem get?_increments {samples : List (ℤ × Dict ℤ)} (h : ∀ s ∈ samples, PyDict.Unique s.2)
    (f : String) :
    get? (increments samples).1 f =
      if ComparedIn samples f then some (growth samples f) else none := by
  have hps : ∀ p ∈ steps samples, PyDict.Unique p.2.2 := fun p hp => h _ (mem_of_mem_steps hp).2
  refine (get?_foldl_incrementStep hps ([], false)).trans ?_
  rw [get?_nil, Option.getD_none, zero_add]
  rfl

theorem getD_increments {samples : List (ℤ × Dict ℤ)} (h : ∀ s ∈ samples, PyDict.Unique s.2)
    (f : String) : (get? (increments samples).1 f).getD 0 = growth samples f := by
  rw [get?_increments h]
  split
  · rfl
  · next hno =>
    have hnone : ∀ p ∈ steps samples, (rise p.1.2 p.2.2 f).getD 0 = (0 : ℤ) := by
      intro p hp
      cases hr : rise p.1.2 p.2.2 f with
      | none => rfl
      | some n =>
        refine absurd ⟨p, hp, ?_⟩ hno
        rw [hr]
        rfl
    refine (List.sum_eq_zero fun x hx => ?_).symm
    obtain ⟨p, hp, rfl⟩ := List.mem_map.mp hx
    exact hnone p hp

end Increments

theorem unique_increments (samples : List (ℤ × Dict ℤ)) :
    PyDict.Unique (increments samples).1 := by
  have hfield : ∀ (cur prev : Dict ℤ) (acc : Dict ℤ × Bool), PyDict.Unique acc.1 →
      PyDict.Unique (cur.foldl (incrementField prev) acc).1 := by
    intro cur prev
    induction cur with
    | nil => exact fun _ h => h
    | cons q cur ih =>
      intro acc h
      refine ih _ ?_
      unfold incrementField
      split
      · exact h
      · split
        · exact h.set _ _
        · exact h.set _ _
  have hsteps : ∀ (ps : List ((ℤ × Dict ℤ) × (ℤ × Dict ℤ))) (acc : Dict ℤ × Bool),
      PyDict.Unique acc.1 → PyDict.Unique (ps.foldl incrementStep acc).1 := by
    intro ps
    induction ps with
    | nil => exact fun _ h => h
    | cons p ps ih => exact fun acc h => ih _ (hfield p.2.2 p.1.2 acc h)
  exact hsteps _ _ unique_nil

end SentinelNet.Observability
