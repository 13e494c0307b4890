import SentinelNet.Observability.Rules

/-!
# Isolation of tenants

A window holds the events of all tenants.  Each rule but one concludes for a tenant what it would
conclude from the events of that tenant alone.  The exception is `TRAFFIC_SPIKE_001`, which counts
the flows and takes the median of their volumes over the whole window.

* `separates_flatMap`, `Separates.groups`: rules that look at one event, or at groups.
* `evaluate_eq_iff`: when the rules conclude the same for a tenant in two windows.
-/

namespace SentinelNet.Observability

open Grouping PyDict PyText

def eventsOf (tenant : String) (events : List EventRow) : List EventRow :=
  events.filter fun ev => ev.tenant = tenant

def ofTenant (tenant : String) (produced : List Produced) : List Produced :=
  produced.filter fun p => p.item.tenant = tenant

def Window.ofTenant (w : Window) (tenant : String) : Window where
  rows := eventsOf tenant w.rows
  distinct := w.distinct.sublist (List.filter_sublist.map _)

/-- The results for a tenant are those of its events alone. -/
def Separates {β : Type*} (tenantOf : β → String) (check : List EventRow → List β) : Prop :=
  ∀ (w : Window) (tenant : String),
    (check w.rows).filter (fun b => tenantOf b = tenant) = check (eventsOf tenant w.rows)

section Rules

variable {β γ K : Type*} {tenantOf : β → String}

/-! ## Events one at a time and in groups -/

theorem separates_flatMap {f : EventRow → List β} (h : ∀ ev, ∀ b ∈ f ev, tenantOf b = ev.tenant) :
    Separates tenantOf fun events => events.flatMap f := by
  intro w tenant
  refine filter_flatMap_of fun ev _ b hb => ?_
  rw [h ev b hb]

theorem separates_filter (p : EventRow → Bool) :
    Separates (fun ev : EventRow => ev.tenant) fun events => events.filter p := by
  intro w tenant
  show (w.rows.filter p).filter _ = (w.rows.filter _).filter p
  rw [List.filter_comm]

theorem Separates.map {check : List EventRow → List γ} {g : γ → β}
    (h : Separates (fun c => tenantOf (g c)) check) :
    Separates tenantOf fun events => (check events).map g := by
  intro w tenant
  show ((check w.rows).map g).filter _ = (check (eventsOf tenant w.rows)).map g
  rw [List.filter_map, ← h w tenant]
  rfl

theorem Separates.groups [DecidableEq K] (key : γ → K) (keyTenant : K → String)
    {items : List EventRow → List γ} {conclude : K → List γ → List β}
    (h : Separates (fun x => keyTenant (key x)) items)
    (hconclude : ∀ k xs, ∀ b ∈ conclude k xs, tenantOf b = keyTenant k) :
    Separates tenantOf fun events =>
      (groupOn key (items events)).flatMap fun g => conclude g.1 g.2 := by
  intro w tenant
  have hgroups : ∀ g ∈ groupOn key (items w.rows), ∀ b ∈ conclude g.1 g.2,
      decide (tenantOf b = tenant) = decide (keyTenant g.1 = tenant) := by
    intro g _ b hb
    rw [hconclude g.1 g.2 b hb]
  show ((groupOn key (items w.rows)).flatMap _).filter _ =
    (groupOn key (items (eventsOf tenant w.rows))).flatMap _
  rw [filter_flatMap_of hgroups, filter_groupOn fun k => decide (keyTenant k = tenant),
    ← h w tenant]

end Rules

/-! ## Rules that look at one event at a time -/

theorem separates_highSeverityLog (p : Params) : Separates Finding.tenant (highSeverityLog p) := by
  refine separates_flatMap fun ev f hf => ?_
  split at hf
  · split at hf
    · rw [List.mem_singleton.mp hf]
      rfl
    · cases hf
  · cases hf

theorem separates_ite {β : Type*} {tenantOf : β → String} {c : EventRow → Prop} [DecidablePred c]
    {f : EventRow → β} (h : ∀ ev, tenantOf (f ev) = ev.tenant) :
    Separates tenantOf fun events => events.flatMap fun ev => if c ev then [f ev] else [] := by
  refine separates_flatMap fun ev b hb => ?_
  split at hb
  · rw [List.mem_singleton.mp hb]
    exact h ev
  · cases hb

section Rules

variable (py : Python) (p : Params)

theorem separates_configChange : Separates Finding.tenant (configChange py p) :=
  separates_ite fun _ => rfl

theorem separates_interfaceDown : Separates Finding.tenant (interfaceDown py p) :=
  separates_ite fun _ => rfl

theorem separates_interfaceRecovered : Separates Retraction.tenant (interfaceRecovered py p) :=
  separates_ite fun _ => rfl

theorem separates_baselineSpike : Separates Finding.tenant (baselineSpike py p) :=
  separates_ite fun _ => rfl

theorem separates_newTalker : Separates Finding.tenant (newTalker py p) :=
  separates_ite fun _ => rfl

theorem separates_unknownExporter : Separates Finding.tenant (unknownExporter py p) :=
  separates_ite fun _ => rfl

theorem separates_topTalker : Separates Finding.tenant (topTalker py p) :=
  separates_ite fun _ => rfl

theorem separates_baselineNormal : Separates Retraction.tenant (baselineNormalRetractsSpike py p) :=
  separates_ite fun _ => rfl

variable {ev : EventRow} {f : Finding}

theorem tenant_of_mem_loadFinding {field label : String} {limit : ℤ}
    (h : f ∈ loadFinding py ev field label limit) : f.tenant = ev.tenant := by
  unfold loadFinding at h
  split at h
  · cases h
  · rw [List.mem_singleton.mp h]

theorem separates_deviceLoad : Separates Finding.tenant (deviceLoad py p) := by
  refine separates_flatMap fun ev f hf => ?_
  split at hf
  · rcases List.mem_append.mp hf with hf | hf
    · rcases List.mem_append.mp hf with hf | hf
      · exact tenant_of_mem_loadFinding py hf
      · exact tenant_of_mem_loadFinding py hf
    · exact tenant_of_mem_loadFinding py hf
  · cases hf

/-! ## Rules that group events -/

variable {p}

theorem tenant_of_mem_flapping {port : Port} {seen : List EventRow}
    (h : f ∈ flapping p port seen) : f.tenant = port.1 := by
  unfold flapping at h
  split at h
  · cases h
  · split at h
    · cases h
    · dsimp only at h
      split at h
      · split at h
        · cases h
        · rw [List.mem_singleton.mp h]
      · cases h

theorem tenant_of_mem_risingErrors {port : Port} {samples : List (EventRow × ℤ)}
    (h : f ∈ risingErrors p port samples) : f.tenant = port.1 := by
  unfold risingErrors at h
  split at h
  · split at h
    · cases h
    · rw [List.mem_singleton.mp h]
  · cases h

theorem tenant_of_mem_silentDevice {device : String × Option String} {seen : List EventRow}
    (h : f ∈ silentDevice p device seen) : f.tenant = device.1 := by
  unfold silentDevice at h
  dsimp only at h
  split at h
  · split at h
    · cases h
    · rw [List.mem_singleton.mp h]
  · cases h

theorem tenant_of_mem_blockedTarget {target : Destination}
    {clients : List (Finding × Destination × String)}
    (h : f ∈ blockedTarget py p target clients) : f.tenant = target.1 := by
  unfold blockedTarget at h
  dsimp only at h
  split at h
  · cases h
  · split at h
    · cases h
    · rw [List.mem_singleton.mp h]

variable (p)

theorem separates_interfaceFlapping : Separates Finding.tenant (interfaceFlapping py p) :=
  Separates.groups portOf Prod.fst (separates_filter _) fun _ _ _ hf => tenant_of_mem_flapping hf

theorem separates_deviceUnreachable : Separates Finding.tenant (deviceUnreachable p) :=
  Separates.groups (fun ev : EventRow => (ev.tenant, ev.deviceIp)) Prod.fst (separates_filter _)
    fun _ _ _ hf => tenant_of_mem_silentDevice hf

theorem separates_errorSamples :
    Separates (fun s : EventRow × ℤ => s.1.tenant) fun events => events.flatMap errorSample := by
  refine separates_flatMap fun ev s hs => ?_
  unfold errorSample at hs
  split at hs
  · split at hs
    · rw [List.mem_singleton.mp hs]
    · cases hs
  · cases hs

theorem separates_interfaceErrors : Separates Finding.tenant (interfaceErrors p) :=
  Separates.groups (fun s : EventRow × ℤ => portOf s.1) Prod.fst separates_errorSamples
    fun _ _ _ hf => tenant_of_mem_risingErrors hf

/-! ## Blocked traffic -/

variable {p}

theorem tenant_of_corroborates {f : EventRow} (h : corroborates py p ev f) :
    f.tenant = ev.tenant := by
  simp only [corroborates, Bool.and_eq_true, decide_eq_true_eq] at h
  exact h.1.1.1.1

theorem flowRows_eventsOf (tenant : String) (events : List EventRow) :
    flowRows (eventsOf tenant events) =
      (flowRows events).filter fun f => f.tenant = tenant := List.filter_comm ..

theorem find?_flowRows_eventsOf (ev : EventRow) (events : List EventRow) :
    (flowRows (eventsOf ev.tenant events)).find? (corroborates py p ev) =
      (flowRows events).find? (corroborates py p ev) := by
  rw [flowRows_eventsOf]
  exact find?_filter_of (fun f hf => decide_eq_true (tenant_of_corroborates py hf)) _

variable (p)

theorem separates_blockedTraffic : Separates Finding.tenant (blockedTraffic py p) := by
  intro w tenant
  unfold blockedTraffic
  rw [filter_flatMap_of (q := fun ev : EventRow => decide (ev.tenant = tenant))]
  · refine List.flatMap_congr fun ev hev => ?_
    have htenant : ev.tenant = tenant := by simpa using (List.mem_filter.mp hev).2
    rw [← htenant, find?_flowRows_eventsOf]
  · intro ev _ f hf
    split at hf
    · split at hf
      · next g hg =>
        have htenant := tenant_of_corroborates py (List.find?_some hg)
        unfold blockedFindings at hf
        rcases List.mem_cons.mp hf with rfl | hf
        · rfl
        · rw [List.mem_singleton.mp hf]
          show decide (g.tenant = tenant) = _
          rw [htenant]
      · cases hf
    · cases hf

theorem exists_of_mem_blockedTraffic {events : List EventRow}
    (h : f ∈ blockedTraffic py p events) : ∃ ev ∈ events, f.eventId = ev.id := by
  obtain ⟨ev, hev, hf⟩ := List.mem_flatMap.mp h
  split at hf
  · split at hf
    · next g hg =>
      rcases List.mem_cons.mp hf with rfl | hf
      · exact ⟨ev, hev, rfl⟩
      · rw [List.mem_singleton.mp hf]
        exact ⟨g, (List.mem_filter.mp (List.mem_of_find?_eq_some hg)).1, rfl⟩
    · cases hf
  · cases hf

theorem find?_id {rows : List EventRow} (h : (rows.map EventRow.id).Nodup)
    (hev : ev ∈ rows) : (rows.reverse.find? fun e => e.id = ev.id) = some ev := by
  cases hfound : rows.reverse.find? fun e => e.id = ev.id with
  | none =>
    have hnone := List.find?_eq_none.mp hfound ev (List.mem_reverse.mpr hev)
    exact absurd (decide_eq_true rfl) hnone
  | some e =>
    have hfind := List.find?_some hfound
    have hid : e.id = ev.id := of_decide_eq_true hfind
    have hmem := List.mem_reverse.mp (List.mem_of_find?_eq_some hfound)
    exact congrArg some (List.inj_on_of_nodup_map h hmem hev hid)

variable {p} in
theorem destinationPort_eventsOf {w : Window} {tenant : String}
    (h : ∃ ev ∈ eventsOf tenant w.rows, f.eventId = ev.id) :
    destinationPort py (eventsOf tenant w.rows) f = destinationPort py w.rows f := by
  obtain ⟨ev, hev, hid⟩ := h
  have hown : ((eventsOf tenant w.rows).reverse.find? fun e => e.id = ev.id) = some ev :=
    find?_id (w.ofTenant tenant).distinct hev
  have hall : (w.rows.reverse.find? fun e => e.id = ev.id) = some ev :=
    find?_id w.distinct (List.mem_filter.mp hev).1
  unfold destinationPort
  rw [hid, hown, hall]

theorem tenant_of_mem_blockedClients {events : List EventRow}
    {c : Finding × Destination × String} (h : c ∈ blockedClients py events f) :
    c.2.1.1 = f.tenant := by
  unfold blockedClients at h
  split at h
  · split at h
    · rw [List.mem_singleton.mp h]
    · cases h
  · cases h

theorem separates_blockedClients :
    Separates (fun c : Finding × Destination × String => c.2.1.1) fun events =>
      (blockedTraffic py p events).flatMap (blockedClients py events) := by
  intro w tenant
  have hclients : ∀ f ∈ blockedTraffic py p w.rows, ∀ c ∈ blockedClients py w.rows f,
      decide (c.2.1.1 = tenant) = decide (f.tenant = tenant) := by
    intro f _ c hc
    rw [tenant_of_mem_blockedClients py hc]
  show ((blockedTraffic py p w.rows).flatMap _).filter _ = _
  rw [filter_flatMap_of hclients, separates_blockedTraffic py p w tenant]
  refine List.flatMap_congr fun f hf => ?_
  have hport := destinationPort_eventsOf py (exists_of_mem_blockedTraffic py p hf)
  simp only [blockedClients, hport]

theorem separates_blastRadius (blocked : Params) :
    Separates Finding.tenant (blastRadius py blocked p) :=
  Separates.groups (fun c : Finding × Destination × String => c.2.1) Prod.fst
    (separates_blockedClients py blocked) fun _ _ _ hf => tenant_of_mem_blockedTarget py hf

/-! ## Volumes -/

theorem comparedFlows_eventsOf (tenant : String) (events : List EventRow) :
    comparedFlows py p (eventsOf tenant events) =
      (comparedFlows py p events).filter fun f => f.tenant = tenant := by
  unfold comparedFlows
  split
  · rw [flowRows_eventsOf, List.filter_comm]
  · exact flowRows_eventsOf tenant events

/-- What a flow adds, given what it is compared with. -/
def spikesAgainst (ref : Option Json) (f : EventRow) : List Finding :=
  match ref with
  | none => []
  | some mid => if isSpike p mid f then [spikeFinding py mid f] else []

/-- The flow reaches what it is compared with. -/
def Reaches (ref : Option Json) (f : EventRow) : Prop :=
  (ref.any fun mid => isSpike p mid f) = true

variable {ref : Option Json}

theorem spikesAgainst_of_not {f : EventRow} (h : ¬ Reaches p ref f) :
    spikesAgainst py p ref f = [] := by
  cases ref with
  | none => rfl
  | some mid =>
    have hnot : ¬ isSpike p mid f = true := h
    exact if_neg hnot

theorem trafficVolumeSpike_eq (events : List EventRow) :
    trafficVolumeSpike py p events =
      (comparedFlows py p events).flatMap (spikesAgainst py p (reference py p events)) := by
  unfold trafficVolumeSpike
  cases h : reference py p events with
  | none => exact (List.flatMap_eq_nil_iff.mpr fun _ _ => rfl).symm
  | some mid => rfl

theorem trafficVolumeSpike_ofTenant (tenant : String) (events : List EventRow) :
    (trafficVolumeSpike py p events).filter (fun f => f.tenant = tenant) =
      (comparedFlows py p (eventsOf tenant events)).flatMap
        (spikesAgainst py p (reference py p events)) := by
  rw [trafficVolumeSpike_eq, comparedFlows_eventsOf]
  refine filter_flatMap_of fun f _ b hb => ?_
  unfold spikesAgainst at hb
  split at hb
  · cases hb
  · split at hb
    · rw [List.mem_singleton.mp hb]
      rfl
    · cases hb

variable {flows : List EventRow}

theorem eq_of_spikeFinding_mem {mid : Json} {f : EventRow}
    (h : spikeFinding py mid f ∈ flows.flatMap (spikesAgainst py p ref)) :
    ref = some mid := by
  obtain ⟨g, -, hg⟩ := List.mem_flatMap.mp h
  unfold spikesAgainst at hg
  split at hg
  · cases hg
  · next mid' =>
    split at hg
    · have hattrs := congrArg Finding.attrs (List.mem_singleton.mp hg)
      simp only [spikeFinding, List.cons.injEq, Prod.mk.injEq] at hattrs
      rw [hattrs.2.1.2]
    · cases hg

/-- Compared with two medians, flows give the same findings if the medians are the same or no flow
reaches either. -/
theorem flatMap_spikesAgainst_eq_iff {ref' : Option Json} :
    flows.flatMap (spikesAgainst py p ref) = flows.flatMap (spikesAgainst py p ref') ↔
      ref = ref' ∨ ∀ f ∈ flows, ¬ Reaches p ref f ∧ ¬ Reaches p ref' f := by
  have hside (r r' : Option Json) {f : EventRow} (hf : f ∈ flows) (hr : Reaches p r f)
      (heq : flows.flatMap (spikesAgainst py p r) = flows.flatMap (spikesAgainst py p r')) :
      r = r' := by
    obtain ⟨mid, rfl, hs⟩ := (Option.any_eq_true _ _).mp hr
    have hmem : spikeFinding py mid f ∈ flows.flatMap (spikesAgainst py p (some mid)) :=
      List.mem_flatMap.mpr ⟨f, hf, by simp [spikesAgainst, hs]⟩
    rw [heq] at hmem
    exact (eq_of_spikeFinding_mem py p hmem).symm
  constructor
  · intro heq
    by_cases href : ref = ref'
    · exact Or.inl href
    · refine Or.inr fun f hf => ⟨fun hr => href (hside _ _ hf hr heq), fun hr => ?_⟩
      exact href (hside _ _ hf hr heq.symm).symm
  · rintro (rfl | hnone)
    · rfl
    · refine List.flatMap_congr fun f hf => ?_
      rw [spikesAgainst_of_not py p (hnone f hf).1, spikesAgainst_of_not py p (hnone f hf).2]

/-! ## All rules -/

variable {py p}

/-- A rule concludes for a tenant from its events alone. -/
def Isolated (settings : RuleSettings) (rule : Rule) : Prop :=
  Separates Item.tenant (rule.check settings (rule.params settings))

variable {settings : RuleSettings}

theorem isolated_concluding {spec : RuleSpec} {check : Params → List EventRow → List Finding}
    (h : ∀ p, Separates Finding.tenant (check p)) : Isolated settings (concluding spec check) :=
  Separates.map (h (spec.params settings))

theorem isolated_retracting {spec : RuleSpec} {check : Params → List EventRow → List Retraction}
    (h : ∀ p, Separates Retraction.tenant (check p)) : Isolated settings (retracting spec check) :=
  Separates.map (h (spec.params settings))

variable (py) in
theorem rules_eq : rules py =
    (rules py).dropLast ++ [concluding trafficSpikeSpec (trafficVolumeSpike py)] := rfl

variable (py) in
theorem isolated_of_mem_dropLast (settings : RuleSettings) :
    ∀ rule ∈ (rules py).dropLast, Isolated settings rule := by
  simp only [rules, List.dropLast, List.forall_mem_cons, List.not_mem_nil, false_implies,
    implies_true, and_true]
  exact ⟨isolated_concluding (separates_blockedTraffic py),
    isolated_concluding separates_highSeverityLog, isolated_concluding (separates_configChange py),
    isolated_concluding (separates_interfaceDown py),
    isolated_retracting (separates_interfaceRecovered py),
    isolated_concluding (separates_baselineSpike py), isolated_concluding (separates_newTalker py),
    isolated_concluding (separates_unknownExporter py),
    isolated_concluding (separates_topTalker py),
    isolated_retracting (separates_baselineNormal py),
    isolated_concluding (separates_interfaceFlapping py),
    Separates.map (separates_blastRadius py _ _), isolated_concluding separates_deviceUnreachable,
    isolated_concluding separates_interfaceErrors, isolated_concluding (separates_deviceLoad py)⟩

theorem Isolated.produce {rule : Rule} (h : Isolated settings rule) (w : Window) (tenant : String) :
    ofTenant tenant (rule.produce settings w.rows) =
      rule.produce settings (eventsOf tenant w.rows) := by
  unfold ofTenant Rule.produce
  rw [List.filter_map, ← h w tenant]
  rfl

theorem ofTenant_flatMap_produce {rs : List Rule}
    (h : ∀ rule ∈ rs, Isolated settings rule) (w : Window) (tenant : String) :
    ofTenant tenant (rs.flatMap (Rule.produce settings w.rows)) =
      rs.flatMap (Rule.produce settings (eventsOf tenant w.rows)) := by
  induction rs with
  | nil => rfl
  | cons rule rs ih =>
    have hrule := (h rule List.mem_cons_self).produce w tenant
    have hrest := ih (List.forall_mem_cons.mp h).2
    rw [List.flatMap_cons, List.flatMap_cons, ofTenant, List.filter_append, ← ofTenant,
      ← ofTenant, hrule, hrest]

variable (py) in
/-- The rules but the last. -/
def otherRules (settings : RuleSettings) (only : Option (List String)) (events : List EventRow) :
    List Produced :=
  ((rules py).dropLast.filter fun rule => only.all fun ids => rule.id ∈ ids).flatMap
    (Rule.produce settings events)

variable (py) in
/-- What `TRAFFIC_SPIKE_001` concludes for a tenant, given what its flows are compared with. -/
def spikes (settings : RuleSettings) (only : Option (List String)) (ref : Option Json)
    (flows : List EventRow) : List Produced :=
  if only.all (fun ids => trafficSpikeSpec.id ∈ ids) then
    (flows.flatMap (spikesAgainst py (trafficSpikeSpec.params settings) ref)).map fun f =>
      ⟨trafficSpikeSpec.id, trafficSpikeSpec.version, trafficSpikeSpec.params settings, .finding f⟩
  else []

theorem ofTenant_evaluate (settings : RuleSettings) (only : Option (List String)) (w : Window)
    (tenant : String) :
    ofTenant tenant (evaluate py settings only w.rows) =
      otherRules py settings only (eventsOf tenant w.rows) ++
        spikes py settings only (reference py (trafficSpikeSpec.params settings) w.rows)
          (comparedFlows py (trafficSpikeSpec.params settings) (eventsOf tenant w.rows)) := by
  have hothers : ∀ rule ∈ (rules py).dropLast.filter (fun rule =>
      only.all fun ids => rule.id ∈ ids), Isolated settings rule :=
    fun rule hrule => isolated_of_mem_dropLast py settings rule (List.mem_filter.mp hrule).1
  have hspikes := trafficVolumeSpike_ofTenant py (trafficSpikeSpec.params settings) tenant w.rows
  unfold evaluate
  rw [rules_eq, List.filter_append, List.flatMap_append, ofTenant, List.filter_append, ← ofTenant,
    ofTenant_flatMap_produce hothers]
  refine congrArg (otherRules py settings only (eventsOf tenant w.rows) ++ ·) ?_
  unfold spikes
  by_cases honly : only.all (fun ids => trafficSpikeSpec.id ∈ ids) = true
  · rw [List.filter_cons_of_pos (by exact honly), if_pos honly, ← hspikes]
    show ((concluding trafficSpikeSpec (trafficVolumeSpike py)).produce settings w.rows ++
      []).filter _ = _
    rw [List.append_nil, Rule.produce, List.filter_map]
    show ((((trafficVolumeSpike py _ w.rows).map Item.finding).filter _).map _) = _
    rw [List.filter_map, List.map_map]
    rfl
  · rw [List.filter_cons_of_neg (by exact honly), if_neg honly]
    rfl

/-- The flows of the two windows have the same median, or no flow of the tenant reaches it. -/
def SameComparison (py : Python) (settings : RuleSettings) (tenant : String) (w w' : Window) :
    Prop :=
  reference py (trafficSpikeSpec.params settings) w.rows =
      reference py (trafficSpikeSpec.params settings) w'.rows ∨
    ∀ f ∈ comparedFlows py (trafficSpikeSpec.params settings) (eventsOf tenant w.rows),
      ¬ Reaches (trafficSpikeSpec.params settings)
          (reference py (trafficSpikeSpec.params settings) w.rows) f ∧
        ¬ Reaches (trafficSpikeSpec.params settings)
          (reference py (trafficSpikeSpec.params settings) w'.rows) f

theorem spikes_eq_iff {only : Option (List String)} {ref' : Option Json} :
    spikes py settings only ref flows = spikes py settings only ref' flows ↔
      (only.all (fun ids => trafficSpikeSpec.id ∈ ids) = true →
        ref = ref' ∨ ∀ f ∈ flows, ¬ Reaches (trafficSpikeSpec.params settings) ref f ∧
          ¬ Reaches (trafficSpikeSpec.params settings) ref' f) := by
  unfold spikes
  by_cases honly : only.all (fun ids => trafficSpikeSpec.id ∈ ids) = true
  · rw [if_pos honly, if_pos honly, List.map_inj_right, flatMap_spikesAgainst_eq_iff]
    · exact ⟨fun h _ => h, fun h => h honly⟩
    · intro f f' hff'
      simpa using hff'
  · rw [if_neg honly, if_neg honly]
    exact ⟨fun _ h => absurd h honly, fun _ => rfl⟩

/-- For two windows with the same events of a tenant, whatever the events of the others, the rules
conclude the same for it exactly if its flows are compared with the same. -/
theorem evaluate_eq_iff (settings : RuleSettings) (only : Option (List String)) {w w' : Window}
    {tenant : String} (h : eventsOf tenant w.rows = eventsOf tenant w'.rows) :
    ofTenant tenant (evaluate py settings only w.rows) =
        ofTenant tenant (evaluate py settings only w'.rows) ↔
      (only.all (fun ids => trafficSpikeSpec.id ∈ ids) = true →
        SameComparison py settings tenant w w') := by
  rw [ofTenant_evaluate, ofTenant_evaluate, ← h, List.append_right_inj, spikes_eq_iff]
  rfl

/-! ## A window of two tenants -/

def sizedFlow (id : ℕ) (tenant : String) (bytes : ℤ) : EventRow where
  ts := 1700000000
  ingestedTs := 1700000060
  tenant := tenant
  source := "netflow"
  eventType := "flow.aggregate"
  entityType := "flow"
  entityId := "10.0.0.1>10.0.0.2"
  srcIp := some "10.0.0.1"
  dstIp := some "10.0.0.2"
  metrics := [("bytes", .int bytes)]
  dedupKey := "flow:" ++ str id
  id := id
  measures := rfl
  texts := EventRow.texts_nil

/-- Five flows of a tenant, the last one of a given size. -/
def ownFlows (size : ℤ) : List EventRow :=
  [sizedFlow 1 "a" 100, sizedFlow 2 "a" 100, sizedFlow 3 "a" 100, sizedFlow 4 "a" 100,
    sizedFlow 5 "a" size]

/-- Six large flows of another tenant. -/
def largeFlows : List EventRow :=
  [sizedFlow 6 "b" 1000000, sizedFlow 7 "b" 1000000, sizedFlow 8 "b" 1000000,
    sizedFlow 9 "b" 1000000, sizedFlow 10 "b" 1000000, sizedFlow 11 "b" 1000000]

/-- The tenant alone. -/
def loneWindow (size : ℤ) : Window where
  rows := ownFlows size
  distinct := by simp [ownFlows, sizedFlow]

/-- The two tenants. -/
def mixedWindow (size : ℤ) : Window where
  rows := ownFlows size ++ largeFlows
  distinct := by simp [ownFlows, largeFlows, sizedFlow]

theorem eventsOf_mixedWindow (size : ℤ) :
    eventsOf "a" (loneWindow size).rows = eventsOf "a" (mixedWindow size).rows := by
  simp [eventsOf, loneWindow, mixedWindow, ownFlows, largeFlows, sizedFlow]

/-- Python, as far as the windows need it: no number with a fraction, no IPv6 address. -/
def plainPython : Python := ⟨fun _ => "", fun _ => none⟩

/-- No flow of the tenant is ten times the median of either window. -/
theorem evaluate_eq_quiet : ofTenant "a" (evaluate plainPython [] none (loneWindow 900).rows) =
    ofTenant "a" (evaluate plainPython [] none (mixedWindow 900).rows) :=
  (evaluate_eq_iff [] none (eventsOf_mixedWindow 900)).mpr fun _ =>
    Or.inr (by unfold Reaches; decide +kernel)

/-- The volumes of another tenant hide the flow of 2000 bytes. -/
theorem spike_hidden : ¬ ∀ (py : Python) (settings : RuleSettings) (only : Option (List String))
    (tenant : String) (w w' : Window), eventsOf tenant w.rows = eventsOf tenant w'.rows →
      ofTenant tenant (evaluate py settings only w.rows) =
        ofTenant tenant (evaluate py settings only w'.rows) := by
  intro hclaim
  have heq := hclaim plainPython [] none "a" _ _ (eventsOf_mixedWindow 2000)
  have hlone : (ofTenant "a" (evaluate plainPython [] none (loneWindow 2000).rows)).length = 1 := by
    decide +kernel
  have hmixed :
      (ofTenant "a" (evaluate plainPython [] none (mixedWindow 2000).rows)).length = 0 := by
    decide +kernel
  rw [heq, hmixed] at hlone
  exact absurd hlone (by decide)

end Rules

end SentinelNet.Observability
