import SentinelNet.Observability.Incidents

/-!
# Closing for quiet

`group_once` takes evidence by the time at which a rule concluded, and `close_stale` closes by the
time of the facts.  An hourly statistic is about an hour that began between 60 and 120 minutes ago,
so the incident it opens is closed in the same cycle.

* `Valid.step`: every action keeps this.
* `run_closesQuiet_iff`: when no incident with recent evidence is closed.
-/

namespace SentinelNet.Observability

/-- Numbers are distinct; each incident has evidence, and its last event is the latest; and
evidence is assigned to incidents that there are. -/
structure Valid (st : IncidentStore) : Prop where
  evidenceIds : UniqueIds st.evidence
  incidentIds : (st.incidents.map Incident.id).Nodup
  latest : ∀ i ∈ st.incidents, ∃ row ∈ st.evidence,
    row.incidentId = some i.id ∧ row.finding.ts = i.lastEventTs
  bound : ∀ i ∈ st.incidents, ∀ row ∈ st.evidence, row.incidentId = some i.id →
    row.finding.ts ≤ i.lastEventTs
  exist : ∀ row ∈ st.evidence, ∀ id, row.incidentId = some id → id ∈ st.incidents.map Incident.id

theorem valid_empty : Valid IncidentStore.empty where
  evidenceIds := List.nodup_nil
  incidentIds := List.nodup_nil
  latest := fun _ h => nomatch h
  bound := fun _ h => nomatch h
  exist := fun _ h => nomatch h

/-! ## Cycles of the correlator -/

variable {st : IncidentStore}

theorem Valid.correlate (h : Valid st) (env : Environment) (now : ℤ)
    (window : Window) : Valid (st.step (.correlate env now window)) where
  evidenceIds := h.evidenceIds.correlateOnce
  incidentIds := h.incidentIds
  latest := by
    intro i hi
    obtain ⟨row, hrow, hid, hts⟩ := h.latest i hi
    obtain ⟨mark, hmark⟩ := @exists_mem_correlateOnce env now _ row window.rows hrow
    exact ⟨_, hmark, hid, hts⟩
  bound := by
    intro i hi row hrow hid
    obtain ⟨old, hold, mark, rfl⟩ := exists_of_assigned h.evidenceIds hrow hid
    exact h.bound i hi old hold hid
  exist := by
    intro row hrow id hid
    obtain ⟨old, hold, mark, rfl⟩ := exists_of_assigned h.evidenceIds hrow hid
    exact h.exist old hold id hid

/-! ## Updates of incidents -/

theorem Valid.mapIncidents {st' : IncidentStore} (h : Valid st) {f : Incident → Incident}
    (hf : ∀ i, (f i).id = i.id ∧ (f i).lastEventTs = i.lastEventTs)
    (hevidence : st'.evidence = st.evidence) (hincidents : st'.incidents = st.incidents.map f) :
    Valid st' := by
  have hids : st'.incidents.map Incident.id = st.incidents.map Incident.id := by
    rw [hincidents, List.map_map]
    exact List.map_congr_left fun i _ => (hf i).1
  constructor
  · rw [hevidence]
    exact h.evidenceIds
  · rw [hids]
    exact h.incidentIds
  · intro j hj
    rw [hincidents] at hj
    obtain ⟨i, hi, rfl⟩ := List.mem_map.mp hj
    rw [hevidence, (hf i).1, (hf i).2]
    exact h.latest i hi
  · intro j hj
    rw [hincidents] at hj
    obtain ⟨i, hi, rfl⟩ := List.mem_map.mp hj
    rw [hevidence, (hf i).1, (hf i).2]
    exact h.bound i hi
  · rw [hevidence, hids]
    exact h.exist

theorem close_keeps (now : ℤ) (i : Incident) :
    (i.close now).id = i.id ∧ (i.close now).lastEventTs = i.lastEventTs := by
  unfold Incident.close
  split
  · exact ⟨rfl, rfl⟩
  · exact ⟨rfl, rfl⟩

theorem conclude_keeps (id : ℕ) (cause : String) (confidence : ℤ) (reasoning : Json)
    (title : String) (i : Incident) :
    (i.conclude id cause confidence reasoning title).id = i.id ∧
      (i.conclude id cause confidence reasoning title).lastEventTs = i.lastEventTs := by
  unfold Incident.conclude
  split
  · exact ⟨rfl, rfl⟩
  · exact ⟨rfl, rfl⟩

theorem Valid.closeStale {st : IncidentStore} (h : Valid st) (now : ℤ) : Valid (closeStale now st) :=
  h.mapIncidents (close_keeps now) rfl rfl

theorem Valid.reason {st : IncidentStore} (h : Valid st) (reading : Reading) (id : ℕ) :
    Valid (reason reading st id) := by
  have hid : st.incidents = st.incidents.map fun i => i := (List.map_id' _).symm
  unfold Observability.reason
  split
  · exact h
  · dsimp only
    split
    · split
      · exact h.mapIncidents (fun _ => ⟨rfl, rfl⟩) rfl hid
      · exact h.mapIncidents (fun _ => ⟨rfl, rfl⟩) rfl hid
    · exact h.mapIncidents (conclude_keeps _ _ _ _ _) rfl rfl

theorem Valid.foldl_reason (h : Valid st) (reading : Reading) (ids : List ℕ) :
    Valid (ids.foldl (Observability.reason reading) st) := by
  induction ids generalizing st with
  | nil => exact h
  | cons id ids ih => exact ih (h.reason reading id)

theorem evidence_reason (reading : Reading) (st : IncidentStore) (id : ℕ) :
    (reason reading st id).evidence = st.evidence := by
  unfold reason
  split
  · rfl
  · dsimp only
    split
    · split
      · rfl
      · rfl
    · rfl

theorem evidence_foldl_reason (reading : Reading) (ids : List ℕ) (st : IncidentStore) :
    (ids.foldl (reason reading) st).evidence = st.evidence := by
  induction ids generalizing st with
  | nil => rfl
  | cons id ids ih => exact (ih _).trans (evidence_reason reading st id)

/-! ## Assignment -/

@[simp] theorem assign_id (rowId id : ℕ) (e : Evidence) : (e.assign rowId id).id = e.id := by
  unfold Evidence.assign
  split
  · rfl
  · rfl

theorem map_assign_id (rowId id : ℕ) (evidence : List Evidence) :
    (evidence.map (Evidence.assign rowId id)).map Evidence.id = evidence.map Evidence.id := by
  rw [List.map_map]
  exact List.map_congr_left fun e _ => assign_id rowId id e

variable {row : Evidence}

theorem mem_map_assign {evidence : List Evidence} (hids : UniqueIds evidence)
    (hrow : row ∈ evidence) {id : ℕ} {e : Evidence} :
    e ∈ evidence.map (Evidence.assign row.id id) ↔
      e = { row with incidentId := some id } ∨ (e ∈ evidence ∧ e.id ≠ row.id) := by
  constructor
  · intro he
    obtain ⟨old, hold, rfl⟩ := List.mem_map.mp he
    unfold Evidence.assign
    split
    · next hid =>
      have hsame := List.inj_on_of_nodup_map hids hold hrow hid
      exact Or.inl (by rw [hsame])
    · next hid => exact Or.inr ⟨hold, hid⟩
  · rintro (rfl | ⟨he, hid⟩)
    · exact List.mem_map.mpr ⟨row, hrow, if_pos rfl⟩
    · exact List.mem_map.mpr ⟨e, he, if_neg hid⟩

theorem incidentFor_cases (incidents : List Incident) (row : Evidence) :
    ((incidentFor incidents row).1 ∈ incidents.map Incident.id ∧
        (incidentFor incidents row).2 = incidents) ∨
      ((incidentFor incidents row).1 = (newIncident incidents row).id ∧
        (incidentFor incidents row).2 = incidents ++ [newIncident incidents row]) := by
  unfold incidentFor
  split
  · next i hi =>
    have hmem := List.mem_of_mem_head? (Option.mem_def.mpr hi)
    rw [List.mem_insertionSort] at hmem
    exact Or.inl ⟨List.mem_map_of_mem (List.mem_filter.mp hmem).1, rfl⟩
  · exact Or.inr ⟨rfl, rfl⟩

theorem mem_incidentFor {incidents : List Incident} {i : Incident}
    (h : i ∈ (incidentFor incidents row).2) :
    i ∈ incidents ∨ i = newIncident incidents row ∧ i.id = (incidentFor incidents row).1 := by
  rcases incidentFor_cases incidents row with ⟨-, heq⟩ | ⟨hid, heq⟩
  · rw [heq] at h
    exact Or.inl h
  · rw [heq] at h
    rcases List.mem_append.mp h with h | h
    · exact Or.inl h
    · rw [List.mem_singleton.mp h, hid]
      exact Or.inr ⟨rfl, rfl⟩

theorem absorb_id (row : Evidence) (id : ℕ) (i : Incident) : (i.absorb row id).id = i.id := by
  unfold Incident.absorb
  split
  · rfl
  · rfl

theorem absorb_lastEventTs (row : Evidence) (id : ℕ) (i : Incident) :
    (i.absorb row id).lastEventTs =
      if i.id = id then max i.lastEventTs row.finding.ts else i.lastEventTs := by
  unfold Incident.absorb
  split
  · rfl
  · rfl

theorem nodup_incidentFor {incidents : List Incident} (h : (incidents.map Incident.id).Nodup)
    (row : Evidence) : ((incidentFor incidents row).2.map Incident.id).Nodup := by
  rcases incidentFor_cases incidents row with ⟨-, heq⟩ | ⟨-, heq⟩
  · rw [heq]
    exact h
  · rw [heq, List.map_append]
    exact RowIds.nodup_concat_next h

theorem incidentFor_mem (incidents : List Incident) (row : Evidence) :
    (incidentFor incidents row).1 ∈ (incidentFor incidents row).2.map Incident.id := by
  rcases incidentFor_cases incidents row with ⟨hmem, heq⟩ | ⟨hid, heq⟩
  · rw [heq]
    exact hmem
  · rw [heq, hid, List.map_append]
    exact List.mem_append_right _ (List.mem_singleton_self _)

def assigned (st : IncidentStore) (row : Evidence) : IncidentStore :=
  { st with
    evidence := st.evidence.map (Evidence.assign row.id (incidentFor st.incidents row).1)
    incidents := (incidentFor st.incidents row).2.map
      (Incident.absorb row (incidentFor st.incidents row).1) }

theorem Valid.assigned {st : IncidentStore} (h : Valid st) {row : Evidence} (hrow : row ∈ st.evidence)
    (hfree : row.incidentId = none) : Valid (assigned st row) := by
  have hmem {e : Evidence} := @mem_map_assign _ _ h.evidenceIds hrow (incidentFor st.incidents row).1 e
  have hids : (Observability.assigned st row).incidents.map Incident.id =
      (incidentFor st.incidents row).2.map Incident.id := by
    show ((incidentFor st.incidents row).2.map _).map Incident.id = _
    rw [List.map_map]
    exact List.map_congr_left fun i _ => absorb_id _ _ i
  -- an old row that is assigned is not the one assigned now
  have hother {e : Evidence} {id : ℕ} (he : e ∈ st.evidence) (hid : e.incidentId = some id) :
      e.id ≠ row.id := by
    intro hsame
    rw [List.inj_on_of_nodup_map h.evidenceIds he hrow hsame, hfree] at hid
    simp at hid
  have hnew {e : Evidence} (he : e ∈ st.evidence) :
      e.incidentId ≠ some (newIncident st.incidents row).id := fun hid =>
    RowIds.next_not_mem _ (h.exist e he _ hid)
  constructor
  · show ((st.evidence.map _).map Evidence.id).Nodup
    rw [map_assign_id]
    exact h.evidenceIds
  · rw [hids]
    exact nodup_incidentFor h.incidentIds row
  · intro j hj
    obtain ⟨i, hi, rfl⟩ := List.mem_map.mp hj
    rw [absorb_id, absorb_lastEventTs]
    have hnow : i.id = (incidentFor st.incidents row).1 →
        ∃ e ∈ (Observability.assigned st row).evidence, e.incidentId = some i.id ∧
          e.finding.ts = row.finding.ts :=
      fun hid => ⟨_, hmem.mpr (Or.inl rfl), congrArg some hid.symm, rfl⟩
    have hold : i ∈ st.incidents → ∃ e ∈ (Observability.assigned st row).evidence,
        e.incidentId = some i.id ∧ e.finding.ts = i.lastEventTs := by
      intro hi
      obtain ⟨e, he, hassigned, hts⟩ := h.latest i hi
      exact ⟨e, hmem.mpr (Or.inr ⟨he, hother he hassigned⟩), hassigned, hts⟩
    rcases mem_incidentFor hi with hi | ⟨hi, hid⟩
    · split
      · next hid =>
        rcases le_total i.lastEventTs row.finding.ts with hle | hle
        · rw [max_eq_right hle]
          exact hnow hid
        · rw [max_eq_left hle]
          exact hold hi
      · exact hold hi
    · have hts : i.lastEventTs = row.finding.ts := by rw [hi]; rfl
      rw [if_pos hid, hts, max_self]
      exact hnow hid
  · intro j hj e he hassigned
    obtain ⟨i, hi, rfl⟩ := List.mem_map.mp hj
    rw [absorb_id] at hassigned
    rw [absorb_lastEventTs]
    rcases hmem.mp he with rfl | ⟨he, -⟩
    · rw [if_pos (Option.some.inj hassigned).symm]
      exact le_max_right _ _
    · rcases mem_incidentFor hi with hi | ⟨hi, -⟩
      · have hbound := h.bound i hi e he hassigned
        split
        · exact hbound.trans (le_max_left _ _)
        · exact hbound
      · rw [hi] at hassigned
        exact absurd hassigned (hnew he)
  · intro e he id hassigned
    rw [hids]
    rcases hmem.mp he with rfl | ⟨he, -⟩
    · rw [← Option.some.inj hassigned]
      exact incidentFor_mem _ _
    · have hexist := h.exist e he id hassigned
      rcases incidentFor_cases st.incidents row with ⟨-, heq⟩ | ⟨-, heq⟩
      · rw [heq]
        exact hexist
      · rw [heq, List.map_append]
        exact List.mem_append_left _ hexist

theorem foldl_assignRow {I : IncidentStore → Prop}
    (hstep : ∀ st row, Valid st → I st → row ∈ st.evidence → row.incidentId = none →
      I (assigned st row)) {rows : List Evidence} {acc : IncidentStore × List ℕ} (hvalid : Valid acc.1)
    (hI : I acc.1) (hrows : ∀ row ∈ rows, row ∈ acc.1.evidence ∧ row.incidentId = none)
    (hnodup : (rows.map Evidence.id).Nodup) :
    Valid (rows.foldl assignRow acc).1 ∧ I (rows.foldl assignRow acc).1 := by
  induction rows generalizing acc with
  | nil => exact ⟨hvalid, hI⟩
  | cons row rows ih =>
    rw [List.map_cons, List.nodup_cons] at hnodup
    have hrest : ∀ r ∈ rows, r ∈ acc.1.evidence ∧ r.incidentId = none :=
      (List.forall_mem_cons.mp hrows).2
    obtain ⟨hrow, hfree⟩ := hrows row List.mem_cons_self
    rw [List.foldl_cons]
    by_cases hkey : row.finding.entityKey = ""
    · rw [assignRow, if_pos hkey]
      exact ih hvalid hI hrest hnodup.2
    · have hassigned : assignRow acc row =
          (assigned acc.1 row, acc.2 ++ [(incidentFor acc.1.incidents row).1]) := if_neg hkey
      rw [hassigned]
      refine ih (hvalid.assigned hrow hfree) (hstep _ _ hvalid hI hrow hfree) (fun r hr => ?_)
        hnodup.2
      have hne : r.id ≠ row.id := fun h => hnodup.1 (h ▸ List.mem_map_of_mem hr)
      exact ⟨(mem_map_assign hvalid.evidenceIds hrow).mpr (Or.inr ⟨(hrest r hr).1, hne⟩),
        (hrest r hr).2⟩

theorem nodup_unassigned (h : Valid st) (now : ℤ) :
    ((unassigned now st.evidence).map Evidence.id).Nodup :=
  (((List.perm_insertionSort evidenceLe _).map Evidence.id).nodup_iff).mpr
    (h.evidenceIds.sublist (List.filter_sublist.map _))

theorem mem_unassigned {now : ℤ} {evidence : List Evidence}
    (h : row ∈ unassigned now evidence) : row ∈ evidence ∧ row.incidentId = none := by
  rw [unassigned, List.mem_insertionSort, List.mem_filter] at h
  have hfree : row.incidentId.isNone = true := by
    have hall := h.2
    simp only [Bool.and_eq_true] at hall
    exact hall.1.1
  exact ⟨h.1, Option.isNone_iff_eq_none.mp hfree⟩

theorem Valid.assignAll {I : IncidentStore → Prop}
    (hstep : ∀ st row, Valid st → I st → row ∈ st.evidence → row.incidentId = none →
      I (Observability.assigned st row)) {st : IncidentStore} (h : Valid st) (hI : I st) (now : ℤ) :
    Valid (assignAll now st).1 ∧ I (assignAll now st).1 :=
  foldl_assignRow hstep h hI (fun _ hrow => mem_unassigned hrow) (nodup_unassigned h now)

/-! ## Runs -/

theorem Valid.step (h : Valid st) (a : Action) : Valid (st.step a) := by
  cases a with
  | correlate env now window => exact h.correlate env now window
  | group reading now =>
    have hassigned := (h.assignAll (I := fun _ => True) (fun _ _ _ _ _ _ => trivial) trivial now).1
    exact hassigned.foldl_reason reading _
  | closeStale now => exact h.closeStale now
  | reason reading id => exact h.reason reading id

theorem run_mono {P Q : IncidentStore → Action → Prop} (hPQ : ∀ st a, Valid st → P st a → Q st a)
    {st' : IncidentStore} {acts : List Action} (h : Valid st) (hrun : Run P st acts st') :
    Run Q st acts st' := by
  induction hrun with
  | nil st => exact Run.nil st
  | cons hP _ ih => exact Run.cons (hPQ _ _ h hP) (ih (h.step _))

/-! ## Closing -/

/-- No incident is closed to which evidence was assigned that was created within `quietS`. -/
def ClosesOnlyQuiet (st : IncidentStore) : Action → Prop
  | .closeStale now => ∀ i ∈ st.incidents, i.closedTs = none →
      (∃ j ∈ (closeStale now st).incidents, j.id = i.id ∧ j.closedTs ≠ none) →
      ∀ row ∈ st.evidence, row.incidentId = some i.id → row.createdTs < now - quietS
  | _ => True

/-- An open incident with evidence that was created within `quietS` has evidence of a fact within
`quietS`. -/
def RecentFact (st : IncidentStore) : Action → Prop
  | .closeStale now => ∀ i ∈ st.incidents, i.closedTs = none →
      ∀ row ∈ st.evidence, row.incidentId = some i.id → now - quietS ≤ row.createdTs →
      ∃ row' ∈ st.evidence, row'.incidentId = some i.id ∧ now - quietS ≤ row'.finding.ts
  | _ => True

theorem closed_iff (h : Valid st) {i : Incident} (hi : i ∈ st.incidents)
    (hopen : i.closedTs = none) (now : ℤ) :
    (∃ j ∈ (closeStale now st).incidents, j.id = i.id ∧ j.closedTs ≠ none) ↔
      i.lastEventTs < now - quietS := by
  constructor
  · rintro ⟨j, hj, hid, hclosed⟩
    obtain ⟨k, hk, rfl⟩ := List.mem_map.mp hj
    rw [(close_keeps now k).1] at hid
    have hsame := List.inj_on_of_nodup_map h.incidentIds hk hi hid
    rw [hsame] at hclosed
    unfold Incident.close at hclosed
    split at hclosed
    · next hquiet => exact hquiet.2
    · exact absurd hopen hclosed
  · intro hlt
    refine ⟨i.close now, List.mem_map_of_mem hi, (close_keeps now i).1, ?_⟩
    rw [Incident.close, if_pos ⟨hopen, hlt⟩]
    simp

theorem closesOnlyQuiet_iff (h : Valid st) (a : Action) :
    ClosesOnlyQuiet st a ↔ RecentFact st a := by
  cases a with
  | closeStale now =>
    constructor
    · intro hquiet i hi hopen row hrow hassigned hrecent
      have hlast : ¬ i.lastEventTs < now - quietS := fun hlt =>
        absurd (hquiet i hi hopen ((closed_iff h hi hopen now).mpr hlt) row hrow hassigned)
          (not_lt.mpr hrecent)
      obtain ⟨row', hrow', hassigned', hts⟩ := h.latest i hi
      exact ⟨row', hrow', hassigned', hts ▸ not_lt.mp hlast⟩
    · intro hrecent i hi hopen hclosed row hrow hassigned
      have hlast := (closed_iff h hi hopen now).mp hclosed
      by_contra hcreated
      obtain ⟨row', hrow', hassigned', hts⟩ :=
        hrecent i hi hopen row hrow hassigned (not_lt.mp hcreated)
      exact absurd (h.bound i hi row' hrow' hassigned') (not_le.mpr (hlast.trans_le hts))
  | correlate env now window => exact Iff.rfl
  | group reading now => exact Iff.rfl
  | reason reading id => exact Iff.rfl

/-- In every run, the incidents that are closed are quiet exactly if, when incidents are closed,
those with recent evidence have evidence of a recent fact. -/
theorem run_closesOnlyQuiet_iff (acts : List Action) (st : IncidentStore) :
    Run ClosesOnlyQuiet IncidentStore.empty acts st ↔ Run RecentFact IncidentStore.empty acts st :=
  ⟨run_mono (fun _ a h => (closesOnlyQuiet_iff h a).mp) valid_empty,
    run_mono (fun _ a h => (closesOnlyQuiet_iff h a).mpr) valid_empty⟩

/-! ## An hourly statistic -/

/-- A round of `correlation_loop`. -/
structure Cycle where
  env : Environment
  window : Window
  reading : Reading
  now : ℤ

/-- What a round does. -/
def Cycle.actions (c : Cycle) : List Action :=
  [.correlate c.env c.now c.window, .group c.reading c.now, .closeStale c.now]

/-- Python where no number with a fraction, no container and no IPv6 address is shown. -/
def barePython : Python := ⟨fun _ => "", fun _ => none⟩

/-- The default settings, with a hash without collisions. -/
def defaultEnvironment : Environment := ⟨barePython, [], [], fun _ _ => none, id⟩

/-- A recomputation that finds nothing else. -/
def bareReading : Reading := ⟨[], fun _ _ => false, fun _ => 0, fun _ => 0⟩

/-- The measure of the hour from 1699999200. -/
def baselineRow : EventRow where
  ts := 1699999200
  ingestedTs := 1700003100
  tenant := "a"
  source := "baseline"
  eventType := "flow.baseline"
  entityType := "flow"
  entityId := "10.0.0.1"
  srcIp := some "10.0.0.1"
  metrics := [("observed", .int 40000), ("expected", .int 10000), ("deviation_pct", .float 300),
    ("samples", .int 4), ("quality", .float (1 / 2))]
  attrs := [("method", .str "stesso_giorno_stessa_ora"), ("quality_label", .str "MEDIUM")]
  dedupKey := "baseline:a:10.0.0.1:1699999200"
  id := 1
  measures := rfl
  texts := rfl

/-- The round at 1700003100, five minutes after the hour was over. -/
def baselineCycle : Cycle :=
  ⟨defaultEnvironment, ⟨[baselineRow], List.nodup_singleton _⟩, bareReading, 1700003100⟩

/-- The incident that the measure opens is closed in the same round. -/
theorem baseline_closed : ¬ ∀ (cycles : List Cycle) (st : IncidentStore),
    Run (fun _ _ => True) IncidentStore.empty (cycles.flatMap Cycle.actions) st →
      Run ClosesOnlyQuiet IncidentStore.empty (cycles.flatMap Cycle.actions) st := by
  intro hclaim
  have hrun := hclaim [baselineCycle] _
    (Run.cons trivial (Run.cons trivial (Run.cons trivial (Run.nil _))))
  cases hrun with
  | cons _ hrun =>
    cases hrun with
    | cons _ hrun =>
      cases hrun with
      | cons hquiet _ =>
        revert hquiet
        unfold ClosesOnlyQuiet
        decide +kernel

end SentinelNet.Observability
