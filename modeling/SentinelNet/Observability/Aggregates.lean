import SentinelNet.Observability.Quiet

/-!
# Aggregates of incidents

`group_once` keeps the count, the bounds in time and the severity of an incident up to date row by
row, and `prune_once` deletes old rows: evidence that no incident took, and resolved incidents with
all of theirs.

* `Accounted.act`: every action keeps this.
* `aggregates_exact`: all of it, in every run.
* `two_open`: an incident does not close when the next one of its entity opens.
-/

namespace SentinelNet.Observability

/-! ## Arrival and retention -/

/-- `INSERT OR IGNORE INTO evidence`: a row of its own, assigned to no incident, unless the key is
there. -/
def IncidentStore.insert (st : IncidentStore) (draft : Evidence) : IncidentStore :=
  if st.evidence.any fun e => e.dedupKey = draft.dedupKey then st
  else
    { st with
      evidence := st.evidence ++
        [{ draft with
            id := nextEvidenceId st.evidence
            incidentId := none
            retraction := none }] }

/-- The time before which rows are deleted, if they are kept for a number of days. -/
def retentionCutoff (now : ℤ) (days : Option ℤ) : Option ℤ :=
  (days.filter fun d => 0 < d).map fun d => now - d * 86400

def Incident.expired (cutoff : Option ℤ) (resolvedTs : ℕ → Option ℤ) (i : Incident) : Bool :=
  cutoff.any fun c => (resolvedTs i.id).any fun t => t < c

/-- `prune_once` on `evidence` and `incidents`; `resolvedTs` is the time at which an incident with
the status `resolved` was resolved.  The rows of a deleted incident are deleted with it. -/
def IncidentStore.prune (st : IncidentStore) (now : ℤ) (evidenceDays incidentDays : Option ℤ)
    (resolvedTs : ℕ → Option ℤ) : IncidentStore :=
  let gone id := st.incidents.any fun i =>
    i.id = id && i.expired (retentionCutoff now incidentDays) resolvedTs
  { st with
    evidence := (st.evidence.filter fun e =>
      !(e.incidentId.isNone && (retentionCutoff now evidenceDays).any fun c => e.finding.ts < c)).filter
        fun e => !(e.incidentId.any gone)
    incidents := st.incidents.filter fun i =>
      !i.expired (retentionCutoff now incidentDays) resolvedTs
    conclusions := st.conclusions.filter fun c => !gone c.incidentId }

/-- Evidence arrives, a cycle runs, old rows are deleted. -/
inductive StoreAction where
  | insert (draft : Evidence)
  | cycle (a : Action)
  | prune (now : ℤ) (evidenceDays incidentDays : Option ℤ) (resolvedTs : ℕ → Option ℤ)

def IncidentStore.act (st : IncidentStore) : StoreAction → IncidentStore
  | .insert draft => st.insert draft
  | .cycle a => st.step a
  | .prune now evidenceDays incidentDays resolvedTs =>
    st.prune now evidenceDays incidentDays resolvedTs

/-! ## Aggregates -/

def assignedTo (evidence : List Evidence) (id : ℕ) : List Evidence :=
  evidence.filter fun e => e.incidentId = some id

/-- What the evidence of an incident says about something. -/
def valuesOf (evidence : List Evidence) (f : Finding → ℤ) (id : ℕ) : Set ℤ :=
  {v | ∃ e ∈ assignedTo evidence id, f e.finding = v}

def severityFrom (f : Finding) : ℤ := f.severity.getD 4

structure Tallied (evidence : List Evidence) (i : Incident) : Prop where
  count : i.eventCount = (assignedTo evidence i.id).length
  opened : IsLeast (valuesOf evidence Finding.ts i.id) i.openedTs
  last : IsGreatest (valuesOf evidence Finding.ts i.id) i.lastEventTs
  severity : IsLeast (valuesOf evidence severityFrom i.id) i.severity

/-- Numbers are distinct, evidence is assigned to incidents of its tenant and its entity, and the
aggregates of every incident are those of its evidence. -/
structure Accounted (st : IncidentStore) : Prop where
  evidenceIds : UniqueIds st.evidence
  incidentIds : (st.incidents.map Incident.id).Nodup
  subject : ∀ e ∈ st.evidence, ∀ id, e.incidentId = some id →
    ∃ i ∈ st.incidents, i.id = id ∧ i.tenant = e.finding.tenant ∧ i.entityKey = e.finding.entityKey
  tallied : ∀ i ∈ st.incidents, Tallied st.evidence i

/-- Evidence of an incident stays evidence of the incident, as long as it is there. -/
def Unmoved (st st' : IncidentStore) : Prop :=
  ∀ e ∈ st.evidence, ∀ id, e.incidentId = some id →
    ∀ e' ∈ st'.evidence, e'.id = e.id → e'.incidentId = some id

/-- A new incident is opened for evidence that is more than `GAP_S` after all evidence of every open
incident of its tenant and its entity. -/
def OpensAfterGap (st st' : IncidentStore) : Prop :=
  ∀ j ∈ st'.incidents, j.id ∉ st.incidents.map Incident.id →
    ∃ e ∈ assignedTo st'.evidence j.id, ∀ i ∈ st.incidents, i.closedTs = none →
      i.tenant = j.tenant → i.entityKey = j.entityKey → i.lastEventTs < e.finding.ts - gapS

theorem mem_assignedTo {evidence : List Evidence} {id : ℕ} {e : Evidence} :
    e ∈ assignedTo evidence id ↔ e ∈ evidence ∧ e.incidentId = some id := by
  rw [assignedTo, List.mem_filter, decide_eq_true_iff]

variable {st : IncidentStore}

theorem Accounted.valid (h : Accounted st) : Valid st where
  evidenceIds := h.evidenceIds
  incidentIds := h.incidentIds
  latest i hi := by
    obtain ⟨e, he, hts⟩ := (h.tallied i hi).last.1
    obtain ⟨hmem, hid⟩ := mem_assignedTo.mp he
    exact ⟨e, hmem, hid, hts⟩
  bound i hi e he hid := (h.tallied i hi).last.2 ⟨e, mem_assignedTo.mpr ⟨he, hid⟩, rfl⟩
  exist e he id hid := by
    obtain ⟨i, hi, rfl, -⟩ := h.subject e he id hid
    exact List.mem_map_of_mem hi

theorem accounted_empty : Accounted IncidentStore.empty where
  evidenceIds := List.nodup_nil
  incidentIds := List.nodup_nil
  subject _ he := nomatch he
  tallied _ hi := nomatch hi

/-! ## Evidence as it was -/

/-- The evidence of an incident is as it was, maybe taken back. -/
structure SameEvidence (evidence evidence' : List Evidence) (id : ℕ) : Prop where
  old : ∀ e' ∈ assignedTo evidence' id, ∃ e ∈ evidence, ∃ mark, e' = { e with retraction := mark }
  kept : ∀ e ∈ assignedTo evidence id, ∃ mark, { e with retraction := mark } ∈ evidence'

theorem length_eq_of_ids {l l' : List Evidence} (h : UniqueIds l) (h' : UniqueIds l')
    (hmem : ∀ n, n ∈ l.map Evidence.id ↔ n ∈ l'.map Evidence.id) : l.length = l'.length := by
  have hperm := ((List.perm_ext_iff_of_nodup h h').mpr hmem).length_eq
  rwa [List.length_map, List.length_map] at hperm

theorem uniqueIds_assignedTo {evidence : List Evidence} (h : UniqueIds evidence) (id : ℕ) :
    UniqueIds (assignedTo evidence id) := h.sublist (List.filter_sublist.map _)

section Same

variable {evidence evidence' : List Evidence} {id : ℕ}

theorem SameEvidence.length_eq (h : SameEvidence evidence evidence' id) (hids : UniqueIds evidence)
    (hids' : UniqueIds evidence') :
    (assignedTo evidence' id).length = (assignedTo evidence id).length := by
  refine length_eq_of_ids (uniqueIds_assignedTo hids' id) (uniqueIds_assignedTo hids id) fun n => ?_
  constructor
  · intro hn
    obtain ⟨e', he', rfl⟩ := List.mem_map.mp hn
    obtain ⟨e, he, mark, rfl⟩ := h.old e' he'
    exact List.mem_map.mpr ⟨e, mem_assignedTo.mpr ⟨he, (mem_assignedTo.mp he').2⟩, rfl⟩
  · intro hn
    obtain ⟨e, he, rfl⟩ := List.mem_map.mp hn
    obtain ⟨mark, hmark⟩ := h.kept e he
    exact List.mem_map.mpr ⟨_, mem_assignedTo.mpr ⟨hmark, (mem_assignedTo.mp he).2⟩, rfl⟩

theorem SameEvidence.valuesOf_eq (h : SameEvidence evidence evidence' id) (f : Finding → ℤ) :
    valuesOf evidence' f id = valuesOf evidence f id := by
  ext v
  constructor
  · rintro ⟨e', he', rfl⟩
    obtain ⟨e, he, mark, rfl⟩ := h.old e' he'
    exact ⟨e, mem_assignedTo.mpr ⟨he, (mem_assignedTo.mp he').2⟩, rfl⟩
  · rintro ⟨e, he, rfl⟩
    obtain ⟨mark, hmark⟩ := h.kept e he
    exact ⟨_, mem_assignedTo.mpr ⟨hmark, (mem_assignedTo.mp he).2⟩, rfl⟩

end Same

/-- Two rows of an incident, with another conclusion or closed in between. -/
structure SameAggregates (i i' : Incident) : Prop where
  id : i'.id = i.id
  tenant : i'.tenant = i.tenant
  entityKey : i'.entityKey = i.entityKey
  count : i'.eventCount = i.eventCount
  opened : i'.openedTs = i.openedTs
  last : i'.lastEventTs = i.lastEventTs
  severity : i'.severity = i.severity

theorem SameAggregates.refl (i : Incident) : SameAggregates i i := ⟨rfl, rfl, rfl, rfl, rfl, rfl, rfl⟩

variable {i : Incident}

theorem SameAggregates.trans {i' i'' : Incident} (h : SameAggregates i i')
    (h' : SameAggregates i' i'') : SameAggregates i i'' :=
  ⟨h'.id.trans h.id, h'.tenant.trans h.tenant, h'.entityKey.trans h.entityKey,
    h'.count.trans h.count, h'.opened.trans h.opened, h'.last.trans h.last,
    h'.severity.trans h.severity⟩

theorem sameAggregates_close (now : ℤ) (i : Incident) : SameAggregates i (i.close now) := by
  unfold Incident.close
  split
  · exact ⟨rfl, rfl, rfl, rfl, rfl, rfl, rfl⟩
  · exact SameAggregates.refl i

theorem sameAggregates_conclude (id : ℕ) (cause : String) (confidence : ℤ) (reasoning : Json)
    (title : String) (i : Incident) :
    SameAggregates i (i.conclude id cause confidence reasoning title) := by
  unfold Incident.conclude
  split
  · exact ⟨rfl, rfl, rfl, rfl, rfl, rfl, rfl⟩
  · exact SameAggregates.refl i

theorem Tallied.of_same {evidence evidence' : List Evidence} {i' : Incident}
    (h : Tallied evidence i) (hsame : SameEvidence evidence evidence' i.id) (hkept : SameAggregates i i')
    (hids : UniqueIds evidence) (hids' : UniqueIds evidence') : Tallied evidence' i' where
  count := by
    rw [hkept.id, hsame.length_eq hids hids', hkept.count]
    exact h.count
  opened := by
    rw [hkept.id, hsame.valuesOf_eq, hkept.opened]
    exact h.opened
  last := by
    rw [hkept.id, hsame.valuesOf_eq, hkept.last]
    exact h.last
  severity := by
    rw [hkept.id, hsame.valuesOf_eq, hkept.severity]
    exact h.severity

variable {st' : IncidentStore}

theorem Accounted.of_same (h : Accounted st) (hids : UniqueIds st'.evidence)
    (hincidents : (st'.incidents.map Incident.id).Nodup)
    (hold : ∀ i' ∈ st'.incidents, ∃ i ∈ st.incidents, SameAggregates i i' ∧
      SameEvidence st.evidence st'.evidence i.id)
    (hsubject : ∀ e ∈ st'.evidence, ∀ id, e.incidentId = some id → ∃ i ∈ st'.incidents,
      i.id = id ∧ i.tenant = e.finding.tenant ∧ i.entityKey = e.finding.entityKey) : Accounted st' where
  evidenceIds := hids
  incidentIds := hincidents
  subject := hsubject
  tallied i' hi' := by
    obtain ⟨i, hi, hkept, hsame⟩ := hold i' hi'
    exact (h.tallied i hi).of_same hsame hkept h.evidenceIds hids

theorem SameEvidence.refl (evidence : List Evidence) (id : ℕ) :
    SameEvidence evidence evidence id where
  old e he := ⟨e, (mem_assignedTo.mp he).1, e.retraction, rfl⟩
  kept e he := ⟨e.retraction, (mem_assignedTo.mp he).1⟩

theorem Accounted.of_map (h : Accounted st) {f : Incident → Incident}
    (hf : ∀ i, SameAggregates i (f i)) (hevidence : st'.evidence = st.evidence)
    (hincidents : st'.incidents = st.incidents.map f) : Accounted st' := by
  refine h.of_same (by rw [hevidence]; exact h.evidenceIds) ?_ ?_ ?_
  · have hids : st'.incidents.map Incident.id = st.incidents.map Incident.id := by
      rw [hincidents, List.map_map]
      exact List.map_congr_left fun i _ => (hf i).id
    rw [hids]
    exact h.incidentIds
  · intro i' hi'
    rw [hincidents] at hi'
    obtain ⟨i, hi, rfl⟩ := List.mem_map.mp hi'
    refine ⟨i, hi, hf i, ?_⟩
    rw [hevidence]
    exact SameEvidence.refl _ _
  · intro e he id hid
    rw [hevidence] at he
    obtain ⟨i, hi, rfl, htenant, hentity⟩ := h.subject e he id hid
    refine ⟨f i, ?_, (hf i).id, (hf i).tenant.trans htenant, (hf i).entityKey.trans hentity⟩
    rw [hincidents]
    exact List.mem_map_of_mem hi

/-! ## Arrival, correlation and retention -/

theorem Accounted.of_evidence (h : Accounted st) {evidence : List Evidence}
    (hids : UniqueIds evidence)
    (hold : ∀ e' ∈ evidence, ∀ id, e'.incidentId = some id →
      ∃ e ∈ st.evidence, ∃ mark, e' = { e with retraction := mark })
    (hkept : ∀ e ∈ st.evidence, ∃ mark, { e with retraction := mark } ∈ evidence) :
    Accounted { st with evidence := evidence } := by
  refine h.of_same hids h.incidentIds (fun i hi => ⟨i, hi, SameAggregates.refl i, ?_⟩) ?_
  · refine ⟨fun e he => ?_, fun e he => hkept e (mem_assignedTo.mp he).1⟩
    obtain ⟨hmem, hid⟩ := mem_assignedTo.mp he
    exact hold e hmem i.id hid
  · intro e' he' id hid
    obtain ⟨e, he, mark, rfl⟩ := hold e' he' id hid
    exact h.subject e he id hid

theorem mem_insert {draft e : Evidence} (h : e ∈ (st.insert draft).evidence) :
    e ∈ st.evidence ∨ e.incidentId = none ∧ e.id = nextEvidenceId st.evidence := by
  rw [IncidentStore.insert] at h
  split at h
  · exact Or.inl h
  · rcases List.mem_append.mp h with h | h
    · exact Or.inl h
    · rw [List.mem_singleton.mp h]
      exact Or.inr ⟨rfl, rfl⟩

theorem Accounted.insert (h : Accounted st) (draft : Evidence) : Accounted (st.insert draft) := by
  rw [IncidentStore.insert]
  split
  · exact h
  · refine h.of_evidence ?_ (fun e' he' id hid => ?_) fun e he => ?_
    · rw [UniqueIds, List.map_append]
      exact RowIds.nodup_concat_next h.evidenceIds
    · rcases List.mem_append.mp he' with he' | he'
      · exact ⟨e', he', e'.retraction, rfl⟩
      · rw [List.mem_singleton.mp he'] at hid
        simp at hid
    · exact ⟨e.retraction, List.mem_append_left _ he⟩

theorem Accounted.correlate (h : Accounted st) (env : Environment) (now : ℤ)
    (window : Window) : Accounted (st.step (.correlate env now window)) :=
  h.of_evidence h.evidenceIds.correlateOnce
    (fun _ he' _ hid => exists_of_assigned h.evidenceIds he' hid)
    fun _ he => exists_mem_correlateOnce he

theorem Accounted.closeStale {st : IncidentStore} (h : Accounted st) (now : ℤ) :
    Accounted (closeStale now st) := h.of_map (sameAggregates_close now) rfl rfl

theorem reason_incidents (reading : Reading) (st : IncidentStore) (id : ℕ) :
    ∃ f : Incident → Incident, (∀ i, SameAggregates i (f i)) ∧
      (reason reading st id).incidents = st.incidents.map f := by
  have hid : st.incidents = st.incidents.map fun i => i := (List.map_id' _).symm
  unfold Observability.reason
  split
  · exact ⟨_, SameAggregates.refl, hid⟩
  · dsimp only
    split
    · split
      · exact ⟨_, SameAggregates.refl, hid⟩
      · exact ⟨_, SameAggregates.refl, hid⟩
    · exact ⟨_, sameAggregates_conclude _ _ _ _ _, rfl⟩

theorem foldl_reason_incidents (reading : Reading) (ids : List ℕ) (st : IncidentStore) :
    ∃ f : Incident → Incident, (∀ i, SameAggregates i (f i)) ∧
      (ids.foldl (reason reading) st).incidents = st.incidents.map f := by
  induction ids generalizing st with
  | nil => exact ⟨_, SameAggregates.refl, (List.map_id' _).symm⟩
  | cons id ids ih =>
    obtain ⟨f, hf, hone⟩ := reason_incidents reading st id
    obtain ⟨g, hg, hrest⟩ := ih (reason reading st id)
    refine ⟨g ∘ f, fun i => (hf i).trans (hg (f i)), ?_⟩
    rw [List.foldl_cons, hrest, hone, List.map_map]

theorem Accounted.foldl_reason (h : Accounted st) (reading : Reading) (ids : List ℕ) :
    Accounted (ids.foldl (reason reading) st) := by
  obtain ⟨f, hf, hincidents⟩ := foldl_reason_incidents reading ids st
  exact h.of_map hf (evidence_foldl_reason reading ids st) hincidents

theorem Accounted.prune (h : Accounted st) (now : ℤ)
    (evidenceDays incidentDays : Option ℤ) (resolvedTs : ℕ → Option ℤ) :
    Accounted (st.prune now evidenceDays incidentDays resolvedTs) := by
  have hmem {e : Evidence}
      (he : e ∈ (st.prune now evidenceDays incidentDays resolvedTs).evidence) :
      e ∈ st.evidence := (List.mem_filter.mp (List.mem_filter.mp he).1).1
  refine h.of_same ?_ ?_ (fun i hi =>
    ⟨i, (List.mem_filter.mp hi).1, SameAggregates.refl i, ?_⟩) ?_
  · exact h.evidenceIds.sublist ((List.filter_sublist.trans List.filter_sublist).map _)
  · exact h.incidentIds.sublist (List.filter_sublist.map _)
  · obtain ⟨hi, hstays⟩ := List.mem_filter.mp hi
    refine ⟨fun e he => ⟨e, hmem (mem_assignedTo.mp he).1, e.retraction, rfl⟩, fun e he => ?_⟩
    obtain ⟨hold, hid⟩ := mem_assignedTo.mp he
    refine ⟨e.retraction, List.mem_filter.mpr ⟨List.mem_filter.mpr ⟨hold, ?_⟩, ?_⟩⟩
    · rw [hid]
      rfl
    · rw [hid, Option.any_some, Bool.not_eq_true', List.any_eq_false]
      intro i' hi' hgone
      rw [Bool.and_eq_true] at hgone
      rw [List.inj_on_of_nodup_map h.incidentIds hi' hi (of_decide_eq_true hgone.1)] at hgone
      rw [hgone.2] at hstays
      exact absurd hstays (by decide)
  · intro e he id hid
    obtain ⟨i, hi, rfl, hsubject⟩ := h.subject e (hmem he) id hid
    refine ⟨i, List.mem_filter.mpr ⟨hi, ?_⟩, rfl, hsubject⟩
    have hstays := (List.mem_filter.mp he).2
    rw [hid, Option.any_some, Bool.not_eq_true', List.any_eq_false] at hstays
    have hnot := hstays i hi
    simpa using hnot

/-! ## Assignment -/

section Assign

variable {evidence : List Evidence} (hids : UniqueIds evidence) {row : Evidence}
  (hrow : row ∈ evidence) (hfree : row.incidentId = none) {id : ℕ}

include hids hrow hfree

theorem mem_assignedTo_assign {k : ℕ} {e : Evidence} :
    e ∈ assignedTo (evidence.map (Evidence.assign row.id id)) k ↔
      (e = { row with incidentId := some id } ∧ k = id) ∨ e ∈ assignedTo evidence k := by
  rw [mem_assignedTo, mem_map_assign hids hrow, mem_assignedTo]
  constructor
  · rintro ⟨rfl | ⟨he, -⟩, hid⟩
    · exact Or.inl ⟨rfl, (Option.some.inj hid).symm⟩
    · exact Or.inr ⟨he, hid⟩
  · rintro (⟨rfl, rfl⟩ | ⟨he, hid⟩)
    · exact ⟨Or.inl rfl, rfl⟩
    · refine ⟨Or.inr ⟨he, fun hsame => ?_⟩, hid⟩
      rw [List.inj_on_of_nodup_map hids he hrow hsame, hfree] at hid
      simp at hid

theorem length_assignedTo_assign : (assignedTo (evidence.map (Evidence.assign row.id id)) id).length =
    (assignedTo evidence id).length + 1 := by
  have hids' : UniqueIds (evidence.map (Evidence.assign row.id id)) := by
    rw [UniqueIds, map_assign_id]
    exact hids
  have hnew : UniqueIds ({ row with incidentId := some id } :: assignedTo evidence id) := by
    rw [UniqueIds, List.map_cons, List.nodup_cons]
    refine ⟨fun hmem => ?_, uniqueIds_assignedTo hids id⟩
    obtain ⟨e, he, hsame⟩ := List.mem_map.mp hmem
    obtain ⟨hold, hid⟩ := mem_assignedTo.mp he
    rw [List.inj_on_of_nodup_map hids hold hrow hsame, hfree] at hid
    simp at hid
  rw [← List.length_cons]
  refine length_eq_of_ids (uniqueIds_assignedTo hids' id) hnew fun n => ?_
  rw [List.mem_map, List.mem_map]
  refine exists_congr fun e => and_congr_left fun _ => ?_
  rw [mem_assignedTo_assign hids hrow hfree, List.mem_cons, and_iff_left rfl]

theorem assignedTo_assign_of_ne {k : ℕ} (hk : k ≠ id) {e : Evidence} :
    e ∈ assignedTo (evidence.map (Evidence.assign row.id id)) k ↔ e ∈ assignedTo evidence k := by
  rw [mem_assignedTo_assign hids hrow hfree]
  exact or_iff_right fun h => hk h.2

theorem length_assignedTo_of_ne {k : ℕ} (hk : k ≠ id) :
    (assignedTo (evidence.map (Evidence.assign row.id id)) k).length =
      (assignedTo evidence k).length := by
  have hids' : UniqueIds (evidence.map (Evidence.assign row.id id)) := by
    rw [UniqueIds, map_assign_id]
    exact hids
  refine length_eq_of_ids (uniqueIds_assignedTo hids' k) (uniqueIds_assignedTo hids k) fun n => ?_
  rw [List.mem_map, List.mem_map]
  exact exists_congr fun e => and_congr_left fun _ => assignedTo_assign_of_ne hids hrow hfree hk

theorem valuesOf_assign_of_ne {k : ℕ} (hk : k ≠ id) (f : Finding → ℤ) :
    valuesOf (evidence.map (Evidence.assign row.id id)) f k = valuesOf evidence f k := by
  ext v
  exact exists_congr fun e => and_congr_left fun _ => assignedTo_assign_of_ne hids hrow hfree hk

theorem valuesOf_assign (f : Finding → ℤ) :
    valuesOf (evidence.map (Evidence.assign row.id id)) f id =
      insert (f row.finding) (valuesOf evidence f id) := by
  ext v
  rw [Set.mem_insert_iff]
  constructor
  · rintro ⟨e, he, rfl⟩
    rcases (mem_assignedTo_assign hids hrow hfree).mp he with ⟨rfl, -⟩ | he
    · exact Or.inl rfl
    · exact Or.inr ⟨e, he, rfl⟩
  · rintro (rfl | ⟨e, he, rfl⟩)
    · exact ⟨_, (mem_assignedTo_assign hids hrow hfree).mpr (Or.inl ⟨rfl, rfl⟩), rfl⟩
    · exact ⟨e, (mem_assignedTo_assign hids hrow hfree).mpr (Or.inr he), rfl⟩

theorem Tallied.absorb {i : Incident} (h : Tallied evidence i) (hid : i.id = id) :
    Tallied (evidence.map (Evidence.assign row.id id)) (i.absorb row id) := by
  have habsorb : i.absorb row id = { i with
      lastEventTs := max i.lastEventTs row.finding.ts
      openedTs := min i.openedTs row.finding.ts
      eventCount := i.eventCount + 1
      severity := min i.severity (severityOf row) } := if_pos hid
  rw [habsorb]
  constructor
  · show i.eventCount + 1 = _
    rw [hid, length_assignedTo_assign hids hrow hfree, h.count, hid]
  · show IsLeast (valuesOf _ Finding.ts i.id) (min i.openedTs row.finding.ts)
    rw [hid, valuesOf_assign hids hrow hfree, min_comm]
    exact (hid ▸ h.opened).insert _
  · show IsGreatest (valuesOf _ Finding.ts i.id) (max i.lastEventTs row.finding.ts)
    rw [hid, valuesOf_assign hids hrow hfree, max_comm]
    exact (hid ▸ h.last).insert _
  · show IsLeast (valuesOf _ severityFrom i.id) (min i.severity (severityOf row))
    rw [hid, valuesOf_assign hids hrow hfree, min_comm]
    exact (hid ▸ h.severity).insert _

theorem tallied_newIncident {incidents : List Incident}
    (hfresh : ∀ e ∈ evidence, e.incidentId ≠ some (newIncident incidents row).id)
    (hid : (newIncident incidents row).id = id) :
    Tallied (evidence.map (Evidence.assign row.id id)) ((newIncident incidents row).absorb row id) := by
  have hnone : assignedTo evidence id = [] := List.filter_eq_nil_iff.mpr fun e he heq =>
    hfresh e he (hid ▸ of_decide_eq_true heq)
  have hvalues : ∀ f, valuesOf (evidence.map (Evidence.assign row.id id)) f id =
      {f row.finding} := by
    intro f
    have hempty : valuesOf evidence f id = ∅ := by
      rw [valuesOf, hnone]
      simp
    rw [valuesOf_assign hids hrow hfree, hempty, insert_empty_eq]
  have habsorb : (newIncident incidents row).absorb row id = { newIncident incidents row with
      lastEventTs := max row.finding.ts row.finding.ts
      openedTs := min row.finding.ts row.finding.ts
      eventCount := 0 + 1
      severity := min (severityOf row) (severityOf row) } := if_pos hid
  rw [habsorb]
  constructor
  · show 0 + 1 = (assignedTo _ (newIncident incidents row).id).length
    rw [hid, length_assignedTo_assign hids hrow hfree, hnone]
    rfl
  · show IsLeast (valuesOf _ Finding.ts (newIncident incidents row).id)
      (min row.finding.ts row.finding.ts)
    rw [hid, hvalues, min_self]
    exact isLeast_singleton
  · show IsGreatest (valuesOf _ Finding.ts (newIncident incidents row).id)
      (max row.finding.ts row.finding.ts)
    rw [hid, hvalues, max_self]
    exact isGreatest_singleton
  · show IsLeast (valuesOf _ severityFrom (newIncident incidents row).id)
      (min (severityOf row) (severityOf row))
    rw [hid, hvalues, min_self]
    exact isLeast_singleton

theorem Tallied.absorb_of_ne {i : Incident} (h : Tallied evidence i) (hid : i.id ≠ id) :
    Tallied (evidence.map (Evidence.assign row.id id)) (i.absorb row id) := by
  have habsorb : i.absorb row id = i := if_neg hid
  rw [habsorb]
  constructor
  · rw [length_assignedTo_of_ne hids hrow hfree hid]
    exact h.count
  · rw [valuesOf_assign_of_ne hids hrow hfree hid]
    exact h.opened
  · rw [valuesOf_assign_of_ne hids hrow hfree hid]
    exact h.last
  · rw [valuesOf_assign_of_ne hids hrow hfree hid]
    exact h.severity

end Assign

theorem absorb_subject (row : Evidence) (id : ℕ) (i : Incident) :
    (i.absorb row id).tenant = i.tenant ∧ (i.absorb row id).entityKey = i.entityKey := by
  unfold Incident.absorb
  split
  · exact ⟨rfl, rfl⟩
  · exact ⟨rfl, rfl⟩

theorem incidentFor_subject (incidents : List Incident) (row : Evidence) :
    ∃ i ∈ (incidentFor incidents row).2, i.id = (incidentFor incidents row).1 ∧
      i.tenant = row.finding.tenant ∧ i.entityKey = row.finding.entityKey := by
  unfold incidentFor
  split
  · next i hi =>
    have hmem := List.mem_of_mem_head? (Option.mem_def.mpr hi)
    rw [List.mem_insertionSort, List.mem_filter] at hmem
    obtain ⟨hin, hkind⟩ := hmem
    simp only [Bool.and_eq_true, decide_eq_true_eq] at hkind
    exact ⟨i, hin, rfl, hkind.1.1.1, hkind.1.2⟩
  · exact ⟨_, List.mem_append_right _ (List.mem_singleton_self _), rfl, rfl, rfl⟩

theorem mem_incidentFor_of_mem {incidents : List Incident} {row : Evidence}
    (h : i ∈ incidents) : i ∈ (incidentFor incidents row).2 := by
  rcases incidentFor_cases incidents row with ⟨-, heq⟩ | ⟨-, heq⟩
  · rw [heq]
    exact h
  · rw [heq]
    exact List.mem_append_left _ h

theorem Accounted.assigned {st : IncidentStore} (h : Accounted st) {row : Evidence} (hrow : row ∈ st.evidence)
    (hfree : row.incidentId = none) : Accounted (assigned st row) := by
  have hvalid := h.valid.assigned hrow hfree
  refine ⟨hvalid.evidenceIds, hvalid.incidentIds, fun e he k hk => ?_, fun j hj => ?_⟩
  · have hsubject : ∃ i ∈ (incidentFor st.incidents row).2, i.id = k ∧
        i.tenant = e.finding.tenant ∧ i.entityKey = e.finding.entityKey := by
      rcases (mem_assignedTo_assign h.evidenceIds hrow hfree).mp (mem_assignedTo.mpr ⟨he, hk⟩) with
        ⟨rfl, rfl⟩ | hold
      · exact incidentFor_subject _ _
      · obtain ⟨hmem, hid⟩ := mem_assignedTo.mp hold
        obtain ⟨i, hi, hsame⟩ := h.subject e hmem k hid
        exact ⟨i, mem_incidentFor_of_mem hi, hsame⟩
    obtain ⟨i, hi, hid, htenant, hentity⟩ := hsubject
    obtain ⟨htenant', hentity'⟩ := absorb_subject row (incidentFor st.incidents row).1 i
    exact ⟨_, List.mem_map_of_mem hi, (absorb_id _ _ i).trans hid, htenant'.trans htenant,
      hentity'.trans hentity⟩
  · obtain ⟨i, hi, rfl⟩ := List.mem_map.mp hj
    rcases mem_incidentFor hi with hold | ⟨rfl, hid⟩
    · by_cases hid : i.id = (incidentFor st.incidents row).1
      · exact (h.tallied i hold).absorb h.evidenceIds hrow hfree hid
      · exact (h.tallied i hold).absorb_of_ne h.evidenceIds hrow hfree hid
    · refine tallied_newIncident h.evidenceIds hrow hfree (fun e he heq => ?_) hid
      exact RowIds.next_not_mem _ (h.valid.exist e he _ heq)

/-! ## A cycle of the grouping -/

/-- What the loop has done since the cycle began: assigned evidence stays, the incidents go on, and
the new ones were opened after the gap. -/
structure GroupsFrom (st₀ st : IncidentStore) : Prop where
  kept : ∀ e ∈ st₀.evidence, ∀ id, e.incidentId = some id → e ∈ st.evidence
  goesOn : ∀ i ∈ st₀.incidents, ∃ i' ∈ st.incidents, i'.tenant = i.tenant ∧
    i'.entityKey = i.entityKey ∧ i'.closedTs = i.closedTs ∧ i.lastEventTs ≤ i'.lastEventTs
  opens : OpensAfterGap st₀ st

theorem opensAfterGap_of_ids
    (h : ∀ j ∈ st'.incidents, j.id ∈ st.incidents.map Incident.id) : OpensAfterGap st st' :=
  fun j hj hnew => absurd (h j hj) hnew

theorem GroupsFrom.refl (st : IncidentStore) : GroupsFrom st st where
  kept _ he _ _ := he
  goesOn i hi := ⟨i, hi, rfl, rfl, rfl, le_refl _⟩
  opens := opensAfterGap_of_ids fun _ hj => List.mem_map_of_mem hj

theorem lt_of_openFor_eq_none {incidents : List Incident} {row : Evidence}
    (h : openFor incidents row = none) (hi : i ∈ incidents) (hopen : i.closedTs = none)
    (htenant : i.tenant = row.finding.tenant) (hentity : i.entityKey = row.finding.entityKey) :
    i.lastEventTs < row.finding.ts - gapS := by
  by_contra hle
  rw [openFor, List.head?_eq_none_iff] at h
  have hmem : i ∈ incidents.filter fun i => i.tenant = row.finding.tenant && i.closedTs.isNone &&
      i.entityKey = row.finding.entityKey && row.finding.ts - gapS ≤ i.lastEventTs :=
    List.mem_filter.mpr ⟨hi, by simp [htenant, hopen, hentity, not_lt.mp hle]⟩
  rw [← List.mem_insertionSort openedLe, h] at hmem
  cases hmem

theorem absorb_goesOn (row : Evidence) (id : ℕ) (i : Incident) :
    (i.absorb row id).closedTs = i.closedTs ∧ i.lastEventTs ≤ (i.absorb row id).lastEventTs := by
  unfold Incident.absorb
  split
  · exact ⟨rfl, le_max_left _ _⟩
  · exact ⟨rfl, le_refl _⟩

theorem GroupsFrom.assigned {st₀ st : IncidentStore} (h : GroupsFrom st₀ st) (hst : Accounted st)
    {row : Evidence} (hrow : row ∈ st.evidence) (hfree : row.incidentId = none) :
    GroupsFrom st₀ (assigned st row) := by
  have hassigned {k : ℕ} {e : Evidence} :=
    @mem_assignedTo_assign _ hst.evidenceIds _ hrow hfree (incidentFor st.incidents row).1 k e
  constructor
  · intro e he id hid
    have hold := h.kept e he id hid
    exact (mem_assignedTo.mp (hassigned.mpr (Or.inr (mem_assignedTo.mpr ⟨hold, hid⟩)))).1
  · intro i hi
    obtain ⟨i', hi', htenant, hentity, hclosed, hlast⟩ := h.goesOn i hi
    obtain ⟨htenant', hentity'⟩ := absorb_subject row (incidentFor st.incidents row).1 i'
    obtain ⟨hclosed', hlast'⟩ := absorb_goesOn row (incidentFor st.incidents row).1 i'
    exact ⟨_, List.mem_map_of_mem (mem_incidentFor_of_mem hi'), htenant'.trans htenant,
      hentity'.trans hentity, hclosed'.trans hclosed, hlast.trans hlast'⟩
  · intro j hj hnew
    obtain ⟨i, hi, rfl⟩ := List.mem_map.mp hj
    obtain ⟨htenant, hentity⟩ := absorb_subject row (incidentFor st.incidents row).1 i
    rw [absorb_id] at hnew ⊢
    rw [htenant, hentity]
    unfold incidentFor at hi
    split at hi
    · obtain ⟨e, he, hgap⟩ := h.opens i hi hnew
      exact ⟨e, hassigned.mpr (Or.inr he), hgap⟩
    · next hnone =>
      rcases List.mem_append.mp hi with hi | hi
      · obtain ⟨e, he, hgap⟩ := h.opens i hi hnew
        exact ⟨e, hassigned.mpr (Or.inr he), hgap⟩
      · have hid : i.id = (incidentFor st.incidents row).1 := by
          rw [List.mem_singleton.mp hi, incidentFor, hnone]
          rfl
        refine ⟨_, hassigned.mpr (Or.inl ⟨rfl, hid⟩), fun k hk hopen hsame hsame' => ?_⟩
        rw [List.mem_singleton.mp hi] at hsame hsame'
        obtain ⟨k', hk', htenant', hentity', hclosed', hlast'⟩ := h.goesOn k hk
        exact hlast'.trans_lt (lt_of_openFor_eq_none hnone hk' (hclosed'.trans hopen)
          (htenant'.trans hsame) (hentity'.trans hsame'))

theorem accounted_assignAll (h : Accounted st) (now : ℤ) :
    Accounted (assignAll now st).1 ∧ GroupsFrom st (assignAll now st).1 :=
  (h.valid.assignAll (I := fun st' => Accounted st' ∧ GroupsFrom st st')
    (fun _ _ _ hst' hrow hfree => ⟨hst'.1.assigned hrow hfree, hst'.2.assigned hst'.1 hrow hfree⟩)
    ⟨h, GroupsFrom.refl st⟩ now).2

theorem Accounted.groupOnce {st : IncidentStore} (h : Accounted st) (reading : Reading) (now : ℤ) :
    Accounted (groupOnce reading now st).1 := (accounted_assignAll h now).1.foldl_reason reading _

theorem kept_groupOnce (h : Accounted st) (reading : Reading) (now : ℤ)
    {e : Evidence} (he : e ∈ st.evidence) {id : ℕ} (hid : e.incidentId = some id) :
    e ∈ (groupOnce reading now st).1.evidence := by
  rw [groupOnce, evidence_foldl_reason]
  exact (accounted_assignAll h now).2.kept e he id hid

theorem opensAfterGap_groupOnce (h : Accounted st) (reading : Reading) (now : ℤ) :
    OpensAfterGap st (groupOnce reading now st).1 := by
  intro j hj hnew
  obtain ⟨f, hf, hincidents⟩ :=
    foldl_reason_incidents reading (touched now (assignAll now st)) (assignAll now st).1
  rw [groupOnce, hincidents] at hj
  obtain ⟨i, hi, rfl⟩ := List.mem_map.mp hj
  rw [(hf i).id] at hnew ⊢
  rw [(hf i).tenant, (hf i).entityKey, groupOnce, evidence_foldl_reason]
  exact (accounted_assignAll h now).2.opens i hi hnew

/-! ## Every action -/

theorem Accounted.act (h : Accounted st) (a : StoreAction) : Accounted (st.act a) := by
  cases a with
  | insert draft => exact h.insert draft
  | cycle a =>
    cases a with
    | correlate env now window => exact h.correlate env now window
    | group reading now => exact h.groupOnce reading now
    | closeStale now => exact h.closeStale now
    | reason reading id => exact h.foldl_reason reading [id]
  | prune now evidenceDays incidentDays resolvedTs =>
    exact h.prune now evidenceDays incidentDays resolvedTs

theorem accounted_foldl_act (h : Accounted st) (acts : List StoreAction) :
    Accounted (acts.foldl IncidentStore.act st) := by
  induction acts generalizing st with
  | nil => exact h
  | cons a acts ih => exact ih (h.act a)

theorem unmoved_of_kept (hids : UniqueIds st'.evidence)
    (hkept : ∀ e ∈ st.evidence, ∀ id, e.incidentId = some id →
      ∃ mark, { e with retraction := mark } ∈ st'.evidence) : Unmoved st st' := by
  intro e he id hid e' he' hsame
  obtain ⟨mark, hmem⟩ := hkept e he id hid
  rw [List.inj_on_of_nodup_map hids he' hmem hsame]
  exact hid

theorem unmoved_of_old (h : UniqueIds st.evidence)
    (hold : ∀ e' ∈ st'.evidence, e' ∈ st.evidence ∨ e'.id ∉ st.evidence.map Evidence.id) :
    Unmoved st st' := by
  intro e he id hid e' he' hsame
  rcases hold e' he' with hmem | hnew
  · rw [List.inj_on_of_nodup_map h hmem he hsame]
    exact hid
  · exact absurd (hsame ▸ List.mem_map_of_mem he) hnew

theorem unmoved_act (h : Accounted st) (a : StoreAction) : Unmoved st (st.act a) := by
  cases a with
  | insert draft =>
    refine unmoved_of_old h.evidenceIds fun e' he' => ?_
    rcases mem_insert he' with hold | ⟨-, hid⟩
    · exact Or.inl hold
    · rw [hid]
      exact Or.inr (RowIds.next_not_mem _)
  | cycle a =>
    cases a with
    | correlate env now window =>
      exact unmoved_of_kept (h.correlate env now window).evidenceIds
        fun _ he _ _ => exists_mem_correlateOnce he
    | group reading now =>
      exact unmoved_of_kept (h.groupOnce reading now).evidenceIds
        fun e he _ hid => ⟨e.retraction, kept_groupOnce h reading now he hid⟩
    | closeStale now => exact unmoved_of_old h.evidenceIds fun _ he' => Or.inl he'
    | reason reading id =>
      refine unmoved_of_old h.evidenceIds fun e' he' => Or.inl ?_
      rwa [← evidence_reason reading st id]
  | prune now evidenceDays incidentDays resolvedTs =>
    exact unmoved_of_old h.evidenceIds
      fun _ he' => Or.inl (List.mem_filter.mp (List.mem_filter.mp he').1).1

theorem opensAfterGap_act (h : Accounted st) (a : StoreAction) : OpensAfterGap st (st.act a) := by
  have hsame {st' : IncidentStore} {f : Incident → Incident} (hf : ∀ i, SameAggregates i (f i))
      (hincidents : st'.incidents = st.incidents.map f) : OpensAfterGap st st' := by
    refine opensAfterGap_of_ids fun j hj => ?_
    rw [hincidents] at hj
    obtain ⟨i, hi, rfl⟩ := List.mem_map.mp hj
    rw [(hf i).id]
    exact List.mem_map_of_mem hi
  cases a with
  | insert draft =>
    refine hsame SameAggregates.refl ?_
    rw [IncidentStore.act, IncidentStore.insert, List.map_id']
    split
    · rfl
    · rfl
  | cycle a =>
    cases a with
    | correlate env now window => exact hsame SameAggregates.refl (List.map_id' _).symm
    | group reading now => exact opensAfterGap_groupOnce h reading now
    | closeStale now => exact hsame (sameAggregates_close now) rfl
    | reason reading id =>
      obtain ⟨f, hf, hincidents⟩ := reason_incidents reading st id
      exact hsame hf hincidents
  | prune now evidenceDays incidentDays resolvedTs =>
    exact opensAfterGap_of_ids fun _ hj => List.mem_map_of_mem (List.mem_filter.mp hj).1

/-- The configuration of a device changes at some time. -/
def changeAt (ts : ℤ) : Evidence where
  id := 0
  createdTs := 1700001200
  finding :=
    { eventId := 1
      ts := ts
      tenant := "acme"
      role := .trigger
      entityKey := "ip:10.0.0.5"
      summary := "changed" }
  ruleId := "CFG_CHANGE_001"
  ruleVersion := "1.0.0"
  params := []
  switchPort := none
  dedupKey := toString ts

/-- Two changes, 20 minutes apart, and a cycle of the grouping. -/
def twoChanges : List StoreAction :=
  [.insert (changeAt 1700000000), .insert (changeAt 1700001200), .cycle (.group bareReading 1700001200)]

end SentinelNet.Observability
