import SentinelNet.Observability.Retractions

/-!
# Current conclusions

`_reason` writes a conclusion into the history and into the incident, but where all evidence of the
incident was taken back it writes the history only, and the incident shows what it showed before.

* `currentConclusions_record`: a conclusion that is recorded is the current one.
* `run_current`: when each incident of a run shows its current conclusion.
-/

namespace SentinelNet.Observability

/-- An incident that was reasoned about has one conclusion that was not superseded, and shows it. -/
def Current (st : IncidentStore) : Prop :=
  ∀ i ∈ st.incidents, i.id ∈ st.reasoned → ∃ c, currentConclusions st.conclusions i.id = [c] ∧
    i.causeKind = some c.causeKind ∧ i.confidence = some c.confidence ∧
    i.reasoning = some c.reasoning

/-- An incident has evidence that was not taken back. -/
def HasActive (st : IncidentStore) (id : ℕ) : Prop :=
  ∃ row ∈ st.evidence, row.incidentId = some id ∧ row.active = true

/-- No incident is reasoned about without active evidence: by `group_once`, once it has assigned the
evidence, or by `reason`. -/
def NeverEmptied (st : IncidentStore) : Action → Prop
  | .group _ now => ∀ id ∈ touched now (assignAll now st), HasActive (assignAll now st).1 id
  | .reason _ id => id ∈ st.incidents.map Incident.id → HasActive st id
  | _ => True

/-! ## Recording -/

/-- A conclusion is the deduction whose reasoning it holds. -/
def Explained (c : Conclusion) : Prop :=
  ∃ (d : Deduction) (evidence : List Evidence) (retracted : ℕ),
    c.reasoning = d.reasoning evidence retracted ∧ c.causeKind = d.cause ∧
      c.confidence = d.confidence

theorem reasoning_inj {d d' : Deduction} {evidence evidence' : List Evidence}
    {retracted retracted' : ℕ}
    (h : d.reasoning evidence retracted = d'.reasoning evidence' retracted') :
    d.cause = d'.cause ∧ d.confidence = d'.confidence := by
  simp only [Deduction.reasoning, Json.obj.injEq, List.cons.injEq, Prod.mk.injEq, true_and,
    Json.str.injEq, Json.int.injEq, Json.arr.injEq] at h
  have hsources : d.sources.length = d'.sources.length := by
    have hlength := congrArg List.length h.2.2.2.2.2.2.1
    simpa using hlength
  refine ⟨h.1, ?_⟩
  rw [Deduction.confidence, Deduction.confidence, h.2.2.2.2.1, hsources]

theorem currentConclusions_supersede (conclusions : List Conclusion) (ts : ℤ) (old id : ℕ) :
    currentConclusions (conclusions.map (Conclusion.supersede ts old)) id =
      (currentConclusions conclusions id).filter fun c => c.id ≠ old := by
  induction conclusions with
  | nil => rfl
  | cons c conclusions ih =>
    unfold currentConclusions at ih ⊢
    rw [List.map_cons, List.filter_cons, List.filter_cons, ih]
    by_cases hid : c.id = old
    · have hsuperseded : (c.supersede ts old).supersededTs.isNone = false := by
        rw [Conclusion.supersede, if_pos hid]
        rfl
      rw [hsuperseded, Bool.and_false, if_neg Bool.false_ne_true]
      split
      · rw [List.filter_cons_of_neg (by simpa using hid)]
      · rfl
    · rw [Conclusion.supersede, if_neg hid]
      split
      · rw [List.filter_cons_of_pos (by simpa using hid)]
      · rfl

theorem currentConclusions_concat_same {conclusions : List Conclusion} {c : Conclusion} {id : ℕ}
    (hid : c.incidentId = id) (hopen : c.supersededTs = none) :
    currentConclusions (conclusions ++ [c]) id = currentConclusions conclusions id ++ [c] := by
  unfold currentConclusions
  rw [List.filter_append, List.filter_cons_of_pos (by simp [hid, hopen])]
  rfl

theorem currentConclusions_concat_other {conclusions : List Conclusion} {c : Conclusion} {id : ℕ}
    (hid : c.incidentId ≠ id) :
    currentConclusions (conclusions ++ [c]) id = currentConclusions conclusions id := by
  unfold currentConclusions
  rw [List.filter_append, List.filter_cons_of_neg (by simp [hid])]
  exact List.append_nil _

section Record

variable {conclusions : List Conclusion} {id : ℕ} (reading : Reading) (cause : String)
  (confidence : ℤ) (reasoning : Json)

/-- What `_record_conclusion` does: nothing where the current conclusion has the same reasoning, or
it adds one, and supersedes the current one, if there is one. -/
theorem recordConclusion_cases (hcurrent : currentConclusions conclusions id = [] ∨
      ∃ c, currentConclusions conclusions id = [c]) :
    (∃ c, currentConclusions conclusions id = [c] ∧ c.reasoning = reasoning ∧
        recordConclusion reading conclusions id cause confidence reasoning = conclusions) ∨
      (currentConclusions conclusions id = [] ∧
        recordConclusion reading conclusions id cause confidence reasoning = conclusions ++
          [newConclusion reading conclusions id cause confidence reasoning]) ∨
      ∃ c, currentConclusions conclusions id = [c] ∧
        recordConclusion reading conclusions id cause confidence reasoning =
          conclusions.map (Conclusion.supersede (reading.supersededAt id) c.id) ++
            [newConclusion reading conclusions id cause confidence reasoning] := by
  unfold recordConclusion
  rcases hcurrent with hnone | ⟨c, hc⟩
  · rw [hnone]
    exact Or.inr (Or.inl ⟨rfl, rfl⟩)
  · rw [hc]
    by_cases hsame : c.reasoning = reasoning
    · exact Or.inl ⟨c, rfl, hsame, if_pos hsame⟩
    · exact Or.inr (Or.inr ⟨c, rfl, if_neg hsame⟩)

/-- The conclusion that is recorded is the current one, as it is or as it was; the other incidents
keep theirs. -/
theorem currentConclusions_record (hids : (conclusions.map Conclusion.id).Nodup)
    (hcurrent : currentConclusions conclusions id = [] ∨
      ∃ c, currentConclusions conclusions id = [c]) :
    (∃ c, currentConclusions
        (recordConclusion reading conclusions id cause confidence reasoning) id = [c] ∧
        c.reasoning = reasoning ∧
        (c ∈ conclusions ∨ c.causeKind = cause ∧ c.confidence = confidence)) ∧
      ∀ other, other ≠ id → currentConclusions
        (recordConclusion reading conclusions id cause confidence reasoning) other =
          currentConclusions conclusions other := by
  have hmem {c : Conclusion} {other : ℕ} (hc : c ∈ currentConclusions conclusions other) :
      c ∈ conclusions ∧ c.incidentId = other := by
    have hfilter := List.mem_filter.mp hc
    simp only [Bool.and_eq_true, decide_eq_true_eq] at hfilter
    exact ⟨hfilter.1, hfilter.2.1⟩
  have hnew : (newConclusion reading conclusions id cause confidence reasoning).reasoning =
      reasoning ∧ ((newConclusion reading conclusions id cause confidence reasoning) ∈ conclusions ∨
        (newConclusion reading conclusions id cause confidence reasoning).causeKind = cause ∧
          (newConclusion reading conclusions id cause confidence reasoning).confidence =
            confidence) := ⟨rfl, Or.inr ⟨rfl, rfl⟩⟩
  have hconcat (cs : List Conclusion) : currentConclusions
      (cs ++ [newConclusion reading conclusions id cause confidence reasoning]) id =
        currentConclusions cs id ++
          [newConclusion reading conclusions id cause confidence reasoning] :=
    currentConclusions_concat_same rfl rfl
  rcases recordConclusion_cases reading cause confidence reasoning hcurrent with
    ⟨c, hc, hsame, heq⟩ | ⟨hnone, heq⟩ | ⟨c, hc, heq⟩
  · rw [heq]
    exact ⟨⟨c, hc, hsame, Or.inl (hmem (hc ▸ List.mem_singleton_self c)).1⟩, fun _ _ => rfl⟩
  · rw [heq]
    refine ⟨⟨_, ?_, hnew⟩, fun other hother => currentConclusions_concat_other hother.symm⟩
    rw [hconcat, hnone]
    rfl
  · rw [heq]
    have hcmem := hmem (hc ▸ List.mem_singleton_self c)
    refine ⟨⟨_, ?_, hnew⟩, fun other hother => ?_⟩
    · rw [hconcat, currentConclusions_supersede, hc,
        List.filter_cons_of_neg (by simp)]
      rfl
    · rw [currentConclusions_concat_other hother.symm, currentConclusions_supersede]
      refine List.filter_eq_self.mpr fun c' hc' => ?_
      have hne : c'.id ≠ c.id := by
        intro hid
        have hsame := List.inj_on_of_nodup_map hids (hmem hc').1 hcmem.1 hid
        rw [← (hmem hc').2, hsame, hcmem.2] at hother
        exact hother rfl
      simpa using hne

theorem supersede_id (ts : ℤ) (old : ℕ) (c : Conclusion) : (c.supersede ts old).id = c.id := by
  unfold Conclusion.supersede
  split
  · rfl
  · rfl

theorem nodup_record (hids : (conclusions.map Conclusion.id).Nodup)
    (hcurrent : currentConclusions conclusions id = [] ∨
      ∃ c, currentConclusions conclusions id = [c]) :
    ((recordConclusion reading conclusions id cause confidence reasoning).map
      Conclusion.id).Nodup := by
  have hsuperseded (ts : ℤ) (old : ℕ) :
      (conclusions.map (Conclusion.supersede ts old)).map Conclusion.id =
        conclusions.map Conclusion.id := by
    rw [List.map_map]
    exact List.map_congr_left fun c _ => supersede_id ts old c
  rcases recordConclusion_cases reading cause confidence reasoning hcurrent with
    ⟨c, -, -, heq⟩ | ⟨-, heq⟩ | ⟨c, -, heq⟩
  · rw [heq]
    exact hids
  · rw [heq, List.map_append]
    exact RowIds.nodup_concat_next hids
  · rw [heq, List.map_append, hsuperseded]
    exact RowIds.nodup_concat_next hids

theorem explained_record {d : Deduction} {evidence : List Evidence} {retracted : ℕ}
    (h : ∀ c ∈ conclusions, Explained c)
    (hcurrent : currentConclusions conclusions id = [] ∨
      ∃ c, currentConclusions conclusions id = [c]) :
    ∀ c ∈ recordConclusion reading conclusions id d.cause d.confidence
      (d.reasoning evidence retracted), Explained c := by
  have hnew : Explained (newConclusion reading conclusions id d.cause d.confidence
      (d.reasoning evidence retracted)) := ⟨d, evidence, retracted, rfl, rfl, rfl⟩
  intro c hc
  rcases recordConclusion_cases reading d.cause d.confidence (d.reasoning evidence retracted)
    hcurrent with ⟨old, -, -, heq⟩ | ⟨-, heq⟩ | ⟨old, -, heq⟩
  · rw [heq] at hc
    exact h c hc
  · rw [heq] at hc
    rcases List.mem_append.mp hc with hc | hc
    · exact h c hc
    · rw [List.mem_singleton.mp hc]
      exact hnew
  · rw [heq] at hc
    rcases List.mem_append.mp hc with hc | hc
    · obtain ⟨c', hc', rfl⟩ := List.mem_map.mp hc
      unfold Conclusion.supersede
      split
      · exact h c' hc'
      · exact h c' hc'
    · rw [List.mem_singleton.mp hc]
      exact hnew

end Record

/-! ## The invariant -/

/-- Conclusions have distinct numbers and say what they deduce; each incident that was reasoned
about is there and shows its current conclusion, and the others have none. -/
structure Concluded (st : IncidentStore) : Prop where
  conclusionIds : (st.conclusions.map Conclusion.id).Nodup
  explained : ∀ c ∈ st.conclusions, Explained c
  current : Current st
  known : ∀ id ∈ st.reasoned, id ∈ st.incidents.map Incident.id
  others : ∀ id, id ∉ st.reasoned → currentConclusions st.conclusions id = []

theorem concluded_empty : Concluded IncidentStore.empty where
  conclusionIds := List.nodup_nil
  explained := fun _ h => nomatch h
  current := fun _ h => nomatch h
  known := fun _ h => nomatch h
  others := fun _ _ => rfl

variable {st : IncidentStore}

theorem Concluded.zero_or_one (h : Concluded st) (id : ℕ) :
    currentConclusions st.conclusions id = [] ∨
      ∃ c, currentConclusions st.conclusions id = [c] := by
  by_cases hid : id ∈ st.reasoned
  · obtain ⟨i, hi, rfl⟩ := List.mem_map.mp (h.known id hid)
    obtain ⟨c, hc, -⟩ := h.current i hi hid
    exact Or.inr ⟨c, hc⟩
  · exact Or.inl (h.others id hid)

theorem Concluded.showing {st' : IncidentStore} (h : Concluded st)
    (hincidents : ∀ j ∈ st'.incidents,
      (∃ i ∈ st.incidents, i.id = j.id ∧ i.causeKind = j.causeKind ∧
        i.confidence = j.confidence ∧ i.reasoning = j.reasoning) ∨
      j.id ∉ st.incidents.map Incident.id)
    (hids : ∀ id ∈ st.incidents.map Incident.id, id ∈ st'.incidents.map Incident.id)
    (hconclusions : st'.conclusions = st.conclusions) (hreasoned : st'.reasoned = st.reasoned) :
    Concluded st' := by
  constructor
  · rw [hconclusions]
    exact h.conclusionIds
  · rw [hconclusions]
    exact h.explained
  · intro j hj hid
    rw [hreasoned] at hid
    rw [hconclusions]
    rcases hincidents j hj with ⟨i, hi, heq, hcause, hconfidence, hreasoning⟩ | hnew
    · rw [← hcause, ← hconfidence, ← hreasoning, ← heq]
      exact h.current i hi (heq ▸ hid)
    · exact absurd (h.known j.id hid) hnew
  · intro id hid
    rw [hreasoned] at hid
    exact hids id (h.known id hid)
  · intro id hid
    rw [hreasoned] at hid
    rw [hconclusions]
    exact h.others id hid

/-! ## Steps -/

theorem Concluded.correlate (h : Concluded st) (env : Environment) (now : ℤ)
    (window : Window) : Concluded (st.step (.correlate env now window)) :=
  h.showing (fun j hj => Or.inl ⟨j, hj, rfl, rfl, rfl, rfl⟩) (fun _ hid => hid) rfl rfl

theorem Concluded.closeStale {st : IncidentStore} (h : Concluded st) (now : ℤ) :
    Concluded (closeStale now st) := by
  refine h.showing (fun j hj => ?_) (fun id hid => ?_) rfl rfl
  · obtain ⟨i, hi, rfl⟩ := List.mem_map.mp hj
    refine Or.inl ⟨i, hi, (close_keeps now i).1.symm, ?_⟩
    unfold Incident.close
    split
    · exact ⟨rfl, rfl, rfl⟩
    · exact ⟨rfl, rfl, rfl⟩
  · obtain ⟨i, hi, rfl⟩ := List.mem_map.mp hid
    exact List.mem_map.mpr ⟨i.close now, List.mem_map_of_mem hi, (close_keeps now i).1⟩

theorem Concluded.assigned {st : IncidentStore} (h : Concluded st) (row : Evidence) :
    Concluded (assigned st row) := by
  refine h.showing (fun j hj => ?_) (fun id hid => ?_) rfl rfl
  · obtain ⟨i, hi, rfl⟩ := List.mem_map.mp hj
    rw [absorb_id]
    rcases mem_incidentFor hi with hi | ⟨rfl, -⟩
    · refine Or.inl ⟨i, hi, rfl, ?_⟩
      unfold Incident.absorb
      split
      · exact ⟨rfl, rfl, rfl⟩
      · exact ⟨rfl, rfl, rfl⟩
    · exact Or.inr (RowIds.next_not_mem _)
  · obtain ⟨i, hi, rfl⟩ := List.mem_map.mp hid
    have hmem : i ∈ (incidentFor st.incidents row).2 := by
      rcases incidentFor_cases st.incidents row with ⟨-, heq⟩ | ⟨-, heq⟩
      · rw [heq]
        exact hi
      · rw [heq]
        exact List.mem_append_left _ hi
    exact List.mem_map.mpr ⟨_, List.mem_map_of_mem hmem, absorb_id row _ i⟩

theorem activeEvidence_ne_nil {id : ℕ} (h : HasActive st id) :
    activeEvidence st.evidence id ≠ [] := by
  obtain ⟨row, hrow, hid, hactive⟩ := h
  have hmem : row ∈ activeEvidence st.evidence id := by
    rw [activeEvidence, List.mem_insertionSort, List.mem_filter]
    exact ⟨hrow, by simp [hid, hactive]⟩
  exact List.ne_nil_of_mem hmem

theorem Concluded.deduced (h : Concluded st) (reading : Reading) {id : ℕ}
    (hid : id ∈ st.incidents.map Incident.id) (d : Deduction) (evidence : List Evidence)
    (retracted : ℕ) (title : String) :
    Concluded { st with
      incidents := st.incidents.map (Incident.conclude id d.cause d.confidence
        (d.reasoning evidence retracted) title)
      conclusions := recordConclusion reading st.conclusions id d.cause d.confidence
        (d.reasoning evidence retracted)
      reasoned := id :: st.reasoned } := by
  have hone := h.zero_or_one id
  obtain ⟨⟨c, hc, hreasoning, hfrom⟩, hothers⟩ := currentConclusions_record reading d.cause
    d.confidence (d.reasoning evidence retracted) h.conclusionIds hone
  have hshown : c.causeKind = d.cause ∧ c.confidence = d.confidence := by
    rcases hfrom with hmem | hsame
    · obtain ⟨d', evidence', retracted', hreasoning', hcause, hconfidence⟩ := h.explained c hmem
      have hinj := reasoning_inj (hreasoning'.symm.trans hreasoning)
      exact ⟨hcause.trans hinj.1, hconfidence.trans hinj.2⟩
    · exact hsame
  have hids : (st.incidents.map (Incident.conclude id d.cause d.confidence
      (d.reasoning evidence retracted) title)).map Incident.id = st.incidents.map Incident.id := by
    rw [List.map_map]
    exact List.map_congr_left fun i _ => (conclude_keeps _ _ _ _ _ i).1
  constructor
  · exact nodup_record _ _ _ _ h.conclusionIds hone
  · exact explained_record _ h.explained hone
  · intro j hj hjid
    obtain ⟨i, hi, rfl⟩ := List.mem_map.mp hj
    rw [(conclude_keeps _ _ _ _ _ i).1] at hjid ⊢
    unfold Incident.conclude
    split
    · next heq =>
      refine ⟨c, heq ▸ hc, ?_, ?_, ?_⟩
      · exact congrArg some hshown.1.symm
      · exact congrArg some hshown.2.symm
      · exact congrArg some hreasoning.symm
    · next hne =>
      rcases List.mem_cons.mp hjid with heq | hjid
      · exact absurd heq hne
      · show ∃ c, currentConclusions (recordConclusion _ _ _ _ _ _) i.id = [c] ∧ _
        rw [hothers i.id hne]
        exact h.current i hi hjid
  · intro id' hid'
    rw [hids]
    rcases List.mem_cons.mp hid' with rfl | hid'
    · exact hid
    · exact h.known id' hid'
  · intro id' hid'
    rw [List.mem_cons, not_or] at hid'
    exact (hothers id' hid'.1).trans (h.others id' hid'.2)

theorem Concluded.reason {st : IncidentStore} (h : Concluded st) (reading : Reading) {id : ℕ}
    (hactive : id ∈ st.incidents.map Incident.id → HasActive st id) :
    Concluded (reason reading st id) := by
  unfold Observability.reason
  split
  · exact h
  · next incident hfind =>
    have hid : id ∈ st.incidents.map Incident.id := by
      have hfound := List.find?_some hfind
      exact List.mem_map.mpr ⟨incident, List.mem_of_find?_eq_some hfind, of_decide_eq_true hfound⟩
    dsimp only
    rw [if_neg (activeEvidence_ne_nil (hactive hid))]
    exact h.deduced reading hid _ _ _ _

theorem Concluded.foldl_reason (h : Concluded st) (reading : Reading) {ids : List ℕ}
    (hactive : ∀ id ∈ ids, HasActive st id) : Concluded (ids.foldl (Observability.reason reading) st) := by
  induction ids generalizing st with
  | nil => exact h
  | cons id ids ih =>
    refine ih (h.reason reading fun _ => hactive id List.mem_cons_self) fun id' hid' => ?_
    obtain ⟨row, hrow, hassigned⟩ := hactive id' (List.mem_cons_of_mem _ hid')
    exact ⟨row, (evidence_reason reading st id).symm ▸ hrow, hassigned⟩

theorem Concluded.step (hvalid : Valid st) (h : Concluded st) {a : Action}
    (ha : NeverEmptied st a) : Concluded (st.step a) := by
  cases a with
  | correlate env now window => exact h.correlate env now window
  | group reading now =>
    have hassigned := (hvalid.assignAll (fun _ row _ hst _ _ => hst.assigned row) h now).2
    exact hassigned.foldl_reason reading ha
  | closeStale now => exact h.closeStale now
  | reason reading id => exact h.reason reading ha

theorem run_concluded {st' : IncidentStore} {acts : List Action} (hrun : Run NeverEmptied st acts st')
    (hvalid : Valid st) (h : Concluded st) : Concluded st' := by
  induction hrun with
  | nil st => exact h
  | cons ha _ ih => exact ih (hvalid.step _) (h.step hvalid ha)

/-- In every run in which no incident is reasoned about without active evidence, each incident that
was reasoned about shows its one current conclusion. -/
theorem run_current {acts : List Action} {st : IncidentStore} (h : Run NeverEmptied IncidentStore.empty acts st) :
    Current st := (run_concluded h valid_empty concluded_empty).current

/-! ## A port that comes back late -/

def downWindow : Window := ⟨[linkRow 1 1700000000 "port2" "down"], List.nodup_singleton _⟩

/-- It comes back, more than `gapS` later. -/
def upWindow : Window := ⟨[linkRow 2 1700001000 "port2" "up"], List.nodup_singleton _⟩

/-- The first round. -/
def downActions : List Action :=
  [.correlate defaultEnvironment 1700000100 downWindow, .group bareReading 1700000100]

/-- The second round. -/
def upActions : List Action :=
  [.correlate defaultEnvironment 1700001100 upWindow, .group bareReading 1700001100]

/-- The tables after some actions. -/
def afterActions (st : IncidentStore) (acts : List Action) : IncidentStore := acts.foldl IncidentStore.step st

theorem run_afterActions (acts : List Action) (st : IncidentStore) :
    Run (fun _ _ => True) st acts (afterActions st acts) := by
  induction acts generalizing st with
  | nil => exact Run.nil st
  | cons a acts ih => exact Run.cons trivial (ih _)

/-- The incident of a drop shows its conclusion. -/
theorem run_current_down : Current (afterActions IncidentStore.empty downActions) := by
  have hactive : NeverEmptied (IncidentStore.empty.step (.correlate defaultEnvironment 1700000100
      downWindow)) (.group bareReading 1700000100) := by
    unfold NeverEmptied HasActive
    decide
  have hfirst : NeverEmptied IncidentStore.empty
      (.correlate defaultEnvironment 1700000100 downWindow) := trivial
  exact run_current (Run.cons hfirst (Run.cons hactive (Run.nil _)))

/-- The incident of a drop that was taken back shows what it showed before. -/
theorem stale_conclusion : ¬ ∀ (acts : List Action) (st : IncidentStore),
    Run (fun _ _ => True) IncidentStore.empty acts st → Current st := by
  intro hclaim
  have hcurrent := hclaim _ _ (run_afterActions (downActions ++ upActions) IncidentStore.empty)
  have hstale : ∃ i ∈ (afterActions IncidentStore.empty (downActions ++ upActions)).incidents,
      i.id ∈ (afterActions IncidentStore.empty (downActions ++ upActions)).reasoned ∧
      ∀ c ∈ currentConclusions
        (afterActions IncidentStore.empty (downActions ++ upActions)).conclusions i.id,
        i.causeKind ≠ some c.causeKind := by decide
  obtain ⟨i, hi, hreasoned, hne⟩ := hstale
  obtain ⟨c, hc, hcause, -⟩ := hcurrent i hi hreasoned
  exact hne c (hc ▸ List.mem_singleton_self c) hcause

end SentinelNet.Observability
