import SentinelNet.Observability.Rules
import SentinelNet.Lib.RowIds

/-!
# The correlator

`correlate_once` of `observability/correlator.py` turns the conclusions of the rules into rows of
the table `evidence`: first all findings, then all retractions, which see the new rows too.

* `correlateOnce`: a cycle.
* `mem_correlateOnce`: where a row of the table comes from, and what may have retracted it.
-/

namespace SentinelNet.Observability

open PyDict PyText

/-! ## Suppressions -/

/-- A rule of `observability/suppression.py`. -/
structure Suppression where
  tenant : String
  entityKey : String
  interface : Option String := none
  fromTs : Option ℤ := none
  toTs : Option ℤ := none

def Suppression.covers (s : Suppression) (interface : Option String) : Bool :=
  match nonempty s.interface with
  | none => true
  | some target => target = "*" || interface = some target

def Suppression.inWindow (s : Suppression) (ts : ℤ) : Bool :=
  (s.fromTs.all fun t => t ≤ ts) && (s.toTs.all fun t => ts ≤ t)

/-- `active(...) is not None`. -/
def suppressed (suppressions : List Suppression) (tenant entityKey : String)
    (interface : Option String) (ts : ℤ) : Bool :=
  entityKey ≠ "" && suppressions.any fun s =>
    s.tenant = tenant && s.entityKey = entityKey && s.covers interface && s.inWindow ts

/-! ## The table -/

/-- Which evidence took a row back, by which rule, when and why. -/
structure Retracted where
  byEvidence : Option ℕ
  byRule : String
  retractedAt : ℤ
  reason : String

/-- A row of `evidence`.  The columns of the fact are those of the finding; the interface of a
finding is no column, the row keeps it to say what it is about.  The status is `retracted` where
there is a retraction. -/
structure Evidence where
  id : ℕ
  createdTs : ℤ
  finding : Finding
  ruleId : String
  ruleVersion : String
  params : Params
  switchPort : Option String
  dedupKey : String
  incidentId : Option ℕ := none
  retraction : Option Retracted := none

/-- `status = 'active'`. -/
def Evidence.active (row : Evidence) : Bool := row.retraction.isNone

def nextEvidenceId (rows : List Evidence) : ℕ := RowIds.next (rows.map Evidence.id)

/-- What a cycle reads besides the tables: Python, the settings, the switch port that `mac_history`
knows for a client, and the hash of the keys. -/
structure Environment where
  python : Python
  settings : RuleSettings
  suppressions : List Suppression
  clientPort : String → String → Option String
  sha256 : String → String

section Cycle

variable (env : Environment) (now : ℤ)

def switchPortFor (srcIp tenant : String) : Option String :=
  if isEndpoint env.python (some srcIp) then env.clientPort srcIp tenant else none

/-- The switch port of a row. -/
def evidencePort (f : Finding) : Option String :=
  match f.switchPort, nonempty f.srcIp with
  | none, some srcIp => if f.role = .trigger then switchPortFor env srcIp f.tenant else none
  | port, _ => port

def evidenceKey (ruleId version : String) (f : Finding) : String :=
  env.sha256 (ruleId ++ "|" ++ version ++ "|" ++ str f.eventId ++ "|" ++ f.role.word ++ "|" ++
    f.entityKey ++ "|" ++ f.key.getD "")

def evidenceRow (rows : List Evidence) (ruleId version : String) (params : Params) (f : Finding) :
    Evidence where
  id := nextEvidenceId rows
  createdTs := now
  finding := f
  ruleId := ruleId
  ruleVersion := version
  params := params
  switchPort := evidencePort env f
  dedupKey := evidenceKey env ruleId version f

/-- `_insert_finding`: the table, the number of the row with the key and how many rows are new. -/
def insertFinding (ruleId version : String) (params : Params) (rows : List Evidence)
    (f : Finding) : List Evidence × ℕ × ℕ :=
  match rows.find? fun row => row.dedupKey = evidenceKey env ruleId version f with
  | some row => (rows, row.id, 0)
  | none => (rows ++ [evidenceRow env now rows ruleId version params f], nextEvidenceId rows, 1)

def targets (r : Retraction) (row : Evidence) : Bool :=
  row.finding.tenant = r.tenant && row.finding.entityKey = r.entityKey &&
    row.ruleId = r.targetRuleId && row.active && r.witness.ts - r.windowS ≤ row.finding.ts

/-- The row, taken back if it is among the given ones. -/
def takeBack (ids : List ℕ) (mark : Retracted) (row : Evidence) : Evidence :=
  if row.id ∈ ids then { row with retraction := some mark } else row

/-- `_apply_retraction`: the table and how many rows are new. -/
def applyRetraction (ruleId version : String) (params : Params) (rows : List Evidence)
    (r : Retraction) : List Evidence × ℕ :=
  if (rows.filter (targets r)).isEmpty then (rows, 0)
  else
    let (inserted, witnessId, created) := insertFinding env now ruleId version params rows r.witness
    (inserted.map (takeBack ((rows.filter (targets r)).map Evidence.id)
      ⟨some witnessId, ruleId, now, r.reason⟩), created)

/-! ## The cycle -/

/-- `item.key or ""`. -/
def findingKey (f : Finding) : String := f.key.getD ""

/-- How many distinct events support a conclusion of a rule about an entity. -/
def observations (produced : List Produced) (ruleId : String) (f : Finding) : ℕ :=
  (produced.filterMap fun p =>
    match p.item with
    | .finding g =>
      if p.ruleId = ruleId ∧ g.tenant = f.tenant ∧ g.entityKey = f.entityKey ∧
          findingKey g = findingKey f then
        some g.eventId
      else none
    | .retraction _ => none).dedup.length

/-- A finding is confirmed, declared and not suppressed. -/
def accepted (produced : List Produced) (p : Produced) (f : Finding) : Bool :=
  intParam p.params "min_observations" ≤ observations produced p.ruleId f &&
    declaresOutput p.ruleId (.role f.role) &&
    !suppressed env.suppressions f.tenant f.entityKey f.interface f.ts

/-- The table, and how many rows are new. -/
abbrev Emission := List Evidence × ℕ

/-- One turn of the first loop. -/
def emitFinding (produced : List Produced) (acc : Emission) (p : Produced) : Emission :=
  match p.item with
  | .finding f =>
    if accepted env produced p f then
      let (rows, _, created) := insertFinding env now p.ruleId p.version p.params acc.1 f
      (rows, acc.2 + created)
    else acc
  | .retraction _ => acc

/-- One turn of the second loop. -/
def emitRetraction (acc : Emission) (p : Produced) : Emission :=
  match p.item with
  | .finding _ => acc
  | .retraction r =>
    if declaresOutput p.ruleId .retraction then
      let (rows, created) := applyRetraction env now p.ruleId p.version p.params acc.1 r
      (rows, acc.2 + created)
    else acc

/-- The first loop. -/
def emitFindings (produced : List Produced) (rows : List Evidence) : Emission :=
  produced.foldl (emitFinding env now produced) (rows, 0)

def correlateOnce (events : List EventRow) (rows : List Evidence) : Emission :=
  let produced := evaluate env.python env.settings none events
  produced.foldl (emitRetraction env now) (emitFindings env now produced rows)

/-! ## Where rows come from -/

/-- A number is in one row at most. -/
def UniqueIds (rows : List Evidence) : Prop := (rows.map Evidence.id).Nodup

variable {env now}

variable {ruleId version : String} {params : Params} {rows : List Evidence} {row : Evidence}

theorem mem_insertFinding {f : Finding}
    (h : row ∈ (insertFinding env now ruleId version params rows f).1) :
    row ∈ rows ∨ row = evidenceRow env now rows ruleId version params f ∧
      ∀ old ∈ rows, old.dedupKey ≠ evidenceKey env ruleId version f := by
  unfold insertFinding at h
  split at h
  · exact Or.inl h
  · next hnone =>
    rcases List.mem_append.mp h with h | h
    · exact Or.inl h
    · have hnew := List.find?_eq_none.mp hnone
      exact Or.inr ⟨List.mem_singleton.mp h, fun old hold => by simpa using hnew old hold⟩

theorem mem_insertFinding_of_mem {f : Finding} (h : row ∈ rows) :
    row ∈ (insertFinding env now ruleId version params rows f).1 := by
  unfold insertFinding
  split
  · exact h
  · exact List.mem_append_left _ h

theorem UniqueIds.insertFinding {ruleId version : String} {params : Params}
    {rows : List Evidence} (h : UniqueIds rows) (f : Finding) :
    UniqueIds (insertFinding env now ruleId version params rows f).1 := by
  unfold Observability.insertFinding
  split
  · exact h
  · show ((rows ++ [_]).map Evidence.id).Nodup
    rw [List.map_append]
    exact RowIds.nodup_concat_next h

@[simp] theorem takeBack_id (ids : List ℕ) (mark : Retracted) (row : Evidence) :
    (takeBack ids mark row).id = row.id := by
  unfold takeBack
  split
  · rfl
  · rfl

theorem UniqueIds.applyRetraction {ruleId version : String} {params : Params}
    {rows : List Evidence} (h : UniqueIds rows) (r : Retraction) :
    UniqueIds (applyRetraction env now ruleId version params rows r).1 := by
  unfold Observability.applyRetraction
  split
  · exact h
  · show ((List.map _ _).map Evidence.id).Nodup
    rw [List.map_map]
    have hids (ids : List ℕ) (mark : Retracted) : Evidence.id ∘ takeBack ids mark = Evidence.id :=
      funext (takeBack_id ids mark)
    rw [hids]
    exact h.insertFinding r.witness

theorem mem_applyRetraction (hids : UniqueIds rows) {r : Retraction}
    (h : row ∈ (applyRetraction env now ruleId version params rows r).1) :
    row ∈ rows ∨
      (∃ old ∈ rows, targets r old = true ∧
        ∃ mark, mark.retractedAt = now ∧ row = { old with retraction := some mark }) ∨
      ∃ earlier, row = evidenceRow env now earlier ruleId version params r.witness := by
  unfold applyRetraction at h
  split at h
  · exact Or.inl h
  · obtain ⟨old, hold, rfl⟩ := List.mem_map.mp h
    have hrows : ∀ old' ∈ rows, old'.id ∈ (rows.filter (targets r)).map Evidence.id →
        targets r old' = true := by
      intro old' hold' hmem
      obtain ⟨t, ht, hid⟩ := List.mem_map.mp hmem
      have hsame := List.inj_on_of_nodup_map hids (List.mem_filter.mp ht).1 hold' hid
      rw [← hsame]
      exact (List.mem_filter.mp ht).2
    unfold takeBack
    split
    · next hin =>
      rcases mem_insertFinding hold with hold | ⟨rfl, -⟩
      · exact Or.inr (Or.inl ⟨old, hold, hrows old hold hin, _, rfl, rfl⟩)
      · obtain ⟨t, ht, hid⟩ := List.mem_map.mp hin
        have hlt := RowIds.lt_next (List.mem_map_of_mem (f := Evidence.id) (List.mem_filter.mp ht).1)
        exact absurd hid hlt.ne
    · rcases mem_insertFinding hold with hold | ⟨rfl, -⟩
      · exact Or.inl hold
      · exact Or.inr (Or.inr ⟨rows, rfl⟩)

/-- A row of a finding that the rules produced, which was not yet there. -/
def IsNew (env : Environment) (now : ℤ) (produced : List Produced) (rows : List Evidence)
    (row : Evidence) : Prop :=
  ∃ p ∈ produced, ∃ f, p.item = .finding f ∧ accepted env produced p f = true ∧
    (∀ old ∈ rows, old.dedupKey ≠ evidenceKey env p.ruleId p.version f) ∧
    ∃ earlier, row = evidenceRow env now earlier p.ruleId p.version p.params f

variable {produced : List Produced} {acc : Emission}

theorem emitFinding_rows {p : Produced} (hp : p ∈ produced) (hids : UniqueIds acc.1) :
    UniqueIds (emitFinding env now produced acc p).1 ∧
      (∀ row ∈ acc.1, row ∈ (emitFinding env now produced acc p).1) ∧
      ∀ row ∈ (emitFinding env now produced acc p).1,
        row ∈ acc.1 ∨ IsNew env now produced acc.1 row := by
  unfold emitFinding
  split
  · next f hf =>
    split
    · next haccepted =>
      refine ⟨hids.insertFinding f, fun row hrow => mem_insertFinding_of_mem hrow,
        fun row hrow => ?_⟩
      rcases mem_insertFinding hrow with hrow | ⟨hrow, hnew⟩
      · exact Or.inl hrow
      · exact Or.inr ⟨p, hp, f, hf, haccepted, hnew, _, hrow⟩
    · exact ⟨hids, fun _ h => h, fun _ h => Or.inl h⟩
  · exact ⟨hids, fun _ h => h, fun _ h => Or.inl h⟩

theorem foldl_emitFinding_rows {ps : List Produced}
    (hps : ∀ p ∈ ps, p ∈ produced) (hids : UniqueIds acc.1) :
    UniqueIds (ps.foldl (emitFinding env now produced) acc).1 ∧
      ∀ row ∈ (ps.foldl (emitFinding env now produced) acc).1,
        row ∈ acc.1 ∨ IsNew env now produced acc.1 row := by
  induction ps generalizing acc with
  | nil => exact ⟨hids, fun _ h => Or.inl h⟩
  | cons p ps ih =>
    obtain ⟨hids', hgrow, hrows⟩ :=
      @emitFinding_rows env now _ _ p (hps p List.mem_cons_self) hids
    obtain ⟨hdone, hfrom⟩ := ih (List.forall_mem_cons.mp hps).2 hids'
    refine ⟨hdone, fun row hrow => ?_⟩
    rcases hfrom row hrow with hrow | ⟨q, hq, f, hf, haccepted, hnew, earlier, hrow⟩
    · exact hrows row hrow
    · exact Or.inr ⟨q, hq, f, hf, haccepted, fun old hold => hnew old (hgrow old hold), earlier,
        hrow⟩

/-- A row that a retraction of the rules took back at this time, or the one that says why. -/
def Follows (now : ℤ) (produced : List Produced) (rows : List Evidence)
    (row : Evidence) : Prop :=
  row ∈ rows ∨
    (∃ old ∈ rows, ∃ p ∈ produced, ∃ r, p.item = .retraction r ∧ targets r old = true ∧
      ∃ mark, mark.retractedAt = now ∧ row = { old with retraction := some mark }) ∨
    ∃ p ∈ produced, ∃ r, p.item = .retraction r ∧ row.ruleId = p.ruleId ∧
      row.finding = r.witness ∧ row.incidentId = none

theorem Follows.trans {rows' : List Evidence} (h : ∀ row ∈ rows', Follows now produced rows row)
    (hrow : Follows now produced rows' row) : Follows now produced rows row := by
  rcases hrow with hrow | ⟨old, hold, p, hp, r, hr, htarget, mark, hmark, rfl⟩ | hwitness
  · exact h row hrow
  · rcases h old hold with hold | ⟨older, -, -, -, -, -, -, mark', -, rfl⟩ |
      ⟨q, hq, s, hs, hrule, hfinding, hfree⟩
    · exact Or.inr (Or.inl ⟨old, hold, p, hp, r, hr, htarget, mark, hmark, rfl⟩)
    · -- a row that was taken back is no target
      simp [targets, Evidence.active] at htarget
    · exact Or.inr (Or.inr ⟨q, hq, s, hs, hrule, hfinding, hfree⟩)
  · exact Or.inr (Or.inr hwitness)

theorem emitRetraction_rows {p : Produced} (hp : p ∈ produced) (hids : UniqueIds acc.1) :
    UniqueIds (emitRetraction env now acc p).1 ∧
      ∀ row ∈ (emitRetraction env now acc p).1, Follows now produced acc.1 row := by
  unfold emitRetraction
  split
  · exact ⟨hids, fun _ h => Or.inl h⟩
  · next r hr =>
    split
    · refine ⟨hids.applyRetraction r, fun row hrow => ?_⟩
      rcases mem_applyRetraction hids hrow with hrow | ⟨old, hold, htarget, mark, hmark, rfl⟩ |
        ⟨earlier, rfl⟩
      · exact Or.inl hrow
      · exact Or.inr (Or.inl ⟨old, hold, p, hp, r, hr, htarget, mark, hmark, rfl⟩)
      · exact Or.inr (Or.inr ⟨p, hp, r, hr, rfl, rfl, rfl⟩)
    · exact ⟨hids, fun _ h => Or.inl h⟩

theorem foldl_emitRetraction_rows {ps : List Produced}
    (hps : ∀ p ∈ ps, p ∈ produced) (hids : UniqueIds acc.1) :
    UniqueIds (ps.foldl (emitRetraction env now) acc).1 ∧
      ∀ row ∈ (ps.foldl (emitRetraction env now) acc).1, Follows now produced acc.1 row := by
  induction ps generalizing acc with
  | nil => exact ⟨hids, fun _ h => Or.inl h⟩
  | cons p ps ih =>
    obtain ⟨hids', hrows⟩ :=
      @emitRetraction_rows env now _ _ p (hps p List.mem_cons_self) hids
    obtain ⟨hdone, hfrom⟩ := ih (List.forall_mem_cons.mp hps).2 hids'
    exact ⟨hdone, fun row hrow => (hfrom row hrow).trans hrows⟩

theorem mem_emitFindings (hids : UniqueIds rows)
    (h : row ∈ (emitFindings env now produced rows).1) :
    row ∈ rows ∨ IsNew env now produced rows row :=
  (foldl_emitFinding_rows (fun _ hp => hp) hids).2 row h

theorem UniqueIds.emitFindings {produced : List Produced} {rows : List Evidence}
    (h : UniqueIds rows) : UniqueIds (emitFindings env now produced rows).1 :=
  (foldl_emitFinding_rows (fun _ hp => hp) h).1

/-- The numbers stay distinct over a cycle. -/
theorem UniqueIds.correlateOnce {events : List EventRow} {rows : List Evidence}
    (h : UniqueIds rows) : UniqueIds (correlateOnce env now events rows).1 :=
  (foldl_emitRetraction_rows (fun _ hp => hp) h.emitFindings).1

variable {events : List EventRow}

/-- A row after a cycle follows from one of the table or of the first loop. -/
theorem mem_correlateOnce (h : UniqueIds rows)
    (hrow : row ∈ (correlateOnce env now events rows).1) :
    Follows now (evaluate env.python env.settings none events)
      (emitFindings env now (evaluate env.python env.settings none events) rows).1 row :=
  (foldl_emitRetraction_rows (fun _ hp => hp) h.emitFindings).2 row hrow

/-! ## What a cycle keeps -/

theorem exists_of_assigned (h : UniqueIds rows)
    (hrow : row ∈ (correlateOnce env now events rows).1) {id : ℕ}
    (hid : row.incidentId = some id) :
    ∃ old ∈ rows, ∃ mark, row = { old with retraction := mark } := by
  have hfirst : ∀ old ∈ (emitFindings env now
      (evaluate env.python env.settings none events) rows).1, old.incidentId = some id →
      old ∈ rows := by
    intro old hold hassigned
    rcases mem_emitFindings h hold with hold | ⟨p, -, f, -, -, -, earlier, rfl⟩
    · exact hold
    · exact absurd hassigned (by simp [evidenceRow])
  rcases mem_correlateOnce h hrow with hrow | ⟨old, hold, -, -, -, -, -, mark, -, rfl⟩ |
    ⟨-, -, -, -, -, -, hfree⟩
  · exact ⟨row, hfirst row hrow hid, row.retraction, rfl⟩
  · exact ⟨old, hfirst old hold hid, some mark, rfl⟩
  · exact absurd (hfree.symm.trans hid) (by simp)

theorem exists_mem_emitRetraction {p : Produced}
    (h : row ∈ acc.1) : ∃ mark, { row with retraction := mark } ∈ (emitRetraction env now acc p).1 := by
  unfold emitRetraction
  split
  · exact ⟨row.retraction, h⟩
  · next r hr =>
    split
    · show ∃ mark, _ ∈ (applyRetraction env now p.ruleId p.version p.params acc.1 r).1
      unfold applyRetraction
      split
      · exact ⟨row.retraction, h⟩
      · have hin := @mem_insertFinding_of_mem env now p.ruleId p.version p.params _ _ r.witness h
        have hmap := List.mem_map_of_mem (f := takeBack ((acc.1.filter (targets r)).map Evidence.id)
          ⟨some (insertFinding env now p.ruleId p.version p.params acc.1 r.witness).2.1, p.ruleId,
            now, r.reason⟩) hin
        unfold takeBack at hmap
        split at hmap
        · exact ⟨_, hmap⟩
        · exact ⟨row.retraction, hmap⟩
    · exact ⟨row.retraction, h⟩

theorem exists_mem_correlateOnce (h : row ∈ rows) :
    ∃ mark, { row with retraction := mark } ∈ (correlateOnce env now events rows).1 := by
  have hfirst (ps produced : List Produced) (acc : Emission) (hacc : row ∈ acc.1) :
      row ∈ (ps.foldl (emitFinding env now produced) acc).1 := by
    induction ps generalizing acc with
    | nil => exact hacc
    | cons p ps ih =>
      refine ih _ ?_
      unfold emitFinding
      split
      · split
        · exact mem_insertFinding_of_mem hacc
        · exact hacc
      · exact hacc
  have hsecond (ps : List Produced) (acc : Emission)
      (hacc : ∃ mark, { row with retraction := mark } ∈ acc.1) :
      ∃ mark, { row with retraction := mark } ∈ (ps.foldl (emitRetraction env now) acc).1 := by
    induction ps generalizing acc with
    | nil => exact hacc
    | cons p ps ih =>
      obtain ⟨mark, hmark⟩ := hacc
      obtain ⟨mark', hmark'⟩ :=
        @exists_mem_emitRetraction env now { row with retraction := mark } acc p hmark
      exact ih _ ⟨mark', hmark'⟩
  exact hsecond _ _ ⟨row.retraction, hfirst _ _ _ h⟩

end Cycle

end SentinelNet.Observability
