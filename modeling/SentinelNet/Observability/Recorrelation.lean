import SentinelNet.Observability.Retractions
import SentinelNet.Lib.Runs

/-!
# Correlating again

`correlate_once` reads a window of the table `events` at every cycle.  The windows overlap, and the
key of the evidence is what keeps a conclusion from being written twice.

* `recorrelate_idempotent`: what cycles leave that read no new event.
* `comparingRules_anew`: each rule that compares may conclude when an event leaves the window.
-/

namespace SentinelNet.Observability

open PyText StepRuns

/-! ## The window -/

def correlationLookbackS : ℤ := 900

def maxEventsPerCycle : ℕ := 2000

def recentAt (now : ℤ) (table : List EventRow) : List EventRow :=
  table.filter fun e =>
    now - correlationLookbackS ≤ e.ts || now - correlationLookbackS ≤ e.ingestedTs

/-- The rows that a cycle reads, `ORDER BY ts ASC LIMIT`. -/
def windowAt (now : ℤ) (table : List EventRow) : List EventRow :=
  ((recentAt now table).insertionSort fun e e' => e.ts ≤ e'.ts).take maxEventsPerCycle

theorem windowAt_subset {table : List EventRow} {now now' : ℤ} (hle : now ≤ now')
    (hlimit : (recentAt now table).length ≤ maxEventsPerCycle) :
    windowAt now' table ⊆ windowAt now table := by
  intro e he
  have hrecent := (List.mem_insertionSort _).mp (List.mem_of_mem_take he)
  obtain ⟨hmem, htime⟩ := List.mem_filter.mp hrecent
  rw [windowAt, List.take_of_length_le (by rwa [List.length_insertionSort]),
    List.mem_insertionSort]
  refine List.mem_filter.mpr ⟨hmem, ?_⟩
  rw [Bool.or_eq_true, decide_eq_true_iff, decide_eq_true_iff] at htime ⊢
  omega

/-! ## The evidence -/

/-- What a row says: the rule and its version, the event, the role, the entity and which of the
conclusions about them. -/
def Evidence.conclusion (row : Evidence) : String × String × ℕ × Role × String × String :=
  (row.ruleId, row.ruleVersion, row.finding.eventId, row.finding.role, row.finding.entityKey,
    findingKey row.finding)

/-- The table `evidence`: numbers and keys are distinct, and the key is the hash of what a row
says. -/
structure EvidenceTable (env : Environment) where
  rows : List Evidence
  ids : UniqueIds rows
  keys : (rows.map Evidence.dedupKey).Nodup
  hashed : ∀ row ∈ rows, row.dedupKey = evidenceKey env row.ruleId row.ruleVersion row.finding

section Cycle

variable {env : Environment}

variable {row : Evidence}

theorem EvidenceTable.eq_of_conclusion (t : EvidenceTable env) {row' : Evidence}
    (hrow : row ∈ t.rows) (hrow' : row' ∈ t.rows) (h : row.conclusion = row'.conclusion) :
    row = row' := by
  refine List.inj_on_of_nodup_map t.keys hrow hrow' ?_
  rw [t.hashed row hrow, t.hashed row' hrow']
  simp only [Evidence.conclusion, findingKey, Prod.mk.injEq] at h
  obtain ⟨hrule, hversion, hevent, hrole, hentity, hkey⟩ := h
  unfold evidenceKey
  rw [hrule, hversion, hevent, hrole, hentity, hkey]

variable {now : ℤ} {events : List EventRow} {rows : List Evidence}

theorem correlateOnce_induction {I : List Evidence → Prop}
    (hinsert : ∀ p ∈ evaluate env.python env.settings none events, ∀ f, p.item = .finding f →
      accepted env (evaluate env.python env.settings none events) p f = true →
      ∀ rows, I rows → I (insertFinding env now p.ruleId p.version p.params rows f).1)
    (hretract : ∀ p ∈ evaluate env.python env.settings none events, ∀ r, p.item = .retraction r →
      ∀ rows, I rows → I (applyRetraction env now p.ruleId p.version p.params rows r).1)
    (h : I rows) : I (correlateOnce env now events rows).1 := by
  have hfindings : I (emitFindings env now (evaluate env.python env.settings none events) rows).1 := by
    refine List.foldlRecOn (motive := fun acc : Emission => I acc.1) _ _ h fun acc hacc p hp => ?_
    unfold emitFinding
    split
    · next f hf =>
      split
      · next haccepted => exact hinsert p hp f hf haccepted _ hacc
      · exact hacc
    · exact hacc
  refine List.foldlRecOn (motive := fun acc : Emission => I acc.1) _ _ hfindings
    fun acc hacc p hp => ?_
  unfold emitRetraction
  split
  · exact hacc
  · next r hr =>
    split
    · exact hretract p hp r hr _ hacc
    · exact hacc

/-- Keys are distinct, and are the hashes of what the rows say. -/
structure Hashed (env : Environment) (rows : List Evidence) : Prop where
  keys : (rows.map Evidence.dedupKey).Nodup
  hashed : ∀ row ∈ rows, row.dedupKey = evidenceKey env row.ruleId row.ruleVersion row.finding

theorem Hashed.insertFinding {rows : List Evidence} (h : Hashed env rows) (now : ℤ)
    (ruleId version : String) (params : Params) (f : Finding) :
    Hashed env (insertFinding env now ruleId version params rows f).1 := by
  unfold Observability.insertFinding
  split
  · exact h
  · next hnone =>
    constructor
    · show ((rows ++ [_]).map Evidence.dedupKey).Nodup
      rw [List.map_append]
      refine List.Nodup.append h.keys (List.nodup_singleton _) fun key hkey hnew => ?_
      obtain ⟨row, hrow, rfl⟩ := List.mem_map.mp hkey
      have hother := List.find?_eq_none.mp hnone row hrow
      rw [List.mem_singleton.mp hnew] at hother
      exact hother (decide_eq_true rfl)
    · intro row hrow
      rcases List.mem_append.mp hrow with hrow | hrow
      · exact h.hashed row hrow
      · rw [List.mem_singleton.mp hrow]
        rfl

theorem takeBack_eq (ids : List ℕ) (mark : Retracted) (row : Evidence) :
    ∃ mark', takeBack ids mark row = { row with retraction := mark' } := by
  unfold takeBack
  split
  · exact ⟨some mark, rfl⟩
  · exact ⟨row.retraction, rfl⟩

theorem takeBack_dedupKey (ids : List ℕ) (mark : Retracted) (row : Evidence) :
    (takeBack ids mark row).dedupKey = row.dedupKey := by
  obtain ⟨mark', heq⟩ := takeBack_eq ids mark row
  rw [heq]

theorem Hashed.takeBack {rows : List Evidence} (h : Hashed env rows) (ids : List ℕ)
    (mark : Retracted) : Hashed env (rows.map (takeBack ids mark)) := by
  constructor
  · have hsame : Evidence.dedupKey ∘ Observability.takeBack ids mark = Evidence.dedupKey :=
      funext (takeBack_dedupKey ids mark)
    rw [List.map_map, hsame]
    exact h.keys
  · intro row hrow
    obtain ⟨old, hold, rfl⟩ := List.mem_map.mp hrow
    obtain ⟨mark', heq⟩ := takeBack_eq ids mark old
    rw [heq]
    exact h.hashed old hold

theorem Hashed.applyRetraction {rows : List Evidence} (h : Hashed env rows) (now : ℤ)
    (ruleId version : String) (params : Params) (r : Retraction) :
    Hashed env (applyRetraction env now ruleId version params rows r).1 := by
  unfold Observability.applyRetraction
  split
  · exact h
  · exact (h.insertFinding now ruleId version params r.witness).takeBack _ _

def EvidenceTable.correlate (t : EvidenceTable env) (now : ℤ) (events : List EventRow) :
    EvidenceTable env :=
  have h : Hashed env (correlateOnce env now events t.rows).1 :=
    correlateOnce_induction (fun _ _ _ _ _ _ h => h.insertFinding now _ _ _ _)
      (fun _ _ _ _ _ h => h.applyRetraction now _ _ _ _) ⟨t.keys, t.hashed⟩
  ⟨(correlateOnce env now events t.rows).1, t.ids.correlateOnce, h.keys, h.hashed⟩

/-- Cycles at some times, on the same events. -/
def EvidenceTable.recorrelate (t : EvidenceTable env) (table : List EventRow) (nows : List ℤ) :
    EvidenceTable env :=
  nows.foldl (fun t now => t.correlate now (windowAt now table)) t

/-! ## What a cycle has nothing to add to -/

/-- Rows of some rules. -/
def rowsOf (E : String → Bool) (rows : List Evidence) : List Evidence :=
  rows.filter fun row => E row.ruleId

/-- For some rules all is said and done: their conclusions are in the table, and their retractions
find nothing to take back. -/
structure Exhausted (env : Environment) (E : String → Bool) (produced : List Produced)
    (rows : List Evidence) : Prop where
  known : ∀ p ∈ produced, E p.ruleId = true → ∀ f, p.item = .finding f →
    accepted env produced p f = true →
    ∃ row ∈ rows, row.dedupKey = evidenceKey env p.ruleId p.version f
  quiet : ∀ p ∈ produced, E p.ruleId = true → ∀ r, p.item = .retraction r →
    ∀ row ∈ rows, targets r row = false

/-- Retractions by some rules are of conclusions of these, retractions by others of others. -/
def Closed (E : String → Bool) (produced : List Produced) : Prop :=
  ∀ p ∈ produced, ∀ r, p.item = .retraction r → E r.targetRuleId = E p.ruleId

/-- What some rules conclude from some events they conclude from others. -/
structure Carried (env : Environment) (E : String → Bool) (produced produced' : List Produced) :
    Prop where
  mem : ∀ p ∈ produced', E p.ruleId = true → p ∈ produced
  accepted : ∀ p ∈ produced', E p.ruleId = true → ∀ f,
    Observability.accepted env produced' p f = true → Observability.accepted env produced p f = true

/-- The rows of some rules stay as they are, and no key goes. -/
structure Untouched (E : String → Bool) (rows rows' : List Evidence) : Prop where
  rowsOf_eq : rowsOf E rows' = rowsOf E rows
  keys : ∀ row ∈ rows, ∃ row' ∈ rows', row'.dedupKey = row.dedupKey
  ids : UniqueIds rows'

variable {E : String → Bool}

theorem Untouched.trans {rows' rows'' : List Evidence}
    (h : Untouched E rows rows') (h' : Untouched E rows' rows'') : Untouched E rows rows'' where
  rowsOf_eq := h'.rowsOf_eq.trans h.rowsOf_eq
  keys row hrow := by
    obtain ⟨row', hrow', hkey⟩ := h.keys row hrow
    obtain ⟨row'', hrow'', hkey'⟩ := h'.keys row' hrow'
    exact ⟨row'', hrow'', hkey'.trans hkey⟩
  ids := h'.ids

theorem Untouched.refl (h : UniqueIds rows) :
    Untouched E rows rows := ⟨rfl, fun row hrow => ⟨row, hrow, rfl⟩, h⟩

variable {r : Retraction}

theorem ruleId_of_targets (h : targets r row) : row.ruleId = r.targetRuleId := by
  simp only [targets, Bool.and_eq_true, decide_eq_true_eq] at h
  exact h.1.1.2

theorem mem_rowsOf : row ∈ rowsOf E rows ↔ row ∈ rows ∧ E row.ruleId = true := List.mem_filter

variable {produced : List Produced}

theorem Exhausted.undisturbed
    {rows' : List Evidence} (h : Exhausted env E produced rows) (hclosed : Closed E produced)
    (hrows : Untouched E rows rows') : Exhausted env E produced rows' where
  known p hp hE f hf haccepted := by
    obtain ⟨row, hrow, hkey⟩ := h.known p hp hE f hf haccepted
    obtain ⟨row', hrow', hkey'⟩ := hrows.keys row hrow
    exact ⟨row', hrow', hkey'.trans hkey⟩
  quiet p hp hE r hr row hrow := by
    rw [Bool.eq_false_iff]
    intro htarget
    have hin : row ∈ rowsOf E rows' :=
      mem_rowsOf.mpr ⟨hrow, by rw [ruleId_of_targets htarget, hclosed p hp r hr, hE]⟩
    rw [hrows.rowsOf_eq] at hin
    exact absurd htarget (by rw [h.quiet p hp hE r hr row (mem_rowsOf.mp hin).1]; decide)

variable {ruleId version : String} {params : Params} {f : Finding}

theorem undisturbed_insertFinding (hids : UniqueIds rows) (hE : E ruleId = false) :
    Untouched E rows (insertFinding env now ruleId version params rows f).1 := by
  refine ⟨?_, fun row hrow => ⟨row, mem_insertFinding_of_mem hrow, rfl⟩, hids.insertFinding f⟩
  unfold insertFinding
  split
  · rfl
  · simp [rowsOf, evidenceRow, hE]

theorem rowsOf_map {g : Evidence → Evidence} (hrule : ∀ row, (g row).ruleId = row.ruleId)
    (hsame : ∀ row ∈ rows, E row.ruleId = true → g row = row) :
    rowsOf E (rows.map g) = rowsOf E rows := by
  induction rows with
  | nil => rfl
  | cons row rows ih =>
    have hrest := ih (List.forall_mem_cons.mp hsame).2
    unfold rowsOf at hrest ⊢
    rw [List.map_cons, List.filter_cons, List.filter_cons, hrule, hrest]
    split
    · next hE => rw [hsame row List.mem_cons_self hE]
    · rfl

theorem undisturbed_applyRetraction (hids : UniqueIds rows)
    (hE : E ruleId = false) (htarget : E r.targetRuleId = false) :
    Untouched E rows (applyRetraction env now ruleId version params rows r).1 := by
  have hinserted := @undisturbed_insertFinding env now rows E ruleId version params r.witness hids hE
  have hunique : UniqueIds (applyRetraction env now ruleId version params rows r).1 :=
    hids.applyRetraction r
  unfold applyRetraction at hunique ⊢
  split
  · exact Untouched.refl hids
  · next hsome =>
    rw [if_neg hsome] at hunique
    refine hinserted.trans ⟨rowsOf_map (fun row => ?_) fun row hrow hrule => ?_,
      fun row hrow => ⟨_, List.mem_map_of_mem hrow, takeBack_dedupKey _ _ row⟩, hunique⟩
    · obtain ⟨mark, heq⟩ := takeBack_eq _ _ row
      rw [heq]
    · refine if_neg fun hmem => ?_
      obtain ⟨t, ht, hid⟩ := List.mem_map.mp hmem
      obtain ⟨htin, htargets⟩ := List.mem_filter.mp ht
      rw [← List.inj_on_of_nodup_map hinserted.ids (mem_insertFinding_of_mem htin) hrow hid,
        ruleId_of_targets htargets, htarget] at hrule
      exact absurd hrule (by decide)

theorem insertFinding_of_known (h : ∃ row ∈ rows, row.dedupKey = evidenceKey env ruleId version f) :
    (insertFinding env now ruleId version params rows f).1 = rows := by
  obtain ⟨row, hrow, hkey⟩ := h
  unfold insertFinding
  split
  · rfl
  · next hnone => exact absurd (decide_eq_true hkey) (List.find?_eq_none.mp hnone row hrow)

theorem applyRetraction_of_quiet (h : ∀ row ∈ rows, targets r row = false) :
    (applyRetraction env now ruleId version params rows r).1 = rows := by
  have hnone : rows.filter (targets r) = [] :=
    List.filter_eq_nil_iff.mpr fun row hrow => by rw [h row hrow]; decide
  rw [applyRetraction, hnone]
  rfl

theorem undisturbed_correlateOnce (h : Exhausted env E produced rows)
    (hids : UniqueIds rows) (hclosed : Closed E produced)
    (hclosed' : Closed E (evaluate env.python env.settings none events))
    (hcarried : Carried env E produced (evaluate env.python env.settings none events)) :
    Untouched E rows (correlateOnce env now events rows).1 := by
  refine correlateOnce_induction (fun p hp f hf haccepted rows' hrows' => ?_)
    (fun p hp r hr rows' hrows' => ?_) (Untouched.refl hids)
  · cases hE : E p.ruleId with
    | true =>
      have hknown := (h.undisturbed hclosed hrows').known p (hcarried.mem p hp hE) hE f hf
        (hcarried.accepted p hp hE f haccepted)
      rwa [insertFinding_of_known hknown]
    | false => exact hrows'.trans (undisturbed_insertFinding hrows'.ids hE)
  · cases hE : E p.ruleId with
    | true =>
      have hquiet := (h.undisturbed hclosed hrows').quiet p (hcarried.mem p hp hE) hE r hr
      rwa [applyRetraction_of_quiet hquiet]
    | false =>
      exact hrows'.trans
        (undisturbed_applyRetraction hrows'.ids hE ((hclosed' p hp r hr).trans hE))

/-! ## What a cycle exhausts -/

theorem known_insertFinding :
    ∃ row ∈ (insertFinding env now ruleId version params rows f).1,
      row.dedupKey = evidenceKey env ruleId version f := by
  unfold insertFinding
  split
  · next row hrow =>
    have hkey := List.find?_some hrow
    exact ⟨row, List.mem_of_find?_eq_some hrow, of_decide_eq_true hkey⟩
  · exact ⟨_, List.mem_append_right _ (List.mem_singleton_self _), rfl⟩

variable {p : Produced}

theorem mem_emitFinding_of_mem {acc : Emission}
    (h : row ∈ acc.1) : row ∈ (emitFinding env now produced acc p).1 := by
  unfold emitFinding
  split
  · split
    · exact mem_insertFinding_of_mem h
    · exact h
  · exact h

theorem known_emitFindings (rows : List Evidence) :
    ∀ p ∈ produced, ∀ f, p.item = .finding f → accepted env produced p f = true →
      ∃ row ∈ (emitFindings env now produced rows).1,
        row.dedupKey = evidenceKey env p.ruleId p.version f := by
  refine forall_foldl
    (Q := fun (acc : Emission) (p : Produced) => ∀ f, p.item = .finding f →
      accepted env produced p f = true →
      ∃ row ∈ acc.1, row.dedupKey = evidenceKey env p.ruleId p.version f)
    (fun acc p _ f hf haccepted => ?_) (fun acc p _ q _ hknown f hf haccepted => ?_) _
  · unfold emitFinding
    rw [hf]
    dsimp only
    rw [if_pos haccepted]
    exact known_insertFinding
  · obtain ⟨row, hrow, hkey⟩ := hknown f hf haccepted
    exact ⟨row, mem_emitFinding_of_mem hrow, hkey⟩

theorem known_correlateOnce {key : String}
    (h : ∃ row ∈ (emitFindings env now (evaluate env.python env.settings none events) rows).1,
      row.dedupKey = key) :
    ∃ row ∈ (correlateOnce env now events rows).1, row.dedupKey = key := by
  refine List.foldlRecOn (motive := fun acc : Emission => ∃ row ∈ acc.1, row.dedupKey = key) _ _ h
    fun acc hacc p _ => ?_
  obtain ⟨row, hrow, hkey⟩ := hacc
  obtain ⟨mark, hmark⟩ := @exists_mem_emitRetraction env now row acc p hrow
  exact ⟨_, hmark, hkey⟩

theorem retraction_apart {q : Produced} (hp : p ∈ evaluate env.python env.settings none events)
    (hq : q ∈ evaluate env.python env.settings none events) {s : Retraction}
    (hr : p.item = .retraction r) (hs : q.item = .retraction s) : q.ruleId ≠ r.targetRuleId := by
  have htarget : r.targetRuleId = interfaceDownSpec.id ∨ r.targetRuleId = trafficSpikeSpec.id := by
    rcases retraction_of_evaluate hp hr with ⟨-, ev, -, -, rfl⟩ | ⟨-, htarget⟩
    · exact Or.inl rfl
    · exact Or.inr htarget
  have hrule : q.ruleId = interfaceRecoveredSpec.id ∨ q.ruleId = baselineNormalSpec.id := by
    rcases retraction_of_evaluate hq hs with ⟨hrule, -⟩ | ⟨hrule, -⟩
    · exact Or.inl hrule
    · exact Or.inr hrule
  rcases htarget with htarget | htarget <;> rcases hrule with hrule | hrule <;>
    rw [htarget, hrule] <;> decide

theorem declaresOutput_retraction (hp : p ∈ evaluate env.python env.settings none events)
    (hr : p.item = .retraction r) : declaresOutput p.ruleId .retraction = true := by
  rcases retraction_of_evaluate hp hr with ⟨hrule, -⟩ | ⟨hrule, -⟩
  · rw [hrule]
    decide
  · rw [hrule]
    decide

theorem targets_applyRetraction {s : Retraction} (hapart : ruleId ≠ r.targetRuleId)
    (h : ∀ row ∈ rows, targets r row = false) :
    ∀ row ∈ (applyRetraction env now ruleId version params rows s).1, targets r row = false := by
  have hinserted : ∀ row ∈ (insertFinding env now ruleId version params rows s.witness).1,
      targets r row = false := by
    intro row hrow
    rcases mem_insertFinding hrow with hrow | ⟨rfl, -⟩
    · exact h row hrow
    · exact Bool.eq_false_iff.mpr fun htarget => hapart (ruleId_of_targets htarget)
  unfold applyRetraction
  split
  · exact h
  · intro row hrow
    obtain ⟨old, hold, rfl⟩ := List.mem_map.mp hrow
    unfold takeBack
    split
    · simp [targets, Evidence.active]
    · exact hinserted old hold

theorem quiet_applyRetraction (hapart : ruleId ≠ r.targetRuleId) :
    ∀ row ∈ (applyRetraction env now ruleId version params rows r).1, targets r row = false := by
  unfold applyRetraction
  split
  · next hnone =>
    intro row hrow
    exact Bool.eq_false_iff.mpr
      (List.filter_eq_nil_iff.mp (List.isEmpty_iff.mp hnone) row hrow)
  · intro row hrow
    obtain ⟨old, hold, rfl⟩ := List.mem_map.mp hrow
    unfold takeBack
    split
    · simp [targets, Evidence.active]
    · next hout =>
      refine Bool.eq_false_iff.mpr fun htarget => ?_
      rcases mem_insertFinding hold with hold | ⟨rfl, -⟩
      · exact hout (List.mem_map_of_mem (List.mem_filter.mpr ⟨hold, htarget⟩))
      · exact hapart (ruleId_of_targets htarget)

theorem exhausted_correlateOnce (now : ℤ) (events : List EventRow) (rows : List Evidence)
    (E : String → Bool) :
    Exhausted env E (evaluate env.python env.settings none events)
      (correlateOnce env now events rows).1 where
  known p hp _ f hf haccepted := known_correlateOnce (known_emitFindings rows p hp f hf haccepted)
  quiet p hp _ := by
    refine forall_foldl
      (Q := fun (acc : Emission) (p : Produced) => ∀ r, p.item = .retraction r →
        ∀ row ∈ acc.1, targets r row = false)
      (fun acc p hp r hr => ?_) (fun acc p hp q hq hquiet r hr => ?_) _ p hp
    · unfold emitRetraction
      rw [hr]
      dsimp only
      rw [if_pos (declaresOutput_retraction hp hr)]
      exact quiet_applyRetraction (retraction_apart hp hp hr hr)
    · unfold emitRetraction
      split
      · exact hquiet r hr
      · next s hs =>
        split
        · exact targets_applyRetraction (retraction_apart hq hp hr hs) (hquiet r hr)
        · exact hquiet r hr

/-! ## Rules that conclude from single events -/

def EventWise (rule : Rule) : Prop :=
  ∃ g : RuleSettings → Params → EventRow → List Item, ∀ settings p events,
    rule.check settings p events = events.flatMap (g settings p)

/-- The rules that compare the events of the window with each other, and the one that takes back
what such a rule concludes. -/
def comparingRules : List String :=
  [blockedTrafficSpec.id, baselineNormalSpec.id, interfaceFlappingSpec.id, blastRadiusSpec.id,
    deviceUnreachableSpec.id, interfaceErrorsSpec.id, trafficSpikeSpec.id]

def lone (ruleId : String) : Bool := ruleId ∉ comparingRules

theorem eventWise_concluding {spec : RuleSpec} {check : Params → List EventRow → List Finding}
    (g : Params → EventRow → List Finding) (h : ∀ p events, check p events = events.flatMap (g p)) :
    EventWise (concluding spec check) :=
  ⟨fun _ p ev => (g p ev).map Item.finding, fun _ p events => by
    show (check p events).map Item.finding = _
    rw [h, List.map_flatMap]⟩

theorem eventWise_retracting {spec : RuleSpec} {check : Params → List EventRow → List Retraction}
    (g : Params → EventRow → List Retraction)
    (h : ∀ p events, check p events = events.flatMap (g p)) : EventWise (retracting spec check) :=
  ⟨fun _ p ev => (g p ev).map Item.retraction, fun _ p events => by
    show (check p events).map Item.retraction = _
    rw [h, List.map_flatMap]⟩

theorem eventWise_or (py : Python) :
    ∀ rule ∈ rules py, EventWise rule ∨ rule.id ∈ comparingRules := by
  simp only [rules, List.forall_mem_cons, List.not_mem_nil, false_implies, implies_true, and_true]
  exact ⟨Or.inr (show blockedTrafficSpec.id ∈ comparingRules by decide),
    Or.inl (eventWise_concluding _ fun _ _ => rfl), Or.inl (eventWise_concluding _ fun _ _ => rfl),
    Or.inl (eventWise_concluding _ fun _ _ => rfl), Or.inl (eventWise_retracting _ fun _ _ => rfl),
    Or.inl (eventWise_concluding _ fun _ _ => rfl), Or.inl (eventWise_concluding _ fun _ _ => rfl),
    Or.inl (eventWise_concluding _ fun _ _ => rfl), Or.inl (eventWise_concluding _ fun _ _ => rfl),
    Or.inr (show baselineNormalSpec.id ∈ comparingRules by decide),
    Or.inr (show interfaceFlappingSpec.id ∈ comparingRules by decide),
    Or.inr (show blastRadiusSpec.id ∈ comparingRules by decide),
    Or.inr (show deviceUnreachableSpec.id ∈ comparingRules by decide),
    Or.inr (show interfaceErrorsSpec.id ∈ comparingRules by decide),
    Or.inl (eventWise_concluding _ fun _ _ => rfl),
    Or.inr (show trafficSpikeSpec.id ∈ comparingRules by decide)⟩

variable {events' : List EventRow}

theorem EventWise.produce_subset {rule : Rule} (h : EventWise rule) (settings : RuleSettings)
    (hsub : events' ⊆ events) :
    rule.produce settings events' ⊆ rule.produce settings events := by
  obtain ⟨g, hg⟩ := h
  unfold Rule.produce
  rw [hg, hg]
  intro p hp
  obtain ⟨item, hitem, rfl⟩ := List.mem_map.mp hp
  obtain ⟨ev, hev, hmem⟩ := List.mem_flatMap.mp hitem
  exact List.mem_map_of_mem (List.mem_flatMap.mpr ⟨ev, hsub hev, hmem⟩)

theorem mem_evaluate_of_subset {py : Python} {settings : RuleSettings} (hsub : events' ⊆ events)
    (hp : p ∈ evaluate py settings none events') (hlone : lone p.ruleId) :
    p ∈ evaluate py settings none events := by
  obtain ⟨rule, hrule, hproduce⟩ := List.mem_flatMap.mp hp
  refine List.mem_flatMap.mpr ⟨rule, hrule, ?_⟩
  rcases eventWise_or py rule (List.mem_filter.mp hrule).1 with heventWise | hin
  · exact heventWise.produce_subset settings hsub hproduce
  · obtain ⟨item, -, rfl⟩ := List.mem_map.mp hproduce
    exact absurd hin (of_decide_eq_true hlone)

theorem observations_le {produced' : List Produced}
    (h : ∀ p ∈ produced', p.ruleId = ruleId → p ∈ produced) :
    observations produced' ruleId f ≤ observations produced ruleId f := by
  refine ((List.nodup_dedup _).subperm fun n hn => ?_).length_le
  obtain ⟨p, hp, hevent⟩ := List.mem_filterMap.mp (List.mem_dedup.mp hn)
  refine List.mem_dedup.mpr (List.mem_filterMap.mpr ⟨p, h p hp ?_, hevent⟩)
  split at hevent
  · split at hevent
    · next hsame => exact hsame.1
    · simp at hevent
  · simp at hevent

theorem carried_lone (hsub : events' ⊆ events) :
    Carried env lone (evaluate env.python env.settings none events)
      (evaluate env.python env.settings none events') where
  mem p hp hlone := mem_evaluate_of_subset hsub hp hlone
  accepted p _ hlone f haccepted := by
    have hle := @observations_le (evaluate env.python env.settings none events) p.ruleId f _
      fun q hq hid => mem_evaluate_of_subset hsub hq (by rw [hid]; exact hlone)
    simp only [Observability.accepted, Bool.and_eq_true, decide_eq_true_eq] at haccepted ⊢
    exact ⟨⟨haccepted.1.1.trans (by exact_mod_cast hle), haccepted.1.2⟩, haccepted.2⟩

theorem closed_lone (events : List EventRow) :
    Closed lone (evaluate env.python env.settings none events) := by
  intro p hp r hr
  rcases retraction_of_evaluate hp hr with ⟨hrule, ev, -, -, rfl⟩ | ⟨hrule, htarget⟩
  · rw [hrule]
    show lone interfaceDownSpec.id = lone interfaceRecoveredSpec.id
    decide
  · rw [hrule, htarget]
    decide

/-! ## What cycles keep -/

def KeepsTakenBack (rows rows' : List Evidence) : Prop :=
  ∀ row ∈ rows, row.active = false → row ∈ rows'

/-- A rule concluded it from the events of a window, or it says why a rule took something back. -/
def ConcludedFrom (env : Environment) (events : List EventRow) (row : Evidence) : Prop :=
  ∃ p ∈ evaluate env.python env.settings none events, row.ruleId = p.ruleId ∧
    (p.item = .finding row.finding ∧
        accepted env (evaluate env.python env.settings none events) p row.finding = true ∨
      ∃ r, p.item = .retraction r ∧ row.finding = r.witness)

theorem keepsTakenBack_correlate (t : EvidenceTable env) (now : ℤ) (events : List EventRow) :
    KeepsTakenBack t.rows (t.correlate now events).rows := by
  refine (correlateOnce_induction (I := fun rows => UniqueIds rows ∧ KeepsTakenBack t.rows rows)
    (fun p _ f _ _ rows hrows => ⟨hrows.1.insertFinding f, fun row hrow hback =>
      mem_insertFinding_of_mem (hrows.2 row hrow hback)⟩)
    (fun p _ r _ rows hrows => ⟨hrows.1.applyRetraction r, fun row hrow hback => ?_⟩)
    ⟨t.ids, fun row hrow _ => hrow⟩).2
  have hin := hrows.2 row hrow hback
  unfold applyRetraction
  split
  · exact hin
  · refine List.mem_map.mpr ⟨row, mem_insertFinding_of_mem hin, if_neg fun hmem => ?_⟩
    obtain ⟨other, hother, hid⟩ := List.mem_map.mp hmem
    obtain ⟨hotherin, htarget⟩ := List.mem_filter.mp hother
    rw [List.inj_on_of_nodup_map hrows.1 hotherin hin hid] at htarget
    simp [targets, hback] at htarget

theorem concluded_correlate (t : EvidenceTable env) (now : ℤ) (events : List EventRow) :
    ∀ row ∈ (t.correlate now events).rows,
      (∃ old ∈ t.rows, ∃ mark, row = { old with retraction := mark }) ∨
        ConcludedFrom env events row := by
  refine (correlateOnce_induction (I := fun rows => UniqueIds rows ∧ ∀ row ∈ rows,
      (∃ old ∈ t.rows, ∃ mark, row = { old with retraction := mark }) ∨
        ConcludedFrom env events row)
    (fun p hp f hf haccepted rows hrows => ⟨hrows.1.insertFinding f, fun row hrow => ?_⟩)
    (fun p hp r hr rows hrows => ⟨hrows.1.applyRetraction r, fun row hrow => ?_⟩)
    ⟨t.ids, fun row hrow => Or.inl ⟨row, hrow, row.retraction, rfl⟩⟩).2
  · rcases mem_insertFinding hrow with hrow | ⟨rfl, -⟩
    · exact hrows.2 row hrow
    · exact Or.inr ⟨p, hp, rfl, Or.inl ⟨hf, haccepted⟩⟩
  · rcases mem_applyRetraction hrows.1 hrow with hrow | ⟨old, hold, -, mark, -, rfl⟩ |
      ⟨earlier, rfl⟩
    · exact hrows.2 row hrow
    · rcases hrows.2 old hold with ⟨older, holder, mark', rfl⟩ | hconcluded
      · exact Or.inl ⟨older, holder, some mark, rfl⟩
      · exact Or.inr hconcluded
    · exact Or.inr ⟨p, hp, rfl, Or.inr ⟨r, hr, rfl⟩⟩

/-! ## Cycles that read no new event -/

/-- What holds between the table after a cycle and the table after more of them, on windows with
nothing new. -/
structure Recorrelated (first last : EvidenceTable env) (window : List EventRow)
    (windows : List (List EventRow)) : Prop where
  /-- No two rows say the same. -/
  once : ∀ row ∈ last.rows, ∀ row' ∈ last.rows, row.conclusion = row'.conclusion → row = row'
  /-- What was taken back stays so. -/
  takenBack : KeepsTakenBack first.rows last.rows
  /-- The rows of the rules that conclude from single events are the same. -/
  lone : rowsOf lone last.rows = rowsOf lone first.rows
  /-- On the same events nothing happens at all. -/
  same : (∀ w ∈ windows, w = window) → last.rows = first.rows
  /-- Other rows are of what a rule concluded in one of the cycles. -/
  concluded : ∀ row ∈ last.rows,
    (∃ old ∈ first.rows, ∃ mark, row = { old with retraction := mark }) ∨
      ∃ w ∈ windows, ConcludedFrom env w row

theorem exhausted_recorrelate {table window : List EventRow} {nows : List ℤ} {t : EvidenceTable env}
    (h : Exhausted env E (evaluate env.python env.settings none window) t.rows)
    (hclosed : ∀ events, Closed E (evaluate env.python env.settings none events))
    (hcarried : ∀ n ∈ nows, Carried env E (evaluate env.python env.settings none window)
      (evaluate env.python env.settings none (windowAt n table))) :
    rowsOf E (t.recorrelate table nows).rows = rowsOf E t.rows := by
  have hrun : Untouched E t.rows (t.recorrelate table nows).rows := by
    refine List.foldlRecOn (motive := fun t' : EvidenceTable env => Untouched E t.rows t'.rows)
      _ _ (Untouched.refl t.ids) fun t' ht' n hn => ht'.trans ?_
    exact undisturbed_correlateOnce (h.undisturbed (hclosed window) ht') t'.ids (hclosed window)
      (hclosed _) (hcarried n hn)
  exact hrun.rowsOf_eq

theorem keepsTakenBack_recorrelate (t : EvidenceTable env) (table : List EventRow)
    (nows : List ℤ) : KeepsTakenBack t.rows (t.recorrelate table nows).rows :=
  List.foldlRecOn (motive := fun t' : EvidenceTable env => KeepsTakenBack t.rows t'.rows) _ _
    (fun _ hrow _ => hrow) fun t' ht' n _ row hrow hback =>
      keepsTakenBack_correlate t' n _ row (ht' row hrow hback) hback

theorem concluded_recorrelate (t : EvidenceTable env) (table : List EventRow) (nows : List ℤ) :
    ∀ row ∈ (t.recorrelate table nows).rows,
      (∃ old ∈ t.rows, ∃ mark, row = { old with retraction := mark }) ∨
        ∃ w ∈ nows.map fun n => windowAt n table, ConcludedFrom env w row := by
  refine List.foldlRecOn (motive := fun t' : EvidenceTable env => ∀ row ∈ t'.rows,
    (∃ old ∈ t.rows, ∃ mark, row = { old with retraction := mark }) ∨
      ∃ w ∈ nows.map fun n => windowAt n table, ConcludedFrom env w row) _ _
    (fun row hrow => Or.inl ⟨row, hrow, row.retraction, rfl⟩) fun t' ht' n hn row hrow => ?_
  rcases concluded_correlate t' n _ row hrow with ⟨old, hold, mark, rfl⟩ | hconcluded
  · rcases ht' old hold with ⟨older, holder, mark', rfl⟩ | hearlier
    · exact Or.inl ⟨older, holder, mark, rfl⟩
    · exact Or.inr hearlier
  · exact Or.inr ⟨_, List.mem_map_of_mem hn, hconcluded⟩

/-- Cycles that read no new event write nothing twice, take nothing back a second time, and leave
what the rules conclude from single events as one cycle on all the events left it. -/
theorem recorrelate_idempotent {table : List EventRow} {now : ℤ} {nows : List ℤ}
    (h : ∀ n ∈ nows, windowAt n table ⊆ windowAt now table) (start : EvidenceTable env) :
    KeepsTakenBack start.rows (start.correlate now (windowAt now table)).rows ∧
      (∀ earlier later, nows = earlier ++ later → KeepsTakenBack
        ((start.correlate now (windowAt now table)).recorrelate table earlier).rows
        ((start.correlate now (windowAt now table)).recorrelate table nows).rows) ∧
      Recorrelated (start.correlate now (windowAt now table))
        ((start.correlate now (windowAt now table)).recorrelate table nows)
        (windowAt now table) (nows.map fun n => windowAt n table) := by
  have hexhausted (E : String → Bool) : Exhausted env E
      (evaluate env.python env.settings none (windowAt now table))
      (start.correlate now (windowAt now table)).rows := exhausted_correlateOnce now _ start.rows E
  refine ⟨keepsTakenBack_correlate start now _, fun earlier later heq => ?_, ?_⟩
  · rw [heq, EvidenceTable.recorrelate, EvidenceTable.recorrelate, List.foldl_append]
    exact keepsTakenBack_recorrelate _ table later
  · constructor
    · exact fun row hrow row' hrow' => EvidenceTable.eq_of_conclusion _ hrow hrow'
    · exact keepsTakenBack_recorrelate _ table nows
    · exact exhausted_recorrelate (hexhausted lone) closed_lone fun n hn => carried_lone (h n hn)
    · intro hsame
      have hall (rows : List Evidence) : rowsOf (fun _ => true) rows = rows := List.filter_true rows
      have heq := exhausted_recorrelate (hexhausted fun _ => true) (fun _ _ _ _ _ => rfl) fun n hn => by
        rw [hsame _ (List.mem_map_of_mem hn)]
        exact ⟨fun _ hp _ => hp, fun _ _ _ _ haccepted => haccepted⟩
      rwa [hall, hall] at heq
    · exact concluded_recorrelate _ table nows

end Cycle

/-! ## Windows that lose an event -/

def noEvidence : EvidenceTable defaultEnvironment :=
  ⟨[], List.nodup_nil, List.nodup_nil, fun _ h => nomatch h⟩

def twoCycles (table : List EventRow) (now now' : ℤ) : EvidenceTable defaultEnvironment :=
  (noEvidence.correlate now (windowAt now table)).recorrelate table [now']

/-- A port that went down, read again five minutes later. -/
theorem recorrelate_idempotent_drop :
    rowsOf lone (twoCycles [linkRow 1 1700000000 "port2" "down"] 1700000300 1700000600).rows =
      rowsOf lone (noEvidence.correlate 1700000300
        (windowAt 1700000300 [linkRow 1 1700000000 "port2" "down"])).rows :=
  (recorrelate_idempotent (fun n hn => by
    rw [List.mem_singleton.mp hn]
    exact windowAt_subset (by decide) (by decide)) noEvidence).2.2.lone

/-- The second cycle concludes by a rule what the first one did not. -/
def Anew (ruleId : String) (table : List EventRow) (now now' : ℤ) : Prop :=
  ∃ row ∈ (twoCycles table now now').rows, row.ruleId = ruleId ∧
    ∀ old ∈ (noEvidence.correlate now (windowAt now table)).rows, old.conclusion ≠ row.conclusion

instance (ruleId : String) (table : List EventRow) (now now' : ℤ) :
    Decidable (Anew ruleId table now now') := inferInstanceAs (Decidable (∃ row ∈ _, _))

def sampleRow (id : ℕ) (ts errors : ℤ) : EventRow where
  ts := ts
  ingestedTs := ts
  tenant := "a"
  source := "snmp"
  eventType := "interface.state"
  entityType := "interface"
  entityId := "10.0.0.254:port1"
  deviceIp := some "10.0.0.254"
  interface := some "port1"
  metrics := [("in_errors", .int errors)]
  dedupKey := "snmp-state:" ++ str id
  id := id
  measures := rfl
  texts := EventRow.texts_nil

/-- A polling round of a device, or a change of its port, normalised some time later. -/
def roundRow (id : ℕ) (ts ingestedTs : ℤ) (eventType : String) : EventRow where
  ts := ts
  ingestedTs := ingestedTs
  tenant := "a"
  source := "snmp"
  eventType := eventType
  entityType := "device"
  entityId := "10.0.0.254"
  deviceIp := some "10.0.0.254"
  interface := some "port1"
  attrs := [("field", .str "port1.status")]
  dedupKey := "snmp:" ++ str id
  id := id
  measures := EventRow.measures_nil
  texts := rfl

/-- A flow of a client, a log about it or a measure of it. -/
def clientRow (eventType : String) (id : ℕ) (ts : ℤ) (src : String) (bytes : ℤ) : EventRow where
  ts := ts
  ingestedTs := ts
  tenant := "a"
  source := "netflow"
  eventType := eventType
  entityType := "flow"
  entityId := src
  srcIp := some src
  dstIp := some "10.0.1.1"
  metrics := [("bytes", .int bytes), ("deviation_pct", .int 10), ("quality", .int 1)]
  dedupKey := eventType ++ str id
  id := id
  measures := rfl
  texts := EventRow.texts_nil

/-- A device restarts: its counters go back to zero, and errors follow. -/
def restart : List EventRow :=
  [sampleRow 1 1700000000 1000, sampleRow 2 1700000400 0, sampleRow 3 1700000800 200]

/-- The last round was normalised before the others. -/
def lateRounds (first others : String) : List EventRow :=
  [roundRow 1 1700000000 1700000900 first, roundRow 2 1700000060 1700000900 others,
    roundRow 3 1700000120 1700000900 others, roundRow 4 1700000180 1700000900 others,
    roundRow 5 1700000400 1700000400 others]

/-- Four clients are blocked; two flows are older than the logs. -/
def fourClients : List EventRow :=
  [clientRow "flow.aggregate" 1 1700000450 "10.0.0.1" 1,
    clientRow "flow.aggregate" 2 1700000470 "10.0.0.4" 1,
    clientRow "flow.aggregate" 3 1700000600 "10.0.0.1" 1,
    clientRow "flow.aggregate" 4 1700000600 "10.0.0.2" 1,
    clientRow "flow.aggregate" 5 1700000600 "10.0.0.3" 1,
    clientRow "log.security" 6 1700000600 "10.0.0.1" 1,
    clientRow "log.security" 7 1700000600 "10.0.0.2" 1,
    clientRow "log.security" 8 1700000600 "10.0.0.3" 1,
    clientRow "log.security" 9 1700000640 "10.0.0.4" 1]

/-- Five small flows after six large ones, and the measure of the hour. -/
def smallFlows : List EventRow :=
  ([1, 2, 3, 4, 5, 6].map fun id =>
      clientRow "flow.aggregate" id 1700000000 "10.0.0.9" 1000000) ++
    ([7, 8, 9, 10].map fun id => clientRow "flow.aggregate" id 1700000600 "10.0.0.1" 100) ++
    [clientRow "flow.aggregate" 11 1700000600 "10.0.0.1" 2000,
      clientRow "flow.baseline" 12 1700000600 "10.0.0.1" 0]

/-- Each rule that compares may conclude when an event leaves the window. -/
theorem comparingRules_anew : ∀ ruleId ∈ comparingRules, ∃ table now now', now ≤ now' ∧
    windowAt now' table ⊆ windowAt now table ∧ Anew ruleId table now now' := by
  have hanew {ruleId : String} {table : List EventRow} {now now' : ℤ} (hle : now ≤ now')
      (hlimit : (recentAt now table).length ≤ maxEventsPerCycle) (h : Anew ruleId table now now') :
      ∃ table now now', now ≤ now' ∧ windowAt now' table ⊆ windowAt now table ∧
        Anew ruleId table now now' := ⟨table, now, now', hle, windowAt_subset hle hlimit, h⟩
  simp only [comparingRules, List.forall_mem_cons, List.not_mem_nil, false_implies, implies_true,
    and_true]
  refine ⟨?_, ?_, ?_, ?_, ?_, ?_, ?_⟩
  · -- the flow that corroborates the first log is another one
    exact @hanew _ fourClients 1700000640 1700001400 (by decide) (by decide) (by decide +kernel)
  · -- the spike is new, and is taken back at once
    exact @hanew _ smallFlows 1700000640 1700001400 (by decide) (by decide) (by decide +kernel)
  · exact @hanew _ (lateRounds "interface.change" "interface.change") 1700000900 1700001400
      (by decide) (by decide) (by decide +kernel)
  · -- the last of the blocked clients is another one
    exact @hanew _ fourClients 1700000640 1700001400 (by decide) (by decide) (by decide +kernel)
  · exact @hanew _ (lateRounds "device.state" "device.unreachable") 1700000900 1700001400
      (by decide) (by decide) (by decide +kernel)
  · -- without the sample from before the restart the errors rise
    exact @hanew _ restart 1700000800 1700001000 (by decide) (by decide) (by decide)
  · exact @hanew _ smallFlows 1700000640 1700001400 (by decide) (by decide) (by decide +kernel)

/-- A cycle that reads no new event may still conclude something new. -/
theorem window_concludes_anew : ¬ ∀ (env : Environment) (table : List EventRow) (now : ℤ)
    (nows : List ℤ) (start : EvidenceTable env),
    (∀ n ∈ nows, now ≤ n ∧ windowAt n table ⊆ windowAt now table) →
    ∀ c, c ∈ ((start.correlate now (windowAt now table)).recorrelate table nows).rows.map
        Evidence.conclusion →
      c ∈ (start.correlate now (windowAt now table)).rows.map Evidence.conclusion := by
  intro h
  obtain ⟨table, now, now', hle, hsub, row, hrow, -, hnew⟩ :=
    comparingRules_anew interfaceErrorsSpec.id (by decide)
  have hnews : ∀ n ∈ [now'], now ≤ n ∧ windowAt n table ⊆ windowAt now table := by
    intro n hn
    rw [List.mem_singleton.mp hn]
    exact ⟨hle, hsub⟩
  obtain ⟨old, hold, hsame⟩ := List.mem_map.mp
    (h defaultEnvironment table now [now'] noEvidence hnews _ (List.mem_map_of_mem hrow))
  exact hnew old hold hsame

end SentinelNet.Observability
