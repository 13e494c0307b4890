import SentinelNet.Observability.Flows

/-!
# The projection of flows

`_from_flows` reads the flow table from its cursor on, the oldest minutes first and at most
`MAX_ROWS_PER_SOURCE` rows, and the cursor then stands at the newest minute it has read.  Flows
arrive between two runs, each for a minute up to the clock skew before or after.

A row below the cursor is never read again.  So the projection is complete as long as no flow
arrives for a minute below the cursor, the rows that share an event agree, and the minute at the
cursor fits in one read; each of the three fails in some run.

* `flows_projected`: in every run whose steps are sound, each row gets its event.
-/

namespace SentinelNet.Observability

open PyDict

/-! ## Runs -/

/-- What flow ingestion and the projection share: the flow table, the events, and `last_ts` of the
cursor, 0 before the first one is saved. -/
structure Store where
  flows : List FlowRow
  events : List Event
  cursor : ℤ

/-- Nothing has happened yet. -/
def Store.empty : Store := ⟨[], [], 0⟩

/-- `cur["last_ts"] or (now - LOOKBACK_S)`. -/
def Store.start (st : Store) (now : ℤ) : ℤ :=
  if st.cursor = 0 then now - lookbackS else st.cursor

/-- What the query of `_from_flows` may return: the rows from `start` on by minute, in any order
within one, the first `MAX_ROWS_PER_SOURCE` of them. -/
def Reads (flows : List FlowRow) (start : ℤ) (read : List FlowRow) : Prop :=
  ∃ all : List FlowRow, all.Perm (flows.filter fun row => start ≤ row.key.windowStart) ∧
    all.Pairwise (fun row row' => row.key.windowStart ≤ row'.key.windowStart) ∧
    read = all.take maxRowsPerSource

def emitFlows (now : ℤ) (events : List Event) (read : List FlowRow) : List Event :=
  read.foldl (fun events row => emit events (flowEvent now row)) events

def advance (cursor : ℤ) (read : List FlowRow) : ℤ :=
  read.foldl (fun c row => max c row.key.windowStart) cursor

def Store.project (st : Store) (now : ℤ) (read : List FlowRow) : Store where
  flows := st.flows
  events := emitFlows now st.events read
  cursor := advance st.cursor read

/-- A flow arrives, or `_from_flows` runs. -/
inductive FlowAction where
  | ingest (r : FlowRecord)
  | run (now : ℤ)

/-- One action.  A record whose values cannot be bound leaves no row. -/
inductive FlowStep : Store → FlowAction → Store → Prop where
  | ingest {st : Store} {r : FlowRecord} {flows : List FlowRow} :
      upsertFlow st.flows r = .ok flows → FlowStep st (.ingest r) { st with flows := flows }
  | refuse {st : Store} {r : FlowRecord} {e : BindError} :
      upsertFlow st.flows r = .error e → FlowStep st (.ingest r) st
  | run {st : Store} {now : ℤ} {read : List FlowRow} :
      Reads st.flows (st.start now) read → FlowStep st (.run now) (st.project now read)

/-- The actions one after the other, each from a state that meets a condition. -/
inductive FlowRun (P : Store → FlowAction → Prop) : Store → List FlowAction → Store → Prop where
  | nil (st : Store) : FlowRun P st [] st
  | cons {st st' st'' : Store} {a : FlowAction} {acts : List FlowAction} :
      P st a → FlowStep st a st' → FlowRun P st' acts st'' → FlowRun P st (a :: acts) st''

theorem exists_reads (flows : List FlowRow) (start : ℤ) : ∃ read, Reads flows start read := by
  have htotal : ∀ x y : FlowRow, x.key.windowStart ≤ y.key.windowStart ∨
      y.key.windowStart ≤ x.key.windowStart := fun x y => le_total _ _
  have : Std.Total fun x y : FlowRow => x.key.windowStart ≤ y.key.windowStart := ⟨htotal⟩
  have : IsTrans FlowRow fun x y => x.key.windowStart ≤ y.key.windowStart :=
    ⟨fun _ _ _ => le_trans⟩
  exact ⟨_, _, List.perm_insertionSort _ _, List.pairwise_insertionSort _ _, rfl⟩

theorem exists_runs (st : Store) (nows : List ℤ) :
    ∃ st', FlowRun (fun _ _ => True) st (nows.map .run) st' := by
  induction nows generalizing st with
  | nil => exact ⟨st, .nil st⟩
  | cons now nows ih =>
    obtain ⟨read, hread⟩ := exists_reads st.flows (st.start now)
    obtain ⟨st', hrun⟩ := ih (st.project now read)
    exact ⟨st', .cons trivial (.run hread) hrun⟩

variable {st st' : Store} {nows : List ℤ}

theorem flows_of_runs {P : Store → FlowAction → Prop}
    (h : FlowRun P st (nows.map .run) st') : st'.flows = st.flows := by
  induction nows generalizing st with
  | nil =>
    cases h
    rfl
  | cons now nows ih =>
    rcases h with _ | ⟨-, hstep, h⟩
    cases hstep with
    | run hreads =>
      have hflows := ih h
      exact hflows

/-! ## The cursor -/

theorem advance_cons (c : ℤ) (row : FlowRow) (read : List FlowRow) :
    advance c (row :: read) = advance (max c row.key.windowStart) read := rfl

theorem le_advance (c : ℤ) (read : List FlowRow) : c ≤ advance c read := by
  induction read generalizing c with
  | nil => exact le_rfl
  | cons row read ih => exact (le_max_left c _).trans (ih _)

variable {read : List FlowRow} {row : FlowRow}

theorem le_advance_of_mem (h : row ∈ read) (c : ℤ) : row.key.windowStart ≤ advance c read := by
  induction read generalizing c with
  | nil => cases h
  | cons row' read ih =>
    rw [advance_cons]
    rcases List.mem_cons.mp h with rfl | h
    · exact (le_max_right c _).trans (le_advance _ read)
    · exact ih h _

theorem advance_eq (c : ℤ) (read : List FlowRow) :
    advance c read = c ∨ ∃ row ∈ read, row.key.windowStart = advance c read := by
  induction read generalizing c with
  | nil => exact Or.inl rfl
  | cons row read ih =>
    rw [advance_cons]
    rcases ih (max c row.key.windowStart) with h | ⟨row', hrow', h⟩
    · rcases le_total c row.key.windowStart with hle | hle
      · rw [max_eq_right hle] at h ⊢
        exact Or.inr ⟨row, List.mem_cons_self .., h.symm⟩
      · rw [max_eq_left hle] at h ⊢
        exact Or.inl h
    · exact Or.inr ⟨row', List.mem_cons_of_mem _ hrow', h⟩

/-! ## What is read -/

variable {flows : List FlowRow} {start : ℤ}

theorem Reads.mem (h : Reads flows start read)
    (hrow : row ∈ read) : row ∈ flows ∧ start ≤ row.key.windowStart := by
  obtain ⟨all, hperm, -, rfl⟩ := h
  simpa using hperm.mem_iff.mp (List.mem_of_mem_take hrow)

variable {row' : FlowRow}

theorem Reads.mem_of_lt (h : Reads flows start read)
    (hrow : row ∈ flows) (hstart : start ≤ row.key.windowStart)
    (hrow' : row' ∈ read) (hlt : row.key.windowStart < row'.key.windowStart) : row ∈ read := by
  obtain ⟨all, hperm, hsorted, rfl⟩ := h
  have hall : row ∈ all := hperm.mem_iff.mpr (by simpa using And.intro hrow hstart)
  rw [← List.take_append_drop maxRowsPerSource all, List.mem_append] at hall
  rw [← List.take_append_drop maxRowsPerSource all, List.pairwise_append] at hsorted
  rcases hall with hall | hall
  · exact hall
  · exact absurd hlt (not_lt.mpr (hsorted.2.2 row' hrow' row hall))

theorem Reads.mem_or_length (h : Reads flows start read) :
    (∀ row ∈ flows, start ≤ row.key.windowStart → row ∈ read) ∨
      read.length = maxRowsPerSource ∧
        maxRowsPerSource < (flows.filter fun row => start ≤ row.key.windowStart).length := by
  obtain ⟨all, hperm, -, rfl⟩ := h
  rcases le_or_gt all.length maxRowsPerSource with hle | hgt
  · refine Or.inl fun row hrow hstart => ?_
    rw [List.take_of_length_le hle]
    exact hperm.mem_iff.mpr (by simpa using And.intro hrow hstart)
  · refine Or.inr ⟨List.length_take_of_le hgt.le, ?_⟩
    rw [← hperm.length_eq]
    exact hgt

theorem Reads.length_le {w : ℤ} (h : Reads flows start read)
    (hw : ∀ row ∈ read, row.key.windowStart = w) :
    read.length ≤ (flows.filter fun row => row.key.windowStart = w).length := by
  obtain ⟨all, hperm, -, rfl⟩ := h
  have hsub : (all.take maxRowsPerSource).Sublist (all.filter fun row => row.key.windowStart = w) := by
    have hfilter := (List.take_sublist maxRowsPerSource all).filter
      fun row => decide (row.key.windowStart = w)
    rwa [List.filter_eq_self.mpr fun row hrow => decide_eq_true (hw row hrow)] at hfilter
  refine hsub.length_le.trans ?_
  rw [(hperm.filter _).length_eq, List.filter_filter]
  refine (List.monotone_filter_right flows fun row => ?_).length_le
  simp only [Bool.and_eq_true]
  exact fun hrow => hrow.1

/-! ## Events of rows -/

/-- The table holds the event of a row, with its totals. -/
def Projected (events : List Event) (row : FlowRow) : Prop :=
  ∃ e, atKey events (flowDedupKey row.key) = some e ∧ e.IsFlow row.key ∧ e.metrics = row.metrics

/-- What the table holds under the key of a row is about its flow. -/
def Fits (events : List Event) (row : FlowRow) : Prop :=
  ∀ e, atKey events (flowDedupKey row.key) = some e → e.IsFlow row.key

variable {events : List Event}

theorem Projected.fits (h : Projected events row) : Fits events row := by
  intro e he
  obtain ⟨e', he', hflow, -⟩ := h
  obtain rfl : e' = e := Option.some.inj (he'.symm.trans he)
  exact hflow

/-- Rows with the same event agree on its columns and its metrics. -/
def Agree (row row' : FlowRow) : Prop :=
  flowDedupKey row'.key = flowDedupKey row.key → row'.key = row.key ∧ row'.metrics = row.metrics

theorem isFlow_withMetrics {e : Event} {k : FlowKey} {m : Dict Json} (h : e.IsFlow k) :
    ({ e with metrics := m } : Event).IsFlow k := h

variable {now : ℤ}

theorem projected_emit_of_eq (hfits : Fits events row) (hagree : Agree row row')
    (hkey : flowDedupKey row'.key = flowDedupKey row.key) :
    Projected (emit events (flowEvent now row')) row := by
  obtain ⟨hsame, hmetrics⟩ := hagree hkey
  have hdedup : (flowEvent now row').dedupKey = flowDedupKey row.key := hkey
  rw [Projected, atKey_emit, if_pos hdedup]
  rcases hat : atKey events (flowDedupKey row.key) with _ | old
  · refine ⟨_, rfl, ?_, hmetrics⟩
    rw [← hsame]
    exact flowEvent_isFlow now row'
  · exact ⟨_, rfl, isFlow_withMetrics (hfits old hat), hmetrics⟩

theorem fits_emit (h : Fits events row)
    (hagree : Agree row row') : Fits (emit events (flowEvent now row')) row := by
  by_cases hkey : flowDedupKey row'.key = flowDedupKey row.key
  · exact (projected_emit_of_eq h hagree hkey).fits
  · have hdedup : ¬ (flowEvent now row').dedupKey = flowDedupKey row.key := hkey
    rw [Fits, atKey_emit, if_neg hdedup]
    exact h

theorem projected_emit (h : Projected events row) (hagree : Agree row row') :
    Projected (emit events (flowEvent now row')) row := by
  by_cases hkey : flowDedupKey row'.key = flowDedupKey row.key
  · exact projected_emit_of_eq h.fits hagree hkey
  · have hdedup : ¬ (flowEvent now row').dedupKey = flowDedupKey row.key := hkey
    rw [Projected, atKey_emit, if_neg hdedup]
    exact h

theorem projected_emitFlows (h : Projected events row) (hagree : ∀ row' ∈ read, Agree row row') :
    Projected (emitFlows now events read) row := by
  induction read generalizing events with
  | nil => exact h
  | cons row' read ih =>
    exact ih (projected_emit h (hagree row' List.mem_cons_self))
      (List.forall_mem_cons.mp hagree).2

theorem projected_emitFlows_of_mem (hfits : Fits events row) (hrow : row ∈ read)
    (hagree : ∀ row' ∈ read, Agree row row') : Projected (emitFlows now events read) row := by
  induction read generalizing events with
  | nil => cases hrow
  | cons row' read ih =>
    have htail : ∀ r ∈ read, Agree row r := (List.forall_mem_cons.mp hagree).2
    rcases List.mem_cons.mp hrow with rfl | hrow
    · have hhead : Projected (emit events (flowEvent now row)) row :=
        projected_emit_of_eq hfits (hagree row List.mem_cons_self) rfl
      show Projected (emitFlows now (emit events (flowEvent now row)) read) row
      exact projected_emitFlows hhead htail
    · exact ih (fits_emit hfits (hagree row' List.mem_cons_self)) hrow htail

variable {c : ℤ}

theorem ts_ge_emitFlows
    (h : ∀ e ∈ events, c ≤ e.ts) (hread : ∀ row ∈ read, c ≤ row.key.windowStart) :
    ∀ e ∈ emitFlows now events read, c ≤ e.ts := by
  induction read generalizing events with
  | nil => exact h
  | cons row read ih =>
    refine ih (fun e he => ?_) (List.forall_mem_cons.mp hread).2
    rcases mem_emit he with he | rfl | ⟨old, hold, -, rfl⟩
    · exact h e he
    · exact hread row List.mem_cons_self
    · exact h old hold

/-! ## Events come from rows -/

/-- Every event is that of a row of the table. -/
def Grounded (st : Store) : Prop :=
  ∀ k e, atKey st.events k = some e →
    ∃ row ∈ st.flows, flowDedupKey row.key = k ∧ e.IsFlow row.key

theorem grounded_emit {c' : ℤ} (h : Grounded ⟨flows, events, c⟩) (hrow : row ∈ flows) :
    Grounded ⟨flows, emit events (flowEvent now row), c'⟩ := by
  intro k e he
  change atKey (emit events (flowEvent now row)) k = some e at he
  rw [atKey_emit] at he
  by_cases hk : flowDedupKey row.key = k
  · rw [if_pos (show (flowEvent now row).dedupKey = k from hk)] at he
    obtain rfl := Option.some.inj he
    rcases hat : atKey events k with _ | old
    · exact ⟨row, hrow, hk, flowEvent_isFlow now row⟩
    · obtain ⟨row', hrow', hk', hflow⟩ := h k old hat
      exact ⟨row', hrow', hk', isFlow_withMetrics hflow⟩
  · rw [if_neg (show ¬ (flowEvent now row).dedupKey = k from hk)] at he
    exact h k e he

theorem grounded_emitFlows {c' : ℤ}
    (h : Grounded ⟨flows, events, c⟩) (hread : ∀ row ∈ read, row ∈ flows) :
    Grounded ⟨flows, emitFlows now events read, c'⟩ := by
  induction read generalizing events with
  | nil => exact h
  | cons row read ih =>
    exact ih (grounded_emit h (hread row List.mem_cons_self))
      (List.forall_mem_cons.mp hread).2

theorem Grounded.upsert (h : Grounded st) (r : FlowRecord) :
    Grounded { st with flows := upsertRow st.flows r } := by
  intro k e he
  obtain ⟨row, hrow, hk, hflow⟩ := h k e he
  obtain ⟨row', hrow', hkey⟩ := exists_key_upsertRow.mpr (Or.inl ⟨row, hrow, rfl⟩)
  exact ⟨row', hrow', by rw [hkey, hk], by rw [hkey]; exact hflow⟩

/-! ## Sound steps -/

/-- What a step meets, for the rows from a first minute on: a flow does not arrive for a minute
below the cursor; the first rows that are read are not older than a run looks back; rows with the
same event agree; and the minute at the cursor fits in a read together with a newer row, if there
is one. -/
def Sound (first : ℤ) (st : Store) : FlowAction → Prop
  | .ingest r => st.cursor ≤ r.key.windowStart ∨ r.key.windowStart < first
  | .run now =>
    (st.cursor = 0 → ∀ row ∈ st.flows, first ≤ row.key.windowStart →
      now - lookbackS ≤ row.key.windowStart) ∧
    (∀ row ∈ st.flows, ∀ row' ∈ st.flows, first ≤ row.key.windowStart → Agree row row') ∧
    (st.cursor ≠ 0 →
      (st.flows.filter fun row => row.key.windowStart = st.cursor).length < maxRowsPerSource ∨
      (st.flows.filter fun row => st.cursor ≤ row.key.windowStart).length ≤ maxRowsPerSource)

/-- What every sound run keeps: the minutes are past the epoch, the events are of rows, and the rows
below the cursor have their events. -/
structure Kept (first : ℤ) (st : Store) : Prop where
  pos : ∀ row ∈ st.flows, 0 < row.key.windowStart
  cursor_nonneg : 0 ≤ st.cursor
  grounded : Grounded st
  below : ∀ row ∈ st.flows, first ≤ row.key.windowStart → row.key.windowStart < st.cursor →
    Projected st.events row

theorem kept_empty (first : ℤ) : Kept first Store.empty where
  pos row hrow := nomatch hrow
  cursor_nonneg := le_rfl
  grounded k e he := by
    have hnone : atKey Store.empty.events k = none := rfl
    rw [hnone] at he
    simp at he
  below row hrow := nomatch hrow

variable {first : ℤ}

theorem Kept.ingest {r : FlowRecord} (h : Kept first st) (hsound : Sound first st (.ingest r)) :
    Kept first { st with flows := upsertRow st.flows r } where
  pos row hrow := by
    rcases mem_upsertRow hrow with hrow | rfl | ⟨old, hold, -, rfl⟩
    · exact h.pos row hrow
    · exact r.key_pos
    · exact h.pos old hold
  cursor_nonneg := h.cursor_nonneg
  grounded := h.grounded.upsert r
  below row hrow hfirst hlt := by
    -- the row that takes the record is not below the cursor, or is not asked for
    have hne : row.key ≠ r.key := by
      intro heq
      have hr : r.key.windowStart < st.cursor ∧ first ≤ r.key.windowStart := heq ▸ ⟨hlt, hfirst⟩
      rcases hsound with hle | hlt'
      · omega
      · omega
    exact h.below row (mem_of_mem_upsertRow hrow hne) hfirst hlt

theorem Kept.fits (h : Kept first st) (hsound : Sound first st (.run now))
    (hrow : row ∈ st.flows) (hfirst : first ≤ row.key.windowStart) :
    Fits st.events row := by
  intro e he
  obtain ⟨row', hrow', hk, hflow⟩ := h.grounded _ e he
  rw [← (hsound.2.1 row hrow row' hrow' hfirst hk).1]
  exact hflow

theorem start_le (hsound : Sound first st (.run now))
    (hrow : row ∈ st.flows) (hfirst : first ≤ row.key.windowStart)
    (hcursor : st.cursor ≤ row.key.windowStart) : st.start now ≤ row.key.windowStart := by
  rw [Store.start]
  split
  · next hzero => exact hsound.1 hzero row hrow hfirst
  · exact hcursor

theorem Kept.projected_of_read (h : Kept first st)
    (hsound : Sound first st (.run now)) (hreads : Reads st.flows (st.start now) read)
    (hrow : row ∈ st.flows) (hfirst : first ≤ row.key.windowStart)
    (hread : row ∈ read ∨ Projected st.events row) :
    Projected (st.project now read).events row := by
  have hagree : ∀ row' ∈ read, Agree row row' := fun row' hrow' =>
    hsound.2.1 row hrow row' (hreads.mem hrow').1 hfirst
  rcases hread with hread | hproj
  · exact projected_emitFlows_of_mem (h.fits hsound hrow hfirst) hread hagree
  · exact projected_emitFlows hproj hagree

theorem Kept.project (h : Kept first st)
    (hsound : Sound first st (.run now)) (hreads : Reads st.flows (st.start now) read) :
    Kept first (st.project now read) where
  pos := h.pos
  cursor_nonneg := h.cursor_nonneg.trans (le_advance _ _)
  grounded := grounded_emitFlows h.grounded fun row hrow => (hreads.mem hrow).1
  below row hrow hfirst hlt := by
    refine h.projected_of_read hsound hreads hrow hfirst ?_
    rcases lt_or_ge row.key.windowStart st.cursor with hbelow | hge
    · exact Or.inr (h.below row hrow hfirst hbelow)
    · have hstart := start_le hsound hrow hfirst hge
      rcases advance_eq st.cursor read with heq | ⟨row', hrow', heq⟩
      · have hlt' : row.key.windowStart < advance st.cursor read := hlt
        omega
      · have hlt' : row.key.windowStart < advance st.cursor read := hlt
        exact Or.inl (hreads.mem_of_lt hrow hstart hrow' (by omega))

theorem Kept.step {a : FlowAction} (h : Kept first st) (hsound : Sound first st a)
    (hstep : FlowStep st a st') : Kept first st' := by
  cases hstep with
  | ingest hupsert =>
    rw [upsertFlow] at hupsert
    split at hupsert
    · obtain rfl := Except.ok.inj hupsert
      exact h.ingest hsound
    · simp at hupsert
  | refuse _ => exact h
  | run hreads => exact h.project hsound hreads

theorem Kept.run {acts : List FlowAction} (h : Kept first st)
    (hrun : FlowRun (Sound first) st acts st') : Kept first st' := by
  induction hrun with
  | nil => exact h
  | cons hsound hstep _ ih => exact ih (h.step hsound hstep)

/-! ## Once nothing arrives -/

/-- Every row from the first minute on has its event. -/
def AllProjected (first : ℤ) (st : Store) : Prop :=
  ∀ row ∈ st.flows, first ≤ row.key.windowStart → Projected st.events row

def ahead (st : Store) : List FlowRow := st.flows.filter fun row => st.cursor < row.key.windowStart

theorem length_filter_lt {p q : FlowRow → Bool} {rows : List FlowRow}
    (himp : ∀ row, q row = true → p row = true) (hrow : row ∈ rows)
    (hp : p row) (hq : q row = false) : (rows.filter q).length < (rows.filter p).length := by
  have hsub := List.monotone_filter_right rows himp
  refine lt_of_le_of_ne hsub.length_le fun hlen => ?_
  have hmem : row ∈ rows.filter q := hsub.eq_of_length hlen ▸ List.mem_filter.mpr ⟨hrow, hp⟩
  rw [(List.mem_filter.mp hmem).2] at hq
  exact absurd hq (by decide)

theorem Kept.progress (h : Kept first st)
    (hsound : Sound first st (.run now)) (hreads : Reads st.flows (st.start now) read) :
    AllProjected first (st.project now read) ∨
      (ahead (st.project now read)).length < (ahead st).length := by
  rcases hreads.mem_or_length with hall | ⟨hlen, hmore⟩
  · refine Or.inl fun row hrow hfirst => h.projected_of_read hsound hreads hrow hfirst ?_
    rcases lt_or_ge row.key.windowStart st.cursor with hbelow | hge
    · exact Or.inr (h.below row hrow hfirst hbelow)
    · exact Or.inl (hall row hrow (start_le hsound hrow hfirst hge))
  · -- some row that was read is newer than the cursor
    have hnew : ∃ row ∈ read, st.cursor < row.key.windowStart := by
      by_contra hno
      push Not at hno
      have hne : st.cursor ≠ 0 := by
        intro hzero
        obtain ⟨row, hrow⟩ : ∃ row, row ∈ read :=
          List.exists_mem_of_length_pos (by rw [hlen]; decide)
        have hpos := h.pos row (hreads.mem hrow).1
        have hle := hno row hrow
        omega
      have hstart : st.start now = st.cursor := if_neg hne
      have hw : ∀ row ∈ read, row.key.windowStart = st.cursor := fun row hrow =>
        le_antisymm (hno row hrow) (hstart ▸ (hreads.mem hrow).2)
      have hcount := hreads.length_le hw
      rw [hstart] at hmore
      rcases hsound.2.2 hne with hlt | hle
      · omega
      · omega
    obtain ⟨row, hrow, hlt⟩ := hnew
    refine Or.inr (length_filter_lt (fun row' hrow' => ?_) (hreads.mem hrow).1 ?_ ?_)
    · have hadv := le_advance st.cursor read
      have hrow'' : advance st.cursor read < row'.key.windowStart := of_decide_eq_true hrow'
      exact decide_eq_true (by omega)
    · exact decide_eq_true hlt
    · have hle := le_advance_of_mem hrow st.cursor
      exact decide_eq_false (not_lt.mpr hle)

theorem AllProjected.project
    (h : AllProjected first st) (hkept : Kept first st) (hsound : Sound first st (.run now))
    (hreads : Reads st.flows (st.start now) read) : AllProjected first (st.project now read) :=
  fun row hrow hfirst =>
    hkept.projected_of_read hsound hreads hrow hfirst (Or.inr (h row hrow hfirst))

theorem Kept.allProjected_run (h : Kept first st)
    (hall : AllProjected first st) (hrun : FlowRun (Sound first) st (nows.map .run) st') :
    AllProjected first st' := by
  induction nows generalizing st with
  | nil =>
    cases hrun
    exact hall
  | cons now nows ih =>
    rcases hrun with _ | ⟨hsound, hstep, hrun⟩
    cases hstep with
    | run hreads =>
      exact ih (h.project hsound hreads) (hall.project h hsound hreads) hrun

theorem Kept.runs (h : Kept first st) (hrun : FlowRun (Sound first) st (nows.map .run) st') :
    AllProjected first st' ∨ (ahead st').length + nows.length ≤ (ahead st).length := by
  induction nows generalizing st with
  | nil =>
    cases hrun
    exact Or.inr le_rfl
  | cons now nows ih =>
    rcases hrun with _ | ⟨hsound, hstep, hrun⟩
    cases hstep with
    | run hreads =>
      have hkept := h.project hsound hreads
      rcases h.progress hsound hreads with hall | hlt
      · exact Or.inl (hkept.allProjected_run hall hrun)
      · refine (ih hkept hrun).imp id fun hle => ?_
        rw [List.length_cons]
        omega

/-- In every run whose steps are sound, and which starts with nothing and a first projection after
any flows, each row that the first projection looks back to has an event with its key and its
totals once the projection has run alone more often than there are rows. -/
theorem flows_projected {ingested : List FlowRecord} {now : ℤ} {acts : List FlowAction}
    {nows : List ℤ} {st st' : Store}
    (hacts : FlowRun (Sound (now - lookbackS)) Store.empty
      (ingested.map .ingest ++ .run now :: acts) st)
    (hrun : FlowRun (Sound (now - lookbackS)) st (nows.map .run) st')
    (hlong : st.flows.length < nows.length) :
    ∀ row ∈ st'.flows, now - lookbackS ≤ row.key.windowStart →
      ∃ e ∈ st'.events, e.IsFlow row.key ∧ e.metrics = row.metrics := by
  intro row hrow hfirst
  have hkept := (kept_empty _).run hacts
  have hahead : (ahead st).length ≤ st.flows.length := List.length_filter_le _ _
  rcases hkept.runs hrun with hall | hle
  · obtain ⟨e, he, hflow, hmetrics⟩ := hall row hrow hfirst
    exact ⟨e, List.mem_of_find?_eq_some he, hflow, hmetrics⟩
  · omega

theorem reads_singleton (h : start ≤ row.key.windowStart) : Reads [row] start [row] := by
  refine ⟨[row], ?_, List.pairwise_singleton _ _, rfl⟩
  rw [List.filter_eq_self.mpr fun r hr => decide_eq_true (List.mem_singleton.mp hr ▸ h)]

theorem sound_singleton (h : now - lookbackS ≤ row.key.windowStart) :
    Sound first ⟨[row], events, c⟩ (.run now) := by
  refine ⟨fun _ row' hrow' _ => ?_, fun r hr r' hr' _ _ => ?_, fun _ => Or.inr ?_⟩
  · rw [List.mem_singleton.mp hrow']
    exact h
  · rw [List.mem_singleton.mp hr, List.mem_singleton.mp hr']
    exact ⟨rfl, rfl⟩
  · exact (List.length_filter_le _ _).trans (show 1 ≤ maxRowsPerSource by decide)

/-- The store once the flow has come and has been projected. -/
def promptStore : Store :=
  ⟨[promptFlow.row], [flowEvent 60090 promptFlow.row], 60060⟩

theorem promptStore_run : FlowStep promptStore (.run now) promptStore := by
  have hstep : FlowStep promptStore (.run now) (promptStore.project now [promptFlow.row]) :=
    .run (reads_singleton (le_of_eq (if_neg (by decide))))
  have hsame : promptStore.project now [promptFlow.row] = promptStore := by
    have hemit : emit promptStore.events (flowEvent now promptFlow.row) = promptStore.events :=
      if_pos rfl
    show Store.mk _ (emit promptStore.events (flowEvent now promptFlow.row)) _ = _
    rw [hemit]
    rfl
  rwa [hsame] at hstep

/-- A flow that comes once, and three runs of the projection. -/
theorem flows_projected_prompt :
    ∃ e ∈ promptStore.events, e.IsFlow promptFlow.row.key ∧
      e.metrics = promptFlow.row.metrics := by
  have hsound {events : List Event} {c now : ℤ} (h : now - lookbackS ≤ 60060) :
      Sound (60090 - lookbackS) ⟨[promptFlow.row], events, c⟩ (.run now) :=
    sound_singleton h
  have hingest : FlowStep Store.empty (.ingest promptFlow) ⟨[promptFlow.row], [], 0⟩ :=
    .ingest (by decide)
  have hfirst : FlowStep ⟨[promptFlow.row], [], 0⟩ (.run 60090) promptStore :=
    @FlowStep.run _ _ [promptFlow.row] (reads_singleton (by decide))
  have hacts : FlowRun (Sound (60090 - lookbackS)) Store.empty
      ([promptFlow].map .ingest ++ .run 60090 :: []) promptStore :=
    .cons (Or.inl (by decide)) hingest (.cons (hsound (by decide)) hfirst (.nil _))
  have hrun : FlowRun (Sound (60090 - lookbackS)) promptStore ([60150, 60210].map .run)
      promptStore :=
    .cons (hsound (by decide)) promptStore_run
      (.cons (hsound (by decide)) promptStore_run (.nil _))
  exact flows_projected hacts hrun (by decide) promptFlow.row (List.mem_singleton.mpr rfl)
    (by decide)

/-! ## A clock that runs ahead -/

theorem ts_ge_of_runs {P : Store → FlowAction → Prop}
    (hc : 0 < c) (hcursor : c ≤ st.cursor) (h : ∀ e ∈ st.events, c ≤ e.ts)
    (hrun : FlowRun P st (nows.map .run) st') : ∀ e ∈ st'.events, c ≤ e.ts := by
  induction nows generalizing st with
  | nil =>
    cases hrun
    exact h
  | cons now nows ih =>
    rcases hrun with _ | ⟨-, hstep, hrun⟩
    cases hstep with
    | run hreads =>
      refine ih (hcursor.trans (le_advance _ _)) ?_ hrun
      refine ts_ge_emitFlows h fun row hrow => ?_
      have hstart := (hreads.mem hrow).2
      rw [Store.start, if_neg (by omega)] at hstart
      omega

/-- A flow of an exporter whose clock is four minutes ahead. -/
def aheadFlow : FlowRecord where
  tenant := "acme"
  srcIp := "10.0.0.6"
  dstIp := "10.0.0.9"
  protocol := some 6
  dstPort := some 443
  bytes := 900
  packets := 2
  exporterIp := "10.0.0.2"
  exportTs := some 60300
  receiveTs := 60060
  source := some "ipfix"
  received := promptFlow.received

/-- The store once the flow with the early minute has been projected and the other one has come. -/
def aheadStore : Store :=
  ⟨[aheadFlow.row, promptFlow.row], [flowEvent 60060 aheadFlow.row], 60300⟩

/-- The flow of the other exporter is never projected, in however many runs. -/
theorem late_flow_lost :
    ¬ ∀ (ingested : List FlowRecord) (now : ℤ) (acts : List FlowAction) (st : Store),
      FlowRun (fun _ _ => True) Store.empty (ingested.map .ingest ++ .run now :: acts) st →
      ∃ n : ℕ, ∀ (nows : List ℤ) (st' : Store), n ≤ nows.length →
        FlowRun (fun _ _ => True) st (nows.map .run) st' →
        ∀ row ∈ st'.flows, now - lookbackS ≤ row.key.windowStart →
          ∃ e ∈ st'.events, e.IsFlow row.key ∧ e.metrics = row.metrics := by
  intro hclaim
  have hahead : FlowStep Store.empty (.ingest aheadFlow) ⟨[aheadFlow.row], [], 0⟩ :=
    .ingest (by decide)
  have hfirst : FlowStep ⟨[aheadFlow.row], [], 0⟩ (.run 60060)
      ⟨[aheadFlow.row], [flowEvent 60060 aheadFlow.row], 60300⟩ :=
    @FlowStep.run _ _ [aheadFlow.row] (reads_singleton (by decide))
  have hprompt : FlowStep ⟨[aheadFlow.row], [flowEvent 60060 aheadFlow.row], 60300⟩
      (.ingest promptFlow) aheadStore := .ingest (by decide)
  obtain ⟨n, hn⟩ := hclaim [aheadFlow] 60060 [.ingest promptFlow] aheadStore
    (.cons trivial hahead (.cons trivial hfirst (.cons trivial hprompt (.nil _))))
  obtain ⟨st', hrun⟩ := exists_runs aheadStore (List.replicate n 60120)
  obtain ⟨e, he, hflow, -⟩ := hn _ st' (List.length_replicate ..).ge hrun promptFlow.row
    (flows_of_runs hrun ▸ List.mem_cons_of_mem _ List.mem_cons_self) (by decide)
  have hts : 60300 ≤ e.ts := by
    refine ts_ge_of_runs (by decide) (by decide) (fun e' he' => ?_) hrun e he
    rw [List.mem_singleton.mp he']
    decide
  have hminute : e.ts = 60060 := hflow.2.1
  omega

end SentinelNet.Observability
