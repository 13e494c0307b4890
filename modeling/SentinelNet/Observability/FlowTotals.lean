import SentinelNet.Observability.Flows

/-!
# Totals of flows

What the flow table and its events say about the records that were added up.  A row with a protocol
and a port takes every record of its key.  Nulls are distinct in the constraint, so without one of
the two each record has a row of its own, and these rows share one event, which is overwritten and
never added to.

* `rowsFor_upsertFlows`: the rows of a key after them.
* `aggregated_iff`: when every key has exactly one event, with the sums over its records.
-/

namespace SentinelNet.Observability

open PyDict

/-- The statements for a sequence of records, one after the other. -/
def upsertFlows (records : List FlowRecord) : Except BindError (List FlowRow) :=
  records.foldlM upsertFlow []

/-- The events after any runs of `_from_flows`: the rows they read, each with the time of its
run. -/
def projectFlows (read : List (ℤ × FlowRow)) : List Event :=
  read.foldl (fun events p => emit events (flowEvent p.1 p.2)) []

def recordsOf (k : FlowKey) (records : List FlowRecord) : List FlowRecord :=
  records.filter fun r => r.key = k

def rowsFor (k : FlowKey) (rows : List FlowRow) : List FlowRow := rows.filter fun row => row.key = k

def sumMetrics (records : List FlowRecord) : Dict Json :=
  [("bytes", .int (records.map FlowRecord.bytes).sum),
    ("packets", .int (records.map FlowRecord.packets).sum), ("flows", .int records.length)]

/-- Every key of the records has exactly one event, whose metrics are the sums over its records. -/
def Aggregated (records : List FlowRecord) (events : List Event) : Prop :=
  ∀ r ∈ records, ∃ e, events.filter (fun e => e.IsFlow r.key) = [e] ∧
    e.metrics = sumMetrics (recordsOf r.key records)

/-- What the records of a key have to meet for its rows to show their sums: without protocol or port
there is one record, and the sums fit a column. -/
structure Summable (k : FlowKey) (records : List FlowRecord) : Prop where
  single : ¬ k.Complete → records.length = 1
  bytes : (records.map FlowRecord.bytes).sum < sqlIntLimit
  packets : (records.map FlowRecord.packets).sum < sqlIntLimit
  flows : records.length < sqlIntLimit

/-- The values of all records can be bound, no two keys have the same text in `dedup_key`, and the
records of each key can be summed. -/
structure Countable (records : List FlowRecord) : Prop where
  bindable : ∀ r ∈ records, r.Bindable
  text : ∀ r ∈ records, ∀ r' ∈ records, flowDedupKey r.key = flowDedupKey r'.key → r.key = r'.key
  summable : ∀ r ∈ records, Summable r.key (recordsOf r.key records)

/-! ## The rows of a key -/

/-- The row that takes all records of a key. -/
def groupRow : List FlowRecord → List FlowRow
  | [] => []
  | r :: records => [records.foldl FlowRow.add r.row]

theorem groupRow_append (records : List FlowRecord) (r : FlowRecord) :
    groupRow (records ++ [r]) =
      match groupRow records with
      | [] => [r.row]
      | row :: rows => row.add r :: rows := by
  cases records with
  | nil => rfl
  | cons r' records => simp [groupRow, List.foldl_append]

variable {k : FlowKey} {row : FlowRow} {rows : List FlowRow}

theorem rowsFor_cons_of_eq (h : row.key = k) : rowsFor k (row :: rows) = row :: rowsFor k rows := by
  simp [rowsFor, h]

theorem rowsFor_cons_of_ne (h : row.key ≠ k) : rowsFor k (row :: rows) = rowsFor k rows := by
  simp [rowsFor, h]

theorem rowsFor_upsertRow (k : FlowKey) (rows : List FlowRow) (r : FlowRecord) :
    rowsFor k (upsertRow rows r) =
      if r.key = k then
        if k.Complete then
          match rowsFor k rows with
          | [] => [r.row]
          | row :: rows => row.add r :: rows
        else rowsFor k rows ++ [r.row]
      else rowsFor k rows := by
  induction rows with
  | nil =>
    have hrow : r.row.key = r.key := rfl
    by_cases hk : r.key = k
    · simp [upsertRow, rowsFor, hrow, hk]
    · simp [upsertRow, rowsFor, hrow, hk]
  | cons row rows ih =>
    rw [upsertRow]
    by_cases hmatch : row.key = r.key ∧ r.key.Complete
    · rw [if_pos hmatch]
      by_cases hk : r.key = k
      · have hrow : row.key = k := hmatch.1.trans hk
        have hadd : (row.add r).key = k := hrow
        rw [if_pos hk, if_pos (hk ▸ hmatch.2), rowsFor_cons_of_eq hadd, rowsFor_cons_of_eq hrow]
      · have hrow : row.key ≠ k := fun h => hk (hmatch.1.symm.trans h)
        have hadd : (row.add r).key ≠ k := hrow
        rw [if_neg hk, rowsFor_cons_of_ne hadd, rowsFor_cons_of_ne hrow]
    · rw [if_neg hmatch]
      by_cases hrow : row.key = k
      · rw [rowsFor_cons_of_eq hrow, rowsFor_cons_of_eq hrow, ih]
        by_cases hk : r.key = k
        · have hcomplete : ¬ k.Complete := fun h => hmatch ⟨hrow.trans hk.symm, hk ▸ h⟩
          rw [if_pos hk, if_pos hk, if_neg hcomplete, if_neg hcomplete, List.cons_append]
        · rw [if_neg hk, if_neg hk]
      · rw [rowsFor_cons_of_ne hrow, rowsFor_cons_of_ne hrow, ih]

theorem recordsOf_append (k : FlowKey) (records : List FlowRecord) (r : FlowRecord) :
    recordsOf k (records ++ [r]) =
      if r.key = k then recordsOf k records ++ [r] else recordsOf k records := by
  rw [recordsOf, List.filter_append]
  by_cases hk : r.key = k
  · simp [hk, recordsOf]
  · simp [hk, recordsOf]

theorem rowsFor_foldl (k : FlowKey) (records : List FlowRecord) :
    rowsFor k (records.foldl upsertRow []) =
      if k.Complete then groupRow (recordsOf k records)
      else (recordsOf k records).map FlowRecord.row := by
  induction records using List.reverseRecOn with
  | nil => simp [rowsFor, recordsOf, groupRow]
  | append_singleton records r ih =>
    rw [List.foldl_append, List.foldl_cons, List.foldl_nil, rowsFor_upsertRow, ih,
      recordsOf_append]
    by_cases hk : r.key = k
    · rw [if_pos hk, if_pos hk]
      by_cases hcomplete : k.Complete
      · rw [if_pos hcomplete, if_pos hcomplete, if_pos hcomplete, groupRow_append]
      · rw [if_neg hcomplete, if_neg hcomplete, if_neg hcomplete, List.map_append]
        rfl
    · rw [if_neg hk, if_neg hk]

theorem upsertFlows_eq_ok {records : List FlowRecord} :
    upsertFlows records = .ok rows ↔
      (∀ r ∈ records, r.Bindable) ∧ rows = records.foldl upsertRow [] := by
  rw [upsertFlows]
  generalize ([] : List FlowRow) = start
  induction records generalizing start with
  | nil => simp [pure, Except.pure, eq_comm]
  | cons r records ih =>
    rw [List.foldlM_cons, List.forall_mem_cons, List.foldl_cons, upsertFlow]
    by_cases hr : r.Bindable
    · rw [if_pos hr]
      have hbind : ((Except.ok (upsertRow start r) : Except BindError _) >>= fun rows =>
        records.foldlM upsertFlow rows) = records.foldlM upsertFlow (upsertRow start r) := rfl
      rw [hbind, ih]
      simp [hr]
    · rw [if_neg hr]
      simp [hr, bind, Except.bind]

/-! ## Sums in a column -/

theorem foldl_add_real (n : ℕ) (ms : List ℕ) : ∃ t, ms.foldl SqlNumber.add (.real n) = .real t := by
  induction ms generalizing n with
  | nil => exact ⟨n, rfl⟩
  | cons m ms ih => exact ih _

theorem foldl_add_eq_int {n t : ℕ} {ms : List ℕ} (hn : n < sqlIntLimit) :
    ms.foldl SqlNumber.add (.int n) = .int t ↔ t = n + ms.sum ∧ n + ms.sum < sqlIntLimit := by
  induction ms generalizing n with
  | nil =>
    simp only [List.foldl_nil, SqlNumber.int.injEq, List.sum_nil, Nat.add_zero]
    constructor
    · rintro rfl
      exact ⟨rfl, hn⟩
    · rintro ⟨rfl, -⟩
      rfl
  | cons m ms ih =>
    rw [List.foldl_cons, SqlNumber.add, List.sum_cons, ← Nat.add_assoc]
    by_cases hm : n + m < sqlIntLimit
    · rw [if_pos hm]
      exact ih hm
    · rw [if_neg hm]
      obtain ⟨u, hu⟩ := foldl_add_real (toDouble (toDouble n + toDouble m)) ms
      rw [hu]
      simp only [reduceCtorEq, false_iff, not_and]
      omega

theorem totals_foldl_add (row : FlowRow) (records : List FlowRecord) :
    (records.foldl FlowRow.add row).totalBytes =
        (records.map FlowRecord.bytes).foldl SqlNumber.add row.totalBytes ∧
      (records.foldl FlowRow.add row).totalPackets =
        (records.map FlowRecord.packets).foldl SqlNumber.add row.totalPackets ∧
      (records.foldl FlowRow.add row).flowCount =
        (records.map fun _ => 1).foldl SqlNumber.add row.flowCount := by
  induction records generalizing row with
  | nil => exact ⟨rfl, rfl, rfl⟩
  | cons r records ih => exact ih (row.add r)

theorem metrics_eq_iff {records : List FlowRecord} :
    row.metrics = sumMetrics records ↔
      row.totalBytes = .int (records.map FlowRecord.bytes).sum ∧
        row.totalPackets = .int (records.map FlowRecord.packets).sum ∧
        row.flowCount = .int records.length := by
  rw [← SqlNumber.toJson_eq_int, ← SqlNumber.toJson_eq_int, ← SqlNumber.toJson_eq_int]
  simp [FlowRow.metrics, sumMetrics]

variable {r : FlowRecord}

theorem metrics_of_group (hk : k.Complete) {records : List FlowRecord} (hr : r.Bindable) :
    (records.foldl FlowRow.add r.row).metrics = sumMetrics (r :: records) ↔
      Summable k (r :: records) := by
  obtain ⟨hbytes, hpackets, hflows⟩ := totals_foldl_add r.row records
  have hone : 1 < sqlIntLimit := by decide
  rw [metrics_eq_iff, hbytes, hpackets, hflows]
  rw [show r.row.totalBytes = .int r.bytes from rfl,
    show r.row.totalPackets = .int r.packets from rfl, show r.row.flowCount = .int 1 from rfl]
  rw [foldl_add_eq_int hr.2.2.1, foldl_add_eq_int hr.2.2.2, foldl_add_eq_int hone]
  have hcount : (records.map fun _ => 1).sum = records.length := by simp
  rw [hcount]
  constructor
  · rintro ⟨⟨-, hb⟩, ⟨-, hp⟩, ⟨-, hf⟩⟩
    refine ⟨fun hno => absurd hk hno, ?_, ?_, ?_⟩
    · rwa [List.map_cons, List.sum_cons]
    · rwa [List.map_cons, List.sum_cons]
    · rw [List.length_cons]
      omega
  · rintro ⟨-, hb, hp, hf⟩
    rw [List.map_cons, List.sum_cons] at hb hp ⊢
    rw [List.map_cons, List.sum_cons]
    rw [List.length_cons] at hf ⊢
    exact ⟨⟨rfl, hb⟩, ⟨rfl, hp⟩, by omega, by omega⟩

theorem metrics_of_alone (hk : ¬ k.Complete)
    {records : List FlowRecord} (hr : r.Bindable) (hmem : r ∈ records) :
    r.row.metrics = sumMetrics records ↔ Summable k records := by
  rw [metrics_eq_iff]
  constructor
  · rintro ⟨hb, hp, hf⟩
    have hlen : 1 = records.length := SqlNumber.int.inj hf
    refine ⟨fun _ => hlen.symm, ?_, ?_, ?_⟩
    · rw [← SqlNumber.int.inj hb]
      exact hr.2.2.1
    · rw [← SqlNumber.int.inj hp]
      exact hr.2.2.2
    · rw [← hlen]
      decide
  · rintro ⟨hsingle, -, -, -⟩
    obtain ⟨r', hr'⟩ := List.length_eq_one_iff.mp (hsingle hk)
    rw [hr'] at hmem ⊢
    obtain rfl := List.mem_singleton.mp hmem
    exact ⟨rfl, rfl, rfl⟩

theorem mem_recordsOf {records : List FlowRecord} :
    r ∈ recordsOf k records ↔ r ∈ records ∧ r.key = k := by
  simp [recordsOf]

theorem metrics_iff {records : List FlowRecord} (hbind : ∀ r ∈ records, r.Bindable)
    (hrow : row ∈ rowsFor k (records.foldl upsertRow [])) :
    row.metrics = sumMetrics (recordsOf k records) ↔ Summable k (recordsOf k records) := by
  rw [rowsFor_foldl] at hrow
  by_cases hk : k.Complete
  · rw [if_pos hk] at hrow
    rcases hrec : recordsOf k records with _ | ⟨r, rest⟩
    · rw [hrec] at hrow
      cases hrow
    · rw [hrec] at hrow
      rw [List.mem_singleton.mp hrow]
      have hr : r ∈ recordsOf k records := by
        rw [hrec]
        exact List.mem_cons_self ..
      exact metrics_of_group hk (hbind r (mem_recordsOf.mp hr).1)
  · rw [if_neg hk] at hrow
    obtain ⟨r, hr, rfl⟩ := List.mem_map.mp hrow
    exact metrics_of_alone hk (hbind r (mem_recordsOf.mp hr).1) hr

theorem exists_row_iff {records : List FlowRecord} :
    (∃ row ∈ records.foldl upsertRow [], row.key = k) ↔ ∃ r ∈ records, r.key = k := by
  induction records using List.reverseRecOn with
  | nil => simp
  | append_singleton records r ih =>
    rw [List.foldl_append, List.foldl_cons, List.foldl_nil, exists_key_upsertRow, ih]
    simp [or_and_right, exists_or, eq_comm]

/-! ## The events of what is read -/

theorem projectFlows_append (read : List (ℤ × FlowRow)) (p : ℤ × FlowRow) :
    projectFlows (read ++ [p]) = emit (projectFlows read) (flowEvent p.1 p.2) := by
  rw [projectFlows, List.foldl_append]
  rfl

theorem uniqueKeys_projectFlows (read : List (ℤ × FlowRow)) : UniqueKeys (projectFlows read) := by
  induction read using List.reverseRecOn with
  | nil => exact uniqueKeys_nil
  | append_singleton read p ih =>
    rw [projectFlows_append]
    exact ih.emit _

theorem mem_keys_projectFlows {read : List (ℤ × FlowRow)} {p : ℤ × FlowRow} (h : p ∈ read) :
    flowDedupKey p.2.key ∈ (projectFlows read).map Event.dedupKey := by
  induction read using List.reverseRecOn with
  | nil => cases h
  | append_singleton read q ih =>
    rw [projectFlows_append, mem_keys_emit]
    rcases List.mem_append.mp h with h | h
    · exact Or.inl (ih h)
    · rw [List.mem_singleton.mp h]
      exact Or.inr rfl

variable {e : Event}

/-- An event has its columns from a row that was read, and its metrics from one, under the same
key. -/
theorem mem_projectFlows {read : List (ℤ × FlowRow)} (h : e ∈ projectFlows read) :
    (∃ p ∈ read, e.dedupKey = flowDedupKey p.2.key ∧ e.IsFlow p.2.key) ∧
      ∃ p ∈ read, e.dedupKey = flowDedupKey p.2.key ∧ e.metrics = p.2.metrics := by
  induction read using List.reverseRecOn generalizing e with
  | nil => cases h
  | append_singleton read q ih =>
    have hlast : q ∈ read ++ [q] := List.mem_append_right _ (List.mem_singleton_self q)
    rw [projectFlows_append] at h
    rcases mem_emit h with h | rfl | ⟨old, hold, hkey, rfl⟩
    · obtain ⟨⟨p, hp, hcols⟩, p', hp', hmetrics⟩ := ih h
      exact ⟨⟨p, List.mem_append_left _ hp, hcols⟩, p', List.mem_append_left _ hp', hmetrics⟩
    · exact ⟨⟨q, hlast, rfl, flowEvent_isFlow q.1 q.2⟩, q, hlast, rfl, rfl⟩
    · obtain ⟨⟨p, hp, hcols⟩, -⟩ := ih hold
      exact ⟨⟨p, List.mem_append_left _ hp, hcols⟩, q, hlast, hkey, rfl⟩

theorem eq_of_dedupKey {events : List Event} (h : UniqueKeys events) {e' : Event}
    (he : e ∈ events) (he' : e' ∈ events) (hkey : e.dedupKey = e'.dedupKey) : e = e' :=
  List.inj_on_of_nodup_map h he he' hkey

theorem filter_eq_singleton {events : List Event} (h : UniqueKeys events) {p : Event → Bool}
    (he : e ∈ events) (hp : p e) (honly : ∀ e' ∈ events, p e' = true → e' = e) :
    events.filter p = [e] := by
  have hnodup : (events.filter p).Nodup := (List.Nodup.of_map _ h).filter _
  have hmem : ∀ e', e' ∈ events.filter p ↔ e' ∈ [e] := by
    intro e'
    rw [List.mem_filter, List.mem_singleton]
    constructor
    · exact fun he' => honly e' he'.1 he'.2
    · rintro rfl
      exact ⟨he, hp⟩
  exact List.perm_singleton.mp ((List.perm_ext_iff_of_nodup hnodup (List.nodup_singleton e)).mpr hmem)

/-! ## One event for each key -/

def ReadsTable (read : List (ℤ × FlowRow)) (table : List FlowRow) : Prop :=
  ∀ row, (∃ now, (now, row) ∈ read) ↔ row ∈ table

variable {read : List (ℤ × FlowRow)} {records : List FlowRecord}

theorem ReadsTable.record (h : ReadsTable read (records.foldl upsertRow [])) {p : ℤ × FlowRow}
    (hp : p ∈ read) :
    p.2 ∈ records.foldl upsertRow [] ∧ ∃ r ∈ records, r.key = p.2.key := by
  have hrow := (h p.2).mp ⟨p.1, hp⟩
  exact ⟨hrow, exists_row_iff.mp ⟨p.2, hrow, rfl⟩⟩

theorem ReadsTable.exists_read (h : ReadsTable read (records.foldl upsertRow []))
    (hr : r ∈ records) : ∃ p ∈ read, p.2.key = r.key := by
  obtain ⟨row, hrow, hkey⟩ := exists_row_iff.mpr ⟨r, hr, rfl⟩
  obtain ⟨now, hread⟩ := (h row).mpr hrow
  exact ⟨(now, row), hread, hkey⟩

theorem dedupKey_of_isFlow (h : e ∈ projectFlows read)
    (hk : e.IsFlow k) : e.dedupKey = flowDedupKey k := by
  obtain ⟨⟨p, -, hkey, hflow⟩, -⟩ := mem_projectFlows h
  rw [hkey, hk.key_eq hflow]

theorem aggregated_of_countable (h : Countable records)
    (hread : ReadsTable read (records.foldl upsertRow [])) :
    Aggregated records (projectFlows read) := by
  intro r hr
  obtain ⟨p, hp, hkey⟩ := hread.exists_read hr
  obtain ⟨e, he, hetext⟩ := List.mem_map.mp (mem_keys_projectFlows hp)
  rw [hkey] at hetext
  -- what was read under the text of the key is a row of the key
  have hrow {q : ℤ × FlowRow} (hq : q ∈ read) (hqtext : e.dedupKey = flowDedupKey q.2.key) :
      q.2.key = r.key ∧ q.2 ∈ records.foldl upsertRow [] := by
    obtain ⟨hmem, r', hr', hr'key⟩ := hread.record hq
    rw [← hr'key] at hqtext ⊢
    exact ⟨h.text r' hr' r hr (hqtext.symm.trans hetext), hmem⟩
  obtain ⟨⟨q, hq, hqtext, hflow⟩, q', hq', hq'text, hmetrics⟩ := mem_projectFlows he
  rw [(hrow hq hqtext).1] at hflow
  refine ⟨e, filter_eq_singleton (uniqueKeys_projectFlows read) he (decide_eq_true hflow) ?_, ?_⟩
  · intro e' he' hflow'
    have htext' := dedupKey_of_isFlow he' (of_decide_eq_true hflow')
    exact eq_of_dedupKey (uniqueKeys_projectFlows read) he' he (htext'.trans hetext.symm)
  · obtain ⟨hq'key, hq'mem⟩ := hrow hq' hq'text
    rw [hmetrics, metrics_iff h.bindable (List.mem_filter.mpr ⟨hq'mem, decide_eq_true hq'key⟩)]
    exact h.summable r hr

theorem countable_of_aggregated (h : Aggregated records (projectFlows read))
    (hbind : ∀ r ∈ records, r.Bindable) (hread : ReadsTable read (records.foldl upsertRow [])) :
    Countable records := by
  have hevent {r : FlowRecord} (hr : r ∈ records) : ∃ e ∈ projectFlows read,
      e.IsFlow r.key ∧ e.dedupKey = flowDedupKey r.key ∧
        e.metrics = sumMetrics (recordsOf r.key records) := by
    obtain ⟨e, hfilter, hmetrics⟩ := h r hr
    have he : e ∈ (projectFlows read).filter fun e => e.IsFlow r.key := by
      rw [hfilter]
      exact List.mem_singleton_self e
    obtain ⟨he, hflow⟩ := List.mem_filter.mp he
    have hflow := of_decide_eq_true hflow
    exact ⟨e, he, hflow, dedupKey_of_isFlow he hflow, hmetrics⟩
  have htext : ∀ r ∈ records, ∀ r' ∈ records,
      flowDedupKey r.key = flowDedupKey r'.key → r.key = r'.key := by
    intro r hr r' hr' hsame
    obtain ⟨e, he, hflow, hkey, -⟩ := hevent hr
    obtain ⟨e', he', hflow', hkey', -⟩ := hevent hr'
    obtain rfl := eq_of_dedupKey (uniqueKeys_projectFlows read) he he'
      (hkey.trans (hsame.trans hkey'.symm))
    exact hflow.key_eq hflow'
  refine ⟨hbind, htext, fun r hr => ?_⟩
  obtain ⟨e, he, -, hkey, hmetrics⟩ := hevent hr
  obtain ⟨-, q, hq, hqkey, hqmetrics⟩ := mem_projectFlows he
  obtain ⟨hmem, r', hr', hr'key⟩ := hread.record hq
  have hqr : q.2.key = r.key := by
    rw [← hr'key] at hqkey ⊢
    exact htext r' hr' r hr (hqkey.symm.trans hkey)
  rw [← metrics_iff hbind (List.mem_filter.mpr ⟨hmem, decide_eq_true hqr⟩), ← hqmetrics]
  exact hmetrics

/-- Once the statements of the records have gone through and the projection has read the table, each
key has exactly one event with the sums over its records, exactly when the records are countable. -/
theorem aggregated_iff (hread : ∀ table, upsertFlows records = .ok table → ReadsTable read table) :
    (∃ table, upsertFlows records = .ok table) ∧ Aggregated records (projectFlows read) ↔
      Countable records := by
  constructor
  · rintro ⟨⟨table, htable⟩, h⟩
    have hreads := hread table htable
    obtain ⟨hbind, rfl⟩ := upsertFlows_eq_ok.mp htable
    exact countable_of_aggregated h hbind hreads
  · intro h
    have htable := upsertFlows_eq_ok.mpr ⟨h.bindable, rfl⟩
    exact ⟨⟨_, htable⟩, aggregated_of_countable h (hread _ htable)⟩

/-- Two records of a connection, and a run that reads their row. -/
theorem aggregated_iff_prompt :
    (∃ table, upsertFlows [promptFlow, promptFlow] = .ok table) ∧
        Aggregated [promptFlow, promptFlow]
          (projectFlows [(60090, promptFlow.row.add promptFlow)]) ↔
      Countable [promptFlow, promptFlow] := by
  refine aggregated_iff fun table htable row => ?_
  obtain ⟨-, rfl⟩ := upsertFlows_eq_ok.mp htable
  have htable : [promptFlow, promptFlow].foldl upsertRow [] = [promptFlow.row.add promptFlow] := by
    decide
  rw [htable]
  simp

/-- An echo request; no port. -/
def pingFlow : FlowRecord where
  tenant := "acme"
  srcIp := "10.0.0.5"
  dstIp := "10.0.0.9"
  protocol := some 1
  dstPort := none
  bytes := 84
  packets := 1
  exporterIp := "10.0.0.1"
  exportTs := none
  receiveTs := 60060
  source := some "ipfix"
  received := promptFlow.received

/-- Two records of echo requests have a row each, and the one event shows the second row alone. -/
theorem pings_overwritten :
    ¬ ∀ (records : List FlowRecord) (read : List (ℤ × FlowRow)),
      (∀ table, upsertFlows records = .ok table → ReadsTable read table) →
        (∃ table, upsertFlows records = .ok table) ∧ Aggregated records (projectFlows read) := by
  intro hclaim
  have htable : [pingFlow, pingFlow].foldl upsertRow [] = [pingFlow.row, pingFlow.row] := by
    decide
  have hreads : ReadsTable [(60090, pingFlow.row), (60090, pingFlow.row)]
      ([pingFlow, pingFlow].foldl upsertRow []) := by
    intro row
    rw [htable]
    simp
  have hread : ∀ table, upsertFlows [pingFlow, pingFlow] = .ok table →
      ReadsTable [(60090, pingFlow.row), (60090, pingFlow.row)] table := by
    intro table htable
    rw [(upsertFlows_eq_ok.mp htable).2]
    exact hreads
  obtain ⟨⟨table, hok⟩, hagg⟩ := hclaim _ _ hread
  have hcount := countable_of_aggregated hagg (upsertFlows_eq_ok.mp hok).1 hreads
  have hsingle := (hcount.summable pingFlow List.mem_cons_self).single (by decide)
  exact absurd hsingle (by decide)

end SentinelNet.Observability
