import SentinelNet.Observability.Events
import SentinelNet.Lib.Text

/-!
# Flow aggregation

`core/db.py` adds the flow records of a minute up in the table `flow_aggregates`, and `_from_flows`
of `observability/normalize.py` projects its rows into the event model.

* `upsertFlow`: `FLOW_UPSERT_SQL`.  Nulls are distinct in a `UNIQUE` constraint, so a row without
  protocol or port never takes a second record.
* `flowEvent`: the event of a row.
-/

namespace SentinelNet.Observability

open PyDict

/-! ## Numbers of a column -/

/-- The double nearest to a natural number, ties to even. -/
def toDouble (n : ℕ) : ℕ :=
  let s := n.log2 - 52
  let q := n / 2 ^ s
  let r := n % 2 ^ s
  if 2 * r < 2 ^ s ∨ (2 * r = 2 ^ s ∧ q % 2 = 0) then q * 2 ^ s else (q + 1) * 2 ^ s

/-- A nonnegative number of an `INTEGER` column: a sum of integers that overflows is a `REAL`. -/
inductive SqlNumber where
  | int (n : ℕ)
  | real (n : ℕ)
  deriving DecidableEq

/-- The first integer that does not fit a column. -/
def sqlIntLimit : ℕ := 2 ^ 63

/-- The sum of a column and a bound integer. -/
def SqlNumber.add : SqlNumber → ℕ → SqlNumber
  | .int n, m => if n + m < sqlIntLimit then .int (n + m)
      else .real (toDouble (toDouble n + toDouble m))
  | .real n, m => .real (toDouble (n + toDouble m))

/-- What `json.dumps` writes for the column. -/
def SqlNumber.toJson : SqlNumber → Json
  | .int n => .int n
  | .real n => .float n

theorem SqlNumber.toJson_eq_int {x : SqlNumber} {n : ℕ} : x.toJson = Json.int n ↔ x = .int n := by
  cases x with
  | int m => simp [toJson]
  | real m => simp [toJson]

/-! ## Records -/

/-- What the rows of `flow_aggregates` are unique in. -/
structure FlowKey where
  windowStart : ℤ
  tenant : String
  srcIp : String
  dstIp : String
  protocol : Option ℕ
  dstPort : Option ℕ
  deriving DecidableEq

/-- A decoded flow record as `enqueue_flow` gets it, received with the clock well past the
epoch. -/
structure FlowRecord where
  tenant : String
  srcIp : String
  dstIp : String
  protocol : Option ℕ
  dstPort : Option ℕ
  bytes : ℕ
  packets : ℕ
  exporterIp : String
  exportTs : Option ℤ
  receiveTs : ℤ
  source : Option String
  received : 360 < receiveTs

def clockSkewMax : ℤ := 300

/-- `flow_window_start`: the minute of the exporter's time where this is near the reception, else
that of the reception. -/
def flowWindowStart (exportTs : Option ℤ) (receiveTs : ℤ) : ℤ :=
  let ts := match exportTs with
    | some ts => if |ts - receiveTs| > clockSkewMax then receiveTs else ts
    | none => receiveTs
  ts - ts % 60

theorem flowWindowStart_bounds (exportTs : Option ℤ) (receiveTs : ℤ) :
    receiveTs - 360 < flowWindowStart exportTs receiveTs ∧
      flowWindowStart exportTs receiveTs ≤ receiveTs + 300 := by
  unfold flowWindowStart clockSkewMax
  rcases exportTs with _ | ts
  · constructor <;> simp only <;> omega
  · simp only
    split
    · constructor <;> omega
    · next h =>
      obtain ⟨hlo, hhi⟩ := abs_le.mp (not_lt.mp h)
      constructor <;> omega

def FlowRecord.key (r : FlowRecord) : FlowKey where
  windowStart := flowWindowStart r.exportTs r.receiveTs
  tenant := r.tenant
  srcIp := r.srcIp
  dstIp := r.dstIp
  protocol := r.protocol
  dstPort := r.dstPort

theorem FlowRecord.key_pos (r : FlowRecord) : 0 < r.key.windowStart := by
  have hbound := (flowWindowStart_bounds r.exportTs r.receiveTs).1
  have hreceived := r.received
  show 0 < flowWindowStart r.exportTs r.receiveTs
  omega

/-- The values of the record that the statement binds are 64-bit integers; others raise
`OverflowError`. -/
def FlowRecord.Bindable (r : FlowRecord) : Prop :=
  (∀ p ∈ r.protocol, p < sqlIntLimit) ∧ (∀ p ∈ r.dstPort, p < sqlIntLimit) ∧
    r.bytes < sqlIntLimit ∧ r.packets < sqlIntLimit

instance (r : FlowRecord) : Decidable r.Bindable :=
  inferInstanceAs (Decidable (_ ∧ _ ∧ _ ∧ _))

/-! ## The table -/

structure FlowRow where
  key : FlowKey
  totalBytes : SqlNumber
  totalPackets : SqlNumber
  flowCount : SqlNumber
  exporterIp : String
  source : Option String
  deriving DecidableEq

def FlowRecord.row (r : FlowRecord) : FlowRow where
  key := r.key
  totalBytes := .int r.bytes
  totalPackets := .int r.packets
  flowCount := .int 1
  exporterIp := r.exporterIp
  source := r.source

def FlowRow.add (row : FlowRow) (r : FlowRecord) : FlowRow where
  key := row.key
  totalBytes := row.totalBytes.add r.bytes
  totalPackets := row.totalPackets.add r.packets
  flowCount := row.flowCount.add 1
  exporterIp := r.exporterIp
  source := r.source

/-- No column of the key is null: the key can be in conflict with a row. -/
def FlowKey.Complete (k : FlowKey) : Prop := k.protocol.isSome ∧ k.dstPort.isSome

instance (k : FlowKey) : Decidable k.Complete := inferInstanceAs (Decidable (_ ∧ _))

/-- `FLOW_UPSERT_SQL` once its values are bound. -/
def upsertRow : List FlowRow → FlowRecord → List FlowRow
  | [], r => [r.row]
  | row :: rows, r =>
    if row.key = r.key ∧ r.key.Complete then row.add r :: rows else row :: upsertRow rows r

/-- Python's error for an integer that no column can hold. -/
inductive BindError where
  | overflow
  deriving DecidableEq

def upsertFlow (rows : List FlowRow) (r : FlowRecord) : Except BindError (List FlowRow) :=
  if r.Bindable then .ok (upsertRow rows r) else .error .overflow

variable {rows : List FlowRow} {r : FlowRecord}

theorem mem_upsertRow {row : FlowRow} (h : row ∈ upsertRow rows r) :
    row ∈ rows ∨ row = r.row ∨ ∃ old ∈ rows, old.key = r.key ∧ row = old.add r := by
  induction rows with
  | nil => exact Or.inr (Or.inl (List.mem_singleton.mp h))
  | cons old rows ih =>
    rw [upsertRow] at h
    split at h
    · next hkey =>
      rcases List.mem_cons.mp h with rfl | h
      · exact Or.inr (Or.inr ⟨old, List.mem_cons_self .., hkey.1, rfl⟩)
      · exact Or.inl (List.mem_cons_of_mem _ h)
    · rcases List.mem_cons.mp h with rfl | h
      · exact Or.inl List.mem_cons_self
      · rcases ih h with h | rfl | ⟨o, ho, hkey, rfl⟩
        · exact Or.inl (List.mem_cons_of_mem _ h)
        · exact Or.inr (Or.inl rfl)
        · exact Or.inr (Or.inr ⟨o, List.mem_cons_of_mem _ ho, hkey, rfl⟩)

theorem mem_of_mem_upsertRow {row : FlowRow}
    (h : row ∈ upsertRow rows r) (hne : row.key ≠ r.key) : row ∈ rows := by
  rcases mem_upsertRow h with h | rfl | ⟨old, -, hkey, rfl⟩
  · exact h
  · exact absurd rfl hne
  · exact absurd hkey hne

theorem exists_key_upsertRow {k : FlowKey} :
    (∃ row ∈ upsertRow rows r, row.key = k) ↔ (∃ row ∈ rows, row.key = k) ∨ k = r.key := by
  induction rows with
  | nil =>
    rw [upsertRow]
    simp [FlowRecord.row, eq_comm]
  | cons old rows ih =>
    rw [upsertRow]
    split
    · next hkey =>
      have hadd : (old.add r).key = old.key := rfl
      simp only [List.exists_mem_cons_iff, hadd, hkey.1]
      constructor
      · rintro (h | h)
        · exact Or.inr h.symm
        · exact Or.inl (Or.inr h)
      · rintro ((h | h) | h)
        · exact Or.inl h
        · exact Or.inr h
        · exact Or.inl h.symm
    · simp only [List.exists_mem_cons_iff, ih, or_assoc]

/-! ## Events -/

def protoNum (s : String) : Option String :=
  if s = "6" then some "TCP" else if s = "17" then some "UDP" else if s = "1" then some "ICMP"
  else none

/-- `PROTO_NUM.get(proto, proto) or None` of the protocol column. -/
def protocolName : Option ℕ → Option String
  | none => none
  | some n => some ((protoNum (PyText.str n)).getD (PyText.str n))

theorem protoNum_eq_some {s t : String} (h : protoNum s = some t) :
    s = "6" ∧ t = "TCP" ∨ s = "17" ∧ t = "UDP" ∨ s = "1" ∧ t = "ICMP" := by
  unfold protoNum at h
  split_ifs at h with h6 h17 h1
  · exact Or.inl ⟨h6, (Option.some.inj h).symm⟩
  · exact Or.inr (Or.inl ⟨h17, (Option.some.inj h).symm⟩)
  · exact Or.inr (Or.inr ⟨h1, (Option.some.inj h).symm⟩)

theorem isdigit_protoNum {s t : String} (h : protoNum s = some t) : PyText.isdigit t = false := by
  rcases protoNum_eq_some h with ⟨-, rfl⟩ | ⟨-, rfl⟩ | ⟨-, rfl⟩ <;> decide

theorem protoNum_inj {s s' t : String} (h : protoNum s = some t) (h' : protoNum s' = some t) :
    s = s' := by
  rcases protoNum_eq_some h with ⟨rfl, rfl⟩ | ⟨rfl, rfl⟩ | ⟨rfl, rfl⟩ <;>
    rcases protoNum_eq_some h' with ⟨rfl, ht⟩ | ⟨rfl, ht⟩ | ⟨rfl, ht⟩ <;>
      first | rfl | exact absurd ht (by decide)

theorem str_inj {n m : ℕ} (h : PyText.str n = PyText.str m) : n = m := by
  have hnat := congrArg PyText.nat h
  rwa [PyText.nat_str, PyText.nat_str] at hnat

theorem protocolName_inj {p p' : Option ℕ} (h : protocolName p = protocolName p') : p = p' := by
  have hdigit {n m : ℕ} (hn : protoNum (PyText.str n) = some (PyText.str m)) : False := by
    have hfalse := isdigit_protoNum hn
    rw [PyText.isdigit_str] at hfalse
    exact absurd hfalse (by decide)
  rcases p with _ | n
  · rcases p' with _ | m
    · rfl
    · exact absurd h (by simp [protocolName])
  · rcases p' with _ | m
    · exact absurd h (by simp [protocolName])
    · have hname := Option.some.inj h
      rcases hn : protoNum (PyText.str n) with _ | t
      · rcases hm : protoNum (PyText.str m) with _ | t'
        · rw [hn, hm] at hname
          rw [str_inj hname]
        · rw [hn, hm] at hname
          obtain rfl : PyText.str n = t' := hname
          exact (hdigit hm).elim
      · rcases hm : protoNum (PyText.str m) with _ | t'
        · rw [hn, hm] at hname
          obtain rfl : t = PyText.str m := hname
          exact (hdigit hn).elim
        · rw [hn, hm] at hname
          obtain rfl : t = t' := hname
          rw [str_inj (protoNum_inj hn hm)]

def columnText : Option ℕ → String
  | none => "None"
  | some n => PyText.str n

/-- The key of the event of a row. -/
def flowDedupKey (k : FlowKey) : String :=
  "flow:" ++ toString k.windowStart ++ ":" ++ k.tenant ++ ":" ++ k.srcIp ++ ":" ++ k.dstIp ++ ":" ++
    columnText k.protocol ++ ":" ++ columnText k.dstPort

def FlowRow.metrics (row : FlowRow) : Dict Json :=
  [("bytes", row.totalBytes.toJson), ("packets", row.totalPackets.toJson),
    ("flows", row.flowCount.toJson)]

def flowEvent (now : ℤ) (row : FlowRow) : Event where
  ts := row.key.windowStart
  ingestedTs := now
  tenant := row.key.tenant
  source := match row.source with
    | some s => if s = "" then "netflow" else s
    | none => "netflow"
  eventType := "flow.aggregate"
  entityType := "flow"
  entityId := row.key.srcIp ++ ">" ++ row.key.dstIp
  srcIp := some row.key.srcIp
  dstIp := some row.key.dstIp
  dstPort := row.key.dstPort.map Int.ofNat
  protocol := protocolName row.key.protocol
  deviceIp := some row.exporterIp
  metrics := row.metrics
  dedupKey := flowDedupKey row.key

/-- An event is about the key of a flow: its columns are those of the key. -/
def Event.IsFlow (e : Event) (k : FlowKey) : Prop :=
  e.eventType = "flow.aggregate" ∧ e.ts = k.windowStart ∧ e.tenant = k.tenant ∧
    e.srcIp = some k.srcIp ∧ e.dstIp = some k.dstIp ∧ e.protocol = protocolName k.protocol ∧
    e.dstPort = k.dstPort.map Int.ofNat

instance (e : Event) (k : FlowKey) : Decidable (e.IsFlow k) :=
  inferInstanceAs (Decidable (_ ∧ _ ∧ _ ∧ _ ∧ _ ∧ _ ∧ _))

theorem Event.IsFlow.key_eq {e : Event} {k k' : FlowKey} (h : e.IsFlow k) (h' : e.IsFlow k') :
    k = k' := by
  obtain ⟨-, hts, htenant, hsrc, hdst, hproto, hport⟩ := h
  obtain ⟨-, hts', htenant', hsrc', hdst', hproto', hport'⟩ := h'
  have hp : k.protocol = k'.protocol := protocolName_inj (hproto.symm.trans hproto')
  have hd : k.dstPort = k'.dstPort :=
    Option.map_injective (fun _ _ => Int.ofNat.inj) (hport.symm.trans hport')
  cases k
  cases k'
  simp_all

theorem flowEvent_isFlow (now : ℤ) (row : FlowRow) : (flowEvent now row).IsFlow row.key :=
  ⟨rfl, rfl, rfl, rfl, rfl, rfl, rfl⟩

/-- A flow of an exporter that sends no time of its own. -/
def promptFlow : FlowRecord where
  tenant := "acme"
  srcIp := "10.0.0.5"
  dstIp := "10.0.0.9"
  protocol := some 6
  dstPort := some 443
  bytes := 1500
  packets := 3
  exporterIp := "10.0.0.1"
  exportTs := none
  receiveTs := 60060
  source := some "ipfix"
  received := by decide

end SentinelNet.Observability
