import SentinelNet.Observability.Flows
import SentinelNet.Observability.Snapshots

/-!
# Sources with a row number

`_from_syslog` and `_from_api_observations` of `observability/normalize.py` read the rows of their
tables by number, each row once, and project a row into one event under the row's number and maybe
into more.
-/

namespace SentinelNet.Observability

open PyDict PyText

/-! ## Tables -/

/-- A row with its number and its time; `serial` and `born` are not columns, they say which insert
it was and how many normalizations there had been. -/
structure Stored (R : Type*) where
  id : ℕ
  ts : ℤ
  data : R
  serial : ℕ
  born : ℕ

/-- A table in the order of its numbers. -/
structure Table (R : Type*) where
  rows : List (Stored R)
  ascending : rows.Pairwise fun r r' => r.id < r'.id

namespace Table

variable {R : Type*}

/-- The table without rows. -/
def empty : Table R := ⟨[], List.Pairwise.nil⟩

/-- The number that SQLite gives the next row: one more than the greatest there is, or 1. -/
def nextId (t : Table R) : ℕ := (t.rows.map Stored.id).foldr max 0 + 1

theorem id_lt_nextId {t : Table R} {r : Stored R} (h : r ∈ t.rows) : r.id < t.nextId := by
  have hle (l : List ℕ) (n : ℕ) (hn : n ∈ l) : n ≤ l.foldr max 0 := by
    induction l with
    | nil => cases hn
    | cons m l ih =>
      rw [List.foldr_cons]
      rcases List.mem_cons.mp hn with rfl | hn
      · exact le_max_left _ _
      · exact (ih hn).trans (le_max_right _ _)
  exact Nat.lt_succ_of_le (hle _ _ (List.mem_map_of_mem h))

/-- A new row. -/
def insert (t : Table R) (ts : ℤ) (data : R) (serial born : ℕ) : Table R where
  rows := t.rows ++ [⟨t.nextId, ts, data, serial, born⟩]
  ascending := by
    rw [List.pairwise_append]
    refine ⟨t.ascending, List.pairwise_singleton _ _, fun r hr r' hr' => ?_⟩
    rw [List.mem_singleton.mp hr']
    exact id_lt_nextId hr

/-- The rows that stay. -/
def keep (t : Table R) (p : Stored R → Bool) : Table R where
  rows := t.rows.filter p
  ascending := t.ascending.filter p

end Table

/-! ## Adapters -/

/-- An adapter: the oldest time it reads rows of, given its cursor; the event of a row under its
number; and further events, under other keys. -/
structure Source (R : Type*) where
  name : String
  minTs : ℕ → ℤ → Option ℤ
  event : ℤ → Stored R → Event
  further : ℤ → List (Stored R) → Stored R → List Event
  event_key : ∀ now r, (event now r).dedupKey = name ++ ":" ++ str r.id
  further_key : ∀ now rows r, ∀ e ∈ further now rows r, ∀ n : ℕ,
    e.dedupKey ≠ name ++ ":" ++ str n

/-- The columns that come from the text of a row are 64-bit integers; others raise
`OverflowError`. -/
def Event.Bindable (e : Event) : Prop :=
  ∀ p ∈ e.dstPort, -(sqlIntLimit : ℤ) ≤ p ∧ p < sqlIntLimit

instance (e : Event) : Decidable e.Bindable :=
  match h : e.dstPort with
  | none => isTrue fun p hp => absurd (h ▸ hp) (Option.not_mem_none p)
  | some p =>
    if hp : -(sqlIntLimit : ℤ) ≤ p ∧ p < sqlIntLimit then
      isTrue fun q hq => (Option.some.inj (h ▸ hq : some p = some q)) ▸ hp
    else isFalse fun hall => hp (hall p (h ▸ rfl))

/-! ## Syslog -/

/-- What `fieldmap.extract` finds in a message. -/
structure LogFields where
  srcIp : Option String := none
  dstIp : Option String := none
  srcPort : Option ℤ := none
  dstPort : Option ℤ := none
  protocol : Option String := none
  action : Option String := none
  policyId : Option String := none
  subtype : Option String := none
  bytes : Option ℤ := none
  dstname : Option String := none
  hostname : Option String := none
  qname : Option String := none

/-- The columns of `syslog_events`. -/
structure LogRow where
  tenant : String
  deviceIp : Option String
  severity : Option ℤ
  action : Option String
  message : Option String
  exporterIp : Option String

def securityActions : List String :=
  ["deny", "denied", "blocked", "block", "drop", "dropped", "reset", "reset-both", "reset-client",
    "reset-server", "clear_session", "redirect", "sinkhole"]

def orElse (a b : Option String) : Option String :=
  match nonempty a with
  | some s => some s
  | none => b

def isSecurityAction (action : Option String) : Bool :=
  lower (strip ((nonempty action).getD "")) ∈ securityActions

def textJson : Option String → Json
  | none => .null
  | some s => .str s

def intJson : Option ℤ → Json
  | none => .null
  | some n => .int n

def syslogAttrs (r : LogRow) (fields : LogFields) (action : Option String) : Dict Json :=
  [("action", textJson action),
    ("message", .str (String.ofList ((r.message.getD "").toList.take 1024))),
    ("src_port", intJson fields.srcPort), ("policy_id", textJson fields.policyId),
    ("subtype", textJson fields.subtype), ("exporter_ip", textJson r.exporterIp)] ++
  (match nonempty (orElse fields.dstname fields.hostname) with
    | some name => [("dst_name", .str name)]
    | none => []) ++
  match nonempty fields.qname with
    | some name => [("qname", .str name)]
    | none => []

def syslogEvent (extract : Option String → LogFields) (now : ℤ) (r : Stored LogRow) : Event :=
  let fields := extract r.data.message
  let action := orElse r.data.action fields.action
  { ts := r.ts
    ingestedTs := now
    tenant := r.data.tenant
    source := "syslog"
    sourceId := some r.id
    eventType := if isSecurityAction action then "log.security" else "log.event"
    entityType := "device"
    entityId := (nonempty (orElse r.data.deviceIp fields.srcIp)).getD "sconosciuto"
    severity := r.data.severity
    deviceIp := r.data.deviceIp
    srcIp := fields.srcIp
    dstIp := fields.dstIp
    dstPort := fields.dstPort
    protocol := fields.protocol
    metrics := match fields.bytes with
      | some n => if n = 0 then [] else [("bytes", .int n)]
      | none => []
    attrs := syslogAttrs r.data fields action
    dedupKey := "syslog" ++ ":" ++ str r.id }

/-- `_from_syslog`: as long as the cursor is 0 it does not look back further. -/
def syslogSource (extract : Option String → LogFields) : Source LogRow where
  name := "syslog"
  minTs cursor now := some (if cursor = 0 then now - lookbackS else 0)
  event := syslogEvent extract
  further _ _ _ := []
  event_key _ _ := rfl
  further_key _ _ _ _ he := nomatch he

/-! ## Snapshots -/

def Stored.apiRow (r : Stored ApiRow) : ApiRow := { r.data with id := r.id, ts := r.ts }

/-- The previous snapshot of the device of the same kind. -/
def previousSnapshot (rows : List (Stored ApiRow)) (r : Stored ApiRow) : Option ApiRow :=
  ((rows.filter fun r' =>
    r'.data.deviceIp = r.data.deviceIp ∧ r'.data.kind = r.data.kind ∧ r'.id < r.id).map
      Stored.apiRow).getLast?

def snapshotEvents (now : ℤ) (rows : List (Stored ApiRow)) (r : Stored ApiRow) : List Event :=
  (apiEvents now (previousSnapshot rows r) r.apiRow).tail

theorem apiEvents_eq_cons (now : ℤ) (rows : List (Stored ApiRow)) (r : Stored ApiRow) :
    apiEvents now (previousSnapshot rows r) r.apiRow =
      deviceEvent now r.apiRow :: snapshotEvents now rows r := by
  rw [snapshotEvents, apiEvents]
  split <;> rfl

theorem dedupKey_of_mem_snapshotEvents {now : ℤ} {rows : List (Stored ApiRow)}
    {r : Stored ApiRow} {e : Event} (h : e ∈ snapshotEvents now rows r) :
    ∃ rest : List Char, e.dedupKey.toList = "api-".toList ++ rest := by
  rw [snapshotEvents, apiEvents] at h
  split at h
  · cases h
  · rw [List.cons_append, List.tail_cons] at h
    rcases List.mem_append.mp h with h | h
    · rcases hprev : previousSnapshot rows r with _ | prev
      · rw [hprev] at h
        cases h
      · rw [hprev] at h
        obtain ⟨c, -, rfl⟩ := List.mem_map.mp h
        refine ⟨("change:" ++ str r.id ++ ":" ++ c.1).toList, ?_⟩
        rw [← String.toList_append]
        simp [changeEvent, Stored.apiRow]
    · obtain ⟨p, -, rfl⟩ := List.mem_map.mp h
      refine ⟨("iface:" ++ str r.id ++ ":" ++ p.1).toList, ?_⟩
      rw [← String.toList_append]
      simp [interfaceEvent, Stored.apiRow]

/-- `_from_api_observations`. -/
def apiSource : Source ApiRow where
  name := "api"
  minTs _ _ := none
  event now r := deviceEvent now r.apiRow
  further := snapshotEvents
  event_key now r := by
    show "api:" ++ str r.id = "api" ++ ":" ++ str r.id
    apply String.toList_injective
    simp
  further_key now rows r e he n heq := by
    obtain ⟨rest, hrest⟩ := dedupKey_of_mem_snapshotEvents he
    have htext := congrArg String.toList heq
    rw [hrest] at htext
    simp at htext

end SentinelNet.Observability
