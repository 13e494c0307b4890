import SentinelNet.Lib.Dict

/-!
# The event model

The table `events` of `observability/storage/schema.sql`, into which `observability/normalize.py`
projects what the sources hold.  The columns `metrics_json` and `attrs_json` are JSON objects.
-/

namespace SentinelNet.Observability

open PyDict

def lookbackS : ℤ := 3600

def maxRowsPerSource : ℕ := 2000

inductive Json where
  | null
  | bool (b : Bool)
  | int (n : ℤ)
  | float (q : ℚ)
  | str (s : String)
  | arr (vs : List Json)
  | obj (kvs : List (String × Json))

/-- A row of `events`. -/
structure Event where
  ts : ℤ
  ingestedTs : ℤ
  tenant : String
  source : String
  sourceId : Option ℕ := none
  eventType : String
  entityType : String
  entityId : String
  severity : Option ℤ := none
  deviceIp : Option String := none
  interface : Option String := none
  srcIp : Option String := none
  dstIp : Option String := none
  dstPort : Option ℤ := none
  protocol : Option String := none
  metrics : Dict Json := []
  attrs : Dict Json := []
  dedupKey : String

/-- `_emit`: an event with a new key is a new row, and one with a key that is there overwrites the
metrics of its row. -/
def emit : List Event → Event → List Event
  | [], e => [e]
  | old :: events, e =>
    if old.dedupKey = e.dedupKey then { old with metrics := e.metrics } :: events
    else old :: emit events e

theorem mem_emit {events : List Event} {e e' : Event} (h : e' ∈ emit events e) :
    e' ∈ events ∨ e' = e ∨
      ∃ old ∈ events, old.dedupKey = e.dedupKey ∧ e' = { old with metrics := e.metrics } := by
  induction events with
  | nil => exact Or.inr (Or.inl (List.mem_singleton.mp h))
  | cons old events ih =>
    rw [emit] at h
    split at h
    · next hkey =>
      rcases List.mem_cons.mp h with rfl | h
      · exact Or.inr (Or.inr ⟨old, List.mem_cons_self .., hkey, rfl⟩)
      · exact Or.inl (List.mem_cons_of_mem _ h)
    · rcases List.mem_cons.mp h with rfl | h
      · exact Or.inl List.mem_cons_self
      · rcases ih h with h | rfl | ⟨o, ho, hkey, rfl⟩
        · exact Or.inl (List.mem_cons_of_mem _ h)
        · exact Or.inr (Or.inl rfl)
        · exact Or.inr (Or.inr ⟨o, List.mem_cons_of_mem _ ho, hkey, rfl⟩)

theorem mem_keys_emit {events : List Event} {e : Event} {k : String} :
    k ∈ (emit events e).map Event.dedupKey ↔ k ∈ events.map Event.dedupKey ∨ k = e.dedupKey := by
  induction events with
  | nil => simp [emit]
  | cons old events ih =>
    rw [emit]
    split
    · next hkey =>
      show k ∈ old.dedupKey :: events.map Event.dedupKey ↔ _
      rw [List.map_cons, List.mem_cons, ← hkey]
      tauto
    · rw [List.map_cons, List.map_cons, List.mem_cons, List.mem_cons, ih]
      tauto

/-- No key twice, as the table demands. -/
def UniqueKeys (events : List Event) : Prop := (events.map Event.dedupKey).Nodup

theorem uniqueKeys_nil : UniqueKeys [] := List.nodup_nil

theorem UniqueKeys.emit {events : List Event} (h : UniqueKeys events) (e : Event) :
    UniqueKeys (emit events e) := by
  induction events with
  | nil => simp [UniqueKeys, Observability.emit]
  | cons old events ih =>
    rw [UniqueKeys, List.map_cons, List.nodup_cons] at h
    rw [Observability.emit]
    split
    · rw [UniqueKeys, List.map_cons, List.nodup_cons]
      exact h
    · next hkey =>
      rw [UniqueKeys, List.map_cons, List.nodup_cons, mem_keys_emit, not_or]
      exact ⟨⟨h.1, hkey⟩, ih h.2⟩

/-- What the table holds under a key. -/
def atKey (events : List Event) (k : String) : Option Event :=
  events.find? fun e => e.dedupKey = k

/-- An event overwrites the metrics under its key, or is what the table then holds there; the other
keys hold what they held. -/
theorem atKey_emit (events : List Event) (e : Event) (k : String) :
    atKey (emit events e) k =
      if e.dedupKey = k then
        some (match atKey events k with
          | some old => { old with metrics := e.metrics }
          | none => e)
      else atKey events k := by
  induction events with
  | nil =>
    by_cases hk : e.dedupKey = k
    · simp [emit, atKey, hk]
    · simp [emit, atKey, hk]
  | cons old events ih =>
    rw [emit]
    by_cases hold : old.dedupKey = e.dedupKey
    · rw [if_pos hold]
      by_cases hk : e.dedupKey = k
      · rw [if_pos hk, atKey, atKey, List.find?_cons_of_pos (by simpa using hold.trans hk),
          List.find?_cons_of_pos (by simpa using hold.trans hk)]
      · have hne : ¬ old.dedupKey = k := fun h => hk (hold.symm.trans h)
        rw [if_neg hk, atKey, atKey, List.find?_cons_of_neg (by simpa using hne),
          List.find?_cons_of_neg (by simpa using hne)]
    · rw [if_neg hold]
      by_cases hok : old.dedupKey = k
      · have hne : ¬ e.dedupKey = k := fun h => hold (hok.trans h.symm)
        rw [if_neg hne, atKey, atKey, List.find?_cons_of_pos (by simpa using hok),
          List.find?_cons_of_pos (by simpa using hok)]
      · rw [atKey, List.find?_cons_of_neg (by simpa using hok), ← atKey, ih]
        rw [show atKey (old :: events) k = atKey events k from
          List.find?_cons_of_neg (by simpa using hok)]

end SentinelNet.Observability
