import SentinelNet.Lib.LogCursor
import SentinelNet.Lib.RowIds
import SentinelNet.Lib.SingleWriter
import SentinelNet.Notifications.Delivery

/-!
# The tick

`_tick` turns the new incidents and the new security events into notices, moves a cursor over each
of the two tables, and delivers the outbox.  Its connection writes the cursors, while `emit` opens
a connection of its own for every event.

* `tick_of_unheard`, `tick_of_heard`: what a tick does.
-/

namespace SentinelNet.Notifications

/-! ## Rows -/

/-- The escape `\u` of a code unit, in `json.dumps`. -/
def jsonUnit (n : ℕ) : List Char :=
  let digits := Nat.toDigits 16 n
  [Char.ofNat 92, 'u'] ++ List.replicate (4 - digits.length) '0' ++ digits

/-- A character in a text of `json.dumps`. -/
def jsonChar (c : Char) : List Char :=
  match c.toNat with
  | 8 => [Char.ofNat 92, 'b']
  | 9 => [Char.ofNat 92, 't']
  | 10 => [Char.ofNat 92, 'n']
  | 12 => [Char.ofNat 92, 'f']
  | 13 => [Char.ofNat 92, 'r']
  | 34 => [Char.ofNat 92, c]
  | 92 => [Char.ofNat 92, c]
  | n =>
    if 32 ≤ n ∧ n < 127 then [c]
    else if n < 65536 then jsonUnit n
    else jsonUnit (55296 + (n - 65536) / 1024) ++ jsonUnit (56320 + (n - 65536) % 1024)

/-- The context of an event, in `json.dumps`. -/
def ctxJson (name : String) (id : ℕ) (tenant : String) : String :=
  "\x7b\"" ++ name ++ "\": " ++ PyText.str id ++ ", \"tenant\": \"" ++
    String.ofList (tenant.toList.flatMap jsonChar) ++ "\"\x7d"

/-- A row of `incidents`. -/
structure Incident where
  id : ℕ
  tenant : String
  title : Option String
  severity : Option ℤ

/-- A row of `events`; `message` is that of its attributes, if it has one. -/
structure EventRow where
  id : ℕ
  eventType : String
  tenant : String
  entityId : String
  deviceIp : Option String
  severity : Option ℤ
  message : String

/-- An event that the tick reads. -/
def EventRow.isSecurity (ev : EventRow) : Bool := ev.eventType = "log.security"

def rowSeverity : Option ℤ → RawSeverity
  | some n => .int n
  | none => .text "high"

/-- A text that is there and not empty, or another one. -/
def orText (s : Option String) (t : String) : String := (s.filter fun s => s ≠ "").getD t

def Incident.event (i : Incident) : Event where
  kind := .incidentOpened
  deviceIp := none
  severity := rowSeverity i.severity
  title := "Incidente aperto: " ++ orText i.title "Incidente rilevato"
  ctx := ctxJson "incident_id" i.id i.tenant
  dedupKey := some ("incident:" ++ PyText.str i.id)
  tenant := some i.tenant

/-- What is notified of a security event. -/
def EventRow.event (ev : EventRow) : Event where
  kind := .siemAlert
  deviceIp := some (orText ev.deviceIp ev.entityId)
  severity := rowSeverity ev.severity
  title := "Allerta SIEM: " ++
    if ev.message = "" then "Attività sospetta" else String.ofList (ev.message.toList.take 100)
  ctx := ctxJson "event_id" ev.id ev.tenant
  dedupKey := some ("siem:" ++ PyText.str ev.id)
  tenant := some ev.tenant

/-! ## The database -/

/-- What the tick and `emit` write: the cursors, the outbox and the log. -/
structure Tables where
  incidentsCursor : ℕ
  eventsCursor : ℕ
  store : Store

/-- The connection of the tick, and that of an event. -/
inductive Connection where
  | tick
  | emit
  deriving DecidableEq

open SingleWriter LogCursor

abbrev Database : Type := Db Connection Tables

/-- A row that an event comes from. -/
inductive Origin where
  | incident (id : ℕ)
  | event (id : ℕ)
  deriving DecidableEq

namespace Ticks

section Database

variable (float : String → Option ℚ) (c : Config)

/-- `emit`, with a connection of its own. -/
def emitOn (e : Event) (now : ℤ) (db : Database) : Option Database :=
  if c.mailEnabled then
    db.transact .emit ((c.subscribers (e.notice float c)).map fun sub t =>
      { t with store := t.store.notify (e.notice float c) now sub })
  else some db

/-- The events of a batch, one after the other, until one fails: the database, the rows whose event
was emitted, and whether all were. -/
def emitAll (clock : Origin → ℤ) : List (Origin × Event) → Database → Database × List Origin × Bool
  | [], db => (db, [], true)
  | (o, e) :: batch, db =>
    match emitOn float c e (clock o) db with
    | none => (db, [], false)
    | some db' =>
      ((emitAll clock batch db').1, o :: (emitAll clock batch db').2.1,
        (emitAll clock batch db').2.2)

end Database

/-- The configuration, the tables, the rows whose events were emitted, and the mails that were
tried. -/
structure State where
  config : Config
  tables : Tables
  incidents : List Incident
  events : List EventRow
  emitted : List Origin
  tried : List Attempt

/-- The incidents of a tick: the first fifty behind the cursor. -/
def State.newIncidents (s : State) : List Incident :=
  batch Incident.id (fun _ => true) 50 s.tables.incidentsCursor s.incidents

/-- The security events of a tick. -/
def State.newEvents (s : State) : List EventRow :=
  batch EventRow.id EventRow.isSecurity 50 s.tables.eventsCursor s.events

/-- The incidents of a tick, with what is notified of them. -/
def State.incidentBatch (s : State) : List (Origin × Event) :=
  s.newIncidents.map fun i => (.incident i.id, i.event)

/-- The security events of a tick, with what is notified of them. -/
def State.eventBatch (s : State) : List (Origin × Event) :=
  s.newEvents.map fun ev => (.event ev.id, ev.event)

/-- How a tick ends: what is committed, which events were emitted, whether it came to deliver, and
the mails that were tried. -/
structure Outcome where
  tables : Tables
  emitted : List Origin
  delivered : Bool
  tried : List Attempt

section Tick

variable (float : String → Option ℚ) (now : ℤ) (clock : Origin → ℤ) (posts : Target → ℕ → Post)

/-- A tick that fails: its connection is closed. -/
def failed (db : Database) (emitted : List Origin) : Outcome :=
  ⟨(db.close .tick).committed, emitted, false, []⟩

def deliverOn (c : Config) (db : Database) (emitted : List Origin) : Outcome :=
  match db.write .tick fun t => { t with store := t.store.deliver c now posts } with
  | none => failed db emitted
  | some db' =>
    ⟨((db'.commit .tick).close .tick).committed, emitted, true,
      (db.read .tick).store.mails c now posts⟩

/-- The events of a tick, after the cursor of the incidents was moved. -/
def tickEvents (s : State) (db : Database) (emitted : List Origin) : Outcome :=
  let second := emitAll float s.config clock s.eventBatch db
  if second.2.2 then
    match second.1.write .tick fun t =>
        { t with eventsCursor := advance EventRow.id s.tables.eventsCursor s.newEvents } with
    | none => failed second.1 (emitted ++ second.2.1)
    | some db' => deliverOn now posts s.config (db'.commit .tick) (emitted ++ second.2.1)
  else failed second.1 (emitted ++ second.2.1)

/-- `_tick`, if mail is enabled. -/
def tick (s : State) : Outcome :=
  let first := emitAll float s.config clock s.incidentBatch (Db.idle s.tables)
  if first.2.2 then
    match first.1.write .tick fun t =>
        { t with
          incidentsCursor := advance Incident.id s.tables.incidentsCursor s.newIncidents } with
    | none => failed first.1 first.2.1
    | some db => tickEvents float now clock posts s db first.2.1
  else failed first.1 first.2.1

end Tick

/-! ## Actions -/

/-- A new incident or event, an event from elsewhere, a tick, or a change of the configuration. -/
inductive Action where
  | incident (i : Incident)
  | event (ev : EventRow)
  | emit (e : Event) (now : ℤ)
  | tick (now : ℤ) (clock : Origin → ℤ) (posts : Target → ℕ → Post)
  | configure (c : Config)

/-- The state after an action; the table numbers its new rows. -/
def step (float : String → Option ℚ) (s : State) : Action → State
  | .incident i =>
    { s with
      incidents := s.incidents ++ [{ i with id := RowIds.next (s.incidents.map Incident.id) }] }
  | .event ev =>
    { s with events := s.events ++ [{ ev with id := RowIds.next (s.events.map EventRow.id) }] }
  | .emit e now =>
    { s with tables := { s.tables with store := s.tables.store.emit float s.config e now } }
  | .tick now clock posts =>
    if s.config.mailEnabled then
      { s with
        tables := (tick float now clock posts s).tables
        emitted := s.emitted ++ (tick float now clock posts s).emitted
        tried := s.tried ++ (tick float now clock posts s).tried }
    else s
  | .configure c => { s with config := c }

/-! ## What an event does -/

section Emissions

variable {float : String → Option ℚ} {c : Config} {clock : Origin → ℤ} {t t' : Tables}

theorem foldl_notify (n : Notice) (now : ℤ) (subs : List Subscriber) (t : Tables) :
    (subs.map fun sub (t : Tables) => { t with store := t.store.notify n now sub }).foldl
        (fun t f => f t) t =
      { t with store := subs.foldl (fun s sub => s.notify n now sub) t.store } := by
  induction subs generalizing t with
  | nil => rfl
  | cons sub subs ih =>
    rw [List.map_cons, List.foldl_cons, List.foldl_cons, ih]

theorem emitOn_idle (e : Event) (now : ℤ) :
    emitOn float c e now (Db.idle t) =
      some (Db.idle { t with store := t.store.emit float c e now }) := by
  rw [emitOn, Store.emit]
  split
  · rw [transact_idle, foldl_notify]
  · rfl

/-- An event that somebody wants. -/
def Heard (float : String → Option ℚ) (c : Config) (e : Event) : Prop :=
  c.subscribers (e.notice float c) ≠ []

theorem emitOn_of_unheard {e : Event} (h : ¬ Heard float c e) (now : ℤ) :
    emitOn float c e now ⟨t, some (.tick, t')⟩ = some ⟨t, some (.tick, t')⟩ := by
  rw [emitOn, not_not.mp h]
  split
  · exact transact_nil rfl
  · rfl

theorem emitOn_of_heard (hmail : c.mailEnabled) {e : Event} (h : Heard float c e)
    (now : ℤ) : emitOn float c e now ⟨t, some (.tick, t')⟩ = none := by
  rw [emitOn, if_pos hmail]
  exact transact_of_locked rfl fun hnil => h (List.map_eq_nil_iff.mp hnil)

/-- The tables after the events of a batch. -/
def emits (float : String → Option ℚ) (c : Config) (clock : Origin → ℤ)
    (batch : List (Origin × Event)) (t : Tables) : Tables :=
  batch.foldl (fun t e => { t with store := t.store.emit float c e.2 (clock e.1) }) t

theorem emitAll_idle (batch : List (Origin × Event)) (t : Tables) :
    emitAll float c clock batch (Db.idle t) =
      (Db.idle (emits float c clock batch t), batch.map Prod.fst, true) := by
  induction batch generalizing t with
  | nil => rfl
  | cons e batch ih =>
    simp only [emitAll, emitOn_idle, ih]
    rfl

theorem emitAll_of_unheard {batch : List (Origin × Event)} (h : ∀ e ∈ batch, ¬ Heard float c e.2) :
    emitAll float c clock batch ⟨t, some (.tick, t')⟩ =
      (⟨t, some (.tick, t')⟩, batch.map Prod.fst, true) := by
  induction batch with
  | nil => rfl
  | cons e batch ih =>
    have hbatch := ih (List.forall_mem_cons.mp h).2
    simp only [emitAll, emitOn_of_unheard (h e List.mem_cons_self), hbatch]
    rfl

theorem emitAll_of_heard (hmail : c.mailEnabled) {batch : List (Origin × Event)}
    (h : ∃ e ∈ batch, Heard float c e.2) :
    (emitAll float c clock batch ⟨t, some (.tick, t')⟩).1 = ⟨t, some (.tick, t')⟩ ∧
      (emitAll float c clock batch ⟨t, some (.tick, t')⟩).2.2 = false := by
  induction batch with
  | nil =>
    obtain ⟨e, he, -⟩ := h
    cases he
  | cons e batch ih =>
    by_cases heard : Heard float c e.2
    · simp only [emitAll, emitOn_of_heard hmail heard, and_self]
    · have hrest : ∃ e' ∈ batch, Heard float c e'.2 := by
        obtain ⟨e', he', hheard⟩ := h
        rcases List.mem_cons.mp he' with rfl | he'
        · exact absurd hheard heard
        · exact ⟨e', he', hheard⟩
      simp only [emitAll, emitOn_of_unheard heard]
      exact ih hrest

end Emissions

/-! ## What a tick does -/

section Outcomes

variable {float : String → Option ℚ} {now : ℤ} {clock : Origin → ℤ} {posts : Target → ℕ → Post}
  {s : State}

theorem tick_eq :
    tick float now clock posts s =
      tickEvents float now clock posts s
        ⟨emits float s.config clock s.incidentBatch s.tables,
          some (.tick, { emits float s.config clock s.incidentBatch s.tables with
            incidentsCursor := advance Incident.id s.tables.incidentsCursor s.newIncidents })⟩
        (s.incidentBatch.map Prod.fst) := by
  simp only [tick, emitAll_idle, write_idle, if_true]

/-- The tables after a tick that is not hindered. -/
def moved (float : String → Option ℚ) (clock : Origin → ℤ) (s : State) : Tables :=
  { emits float s.config clock s.incidentBatch s.tables with
    incidentsCursor := advance Incident.id s.tables.incidentsCursor s.newIncidents
    eventsCursor := advance EventRow.id s.tables.eventsCursor s.newEvents }

/-- A tick whose security events nobody wants moves the cursors and delivers the outbox. -/
theorem tick_of_unheard (h : ∀ ev ∈ s.newEvents, ¬ Heard float s.config ev.event) :
    tick float now clock posts s =
      { tables := { moved float clock s with
          store := (moved float clock s).store.deliver s.config now posts }
        emitted := (s.incidentBatch ++ s.eventBatch).map Prod.fst
        delivered := true
        tried := (moved float clock s).store.mails s.config now posts } := by
  have hbatch : ∀ e ∈ s.eventBatch, ¬ Heard float s.config e.2 := by
    intro e he
    obtain ⟨ev, hev, rfl⟩ := List.mem_map.mp he
    exact h ev hev
  rw [tick_eq, tickEvents, emitAll_of_unheard hbatch]
  simp only [if_true, write_own, commit_own, deliverOn, write_idle, close_idle, read_idle,
    List.map_append]
  rfl

/-- A tick with a security event that somebody wants emits the incidents, and moves no cursor and
delivers nothing. -/
theorem tick_of_heard (hmail : s.config.mailEnabled)
    (h : ∃ ev ∈ s.newEvents, Heard float s.config ev.event) :
    (tick float now clock posts s).tables = emits float s.config clock s.incidentBatch s.tables ∧
      (tick float now clock posts s).delivered = false ∧
        (tick float now clock posts s).tried = [] := by
  have hbatch : ∃ e ∈ s.eventBatch, Heard float s.config e.2 := by
    obtain ⟨ev, hev, hheard⟩ := h
    exact ⟨_, List.mem_map_of_mem hev, hheard⟩
  rw [tick_eq, tickEvents]
  obtain ⟨hdb, hfail⟩ := @emitAll_of_heard float s.config clock
    (emits float s.config clock s.incidentBatch s.tables)
    { emits float s.config clock s.incidentBatch s.tables with
      incidentsCursor := advance Incident.id s.tables.incidentsCursor s.newIncidents }
    hmail s.eventBatch hbatch
  simp only [hfail, Bool.false_eq_true, if_false, failed, hdb, close_own]
  exact ⟨rfl, trivial, trivial⟩

end Outcomes

end Ticks

/-! ## Ticks as notices and deliveries -/

end SentinelNet.Notifications
