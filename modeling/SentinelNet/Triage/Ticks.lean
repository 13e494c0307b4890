import SentinelNet.Lib.Executions
import SentinelNet.Lib.KeyedRows
import SentinelNet.Lib.Recurring
import SentinelNet.Triage.Schedules

/-!
# Ticks of the triage scheduler

Every half minute `_scheduler_tick` attempts the schedules that are due, the longest due first.  An
attempt that finds a triage running is deferred, and with it all schedules behind it.  An attempt
that finds devices puts its schedule off by an interval and starts a triage, which writes its row of
the history when it is over.  An attempt that finds no device writes a row and leaves the schedule
due.

* `Scheduler`, `attempt`, `tickLoop`, `stepEvent`: the scheduler.
* `exists_attempt`: no schedule is deferred for ever.
* `punctual`: what the scheduler promises.
* `rows_close`: what attempts without devices and a short triage come to.
-/

namespace SentinelNet.Triage

open Inventory (Host)
open Users (Store)

/-! ## The scheduler -/

/-- A triage that was started, with what `_on_triage_complete` keeps of its schedule. -/
structure Started where
  scheduleId : ℕ
  tenant : String
  total : ℕ
  queued : ℕ
  ts : ℚ

/-- A row of `scheduled_triage_log`, with the triage that it is the result of. -/
structure LogRow where
  scheduleId : ℕ
  ts : ℚ
  tenant : String
  deviceCount : ℕ
  successCount : ℕ
  errorCount : ℕ
  status : String
  summary : String
  origin : Option Started

/-- The tables, the triages that have not written their row, and all that were started.  The
identifiers are a primary key, and every request that writes a schedule keeps the least interval. -/
structure Scheduler where
  table : Schedules
  log : List LogRow
  pending : List Started
  starts : List Started
  nodup : (table.rows.map Schedule.id).Nodup
  interval : ∀ s ∈ table.rows, minIntervalMinutes ≤ s.intervalMinutes

/-- `UPDATE scheduled_triage SET … WHERE id = ?`. -/
def Schedules.modify (t : Schedules) (id : ℕ) (f : Schedule → Schedule) : Schedules :=
  { t with rows := t.rows.map fun s => if s.id = id then f s else s }

/-- A row that is written keeps its identifier and its interval. -/
def Keeps (f : Schedule → Schedule) : Prop :=
  ∀ s, (f s).id = s.id ∧ (f s).intervalMinutes = s.intervalMinutes ∧ (f s).enabled = s.enabled

/-- The columns of a schedule that tell its last result. -/
def LogRow.told (row : LogRow) (s : Schedule) : Schedule :=
  { s with lastRunTs := some row.ts, lastStatus := row.status, lastSummary := some row.summary }

/-- The columns of a schedule whose triage runs. -/
def putOff (now next : ℚ) (s : Schedule) : Schedule :=
  { s with lastRunTs := some now, nextRunTs := next, lastStatus := "running" }

theorem keeps_told (row : LogRow) : Keeps row.told := fun _ => ⟨rfl, rfl, rfl⟩

theorem keeps_putOff (now next : ℚ) : Keeps (putOff now next) := fun _ => ⟨rfl, rfl, rfl⟩

theorem map_id_modify {f : Schedule → Schedule} (hf : Keeps f) (t : Schedules) (id : ℕ) :
    (t.modify id f).rows.map Schedule.id = t.rows.map Schedule.id := by
  unfold Schedules.modify
  rw [List.map_map]
  refine List.map_congr_left fun s _ => ?_
  rw [Function.comp_apply]
  split
  · exact (hf s).1
  · rfl

namespace Scheduler

/-- The columns of a schedule are written. -/
def write (st : Scheduler) (id : ℕ) (f : Schedule → Schedule) (hf : Keeps f) : Scheduler :=
  { st with
    table := st.table.modify id f
    nodup := by
      rw [map_id_modify hf]
      exact st.nodup
    interval := by
      intro s hs
      obtain ⟨r, hr, rfl⟩ := List.mem_map.mp hs
      split
      · rw [(hf r).2.1]
        exact st.interval r hr
      · exact st.interval r hr }

def logResult (st : Scheduler) (row : LogRow) : Scheduler :=
  { st.write row.scheduleId row.told (keeps_told row) with log := st.log ++ [row] }

/-- A schedule is put off, and its triage is started. -/
def start (st : Scheduler) (s : Schedule) (now : ℚ) (queued total : ℕ) : Scheduler :=
  let started : Started := ⟨s.id, s.tenant, total, queued, now⟩
  { st.write s.id (putOff now (now + (s.intervalMinutes * 60 : ℕ))) (keeps_putOff _ _) with
    pending := st.pending ++ [started]
    starts := st.starts ++ [started] }

def due (st : Scheduler) (now : ℚ) : List ℕ :=
  ((st.table.rows.filter fun s => s.enabled ∧ s.nextRunTs ≤ now).insertionSort
    fun a b => a.nextRunTs ≤ b.nextRunTs).map Schedule.id

end Scheduler

/-- What an attempt finds: the clock, the users, the inventory, and whether a triage is running. -/
structure View where
  clock : ℚ
  users : Store
  inventory : List Host
  env : Surroundings
  busy : Bool

/-- What an attempt comes to. -/
def View.answer (v : View) (st : Scheduler) (id : ℕ) : Execution :=
  executeScheduleJob v.users v.inventory v.env v.busy (st.table.get id)

def View.attempt (v : View) (st : Scheduler) (id : ℕ) : Scheduler :=
  match st.table.get id with
  | none => st
  | some s =>
    match v.answer st id with
    | .notFound => st
    | .deferred => st
    | .creatorDisabled =>
      st.logResult ⟨id, v.clock, s.tenant, 0, 0, 0, "failed",
        "Utente '" ++ s.createdBy ++ "' disabilitato.", none⟩
    | .noDevices =>
      st.logResult ⟨id, v.clock, s.tenant, 0, 0, 0, "success",
        "Nessun apparato trovato per il tenant configurato.", none⟩
    | .running _ _ _ queued total => st.start s v.clock queued total

def Execution.isDeferred : Execution → Bool
  | .deferred => true
  | _ => false

/-- An attempt starts a triage. -/
def Execution.isRunning : Execution → Bool
  | .running _ _ _ _ _ => true
  | _ => false

theorem not_isDeferred_of_isRunning {a : Execution} (h : a.isRunning) :
    a.isDeferred = false := by
  cases a with
  | running => rfl
  | _ => cases h

/-- The loop of `_scheduler_tick`, with what each attempt came to. -/
def tickLoop (view : ℕ → View) : ℕ → List ℕ → Scheduler → Scheduler × List (ℕ × Execution)
  | _, [], st => (st, [])
  | k, id :: ids, st =>
    let answer := (view k).answer st id
    if answer.isDeferred then (st, [(id, answer)])
    else
      let rest := tickLoop view (k + 1) ids ((view k).attempt st id)
      (rest.1, (id, answer) :: rest.2)

/-- A tick: the time at which it reads the schedules that are due, and what each attempt finds.  The
clock does not go back during the tick. -/
structure Tick where
  now : ℚ
  view : ℕ → View
  le_clock : ∀ k, now ≤ (view k).clock

def Tick.attempts (t : Tick) (st : Scheduler) : List (ℕ × Execution) :=
  (tickLoop t.view 0 (st.due t.now) st).2

/-- What happens: a tick, or a triage is over and writes its row; `errors` says which devices
failed. -/
inductive Event where
  | tick (t : Tick)
  | complete (i : ℕ) (now : ℚ) (errors : List Bool)

def summary (successes results queued errors : ℕ) : String :=
  PyText.str successes ++ "/" ++ PyText.str results ++ " apparati diretti ok" ++
    (if 0 < queued then ", " ++ PyText.str queued ++ " accodati per sedi remote" else "") ++
    (if 0 < errors then " (" ++ PyText.str errors ++ " errori)" else "")

/-- `_on_triage_complete`. -/
def Started.row (o : Started) (now : ℚ) (results : List Bool) : LogRow :=
  let errors := results.countP id
  let successes := results.countP not
  { scheduleId := o.scheduleId, ts := now, tenant := o.tenant, deviceCount := o.total
    successCount := successes + o.queued, errorCount := errors
    status :=
      if 0 < errors ∧ 0 < successes then "partial_failure"
      else if 0 < errors ∧ successes = 0 then "failed" else "success"
    summary := summary successes results.length o.queued errors
    origin := some o }

def stepEvent (st : Scheduler) : Event → Scheduler
  | .tick t => (tickLoop t.view 0 (st.due t.now) st).1
  | .complete i now results =>
    match st.pending[i]? with
    | none => st
    | some o => { st.logResult (o.row now results) with pending := st.pending.eraseIdx i }

def runEvents (st : Scheduler) (events : List Event) : Scheduler := events.foldl stepEvent st

/-! ## What an attempt writes -/

theorem get_modify {f : Schedule → Schedule} (hf : Keeps f) (t : Schedules) (id j : ℕ) :
    (t.modify id f).get j = (t.get j).map fun s => if s.id = id then f s else s := by
  unfold Schedules.modify Schedules.get
  rw [List.find?_map]
  have hpred : ((fun s : Schedule => decide (s.id = j)) ∘ fun s => if s.id = id then f s else s) =
      fun s => decide (s.id = j) := by
    funext s
    rw [Function.comp_apply]
    split
    · rw [(hf s).1]
    · rfl
  rw [hpred]

theorem id_of_get {t : Schedules} {id : ℕ} {s : Schedule} (h : t.get id = some s) : s.id = id := by
  have hid := List.find?_some h
  exact of_decide_eq_true hid

namespace Scheduler

variable {st : Scheduler} {id j : ℕ} {s : Schedule}

def next (st : Scheduler) (id : ℕ) : ℚ := ((st.table.get id).map Schedule.nextRunTs).getD 0

/-- The seconds between two runs of a schedule. -/
def period (st : Scheduler) (id : ℕ) : ℚ :=
  ((st.table.get id).map fun s => ((s.intervalMinutes * 60 : ℕ) : ℚ)).getD 0

theorem next_of_get (h : st.table.get id = some s) : st.next id = s.nextRunTs := by
  rw [next, h]
  rfl

theorem period_of_get (h : st.table.get id = some s) :
    st.period id = ((s.intervalMinutes * 60 : ℕ) : ℚ) := by
  rw [period, h]
  rfl

/-- The schedules, with what a run leaves alone: whether they are enabled, and their interval. -/
def plan (st : Scheduler) (id : ℕ) : Option (Bool × ℕ) :=
  (st.table.get id).map fun s => (s.enabled, s.intervalMinutes)

variable {f : Schedule → Schedule}

theorem get_write (hf : Keeps f) :
    (st.write id f hf).table.get j = (st.table.get j).map fun s => if s.id = id then f s else s :=
  get_modify hf st.table id j

theorem plan_write (hf : Keeps f) : (st.write id f hf).plan j = st.plan j := by
  unfold plan
  rw [get_write, Option.map_map]
  cases st.table.get j with
  | none => rfl
  | some s =>
    rw [Option.map_some, Option.map_some, Function.comp_apply]
    split
    · rw [(hf s).2.1, (hf s).2.2]
    · rfl

theorem next_write_of_ne (hf : Keeps f) (h : j ≠ id) : (st.write id f hf).next j = st.next j := by
  unfold next
  rw [get_write]
  cases hs : st.table.get j with
  | none => rfl
  | some s =>
    rw [Option.map_some, if_neg]
    rw [id_of_get hs]
    exact h

theorem next_logResult (row : LogRow) : (st.logResult row).next j = st.next j := by
  change (((st.write row.scheduleId row.told (keeps_told row)).table.get j).map
    Schedule.nextRunTs).getD 0 = st.next j
  rw [get_write, Option.map_map, next]
  cases st.table.get j with
  | none => rfl
  | some s =>
    rw [Option.map_some, Option.map_some, Function.comp_apply]
    split
    · rfl
    · rfl

theorem period_eq_of_plan {st st' : Scheduler} (h : st'.plan id = st.plan id) :
    st'.period id = st.period id := by
  have hperiod : ∀ st : Scheduler, st.period id =
      ((st.plan id).map fun p => ((p.2 * 60 : ℕ) : ℚ)).getD 0 := by
    intro st
    rw [period, plan, Option.map_map]
    rfl
  rw [hperiod, hperiod, h]

end Scheduler

section Attempt

variable {v : View} {st : Scheduler} {id j : ℕ}

theorem plan_attempt (v : View) (st : Scheduler) (id j : ℕ) :
    (v.attempt st id).plan j = st.plan j := by
  unfold View.attempt
  split
  · rfl
  · split
    · rfl
    · rfl
    · exact Scheduler.plan_write (keeps_told _)
    · exact Scheduler.plan_write (keeps_told _)
    · exact Scheduler.plan_write (keeps_putOff _ _)

theorem next_attempt_of_ne (h : j ≠ id) : (v.attempt st id).next j = st.next j := by
  unfold View.attempt
  split
  · rfl
  · next s hs =>
    split
    · rfl
    · rfl
    · exact Scheduler.next_write_of_ne (keeps_told _) h
    · exact Scheduler.next_write_of_ne (keeps_told _) h
    · refine Scheduler.next_write_of_ne (keeps_putOff _ _) ?_
      rw [id_of_get hs]
      exact h

theorem attempt_of_not_running (h : (v.answer st id).isRunning = false) :
    (v.attempt st id).next id = st.next id ∧ (v.attempt st id).starts = st.starts ∧
      (v.attempt st id).pending = st.pending ∧
        (v.attempt st id).log.filterMap LogRow.origin = st.log.filterMap LogRow.origin := by
  have hlog : ∀ row : LogRow, row.origin = none →
      (st.logResult row).log.filterMap LogRow.origin = st.log.filterMap LogRow.origin := by
    intro row hrow
    unfold Scheduler.logResult
    rw [List.filterMap_append, List.filterMap_cons, hrow, List.filterMap_nil, List.append_nil]
  unfold View.attempt
  split
  · exact ⟨rfl, rfl, rfl, rfl⟩
  · next s hs =>
    split
    · exact ⟨rfl, rfl, rfl, rfl⟩
    · exact ⟨rfl, rfl, rfl, rfl⟩
    · exact ⟨Scheduler.next_logResult _, rfl, rfl, hlog _ rfl⟩
    · exact ⟨Scheduler.next_logResult _, rfl, rfl, hlog _ rfl⟩
    · next heq =>
      rw [heq] at h
      cases h

theorem attempt_of_running (h : (v.answer st id).isRunning) : ∃ o : Started,
    o.scheduleId = id ∧ o.ts = v.clock ∧ (v.attempt st id).starts = st.starts ++ [o] ∧
      (v.attempt st id).pending = st.pending ++ [o] ∧ (v.attempt st id).log = st.log ∧
        (v.attempt st id).next id = v.clock + st.period id := by
  cases hs : st.table.get id with
  | none =>
    unfold View.answer at h
    rw [hs] at h
    cases h
  | some s =>
    have hid := id_of_get hs
    cases hanswer : v.answer st id with
    | running direct queued jobs queuedCount total =>
      have hattempt : v.attempt st id = st.start s v.clock queuedCount total := by
        unfold View.attempt
        rw [hs]
        dsimp only
        rw [hanswer]
      rw [hattempt]
      refine ⟨⟨s.id, s.tenant, total, queuedCount, v.clock⟩, hid, rfl, rfl, rfl, rfl, ?_⟩
      have hget : (st.start s v.clock queuedCount total).table.get id =
          (st.table.get id).map fun r => if r.id = s.id then
            putOff v.clock (v.clock + (s.intervalMinutes * 60 : ℕ)) r else r :=
        Scheduler.get_write (keeps_putOff _ _)
      rw [hs, Option.map_some, if_pos rfl] at hget
      rw [Scheduler.period_of_get hs, Scheduler.next_of_get hget]
      rfl
    | _ =>
      rw [hanswer] at h
      cases h

theorem Scheduler.period_nonneg (st : Scheduler) (id : ℕ) : 0 ≤ st.period id := by
  unfold Scheduler.period
  cases st.table.get id with
  | none => exact le_rfl
  | some s => exact Nat.cast_nonneg _

theorem next_le_next_attempt (h : st.next id ≤ v.clock) (j : ℕ) :
    st.next j ≤ (v.attempt st id).next j := by
  rcases eq_or_ne j id with rfl | hne
  · cases hrun : (v.answer st j).isRunning with
    | false => exact (attempt_of_not_running hrun).1.ge
    | true =>
      obtain ⟨o, -, -, -, -, -, hnext⟩ := attempt_of_running hrun
      rw [hnext]
      linarith [st.period_nonneg j]
  · exact (next_attempt_of_ne hne).ge

end Attempt

/-! ## What a tick does -/

section Loop

variable {view : ℕ → View} {now : ℚ}

theorem tickLoop_induction {P : Scheduler → Prop} (hclock : ∀ k, now ≤ (view k).clock)
    (hstep : ∀ k st id, P st → st.next id ≤ (view k).clock → P ((view k).attempt st id)) :
    ∀ {ids : List ℕ} {k : ℕ} {st : Scheduler}, ids.Nodup → (∀ id ∈ ids, st.next id ≤ now) → P st →
      P (tickLoop view k ids st).1 := by
  intro ids
  induction ids with
  | nil => exact fun _ _ h => h
  | cons id ids ih =>
    intro k st hnodup hdue h
    obtain ⟨hid, hnodup⟩ := List.nodup_cons.mp hnodup
    rw [tickLoop]
    split
    · exact h
    · refine ih hnodup (fun i hi => ?_) ?_
      · rw [next_attempt_of_ne (ne_of_mem_of_not_mem hi hid)]
        exact hdue i (List.mem_cons_of_mem _ hi)
      · exact hstep k st id h ((hdue id List.mem_cons_self).trans (hclock k))

theorem next_le_next_tickLoop (hclock : ∀ k, now ≤ (view k).clock) {ids : List ℕ} {k : ℕ}
    {st : Scheduler} (hnodup : ids.Nodup) (hdue : ∀ id ∈ ids, st.next id ≤ now) (j : ℕ) :
    st.next j ≤ (tickLoop view k ids st).1.next j :=
  tickLoop_induction (P := fun st' => st.next j ≤ st'.next j) hclock
    (fun _ _ _ h hnext => h.trans (next_le_next_attempt hnext j)) hnodup hdue le_rfl

theorem plan_tickLoop (view : ℕ → View) (k : ℕ) (ids : List ℕ) (st : Scheduler) (j : ℕ) :
    (tickLoop view k ids st).1.plan j = st.plan j := by
  induction ids generalizing k st with
  | nil => rfl
  | cons id ids ih =>
    rw [tickLoop]
    split
    · rfl
    · exact (ih (k + 1) _).trans (plan_attempt (view k) st id j)

theorem next_tickLoop_of_not_running {j : ℕ} : ∀ {ids : List ℕ} {k : ℕ} {st : Scheduler},
    (∀ a, (j, a) ∈ (tickLoop view k ids st).2 → a.isRunning = false) →
      (tickLoop view k ids st).1.next j = st.next j := by
  intro ids
  induction ids with
  | nil => exact fun _ => rfl
  | cons id ids ih =>
    intro k st h
    rw [tickLoop] at h ⊢
    split at h
    · next hdeferred => rw [if_pos hdeferred]
    · next hdeferred =>
      rw [if_neg hdeferred]
      refine (ih fun a ha => h a (List.mem_cons_of_mem _ ha)).trans ?_
      rcases eq_or_ne j id with rfl | hne
      · exact (attempt_of_not_running (h _ List.mem_cons_self)).1
      · exact next_attempt_of_ne hne

theorem lt_next_tickLoop (hclock : ∀ k, now ≤ (view k).clock) {j : ℕ} {a : Execution}
    (hrun : a.isRunning) : ∀ {ids : List ℕ} {k : ℕ} {st : Scheduler}, ids.Nodup →
      (∀ id ∈ ids, st.next id ≤ now) → 0 < st.period j → (j, a) ∈ (tickLoop view k ids st).2 →
        now < (tickLoop view k ids st).1.next j := by
  intro ids
  induction ids with
  | nil => exact fun _ _ _ h => nomatch h
  | cons id ids ih =>
    intro k st hnodup hdue hpos h
    obtain ⟨hid, hids⟩ := List.nodup_cons.mp hnodup
    have hrest : ∀ i ∈ ids, ((view k).attempt st id).next i ≤ now := by
      intro i hi
      rw [next_attempt_of_ne (ne_of_mem_of_not_mem hi hid)]
      exact hdue i (List.mem_cons_of_mem _ hi)
    rw [tickLoop] at h ⊢
    split at h
    · next hdeferred =>
      obtain ⟨-, rfl⟩ := Prod.mk.inj (List.mem_singleton.mp h)
      exact absurd hdeferred (by rw [not_isDeferred_of_isRunning hrun]; decide)
    · next hdeferred =>
      rw [if_neg hdeferred]
      rcases List.mem_cons.mp h with heq | hmem
      · obtain ⟨rfl, rfl⟩ := Prod.mk.inj heq
        obtain ⟨o, -, -, -, -, -, hnext⟩ := attempt_of_running hrun
        have hmono : ((view k).attempt st j).next j ≤
            (tickLoop view (k + 1) ids ((view k).attempt st j)).1.next j :=
          next_le_next_tickLoop hclock hids hrest j
        have hlt := hclock k
        dsimp only
        rw [hnext] at hmono
        linarith
      · refine ih hids hrest ?_ hmem
        rwa [Scheduler.period_eq_of_plan (plan_attempt (view k) st id j)]

theorem before_of_running {R : ℕ → ℕ → Prop} {j i : ℕ} {a : Execution}
    (hrun : a.isRunning) : ∀ {ids : List ℕ} {k : ℕ} {st : Scheduler}, ids.Pairwise R →
      i ∈ ids → (∀ b, (i, b) ∈ (tickLoop view k ids st).2 → b.isDeferred = true) →
        (j, a) ∈ (tickLoop view k ids st).2 → j ∈ ids ∧ R j i := by
  intro ids
  induction ids with
  | nil => exact fun _ _ _ h => nomatch h
  | cons id ids ih =>
    intro k st hsorted hi hmissed h
    obtain ⟨hfirst, hsorted⟩ := List.pairwise_cons.mp hsorted
    rw [tickLoop] at h hmissed
    split at h
    · next hdeferred =>
      obtain ⟨-, rfl⟩ := Prod.mk.inj (List.mem_singleton.mp h)
      exact absurd hdeferred (by rw [not_isDeferred_of_isRunning hrun]; decide)
    · next hdeferred =>
      rw [if_neg hdeferred] at hmissed
      have hne : i ≠ id := by
        rintro rfl
        exact hdeferred (hmissed _ List.mem_cons_self)
      have hrest := (List.mem_cons.mp hi).resolve_left hne
      rcases List.mem_cons.mp h with heq | hmem
      · obtain ⟨rfl, -⟩ := Prod.mk.inj heq
        exact ⟨List.mem_cons_self .., hfirst i hrest⟩
      · obtain ⟨hj, hR⟩ := ih hsorted hrest (fun b hb => hmissed b (List.mem_cons_of_mem _ hb)) hmem
        exact ⟨List.mem_cons_of_mem _ hj, hR⟩

theorem exists_isDeferred {i : ℕ} : ∀ {ids : List ℕ} {k : ℕ} {st : Scheduler}, i ∈ ids →
    (∀ b, (i, b) ∈ (tickLoop view k ids st).2 → b.isDeferred = true) →
      ∃ e ∈ (tickLoop view k ids st).2, e.2.isDeferred = true := by
  intro ids
  induction ids with
  | nil => exact fun h => nomatch h
  | cons id ids ih =>
    intro k st hi hmissed
    rw [tickLoop] at hmissed ⊢
    split
    · next hdeferred => exact ⟨_, List.mem_cons_self .., hdeferred⟩
    · next hdeferred =>
      rw [if_neg hdeferred] at hmissed
      have hne : i ≠ id := by
        rintro rfl
        exact hdeferred (hmissed _ List.mem_cons_self)
      obtain ⟨e, he, hdef⟩ := ih ((List.mem_cons.mp hi).resolve_left hne)
        fun b hb => hmissed b (List.mem_cons_of_mem _ hb)
      exact ⟨e, List.mem_cons_of_mem _ he, hdef⟩

end Loop

/-! ## The schedules that are due -/

section Due

variable {st : Scheduler} {now : ℚ} {id : ℕ}

/-- The order of the loop. -/
def LongerDue (st : Scheduler) (i j : ℕ) : Prop := st.next i ≤ st.next j

theorem get_of_mem {s : Schedule} (h : s ∈ st.table.rows) : st.table.get s.id = some s := by
  have hfound := KeyedRows.find?_key_of_mem st.nodup h
  exact hfound

theorem mem_due : id ∈ st.due now ↔
    ∃ s, st.table.get id = some s ∧ s.enabled = true ∧ s.nextRunTs ≤ now := by
  unfold Scheduler.due
  rw [List.mem_map]
  constructor
  · rintro ⟨s, hs, rfl⟩
    rw [(List.perm_insertionSort _ _).mem_iff, List.mem_filter, decide_eq_true_eq] at hs
    exact ⟨s, get_of_mem hs.1, hs.2⟩
  · rintro ⟨s, hget, hs⟩
    refine ⟨s, ?_, id_of_get hget⟩
    rw [(List.perm_insertionSort _ _).mem_iff, List.mem_filter, decide_eq_true_eq]
    exact ⟨List.mem_of_find?_eq_some hget, hs⟩

theorem nodup_due (st : Scheduler) (now : ℚ) : (st.due now).Nodup := by
  unfold Scheduler.due
  refine ((List.perm_insertionSort _ _).map Schedule.id).nodup_iff.mpr ?_
  exact st.nodup.sublist (List.filter_sublist.map Schedule.id)

theorem pairwise_due (st : Scheduler) (now : ℚ) : (st.due now).Pairwise (LongerDue st) := by
  unfold Scheduler.due
  rw [List.pairwise_map]
  refine List.Pairwise.imp_of_mem ?_ (List.pairwise_insertionSort _ _)
  intro a b ha hb hle
  rw [(List.perm_insertionSort _ _).mem_iff, List.mem_filter] at ha hb
  unfold LongerDue
  rwa [Scheduler.next_of_get (get_of_mem ha.1), Scheduler.next_of_get (get_of_mem hb.1)]

theorem next_le_of_mem_due (h : id ∈ st.due now) : st.next id ≤ now := by
  obtain ⟨s, hget, -, hle⟩ := mem_due.mp h
  rwa [Scheduler.next_of_get hget]

theorem period_pos (h : id ∈ st.due now) : 0 < st.period id := by
  obtain ⟨s, hget, -⟩ := mem_due.mp h
  rw [Scheduler.period_of_get hget]
  have hmin := st.interval s (List.mem_of_find?_eq_some hget)
  unfold minIntervalMinutes at hmin
  exact Nat.cast_pos.mpr (by omega)

end Due

/-! ## How often triages start -/

def Scheduler.startsOf (st : Scheduler) (id : ℕ) : List ℚ :=
  (st.starts.filter fun o => o.scheduleId = id).map Started.ts

/-- The triages of a schedule start its interval apart, and so does the next run; each triage has
its row of the history or still has to write it. -/
structure Spaced (st : Scheduler) : Prop where
  apart : ∀ id, (st.startsOf id).Pairwise fun a b => a + st.period id ≤ b
  next : ∀ id, ∀ a ∈ st.startsOf id, a + st.period id ≤ st.next id
  rows : (st.log.filterMap LogRow.origin ++ st.pending).Perm st.starts
  own : ∀ r ∈ st.log, ∀ o ∈ r.origin, r.scheduleId = o.scheduleId

section Spacing

variable {st : Scheduler} {v : View} {id : ℕ}

theorem log_attempt (v : View) (st : Scheduler) (id : ℕ) : (v.attempt st id).log = st.log ∨
    ∃ row : LogRow, row.origin = none ∧ (v.attempt st id).log = st.log ++ [row] := by
  unfold View.attempt
  split
  · exact .inl rfl
  · split
    · exact .inl rfl
    · exact .inl rfl
    · exact .inr ⟨_, rfl, rfl⟩
    · exact .inr ⟨_, rfl, rfl⟩
    · exact .inl rfl

/-- An attempt of a schedule that is due keeps the triages apart. -/
theorem Spaced.attempt (h : Spaced st) (hdue : st.next id ≤ v.clock) :
    Spaced (v.attempt st id) := by
  have hperiod : ∀ j, (v.attempt st id).period j = st.period j := fun j =>
    Scheduler.period_eq_of_plan (plan_attempt v st id j)
  have hown : ∀ r ∈ (v.attempt st id).log, ∀ o ∈ r.origin, r.scheduleId = o.scheduleId := by
    rcases log_attempt v st id with hlog | ⟨row, hrow, hlog⟩
    · rw [hlog]
      exact h.own
    · rw [hlog]
      intro r hr o ho
      rcases List.mem_append.mp hr with hr | hr
      · exact h.own r hr o ho
      · rw [List.mem_singleton.mp hr, hrow] at ho
        cases ho
  cases hrun : (v.answer st id).isRunning with
  | false =>
    obtain ⟨hnext, hstarts, hpending, hlog⟩ := attempt_of_not_running hrun
    have hof : ∀ j, (v.attempt st id).startsOf j = st.startsOf j := by
      intro j
      unfold Scheduler.startsOf
      rw [hstarts]
    refine ⟨fun j => ?_, fun j a ha => ?_, ?_, hown⟩
    · rw [hof, hperiod]
      exact h.apart j
    · rw [hof] at ha
      rw [hperiod]
      exact (h.next j a ha).trans (next_le_next_attempt hdue j)
    · rw [hlog, hpending, hstarts]
      exact h.rows
  | true =>
    obtain ⟨o, hid, hts, hstarts, hpending, hlog, hnext⟩ := attempt_of_running hrun
    have hof : ∀ j, (v.attempt st id).startsOf j =
        st.startsOf j ++ if id = j then [v.clock] else [] := by
      intro j
      unfold Scheduler.startsOf
      rw [hstarts, List.filter_append, List.map_append, List.filter_singleton, hid]
      by_cases hj : id = j
      · rw [if_pos hj, decide_eq_true hj, cond_true, List.map_singleton, hts]
      · rw [if_neg hj, decide_eq_false hj, cond_false, List.map_nil]
    refine ⟨fun j => ?_, fun j a ha => ?_, ?_, hown⟩
    · rw [hof, hperiod, List.pairwise_append]
      refine ⟨h.apart j, ?_, fun a ha b hb => ?_⟩
      · split
        · exact List.pairwise_singleton _ _
        · exact .nil
      · split at hb
        · next heq =>
          rw [List.mem_singleton.mp hb]
          exact (h.next j a ha).trans (heq ▸ hdue)
        · cases hb
    · rw [hof] at ha
      rw [hperiod]
      rcases List.mem_append.mp ha with ha | ha
      · exact (h.next j a ha).trans (next_le_next_attempt hdue j)
      · split at ha
        · next heq =>
          rw [List.mem_singleton.mp ha, ← heq, hnext]
        · cases ha
    · rw [hlog, hpending, hstarts, ← List.append_assoc]
      exact h.rows.append_right [o]

theorem Spaced.step (h : Spaced st) (e : Event) : Spaced (stepEvent st e) := by
  cases e with
  | tick t =>
    exact tickLoop_induction t.le_clock (fun _ _ _ hst hdue => hst.attempt hdue)
      (nodup_due st t.now) (fun _ hid => next_le_of_mem_due hid) h
  | complete i now results =>
    unfold stepEvent
    dsimp only
    split
    · exact h
    · next o ho =>
      obtain ⟨hi, rfl⟩ := List.getElem?_eq_some_iff.mp ho
      have hnext : ∀ j, (st.logResult (st.pending[i].row now results)).next j = st.next j :=
        fun j => Scheduler.next_logResult _
      have hperiod : ∀ j, (st.logResult (st.pending[i].row now results)).period j = st.period j :=
        fun j => Scheduler.period_eq_of_plan (Scheduler.plan_write (keeps_told _))
      refine ⟨fun j => ?_, fun j a ha => ?_, ?_, ?_⟩
      · exact (hperiod j).symm ▸ h.apart j
      · exact (h.next j a ha).trans' (add_le_add_right (hperiod j).le a) |>.trans (hnext j).ge
      · change ((st.log ++ [st.pending[i].row now results]).filterMap LogRow.origin ++
          st.pending.eraseIdx i).Perm st.starts
        rw [List.filterMap_append, List.append_assoc]
        exact ((List.getElem_cons_eraseIdx_perm hi).append_left _).trans h.rows
      · intro r hr p hp
        rcases List.mem_append.mp hr with hr | hr
        · exact h.own r hr p hp
        · rw [List.mem_singleton.mp hr] at hp ⊢
          rw [← Option.some.inj hp]
          rfl

theorem Spaced.run (h : Spaced st) (events : List Event) : Spaced (runEvents st events) := by
  induction events generalizing st with
  | nil => exact h
  | cons e events ih => exact ih (h.step e)

theorem plan_step (st : Scheduler) (e : Event) (id : ℕ) :
    (stepEvent st e).plan id = st.plan id := by
  cases e with
  | tick t => exact plan_tickLoop t.view 0 _ st id
  | complete i now results =>
    unfold stepEvent
    dsimp only
    split
    · rfl
    · exact Scheduler.plan_write (keeps_told _)

theorem plan_run (st : Scheduler) (events : List Event) (id : ℕ) :
    (runEvents st events).plan id = st.plan id := by
  induction events generalizing st with
  | nil => rfl
  | cons e events ih => exact (ih (stepEvent st e)).trans (plan_step st e id)

/-! ### Counting -/

def Scheduler.startsIn (st : Scheduler) (id : ℕ) (x length : ℚ) : ℕ :=
  st.starts.countP fun o => o.scheduleId = id ∧ x ≤ o.ts ∧ o.ts ≤ x + length

def Scheduler.rowsOfStartsIn (st : Scheduler) (id : ℕ) (x length : ℚ) : ℕ :=
  st.log.countP fun r => r.scheduleId = id ∧
    r.origin.any fun o => x ≤ o.ts ∧ o.ts ≤ x + length

/-- The rows of a schedule that triages write in a period. -/
def Scheduler.rowsIn (st : Scheduler) (id : ℕ) (x length : ℚ) : ℕ :=
  st.log.countP fun r => r.scheduleId = id ∧ r.origin.isSome ∧ x ≤ r.ts ∧ r.ts ≤ x + length

theorem Spaced.startsIn_le (h : Spaced st) (id : ℕ) {x length : ℚ} (hlength : 0 ≤ length) :
    (st.startsIn id x length : ℚ) * st.period id ≤ length + st.period id := by
  have hcount : st.startsIn id x length =
      ((st.startsOf id).filter fun a => x ≤ a ∧ a ≤ x + length).length := by
    unfold Scheduler.startsIn Scheduler.startsOf
    rw [List.filter_map, List.length_map, List.filter_filter, List.countP_eq_length_filter]
    refine congrArg List.length (List.filter_congr fun o _ => ?_)
    rw [Function.comp_apply, Bool.decide_and, Bool.and_comm]
  have hin := Recurring.length_mul_le_of_spaced (y := x + length)
    ((h.apart id).filter fun a => x ≤ a ∧ a ≤ x + length)
    (fun a ha => of_decide_eq_true (List.mem_filter.mp ha).2)
    (by linarith [st.period_nonneg id])
  rw [hcount]
  linarith

theorem Spaced.rowsOfStartsIn_le (h : Spaced st) (id : ℕ) (x length : ℚ) :
    st.rowsOfStartsIn id x length ≤ st.startsIn id x length := by
  unfold Scheduler.rowsOfStartsIn Scheduler.startsIn
  rw [← h.rows.countP_eq, List.countP_append, List.countP_filterMap]
  refine (List.countP_mono_left fun r hr hin => ?_).trans (Nat.le_add_right _ _)
  rw [decide_eq_true_eq] at hin
  cases ho : r.origin with
  | none =>
    rw [ho] at hin
    exact nomatch hin.2
  | some o =>
    rw [ho, Option.any_some, decide_eq_true_eq] at hin
    rw [Option.map_some, Option.getD_some, decide_eq_true_eq, ← h.own r hr o ho]
    exact hin

theorem Scheduler.rowsIn_le {st : Scheduler} {d : ℚ}
    (hd : ∀ r ∈ st.log, ∀ o ∈ r.origin, o.ts ≤ r.ts ∧ r.ts ≤ o.ts + d) (id : ℕ) (x length : ℚ) :
    st.rowsIn id x length ≤ st.rowsOfStartsIn id (x - d) (length + d) := by
  unfold Scheduler.rowsIn Scheduler.rowsOfStartsIn
  refine List.countP_mono_left fun r hr hin => ?_
  rw [decide_eq_true_eq] at hin ⊢
  obtain ⟨hid, hsome, hlo, hhi⟩ := hin
  obtain ⟨o, ho⟩ := Option.isSome_iff_exists.mp hsome
  obtain ⟨hstart, hlate⟩ := hd r hr o ho
  rw [ho, Option.any_some, decide_eq_true_eq]
  exact ⟨hid, by linarith, by linarith⟩

end Spacing

/-! ## No schedule waits for ever -/

section Service

variable {st : Scheduler} {id : ℕ}

/-- A tick defers a schedule only after it has started a triage itself: none was running. -/
def Tick.Free (t : Tick) (st : Scheduler) : Prop :=
  (∃ e ∈ t.attempts st, e.2.isDeferred = true) → ∃ e ∈ t.attempts st, e.2.isRunning = true

theorem next_le_next_step (st : Scheduler) (e : Event) (j : ℕ) :
    st.next j ≤ (stepEvent st e).next j := by
  cases e with
  | tick t =>
    exact next_le_next_tickLoop t.le_clock (nodup_due st t.now)
      (fun _ hid => next_le_of_mem_due hid) j
  | complete i now results =>
    unfold stepEvent
    dsimp only
    split
    · exact le_rfl
    · exact (Scheduler.next_logResult _).ge

theorem mem_due_iff {now : ℚ} :
    id ∈ st.due now ↔ (∃ m, st.plan id = some (true, m)) ∧ st.next id ≤ now := by
  rw [mem_due]
  constructor
  · rintro ⟨s, hget, hon, hle⟩
    refine ⟨⟨s.intervalMinutes, ?_⟩, ?_⟩
    · rw [Scheduler.plan, hget, Option.map_some, hon]
    · rwa [Scheduler.next_of_get hget]
  · rintro ⟨⟨m, hplan⟩, hle⟩
    obtain ⟨s, hget, hs⟩ := Option.map_eq_some_iff.mp hplan
    rw [Scheduler.next_of_get hget] at hle
    exact ⟨s, hget, (Prod.mk.inj hs).1, hle⟩

theorem mem_ids_iff : id ∈ st.table.rows.map Schedule.id ↔ (st.plan id).isSome = true := by
  unfold Scheduler.plan Schedules.get
  rw [Option.isSome_map, List.find?_isSome, List.mem_map]
  simp only [decide_eq_true_eq]

variable (x : Executions.Execution stepEvent)

/-- A schedule that is due is attempted and not deferred, where again and again a tick comes while
no triage is running. -/
theorem exists_attempt
    (hclock : ∀ n m t t', n ≤ m → x.act n = .tick t → x.act m = .tick t' → t.now ≤ t'.now)
    (hfree : ∀ n, ∃ m, n ≤ m ∧ ∃ t, x.act m = .tick t ∧ t.Free (x.state m))
    {n : ℕ} {t : Tick} (hact : x.act n = .tick t) (hdue : id ∈ (x.state n).due t.now) :
    ∃ m, n ≤ m ∧ ∃ t', x.act m = .tick t' ∧
      ∃ a, (id, a) ∈ t'.attempts (x.state m) ∧ a.isDeferred = false := by
  by_contra hnever
  have hmissed : ∀ m, n ≤ m → ∀ t', x.act m = .tick t' →
      ∀ a, (id, a) ∈ t'.attempts (x.state m) → a.isDeferred = true := by
    intro m hm t' ht' a ha
    by_contra hdef
    exact hnever ⟨m, hm, t', ht', a, ha, Bool.not_eq_true _ ▸ hdef⟩
  have hplan : ∀ m, n ≤ m → ∀ j, (x.state m).plan j = (x.state n).plan j := fun m hm =>
    x.invariant (I := fun s => ∀ j, s.plan j = (x.state n).plan j)
      (fun k _ hk j => (plan_step (x.state k) (x.act k) j).trans (hk j)) (fun _ => rfl) hm
  have hnext : ∀ m, n ≤ m → (x.state m).next id = (x.state n).next id := by
    refine fun m hm => x.invariant (I := fun s => s.next id = (x.state n).next id)
      (fun k hk h => Eq.trans ?_ h) rfl hm
    cases hk' : x.act k with
    | tick t' =>
      refine next_tickLoop_of_not_running fun a ha => ?_
      have hdef := hmissed k hk t' hk' a ha
      cases hrun : a.isRunning with
      | false => rfl
      | true =>
        rw [not_isDeferred_of_isRunning hrun] at hdef
        cases hdef
    | complete i now results =>
      unfold stepEvent
      dsimp only
      split
      · rfl
      · exact Scheduler.next_logResult _
  obtain ⟨hon, hle⟩ := mem_due_iff.mp hdue
  have hdue' : ∀ m, n ≤ m → ∀ t', x.act m = .tick t' → id ∈ (x.state m).due t'.now := by
    intro m hm t' ht'
    rw [mem_due_iff, hplan m hm, hnext m hm]
    exact ⟨hon, hle.trans (hclock n m t t' hm hact ht')⟩
  -- The schedules that stand before this one: none is added, and each triage takes one away.
  refine @Executions.false_of_rank
    (fun m => (((x.state n).table.rows.map Schedule.id).toFinset.filter fun j =>
      j ≠ id ∧ (x.state m).next j ≤ (x.state n).next id).card)
    (fun m => ∃ t', x.act m = .tick t' ∧ t'.Free (x.state m)) n
    (fun m _ => hfree m) (fun m hm => ?_) (fun m hm hgood => ?_)
  · refine Finset.card_le_card fun j hj => ?_
    rw [Finset.mem_filter] at hj ⊢
    rw [x.next] at hj
    exact ⟨hj.1, hj.2.1, (next_le_next_step _ _ j).trans hj.2.2⟩
  · obtain ⟨t', ht', hfree'⟩ := hgood
    have hin := hdue' m hm t' ht'
    obtain ⟨⟨j, a⟩, ha, hrun⟩ := hfree' (exists_isDeferred hin (hmissed m hm t' ht'))
    obtain ⟨hj, hbefore⟩ := before_of_running hrun (pairwise_due (x.state m) t'.now) hin
      (hmissed m hm t' ht') ha
    have hne : j ≠ id := by
      rintro rfl
      have hdef := hmissed m hm t' ht' a ha
      rw [not_isDeferred_of_isRunning hrun] at hdef
      cases hdef
    have hlate : t'.now < (x.state (m + 1)).next j := by
      rw [x.next, ht']
      exact lt_next_tickLoop t'.le_clock hrun (nodup_due _ _)
        (fun _ hid => next_le_of_mem_due hid) (period_pos hj) ha
    have hthis := next_le_of_mem_due hin
    rw [hnext m hm] at hthis
    refine Finset.card_lt_card ((Finset.ssubset_iff_of_subset fun i hi => ?_).mpr ⟨j, ?_, ?_⟩)
    · rw [Finset.mem_filter] at hi ⊢
      rw [x.next] at hi
      exact ⟨hi.1, hi.2.1, (next_le_next_step _ _ i).trans hi.2.2⟩
    · rw [Finset.mem_filter, List.mem_toFinset, mem_ids_iff, ← hplan m hm, ← mem_ids_iff]
      refine ⟨?_, hne, hbefore.trans (hnext m hm).le⟩
      obtain ⟨s, hget, -⟩ := mem_due.mp hj
      exact List.mem_map.mpr ⟨s, List.mem_of_find?_eq_some hget, id_of_get hget⟩
    · rw [Finset.mem_filter]
      exact fun hi => absurd (hi.2.2.trans hthis) (not_le.mpr hlate)

end Service

/-! ## What the scheduler promises -/

/-- The schedules without a history. -/
def Scheduler.fresh (st : Scheduler) : Scheduler :=
  { st with log := [], pending := [], starts := [] }

theorem spaced_fresh (st : Scheduler) : Spaced st.fresh where
  apart _ := .nil
  next _ _ h := nomatch h
  rows := .refl _
  own _ h := nomatch h

/-- An attempt that starts a triage puts its schedule off by the interval, so that few triages start
in a period; each of them writes one row at most, when it is over; and no schedule waits for
ever. -/
structure Punctual (st : Scheduler) : Prop where
  putOff : ∀ (v : View) (id : ℕ), (v.answer st id).isRunning = true →
    (v.attempt st id).next id = v.clock + st.period id
  starts : ∀ events, ∀ s ∈ st.table.rows, ∀ x length : ℚ, 0 ≤ length →
    ((runEvents st.fresh events).startsIn s.id x length : ℚ) ≤
      length / (s.intervalMinutes * 60 : ℕ) + 1
  rows : ∀ events, ∀ s ∈ st.table.rows, ∀ x length : ℚ,
    (runEvents st.fresh events).rowsOfStartsIn s.id x length ≤
      (runEvents st.fresh events).startsIn s.id x length
  late : ∀ events, ∀ s ∈ st.table.rows, ∀ x length d : ℚ, 0 ≤ length + d →
    (∀ r ∈ (runEvents st.fresh events).log, ∀ o ∈ r.origin, o.ts ≤ r.ts ∧ r.ts ≤ o.ts + d) →
      ((runEvents st.fresh events).rowsIn s.id x length : ℚ) ≤
        (length + d) / (s.intervalMinutes * 60 : ℕ) + 1
  served : ∀ x : Executions.Execution stepEvent,
    (∀ n m t t', n ≤ m → x.act n = .tick t → x.act m = .tick t' → t.now ≤ t'.now) →
      (∀ n, ∃ m, n ≤ m ∧ ∃ t, x.act m = .tick t ∧ t.Free (x.state m)) →
        ∀ n t id, x.act n = .tick t → id ∈ (x.state n).due t.now →
          ∃ m, n ≤ m ∧ ∃ t', x.act m = .tick t' ∧
            ∃ a, (id, a) ∈ t'.attempts (x.state m) ∧ a.isDeferred = false

/-- Every table of schedules is run so. -/
theorem punctual (st : Scheduler) : Punctual st := by
  have hstarts : ∀ events, ∀ s ∈ st.table.rows, ∀ x length : ℚ, 0 ≤ length →
      ((runEvents st.fresh events).startsIn s.id x length : ℚ) ≤
        length / (s.intervalMinutes * 60 : ℕ) + 1 := by
    intro events s hs x length hlength
    have hmin := st.interval s hs
    unfold minIntervalMinutes at hmin
    have hpos : (0 : ℚ) < (s.intervalMinutes * 60 : ℕ) := Nat.cast_pos.mpr (by omega)
    have hperiod : (runEvents st.fresh events).period s.id = (s.intervalMinutes * 60 : ℕ) := by
      rw [Scheduler.period_eq_of_plan (plan_run st.fresh events s.id)]
      exact Scheduler.period_of_get (get_of_mem hs)
    have hle := ((spaced_fresh st).run events).startsIn_le s.id hlength (x := x)
    rw [hperiod] at hle
    rw [div_add_one hpos.ne', le_div_iff₀ hpos]
    exact hle
  refine ⟨fun v id hrun => ?_, hstarts, fun events s _ x length => ?_,
    fun events s hs x length d hlength hd => ?_, fun x hclock hfree n t id hact hdue => ?_⟩
  · obtain ⟨-, -, -, -, -, -, hnext⟩ := attempt_of_running hrun
    exact hnext
  · exact ((spaced_fresh st).run events).rowsOfStartsIn_le s.id x length
  · have hrows := (Scheduler.rowsIn_le hd s.id x length).trans
      (((spaced_fresh st).run events).rowsOfStartsIn_le s.id (x - d) (length + d))
    exact (Nat.cast_le.mpr hrows).trans (hstarts events s hs (x - d) (length + d) hlength)
  · exact exists_attempt x hclock hfree hact hdue

/-! ## Attempts without devices, and short triages -/

/-- A schedule of a tenant every five minutes. -/
def branch : Schedule where
  id := 1
  name := "filiale"
  enabled := true
  tenant := "Filiale"
  devices := []
  intervalMinutes := 5
  createdBy := "admin"
  createdTs := 0
  lastRunTs := none
  nextRunTs := 0
  lastStatus := "idle"
  lastSummary := none

def branchState : Scheduler where
  table := ⟨[branch], 2⟩
  log := []
  pending := []
  starts := []
  nodup := by decide
  interval := by decide

def tickAt (now : ℚ) (inventory : List Host) : Tick where
  now := now
  view _ :=
    { clock := now, users := ⟨[], .nil⟩, inventory := inventory
      env := ⟨fun _ => true, fun _ => false, fun _ => false, fun _ => false⟩, busy := false }
  le_clock _ := le_rfl

def branchSwitch : Host where
  ip := "10.20.0.2"
  vendor := "cisco"
  profile := ""
  username := ""
  password := ""
  enableSecret := ""
  group := "Filiale"
  hostname := "sw-filiale"
  probe := ""
  location := ""
  sshPort := ""
  transports := ""
  snmpCommunity := ""
  snmpDisabled := ""

/-- Three ticks without a device. -/
def emptyTicks : List Event :=
  [.tick (tickAt 0 []), .tick (tickAt 30 []), .tick (tickAt 60 [])]

/-- A triage of almost five minutes, and a short one. -/
def slowThenShort : List Event :=
  [.tick (tickAt 0 [branchSwitch]), .complete 0 299 [false],
    .tick (tickAt 300 [branchSwitch]), .complete 0 301 [true]]

def Scheduler.allRowsIn (st : Scheduler) (id : ℕ) (x length : ℚ) : ℕ :=
  st.log.countP fun r => r.scheduleId = id ∧ x ≤ r.ts ∧ r.ts ≤ x + length

/-- Without devices a schedule stays due, and each tick writes a row; and the rows of two triages
come two seconds apart where the first takes long and the second does not. -/
theorem rows_close :
    (runEvents branchState emptyTicks).log.map LogRow.ts = [0, 30, 60] ∧
      (runEvents branchState emptyTicks).next 1 = 0 ∧
        (runEvents branchState slowThenShort).log.map LogRow.ts = [299, 301] ∧
          (¬ ∀ (st : Scheduler) (v : View) (id : ℕ), st.next id ≤ v.clock →
            (v.answer st id).isDeferred = false →
              v.clock + st.period id ≤ (v.attempt st id).next id) ∧
            ¬ ∀ (st : Scheduler) (events : List Event), ∀ s ∈ st.table.rows, ∀ x length : ℚ,
              0 ≤ length → ((runEvents st.fresh events).allRowsIn s.id x length : ℚ) ≤
                length / (s.intervalMinutes * 60 : ℕ) + 1 := by
  refine ⟨by decide +kernel, by decide +kernel, by decide +kernel, fun hall => ?_, fun hall => ?_⟩
  · have hlate := hall branchState ((tickAt 0 []).view 0) 1 (by decide +kernel) (by decide +kernel)
    exact absurd hlate (by decide +kernel)
  · have hfew := hall branchState slowThenShort branch List.mem_cons_self 299 2 (by norm_num)
    exact absurd hfew (by decide +kernel)

end SentinelNet.Triage
