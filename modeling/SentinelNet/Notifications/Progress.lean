import SentinelNet.Notifications.AntiFlood
import SentinelNet.Notifications.Ticks

/-!
# The progress of the tick

The tick writes the cursor of the incidents and then emits the security events, each with a
connection of its own.  So an event that somebody wants waits for the tick to commit, which waits
for the event.

* `delivered_iff`: a tick comes to deliver exactly if nobody wants its security events.
* `run_progresses_iff`: when the steps of a run progress.
-/

namespace SentinelNet.Notifications
namespace Ticks

open StepRuns LogCursor

/-! ## The law -/

/-- The incidents among some rows. -/
def incidentIds (origins : List Origin) : List ℕ :=
  origins.filterMap fun
    | .incident id => some id
    | .event _ => none

/-- The events among some rows. -/
def eventIds (origins : List Origin) : List ℕ :=
  origins.filterMap fun
    | .incident _ => none
    | .event id => some id

section Law

variable (float : String → Option ℚ) (incidentsStart eventsStart : ℕ)

/-- A tick moves both cursors past the rows that it read and no others, and comes to deliver. -/
structure Moves (s : State) (now : ℤ) (clock : Origin → ℤ) (posts : Target → ℕ → Post) : Prop where
  incidents : ∀ i ∈ s.incidents,
    (i.id ≤ (tick float now clock posts s).tables.incidentsCursor ↔
      i.id ≤ s.tables.incidentsCursor ∨ i ∈ s.newIncidents)
  events : ∀ ev ∈ s.events, ev.isSecurity = true →
    (ev.id ≤ (tick float now clock posts s).tables.eventsCursor ↔
      ev.id ≤ s.tables.eventsCursor ∨ ev ∈ s.newEvents)
  delivered : (tick float now clock posts s).delivered = true

/-- Every row between the first cursor and the last one was emitted once, and no other row was. -/
structure EmittedOnce (s : State) : Prop where
  incidents : ∀ i ∈ s.incidents, (incidentIds s.emitted).count i.id =
    if incidentsStart < i.id ∧ i.id ≤ s.tables.incidentsCursor then 1 else 0
  events : ∀ ev ∈ s.events, ev.isSecurity = true → (eventIds s.emitted).count ev.id =
    if eventsStart < ev.id ∧ ev.id ≤ s.tables.eventsCursor then 1 else 0

/-- A tick moves on, and no step emits a row twice or leaves one out. -/
structure Progresses (s : State) (act : Action) : Prop where
  moves : ∀ now clock posts, act = .tick now clock posts → s.config.mailEnabled = true →
    Moves float s now clock posts
  once : EmittedOnce incidentsStart eventsStart (step float s act)

/-- Nobody wants the security events of a tick. -/
def Unheard (s : State) (act : Action) : Prop :=
  ∀ now clock posts, act = .tick now clock posts → s.config.mailEnabled = true →
    ∀ ev ∈ s.newEvents, ¬ Heard float s.config ev.event

end Law

/-- The tables are in the order of their numbers, and nothing was emitted yet. -/
structure Fresh (s : State) : Prop where
  incidents : (s.incidents.map Incident.id).Pairwise (· < ·)
  events : (s.events.map EventRow.id).Pairwise (· < ·)
  emitted : s.emitted = []

/-! ## Ticks -/

section Invariants

variable {float : String → Option ℚ} {incidentsStart eventsStart : ℕ} {s : State}

/-- A tick comes to deliver exactly if nobody wants its security events. -/
theorem delivered_iff (hmail : s.config.mailEnabled) (now : ℤ) (clock : Origin → ℤ)
    (posts : Target → ℕ → Post) :
    (tick float now clock posts s).delivered = true ↔
      ∀ ev ∈ s.newEvents, ¬ Heard float s.config ev.event := by
  constructor
  · intro hdelivered ev hev heard
    rw [(tick_of_heard hmail ⟨ev, hev, heard⟩).2.1] at hdelivered
    exact Bool.false_ne_true hdelivered
  · intro hunheard
    rw [tick_of_unheard hunheard]

theorem incidentIds_tick (s : State) :
    incidentIds ((s.incidentBatch ++ s.eventBatch).map Prod.fst) =
      s.newIncidents.map Incident.id := by
  simp [incidentIds, State.incidentBatch, State.eventBatch, List.filterMap_append,
    List.filterMap_map, Function.comp_def]

theorem eventIds_tick (s : State) :
    eventIds ((s.incidentBatch ++ s.eventBatch).map Prod.fst) = s.newEvents.map EventRow.id := by
  simp [eventIds, State.incidentBatch, State.eventBatch, List.filterMap_append,
    List.filterMap_map, Function.comp_def]

/-- Both tables were taken up to their cursors. -/
structure Current (incidentsStart eventsStart : ℕ) (s : State) : Prop where
  incidents : Consumed Incident.id (fun _ => true) incidentsStart s.incidents
    s.tables.incidentsCursor (incidentIds s.emitted)
  events : Consumed EventRow.id EventRow.isSecurity eventsStart s.events s.tables.eventsCursor
    (eventIds s.emitted)

theorem Fresh.current (hs : Fresh s) :
    Current s.tables.incidentsCursor s.tables.eventsCursor s where
  incidents := by
    rw [hs.emitted]
    exact consumed_start hs.incidents
  events := by
    rw [hs.emitted]
    exact consumed_start hs.events

section

variable (hs : Current incidentsStart eventsStart s)

include hs

theorem Current.emittedOnce :
    EmittedOnce incidentsStart eventsStart s :=
  ⟨fun i hi => hs.incidents.count i hi rfl, fun ev hev => hs.events.count ev hev⟩

theorem Current.tick {now : ℤ} {clock : Origin → ℤ} {posts : Target → ℕ → Post}
    (hunheard : Unheard float s (.tick now clock posts)) :
    Current incidentsStart eventsStart (step float s (.tick now clock posts)) := by
  rw [step]
  split
  · next hmail =>
    rw [tick_of_unheard (hunheard now clock posts rfl hmail)]
    constructor
    · have hnext := hs.incidents.advance (n := 50)
      rw [← State.newIncidents, ← incidentIds_tick] at hnext
      rw [show incidentIds (s.emitted ++ _) = _ from List.filterMap_append]
      exact hnext
    · have hnext := hs.events.advance (n := 50)
      rw [← State.newEvents, ← eventIds_tick] at hnext
      rw [show eventIds (s.emitted ++ _) = _ from List.filterMap_append]
      exact hnext
  · exact hs

theorem Current.moves (now : ℤ) (clock : Origin → ℤ) (posts : Target → ℕ → Post)
    (hunheard : ∀ ev ∈ s.newEvents, ¬ Heard float s.config ev.event) :
    Moves float s now clock posts where
  incidents i hi := by
    rw [tick_of_unheard hunheard]
    exact key_le_advance_iff hs.incidents.sorted hi rfl
  events ev hev hsecurity := by
    rw [tick_of_unheard hunheard]
    exact key_le_advance_iff hs.events.sorted hev hsecurity
  delivered := by
    rw [tick_of_unheard hunheard]

theorem Current.step {act : Action} (hunheard : Unheard float s act) :
    Current incidentsStart eventsStart (step float s act) := by
  cases act with
  | incident i =>
    exact ⟨hs.incidents.append fun _ hid => RowIds.lt_next hid, hs.events⟩
  | event ev =>
    exact ⟨hs.incidents, hs.events.append fun _ hid => RowIds.lt_next hid⟩
  | emit e now => exact ⟨hs.incidents, hs.events⟩
  | tick now clock posts => exact hs.tick hunheard
  | configure c => exact ⟨hs.incidents, hs.events⟩

end

/-! ## Runs -/

/-- The steps of a run progress exactly if nobody wants the security events of its ticks. -/
theorem run_progresses_iff {s₀ : State} (hs : Fresh s₀) (acts : List Action) (s : State) :
    Run (Ticks.step float) (Progresses float s₀.tables.incidentsCursor s₀.tables.eventsCursor) s₀
        acts s ↔
      Run (Ticks.step float) (Unheard float) s₀ acts s := by
  constructor
  · intro hrun
    refine hrun.mono (I := fun _ => True) (fun _ _ _ _ => trivial)
      (fun s act _ hprogress now clock posts hact hmail => ?_) trivial
    exact (delivered_iff hmail now clock posts).mp (hprogress.moves now clock posts hact hmail).delivered
  · intro hrun
    refine hrun.mono (I := Current s₀.tables.incidentsCursor s₀.tables.eventsCursor)
      (fun _ _ hs hunheard => hs.step hunheard) (fun s act hs hunheard => ⟨?_, ?_⟩) hs.current
    · exact fun now clock posts hact hmail =>
        hs.moves now clock posts (hunheard now clock posts hact hmail)
    · exact (hs.step hunheard).emittedOnce

end Invariants

/-! ## An incident and an event -/

/-- No text is a number. -/
def noFloat : String → Option ℚ := fun _ => none

def oneIncident : Incident := ⟨1, "acme", some "Porta giù", some 3⟩

def oneAlert : EventRow := ⟨1, "log.security", "acme", "10.0.0.1", some "10.0.0.1", some 2, "deny"⟩

/-- One user, an incident and some events. -/
def waiting (events : List EventRow) : State :=
  ⟨oneUser, ⟨0, 0, ⟨[], [], 0⟩⟩, [oneIncident], events, [], []⟩

/-- A tick, and another one a minute later. -/
def twoTicks : List Action := [.tick 1000 (fun _ => 1000) prompt, .tick 1060 (fun _ => 1060) prompt]

/-- An incident alone is emitted and mailed. -/
theorem run_progresses_iff_incident :
    Run (step noFloat) (Progresses noFloat 0 0) (waiting []) twoTicks
      (twoTicks.foldl (step noFloat) (waiting [])) := by
  have hfresh : Fresh (waiting []) := ⟨List.pairwise_singleton _ _, List.Pairwise.nil, rfl⟩
  refine (run_progresses_iff hfresh _ _).mpr (Run.cons ?_ (Run.cons ?_ (Run.nil _)))
  · intro now clock posts _ _ ev hev
    exact nomatch hev
  · intro now clock posts _ _ ev hev
    have hnone : (step noFloat (waiting []) (.tick 1000 (fun _ => 1000) prompt)).newEvents = [] := by
      decide
    rw [hnone] at hev
    exact nomatch hev

/-- With an event that the user wants no tick delivers, and the incident is emitted at each. -/
theorem waiting_not_progresses :
    ¬ Progresses noFloat 0 0 (waiting [oneAlert]) (.tick 1000 (fun _ => 1000) prompt) ∧
      (twoTicks.foldl (step noFloat) (waiting [oneAlert])).emitted =
          [.incident 1, .incident 1] ∧
        (twoTicks.foldl (step noFloat) (waiting [oneAlert])).tried = [] := by
  refine ⟨fun h => ?_, ?_, ?_⟩
  · have hmoves := h.moves 1000 (fun _ => 1000) prompt rfl rfl
    have hdelivered : (tick noFloat 1000 (fun _ => 1000) prompt (waiting [oneAlert])).delivered =
        false := by
      decide
    exact Bool.false_ne_true (hdelivered.symm.trans hmoves.delivered)
  · decide
  · decide

end Ticks
end SentinelNet.Notifications
