import SentinelNet.Lib.Grouping
import SentinelNet.Notifications.Emission

/-!
# How the outbox is delivered

The second half of `_tick` takes the rows of the outbox that are due, sends one mail for each target
to each of its recipients, and settles the rows: they leave the outbox if every recipient was
reached, and wait for another attempt if not.

* `recipientsOf`: the addresses of a target at the time of the delivery.
* `attemptsFor`, `logFor`: the mails of a target and their rows of the log.
* `deliver`: a delivery.
* `State`, `Action`, `step`: notices, deliveries and changes of the configuration.
-/

namespace SentinelNet.Notifications

open Grouping

def maxAttempts : ℕ := 3

/-- What becomes of a mail: why it failed, if it did, and the seconds since the delivery started. -/
structure Post where
  error : Option String
  delay : ℕ

/-- A mail that was tried. -/
structure Attempt where
  target : Target
  recipient : String
  items : List Item
  instant : ℤ
  error : Option String
  deriving DecidableEq

def Attempt.sent (a : Attempt) : Bool := a.error.isNone

/-- The mail has a row of the outbox. -/
def Attempt.has (a : Attempt) (id : ℕ) : Bool := id ∈ a.items.map Item.id

def Config.recipientsOf (c : Config) : Target → List String
  | .user name =>
    match c.users.find? fun u => u.name = name with
    | none => []
    | some u => if '@' ∈ u.email.toList then [u.email] else []
  | .rule id =>
    match c.rules.find? fun r => r.id = id with
    | none => []
    | some r => if r.filter.enabled then r.recipients else []

section Deliveries

variable (c : Config) (now : ℤ) (posts : Target → ℕ → Post)

def Item.isDue (it : Item) : Bool := it.dueTs ≤ now ∧ it.attempts < maxAttempts

/-- The mails for the due rows of a target. -/
def attemptsFor (group : Target × List Item) : List Attempt :=
  (c.recipientsOf group.1).zipIdx.map fun r =>
    { target := group.1
      recipient := r.1
      items := group.2
      instant := now + (posts group.1 r.2).delay
      error := (posts group.1 r.2).error }

/-- The kind and the title that the log names for some rows. -/
def logged : List Item → Option Kind × String
  | [it] => (some it.kind, it.title)
  | items => (none, PyText.str items.length ++ " notifiche raggruppate")

def logFor (group : Target × List Item) : List LogRow :=
  if c.recipientsOf group.1 = [] then
    group.2.head?.toList.map fun it =>
      { ts := now
        target := group.1
        recipient := ""
        kind := some it.kind
        title := it.title
        status := .failed
        error := some "Nessun destinatario configurato"
        itemCount := group.2.length }
  else
    (attemptsFor c now posts group).map fun a =>
      { ts := now
        target := group.1
        recipient := a.recipient
        kind := (logged group.2).1
        title := (logged group.2).2
        status := if a.sent then .sent else .failed
        error := a.error
        itemCount := group.2.length }

/-- Every mail of a target is sent. -/
def allSucceeded (target : Target) : Bool :=
  (c.recipientsOf target).zipIdx.all fun r => (posts target r.2).error.isNone

/-- What becomes of a row of the outbox. -/
def settle (it : Item) : Option Item :=
  if it.isDue now then
    if c.recipientsOf it.target = [] then none
    else if allSucceeded c posts it.target then none
    else if maxAttempts ≤ it.attempts + 1 then none
    else some { it with attempts := it.attempts + 1, dueTs := now + 60 }
  else some it

def dueGroups (outbox : List Item) : List (Target × List Item) :=
  groupOn Item.target (outbox.filter fun it => it.isDue now)

/-- The outbox and the log after a delivery.  The rows of one target are settled after the other;
they are different rows. -/
def Store.deliver (s : Store) : Store :=
  if (s.outbox.filter fun it => it.isDue now) = [] then s
  else
    { s with
      outbox := s.outbox.filterMap (settle c now posts)
      log := (s.log ++ (dueGroups now s.outbox).flatMap (logFor c now posts)).filter fun r =>
        now - 30 * 86400 ≤ r.ts }

def Store.mails (s : Store) : List Attempt :=
  (dueGroups now s.outbox).flatMap (attemptsFor c now posts)

end Deliveries

/-! ## What a delivery leaves -/

section Facts

variable {c : Config} {now : ℤ} {posts : Target → ℕ → Post} {s : Store}

variable {it : Item}

theorem settle_of_not_isDue (h : it.isDue now = false) : settle c now posts it = some it := by
  rw [settle, if_neg (by rw [h]; exact Bool.false_ne_true)]

theorem outbox_deliver :
    (s.deliver c now posts).outbox = s.outbox.filterMap (settle c now posts) := by
  rw [Store.deliver]
  split
  · next hnone =>
    have hsome : ∀ it ∈ s.outbox, settle c now posts it = some it := by
      intro it hit
      refine settle_of_not_isDue ?_
      by_contra hdue
      have hmem := List.mem_filter.mpr ⟨hit, Bool.eq_true_of_not_eq_false hdue⟩
      exact List.not_mem_nil (hnone ▸ hmem)
    rw [List.filterMap_congr hsome, List.filterMap_some]
  · rfl

theorem nextId_deliver : (s.deliver c now posts).nextId = s.nextId := by
  rw [Store.deliver]
  split <;> rfl

theorem settle_eq_some {it' : Item} (h : settle c now posts it = some it') :
    it.isDue now = false ∧ it' = it ∨
      it.isDue now = true ∧ c.recipientsOf it.target ≠ [] ∧ allSucceeded c posts it.target = false ∧
        it.attempts + 1 < maxAttempts ∧
          it' = { it with attempts := it.attempts + 1, dueTs := now + 60 } := by
  rw [settle] at h
  split at h
  · next hdue =>
    split at h
    · simp at h
    · next hrecipients =>
      split at h
      · simp at h
      · next hfailed =>
        split at h
        · simp at h
        · next hleft =>
          exact Or.inr ⟨hdue, hrecipients, Bool.eq_false_of_not_eq_true hfailed, not_le.mp hleft,
            (Option.some.inj h).symm⟩
  · next hdue => exact Or.inl ⟨Bool.eq_false_of_not_eq_true hdue, (Option.some.inj h).symm⟩

theorem settle_eq_none :
    settle c now posts it = none ↔
      it.isDue now = true ∧ (c.recipientsOf it.target = [] ∨ allSucceeded c posts it.target = true ∨
        maxAttempts ≤ it.attempts + 1) := by
  rw [settle]
  split
  · next hdue =>
    split
    · next h => simp [hdue, h]
    · next h =>
      split
      · next h' => simp [hdue, h']
      · next h' =>
        split
        · next h'' => simp [hdue, h'']
        · next h'' => simp [h, h', h'']
  · next hdue => simp [hdue]

theorem settle_same {it' : Item} (h : settle c now posts it = some it') :
    it'.id = it.id ∧ it'.target = it.target ∧ it'.dedupKey = it.dedupKey ∧
      it'.severity = it.severity ∧ it'.createdTs = it.createdTs := by
  rcases settle_eq_some h with ⟨-, rfl⟩ | ⟨-, -, -, -, rfl⟩
  · exact ⟨rfl, rfl, rfl, rfl, rfl⟩
  · exact ⟨rfl, rfl, rfl, rfl, rfl⟩

theorem mem_mails {a : Attempt} :
    a ∈ s.mails c now posts ↔
      a.items = s.outbox.filter (fun it => it.isDue now ∧ it.target = a.target) ∧ a.items ≠ [] ∧
        ∃ i, (a.recipient, i) ∈ (c.recipientsOf a.target).zipIdx ∧
          a.instant = now + (posts a.target i).delay ∧ a.error = (posts a.target i).error := by
  rw [Store.mails, List.mem_flatMap]
  constructor
  · rintro ⟨g, hg, ha⟩
    obtain ⟨⟨recipient, i⟩, hr, rfl⟩ := List.mem_map.mp ha
    obtain ⟨hitems, hne⟩ := mem_groupOn.mp hg
    refine ⟨?_, hne, i, hr, rfl, rfl⟩
    rw [hitems, List.filter_filter]
    exact List.filter_congr fun it _ => by simp [Bool.and_comm]
  · rintro ⟨hitems, hne, i, hr, hinstant, herror⟩
    refine ⟨(a.target, a.items), mem_groupOn.mpr ⟨?_, hne⟩, List.mem_map.mpr ⟨_, hr, ?_⟩⟩
    · rw [hitems, List.filter_filter]
      exact List.filter_congr fun it _ => by simp [Bool.and_comm]
    · simp only [← hinstant, ← herror]

end Facts

/-! ## Actions -/

/-- The configuration, the tables, the mails that were tried, and the rows that were queued. -/
structure State where
  config : Config
  store : Store
  tried : List Attempt
  queued : List Item

/-- Nothing was notified yet. -/
def State.start (c : Config) : State := ⟨c, ⟨[], [], 0⟩, [], []⟩

/-- A notice for a subscriber, a delivery, or a change of the configuration. -/
inductive Action where
  | notify (n : Notice) (now : ℤ) (sub : Subscriber)
  | deliver (now : ℤ) (posts : Target → ℕ → Post)
  | configure (c : Config)

def step (s : State) : Action → State
  | .notify n now sub =>
    if s.config.mailEnabled ∧ sub ∈ s.config.subscribers n then
      { s with
        store := s.store.notify n now sub
        queued := if s.store.suppresses n sub.target now then s.queued
          else s.queued ++ [item s.store.nextId n sub now] }
    else s
  | .deliver now posts =>
    if s.config.mailEnabled then
      { s with
        store := s.store.deliver s.config now posts
        tried := s.tried ++ s.store.mails s.config now posts }
    else s
  | .configure c => { s with config := c }

/-! ## What an action leaves -/

section Actions

variable {s : State} {now : ℤ} {posts : Target → ℕ → Post}

theorem step_notify_cases (s : State) (n : Notice) (now : ℤ) (sub : Subscriber) :
    ((step s (.notify n now sub)).store.outbox = s.store.outbox ∧
      (step s (.notify n now sub)).store.nextId = s.store.nextId ∨
    (step s (.notify n now sub)).store.outbox =
        s.store.outbox ++ [item s.store.nextId n sub now] ∧
      (step s (.notify n now sub)).store.nextId = s.store.nextId + 1) ∧
    (step s (.notify n now sub)).tried = s.tried ∧
      (step s (.notify n now sub)).config = s.config := by
  rw [step]
  split
  · rw [Store.notify]
    split
    · exact ⟨Or.inl ⟨rfl, rfl⟩, rfl, rfl⟩
    · exact ⟨Or.inr ⟨rfl, rfl⟩, rfl, rfl⟩
  · exact ⟨Or.inl ⟨rfl, rfl⟩, rfl, rfl⟩

theorem outbox_step_deliver (hmail : s.config.mailEnabled) :
    (step s (.deliver now posts)).store.outbox =
      s.store.outbox.filterMap (settle s.config now posts) := by
  rw [step, if_pos hmail]
  exact outbox_deliver

theorem tried_step_deliver (hmail : s.config.mailEnabled) :
    (step s (.deliver now posts)).tried = s.tried ++ s.store.mails s.config now posts := by
  rw [step, if_pos hmail]

theorem nextId_step_deliver : (step s (.deliver now posts)).store.nextId = s.store.nextId := by
  rw [step]
  split
  · exact nextId_deliver
  · rfl

theorem config_step_deliver : (step s (.deliver now posts)).config = s.config := by
  rw [step]
  split <;> rfl

theorem step_deliver_of_not (hmail : ¬ s.config.mailEnabled = true) :
    step s (.deliver now posts) = s := by
  rw [step, if_neg hmail]

end Actions

end SentinelNet.Notifications
