import SentinelNet.Notifications.AntiFlood

/-!
# One mail for each recipient

A row of the outbox is settled as a whole: it leaves the outbox if the mail to every recipient was
sent, and is tried again with every recipient if one of them was not reached.

* `received`, `failures`: how often a recipient was sent a row, and was not.
* `mails_filter_has`: the mails of a row.
* `run_served_and_oncePer`: what the steps of a steady run and of an undivided run bring about.
-/

namespace SentinelNet.Notifications

open Grouping StepRuns

/-! ## The law -/

/-- A mail with a row was sent to a recipient. -/
def Attempt.gave (a : Attempt) (id : ℕ) (recipient : String) : Bool :=
  (a.sent && a.recipient = recipient) && a.has id

/-- A mail with a row was not sent to a recipient. -/
def Attempt.missed (a : Attempt) (id : ℕ) (recipient : String) : Bool :=
  (!a.sent && a.recipient = recipient) && a.has id

/-- How often a recipient was sent a row. -/
def State.received (s : State) (id : ℕ) (recipient : String) : ℕ :=
  s.tried.countP fun a => a.gave id recipient

/-- How often sending a row to a recipient failed. -/
def State.failures (s : State) (id : ℕ) (recipient : String) : ℕ :=
  s.tried.countP fun a => a.missed id recipient

/-- A row leaves the outbox. -/
def Leaves (s : State) (act : Action) (it : Item) : Prop :=
  it ∈ s.store.outbox ∧ ∀ it' ∈ (step s act).store.outbox, it'.id ≠ it.id

/-- A row leaves the outbox only when every recipient was sent it or failed often enough, and not
without either unless there is no recipient. -/
structure Served (s : State) (act : Action) : Prop where
  leaves : ∀ it, Leaves s act it → ∀ recipient ∈ s.config.recipientsOf it.target,
    1 ≤ (step s act).received it.id recipient ∨
      maxAttempts ≤ (step s act).failures it.id recipient
  nobody : ∀ it, Leaves s act it → s.config.recipientsOf it.target = [] ∨
    ∃ recipient, 1 ≤ (step s act).received it.id recipient ∨
      maxAttempts ≤ (step s act).failures it.id recipient

/-- A step sends no row to a recipient twice. -/
def OncePer (s : State) (act : Action) : Prop :=
  ∀ id recipient, (step s act).received id recipient ≤ 1

/-- No recipient is added to a target one of whose rows was tried. -/
def Steady (s : State) (act : Action) : Prop :=
  ∀ c, act = .configure c → ∀ it ∈ s.store.outbox, 0 < it.attempts →
    ∀ recipient ∈ c.recipientsOf it.target, recipient ∈ s.config.recipientsOf it.target

/-- The mails of every due row are all sent, or all not, or else the row has no attempt left, and
where mails are sent the recipients are different. -/
def Undivided (s : State) (act : Action) : Prop :=
  ∀ now posts, act = .deliver now posts → s.config.mailEnabled = true →
    ∀ it ∈ s.store.outbox, it.isDue now = true →
      (∀ r ∈ (s.config.recipientsOf it.target).zipIdx,
        (posts it.target r.2).error.isNone = false) ∨
      (s.config.recipientsOf it.target).Nodup ∧
        (allSucceeded s.config posts it.target = true ∨ maxAttempts ≤ it.attempts + 1)

/-! ## The mails of a row -/

section Mails

variable {c : Config} {now : ℤ} {posts : Target → ℕ → Post} {s : Store}

def Store.dueOf (s : Store) (now : ℤ) (target : Target) : List Item :=
  s.outbox.filter fun it => it.isDue now ∧ it.target = target

theorem dueOf_eq (target : Target) :
    (s.outbox.filter fun it => it.isDue now).filter (fun it => it.target = target) =
      s.dueOf now target := by
  rw [List.filter_filter]
  exact List.filter_congr fun it _ => by simp [Bool.and_comm]

theorem mem_dueGroups {g : Target × List Item} :
    g ∈ dueGroups now s.outbox ↔ g.2 = s.dueOf now g.1 ∧ g.2 ≠ [] := by
  rw [dueGroups, mem_groupOn, dueOf_eq]

theorem dueGroups_filter {target : Target} (hne : s.dueOf now target ≠ []) :
    (dueGroups now s.outbox).filter (fun g => g.1 = target) = [(target, s.dueOf now target)] := by
  rw [dueGroups, filter_groupOn (fun t => decide (t = target)), dueOf_eq]
  refine groupOn_of_const (fun it hit => ?_) hne
  exact (of_decide_eq_true (List.mem_filter.mp hit).2).2

/-- The mails of a row that is due are those of its target. -/
theorem mails_filter_has (hids : (s.outbox.map Item.id).Nodup) {it : Item} (hit : it ∈ s.outbox)
    (hdue : it.isDue now) :
    (s.mails c now posts).filter (fun a => a.has it.id) =
      attemptsFor c now posts (it.target, s.dueOf now it.target) := by
  have hmem : it ∈ s.dueOf now it.target :=
    List.mem_filter.mpr ⟨hit, decide_eq_true ⟨hdue, rfl⟩⟩
  rw [Store.mails, @filter_flatMap_of _ _ _ (fun g => decide (it.id ∈ g.2.map Item.id))]
  · have hone : (dueGroups now s.outbox).filter (fun g => decide (it.id ∈ g.2.map Item.id)) =
        [(it.target, s.dueOf now it.target)] := by
      rw [← dueGroups_filter (List.ne_nil_of_mem hmem)]
      refine List.filter_congr fun g hg => decide_eq_decide.mpr ?_
      rw [(mem_dueGroups.mp hg).1]
      constructor
      · intro hid
        obtain ⟨jt, hjt, heq⟩ := List.mem_map.mp hid
        obtain ⟨hmem', hboth⟩ := List.mem_filter.mp hjt
        obtain rfl := List.inj_on_of_nodup_map hids hmem' hit heq
        exact (of_decide_eq_true hboth).2.symm
      · intro htarget
        rw [htarget]
        exact List.mem_map_of_mem hmem
    rw [hone, List.flatMap_cons, List.flatMap_nil, List.append_nil]
  · intro g hg a ha
    obtain ⟨r, hr, rfl⟩ := List.mem_map.mp ha
    rfl

theorem mails_filter_has_of_not_due {id : ℕ}
    (h : ∀ it ∈ s.outbox, it.isDue now = true → it.id ≠ id) :
    (s.mails c now posts).filter (fun a => a.has id) = [] := by
  rw [List.filter_eq_nil_iff]
  intro a ha hhas
  obtain ⟨hitems, -, -⟩ := mem_mails.mp ha
  obtain ⟨it, hit, hid⟩ := List.mem_map.mp (of_decide_eq_true hhas)
  rw [hitems] at hit
  obtain ⟨hmem, hboth⟩ := List.mem_filter.mp hit
  exact h it hmem (of_decide_eq_true hboth).1 hid

theorem countP_gave (hids : (s.outbox.map Item.id).Nodup) {it : Item} (hit : it ∈ s.outbox)
    (hdue : it.isDue now) (recipient : String) :
    (s.mails c now posts).countP (fun a => a.gave it.id recipient) =
      (c.recipientsOf it.target).zipIdx.countP fun r =>
        (posts it.target r.2).error.isNone && r.1 = recipient := by
  have hfilter := @List.countP_filter _ (fun a => a.sent && a.recipient = recipient)
    (fun a => a.has it.id) (s.mails c now posts)
  rw [mails_filter_has hids hit hdue, attemptsFor, List.countP_map] at hfilter
  exact hfilter.symm

theorem countP_missed (hids : (s.outbox.map Item.id).Nodup) {it : Item} (hit : it ∈ s.outbox)
    (hdue : it.isDue now) (recipient : String) :
    (s.mails c now posts).countP (fun a => a.missed it.id recipient) =
      (c.recipientsOf it.target).zipIdx.countP fun r =>
        !(posts it.target r.2).error.isNone && r.1 = recipient := by
  have hfilter := @List.countP_filter _ (fun a => !a.sent && a.recipient = recipient)
    (fun a => a.has it.id) (s.mails c now posts)
  rw [mails_filter_has hids hit hdue, attemptsFor, List.countP_map] at hfilter
  exact hfilter.symm

theorem countP_gave_of_not_due {id : ℕ} (h : ∀ it ∈ s.outbox, it.isDue now = true → it.id ≠ id)
    (recipient : String) : (s.mails c now posts).countP (fun a => a.gave id recipient) = 0 := by
  have hfilter := @List.countP_filter _ (fun a => a.sent && a.recipient = recipient)
    (fun a => a.has id) (s.mails c now posts)
  rw [mails_filter_has_of_not_due h, List.countP_nil] at hfilter
  exact hfilter.symm

theorem countP_recipient_le (p : ℕ → Bool) {recipients : List String} (h : recipients.Nodup)
    (recipient : String) :
    (recipients.zipIdx.countP fun r => p r.2 && r.1 = recipient) ≤ 1 := by
  have hle : (recipients.zipIdx.countP fun r => p r.2 && r.1 = recipient) ≤
      recipients.zipIdx.countP fun r => r.1 = recipient := by
    refine List.countP_mono_left fun r _ hr => ?_
    exact (Bool.and_eq_true_iff.mp hr).2
  have hmap : (recipients.zipIdx.countP fun r => r.1 = recipient) = recipients.count recipient := by
    have hcount := @List.countP_map _ _ (fun x : String => decide (x = recipient)) Prod.fst
      recipients.zipIdx
    rw [List.zipIdx_map_fst] at hcount
    exact hcount.symm.trans (List.countP_congr fun x _ => by simp)
  rw [hmap] at hle
  exact hle.trans (List.nodup_iff_count_le_one.mp h recipient)

end Mails

/-! ## The rows and their numbers -/

section Invariants

variable {s : State}

/-- The rows of the outbox have numbers of their own, and no mail has a number that is not given
away. -/
structure Numbered (s : State) : Prop where
  ids : (s.store.outbox.map Item.id).Nodup
  known : ∀ it ∈ s.store.outbox, it.id < s.store.nextId
  tried : ∀ a ∈ s.tried, ∀ it ∈ a.items, it.id < s.store.nextId

theorem numbered_start (c : Config) : Numbered (State.start c) where
  ids := List.nodup_nil
  known _ hit := nomatch hit
  tried _ ha := nomatch ha

theorem Numbered.received_nextId (hs : Numbered s) (recipient : String) :
    s.received s.store.nextId recipient = 0 := by
  rw [State.received, List.countP_eq_zero]
  intro a ha hgave
  obtain ⟨it, hit, hid⟩ := List.mem_map.mp (of_decide_eq_true (Bool.and_eq_true_iff.mp hgave).2)
  exact (hs.tried a ha it hit).ne hid

theorem Numbered.ne_of_due (hs : Numbered s) {now : ℤ} {it : Item} (hit : it ∈ s.store.outbox)
    (hdue : it.isDue now = false) :
    ∀ jt ∈ s.store.outbox, jt.isDue now = true → jt.id ≠ it.id := by
  intro jt hjt hjtdue hid
  obtain rfl := List.inj_on_of_nodup_map hs.ids hjt hit hid
  exact Bool.false_ne_true (hdue.symm.trans hjtdue)

section Deliveries

variable {now : ℤ} {posts : Target → ℕ → Post}

theorem received_deliver (hmail : s.config.mailEnabled) (id : ℕ) (recipient : String) :
    (step s (.deliver now posts)).received id recipient = s.received id recipient +
      (s.store.mails s.config now posts).countP fun a => a.gave id recipient := by
  rw [State.received, tried_step_deliver hmail]
  exact List.countP_append

theorem failures_deliver (hmail : s.config.mailEnabled) (id : ℕ) (recipient : String) :
    (step s (.deliver now posts)).failures id recipient = s.failures id recipient +
      (s.store.mails s.config now posts).countP fun a => a.missed id recipient := by
  rw [State.failures, tried_step_deliver hmail]
  exact List.countP_append

end Deliveries

theorem ids_filterMap_sublist {f : Item → Option Item}
    (hf : ∀ it it', f it = some it' → it'.id = it.id) (items : List Item) :
    ((items.filterMap f).map Item.id).Sublist (items.map Item.id) := by
  induction items with
  | nil => exact List.Sublist.slnil
  | cons it items ih =>
    rw [List.filterMap_cons, List.map_cons]
    cases hit : f it with
    | none => exact ih.cons _
    | some it' =>
      rw [List.map_cons, hf it it' hit]
      exact ih.cons_cons _

theorem Numbered.step (hs : Numbered s) (act : Action) : Numbered (step s act) := by
  cases act with
  | notify n now sub =>
    obtain ⟨⟨houtbox, hnext⟩ | ⟨houtbox, hnext⟩, htried, -⟩ := step_notify_cases s n now sub
    · refine ⟨?_, fun it hit => ?_, fun a ha it hit => ?_⟩
      · rw [houtbox]
        exact hs.ids
      · rw [hnext]
        exact hs.known it (houtbox ▸ hit)
      · rw [hnext]
        exact hs.tried a (htried ▸ ha) it hit
    · refine ⟨?_, fun it hit => ?_, fun a ha it hit => ?_⟩
      · rw [houtbox, List.map_append, List.nodup_append]
        refine ⟨hs.ids, List.nodup_singleton _, fun id hid id' hid' heq => ?_⟩
        obtain ⟨it, hit, rfl⟩ := List.mem_map.mp hid
        rw [List.mem_singleton.mp hid'] at heq
        exact (hs.known it hit).ne heq
      · rw [hnext]
        rw [houtbox] at hit
        rcases List.mem_append.mp hit with hit | hit
        · exact Nat.lt_succ_of_lt (hs.known it hit)
        · rw [List.mem_singleton.mp hit]
          exact Nat.lt_succ_self _
      · rw [hnext]
        exact Nat.lt_succ_of_lt (hs.tried a (htried ▸ ha) it hit)
  | configure c => exact ⟨hs.ids, hs.known, hs.tried⟩
  | deliver now posts =>
    by_cases hmail : s.config.mailEnabled = true
    · refine ⟨?_, fun it' hit' => ?_, fun a ha it hit => ?_⟩
      · rw [outbox_step_deliver hmail]
        exact hs.ids.sublist (ids_filterMap_sublist (fun _ _ h => (settle_same h).1) _)
      · rw [outbox_step_deliver hmail] at hit'
        obtain ⟨it, hit, hsettle⟩ := List.mem_filterMap.mp hit'
        rw [(settle_same hsettle).1, nextId_step_deliver]
        exact hs.known it hit
      · rw [nextId_step_deliver]
        rw [tried_step_deliver hmail] at ha
        rcases List.mem_append.mp ha with ha | ha
        · exact hs.tried a ha it hit
        · rw [(mem_mails.mp ha).1] at hit
          exact hs.known it (List.mem_filter.mp hit).1
    · rw [step_deliver_of_not hmail]
      exact hs

/-! ## The rows that leave -/

/-- Every recipient of a row was tried as often as the row. -/
structure Counted (s : State) : Prop extends Numbered s where
  counted : ∀ it ∈ s.store.outbox, ∀ recipient ∈ s.config.recipientsOf it.target,
    it.attempts ≤ s.received it.id recipient + s.failures it.id recipient

theorem counted_start (c : Config) : Counted (State.start c) :=
  ⟨numbered_start c, fun _ hit => nomatch hit⟩

section Deliveries

variable {now : ℤ} {posts : Target → ℕ → Post}

theorem Numbered.gave_or_missed (hs : Numbered s) {it : Item} (hit : it ∈ s.store.outbox)
    (hdue : it.isDue now) {recipient : String}
    (hmem : recipient ∈ s.config.recipientsOf it.target) :
    1 ≤ ((s.store.mails s.config now posts).countP fun a => a.gave it.id recipient) ∨
      1 ≤ (s.store.mails s.config now posts).countP fun a => a.missed it.id recipient := by
  rw [countP_gave hs.ids hit hdue, countP_missed hs.ids hit hdue]
  obtain ⟨i, hi⟩ := List.mem_iff_getElem?.mp hmem
  have hr := List.mk_mem_zipIdx_iff_getElem?.mpr hi
  cases hsent : (posts it.target i).error.isNone with
  | true =>
    refine Or.inl (List.countP_pos_iff.mpr ⟨(recipient, i), hr, ?_⟩)
    simp [hsent]
  | false =>
    refine Or.inr (List.countP_pos_iff.mpr ⟨(recipient, i), hr, ?_⟩)
    simp [hsent]

theorem Numbered.countP_of_allSucceeded (hs : Numbered s) {it : Item} (hit : it ∈ s.store.outbox)
    (hdue : it.isDue now) (hsent : allSucceeded s.config posts it.target)
    (recipient : String) :
    ((s.store.mails s.config now posts).countP fun a => a.missed it.id recipient) = 0 := by
  rw [countP_missed hs.ids hit hdue]
  refine List.countP_eq_zero.mpr fun r hr => ?_
  rw [List.all_eq_true.mp hsent r hr, Bool.not_true, Bool.false_and]
  exact Bool.false_ne_true

theorem Counted.served (hs : Counted s) (hmail : s.config.mailEnabled) {it : Item}
    (hit : it ∈ s.store.outbox) (hnone : settle s.config now posts it = none) {recipient : String}
    (hmem : recipient ∈ s.config.recipientsOf it.target) :
    1 ≤ (step s (.deliver now posts)).received it.id recipient ∨
      maxAttempts ≤ (step s (.deliver now posts)).failures it.id recipient := by
  obtain ⟨hdue, hcause⟩ := settle_eq_none.mp hnone
  rw [received_deliver hmail, failures_deliver hmail]
  rcases hs.gave_or_missed hit hdue hmem with hgave | hmissed
  · exact Or.inl (hgave.trans (Nat.le_add_left _ _))
  · rcases hcause with hnobody | hsent | hlast
    · rw [hnobody] at hmem
      cases hmem
    · rw [hs.countP_of_allSucceeded hit hdue hsent] at hmissed
      exact absurd hmissed (by decide)
    · have hcounted := hs.counted it hit recipient hmem
      rcases Nat.eq_zero_or_pos (s.received it.id recipient) with hzero | hpos
      · exact Or.inr (by omega)
      · exact Or.inl (Nat.le_add_right_of_le hpos)

theorem Counted.deliver (hs : Counted s) : Counted (step s (.deliver now posts)) := by
  refine ⟨hs.toNumbered.step _, fun it' hit' recipient hrecipient => ?_⟩
  by_cases hmail : s.config.mailEnabled = true
  · rw [outbox_step_deliver hmail] at hit'
    obtain ⟨it, hit, hsettle⟩ := List.mem_filterMap.mp hit'
    rw [config_step_deliver, (settle_same hsettle).2.1] at hrecipient
    have hold := hs.counted it hit recipient hrecipient
    rw [received_deliver hmail, failures_deliver hmail, (settle_same hsettle).1]
    rcases settle_eq_some hsettle with ⟨-, rfl⟩ | ⟨hdue, -, -, -, rfl⟩
    · omega
    · show it.attempts + 1 ≤ _
      have htried := @Numbered.gave_or_missed s now posts hs.toNumbered it hit hdue recipient
        hrecipient
      rcases htried with hgave | hmissed
      · omega
      · omega
  · rw [step_deliver_of_not hmail] at hit' hrecipient ⊢
    exact hs.counted it' hit' recipient hrecipient

end Deliveries

theorem Counted.step (hs : Counted s) {act : Action} (hsteady : Steady s act) :
    Counted (step s act) := by
  cases act with
  | notify n now sub =>
    refine ⟨hs.toNumbered.step _, fun it hit recipient hrecipient => ?_⟩
    obtain ⟨houtbox, htried, hconfig⟩ := step_notify_cases s n now sub
    rw [State.received, State.failures, htried]
    rw [hconfig] at hrecipient
    rcases houtbox with ⟨houtbox, -⟩ | ⟨houtbox, -⟩
    · exact hs.counted it (houtbox ▸ hit) recipient hrecipient
    · rw [houtbox] at hit
      rcases List.mem_append.mp hit with hit | hit
      · exact hs.counted it hit recipient hrecipient
      · rw [List.mem_singleton.mp hit]
        exact Nat.zero_le _
  | deliver now posts => exact hs.deliver
  | configure c =>
    refine ⟨hs.toNumbered.step _, fun it hit recipient hrecipient => ?_⟩
    rcases Nat.eq_zero_or_pos it.attempts with hzero | hpos
    · rw [hzero]
      exact Nat.zero_le _
    · exact hs.counted it hit recipient (hsteady c rfl it hit hpos recipient hrecipient)

/-- Only a delivery removes rows, and a row that it removes was sent to each of its recipients, or
failed often enough. -/
theorem Counted.leaves (hs : Counted s) {act : Action} {it : Item} (hleaves : Leaves s act it)
    {recipient : String} (hmem : recipient ∈ s.config.recipientsOf it.target) :
    1 ≤ (Notifications.step s act).received it.id recipient ∨
      maxAttempts ≤ (Notifications.step s act).failures it.id recipient := by
  obtain ⟨hit, hgone⟩ := hleaves
  cases act with
  | notify n now sub =>
    refine absurd rfl (hgone it ?_)
    obtain ⟨⟨houtbox, -⟩ | ⟨houtbox, -⟩, -⟩ := step_notify_cases s n now sub
    · rw [houtbox]
      exact hit
    · rw [houtbox]
      exact List.mem_append_left _ hit
  | configure c => exact absurd rfl (hgone it hit)
  | deliver now posts =>
    by_cases hmail : s.config.mailEnabled = true
    · refine hs.served hmail hit ?_ hmem
      rw [Option.eq_none_iff_forall_ne_some]
      intro it' hsettle
      refine hgone it' ?_ (settle_same hsettle).1
      rw [outbox_step_deliver hmail]
      exact List.mem_filterMap.mpr ⟨it, hit, hsettle⟩
    · refine absurd rfl (hgone it ?_)
      rw [step_deliver_of_not hmail]
      exact hit

theorem Counted.toServed (hs : Counted s) (act : Action) : Served s act where
  leaves _ hleaves _ hmem := hs.leaves hleaves hmem
  nobody it hleaves := by
    cases hrecipients : s.config.recipientsOf it.target with
    | nil => exact Or.inl rfl
    | cons recipient rest =>
      exact Or.inr ⟨recipient, hs.leaves hleaves (by rw [hrecipients]; exact List.mem_cons_self)⟩

/-! ## The rows that stay -/

/-- The rows of the outbox were sent to nobody, and no row was sent to a recipient twice. -/
structure Unsent (s : State) : Prop extends Numbered s where
  unsent : ∀ it ∈ s.store.outbox, ∀ recipient, s.received it.id recipient = 0
  once : ∀ id recipient, s.received id recipient ≤ 1

theorem unsent_start (c : Config) : Unsent (State.start c) :=
  ⟨numbered_start c, fun _ hit => absurd hit List.not_mem_nil, fun _ _ => Nat.zero_le _⟩

section Deliveries

variable {now : ℤ} {posts : Target → ℕ → Post}

theorem Numbered.countP_of_all_failed (hs : Numbered s) {it : Item} (hit : it ∈ s.store.outbox)
    (hdue : it.isDue now)
    (hfailed : ∀ r ∈ (s.config.recipientsOf it.target).zipIdx,
      (posts it.target r.2).error.isNone = false) (recipient : String) :
    ((s.store.mails s.config now posts).countP fun a => a.gave it.id recipient) = 0 := by
  rw [countP_gave hs.ids hit hdue]
  refine List.countP_eq_zero.mpr fun r hr => ?_
  rw [hfailed r hr, Bool.false_and]
  exact Bool.false_ne_true

theorem Unsent.once_deliver (hs : Unsent s) (hundivided : Undivided s (.deliver now posts))
    (hmail : s.config.mailEnabled) (id : ℕ) (recipient : String) :
    (step s (.deliver now posts)).received id recipient ≤ 1 := by
  rw [received_deliver hmail]
  by_cases hdue : ∃ it ∈ s.store.outbox, it.isDue now = true ∧ it.id = id
  · obtain ⟨it, hit, hdue, rfl⟩ := hdue
    rw [hs.unsent it hit recipient, Nat.zero_add]
    rcases hundivided now posts rfl hmail it hit hdue with hfailed | ⟨hnodup, -⟩
    · rw [hs.countP_of_all_failed hit hdue hfailed recipient]
      exact Nat.zero_le 1
    · rw [countP_gave hs.ids hit hdue]
      exact countP_recipient_le (fun i => (posts it.target i).error.isNone) hnodup recipient
  · have hnot : ∀ it ∈ s.store.outbox, it.isDue now = true → it.id ≠ id :=
      fun it hit hitdue hid => hdue ⟨it, hit, hitdue, hid⟩
    rw [countP_gave_of_not_due hnot]
    exact hs.once id recipient

theorem Unsent.deliver (hs : Unsent s) (hundivided : Undivided s (.deliver now posts)) :
    Unsent (step s (.deliver now posts)) := by
  by_cases hmail : s.config.mailEnabled = true
  · refine ⟨hs.toNumbered.step _, fun it' hit' recipient => ?_, hs.once_deliver hundivided hmail⟩
    rw [outbox_step_deliver hmail] at hit'
    obtain ⟨it, hit, hsettle⟩ := List.mem_filterMap.mp hit'
    rw [received_deliver hmail, (settle_same hsettle).1, hs.unsent it hit recipient, Nat.zero_add]
    rcases settle_eq_some hsettle with ⟨hdue, -⟩ | ⟨hdue, -, hfailed, hleft, -⟩
    · exact countP_gave_of_not_due (hs.ne_of_due hit hdue) recipient
    · have hall := (hundivided now posts rfl hmail it hit hdue).resolve_right fun hsent => by
        rcases hsent.2 with hsent | hlast
        · exact Bool.false_ne_true (hfailed.symm.trans hsent)
        · exact absurd hleft (not_lt.mpr hlast)
      exact hs.countP_of_all_failed hit hdue hall recipient
  · rw [step_deliver_of_not hmail]
    exact hs

end Deliveries

theorem Unsent.step (hs : Unsent s) {act : Action} (hundivided : Undivided s act) :
    Unsent (step s act) := by
  cases act with
  | notify n now sub =>
    obtain ⟨houtbox, htried, -⟩ := step_notify_cases s n now sub
    have hreceived : ∀ id recipient,
        (Notifications.step s (.notify n now sub)).received id recipient = s.received id recipient :=
      fun id recipient => by rw [State.received, State.received, htried]
    refine ⟨hs.toNumbered.step _, fun it hit recipient => ?_, fun id recipient => ?_⟩
    · rw [hreceived]
      rcases houtbox with ⟨houtbox, -⟩ | ⟨houtbox, -⟩
      · exact hs.unsent it (houtbox ▸ hit) recipient
      · rw [houtbox] at hit
        rcases List.mem_append.mp hit with hit | hit
        · exact hs.unsent it hit recipient
        · rw [List.mem_singleton.mp hit]
          exact hs.received_nextId recipient
    · rw [hreceived]
      exact hs.once id recipient
  | deliver now posts => exact hs.deliver hundivided
  | configure c => exact ⟨hs.toNumbered.step (.configure c), hs.unsent, hs.once⟩

/-! ## Runs -/

/-- The steps of a steady run serve the recipients of the rows that leave, and the steps of an
undivided run send no row to a recipient twice. -/
theorem run_served_and_oncePer (c : Config) (acts : List Action) (s : State) :
    (Run step Steady (State.start c) acts s → Run step Served (State.start c) acts s) ∧
      (Run step Undivided (State.start c) acts s → Run step OncePer (State.start c) acts s) := by
  constructor
  · intro hrun
    exact hrun.mono (I := Counted) (fun _ _ hs hsteady => hs.step hsteady)
      (fun _ act hs _ => hs.toServed act) (counted_start c)
  · intro hrun
    exact hrun.mono (I := Unsent) (fun _ _ hs hundivided => hs.step hundivided)
      (fun _ _ hs hundivided => (hs.step hundivided).once) (unsent_start c)

end Invariants

/-! ## A rule with two recipients -/

/-- One rule, which tells two addresses. -/
def oneRule : Config :=
  ⟨true, [], [], [⟨1, ["noc@example.com", "cto@example.com"], Filter.default⟩], []⟩

def noc : Subscriber := ⟨.rule 1, ["noc@example.com", "cto@example.com"], Filter.default⟩

/-- No mail is sent. -/
def refused : Target → ℕ → Post := fun _ _ => ⟨some "timeout", 0⟩

def firstOnly : Target → ℕ → Post := fun _ i => ⟨if i = 0 then none else some "timeout", 0⟩

/-- A notice is queued for the rule, a delivery is tried, and another one is sent. -/
def triedWith (posts : Target → ℕ → Post) : List Action :=
  [.notify deviceDown 1000 noc, .deliver 1030 posts, .deliver 1090 prompt]

/-- A notice is queued for the rule, which is deleted. -/
def dropped : State :=
  [Action.notify deviceDown 1000 noc, .configure { oneRule with rules := [] }].foldl step
    (State.start oneRule)

/-- Both mails fail, and both are sent a minute later. -/
theorem run_served_and_oncePer_refused :
    Run step Served (State.start oneRule) (triedWith refused)
        ((triedWith refused).foldl step (State.start oneRule)) ∧
      Run step OncePer (State.start oneRule) (triedWith refused)
        ((triedWith refused).foldl step (State.start oneRule)) := by
  refine ⟨(run_served_and_oncePer _ _ _).1 (Run.cons ?_ (Run.cons ?_ (Run.cons ?_ (Run.nil _)))),
    (run_served_and_oncePer _ _ _).2 (Run.cons ?_ (Run.cons ?_ (Run.cons ?_ (Run.nil _))))⟩
  · exact fun c hact => absurd hact (by simp)
  · exact fun c hact => absurd hact (by simp)
  · exact fun c hact => absurd hact (by simp)
  · exact fun now posts hact => absurd hact (by simp)
  · intro now posts hact _ it hit hdue
    obtain ⟨rfl, rfl⟩ := Action.deliver.inj hact
    exact Or.inl fun _ _ => rfl
  · intro now posts hact
    obtain ⟨rfl, rfl⟩ := Action.deliver.inj hact
    decide

/-- Where the second mail fails, the first recipient is sent the notice again; and where the rule is
deleted, the notice leaves the outbox before it was tried. -/
theorem triedWith_firstOnly_not_once :
    ¬ Run step OncePer (State.start oneRule) (triedWith firstOnly)
        ((triedWith firstOnly).foldl step (State.start oneRule)) ∧
      Leaves dropped (.deliver 1030 prompt) (item 0 deviceDown noc 1000) ∧
        (step dropped (.deliver 1030 prompt)).tried = [] := by
  refine ⟨?_, ⟨?_, ?_⟩, ?_⟩
  · intro hrun
    have htwice : ((triedWith firstOnly).foldl step (State.start oneRule)).received 0
        "noc@example.com" = 2 := by
      decide
    have hlast := hrun.tail.tail.head
    have honce : ((triedWith firstOnly).foldl step (State.start oneRule)).received 0
      "noc@example.com" ≤ 1 := hlast 0 "noc@example.com"
    rw [htwice] at honce
    exact absurd honce (by decide)
  · decide
  · decide
  · decide

end SentinelNet.Notifications
