import Mathlib

/-!
# The calendar

Dates and times of the proleptic Gregorian calendar, and the seconds that they stand for.  A date is
built with the proof that its month and its day exist.

A time zone says how far the clocks on its walls are ahead at each instant.  An instant is found
again from the time on the wall by looking at the offsets around it; where the clocks were put back,
two instants show the same time, and the first of them is found.

* `Date.ordinal_ofOrdinal`: the date with a number has that number.
* `DateTime.seconds_ofSeconds`: the date and the time of a number of seconds have that number.
* `Zone.mktime_wall_iff`: an instant is found again exactly where no earlier one shows its time.
-/

namespace SentinelNet.Calendar

/-! ## Years -/

/-- A year has a leap day. -/
def isLeap (y : ℤ) : Bool := y % 4 = 0 ∧ (y % 100 ≠ 0 ∨ y % 400 = 0)

def leapDays (y : ℤ) : ℤ := if isLeap y then 1 else 0

theorem leapDays_bounds (y : ℤ) : 0 ≤ leapDays y ∧ leapDays y ≤ 1 := by
  unfold leapDays
  split
  · exact ⟨by decide, le_rfl⟩
  · exact ⟨le_rfl, by decide⟩

def daysBeforeYear (y : ℤ) : ℤ :=
  (y - 1) * 365 + (y - 1) / 4 - (y - 1) / 100 + (y - 1) / 400

theorem daysBeforeYear_succ (y : ℤ) :
    daysBeforeYear (y + 1) = daysBeforeYear y + 365 + leapDays y := by
  unfold daysBeforeYear leapDays isLeap
  simp only [decide_eq_true_eq]
  split
  · omega
  · omega

theorem daysBeforeYear_le {y y' : ℤ} (h : y < y') :
    daysBeforeYear y + 365 ≤ daysBeforeYear y' := by
  unfold daysBeforeYear
  omega

/-- The year of a day that is counted from the first of January of the year 1. -/
def yearOf (n : ℤ) : ℤ :=
  let n100 := n % 146097 / 36524
  let n4 := n % 146097 % 36524 / 1461
  let n1 := n % 146097 % 36524 % 1461 / 365
  let year := n / 146097 * 400 + 1 + n100 * 100 + n4 * 4 + n1
  if n1 = 4 ∨ n100 = 4 then year - 1 else year

theorem daysBeforeYear_cycles {a b c d : ℤ} (hb : 0 ≤ b ∧ b ≤ 3) (hc : 0 ≤ c ∧ c ≤ 24)
    (hd : 0 ≤ d ∧ d ≤ 3) : daysBeforeYear (a * 400 + b * 100 + c * 4 + d + 1) =
      a * 146097 + b * 36524 + c * 1461 + d * 365 := by
  have h4 : (a * 400 + b * 100 + c * 4 + d) / 4 = a * 100 + b * 25 + c := by omega
  have h100 : (a * 400 + b * 100 + c * 4 + d) / 100 = a * 4 + b := by omega
  have h400 : (a * 400 + b * 100 + c * 4 + d) / 400 = a := by omega
  rw [daysBeforeYear, Int.add_sub_cancel, h4, h100, h400]
  ring

/-- A day is not before its year, and before the next one. -/
theorem yearOf_spec (n : ℤ) :
    daysBeforeYear (yearOf n) ≤ n ∧ n < daysBeforeYear (yearOf n + 1) := by
  rw [daysBeforeYear_succ]
  unfold yearOf
  dsimp only
  have hn := Int.mul_ediv_add_emod n 146097
  have hr := Int.mul_ediv_add_emod (n % 146097) 36524
  have hs := Int.mul_ediv_add_emod (n % 146097 % 36524) 1461
  have ht := Int.mul_ediv_add_emod (n % 146097 % 36524 % 1461) 365
  have hn' : 0 ≤ n % 146097 ∧ n % 146097 < 146097 := by omega
  generalize n / 146097 = a at *
  generalize n % 146097 = r at *
  have hr' : 0 ≤ r % 36524 ∧ r % 36524 < 36524 := by omega
  generalize r / 36524 = b at *
  generalize r % 36524 = s at *
  have hs' : 0 ≤ s % 1461 ∧ s % 1461 < 1461 := by omega
  generalize s / 1461 = c at *
  generalize s % 1461 = t at *
  have ht' : 0 ≤ t % 365 ∧ t % 365 < 365 := by omega
  generalize t / 365 = d at *
  generalize t % 365 = u at *
  split
  · next hlast =>
    -- The day is the last of a cycle, so the year before has a leap day.
    rcases eq_or_ne b 4 with rfl | hb
    · obtain ⟨rfl, rfl⟩ : c = 0 ∧ d = 0 := by omega
      have hyear : a * 400 + 1 + 4 * 100 + 0 * 4 + 0 - 1 = a * 400 + 3 * 100 + 24 * 4 + 3 + 1 := by
        omega
      have hleap : leapDays (a * 400 + 3 * 100 + 24 * 4 + 3 + 1) = 1 := by
        unfold leapDays isLeap
        rw [if_pos (decide_eq_true (by omega))]
      rw [hyear, hleap, daysBeforeYear_cycles (by decide) (by decide) (by decide)]
      omega
    · obtain rfl : d = 4 := hlast.resolve_right hb
      have hyear : a * 400 + 1 + b * 100 + c * 4 + 4 - 1 = a * 400 + b * 100 + c * 4 + 3 + 1 := by
        omega
      have hleap : leapDays (a * 400 + b * 100 + c * 4 + 3 + 1) = 1 := by
        unfold leapDays isLeap
        rw [if_pos (decide_eq_true (by omega))]
      rw [hyear, hleap, daysBeforeYear_cycles (by omega) (by omega) (by decide)]
      omega
  · next hlast =>
    have hyear : a * 400 + 1 + b * 100 + c * 4 + d = a * 400 + b * 100 + c * 4 + d + 1 := by
      omega
    have hleap := leapDays_bounds (a * 400 + b * 100 + c * 4 + d + 1)
    rw [hyear, daysBeforeYear_cycles (by omega) (by omega) (by omega)]
    omega

/-! ## Months -/

def daysBeforeMonth (leap : ℤ) : ℕ → ℤ
  | 0 => 0
  | 1 => 0
  | 2 => 31
  | 3 => 59 + leap
  | 4 => 90 + leap
  | 5 => 120 + leap
  | 6 => 151 + leap
  | 7 => 181 + leap
  | 8 => 212 + leap
  | 9 => 243 + leap
  | 10 => 273 + leap
  | 11 => 304 + leap
  | 12 => 334 + leap
  | _ => 365 + leap

def daysInMonth (leap : ℤ) (m : ℕ) : ℤ := daysBeforeMonth leap (m + 1) - daysBeforeMonth leap m

def monthOf (leap n : ℤ) : ℕ := Nat.findGreatest (fun m => daysBeforeMonth leap m ≤ n) 12

theorem monthOf_spec {leap n : ℤ} (hn : 0 ≤ n) (hlast : n < 365 + leap) :
    (1 ≤ monthOf leap n ∧ monthOf leap n ≤ 12) ∧
      daysBeforeMonth leap (monthOf leap n) ≤ n ∧
        n < daysBeforeMonth leap (monthOf leap n + 1) := by
  have hjanuary : daysBeforeMonth leap 1 ≤ n := hn
  have hle : monthOf leap n ≤ 12 := Nat.findGreatest_le 12
  refine ⟨⟨Nat.le_findGreatest (by decide) hjanuary, hle⟩,
    Nat.findGreatest_spec (P := fun m => daysBeforeMonth leap m ≤ n) (by decide) hjanuary, ?_⟩
  rcases hle.lt_or_eq with hlt | heq
  · exact not_le.mp (Nat.findGreatest_is_greatest (Nat.lt_succ_self _) hlt)
  · rw [heq]
    exact hlast

theorem daysBeforeMonth_le {leap leap' : ℤ} (h : 0 ≤ leap ∧ leap ≤ 1) (h' : 0 ≤ leap' ∧ leap' ≤ 1)
    (m : ℕ) : daysBeforeMonth leap m ≤ daysBeforeMonth leap' m + 1 := by
  unfold daysBeforeMonth
  split
  all_goals omega

/-! ## Dates -/

/-- A date, of which the month and the day exist. -/
@[ext]
structure Date where
  year : ℤ
  month : ℕ
  day : ℕ
  hmonth : 1 ≤ month ∧ month ≤ 12
  hday : 1 ≤ day ∧ (day : ℤ) ≤ daysInMonth (leapDays year) month

namespace Date

def make? (year : ℤ) (month day : ℕ) : Option Date :=
  if h : (1 ≤ month ∧ month ≤ 12) ∧
      1 ≤ day ∧ (day : ℤ) ≤ daysInMonth (leapDays year) month then
    some ⟨year, month, day, h.1, h.2⟩
  else none

theorem make?_eq_some {year : ℤ} {month day : ℕ} {d : Date} :
    make? year month day = some d ↔ d.year = year ∧ d.month = month ∧ d.day = day := by
  unfold make?
  constructor
  · intro h
    split at h
    · rw [← Option.some.inj h]
      exact ⟨rfl, rfl, rfl⟩
    · cases h
  · rintro ⟨rfl, rfl, rfl⟩
    rw [dif_pos ⟨d.hmonth, d.hday⟩]

/-- The number of a date; the first of January of the year 1 has the number 1. -/
def ordinal (d : Date) : ℤ :=
  daysBeforeYear d.year + daysBeforeMonth (leapDays d.year) d.month + d.day

/-- The year of the date with a number. -/
def yearAt (n : ℤ) : ℤ := yearOf (n - 1)

def daysBefore (n : ℤ) : ℤ := n - 1 - daysBeforeYear (yearAt n)

/-- The month of the date with a number. -/
def monthAt (n : ℤ) : ℕ := monthOf (leapDays (yearAt n)) (daysBefore n)

theorem monthAt_spec (n : ℤ) : (1 ≤ monthAt n ∧ monthAt n ≤ 12) ∧
    daysBeforeMonth (leapDays (yearAt n)) (monthAt n) ≤ daysBefore n ∧
      daysBefore n < daysBeforeMonth (leapDays (yearAt n)) (monthAt n + 1) := by
  obtain ⟨hlo, hhi⟩ : daysBeforeYear (yearAt n) ≤ n - 1 ∧
    n - 1 < daysBeforeYear (yearAt n + 1) := yearOf_spec (n - 1)
  rw [daysBeforeYear_succ] at hhi
  apply monthOf_spec
  · unfold daysBefore
    omega
  · unfold daysBefore
    omega

def ofOrdinal (n : ℤ) : Date where
  year := yearAt n
  month := monthAt n
  day := (daysBefore n - daysBeforeMonth (leapDays (yearAt n)) (monthAt n) + 1).toNat
  hmonth := (monthAt_spec n).1
  hday := by
    obtain ⟨-, hlo, hhi⟩ := monthAt_spec n
    unfold daysInMonth
    omega

/-- The date with a number has that number. -/
theorem ordinal_ofOrdinal (n : ℤ) : (ofOrdinal n).ordinal = n := by
  obtain ⟨-, hlo, -⟩ := monthAt_spec n
  have hday : daysBefore n = n - 1 - daysBeforeYear (yearAt n) := rfl
  change daysBeforeYear (yearAt n) + daysBeforeMonth (leapDays (yearAt n)) (monthAt n) +
    ((daysBefore n - daysBeforeMonth (leapDays (yearAt n)) (monthAt n) + 1).toNat : ℤ) = n
  omega

theorem ordinal_add_le {d d' : Date} (hyear : d.year < d'.year) (hmonth : d.month = d'.month)
    (hday : d.day = d'.day) : d.ordinal + 364 ≤ d'.ordinal := by
  have hyears := daysBeforeYear_le hyear
  have hmonths := daysBeforeMonth_le (leapDays_bounds d.year) (leapDays_bounds d'.year) d.month
  unfold ordinal
  rw [← hmonth, ← hday]
  omega

end Date

/-! ## Times -/

structure DateTime extends Date where
  hour : ℕ
  minute : ℕ
  second : ℕ
  hhour : hour < 24
  hminute : minute < 60
  hsecond : second < 60

namespace DateTime

/-- The date and time of six numbers, where they exist. -/
def make? (year : ℤ) (month day hour minute second : ℕ) : Option DateTime :=
  (Date.make? year month day).bind fun d =>
    if h : hour < 24 ∧ minute < 60 ∧ second < 60 then
      some ⟨d, hour, minute, second, h.1, h.2.1, h.2.2⟩
    else none

theorem make?_eq_some {year : ℤ} {month day hour minute second : ℕ} {d : DateTime} :
    make? year month day hour minute second = some d ↔
      (d.year = year ∧ d.month = month ∧ d.day = day) ∧
        d.hour = hour ∧ d.minute = minute ∧ d.second = second := by
  unfold make?
  rw [Option.bind_eq_some_iff]
  constructor
  · rintro ⟨date, hdate, h⟩
    split at h
    · rw [← Option.some.inj h]
      exact ⟨Date.make?_eq_some.mp hdate, rfl, rfl, rfl⟩
    · cases h
  · rintro ⟨hdate, rfl, rfl, rfl⟩
    refine ⟨d.toDate, Date.make?_eq_some.mpr hdate, ?_⟩
    rw [dif_pos ⟨d.hhour, d.hminute, d.hsecond⟩]

/-- The number of the first of January 1970. -/
def epoch : ℤ := 719163

def seconds (d : DateTime) : ℤ :=
  (d.ordinal - epoch) * 86400 + d.hour * 3600 + d.minute * 60 + d.second

def ofSeconds (t : ℤ) : DateTime :=
  { Date.ofOrdinal (t / 86400 + epoch) with
    hour := (t % 86400 / 3600).toNat
    minute := (t % 3600 / 60).toNat
    second := (t % 60).toNat
    hhour := by omega
    hminute := by omega
    hsecond := by omega }

/-- The date and time of a number of seconds have that number. -/
theorem seconds_ofSeconds (t : ℤ) : (ofSeconds t).seconds = t := by
  have hdate : (ofSeconds t).ordinal = t / 86400 + epoch := Date.ordinal_ofOrdinal _
  unfold seconds
  rw [hdate, Int.add_sub_cancel]
  unfold ofSeconds
  dsimp only
  omega

/-- The same time on the same day of two years is almost a year apart. -/
theorem seconds_add_le {d d' : DateTime} (hyear : d.year < d'.year) (hmonth : d.month = d'.month)
    (hday : d.day = d'.day) (hhour : d.hour = d'.hour) (hminute : d.minute = d'.minute)
    (hsecond : d.second = d'.second) : d.seconds + 364 * 86400 ≤ d'.seconds := by
  have hordinal := Date.ordinal_add_le hyear hmonth hday
  unfold seconds
  rw [hhour, hminute, hsecond]
  omega

end DateTime

/-! ## Clocks on the wall -/

/-- A time zone: the seconds that its clocks are ahead.  They are less than a day ahead or behind,
between two changes lie some days, and no change puts them back by more than a day. -/
structure Zone where
  offset : ℤ → ℤ
  bounded : ∀ u, -86400 < offset u ∧ offset u < 86400
  sparse : ∀ u, ∃ change before after, before ≤ after + 86400 ∧
    ∀ v, u - 3 * 86400 ≤ v → v ≤ u + 3 * 86400 →
      v < change ∧ offset v = before ∨ change ≤ v ∧ offset v = after

namespace Zone

def fixed (offset : ℤ) (h : -86400 < offset ∧ offset < 86400) : Zone where
  offset := fun _ => offset
  bounded := fun _ => h
  sparse := fun u => ⟨u, offset, offset, by omega, fun v _ _ => by omega⟩

variable (z : Zone)

/-- The time on the wall, in seconds. -/
def wall (u : ℤ) : ℤ := u + z.offset u

/-- `_mktime`: the instant of a time on the wall. -/
def mktime (t : ℤ) : ℤ :=
  let a := z.wall t - t
  let u1 := t - a
  let t1 := z.wall u1
  let b := if t1 = t then z.wall (u1 - 86400) - (u1 - 86400) else t1 - u1
  if t1 = t ∧ a = b then u1
  else
    let u2 := t - b
    if z.wall u2 = t then u2
    else if t1 = t then u1
    else max u1 u2

/-- An instant shows a time that an earlier one has shown. -/
def Repeated (e : ℤ) : Prop := ∃ e' < e, z.wall e' = z.wall e

theorem wall_near (u : ℤ) : u - 86400 < z.wall u ∧ z.wall u < u + 86400 := by
  have h := z.bounded u
  unfold wall
  omega

/-- What the search finds: the first guess, the instant by the offset a day before it, or the later
of two guesses where no instant shows the time. -/
theorem mktime_cases (t : ℤ) :
    z.offset (t - z.offset t) = z.offset t ∧
        (z.offset (t - z.offset t - 86400) = z.offset t ∨
          z.wall (t - z.offset (t - z.offset t - 86400)) ≠ t) ∧
        z.mktime t = t - z.offset t ∨
      z.offset (t - z.offset t) = z.offset t ∧
        z.wall (t - z.offset (t - z.offset t - 86400)) = t ∧
        z.mktime t = t - z.offset (t - z.offset t - 86400) ∨
      z.offset (t - z.offset t) ≠ z.offset t ∧
        z.wall (t - z.offset (t - z.offset t)) = t ∧
        z.mktime t = t - z.offset (t - z.offset t) ∨
      z.offset (t - z.offset t) ≠ z.offset t ∧
        z.wall (t - z.offset (t - z.offset t)) ≠ t ∧
        z.mktime t = max (t - z.offset t) (t - z.offset (t - z.offset t)) := by
  have hb : ∀ u, z.wall u - u = z.offset u := fun u => add_sub_cancel_left ..
  have hfirst : z.wall (t - z.offset t) = t ↔ z.offset (t - z.offset t) = z.offset t := by
    unfold wall
    omega
  unfold mktime
  simp only [hb, hfirst]
  by_cases hsame : z.offset (t - z.offset t) = z.offset t
  · simp only [hsame, if_true, true_and]
    by_cases hday : z.offset t = z.offset (t - z.offset t - 86400)
    · rw [if_pos hday]
      exact .inl ⟨.inl hday.symm, rfl⟩
    · rw [if_neg hday]
      split
      · next hsecond => exact .inr (.inl ⟨hsecond, rfl⟩)
      · next hsecond => exact .inl ⟨.inr hsecond, rfl⟩
  · simp only [hsame, if_false, false_and]
    split
    · next hsecond => exact .inr (.inr (.inl ⟨hsame, hsecond, rfl⟩))
    · next hsecond => exact .inr (.inr (.inr ⟨hsame, hsecond, rfl⟩))

/-- The instant that is found is less than a day from the time. -/
theorem mktime_near (t : ℤ) : t - 86400 < z.mktime t ∧ z.mktime t < t + 86400 := by
  have h0 := z.bounded t
  have h1 := z.bounded (t - z.offset t)
  have h2 := z.bounded (t - z.offset t - 86400)
  rcases z.mktime_cases t with ⟨-, -, h⟩ | ⟨-, -, h⟩ | ⟨-, -, h⟩ | ⟨-, -, h⟩
  all_goals omega

theorem mktime_first {e t : ℤ} (h : z.wall e = t) : z.wall (z.mktime t) = t ∧ z.mktime t ≤ e := by
  obtain ⟨change, before, after, hback, hoffset⟩ := z.sparse e
  have hnear := z.bounded e
  have he := hoffset e (by omega) (by omega)
  unfold wall at h
  have h0 := z.bounded t
  have h1 := z.bounded (t - z.offset t)
  have h2 := z.bounded (t - z.offset t - 86400)
  have h0' := hoffset t (by omega) (by omega)
  have h1' := hoffset (t - z.offset t) (by omega) (by omega)
  have h2' := hoffset (t - z.offset t - 86400) (by omega) (by omega)
  have hu := hoffset (t - z.offset (t - z.offset t)) (by omega) (by omega)
  have hv := hoffset (t - z.offset (t - z.offset t - 86400)) (by omega) (by omega)
  rcases z.mktime_cases t with ⟨ha, hb, h⟩ | ⟨ha, hb, h⟩ | ⟨ha, hb, h⟩ | ⟨ha, hb, h⟩
  · rw [h]
    unfold wall at hb ⊢
    omega
  · rw [h]
    unfold wall at hb ⊢
    omega
  · rw [h]
    unfold wall at hb ⊢
    omega
  · unfold wall at hb
    omega

/-- An instant is found again from its time exactly where no earlier one shows that time. -/
theorem mktime_wall_iff (e : ℤ) : z.mktime (z.wall e) = e ↔ ¬ z.Repeated e := by
  obtain ⟨hwall, hle⟩ := z.mktime_first (rfl : z.wall e = z.wall e)
  constructor
  · rintro hfound ⟨e', hlt, heq⟩
    have hle' := (z.mktime_first heq).2
    rw [hfound] at hle'
    exact absurd hlt (not_lt.mpr hle')
  · intro hfirst
    rcases hle.lt_or_eq with hlt | heq
    · exact absurd ⟨_, hlt, hwall⟩ hfirst
    · exact heq

end Zone

end SentinelNet.Calendar
