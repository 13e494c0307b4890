import SentinelNet.Lib.Calendar
import SentinelNet.Lib.Regex

/-!
# The times of syslog messages

A BSD message has a month, a day and a time, but no year and no zone.  The parser takes the year in
which it reads the message and the zone of the server.  So a message that was sent in another year
gets a time that is off by almost a year, and one that was sent in an hour that the clocks showed
twice gets the first of the two.

* `extractTs_bsd`: what is read from such a message.
* `parsedTs_eq_iff`: when that is the instant at which it was sent.
* `december_read_in_january`: a message whose time is off by a year.
-/

namespace SentinelNet.SyslogTime

open PyText Regex Re Calendar

/-! ## The parser -/

def rfc5424Re : Re :=
  seq (group "1" (chr Char.isDigit)) (seq spaces1 (seq (group "2" (many (!isSpace ·) 1 none))
    (seq spaces1 (seq (group "3" (many (!isSpace ·) 1 none)) spaces1))))

def digits2 (name : String) : Re := group name (many Char.isDigit 2 (some 2))

def bsdTsRe : Re :=
  seq (group "1" (seq (chr Char.isUpper) (many Char.isLower 2 (some 2)))) (seq spaces1
    (seq (group "2" (many Char.isDigit 1 (some 2))) (seq spaces1
      (seq (digits2 "3") (seq (lit [':']) (seq (digits2 "4") (seq (lit [':'])
        (seq (digits2 "5") spaces1))))))))

/-- The keys of `_MONTHS`. -/
def months : List String :=
  ["Jan", "Feb", "Mar", "Apr", "May", "Jun", "Jul", "Aug", "Sep", "Oct", "Nov", "Dec"]

def monthNumber (name : List Char) : Option ℕ :=
  (months.findIdx? fun m => m.toList == name).map (· + 1)

def clock (z : Zone) (u : ℤ) : DateTime := DateTime.ofSeconds (z.wall u)

/-- `m.group(2).replace("Z", "+00:00")`. -/
def isoText (cs : List Char) : List Char :=
  cs.flatMap fun c => if c = 'Z' then "+00:00".toList else [c]

/-- The part of `_extract_ts` for RFC 5424, with the instant that `fromisoformat` reads. -/
def extractIso (iso : List Char → Option ℤ) (text : List Char) : Option ℤ :=
  (matchStart rfc5424Re text).bind fun m =>
    if capture m "1" = ['1'] then iso (isoText (capture m "2")) else none

/-- The part of `_extract_ts` for RFC 3164. -/
def extractBsd (z : Zone) (now : ℤ) (text : List Char) : Option ℤ :=
  (matchStart bsdTsRe text).bind fun m =>
    (monthNumber (capture m "1")).bind fun month =>
      (DateTime.make? (clock z now).year month (ofDigits (capture m "2"))
        (ofDigits (capture m "3")) (ofDigits (capture m "4")) (ofDigits (capture m "5"))).map
          fun dt => z.mktime dt.seconds

def extractTs (z : Zone) (iso : List Char → Option ℤ) (now : ℤ) (text : List Char) : Option ℤ :=
  (extractIso iso text).or (extractBsd z now text)

/-- The `ts` that `_parse` gives a message. -/
def parsedTs (z : Zone) (iso : List Char → Option ℤ) (now : ℤ) (data : List Char) : ℤ :=
  (extractTs z iso now (stripChars data)).getD now

/-! ## The messages -/

/-- A number below a hundred in two digits. -/
def twoDigits (n : ℕ) : List Char := [Nat.digitChar (n / 10), Nat.digitChar (n % 10)]

/-- A BSD message that shows a time, with the blanks and the digits of the day as the device writes
them, and some text behind the time. -/
structure BsdMessage (time : DateTime) where
  gap : List Char
  dayText : List Char
  gap' : List Char
  space : Char
  body : List Char
  hgap : gap ≠ [] ∧ ∀ c ∈ gap, isSpace c = true
  hday : (∀ c ∈ dayText, c.isDigit = true) ∧ 1 ≤ dayText.length ∧ dayText.length ≤ 2
  hvalue : ofDigits dayText = time.day
  hgap' : gap' ≠ [] ∧ ∀ c ∈ gap', isSpace c = true
  hspace : isSpace space = true
  hbody : ∃ c ∈ body, isSpace c = false

namespace BsdMessage

variable {time : DateTime} (m : BsdMessage time)

/-- The time of the day, with the blank behind it. -/
def clockText : List Char :=
  twoDigits time.hour ++ ':' ::
    (twoDigits time.minute ++ ':' :: (twoDigits time.second ++ [m.space]))

/-- The message up to its body. -/
def header : List Char :=
  ((months[time.month - 1]?).getD "").toList ++ (m.gap ++ (m.dayText ++ (m.gap' ++ m.clockText)))

def text : List Char := m.header ++ m.body

end BsdMessage

/-! ## Reading a message -/

theorem isDigit_digitChar {d : ℕ} (h : d < 10) : (Nat.digitChar d).isDigit = true := by
  interval_cases d <;> rfl

variable {c : Char}

theorem isDigit_of_mem_twoDigits {n : ℕ} (h : n < 100) (hc : c ∈ twoDigits n) :
    c.isDigit = true := by
  unfold twoDigits at hc
  rw [List.mem_cons, List.mem_singleton] at hc
  rcases hc with rfl | rfl
  · exact isDigit_digitChar (by omega)
  · exact isDigit_digitChar (by omega)

theorem ofDigits_twoDigits {n : ℕ} (h : n < 100) : ofDigits (twoDigits n) = n := by
  have hall : ∀ n < 100, ofDigits (twoDigits n) = n := by decide
  exact hall n h

theorem isSpace_of_isUpper (h : c.isUpper) : isSpace c = false := by
  simp only [Char.isUpper, decide_eq_true_eq] at h
  have hlo : 65 ≤ c.toNat := UInt32.le_iff_toNat_le.mp h.1
  have hhi : c.toNat ≤ 90 := UInt32.le_iff_toNat_le.mp h.2
  exact isSpace_of_between (by omega) (by omega)

theorem isSpace_of_isLower (h : c.isLower) : isSpace c = false := by
  simp only [Char.isLower, Bool.and_eq_true, decide_eq_true_eq] at h
  have hlo : 97 ≤ c.toNat := UInt32.le_iff_toNat_le.mp h.1
  have hhi : c.toNat ≤ 122 := UInt32.le_iff_toNat_le.mp h.2
  exact isSpace_of_between (by omega) (by omega)

theorem not_isDigit_of_isUpper (h : c.isUpper) : c.isDigit = false := by
  simp only [Char.isUpper, decide_eq_true_eq] at h
  have hlo : 65 ≤ c.toNat := UInt32.le_iff_toNat_le.mp h.1
  rw [Char.isDigit, Bool.and_eq_false_iff, decide_eq_false_iff_not, decide_eq_false_iff_not]
  refine .inr fun hhi => ?_
  have hle : c.toNat ≤ 57 := UInt32.le_iff_toNat_le.mp hhi
  omega

theorem rstripChars_ne_nil {l : List Char} (h : ∃ c ∈ l, isSpace c = false) :
    rstripChars l ≠ [] := by
  obtain ⟨c, hc, hspace⟩ := h
  intro hnil
  have hall := List.rdropWhile_eq_nil_iff.mp hnil c hc
  rw [hspace] at hall
  cases hall

theorem rstripChars_append_of_mem {u v : List Char} (h : ∃ c ∈ v, isSpace c = false) :
    rstripChars (u ++ v) = u ++ rstripChars v := by
  have hne : (v.reverse.dropWhile isSpace).isEmpty = false := by
    rw [List.isEmpty_eq_false_iff]
    intro hnil
    exact rstripChars_ne_nil h (congrArg List.reverse hnil)
  unfold rstripChars List.rdropWhile
  rw [List.reverse_append, List.dropWhile_append, hne]
  simp

theorem first_digits2 (name : String) {n : ℕ} (h : n < 100) {s : List Char}
    (hs : ∀ c ∈ s.head?, c.isDigit = false) :
    first (digits2 name) (twoDigits n ++ s) = some ([(name, twoDigits n)], s) :=
  first_group (first_many (fun _ hc => isDigit_of_mem_twoDigits h hc) hs le_rfl
    fun _ hk => (Option.some.inj hk).le) rfl

theorem exists_first_spaces1 (h : isSpace c) (s : List Char) :
    ∃ s', first spaces1 (c :: s) = some ([], s') := by
  refine ⟨(c :: s).dropWhile isSpace, ?_⟩
  have hlen : 1 ≤ ((c :: s).takeWhile isSpace).length := by
    rw [List.takeWhile_cons_of_pos h]
    exact Nat.succ_pos _
  have htake : ∀ d ∈ (c :: s).takeWhile isSpace, isSpace d = true := fun d hd =>
    List.mem_takeWhile_imp hd
  have hdrop : ∀ d ∈ ((c :: s).dropWhile isSpace).head?, isSpace d = false := by
    intro d hd
    have hnot := List.head?_dropWhile_not isSpace (c :: s)
    rw [hd] at hnot
    simpa using hnot
  have hfirst := first_many htake hdrop hlen (fun n (hn : n ∈ none) => nomatch hn)
  rwa [List.takeWhile_append_dropWhile] at hfirst

theorem month_name {n : ℕ} (h : 1 ≤ n ∧ n ≤ 12) : ∃ a b c,
    ((months[n - 1]?).getD "").toList = [a, b, c] ∧ a.isUpper = true ∧ b.isLower = true ∧
      c.isLower = true ∧ monthNumber [a, b, c] = some n := by
  obtain ⟨hlo, hhi⟩ := h
  interval_cases n
  all_goals exact ⟨_, _, _, rfl, by decide, by decide, by decide, by decide⟩

namespace BsdMessage

variable {time : DateTime} (m : BsdMessage time)

theorem not_isDigit_of_isSpace {c : Char} (h : isSpace c) : c.isDigit = false := by
  by_contra hd
  rw [Bool.not_eq_false] at hd
  exact absurd (isSpace_of_isDigit hd) (by rw [h]; decide)

theorem not_isLower_of_isSpace {c : Char} (h : isSpace c) : c.isLower = false := by
  by_contra hd
  rw [Bool.not_eq_false] at hd
  exact absurd (isSpace_of_isLower hd) (by rw [h]; decide)

theorem text_eq {name : List Char} (hname : ((months[time.month - 1]?).getD "").toList = name) :
    m.text = name ++ (m.gap ++ (m.dayText ++ (m.gap' ++ (twoDigits time.hour ++ ':' ::
      (twoDigits time.minute ++ ':' :: (twoDigits time.second ++ m.space :: m.body)))))) := by
  unfold text header clockText
  rw [hname]
  simp only [List.append_assoc, List.cons_append, List.nil_append]

theorem head?_spaces {gap s : List Char} (h : gap ≠ [] ∧ ∀ c ∈ gap, isSpace c = true) :
    ∀ c ∈ (gap ++ s).head?, isSpace c = true := by
  rw [List.head?_append_of_ne_nil _ h.1]
  exact fun c hc => h.2 c (List.mem_of_mem_head? hc)

theorem head?_digits {t s : List Char} (h : ∀ c ∈ t, c.isDigit = true) (hne : t ≠ []) :
    ∀ c ∈ (t ++ s).head?, isSpace c = false := by
  rw [List.head?_append_of_ne_nil _ hne]
  exact fun c hc => isSpace_of_isDigit (h c (List.mem_of_mem_head? hc))

theorem first_spaces {gap s : List Char} (h : gap ≠ [] ∧ ∀ c ∈ gap, isSpace c = true)
    (hs : ∀ c ∈ s.head?, isSpace c = false) : first spaces1 (gap ++ s) = some ([], s) :=
  first_many h.2 hs (List.length_pos_iff.mpr h.1) fun _ hn => nomatch hn

theorem matchStart_bsdTsRe : ∃ g, matchStart bsdTsRe m.text = some g ∧
    monthNumber (capture g "1") = some time.month ∧ ofDigits (capture g "2") = time.day ∧
      ofDigits (capture g "3") = time.hour ∧ ofDigits (capture g "4") = time.minute ∧
        ofDigits (capture g "5") = time.second := by
  obtain ⟨a, b, c, hname, ha, hb, hc, hnumber⟩ := month_name time.hmonth
  obtain ⟨rest, hspaces⟩ := exists_first_spaces1 m.hspace m.body
  have hhour : time.hour < 100 := time.hhour.trans (by decide)
  have hminute : time.minute < 100 := time.hminute.trans (by decide)
  have hsecond : time.second < 100 := time.hsecond.trans (by decide)
  have hcolon : ∀ s : List Char, ∀ c ∈ (':' :: s).head?, c.isDigit = false := by
    intro s c hc
    rw [← Option.some.inj hc]
    rfl
  have hblank : ∀ c ∈ (m.space :: m.body).head?, c.isDigit = false := by
    intro c hc
    rw [← Option.some.inj hc]
    exact not_isDigit_of_isSpace m.hspace
  have hclock := first_seq (first_digits2 "5" hsecond hblank) hspaces
  have hclock := first_seq (first_digits2 "4" hminute (hcolon _))
    (first_seq (first_lit [':'] _) hclock)
  have hclock := first_seq (first_digits2 "3" hhour (hcolon _))
    (first_seq (first_lit [':'] _) hclock)
  have hgap' := first_seq (first_spaces m.hgap' (head?_digits
    (fun _ hc => isDigit_of_mem_twoDigits hhour hc) (List.cons_ne_nil _ _))) hclock
  have hdayHead : ∀ c ∈ (m.gap' ++ (twoDigits time.hour ++ ':' ::
      (twoDigits time.minute ++ ':' :: (twoDigits time.second ++ m.space :: m.body)))).head?,
      c.isDigit = false := fun c hc => not_isDigit_of_isSpace (head?_spaces m.hgap' c hc)
  have htake : first (group "2" (many Char.isDigit 1 (some 2))) _ =
      some ([("2", m.dayText)], _) :=
    first_group (first_many m.hday.1 hdayHead m.hday.2.1
      fun n hn => Option.some.inj hn ▸ m.hday.2.2) rfl
  have hdays := first_seq htake hgap'
  have hne : m.dayText ≠ [] := List.length_pos_iff.mp m.hday.2.1
  have hgap := first_seq (first_spaces m.hgap (head?_digits m.hday.1 hne)) hdays
  have hletters : ∀ d ∈ [b, c], d.isLower = true := by
    intro d hd
    rcases List.mem_pair.mp hd with rfl | rfl
    · exact hb
    · exact hc
  have hnameHead : ∀ d ∈ (m.gap ++ (m.dayText ++ (m.gap' ++ (twoDigits time.hour ++ ':' ::
      (twoDigits time.minute ++ ':' :: (twoDigits time.second ++ m.space :: m.body)))))).head?,
      d.isLower = false := fun d hd => not_isLower_of_isSpace (head?_spaces m.hgap d hd)
  have hword : first (group "1" (seq (chr Char.isUpper) (many Char.isLower 2 (some 2)))) _ =
      some ([("1", [a, b, c])], _) :=
    first_group (first_seq (first_chr ha _) (first_many hletters hnameHead le_rfl
      fun n hn => Option.some.inj hn ▸ le_rfl)) rfl
  have hmatch := matchStart_of_first (first_seq hword hgap)
  refine ⟨_, (congrArg (matchStart bsdTsRe) (m.text_eq hname)).trans hmatch, hnumber, m.hvalue,
    ?_, ?_, ?_⟩
  · exact ofDigits_twoDigits hhour
  · exact ofDigits_twoDigits hminute
  · exact ofDigits_twoDigits hsecond

/-- A message without the blanks behind it. -/
def stripped : BsdMessage time :=
  { m with
    body := rstripChars m.body
    hbody := by
      have hne := rstripChars_ne_nil m.hbody
      have hlast : ¬ isSpace ((rstripChars m.body).getLast hne) = true :=
        List.rdropWhile_last_not isSpace m.body hne
      exact ⟨_, List.getLast_mem hne, Bool.not_eq_true _ ▸ hlast⟩ }

theorem stripChars_text : stripChars m.text = m.stripped.text := by
  obtain ⟨a, b, c, hname, ha, -⟩ := month_name time.hmonth
  have hhead : m.text.dropWhile isSpace = m.text := by
    rw [m.text_eq hname]
    exact List.dropWhile_cons_of_neg (by rw [isSpace_of_isUpper ha]; decide)
  rw [stripChars, hhead]
  exact rstripChars_append_of_mem m.hbody

/-- What is read from a BSD message. -/
theorem extractTs_bsd (z : Zone) (iso : List Char → Option ℤ) (now : ℤ) :
    extractTs z iso now m.text = (DateTime.make? (clock z now).year time.month time.day time.hour
      time.minute time.second).map fun dt => z.mktime dt.seconds := by
  obtain ⟨a, b, c, hname, ha, -⟩ := month_name time.hmonth
  obtain ⟨g, hmatch, hmonth, hday, hhour, hminute, hsecond⟩ := m.matchStart_bsdTsRe
  have hiso : extractIso iso m.text = none := by
    have hnone : matchStart rfc5424Re m.text = none := by
      refine matchStart_eq_none (run_seq_eq_nil (run_group_eq_nil (run_chr_eq_nil ?_)))
      rw [m.text_eq hname]
      intro d hd
      rw [← Option.some.inj hd]
      exact not_isDigit_of_isUpper ha
    rw [extractIso, hnone, Option.bind_none]
  rw [extractTs, hiso, Option.none_or, extractBsd, hmatch, Option.bind_some, hmonth,
    Option.bind_some, hday, hhour, hminute, hsecond]

end BsdMessage

/-! ## When the time is that of the message -/

section Verdict

variable (z : Zone) (iso : List Char → Option ℤ) (now e : ℤ)

/-- The time of a message is the instant at which it was sent exactly where it was sent in the year
in which it is read, and at the first instant that shows its time. -/
theorem parsedTs_eq_iff (m : BsdMessage (clock z e)) :
    parsedTs z iso now m.text = e ↔ (clock z e).year = (clock z now).year ∧ ¬ z.Repeated e := by
  have hseconds : (clock z e).seconds = z.wall e := DateTime.seconds_ofSeconds _
  have hwall := z.wall_near e
  rw [parsedTs, m.stripChars_text, BsdMessage.extractTs_bsd]
  by_cases hyear : (clock z e).year = (clock z now).year
  · have hmake : DateTime.make? (clock z now).year (clock z e).month (clock z e).day
        (clock z e).hour (clock z e).minute (clock z e).second = some (clock z e) :=
      DateTime.make?_eq_some.mpr ⟨⟨hyear, rfl, rfl⟩, rfl, rfl, rfl⟩
    rw [hmake, Option.map_some, Option.getD_some, hseconds, z.mktime_wall_iff, and_iff_right hyear]
  · refine iff_of_false (fun heq => ?_) fun h => hyear h.1
    cases hmake : DateTime.make? (clock z now).year (clock z e).month (clock z e).day
        (clock z e).hour (clock z e).minute (clock z e).second with
    | none =>
      rw [hmake, Option.map_none, Option.getD_none] at heq
      exact hyear (congrArg (fun u => (clock z u).year) heq.symm)
    | some d =>
      rw [hmake, Option.map_some, Option.getD_some] at heq
      obtain ⟨⟨hy, hmonth, hday⟩, hhour, hminute, hsecond⟩ := DateTime.make?_eq_some.mp hmake
      have hnear := z.mktime_near d.seconds
      rcases lt_or_gt_of_ne hyear with hlt | hgt
      · have hfar := DateTime.seconds_add_le (hy ▸ hlt) hmonth.symm hday.symm hhour.symm
          hminute.symm hsecond.symm
        omega
      · have hfar := DateTime.seconds_add_le (hy ▸ hgt) hmonth hday hhour hminute hsecond
        omega

end Verdict

/-! ## New Year -/

/-- Central European winter time. -/
def winter : Zone := .fixed 3600 (by decide)

def lastMessage : BsdMessage (clock winter 1767221998) where
  gap := [' ']
  dayText := ['3', '1']
  gap' := [' ']
  space := ' '
  body := "fw1 link down".toList
  hgap := by decide
  hday := by decide
  hvalue := by decide
  hgap' := by decide
  hspace := by decide
  hbody := ⟨'f', by decide, by decide⟩

/-- Read half a minute later, a message of the end of December gets a time at the end of the year
that has just begun. -/
theorem december_read_in_january :
    lastMessage.text = "Dec 31 23:59:58 fw1 link down".toList ∧
      (∀ iso, parsedTs winter iso 1767222030 lastMessage.text = 1767221998 + 365 * 86400) ∧
        ¬ ∀ (z : Zone) (iso : List Char → Option ℤ) (now e : ℤ) (m : BsdMessage (clock z e)),
          now ≤ e + 86400 → e ≤ now + 300 → parsedTs z iso now m.text = e := by
  have hts : ∀ iso, parsedTs winter iso 1767222030 lastMessage.text =
      1767221998 + 365 * 86400 := by
    intro iso
    rw [parsedTs, lastMessage.stripChars_text, BsdMessage.extractTs_bsd]
    decide
  refine ⟨by decide, hts, fun hall => ?_⟩
  have htrue := hall winter (fun _ => none) 1767222030 1767221998 lastMessage (by decide)
    (by decide)
  rw [hts] at htrue
  exact absurd htrue (by decide)

end SentinelNet.SyslogTime
