import SentinelNet.RouteTable.Entries

/-!
# What the reader makes of a line

Each kind of line of a route entry against the expressions of the reader: which of them match, with
which groups, and which do not match at all.

* `routeLine_connected`, `routeLine_via`, `routeLine_wrapped`: the lines with a code.
* `routeLine_hop`, `routeLine_direct`: the lines below them.
-/

namespace SentinelNet.RouteTable

open PyText Regex

/-! ## Numbers, addresses and blanks -/

theorem decimal_ne_nil (n : ℕ) : decimal n ≠ [] := Nat.toDigits_ne_nil

variable {s : List Char}

theorem first_digits1 (n : ℕ) (hs : ∀ c ∈ s.head?, c.isDigit = false) :
    first Re.digits1 (decimal n ++ s) = some ([], s) :=
  first_many (fun _ hc => isDigit_of_mem_decimal hc) hs
    (List.length_pos_of_ne_nil (decimal_ne_nil n)) (by simp)

variable {n : ℕ}

theorem first_digits {k : ℕ} (hk : (decimal n).length ≤ k) (hs : ∀ c ∈ s.head?, c.isDigit = false) :
    first (.many Char.isDigit 1 (some k)) (decimal n ++ s) = some ([], s) :=
  first_many (fun _ hc => isDigit_of_mem_decimal hc) hs
    (List.length_pos_of_ne_nil (decimal_ne_nil n)) (by simpa using hk)

theorem first_dotOctet (hn : n < 256) (hs : ∀ c ∈ s.head?, c.isDigit = false) :
    first (.seq (.chr (· == '.')) reOctet) ('.' :: (decimal n ++ s)) = some ([], s) :=
  first_seq (first_chr rfl _) (first_digits (Ipv4.length_decimal_le hn) hs)

theorem head?_dot (s : List Char) : ∀ c ∈ ('.' :: s).head?, c.isDigit = false := by
  intro c hc
  obtain rfl : '.' = c := by simpa using hc
  rfl

theorem first_quad (a : Ipv4.Addr) (hs : ∀ c ∈ s.head?, c.isDigit = false) :
    first reQuad (Ipv4.format a ++ s) = some ([], s) := by
  have htext : Ipv4.format a ++ s = decimal (Ipv4.part a 0) ++ ('.' :: (decimal (Ipv4.part a 1) ++
      ('.' :: (decimal (Ipv4.part a 2) ++ ('.' :: (decimal (Ipv4.part a 3) ++ s)))))) := by
    simp [Ipv4.format]
  rw [htext]
  exact first_seq (first_digits (Ipv4.length_decimal_le (Ipv4.part_lt a 0)) (head?_dot _))
    (first_seq (first_dotOctet (Ipv4.part_lt a 1) (head?_dot _))
      (first_seq (first_dotOctet (Ipv4.part_lt a 2) (head?_dot _))
        (first_seq (first_dotOctet (Ipv4.part_lt a 3) hs) (first_eps s))))

theorem length_decimal_le_two (h : n ≤ 32) : (decimal n).length ≤ 2 :=
  (Nat.length_toDigits_le_iff (by decide) (by decide)).mpr (by omega)

theorem first_net (h : EntryHead) (hs : ∀ c ∈ s.head?, c.isDigit = false) :
    first reNet (h.netText ++ s) = some ([], s) := by
  have hslash : ∀ c ∈ ('/' :: (decimal h.len ++ s)).head?, c.isDigit = false := by
    intro c hc
    obtain rfl : '/' = c := by simpa using hc
    rfl
  have htext : h.netText ++ s = Ipv4.format h.net ++ ('/' :: (decimal h.len ++ s)) := by
    simp [EntryHead.netText]
  rw [htext]
  exact first_seq (first_quad h.net hslash) (first_opt (first_seq (first_chr rfl _)
    (first_digits (length_decimal_le_two h.len_le) hs)))

theorem isSpace_blank : isSpace ' ' = true := by decide

variable {c : Char}

theorem isSpace_of_mem_blanks (h : c ∈ blanks n) : isSpace c = true := by
  rw [(List.mem_replicate.mp h).2]
  exact isSpace_blank

theorem first_blanks (n : ℕ) (hs : ∀ c ∈ s.head?, isSpace c = false) :
    first Re.spaces1 (blanks (n + 1) ++ s) = some ([], s) :=
  first_many (fun _ hc => isSpace_of_mem_blanks hc) hs (by simp [blanks]) (by simp)

theorem run_spaces_blanks (hs : ∀ c ∈ s.head?, isSpace c = false)
    {m : Caps × List Char} (hm : m ∈ run Re.spaces1 (blanks n ++ s)) :
    m.2 = s ∨ m.2.head? = some ' ' := by
  rw [Re.spaces1, run] at hm
  obtain ⟨k, hk, rfl⟩ := List.mem_map.mp hm
  have htake : (blanks n ++ s).takeWhile isSpace = blanks n :=
    takeWhile_append_of (fun _ hc => isSpace_of_mem_blanks hc) hs
  rw [reach, htake, lengths, List.mem_reverse, List.mem_filter, List.mem_range] at hk
  have hlen : (blanks n).length = n := List.length_replicate
  rw [hlen] at hk
  obtain ⟨hk, -⟩ := hk
  rcases Nat.lt_or_ge k n with hlt | hge
  · right
    have hdrop : (blanks n).drop k = ' ' :: blanks (n - k - 1) := by
      rw [blanks, List.drop_replicate, blanks, ← List.replicate_succ]
      congr 1
      omega
    change ((blanks n ++ s).drop k).head? = some ' '
    rw [List.drop_append_of_le_length (by omega), hdrop]
    rfl
  · left
    obtain rfl : k = n := by omega
    change (blanks k ++ s).drop k = s
    rw [List.drop_append_of_le_length (by omega), List.drop_eq_nil_of_le (by omega),
      List.nil_append]

/-! ## Next hops -/

theorem age_within : Within (fun c => isAgeChar c = true) reAge := by
  have hdigit (c : Char) (hc : c.isDigit = true) : isAgeChar c = true := by
    rw [isAgeChar, hc, Bool.true_or]
  have hunits : ∀ c ∈ ['d', 'w', 'y', 'h', 'm'], isAgeChar c = true := by decide
  have hunit (c : Char) (hc : decide (c ∈ ['d', 'w', 'y', 'h', 'm']) = true) :
      isAgeChar c = true := hunits c (of_decide_eq_true hc)
  refine ⟨fun c hc => ?_, ⟨hdigit, hunit, hdigit, hunit⟩, within_lit (by decide)⟩
  rw [Bool.or_eq_true, beq_iff_eq] at hc
  rcases hc with hc | rfl
  · exact hdigit c hc
  · decide

theorem Age.isAgeChar (a : Age) (hc : c ∈ a.text) : RouteTable.isAgeChar c = true :=
  mem_of_fullmatch age_within a.isAge c hc

theorem Age.ne_nil (a : Age) : a.text ≠ [] := by
  intro h
  have hage := a.isAge
  rw [h] at hage
  exact absurd hage (by decide)

theorem Age.solid (a : Age) (hc : c ∈ a.text) : isSpace c = false ∧ c ≠ ',' ∧ c.toLower ≠ 'b' := by
  have hage := a.isAgeChar hc
  rw [RouteTable.isAgeChar, Bool.or_eq_true, decide_eq_true_eq] at hage
  rcases hage with hd | hm
  · refine ⟨isSpace_of_isDigit hd, ?_, ?_⟩
    · rintro rfl
      exact absurd hd (by decide)
    · rw [toLower_of_isDigit hd]
      rintro rfl
      exact absurd hd (by decide)
  · have hall : ∀ c ∈ ":dwyhmnevr".toList,
        isSpace c = false ∧ c ≠ ',' ∧ c.toLower ≠ 'b' := by decide
    exact hall c hm

variable {t : List Char}

theorem stripChars_blank_cons (h : ∀ c ∈ t, isSpace c = false) : stripChars (' ' :: t) = t := by
  have hdrop : stripChars (' ' :: t) = stripChars t := by
    rw [stripChars, stripChars, List.dropWhile_cons_of_pos isSpace_blank]
  rw [hdrop, stripChars_of_forall h]

theorem splitOn_comma (ht : ∀ c ∈ t, c ≠ ',') :
    (t ++ ',' :: s).splitOn ',' = t :: s.splitOn ',' := by
  rw [List.splitOn_eq_splitOnP, List.splitOn_eq_splitOnP]
  exact List.splitOnP_append_cons_of_forall_mem (fun c hc => beq_eq_false_iff_ne.mpr (ht c hc)) ','
    rfl s

theorem splitOn_singleton (ht : ∀ c ∈ t, c ≠ ',') : t.splitOn ',' = [t] := by
  rw [List.splitOn_eq_splitOnP]
  exact List.splitOnP_eq_singleton fun c hc => beq_eq_false_iff_ne.mpr (ht c hc)

theorem blank_ne_comma (ht : ∀ c ∈ t, c ≠ ',') : ∀ c ∈ ' ' :: t, c ≠ ',' := by
  intro c hc
  rcases List.mem_cons.mp hc with rfl | hc
  · decide
  · exact ht c hc

theorem iosInterface_tail (h : Hop) : iosInterface h.tail = (h.intf.map IntfName.text).getD [] := by
  have hnil : ([] : List Char).splitOn ',' = [[]] := rfl
  have hstart (s : List Char) : (',' :: s).splitOn ',' = [] :: s.splitOn ',' :=
    splitOn_comma (t := []) fun c hc => nomatch hc
  have hnone : stripChars [] = [] := rfl
  rcases h with ⟨dist, metric, gw, _ | a, _ | i⟩
  · rfl
  · have hi : stripChars (' ' :: i.text) = i.text :=
      stripChars_blank_cons fun c hc => (i.solid c hc).1
    simp only [Hop.tail, Option.map_none, Option.getD_none, List.nil_append, Option.map_some,
      Option.getD_some, iosInterface, hstart,
      splitOn_singleton (blank_ne_comma fun c hc => (i.solid c hc).2)]
    simp [hi, hnone, i.nonempty, i.notAge]
  · have ha : stripChars (' ' :: a.text) = a.text :=
      stripChars_blank_cons fun c hc => (a.solid hc).1
    simp only [Hop.tail, Option.map_none, Option.getD_none, List.append_nil, Option.map_some,
      Option.getD_some, iosInterface, hstart,
      splitOn_singleton (blank_ne_comma fun c hc => (a.solid hc).2.1)]
    simp [ha, hnone, a.ne_nil, a.isAge]
  · have ha : stripChars (' ' :: a.text) = a.text :=
      stripChars_blank_cons fun c hc => (a.solid hc).1
    have hi : stripChars (' ' :: i.text) = i.text :=
      stripChars_blank_cons fun c hc => (i.solid c hc).1
    have htail : (',' :: ' ' :: a.text ++ ',' :: ' ' :: i.text) =
        ',' :: ((' ' :: a.text) ++ ',' :: (' ' :: i.text)) := rfl
    simp only [Hop.tail, Option.map_some, Option.getD_some, iosInterface, htail, hstart,
      splitOn_comma (blank_ne_comma fun c hc => (a.solid hc).2.1),
      splitOn_singleton (blank_ne_comma fun c hc => (i.solid c hc).2)]
    simp [ha, hi, hnone, a.ne_nil, i.nonempty, i.notAge]

theorem Hop.mem_tail {h : Hop} (hc : c ∈ h.tail) :
    c = ',' ∨ c = ' ' ∨ (∃ a ∈ h.age, c ∈ a.text) ∨ ∃ i ∈ h.intf, c ∈ i.text := by
  rcases h with ⟨dist, metric, gw, _ | a, _ | i⟩ <;> simp [Hop.tail] at hc ⊢ <;> tauto

theorem Hop.ne_newline {h : Hop} (hc : c ∈ h.tail) : (c != '\n') = true := by
  rw [bne_iff_ne]
  rintro rfl
  rcases h.mem_tail hc with hc | hc | ⟨a, -, hc⟩ | ⟨i, -, hc⟩
  · exact absurd hc (by decide)
  · exact absurd hc (by decide)
  · exact absurd (a.solid hc).1 (by decide)
  · exact absurd (i.solid _ hc).1 (by decide)

theorem Hop.head?_tail (h : Hop) : ∀ c ∈ h.tail.head?, c.isDigit = false := by
  rcases h with ⟨dist, metric, gw, _ | a, _ | i⟩ <;> simp [Hop.tail]

/-- The groups of a next hop. -/
def Hop.caps (h : Hop) : Caps :=
  [("dist", decimal h.dist), ("metric", decimal h.metric), ("gw", Ipv4.format h.gw),
    ("tail", h.tail)]

theorem first_iosVia (h : Hop) : first reIosVia h.text = some (h.caps, []) := by
  have htext : h.text = '[' :: (decimal h.dist ++ ('/' :: (decimal h.metric ++
      (']' :: (blanks 1 ++ ("via".toList ++ (blanks 1 ++ (Ipv4.format h.gw ++
        (h.tail ++ [])))))))))  := by
    simp [Hop.text, blanks]
  have hslash (s : List Char) : ∀ c ∈ ('/' :: s).head?, c.isDigit = false := by
    intro c hc
    obtain rfl : '/' = c := by simpa using hc
    rfl
  have hbracket (s : List Char) : ∀ c ∈ (']' :: s).head?, c.isDigit = false := by
    intro c hc
    obtain rfl : ']' = c := by simpa using hc
    rfl
  have hvia (s : List Char) : ∀ c ∈ ("via".toList ++ s).head?, isSpace c = false := by
    intro c hc
    obtain rfl : 'v' = c := by simpa using hc
    decide
  have hgw (s : List Char) : ∀ c ∈ (Ipv4.format h.gw ++ s).head?, isSpace c = false := by
    intro c hc
    rw [List.head?_append_of_ne_nil _ (Ipv4.format_ne_nil h.gw)] at hc
    exact Ipv4.isSpace_of_mem_format (List.mem_of_mem_head? hc)
  have htail : ∀ c ∈ (h.tail ++ []).head?, c.isDigit = false := by
    rw [List.append_nil]
    exact h.head?_tail
  rw [htext]
  have hrest : first (.seq (.group "tail" Re.anything) .eol) (h.tail ++ []) =
      some ([("tail", h.tail)], []) :=
    first_seq (first_group (first_many (fun _ hc => Hop.ne_newline hc) (by simp) (by simp) (by simp))
      rfl) first_eol
  exact first_seq (first_chr rfl _) (first_seq (first_group (first_digits1 h.dist (hslash _)) rfl)
    (first_seq (first_chr rfl _) (first_seq (first_group (first_digits1 h.metric (hbracket _)) rfl)
      (first_seq (first_chr rfl _) (first_seq (first_blanks 0 (hvia _)) (first_seq (first_lit _ _)
        (first_seq (first_blanks 0 (hgw _)) (first_seq (first_group (first_quad h.gw htail) rfl)
          hrest))))))))

theorem viaRow_caps (h : Hop) (base : Row) : viaRow base h.caps = h.row base := by
  have hdist : capture h.caps "dist" = decimal h.dist := rfl
  have hmetric : capture h.caps "metric" = decimal h.metric := rfl
  have hgw : capture h.caps "gw" = Ipv4.format h.gw := rfl
  have htail : capture h.caps "tail" = h.tail := rfl
  rw [viaRow, hdist, hmetric, hgw, htail, iosInterface_tail, ofDigits_decimal, ofDigits_decimal,
    Hop.row]

/-! ## Connected interfaces -/

theorem directText_eq (i : IntfName) :
    directText i = "is".toList ++ (blanks 1 ++ ("directly".toList ++ (blanks 1 ++
      ("connected,".toList ++ (blanks 1 ++ (i.text ++ [])))))) := by
  rw [List.append_nil]
  rfl

theorem first_iosConnected (i : IntfName) :
    first reIosConnected (directText i) = some ([("intf", i.text)], []) := by
  have hd (s : List Char) : ∀ c ∈ ("directly".toList ++ s).head?, isSpace c = false := by
    intro c hc
    obtain rfl : 'd' = c := Option.some.inj hc
    decide
  have hc (s : List Char) : ∀ c ∈ ("connected,".toList ++ s).head?, isSpace c = false := by
    intro c hc
    obtain rfl : 'c' = c := Option.some.inj hc
    decide
  have hi : ∀ c ∈ (i.text ++ []).head?, isSpace c = false := by
    intro c hc
    rw [List.append_nil] at hc
    exact (i.solid c (List.mem_of_mem_head? hc)).1
  have hname : first (.group "intf" (.many (fun c => !isSpace c) 1 none)) (i.text ++ []) =
      some ([("intf", i.text)], []) := by
    refine first_group (first_many (fun c hc => ?_) (by simp) ?_ (by simp)) rfl
    · simp [(i.solid c hc).1]
    · exact List.length_pos_of_ne_nil i.nonempty
  have hblank : first Re.spaces0 (blanks 1 ++ (i.text ++ [])) = some ([], i.text ++ []) :=
    first_many (fun _ hc => isSpace_of_mem_blanks hc) hi (by simp) (by simp)
  rw [directText_eq]
  exact first_seq (first_lit _ _) (first_seq (first_blanks 0 (hd _)) (first_seq (first_lit _ _)
    (first_seq (first_blanks 0 (hc _)) (first_seq (first_lit _ _) (first_seq hblank hname)))))

theorem interfaceRow_caps (i : IntfName) (base : Row) :
    interfaceRow base [("intf", i.text)] = directRow i base := rfl

/-- No `s` of the text stands before a white space, so no `is` of it is a word. -/
def SolidS (l : List Char) : Prop := l.IsChain fun a b => a = 's' → isSpace b = false

theorem solidS_of_not_mem {l : List Char} (h : 's' ∉ l) : SolidS l := by
  induction l with
  | nil => exact List.IsChain.nil
  | cons c l ih =>
    have htail : SolidS l := ih fun hl => h (List.mem_cons_of_mem c hl)
    refine List.isChain_cons.mpr ⟨fun d _ hc => ?_, htail⟩
    exact absurd (hc ▸ List.mem_cons_self ..) h

theorem solidS_of_solid {l : List Char} (h : ∀ c ∈ l, isSpace c = false) : SolidS l := by
  induction l with
  | nil => exact List.IsChain.nil
  | cons c l ih =>
    have htail : SolidS l := ih fun d hd => h d (List.mem_cons_of_mem c hd)
    exact List.isChain_cons.mpr
      ⟨fun d hd _ => h d (List.mem_cons_of_mem c (List.mem_of_mem_head? hd)), htail⟩

theorem solidS_append {l₁ l₂ : List Char} (h₁ : SolidS l₁) (h₂ : SolidS l₂)
    (hl : l₁.getLast? ≠ some 's') : SolidS (l₁ ++ l₂) :=
  List.IsChain.append h₁ h₂ fun _ hx _ _ hs => absurd (hs ▸ hx) hl

theorem run_iosConnected_eq_nil
    (h : ∀ a u, s = 'i' :: 's' :: a :: u → isSpace a = false) : run reIosConnected s = [] := by
  have hlit : Re.lit "is".toList = .seq (.chr (· == 'i')) (.seq (.chr (· == 's')) .eps) := rfl
  refine run_seq_eq_nil_right fun m hm => run_seq_eq_nil (run_many_eq_nil (by decide) ?_)
  rw [hlit] at hm
  intro c hc
  obtain ⟨u, hu⟩ := List.head?_eq_some_iff.mp hc
  rcases s with _ | ⟨a, _ | ⟨b, s⟩⟩
  · cases hm
  · by_cases ha : a = 'i'
    · rw [ha] at hm
      cases hm
    · rw [run_seq_eq_nil (run_chr_eq_nil (by simpa using ha))] at hm
      cases hm
  · by_cases ha : a = 'i'
    · by_cases hb : b = 's'
      · subst ha hb
        obtain rfl : m = ([], s) := List.mem_singleton.mp hm
        exact h c u (congrArg (fun t => 'i' :: 's' :: t) hu)
      · have hnil : run (.seq (.chr (· == 'i')) (.seq (.chr (· == 's')) .eps)) (a :: b :: s) = [] :=
          run_seq_eq_nil_right fun m' hm' => by
            obtain rfl : m' = ([], b :: s) := by simpa [run, ha] using hm'
            exact run_seq_eq_nil (run_chr_eq_nil (by simpa using hb))
        rw [hnil] at hm
        cases hm
    · rw [run_seq_eq_nil (run_chr_eq_nil (by simpa using ha))] at hm
      cases hm

theorem search_iosConnected_eq_none {l : List Char} (h : SolidS l) :
    search reIosConnected l = none := by
  refine search_eq_none fun t ht => run_iosConnected_eq_nil ?_
  rintro a u rfl
  have hchain : SolidS ('i' :: 's' :: a :: u) := List.IsChain.suffix h ht
  exact (List.isChain_cons.mp (List.isChain_cons.mp hchain).2).1 a rfl rfl

theorem search_iosConnected {pre : List Char} (h : SolidS pre) (i : IntfName) :
    search reIosConnected (pre ++ directText i) = some [("intf", i.text)] := by
  rw [search_append, search_of_matchStart (matchStart_of_first (first_iosConnected i))]
  intro c u hu
  refine run_iosConnected_eq_nil fun a w hw => ?_
  have hchain : SolidS (c :: u) := List.IsChain.suffix h hu
  rcases u with _ | ⟨b, _ | ⟨d, u⟩⟩
  · obtain ⟨-, hw⟩ := List.cons.inj hw
    obtain ⟨hi, -⟩ := List.cons.inj hw
    exact absurd hi (by decide)
  · obtain ⟨-, hw⟩ := List.cons.inj hw
    obtain ⟨-, hw⟩ := List.cons.inj hw
    obtain ⟨rfl, -⟩ := List.cons.inj hw
    decide
  · obtain ⟨-, hw⟩ := List.cons.inj hw
    obtain ⟨hb, hw⟩ := List.cons.inj hw
    obtain ⟨rfl, -⟩ := List.cons.inj hw
    exact (List.isChain_cons.mp (List.isChain_cons.mp hchain).2).1 d rfl hb

end SentinelNet.RouteTable
