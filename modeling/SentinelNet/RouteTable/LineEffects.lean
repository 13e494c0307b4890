import SentinelNet.RouteTable.HeadLines

/-!
# What a line does to the rows

A line of a route entry is neither empty nor a heading, and stripping leaves it as it is.  So what
it does to the rows and to the network that waits follows from the expressions that match it.

* `routeLine_below`: a line below a wrapped network.
* `routeLine_connected`, `routeLine_via`, `routeLine_wrapped`: the lines with a code.
-/

namespace SentinelNet.RouteTable

open PyText Regex

/-! ## The characters of a line -/

/-- The only white space of a text is blanks. -/
def Printed (l : List Char) : Prop := ∀ c ∈ l, isSpace c = false ∨ c = ' '

/-- A text without a `b`. -/
def NoB (l : List Char) : Prop := ∀ c ∈ l, c.toLower ≠ 'b'

/-- A text that ends with something printed. -/
def EndsSolid (l : List Char) : Prop :=
  ∃ u v, l = u ++ v ∧ v ≠ [] ∧ ∀ c ∈ v, isSpace c = false

theorem Printed.append {l₁ l₂ : List Char} (h₁ : Printed l₁) (h₂ : Printed l₂) :
    Printed (l₁ ++ l₂) := fun c hc => (List.mem_append.mp hc).elim (h₁ c) (h₂ c)

theorem NoB.append {l₁ l₂ : List Char} (h₁ : NoB l₁) (h₂ : NoB l₂) : NoB (l₁ ++ l₂) :=
  fun c hc => (List.mem_append.mp hc).elim (h₁ c) (h₂ c)

variable {l : List Char}

theorem EndsSolid.append (h : EndsSolid l) (w : List Char) : EndsSolid (w ++ l) := by
  obtain ⟨u, v, rfl, hne, hv⟩ := h
  exact ⟨w ++ u, v, (List.append_assoc ..).symm, hne, hv⟩

theorem EndsSolid.rstrip (h : EndsSolid l) : rstripChars l = l := by
  obtain ⟨u, v, rfl, hne, hv⟩ := h
  exact rstripChars_append hne hv

theorem EndsSolid.ne_nil (h : EndsSolid l) : l ≠ [] := by
  obtain ⟨u, v, rfl, hne, -⟩ := h
  exact List.append_ne_nil_of_right_ne_nil u hne

variable {c : Char}

theorem not_isLineBreak_of_not_isSpace (h : isSpace c = false) : isLineBreak c = false := by
  simp only [isSpace, Bool.or_eq_false_iff, Bool.and_eq_false_iff, beq_eq_false_iff_ne,
    decide_eq_false_iff_not] at h
  simp only [isLineBreak, Bool.or_eq_false_iff, Bool.and_eq_false_iff, beq_eq_false_iff_ne,
    decide_eq_false_iff_not]
  omega

theorem Printed.not_isLineBreak (h : Printed l) : ∀ c ∈ l, isLineBreak c = false := by
  intro c hc
  rcases h c hc with hs | rfl
  · exact not_isLineBreak_of_not_isSpace hs
  · decide

theorem Printed.ne_newline (h : Printed l) : ∀ c ∈ l, (c != '\n') = true := by
  intro c hc
  rw [bne_iff_ne]
  rintro rfl
  rcases h '\n' hc with hs | hs
  · exact absurd hs (by decide)
  · exact absurd hs (by decide)

theorem printed_of_solid (h : ∀ c ∈ l, isSpace c = false) : Printed l :=
  fun c hc => Or.inl (h c hc)

theorem printed_blanks (n : ℕ) : Printed (blanks n) :=
  fun _ hc => Or.inr (List.mem_replicate.mp hc).2

theorem noB_blanks (n : ℕ) : NoB (blanks n) := by
  intro c hc
  rw [(List.mem_replicate.mp hc).2]
  decide

theorem noB_decimal (n : ℕ) : NoB (decimal n) := by
  intro c hc
  have hd : c.isDigit = true := isDigit_of_mem_decimal hc
  rw [toLower_of_isDigit hd]
  rintro rfl
  exact absurd hd (by decide)

theorem noB_format (a : Ipv4.Addr) : NoB (Ipv4.format a) := by
  have hdot {n : ℕ} {l : List Char} (h : NoB l) : NoB (decimal n ++ '.' :: l) :=
    (noB_decimal n).append fun c hc => (List.mem_cons.mp hc).elim
      (fun hc => by rw [hc]; decide) (h c)
  rw [Ipv4.format]
  simpa only [List.append_assoc, List.cons_append] using
    hdot (hdot (hdot (noB_decimal (Ipv4.part a 3))))

theorem solid_decimal (n : ℕ) : ∀ c ∈ decimal n, isSpace c = false :=
  fun _ hc => isSpace_of_isDigit (isDigit_of_mem_decimal hc)

theorem solid_format (a : Ipv4.Addr) : ∀ c ∈ Ipv4.format a, isSpace c = false :=
  fun _ hc => Ipv4.isSpace_of_mem_format hc

theorem not_mem_s_decimal (n : ℕ) : 's' ∉ decimal n :=
  fun h => absurd (isDigit_of_mem_decimal h) (by decide)

theorem not_mem_s_blanks (n : ℕ) : 's' ∉ blanks n :=
  fun h => absurd (List.mem_replicate.mp h).2 (by decide)

theorem not_mem_s_format (a : Ipv4.Addr) : 's' ∉ Ipv4.format a := by
  simp [Ipv4.format, not_mem_s_decimal]

namespace EntryHead

section

variable (h : EntryHead)

include h

theorem solid_netText : ∀ c ∈ h.netText, isSpace c = false := by
  intro c hc
  rcases List.mem_append.mp hc with hc | hc
  · exact solid_format h.net c hc
  · rcases List.mem_cons.mp hc with rfl | hc
    · decide
    · exact solid_decimal h.len c hc

theorem noB_netText : NoB h.netText :=
  (noB_format h.net).append fun c hc => (List.mem_cons.mp hc).elim
    (fun hc => by rw [hc]; decide) (noB_decimal h.len c)

theorem not_mem_s_netText : 's' ∉ h.netText := by
  simp [netText, not_mem_s_format, not_mem_s_decimal]

/-- A property of the marks of a code, of its qualifiers and of blanks is one of all between the
code and its network. -/
theorem forall_mem_mark {P : Char → Prop} (hstar : P '*') (hblank : P ' ')
    (hqual : ∀ q ∈ qualifiers, ∀ c ∈ q, P c) : ∀ c ∈ h.mark, P c := by
  intro c hc
  rw [mark, List.append_assoc, List.mem_append, List.mem_append] at hc
  rcases hc with hc | hc | hc
  · split at hc
    · rw [List.mem_singleton.mp hc]
      exact hstar
    · cases hc
  · rcases hq : h.qual with _ | ⟨k, q⟩
    · rw [hq] at hc
      cases hc
    · rw [hq, Option.map_some, Option.getD_some, List.mem_append] at hc
      rcases hc with hc | hc
      · rw [(List.mem_replicate.mp hc).2]
        exact hblank
      · exact hqual q (h.qual_mem (k, q) hq) c hc
  · rw [(List.mem_replicate.mp hc).2]
    exact hblank

theorem printed_text : Printed h.text := by
  have hmark : Printed h.mark := h.forall_mem_mark (by decide) (by decide) (by decide)
  intro c hc
  rcases List.mem_cons.mp hc with rfl | hc
  · exact Or.inl h.code_spec.2.1
  · exact (hmark.append (printed_of_solid h.solid_netText)) c hc

theorem noB_mark : NoB h.mark :=
  h.forall_mem_mark (by decide) (by decide) (by decide)

theorem endsSolid_text : EndsSolid h.text :=
  ⟨h.code :: h.mark, h.netText, rfl, h.netText_ne_nil, h.solid_netText⟩

theorem solidS_text {t : List Char} (ht : 's' ∉ t) : SolidS (h.text ++ t) := by
  have hall : ∀ q ∈ qualifiers, (∀ c ∈ q, isSpace c = false) ∧ q.getLast? ≠ some 's' ∧ q ≠ [] := by
    decide
  have hcode : 's' ∉ h.code :: h.starText := by
    rw [List.mem_cons, not_or, starText]
    refine ⟨fun hs => h.code_spec.2.2.1 hs.symm, ?_⟩
    split <;> decide
  have hlast : (h.code :: h.starText).getLast? ≠ some 's' :=
    fun hl => hcode (List.mem_of_getLast? hl)
  have hqual : SolidS (h.code :: h.starText ++ h.qualText) ∧
      (h.code :: h.starText ++ h.qualText).getLast? ≠ some 's' := by
    rcases hq : h.qual with _ | ⟨k, q⟩
    · rw [qualText, hq, Option.map_none, Option.getD_none, List.append_nil]
      exact ⟨solidS_of_not_mem hcode, hlast⟩
    · obtain ⟨hsolid, hend, hne⟩ := hall q (h.qual_mem (k, q) hq)
      have hblank : (h.code :: h.starText ++ blanks k).getLast? ≠ some 's' := fun hl =>
        (List.mem_append.mp (List.mem_of_getLast? hl)).elim hcode (not_mem_s_blanks k)
      rw [qualText, hq, Option.map_some, Option.getD_some, ← List.append_assoc]
      refine ⟨solidS_append (solidS_append (solidS_of_not_mem hcode)
        (solidS_of_not_mem (not_mem_s_blanks k)) hlast) (solidS_of_solid hsolid) hblank, ?_⟩
      rw [List.getLast?_append_of_ne_nil _ hne]
      exact hend
  have hrest : 's' ∉ blanks (h.gap + 1) ++ (h.netText ++ t) := by
    simp [not_mem_s_blanks, h.not_mem_s_netText, ht]
  have htext : h.text ++ t =
      (h.code :: h.starText ++ h.qualText) ++ (blanks (h.gap + 1) ++ (h.netText ++ t)) := by
    rw [h.text_append, List.cons_append, List.cons_append, List.append_assoc]
  rw [htext]
  exact solidS_append hqual.1 (solidS_of_not_mem hrest) hqual.2

end

end EntryHead

/-! ## Texts of next hops -/

theorem printed_directText (i : IntfName) : Printed (directText i) := by
  have hlead : Printed "is directly connected, ".toList := by
    unfold Printed
    decide
  exact hlead.append (printed_of_solid fun c hc => (i.solid c hc).1)

theorem endsSolid_directText (i : IntfName) : EndsSolid (directText i) :=
  ⟨_, i.text, rfl, i.nonempty, fun c hc => (i.solid c hc).1⟩

namespace Hop

/-- What stands before the interface of a next hop. -/
def lead (h : Hop) : List Char :=
  '[' :: decimal h.dist ++ '/' :: decimal h.metric ++ "] via ".toList ++ Ipv4.format h.gw ++
    (h.age.map fun a => ',' :: ' ' :: a.text).getD []

theorem text_eq_lead (h : Hop) :
    h.text = h.lead ++ (h.intf.map fun i => ',' :: ' ' :: i.text).getD [] := by
  simp [text, tail, lead]

theorem printed_text (h : Hop) : Printed h.text := by
  have hvia : Printed "] via ".toList := by
    unfold Printed
    decide
  have htail : Printed h.tail := by
    intro c hc
    rcases h.mem_tail hc with rfl | rfl | ⟨a, -, hc⟩ | ⟨i, -, hc⟩
    · exact Or.inl (by decide)
    · exact Or.inr rfl
    · exact Or.inl (a.solid hc).1
    · exact Or.inl (i.solid c hc).1
  have hdist : Printed ('[' :: decimal h.dist) := fun c hc => (List.mem_cons.mp hc).elim
    (fun hc => Or.inl (by rw [hc]; decide)) fun hc => Or.inl (solid_decimal h.dist c hc)
  have hmetric : Printed ('/' :: decimal h.metric) := fun c hc => (List.mem_cons.mp hc).elim
    (fun hc => Or.inl (by rw [hc]; decide)) fun hc => Or.inl (solid_decimal h.metric c hc)
  exact (((hdist.append hmetric).append hvia).append
    (printed_of_solid (solid_format h.gw))).append htail

theorem endsSolid_lead (h : Hop) : EndsSolid h.lead := by
  rcases ha : h.age with _ | a
  · rw [lead, ha]
    exact ⟨_, _, List.append_nil _, Ipv4.format_ne_nil h.gw, solid_format h.gw⟩
  · rw [lead, ha, Option.map_some, Option.getD_some]
    exact EndsSolid.append ⟨[',', ' '], a.text, rfl, a.ne_nil, fun c hc => (a.solid hc).1⟩ _

theorem endsSolid_text (h : Hop) : EndsSolid h.text := by
  rw [h.text_eq_lead]
  rcases hi : h.intf with _ | i
  · rw [Option.map_none, Option.getD_none, List.append_nil]
    exact h.endsSolid_lead
  · rw [Option.map_some, Option.getD_some]
    exact EndsSolid.append ⟨[',', ' '], i.text, rfl, i.nonempty, fun c hc => (i.solid c hc).1⟩ _

theorem noB_lead (h : Hop) : NoB h.lead := by
  have hvia : NoB "] via ".toList := by
    unfold NoB
    decide
  have hdist : NoB ('[' :: decimal h.dist) := fun c hc => (List.mem_cons.mp hc).elim
    (fun hc => by rw [hc]; decide) (noB_decimal h.dist c)
  have hmetric : NoB ('/' :: decimal h.metric) := fun c hc => (List.mem_cons.mp hc).elim
    (fun hc => by rw [hc]; decide) (noB_decimal h.metric c)
  refine (((hdist.append hmetric).append hvia).append (noB_format h.gw)).append ?_
  rcases h.age with _ | a
  · exact fun c hc => nomatch hc
  · intro c hc
    rw [Option.map_some, Option.getD_some, List.mem_cons, List.mem_cons] at hc
    rcases hc with rfl | rfl | hc
    · decide
    · decide
    · exact (a.solid hc).2.2

theorem solidS_text (h : Hop) : SolidS h.text := by
  have hlead : 's' ∉ h.lead := by
    have hage : 's' ∉ (h.age.map fun a => ',' :: ' ' :: a.text).getD [] := by
      rcases h.age with _ | a
      · exact List.not_mem_nil
      · rw [Option.map_some, Option.getD_some, List.mem_cons, List.mem_cons]
        rintro (hc | hc | hc)
        · exact absurd hc (by decide)
        · exact absurd hc (by decide)
        · exact absurd (a.isAgeChar hc) (by decide)
    simp only [lead, List.mem_append, List.mem_cons, not_or]
    exact ⟨⟨⟨⟨⟨by decide, not_mem_s_decimal _⟩, by decide, not_mem_s_decimal _⟩, by decide⟩,
      not_mem_s_format _⟩, hage⟩
  rw [h.text_eq_lead]
  rcases hi : h.intf with _ | i
  · rw [Option.map_none, Option.getD_none, List.append_nil]
    exact solidS_of_not_mem hlead
  · have hname : SolidS (',' :: ' ' :: i.text) :=
      @solidS_append [',', ' '] _ (solidS_of_not_mem (by decide))
        (solidS_of_solid fun c hc => (i.solid c hc).1) (by decide)
    exact solidS_append (solidS_of_not_mem hlead) hname fun hl =>
      hlead (List.mem_of_getLast? hl)

end Hop

/-! ## Lines that are no headings -/

/-- A line does not announce a group of subnets. -/
def Unannounced (l : List Char) : Prop := ¬ "subnetted".toList <:+: l.map Char.toLower

theorem not_subnetted_of_noB (h : NoB l) : Unannounced (c :: l) := by
  intro hin
  obtain ⟨u, v, huv⟩ := hin
  have hb : 'b' ∈ (l.map Char.toLower) := by
    have htail : ∃ w, l.map Char.toLower = w ++ "ubnetted".toList ++ v := by
      rcases u with _ | ⟨d, u⟩
      · exact ⟨[], (List.cons.inj huv).2.symm⟩
      · refine ⟨u ++ ['s'], ?_⟩
        rw [← (List.cons.inj huv).2]
        simp
    obtain ⟨w, hw⟩ := htail
    rw [hw]
    simp
  obtain ⟨d, hd, hdb⟩ := List.mem_map.mp hb
  exact h d hd hdb

theorem not_subnetted_append (h : NoB l) (i : IntfName) :
    Unannounced (c :: l ++ ' ' :: i.text) := by
  intro hin
  rw [List.map_append, List.map_cons] at hin
  rcases infix_append_cons (by decide) (by decide) hin with hin | hin
  · exact not_subnetted_of_noB (c := c) h hin
  · exact i.notHeading hin

variable {line : List Char}

theorem isHeading_eq_false (hs : stripChars line = c :: l) (hc : c.toLower ≠ '%' ∧ c.toLower ≠ 'g')
    (hco : ∀ d ∈ l.head?, c.toLower = 'c' → d.toLower ≠ 'o') (hn : Unannounced (c :: l)) :
    isHeading line = false := by
  have hcodes : "codes:".toList.isPrefixOf ((c :: l).map Char.toLower) = false := by
    rcases l with _ | ⟨d, l⟩
    · simp [List.isPrefixOf]
    · by_cases hcc : c.toLower = 'c'
      · simp [List.isPrefixOf, Ne.symm (hco d rfl hcc)]
      · simp [List.isPrefixOf, Ne.symm hcc]
  have hgateway :
      "gateway of last resort".toList.isPrefixOf ((c :: l).map Char.toLower) = false := by
    simp [List.isPrefixOf, Ne.symm hc.2]
  have hpercent : "%".toList.isPrefixOf ((c :: l).map Char.toLower) = false := by
    simp [List.isPrefixOf, Ne.symm hc.1]
  have hsub : (((c :: l).map Char.toLower).tails.any fun t => "subnetted".toList.isPrefixOf t) =
      false := by
    rw [Bool.eq_false_iff, Ne, any_tails_isPrefixOf]
    exact hn
  simp only [isHeading, hs, hcodes, hgateway, hpercent, hsub, Bool.or_false]

theorem routeLine_of_read {st : List Row × Option Row} (he : EndsSolid line)
    (hs : stripChars line ≠ []) (hh : isHeading line = false) :
    routeLine st line =
      match matchStart reIosExtraHop line, st.2.or st.1.getLast? with
      | some m, some base => (st.1 ++ [viaRow base m], st.2)
      | _, _ => networkLine st line := by
  have hcond : ¬ (stripChars line = [] ∨ isHeading line = true) := by
    rw [not_or, hh]
    exact ⟨hs, by decide⟩
  rw [routeLine, he.rstrip]
  exact if_neg hcond

/-! ## Lines below a network -/

/-- What a line below a network is attributed to. -/
def WrappedHop.base (st : List Row × Option Row) : WrappedHop → Option Row
  | via _ _ => st.2.or st.1.getLast?
  | direct _ _ => st.2

theorem WrappedHop.printed_line (w : WrappedHop) : Printed w.line := by
  cases w with
  | via n hop => exact (printed_blanks _).append hop.printed_text
  | direct n i => exact (printed_blanks _).append (printed_directText i)

theorem stripChars_blanks {n : ℕ} (he : EndsSolid l)
    (hh : ∀ c ∈ l.head?, isSpace c = false) : stripChars (blanks n ++ l) = l := by
  rw [stripChars_append fun _ hc => isSpace_of_mem_blanks hc, stripChars_of_ends hh he.rstrip]

theorem Hop.head?_text (h : Hop) : h.text.head? = some '[' := rfl

theorem Hop.run_iosRoute_eq_nil (h : Hop) : run reIosRoute h.text = [] := by
  refine run_seq_eq_nil (run_group_eq_nil (run_chr_eq_nil fun c hc => ?_))
  obtain rfl : '[' = c := Option.some.inj hc
  decide

theorem run_iosRoute_directText (i : IntfName) : run reIosRoute (directText i) = [] := by
  have htext : directText i = 'i' :: 's' :: (" directly connected, ".toList ++ i.text) := rfl
  rw [htext]
  refine run_seq_eq_nil_right fun m hm => run_seq_eq_nil_right fun m' hm' => ?_
  have hcode : m.2 = 's' :: (" directly connected, ".toList ++ i.text) := by
    rw [run, run, show isLetter 'i' = true from by decide, if_pos rfl, List.map_singleton] at hm
    rw [List.mem_singleton.mp hm]
  have hnil : run (.group "star" (.chr (· == '*')))
      ('s' :: (" directly connected, ".toList ++ i.text)) = [] :=
    run_group_eq_nil (run_chr_eq_nil fun c hc => by
      obtain rfl : 's' = c := Option.some.inj hc
      decide)
  rw [hcode, run, hnil, List.nil_append] at hm'
  rw [List.mem_singleton.mp hm']
  refine EntryHead.run_qual_net_eq_nil fun c hc => ?_
  obtain rfl : 's' = c := Option.some.inj hc
  decide

theorem Hop.isHeading (h : Hop) (n : ℕ) : isHeading (blanks n ++ h.text) = false := by
  have hs : stripChars (blanks n ++ h.text) = h.text :=
    stripChars_blanks h.endsSolid_text fun c hc => by
      obtain rfl : '[' = c := Option.some.inj hc
      decide
  have hlead : h.lead = '[' :: h.lead.tail := rfl
  have hnoB : NoB h.lead.tail := fun c hc => h.noB_lead c (List.mem_of_mem_tail hc)
  have hn : Unannounced h.text := by
    rw [h.text_eq_lead]
    rcases h.intf with _ | i
    · rw [Option.map_none, Option.getD_none, List.append_nil, hlead]
      exact not_subnetted_of_noB hnoB
    · have hsplit : h.lead ++ ',' :: ' ' :: i.text =
          ('[' :: (h.lead.tail ++ [','])) ++ ' ' :: i.text := by
        conv_lhs => rw [hlead]
        simp
      rw [Option.map_some, Option.getD_some, hsplit]
      exact not_subnetted_append (hnoB.append (by unfold NoB; decide)) i
  have htext : h.text = '[' :: h.text.tail := rfl
  rw [htext] at hs hn
  exact isHeading_eq_false hs (by decide) (fun _ _ hc => absurd hc (by decide)) hn

theorem isHeading_direct (i : IntfName) (n : ℕ) : isHeading (blanks n ++ directText i) = false := by
  have hs : stripChars (blanks n ++ directText i) = directText i :=
    stripChars_blanks (endsSolid_directText i) fun c hc => by
      obtain rfl : 'i' = c := Option.some.inj hc
      decide
  have htext : directText i = 'i' :: "s directly connected,".toList ++ ' ' :: i.text := rfl
  have hn : Unannounced (directText i) := by
    rw [htext]
    exact not_subnetted_append (by unfold NoB; decide) i
  have hcons : directText i = 'i' :: (directText i).tail := rfl
  rw [hcons] at hs hn
  exact isHeading_eq_false hs (by decide) (fun _ _ hc => absurd hc (by decide)) hn

theorem Hop.first_extraHop (h : Hop) (n : ℕ) :
    first reIosExtraHop (blanks (n + 1) ++ h.text) = some (h.caps, []) :=
  first_seq (first_blanks n fun c hc => by
    obtain rfl : '[' = c := Option.some.inj hc
    decide) (first_iosVia h)

theorem run_extraHop_direct (i : IntfName) (n : ℕ) :
    run reIosExtraHop (blanks n ++ directText i) = [] := by
  refine run_seq_eq_nil_right fun m hm => run_seq_eq_nil (run_chr_eq_nil fun c hc => ?_)
  have hhead : ∀ c ∈ (directText i).head?, isSpace c = false := by
    intro c hc
    obtain rfl : 'i' = c := Option.some.inj hc
    decide
  rcases run_spaces_blanks hhead hm with hm | hm
  · rw [hm] at hc
    obtain rfl : 'i' = c := Option.some.inj hc
    decide
  · rw [hm] at hc
    obtain rfl : ' ' = c := Option.some.inj hc
    decide

theorem codeLine_eq_self {st : List Row × Option Row}
    (h : run reIosRoute (stripChars line) = []) : codeLine st line = st := by
  rw [codeLine, matchStart_eq_none h]

/-- A line below a network adds its row to what it is attributed to, and nothing when there is no
such network. -/
theorem routeLine_below (st : List Row × Option Row) (w : WrappedHop) :
    routeLine st w.line =
      match w.base st with
      | some base => (st.1 ++ [w.row base], st.2)
      | none => st := by
  cases w with
  | via n hop =>
    have hs : stripChars (blanks (n + 1) ++ hop.text) = hop.text :=
      stripChars_blanks hop.endsSolid_text fun c hc => by
        obtain rfl : '[' = c := Option.some.inj hc
        decide
    rw [WrappedHop.line, routeLine_of_read (hop.endsSolid_text.append _)
      (by rw [hs]; exact hop.endsSolid_text.ne_nil) (hop.isHeading (n + 1)),
      matchStart_of_first (hop.first_extraHop n), WrappedHop.base]
    rcases hb : st.2.or st.1.getLast? with _ | base
    · have hpending : st.2 = none := (Option.or_eq_none_iff.mp hb).1
      simp only [networkLine, hpending]
      exact codeLine_eq_self (by rw [hs]; exact hop.run_iosRoute_eq_nil)
    · simp only [viaRow_caps, WrappedHop.row]
  | direct n i =>
    have hs : stripChars (blanks (n + 1) ++ directText i) = directText i :=
      stripChars_blanks (endsSolid_directText i) fun c hc => by
        obtain rfl : 'i' = c := Option.some.inj hc
        decide
    rw [WrappedHop.line, routeLine_of_read ((endsSolid_directText i).append _)
      (by rw [hs]; exact (endsSolid_directText i).ne_nil) (isHeading_direct i (n + 1)),
      matchStart_eq_none (run_extraHop_direct i (n + 1)), WrappedHop.base]
    rcases hp : st.2 with _ | pending
    · simp only [networkLine, hp]
      exact codeLine_eq_self (by rw [hs]; exact run_iosRoute_directText i)
    · have hconn : search reIosConnected (blanks (n + 1) ++ directText i) =
          some [("intf", i.text)] :=
        search_iosConnected (solidS_of_not_mem (not_mem_s_blanks _)) i
      simp only [networkLine, hp, hconn, interfaceRow_caps, WrappedHop.row]

/-! ## Lines with a code -/

theorem first_rest {n : ℕ} {body : List Char} (hp : Printed body)
    (hh : ∀ c ∈ body.head?, isSpace c = false) :
    first reRest (blanks (n + 1) ++ body) = some ([("rest", body)], []) := by
  have hbody : first (.group "rest" Re.anything) body = some ([("rest", body)], []) := by
    have hmany : first Re.anything (body ++ []) = some ([], []) :=
      first_many hp.ne_newline (by simp) (by simp) (by simp)
    rw [List.append_nil] at hmany
    exact first_group hmany (List.append_nil body).symm
  exact first_seq (first_opt (first_seq (first_blanks n hh) hbody)) first_eol

theorem first_rest_nil : first reRest [] = some ([], []) := rfl

namespace EntryHead

theorem head?_text (h : EntryHead) (s : List Char) : (h.text ++ s).head? = some h.code := rfl

variable {s : List Char}

section

variable (h : EntryHead)

include h

theorem stripChars_line (he : EndsSolid (h.text ++ s)) :
    stripChars (h.text ++ s) = h.text ++ s := by
  refine stripChars_of_ends (fun c hc => ?_) he.rstrip
  obtain rfl : h.code = c := Option.some.inj hc
  exact h.code_spec.2.1

theorem run_extraHop (s : List Char) : run reIosExtraHop (h.text ++ s) = [] := by
  refine run_seq_eq_nil (run_many_eq_nil (by decide) fun c hc => ?_)
  obtain rfl : h.code = c := Option.some.inj hc
  exact h.code_spec.2.1

theorem isHeading_line (he : EndsSolid (h.text ++ s)) (hn : Unannounced (h.text ++ s)) :
    isHeading (h.text ++ s) = false := by
  have hs := h.stripChars_line he
  have htext : h.text ++ s = h.code :: (h.mark ++ (h.netText ++ s)) := by
    simp [text]
  rw [htext] at hs hn ⊢
  have hcode : ∀ c ∈ iosCodeTypes.map Prod.fst, c.toLower ≠ '%' ∧ c.toLower ≠ 'g' := by decide
  have hmark : ∀ c ∈ h.mark, c.toLower ≠ 'o' :=
    h.forall_mem_mark (by decide) (by decide) (by decide)
  have hne : h.mark ≠ [] := by simp [mark, blanks]
  refine isHeading_eq_false hs (hcode _ (mem_codes h.known)) (fun d hd _ => ?_) hn
  rw [List.head?_append_of_ne_nil _ hne] at hd
  exact hmark d (List.mem_of_mem_head? hd)

theorem routeLine_text (st : List Row × Option Row) (he : EndsSolid (h.text ++ s))
    (hn : Unannounced (h.text ++ s)) :
    routeLine st (h.text ++ s) = networkLine st (h.text ++ s) := by
  have hs := h.stripChars_line he
  rw [routeLine_of_read he (by rw [hs]; exact he.ne_nil) (h.isHeading_line he hn),
    matchStart_eq_none (h.run_extraHop s)]

theorem networkLine_text (st : List Row × Option Row) (hs : SolidS (h.text ++ s)) :
    networkLine st (h.text ++ s) = codeLine st (h.text ++ s) := by
  rw [networkLine, search_iosConnected_eq_none hs]
  cases st.2 <;> rfl

theorem codeLine_glued (hg : h.glued) (st : List Row × Option Row)
    (he : EndsSolid (h.text ++ s)) : codeLine st (h.text ++ s) = st :=
  codeLine_eq_self (by rw [h.stripChars_line he]; exact h.run_iosRoute_eq_nil hg s)

theorem codeLine_text (hg : h.glued = false) (st : List Row × Option Row) {m : Caps}
    (he : EndsSolid (h.text ++ s)) (hs : ∀ c ∈ s.head?, c.isDigit = false)
    (hm : first reRest s = some (m, [])) :
    codeLine st (h.text ++ s) =
      if stripChars (capture m "rest") = [] then (st.1, some h.row)
      else
        match search reIosConnected (capture m "rest") with
        | some conn => (st.1 ++ [interfaceRow h.row conn], none)
        | none =>
          match search reIosVia (capture m "rest") with
          | some via => (st.1 ++ [viaRow h.row via], none)
          | none => (st.1, none) := by
  rw [codeLine, h.stripChars_line he, matchStart_of_first (h.first_iosRoute hg hs hm)]
  simp only [h.capture_code, h.capture_net, h.capture_rest, List.headD_cons, h.known]
  rfl

end

end EntryHead

theorem head?_blanks (n : ℕ) (s : List Char) :
    ∀ c ∈ (blanks (n + 1) ++ s).head?, c.isDigit = false := by
  intro c hc
  obtain rfl : ' ' = c := Option.some.inj hc
  decide

/-- A wrapped network waits for its next hops. -/
theorem routeLine_wrapped (h : EntryHead) (st : List Row × Option Row) :
    routeLine st h.text = if h.glued then st else (st.1, some h.row) := by
  have happ : h.text = h.text ++ [] := (List.append_nil _).symm
  have he : EndsSolid (h.text ++ []) := by
    rw [← happ]
    exact h.endsSolid_text
  have hn : Unannounced (h.text ++ []) := by
    rw [← happ]
    exact not_subnetted_of_noB (h.noB_mark.append h.noB_netText)
  rw [happ, h.routeLine_text st he hn, h.networkLine_text st (h.solidS_text List.not_mem_nil)]
  cases hg : h.glued with
  | true => exact h.codeLine_glued hg st he
  | false => exact h.codeLine_text hg st he (by simp) first_rest_nil

/-- A next hop on the line of its network. -/
theorem routeLine_via (h : EntryHead) (gap : ℕ) (hop : Hop) (st : List Row × Option Row) :
    routeLine st (h.text ++ blanks (gap + 1) ++ hop.text) =
      if h.glued then st else (st.1 ++ [hop.row h.row], none) := by
  have he : EndsSolid (h.text ++ (blanks (gap + 1) ++ hop.text)) :=
    (hop.endsSolid_text.append _).append _
  have hcode : h.text = h.code :: (h.mark ++ h.netText) := rfl
  have hnoB : NoB (h.mark ++ h.netText ++ blanks (gap + 1) ++ hop.lead) :=
    ((h.noB_mark.append h.noB_netText).append (noB_blanks _)).append hop.noB_lead
  have hn : Unannounced (h.text ++ (blanks (gap + 1) ++ hop.text)) := by
    rw [hop.text_eq_lead, hcode]
    rcases hop.intf with _ | i
    · have hsplit : h.code :: (h.mark ++ h.netText) ++ (blanks (gap + 1) ++ (hop.lead ++ [])) =
          h.code :: (h.mark ++ h.netText ++ blanks (gap + 1) ++ hop.lead) := by simp
      rw [Option.map_none, Option.getD_none, hsplit]
      exact not_subnetted_of_noB hnoB
    · have hsplit : h.code :: (h.mark ++ h.netText) ++
          (blanks (gap + 1) ++ (hop.lead ++ ',' :: ' ' :: i.text)) =
          h.code :: (h.mark ++ h.netText ++ blanks (gap + 1) ++ hop.lead ++ [',']) ++
            ' ' :: i.text := by simp
      rw [Option.map_some, Option.getD_some, hsplit]
      exact not_subnetted_append (hnoB.append (by unfold NoB; decide)) i
  have hsolid : SolidS (h.text ++ (blanks (gap + 1) ++ hop.text)) := by
    rw [← List.append_assoc]
    refine solidS_append (h.solidS_text (not_mem_s_blanks _)) hop.solidS_text ?_
    rw [List.getLast?_append_of_ne_nil _ (by simp [blanks])]
    exact fun hl => not_mem_s_blanks _ (List.mem_of_getLast? hl)
  have hhead : ∀ c ∈ hop.text.head?, isSpace c = false := by
    intro c hc
    obtain rfl : '[' = c := Option.some.inj hc
    decide
  have hstrip : stripChars hop.text ≠ [] := by
    rw [stripChars_of_ends hhead hop.endsSolid_text.rstrip]
    exact hop.endsSolid_text.ne_nil
  rw [List.append_assoc, h.routeLine_text st he hn, h.networkLine_text st hsolid]
  cases hg : h.glued with
  | true => exact h.codeLine_glued hg st he
  | false =>
    have hrest : capture [("rest", hop.text)] "rest" = hop.text := rfl
    rw [h.codeLine_text hg st he (head?_blanks gap _) (first_rest hop.printed_text hhead), hrest,
      if_neg hstrip, search_iosConnected_eq_none hop.solidS_text,
      search_of_matchStart (matchStart_of_first (first_iosVia hop))]
    simp only [viaRow_caps]
    rfl

theorem EntryHead.text_directText (h : EntryHead) (gap : ℕ) (i : IntfName) :
    h.text ++ (blanks (gap + 1) ++ directText i) =
      h.code :: (h.mark ++ h.netText ++ blanks (gap + 1) ++ "is directly connected,".toList ++
        ' ' :: i.text) := by
  have hdirect : directText i = "is directly connected,".toList ++ ' ' :: i.text := rfl
  rw [hdirect, EntryHead.text]
  simp only [List.cons_append, List.append_assoc]

/-- A connected interface on the line of its network is read as one of the network that waits, when
there is one. -/
theorem routeLine_connected (h : EntryHead) (gap : ℕ) (i : IntfName) (st : List Row × Option Row) :
    routeLine st (h.text ++ blanks (gap + 1) ++ directText i) =
      match st.2 with
      | some pending => (st.1 ++ [directRow i pending], some pending)
      | none => if h.glued then st else (st.1 ++ [directRow i h.row], none) := by
  have he : EndsSolid (h.text ++ (blanks (gap + 1) ++ directText i)) :=
    ((endsSolid_directText i).append _).append _
  have hnoB : NoB (h.mark ++ h.netText ++ blanks (gap + 1) ++ "is directly connected,".toList) :=
    ((h.noB_mark.append h.noB_netText).append (noB_blanks _)).append (by unfold NoB; decide)
  have hn : Unannounced (h.text ++ (blanks (gap + 1) ++ directText i)) := by
    rw [h.text_directText]
    exact not_subnetted_append hnoB i
  have hhead : ∀ c ∈ (directText i).head?, isSpace c = false := by
    intro c hc
    obtain rfl : 'i' = c := Option.some.inj hc
    decide
  have hstrip : stripChars (directText i) ≠ [] := by
    rw [stripChars_of_ends hhead (endsSolid_directText i).rstrip]
    exact (endsSolid_directText i).ne_nil
  have hfound : search reIosConnected (h.text ++ (blanks (gap + 1) ++ directText i)) =
      some [("intf", i.text)] := by
    rw [← List.append_assoc]
    exact search_iosConnected (h.solidS_text (not_mem_s_blanks _)) i
  rw [List.append_assoc, h.routeLine_text st he hn]
  rcases hp : st.2 with _ | pending
  · simp only [networkLine, hp]
    cases hg : h.glued with
    | true => exact h.codeLine_glued hg st he
    | false =>
      have hrest : capture [("rest", directText i)] "rest" = directText i := rfl
      rw [h.codeLine_text hg st he (head?_blanks gap _)
          (first_rest (printed_directText i) hhead), hrest, if_neg hstrip,
        search_of_matchStart (matchStart_of_first (first_iosConnected i))]
      rfl
  · simp only [networkLine, hp, hfound, interfaceRow_caps]

end SentinelNet.RouteTable
