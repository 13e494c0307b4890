import Mathlib

/-!
# Python text

The string operations that line-oriented Python parsers are written with: `strip`, `split`,
`splitlines`, `lower`, `isdigit`, `int` and the decimal rendering that `str` gives of a number.
Every operation works on the list of characters; the operations on `String` are these, read
through `String.toList` and `String.ofList`.

White space and line breaks are the characters `str.isspace` and `str.splitlines` accept.  Case
folding and the digits are those of ASCII.

* `splitWs_eq_cons`: what a split that is not empty says about the text it was made from.
* `splitlines_joinLines`: text put together from lines splits into these lines.
* `ofDigits_decimal`: reading back a rendered number.
-/

namespace PyText

/-! ## Characters -/

/-- The characters `str.isspace` accepts. -/
def isSpace (c : Char) : Bool :=
  c == ' ' || (9 ≤ c.toNat && c.toNat ≤ 13) || (28 ≤ c.toNat && c.toNat ≤ 31) ||
    c.toNat == 0x85 || c.toNat == 0xa0 || c.toNat == 0x1680 ||
    (0x2000 ≤ c.toNat && c.toNat ≤ 0x200a) || c.toNat == 0x2028 || c.toNat == 0x2029 ||
    c.toNat == 0x202f || c.toNat == 0x205f || c.toNat == 0x3000

/-- The characters at which `str.splitlines` breaks. -/
def isLineBreak (c : Char) : Bool :=
  (10 ≤ c.toNat && c.toNat ≤ 13) || (28 ≤ c.toNat && c.toNat ≤ 30) ||
    c.toNat == 0x85 || c.toNat == 0x2028 || c.toNat == 0x2029

/-- A property of the members of a list of characters is decided over the list, not over all
characters. -/
instance (priority := 2000) decidableForallMemChars (l : List Char) (p : Char → Prop)
    [DecidablePred p] : Decidable (∀ c ∈ l, p c) := List.decidableBAll p l

variable {c : Char}

theorem isSpace_of_between (hlo : 33 ≤ c.toNat) (hhi : c.toNat ≤ 127) : isSpace c = false := by
  have hne : c ≠ ' ' := by
    rintro rfl
    exact absurd hlo (by decide)
  simp only [isSpace, Bool.or_eq_false_iff, Bool.and_eq_false_iff, beq_eq_false_iff_ne,
    decide_eq_false_iff_not]
  refine ⟨⟨⟨⟨⟨⟨⟨⟨⟨⟨⟨hne, ?_⟩, ?_⟩, ?_⟩, ?_⟩, ?_⟩, ?_⟩, ?_⟩, ?_⟩, ?_⟩, ?_⟩, ?_⟩ <;> omega

theorem isSpace_of_isDigit (h : c.isDigit) : isSpace c = false := by
  simp only [Char.isDigit, Bool.and_eq_true, decide_eq_true_eq] at h
  have hlo : 48 ≤ c.toNat := UInt32.le_iff_toNat_le.mp h.1
  have hhi : c.toNat ≤ 57 := UInt32.le_iff_toNat_le.mp h.2
  exact isSpace_of_between (by omega) (by omega)

/-! ## Stripping and splitting -/

/-- `str.strip()`. -/
def stripChars (cs : List Char) : List Char := (cs.dropWhile isSpace).rdropWhile isSpace

/-- `str.rstrip()`. -/
def rstripChars (cs : List Char) : List Char := cs.rdropWhile isSpace

/-- `str.split()`: the maximal runs of characters that are not white space. -/
def splitWs (cs : List Char) : List (List Char) :=
  (cs.splitOnP isSpace).filter fun t => !t.isEmpty

@[simp] theorem splitWs_nil : splitWs [] = [] := rfl

theorem splitWs_cons_space (h : isSpace c) (cs : List Char) :
    splitWs (c :: cs) = splitWs cs := by
  rw [splitWs, List.splitOnP_cons_eq_if_modifyHead, if_pos h, List.filter_cons]
  rfl

variable {t : List Char}

theorem splitWs_append_space (ht : t ≠ []) (hs : ∀ c ∈ t, isSpace c = false)
    (hc : isSpace c) (cs : List Char) :
    splitWs (t ++ c :: cs) = t :: splitWs cs := by
  rw [splitWs, List.splitOnP_append_cons_of_forall_mem hs c hc, List.filter_cons]
  have hne : (!t.isEmpty) = true := by simpa using ht
  rw [if_pos hne]
  rfl

theorem splitWs_token (ht : t ≠ []) (hs : ∀ c ∈ t, isSpace c = false) : splitWs t = [t] := by
  rw [splitWs, List.splitOnP_eq_singleton hs]
  simp [ht]

variable {cs : List Char}

/-- A split that is not empty starts with a token of the text, after leading white space. -/
theorem splitWs_eq_cons {ts : List (List Char)} (h : splitWs cs = t :: ts) :
    ∃ rest, cs.dropWhile isSpace = t ++ rest ∧ t ≠ [] ∧ (∀ c ∈ t, isSpace c = false) ∧
      (rest = [] ∨ ∃ c r, rest = c :: r ∧ isSpace c = true) ∧ splitWs rest = ts := by
  induction cs with
  | nil => simp at h
  | cons c cs ih =>
    by_cases hc : isSpace c = true
    · rw [splitWs_cons_space hc] at h
      rw [List.dropWhile_cons_of_pos hc]
      exact ih h
    · have hc' : isSpace c = false := by simpa using hc
      rw [List.dropWhile_cons_of_neg hc]
      have hsplit := List.takeWhile_append_dropWhile (p := fun c => !isSpace c) (l := c :: cs)
      set tok := (c :: cs).takeWhile fun c => !isSpace c with htok
      set rest := (c :: cs).dropWhile fun c => !isSpace c with hrest
      have hne : tok ≠ [] := by
        rw [htok, List.takeWhile_cons_of_pos (by simp [hc'])]
        exact List.cons_ne_nil _ _
      have hsp : ∀ d ∈ tok, isSpace d = false := by
        intro d hd
        have := List.mem_takeWhile_imp hd
        simpa using this
      rcases hr : rest with _ | ⟨d, r⟩
      · rw [hr, List.append_nil] at hsplit
        rw [← hsplit, splitWs_token hne hsp] at h
        obtain ⟨rfl, rfl⟩ := List.cons.inj h
        exact ⟨[], by rw [List.append_nil, hsplit], hne, hsp, Or.inl rfl, rfl⟩
      · have hd : isSpace d = true := by
          have hnot := List.head?_dropWhile_not (fun c => !isSpace c) (c :: cs)
          rw [← hrest, hr] at hnot
          simpa using hnot
        rw [← hsplit, hr, splitWs_append_space hne hsp hd] at h
        obtain ⟨rfl, rfl⟩ := List.cons.inj h
        exact ⟨d :: r, by rw [← hr, hsplit], hne, hsp, Or.inr ⟨d, r, rfl, hd⟩,
          splitWs_cons_space hd r⟩

theorem splitWs_concat_space (h : isSpace c) (cs : List Char) :
    splitWs (cs ++ [c]) = splitWs cs := by
  rw [splitWs, List.splitOnP_append_cons cs [] h, List.splitOnP_nil, List.filter_append, splitWs]
  simp

/-- Stripping does not change the tokens. -/
theorem splitWs_stripChars (cs : List Char) : splitWs (stripChars cs) = splitWs cs := by
  have hleft : splitWs (cs.dropWhile isSpace) = splitWs cs := by
    induction cs with
    | nil => rfl
    | cons c cs ih =>
      by_cases hc : isSpace c = true
      · rw [List.dropWhile_cons_of_pos hc, splitWs_cons_space hc, ih]
      · rw [List.dropWhile_cons_of_neg hc]
  rw [stripChars, ← hleft]
  induction cs.dropWhile isSpace using List.reverseRecOn with
  | nil => rfl
  | append_singleton ds c ih =>
    by_cases hc : isSpace c = true
    · rw [List.rdropWhile_concat_pos _ _ _ hc, splitWs_concat_space hc, ih]
    · rw [List.rdropWhile_concat_neg _ _ _ hc]

theorem stripChars_of_splitWs {ts : List (List Char)}
    (h : splitWs cs = t :: ts) : ∃ rest, stripChars cs = t ++ rest := by
  obtain ⟨rest, hdrop, hne, hsp, -, -⟩ := splitWs_eq_cons h
  rw [stripChars, hdrop]
  clear h hdrop
  induction rest using List.reverseRecOn with
  | nil =>
    refine ⟨[], ?_⟩
    rw [List.append_nil, List.rdropWhile_eq_self_iff]
    intro hl
    simp [hsp _ (List.getLast_mem hl)]
  | append_singleton rest c ih =>
    by_cases hc : isSpace c = true
    · rw [← List.append_assoc, List.rdropWhile_concat_pos _ _ _ hc]
      exact ih
    · rw [← List.append_assoc, List.rdropWhile_concat_neg _ _ _ hc]
      exact ⟨rest ++ [c], List.append_assoc ..⟩

theorem isSpace_of_stripChars_eq_nil (h : stripChars cs = []) : ∀ c ∈ cs, isSpace c = true := by
  rw [stripChars, List.rdropWhile_eq_nil_iff] at h
  have hdrop : cs.dropWhile isSpace = [] := by
    by_contra hne
    have hhead := List.head_dropWhile_not isSpace hne
    rw [h _ (List.head_mem hne)] at hhead
    simp at hhead
  exact List.dropWhile_eq_nil_iff.mp hdrop

variable {l : List Char}

theorem stripChars_drop_ne_nil {n : ℕ} (hc : (stripChars l)[n]? = some c) (hs : isSpace c) :
    stripChars ((stripChars l).drop (n + 1)) ≠ [] := by
  intro hnil
  have hlt : n < (stripChars l).length := (List.getElem?_eq_some_iff.mp hc).1
  have hne : stripChars l ≠ [] := List.ne_nil_of_length_pos (by omega)
  have hlast : ¬ isSpace ((stripChars l).getLast hne) = true := by
    simpa only [stripChars] using List.rdropWhile_last_not isSpace (l.dropWhile isSpace) hne
  have hdrop : (stripChars l).drop n = c :: (stripChars l).drop (n + 1) := by
    rw [List.drop_eq_getElem_cons hlt, (List.getElem?_eq_some_iff.mp hc).2]
  have hmem : (stripChars l).getLast hne ∈ (stripChars l).drop n := by
    have hne' : (stripChars l).drop n ≠ [] := by rw [hdrop]; exact List.cons_ne_nil _ _
    rw [← List.getLast_drop hne']
    exact List.getLast_mem hne'
  rw [hdrop, List.mem_cons] at hmem
  rcases hmem with hmem | hmem
  · exact hlast (by rw [hmem]; exact hs)
  · exact hlast (isSpace_of_stripChars_eq_nil hnil _ hmem)

theorem stripChars_of_forall (h : ∀ c ∈ cs, isSpace c = false) : stripChars cs = cs := by
  have hleft : cs.dropWhile isSpace = cs := by
    rcases cs with _ | ⟨c, cs⟩
    · rfl
    · rw [List.dropWhile_cons_of_neg (by simp [h c List.mem_cons_self])]
  rw [stripChars, hleft, List.rdropWhile_eq_self_iff]
  intro hl
  simp [h _ (List.getLast_mem hl)]

theorem stripChars_of_ends (hhead : ∀ c ∈ cs.head?, isSpace c = false)
    (hlast : rstripChars cs = cs) : stripChars cs = cs := by
  have hdrop : cs.dropWhile isSpace = cs := by
    rcases cs with _ | ⟨c, cs⟩
    · rfl
    · rw [List.dropWhile_cons_of_neg (by simp [hhead c rfl])]
  rw [stripChars, hdrop]
  exact hlast

theorem stripChars_stripChars (cs : List Char) : stripChars (stripChars cs) = stripChars cs := by
  refine stripChars_of_ends (fun c hc => ?_) (List.rdropWhile_idempotent _ _)
  have hprefix : (stripChars cs) <+: cs.dropWhile isSpace := List.rdropWhile_prefix _ _
  obtain ⟨rest, hrest⟩ := hprefix
  have hhead : (cs.dropWhile isSpace).head? = some c := by
    rw [← hrest, List.head?_append, Option.mem_def.mp hc]
    rfl
  have hnot := List.head?_dropWhile_not isSpace cs
  rw [hhead] at hnot
  exact hnot

theorem rstripChars_append {u v : List Char} (hne : v ≠ []) (hv : ∀ c ∈ v, isSpace c = false) :
    rstripChars (u ++ v) = u ++ v := by
  rw [rstripChars, List.rdropWhile_eq_self_iff]
  intro hl
  rw [List.getLast_append_of_right_ne_nil _ _ hne]
  simp [hv _ (List.getLast_mem hne)]

theorem stripChars_append {u v : List Char} (hu : ∀ c ∈ u, isSpace c = true) :
    stripChars (u ++ v) = stripChars v := by
  rw [stripChars, stripChars, List.dropWhile_append_of_pos hu]

theorem exists_strip (cs : List Char) : ∃ u v, cs = u ++ stripChars cs ++ v ∧
    (∀ c ∈ u, isSpace c = true) ∧ ∀ c ∈ v, isSpace c = true := by
  refine ⟨cs.takeWhile isSpace, (cs.dropWhile isSpace).rtakeWhile isSpace, ?_,
    fun c hc => List.mem_takeWhile_imp hc, fun c hc => List.mem_rtakeWhile_imp hc⟩
  rw [stripChars, List.append_assoc, List.rdropWhile_append_rtakeWhile,
    List.takeWhile_append_dropWhile]

theorem infix_append_cons {p l₁ l₂ : List Char} (hc : c ∉ p) (hp : p ≠ [])
    (h : p <:+: l₁ ++ c :: l₂) : p <:+: l₁ ∨ p <:+: l₂ := by
  obtain ⟨u, v, huv⟩ := h
  rw [List.append_assoc] at huv
  rcases List.append_eq_append_iff.mp huv with ⟨w, hl, hw⟩ | ⟨w, hu, hw⟩
  · rcases List.append_eq_append_iff.mp hw with ⟨w', hp', -⟩ | ⟨w', hp', hw'⟩
    · left
      exact ⟨u, w', by rw [hl, hp', List.append_assoc]⟩
    · cases w' with
      | nil =>
        left
        exact ⟨u, [], by rw [hl, hp', List.append_nil, List.append_nil]⟩
      | cons d w' =>
        obtain ⟨rfl, -⟩ := List.cons.inj hw'
        exact absurd (hp' ▸ List.mem_append_right w List.mem_cons_self) hc
  · cases w with
    | nil =>
      obtain ⟨d, p', rfl⟩ := List.exists_cons_of_ne_nil hp
      obtain ⟨rfl, -⟩ := List.cons.inj hw
      exact absurd List.mem_cons_self hc
    | cons d w =>
      obtain ⟨-, hl₂⟩ := List.cons.inj hw
      right
      refine ⟨w, v, ?_⟩
      rw [hl₂]
      exact List.append_assoc ..

/-! ## Splitting at a character -/

theorem splitOn_append (h : c ∉ l) (r : List Char) :
    ∃ seg segs, r.splitOn c = seg :: segs ∧ (l ++ r).splitOn c = (l ++ seg) :: segs := by
  obtain ⟨seg, segs, hr⟩ := List.exists_cons_of_ne_nil (List.splitOn_ne_nil c r)
  refine ⟨seg, segs, hr, ?_⟩
  induction l with
  | nil => exact hr
  | cons x l ih =>
    rw [List.mem_cons, not_or] at h
    have hx : ¬ (x == c) = true := fun hxc => h.1 (beq_iff_eq.mp hxc).symm
    rw [List.cons_append, List.splitOn_cons_eq_if_modifyHead, if_neg hx, ih h.2]
    rfl

theorem splitOn_spec :
    (∀ seg ∈ (l.splitOn c).head?, seg <+: l) ∧ ∀ seg ∈ l.splitOn c, c ∉ seg ∧ seg <:+: l := by
  induction l with
  | nil => simp
  | cons x l ih =>
    rw [List.splitOn_cons_eq_if_modifyHead]
    split
    · refine ⟨by simp, fun seg hseg => ?_⟩
      rcases List.mem_cons.mp hseg with rfl | hseg
      · exact ⟨List.not_mem_nil, List.nil_infix⟩
      · exact ⟨(ih.2 seg hseg).1, (ih.2 seg hseg).2.trans (List.suffix_cons x l).isInfix⟩
    · next hx =>
      obtain ⟨seg, segs, hl⟩ := List.exists_cons_of_ne_nil (List.splitOn_ne_nil c l)
      rw [hl] at ih ⊢
      have hhead : seg <+: l := ih.1 seg rfl
      have hcons : x :: seg <+: x :: l := (List.prefix_cons_inj x).mpr hhead
      refine ⟨fun s hs => ?_, fun s hs => ?_⟩
      · obtain rfl : x :: seg = s := Option.some.inj hs
        exact hcons
      · rcases List.mem_cons.mp hs with rfl | hs
        · refine ⟨?_, hcons.isInfix⟩
          rw [List.mem_cons, not_or]
          exact ⟨fun hxc => hx (beq_iff_eq.mpr hxc.symm), (ih.2 seg List.mem_cons_self).1⟩
        · have hmem := ih.2 s (List.mem_cons_of_mem _ hs)
          exact ⟨hmem.1, hmem.2.trans (List.suffix_cons x l).isInfix⟩

theorem mem_splitOn {x : Char} (h : x ∈ l) : x = c ∨ ∃ seg ∈ l.splitOn c, x ∈ seg := by
  induction l with
  | nil => cases h
  | cons y l ih =>
    obtain ⟨seg, segs, hl⟩ := List.exists_cons_of_ne_nil (List.splitOn_ne_nil c l)
    rw [List.splitOn_cons_eq_if_modifyHead, hl]
    rw [hl] at ih
    by_cases hy : (y == c) = true
    · rw [if_pos hy]
      rcases List.mem_cons.mp h with rfl | h
      · exact .inl (beq_iff_eq.mp hy)
      · exact (ih h).imp_right fun ⟨s, hs, hx⟩ => ⟨s, List.mem_cons_of_mem _ hs, hx⟩
    · rw [if_neg hy, List.modifyHead_cons]
      rcases List.mem_cons.mp h with rfl | h
      · exact .inr ⟨x :: seg, List.mem_cons_self .., List.mem_cons_self ..⟩
      · refine (ih h).imp_right fun ⟨s, hs, hx⟩ => ?_
        rcases List.mem_cons.mp hs with rfl | hs
        · exact ⟨y :: s, List.mem_cons_self .., List.mem_cons_of_mem y hx⟩
        · exact ⟨s, List.mem_cons_of_mem _ hs, hx⟩

theorem eq_of_splitOn_eq_singleton {seg : List Char} (h : l.splitOn c = [seg]) : seg = l := by
  have hjoin : [c].intercalate (l.splitOn c) = l := List.intercalate_splitOn c
  rw [h] at hjoin
  simpa using hjoin

theorem any_tails_isPrefixOf {p s : List Char} :
    (s.tails.any fun t => p.isPrefixOf t) = true ↔ p <:+: s := by
  rw [List.any_eq_true, List.infix_iff_prefix_suffix]
  constructor
  · rintro ⟨t, ht, hp⟩
    exact ⟨t, List.isPrefixOf_iff_prefix.mp hp, (List.mem_tails _ _).mp ht⟩
  · rintro ⟨t, hp, ht⟩
    exact ⟨t, (List.mem_tails _ _).mpr ht, List.isPrefixOf_iff_prefix.mpr hp⟩

/-- `str.splitlines()`, with the current line held back to front. -/
def splitlinesGo : List Char → List Char → List (List Char)
  | [], acc => if acc.isEmpty then [] else [acc.reverse]
  | '\r' :: '\n' :: cs, acc => acc.reverse :: splitlinesGo cs []
  | c :: cs, acc =>
    if isLineBreak c then acc.reverse :: splitlinesGo cs [] else splitlinesGo cs (c :: acc)

/-- `str.splitlines()`. -/
def splitlinesChars (cs : List Char) : List (List Char) := splitlinesGo cs []

theorem splitlinesGo_line : ∀ (t acc cs : List Char), (∀ c ∈ t, isLineBreak c = false) →
    splitlinesGo (t ++ '\n' :: cs) acc = (acc.reverse ++ t) :: splitlinesGo cs []
  | [], acc, cs, _ => by
    rw [List.nil_append, splitlinesGo, if_pos (by decide), List.append_nil]
    rintro _ h
    exact absurd h (by decide)
  | c :: t, acc, cs, h => by
    have hc : isLineBreak c = false := h c List.mem_cons_self
    have ih := splitlinesGo_line t (c :: acc) cs (List.forall_mem_cons.mp h).2
    rw [List.cons_append, splitlinesGo, if_neg (by simp [hc]), ih]
    · simp
    · rintro _ rfl
      exact absurd hc (by decide)

/-- Put lines together, each ended by a line feed. -/
def joinLines (ls : List (List Char)) : List Char := ls.flatMap fun l => l ++ ['\n']

/-- Text put together from lines splits into these lines. -/
theorem splitlines_joinLines (ls : List (List Char))
    (h : ∀ l ∈ ls, ∀ c ∈ l, isLineBreak c = false) : splitlinesChars (joinLines ls) = ls := by
  induction ls with
  | nil => rfl
  | cons l ls ih =>
    have hl : ∀ c ∈ l, isLineBreak c = false := h l List.mem_cons_self
    have ht := ih (List.forall_mem_cons.mp h).2
    rw [splitlinesChars] at ht ⊢
    rw [joinLines, List.flatMap_cons, List.append_assoc, List.singleton_append,
      splitlinesGo_line l [] _ hl, ← joinLines, ht]
    rfl

theorem isLineBreak_of_mem_splitlinesGo : ∀ {cs acc : List Char},
    (∀ c ∈ acc, isLineBreak c = false) →
      ∀ l ∈ splitlinesGo cs acc, ∀ c ∈ l, isLineBreak c = false := by
  intro cs acc
  fun_induction splitlinesGo cs acc with
  | case1 acc hempty => exact fun _ l hl => nomatch hl
  | case2 acc hempty =>
    intro hacc l hl c hc
    obtain rfl := List.mem_singleton.mp hl
    exact hacc c (List.mem_reverse.mp hc)
  | case3 acc cs ih =>
    intro hacc l hl c hc
    rcases List.mem_cons.mp hl with rfl | hl
    · exact hacc c (List.mem_reverse.mp hc)
    · exact ih (fun c hc => nomatch hc) l hl c hc
  | case4 acc d cs _ hbreak ih =>
    intro hacc l hl c hc
    rcases List.mem_cons.mp hl with rfl | hl
    · exact hacc c (List.mem_reverse.mp hc)
    · exact ih (fun c hc => nomatch hc) l hl c hc
  | case5 acc d cs _ hbreak ih =>
    intro hacc l hl c hc
    refine ih (fun c hc => ?_) l hl c hc
    rcases List.mem_cons.mp hc with rfl | hc
    · simpa using hbreak
    · exact hacc c hc

theorem isLineBreak_of_mem_splitlines (h : l ∈ splitlinesChars cs)
    (hc : c ∈ l) : isLineBreak c = false :=
  isLineBreak_of_mem_splitlinesGo (fun _ hc => absurd hc List.not_mem_nil) l h c hc

/-! ## Numbers -/

/-- `str.isdigit()`. -/
def isDigits (cs : List Char) : Bool := !cs.isEmpty && cs.all Char.isDigit

/-- `int(s)` of a text of digits. -/
def ofDigits (cs : List Char) : ℕ := Nat.ofDigitChars 10 cs 0

/-- The decimal rendering of a number. -/
def decimal (n : ℕ) : List Char := Nat.toDigits 10 n

theorem isDigits_decimal (n : ℕ) : isDigits (decimal n) = true := by
  rw [isDigits, Bool.and_eq_true]
  constructor
  · simp [decimal, Nat.toDigits_ne_nil]
  · rw [List.all_eq_true]
    intro c hc
    exact Nat.isDigit_of_mem_toDigits (by decide) le_rfl hc

@[simp] theorem ofDigits_decimal (n : ℕ) : ofDigits (decimal n) = n :=
  Nat.ofDigitChars_ten_toDigits

theorem isDigit_of_mem_decimal {n : ℕ} (h : c ∈ decimal n) : c.isDigit = true :=
  Nat.isDigit_of_mem_toDigits (by decide) le_rfl h

/-- `int(s)`: optional white space around, an optional sign, and digits that single underscores
may separate.  Anything else raises `ValueError`, which is `none`. -/
def intChars (cs : List Char) : Option ℤ :=
  let body (ds : List Char) : Option ℕ :=
    if (ds.splitOn '_').all isDigits then some (ofDigits (ds.filter (· != '_'))) else none
  match stripChars cs with
  | '-' :: ds => (body ds).map fun n => -(n : ℤ)
  | '+' :: ds => (body ds).map fun n => (n : ℤ)
  | ds => (body ds).map fun n => (n : ℤ)

/-! ## The same on strings -/

def strip (s : String) : String := String.ofList (stripChars s.toList)

def split (s : String) : List String := (splitWs s.toList).map String.ofList

def splitlines (s : String) : List String := (splitlinesChars s.toList).map String.ofList

def lower (s : String) : String := String.ofList (s.toList.map Char.toLower)

def upper (s : String) : String := String.ofList (s.toList.map Char.toUpper)

def startsWith (s p : String) : Bool := p.toList.isPrefixOf s.toList

def endsWith (s p : String) : Bool := p.toList.isSuffixOf s.toList

def contains (s p : String) : Bool := s.toList.tails.any fun t => p.toList.isPrefixOf t

def isdigit (s : String) : Bool := isDigits s.toList

/-- `int(s)` of a text that `isdigit` accepts. -/
def nat (s : String) : ℕ := ofDigits s.toList

def int (s : String) : Option ℤ := intChars s.toList

def str (n : ℕ) : String := String.ofList (decimal n)

def join (sep : String) (parts : List String) : String := sep.intercalate parts

def rstrip (s : String) : String := String.ofList (rstripChars s.toList)

/-- The text of some lines, each ended by a line feed. -/
def unlines (lines : List String) : String := String.ofList (joinLines (lines.map String.toList))

theorem splitlines_unlines {lines : List String}
    (h : ∀ line ∈ lines, ∀ c ∈ line.toList, isLineBreak c = false) :
    splitlines (unlines lines) = lines := by
  have hbreak : ∀ l ∈ lines.map String.toList, ∀ c ∈ l, isLineBreak c = false := by
    intro l hl
    obtain ⟨line, hline, rfl⟩ := List.mem_map.mp hl
    exact h line hline
  have hid : String.ofList ∘ String.toList = id := funext fun _ => String.ofList_toList
  rw [unlines, splitlines, String.toList_ofList, splitlines_joinLines _ hbreak, List.map_map, hid,
    List.map_id]

theorem strip_strip (s : String) : strip (strip s) = strip s := by
  rw [strip, strip, String.toList_ofList, stripChars_stripChars]

theorem strip_of_forall {s : String} (h : ∀ c ∈ s.toList, isSpace c = false) : strip s = s := by
  rw [strip, stripChars_of_forall h, String.ofList_toList]

theorem toLower_of_isDigit (h : c.isDigit) : c.toLower = c := by
  simp only [Char.isDigit, Bool.and_eq_true, decide_eq_true_eq] at h
  have hhi : c.val.toNat ≤ 57 := UInt32.le_iff_toNat_le.mp h.2
  rw [Char.toLower, dif_neg]
  rintro ⟨hlo, -⟩
  have hlo' : 65 ≤ c.val.toNat := UInt32.le_iff_toNat_le.mp hlo
  omega

theorem eq_of_toLower {d : Char} (hd : d.toNat < 97) (h : c.toLower = d) : c = d := by
  rw [Char.toLower] at h
  split at h
  · next hu =>
    have hlo : 65 ≤ c.val.toNat := UInt32.le_iff_toNat_le.mp hu.1
    have hhi : c.val.toNat ≤ 90 := UInt32.le_iff_toNat_le.mp hu.2
    have hval := congrArg Char.toNat h
    simp only [Char.toNat, UInt32.toNat_add] at hval hd
    have hdist : ('a'.val - 'A'.val).toNat = 32 := rfl
    omega
  · exact h

theorem isDigit_of_isdigit {s : String} (h : isdigit s) (hc : c ∈ s.toList) :
    c.isDigit = true := by
  rw [isdigit, isDigits, Bool.and_eq_true, List.all_eq_true] at h
  exact h.2 c hc

theorem lower_of_isdigit {s : String} (h : isdigit s) : lower s = s := by
  have hmap : s.toList.map Char.toLower = s.toList.map id :=
    List.map_congr_left fun c hc => toLower_of_isDigit (isDigit_of_isdigit h hc)
  rw [lower, hmap, List.map_id, String.ofList_toList]

@[simp] theorem isdigit_str (n : ℕ) : isdigit (str n) = true := by
  rw [isdigit, str, String.toList_ofList, isDigits_decimal]

@[simp] theorem nat_str (n : ℕ) : nat (str n) = n := by
  rw [nat, str, String.toList_ofList, ofDigits_decimal]

end PyText
