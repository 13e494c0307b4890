import SentinelNet.RouteTable.EntryLines

/-!
# Lines with a code

The beginning of a route entry against the expression of a route.  A qualifier behind a blank is
read over; one that stands directly after the code is not, and then the line is no route at all.

* `first_iosRoute`: the groups of a line with a code.
* `run_iosRoute_eq_nil`: a line whose qualifier is glued to its code.
* `search_connected_line`, `search_via_line`: what such a line is searched for.
-/

namespace SentinelNet.RouteTable

open PyText Regex

/-! ## Codes and qualifiers -/

theorem mem_codes {c : Char} {t : String} (h : iosCodeTypes.lookup c = some t) :
    c ∈ iosCodeTypes.map Prod.fst := by
  obtain ⟨l₁, l₂, hl, -⟩ := List.lookup_eq_some_iff.mp h
  rw [hl]
  simp

theorem EntryHead.code_spec (h : EntryHead) :
    isLetter h.code = true ∧ isSpace h.code = false ∧ h.code ≠ 's' ∧ h.code.toLower ≠ '%' := by
  have hall : ∀ c ∈ iosCodeTypes.map Prod.fst,
      isLetter c = true ∧ isSpace c = false ∧ c ≠ 's' ∧ c.toLower ≠ '%' := by decide
  exact hall _ (mem_codes h.known)

theorem first_qualifier {q : List Char} (hq : q ∈ qualifiers) (s : List Char) :
    first (reQualifier qualifiers) (q ++ s) = some ([], s) := by
  have hmem : q = ['I', 'A'] ∨ q = ['E', 'X'] ∨ q = ['E', '1'] ∨ q = ['E', '2'] ∨ q = ['N', '1'] ∨
      q = ['N', '2'] ∨ q = ['L', '1'] ∨ q = ['L', '2'] ∨ q = ['s', 'u'] := by
    simpa [qualifiers] using hq
  rcases hmem with rfl | rfl | rfl | rfl | rfl | rfl | rfl | rfl | rfl <;> rfl

theorem run_qualifier_eq_nil {s : List Char} (hs : ∀ c ∈ s.head?, c.isDigit = true ∨ c = ' ') :
    run (reQualifier qualifiers) s = [] := by
  rcases s with _ | ⟨c, s⟩
  · rfl
  · have hc : ∀ d ∈ ['I', 'E', 'N', 'L', 's'], (c == d) = false := by
      intro d hd
      rw [beq_eq_false_iff_ne]
      rintro rfl
      rcases hs c rfl with hdig | rfl
      · have hall : ∀ d ∈ ['I', 'E', 'N', 'L', 's'], d.isDigit = false := by decide
        rw [hall c hd] at hdig
        exact absurd hdig (by decide)
      · exact absurd hd (by decide)
    have hI := hc 'I' (by decide)
    have hE := hc 'E' (by decide)
    have hN := hc 'N' (by decide)
    have hL := hc 'L' (by decide)
    have hS := hc 's' (by decide)
    simp [qualifiers, reQualifier, Re.lit, run, hI, hE, hN, hL, hS]

/-! ## The beginning of an entry -/

namespace EntryHead

/-- The mark of a code, when there is one. -/
def starText (h : EntryHead) : List Char := if h.star then ['*'] else []

/-- The qualifier with the blanks before it, when there is one. -/
def qualText (h : EntryHead) : List Char := (h.qual.map fun q => blanks q.1 ++ q.2).getD []

/-- The groups of a line with a code, before those of its rest. -/
def caps (h : EntryHead) (rest : Caps) : Caps :=
  ("code", [h.code]) ::
    ((if h.star then [("star", ['*'])] else []) ++ ("net", h.netText) :: rest)

section

variable (h : EntryHead)

include h

theorem text_append (s : List Char) : h.text ++ s =
    h.code :: (h.starText ++ (h.qualText ++ (blanks (h.gap + 1) ++ (h.netText ++ s)))) := by
  simp [text, mark, starText, qualText]

theorem netText_ne_nil : h.netText ≠ [] := by
  simp [netText, Ipv4.format_ne_nil]

theorem head?_netText (s : List Char) :
    ∀ c ∈ (h.netText ++ s).head?, c.isDigit = true := by
  intro c hc
  have htext : h.netText ++ s = decimal (Ipv4.part h.net 0) ++
      (('.' :: decimal (Ipv4.part h.net 1) ++ '.' :: decimal (Ipv4.part h.net 2) ++
        '.' :: decimal (Ipv4.part h.net 3)) ++ '/' :: decimal h.len ++ s) := by
    simp [netText, Ipv4.format]
  rw [htext, List.head?_append_of_ne_nil _ (decimal_ne_nil _)] at hc
  exact isDigit_of_mem_decimal (List.mem_of_mem_head? hc)

theorem head?_netText_not_space (s : List Char) :
    ∀ c ∈ (h.netText ++ s).head?, isSpace c = false :=
  fun c hc => isSpace_of_isDigit (h.head?_netText s c hc)

theorem capture_code (m : Caps) : capture (h.caps m) "code" = [h.code] := rfl

theorem capture_net (m : Caps) : capture (h.caps m) "net" = h.netText := by
  rw [caps]
  cases h.star <;> rfl

theorem capture_rest (m : Caps) : capture (h.caps m) "rest" = capture m "rest" := by
  rw [caps]
  cases h.star <;> rfl

theorem head?_qualText (s : List Char) :
    ∀ c ∈ (h.qualText ++ (blanks (h.gap + 1) ++ s)).head?, c ≠ '*' := by
  have hblank (n : ℕ) (t : List Char) : ∀ c ∈ (blanks (n + 1) ++ t).head?, c ≠ '*' := by
    intro c hc
    obtain rfl : ' ' = c := Option.some.inj hc
    decide
  rcases hq : h.qual with _ | ⟨k, q⟩
  · rw [qualText, hq]
    exact hblank h.gap s
  · rw [qualText, hq, Option.map_some, Option.getD_some, List.append_assoc]
    rcases k with _ | k
    · have hmem : q ∈ qualifiers := h.qual_mem (0, q) hq
      have hall : ∀ q ∈ qualifiers, q ≠ [] ∧ '*' ∉ q := by decide
      intro c hc
      rw [show blanks 0 = [] from rfl, List.nil_append,
        List.head?_append_of_ne_nil _ (hall q hmem).1] at hc
      rintro rfl
      exact (hall q hmem).2 (List.mem_of_mem_head? hc)
    · exact hblank k _

theorem first_star {s : List Char} (hs : ∀ c ∈ s.head?, c ≠ '*') :
    first (.opt (.group "star" (.chr (· == '*')))) (h.starText ++ s) =
      some (if h.star then [("star", ['*'])] else [], s) := by
  rw [starText]
  cases h.star with
  | true => exact first_opt (first_group (t := ['*']) (first_chr rfl s) rfl)
  | false =>
    refine first_opt_of_nil (run_group_eq_nil (run_chr_eq_nil fun c hc => ?_))
    exact beq_eq_false_iff_ne.mpr (hs c hc)

theorem first_qual (hg : h.glued = false) (s : List Char) :
    first (.opt (.seq .spaces1 (reQualifier qualifiers)))
      (h.qualText ++ (blanks (h.gap + 1) ++ (h.netText ++ s))) =
      some ([], blanks (h.gap + 1) ++ (h.netText ++ s)) := by
  rcases hq : h.qual with _ | ⟨k, q⟩
  · rw [qualText, hq]
    refine first_opt_of_nil (run_seq_eq_nil_right fun m hm => run_qualifier_eq_nil fun c hc => ?_)
    rcases run_spaces_blanks (h.head?_netText_not_space s) hm with hm | hm
    · rw [hm] at hc
      exact Or.inl (h.head?_netText s c hc)
    · rw [hm] at hc
      exact Or.inr (Option.some.inj hc).symm
  · rcases k with _ | k
    · rw [glued, hq] at hg
      simp at hg
    · have hmem : q ∈ qualifiers := h.qual_mem (k + 1, q) hq
      have hall : ∀ q ∈ qualifiers, q ≠ [] ∧ ∀ c ∈ q, isSpace c = false := by decide
      rw [qualText, hq, Option.map_some, Option.getD_some, List.append_assoc]
      refine first_opt (first_seq (first_blanks k fun c hc => ?_) (first_qualifier hmem _))
      rw [List.head?_append_of_ne_nil _ (hall q hmem).1] at hc
      exact (hall q hmem).2 c (List.mem_of_mem_head? hc)

/-- The groups of a line with a code. -/
theorem first_iosRoute (hg : h.glued = false) {s : List Char} {m : Caps}
    (hs : ∀ c ∈ s.head?, c.isDigit = false) (hm : first reRest s = some (m, [])) :
    first reIosRoute (h.text ++ s) = some (h.caps m, []) := by
  have hnet : first reNetRest (blanks (h.gap + 1) ++ (h.netText ++ s)) =
      some (("net", h.netText) :: m, []) :=
    first_seq (first_blanks h.gap (h.head?_netText_not_space s))
      (first_seq (first_group (first_net h hs) rfl) hm)
  rw [h.text_append]
  exact first_seq (first_group (t := [h.code]) (first_chr h.code_spec.1 _) rfl)
    (first_seq (h.first_star (h.head?_qualText _)) (first_seq (h.first_qual hg s) hnet))

end

theorem run_qual_net_eq_nil {s : List Char} (hs : ∀ c ∈ s.head?, isSpace c = false) :
    run (.seq (.opt (.seq .spaces1 (reQualifier qualifiers))) reNetRest) s = [] := by
  have hspaces : run Re.spaces1 s = [] := run_many_eq_nil (by decide) hs
  refine run_seq_eq_nil_right fun m hm => ?_
  rw [run, run_seq_eq_nil hspaces, List.nil_append] at hm
  obtain rfl := List.mem_singleton.mp hm
  exact run_seq_eq_nil hspaces

/-- A qualifier that is glued to its code ends the reading of the line. -/
theorem run_iosRoute_eq_nil (h : EntryHead) (hg : h.glued) (s : List Char) :
    run reIosRoute (h.text ++ s) = [] := by
  obtain ⟨⟨k, q⟩, hq, hk⟩ := (Option.any_eq_true _ _).mp hg
  obtain rfl : k = 0 := beq_iff_eq.mp hk
  have hmem : q ∈ qualifiers := h.qual_mem (0, q) hq
  have hall : ∀ q ∈ qualifiers, q ≠ [] ∧ ∀ c ∈ q, isSpace c = false := by decide
  have hqual (t : List Char) : ∀ c ∈ (h.qualText ++ t).head?, isSpace c = false := by
    intro c hc
    rw [qualText, hq, Option.map_some, Option.getD_some, show blanks 0 = [] from rfl,
      List.nil_append, List.head?_append_of_ne_nil _ (hall q hmem).1] at hc
    exact (hall q hmem).2 c (List.mem_of_mem_head? hc)
  rw [h.text_append]
  refine run_seq_eq_nil_right fun m hm => run_seq_eq_nil_right fun m' hm' => ?_
  have hcode : m.2 = h.starText ++ (h.qualText ++ (blanks (h.gap + 1) ++ (h.netText ++ s))) := by
    rw [run, run, h.code_spec.1, if_pos rfl, List.map_singleton] at hm
    rw [List.mem_singleton.mp hm]
  rw [hcode] at hm'
  refine run_qual_net_eq_nil fun c hc => ?_
  rw [starText] at hm'
  cases hstar : h.star with
  | true =>
    rw [hstar, if_pos rfl] at hm'
    have hcases : m'.2 = h.qualText ++ (blanks (h.gap + 1) ++ (h.netText ++ s)) ∨
        m'.2 = '*' :: (h.qualText ++ (blanks (h.gap + 1) ++ (h.netText ++ s))) := by
      rw [run, List.mem_append] at hm'
      rcases hm' with hm' | hm'
      · rw [run] at hm'
        obtain ⟨m'', hm'', rfl⟩ := List.mem_map.mp hm'
        left
        have hrun : run (.chr (· == '*'))
            (['*'] ++ (h.qualText ++ (blanks (h.gap + 1) ++ (h.netText ++ s)))) =
            [([], h.qualText ++ (blanks (h.gap + 1) ++ (h.netText ++ s)))] := rfl
        rw [hrun] at hm''
        rw [List.mem_singleton.mp hm'']
      · right
        rw [List.mem_singleton.mp hm']
        rfl
    rcases hcases with he | he
    · rw [he] at hc
      exact hqual _ c hc
    · rw [he] at hc
      obtain rfl : '*' = c := Option.some.inj hc
      decide
  | false =>
    rw [hstar, if_neg (by decide), List.nil_append, run] at hm'
    have hnil : run (.group "star" (.chr (· == '*')))
        (h.qualText ++ (blanks (h.gap + 1) ++ (h.netText ++ s))) = [] :=
      run_group_eq_nil (run_chr_eq_nil fun d hd =>
        beq_eq_false_iff_ne.mpr (h.head?_qualText _ d hd))
    rw [hnil, List.nil_append] at hm'
    rw [List.mem_singleton.mp hm'] at hc
    exact hqual _ c hc

end EntryHead

end SentinelNet.RouteTable
