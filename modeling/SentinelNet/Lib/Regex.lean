import SentinelNet.Lib.Text

/-!
# Backtracking regular expressions

The part of Python's `re` that line parsers use: character classes, sequence, alternation,
optional parts, greedy repetition of a class, named groups and `$`.  `run` lists all the ways an
expression matches the beginning of a text, in the order in which a backtracking matcher tries
them, so a match is the head of this list: the library never needs a second notion of priority.

* `first_seq`, `first_many`: when a sequence and a repetition match greedily.
* `search_append`: a search passes over the positions where the expression does not match.
-/

namespace Regex

open PyText

/-- A regular expression. -/
inductive Re where
  | eps
  | chr (p : Char → Bool)
  | seq (a b : Re)
  | alt (a b : Re)
  /-- `a?`, greedy. -/
  | opt (a : Re)
  /-- A greedy repetition of a class, at least `lo` and at most `hi` times. -/
  | many (p : Char → Bool) (lo : ℕ) (hi : Option ℕ)
  /-- `(?P<name>a)`. -/
  | group (name : String) (a : Re)
  /-- `$`. -/
  | eol

/-- The texts of the named groups. -/
abbrev Caps := List (String × List Char)

namespace Re

/-- A literal text. -/
def lit (s : List Char) : Re := s.foldr (fun c r => seq (chr (· == c)) r) eps

/-- A literal text, whatever the case. -/
def litNoCase (s : List Char) : Re :=
  s.foldr (fun c r => seq (chr fun d => d.toLower == c.toLower) r) eps

/-- `a{n}`. -/
def times : ℕ → Re → Re
  | 0, _ => eps
  | n + 1, a => seq a (times n a)

/-- `\s+`. -/
def spaces1 : Re := many isSpace 1 none

/-- `\s*`. -/
def spaces0 : Re := many isSpace 0 none

/-- `\d+`. -/
def digits1 : Re := many Char.isDigit 1 none

/-- `.*`. -/
def anything : Re := many (· != '\n') 0 none

end Re

open Re

/-- How many characters a repetition takes at most. -/
def reach (p : Char → Bool) (hi : Option ℕ) (s : List Char) : ℕ :=
  match hi with
  | none => (s.takeWhile p).length
  | some n => min n (s.takeWhile p).length

/-- The lengths a greedy repetition tries, the longest first. -/
def lengths (lo n : ℕ) : List ℕ := ((List.range (n + 1)).filter (lo ≤ ·)).reverse

/-- All the matches at the beginning of a text, in the order of a backtracking matcher, each with
the groups it sets and the text it leaves. -/
@[grind =] def run : Re → List Char → List (Caps × List Char)
  | .eps, s => [([], s)]
  | .chr _, [] => []
  | .chr p, c :: s => if p c then [([], s)] else []
  | .seq a b, s => (run a s).flatMap fun m => (run b m.2).map fun m' => (m.1 ++ m'.1, m'.2)
  | .alt a b, s => run a s ++ run b s
  | .opt a, s => run a s ++ [([], s)]
  | .many p lo hi, s => (lengths lo (reach p hi s)).map fun k => ([], s.drop k)
  | .group name a, s => (run a s).map fun m => ((name, s.take (s.length - m.2.length)) :: m.1, m.2)
  | .eol, s => if s = [] ∨ s = ['\n'] then [([], s)] else []

/-- The match a backtracking matcher settles on. -/
def first (r : Re) (s : List Char) : Option (Caps × List Char) := (run r s).head?

def matchStart (r : Re) (s : List Char) : Option Caps := (first r s).map Prod.fst

def fullmatch (r : Re) (s : List Char) : Option Caps :=
  ((run r s).find? fun m => m.2.isEmpty).map Prod.fst

def search (r : Re) (s : List Char) : Option Caps :=
  s.tails.findSome? fun t => matchStart r t

/-- The loop of `findall`: the next match, or one character further; the number bounds the rounds
and each round takes a character. -/
def findallGo (r : Re) : ℕ → List Char → List (List Char)
  | 0, _ => []
  | _ + 1, [] => []
  | n + 1, c :: s =>
    match first r (c :: s) with
    | some (_, s') =>
      if s'.length < s.length + 1 then (c :: s).take (s.length + 1 - s'.length) :: findallGo r n s'
      else findallGo r n s
    | none => findallGo r n s

/-- `re.findall(r, s)` for an expression that does not match the empty text. -/
def findall (r : Re) (s : List Char) : List (List Char) := findallGo r s.length s

/-- `m.group(name)`, empty when the group took no part. -/
def capture (m : Caps) (name : String) : List Char := (m.lookup name).getD []

/-! ## Failure -/

variable {p : Char → Bool} {s : List Char}

theorem run_chr_eq_nil (h : ∀ c ∈ s.head?, p c = false) : run (chr p) s = [] := by
  rcases s with _ | ⟨c, s⟩
  · rfl
  · have hc : p c = false := h c rfl
    rw [run, hc]
    rfl

variable {a : Re}

theorem run_seq_eq_nil {b : Re} (h : run a s = []) : run (seq a b) s = [] := by
  rw [run, h, List.flatMap_nil]

theorem run_seq_eq_nil_right {b : Re} (h : ∀ m ∈ run a s, run b m.2 = []) :
    run (seq a b) s = [] := by
  rw [run, List.flatMap_eq_nil_iff]
  intro m hm
  rw [h m hm, List.map_nil]

theorem run_group_eq_nil {name : String} (h : run a s = []) : run (group name a) s = [] := by
  rw [run, h, List.map_nil]

variable {lo : ℕ}

theorem lengths_eq_nil {n : ℕ} (h : n < lo) : lengths lo n = [] := by
  rw [lengths, List.reverse_eq_nil_iff, List.filter_eq_nil_iff]
  intro k hk
  have hk' : k < n + 1 := List.mem_range.mp hk
  simp only [decide_eq_true_eq]
  omega

theorem run_many_eq_nil {hi : Option ℕ} (hlo : 0 < lo)
    (h : ∀ c ∈ s.head?, p c = false) : run (many p lo hi) s = [] := by
  have htake : s.takeWhile p = [] := by
    rcases s with _ | ⟨c, s⟩
    · rfl
    · rw [List.takeWhile_cons_of_neg]
      simpa using h c rfl
  have hreach : reach p hi s = 0 := by
    cases hi <;> simp [reach, htake]
  rw [run, hreach, lengths_eq_nil hlo, List.map_nil]

variable {r : Re}

theorem first_eq_none : first r s = none ↔ run r s = [] := by
  rw [first, List.head?_eq_none_iff]

theorem matchStart_eq_none (h : run r s = []) : matchStart r s = none := by
  rw [matchStart, first_eq_none.mpr h, Option.map_none]

theorem search_eq_none (h : ∀ t, t <:+ s → run r t = []) : search r s = none := by
  rw [search, List.findSome?_eq_none_iff]
  intro t ht
  exact matchStart_eq_none (h t ((List.mem_tails _ _).mp ht))

/-! ## The greedy match -/

@[simp] theorem first_eps (s : List Char) : first eps s = some ([], s) := rfl

theorem first_chr {c : Char} (h : p c) (s : List Char) :
    first (chr p) (c :: s) = some ([], s) := by
  rw [first, run, h]
  rfl

variable {s' : List Char} {m : Caps}

/-- When the first part matches and the second part accepts what is left, the sequence matches
so. -/
theorem first_seq {b : Re} {s'' : List Char} {m' : Caps}
    (ha : first a s = some (m, s')) (hb : first b s' = some (m', s'')) :
    first (seq a b) s = some (m ++ m', s'') := by
  obtain ⟨as, has⟩ := List.head?_eq_some_iff.mp ha
  obtain ⟨bs, hbs⟩ := List.head?_eq_some_iff.mp hb
  rw [first, run, has, List.flatMap_cons, hbs, List.map_cons, List.cons_append, List.head?_cons]

theorem first_opt (h : first a s = some (m, s')) : first (opt a) s = some (m, s') := by
  obtain ⟨as, has⟩ := List.head?_eq_some_iff.mp h
  rw [first, run, has, List.cons_append, List.head?_cons]

theorem first_opt_of_nil (h : run a s = []) : first (opt a) s = some ([], s) := by
  rw [first, run, h]
  rfl

theorem first_group {name : String} {t : List Char}
    (h : first a s = some (m, s')) (hs : s = t ++ s') :
    first (group name a) s = some ((name, t) :: m, s') := by
  obtain ⟨as, has⟩ := List.head?_eq_some_iff.mp h
  have htake : s.take (s.length - s'.length) = t := by
    rw [hs, List.length_append, Nat.add_sub_cancel, List.take_left]
  rw [first, run, has, List.map_cons, List.head?_cons, htake]

theorem head?_lengths {n : ℕ} (h : lo ≤ n) : (lengths lo n).head? = some n := by
  rw [lengths, List.head?_reverse, List.range_succ, List.filter_append, List.getLast?_append]
  simp [h]

theorem takeWhile_append_of {t : List Char} (ht : ∀ c ∈ t, p c = true)
    (hs : ∀ c ∈ s.head?, p c = false) : (t ++ s).takeWhile p = t := by
  rw [List.takeWhile_append_of_pos ht]
  rcases s with _ | ⟨c, s⟩
  · rw [List.takeWhile_nil, List.append_nil]
  · have hc : p c = false := hs c rfl
    rw [List.takeWhile_cons_of_neg (by simp [hc]), List.append_nil]

/-- A repetition takes the whole run of its class. -/
theorem first_many {hi : Option ℕ} {t : List Char}
    (ht : ∀ c ∈ t, p c = true) (hs : ∀ c ∈ s.head?, p c = false) (hlo : lo ≤ t.length)
    (hhi : ∀ n ∈ hi, t.length ≤ n) : first (many p lo hi) (t ++ s) = some ([], s) := by
  have hreach : reach p hi (t ++ s) = t.length := by
    have htake := takeWhile_append_of ht hs
    rcases hi with _ | n
    · rw [reach, htake]
    · rw [reach, htake, Nat.min_eq_right (hhi n rfl)]
  rw [first, run, hreach, List.head?_map, head?_lengths hlo, Option.map_some, List.drop_left]

theorem first_lit : ∀ (t s : List Char), first (lit t) (t ++ s) = some ([], s)
  | [], _ => rfl
  | c :: t, s => first_seq (first_chr (by simp) _) (first_lit t s)

theorem first_eol : first eol [] = some ([], []) := rfl

theorem matchStart_of_first (h : first r s = some (m, s')) : matchStart r s = some m := by
  rw [matchStart, h, Option.map_some]

/-! ## Searches -/

theorem search_of_matchStart (h : matchStart r s = some m) : search r s = some m := by
  cases s with
  | nil => rw [search, List.tails, List.findSome?_cons, h]
  | cons c s => rw [search, List.tails_cons, List.findSome?_cons, h]

/-- A search passes over a text at whose positions the expression does not match. -/
theorem search_append {pre : List Char}
    (h : ∀ c u, c :: u <:+ pre → run r (c :: u ++ s) = []) : search r (pre ++ s) = search r s := by
  induction pre with
  | nil => rfl
  | cons c pre ih =>
    have hc : matchStart r (c :: (pre ++ s)) = none :=
      matchStart_eq_none (h c pre (List.suffix_refl _))
    have hstep : search r (c :: (pre ++ s)) = search r (pre ++ s) := by
      rw [search, List.tails_cons, List.findSome?_cons, hc, search]
    rw [List.cons_append, hstep]
    exact ih fun c' u hu => h c' u (hu.trans (List.suffix_cons c pre))

/-! ## What a match takes -/

/-- The characters an expression takes have a property. -/
def Within (P : Char → Prop) : Re → Prop
  | .eps => True
  | .chr p => ∀ c, p c = true → P c
  | .seq a b => Within P a ∧ Within P b
  | .alt a b => Within P a ∧ Within P b
  | .opt a => Within P a
  | .many p _ _ => ∀ c, p c = true → P c
  | .group _ a => Within P a
  | .eol => True

theorem within_lit {P : Char → Prop} : ∀ {t : List Char}, (∀ c ∈ t, P c) → Within P (Re.lit t)
  | [], _ => trivial
  | c :: t, h => by
    refine ⟨fun d hd => ?_, within_lit (List.forall_mem_cons.mp h).2⟩
    obtain rfl := beq_iff_eq.mp hd
    exact h d List.mem_cons_self

theorem reach_le (p : Char → Bool) (hi : Option ℕ) (s : List Char) :
    reach p hi s ≤ (s.takeWhile p).length := by
  cases hi with
  | none => exact le_refl _
  | some n => exact Nat.min_le_right _ _

/-- A match takes a beginning of the text, of characters the expression may take. -/
theorem run_within {P : Char → Prop} : ∀ {r : Re} {s : List Char} {m : Caps × List Char},
    Within P r → m ∈ run r s → ∃ t, s = t ++ m.2 ∧ ∀ c ∈ t, P c
  | .eps, s, m, _, hm => by
    obtain rfl := List.mem_singleton.mp hm
    exact ⟨[], rfl, fun c hc => nomatch hc⟩
  | .chr p, [], m, _, hm => nomatch hm
  | .chr p, c :: s, m, h, hm => by
    rw [run] at hm
    split at hm
    · next hp =>
      obtain rfl := List.mem_singleton.mp hm
      refine ⟨[c], rfl, fun d hd => ?_⟩
      obtain rfl := List.mem_singleton.mp hd
      exact h d hp
    · cases hm
  | .seq a b, s, m, h, hm => by
    rw [run, List.mem_flatMap] at hm
    obtain ⟨m₁, hm₁, hm⟩ := hm
    obtain ⟨m₂, hm₂, rfl⟩ := List.mem_map.mp hm
    obtain ⟨t₁, hs, ht₁⟩ := run_within h.1 hm₁
    obtain ⟨t₂, hs₂, ht₂⟩ := run_within h.2 hm₂
    refine ⟨t₁ ++ t₂, by rw [hs, hs₂, List.append_assoc], fun c hc => ?_⟩
    exact (List.mem_append.mp hc).elim (ht₁ c) (ht₂ c)
  | .alt a b, s, m, h, hm => by
    rw [run, List.mem_append] at hm
    exact hm.elim (run_within h.1) (run_within h.2)
  | .opt a, s, m, h, hm => by
    rw [run, List.mem_append] at hm
    rcases hm with hm | hm
    · exact run_within (r := a) h hm
    · obtain rfl := List.mem_singleton.mp hm
      exact ⟨[], rfl, fun c hc => nomatch hc⟩
  | .many p lo hi, s, m, h, hm => by
    rw [run] at hm
    obtain ⟨k, hk, rfl⟩ := List.mem_map.mp hm
    have hk' : k ≤ (s.takeWhile p).length := by
      rw [lengths, List.mem_reverse, List.mem_filter, List.mem_range] at hk
      have := reach_le p hi s
      omega
    refine ⟨s.take k, (List.take_append_drop k s).symm, fun c hc => h c ?_⟩
    have htake : s.take k = (s.takeWhile p).take k := by
      conv_lhs => rw [← List.takeWhile_append_dropWhile (p := p) (l := s)]
      rw [List.take_append_of_le_length hk']
    rw [htake] at hc
    exact List.mem_takeWhile_imp (List.mem_of_mem_take hc)
  | .group name a, s, m, h, hm => by
    rw [run] at hm
    obtain ⟨m', hm', hmm⟩ := List.mem_map.mp hm
    obtain ⟨t, hs, ht⟩ := run_within (r := a) h hm'
    rw [← hmm]
    exact ⟨t, hs, ht⟩
  | .eol, s, m, _, hm => by
    rw [run] at hm
    split at hm
    · obtain rfl := List.mem_singleton.mp hm
      exact ⟨[], rfl, fun c hc => nomatch hc⟩
    · cases hm

theorem mem_of_fullmatch {P : Char → Prop} (hr : Within P r)
    (h : (fullmatch r s).isSome) : ∀ c ∈ s, P c := by
  rw [fullmatch, Option.isSome_map, List.find?_isSome] at h
  obtain ⟨m, hm, hempty⟩ := h
  obtain ⟨t, hs, ht⟩ := run_within hr hm
  rw [List.isEmpty_iff.mp hempty, List.append_nil] at hs
  rw [hs]
  exact ht

end Regex
