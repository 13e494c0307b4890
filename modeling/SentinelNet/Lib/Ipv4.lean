import SentinelNet.Lib.Text

/-!
# IPv4 addresses

Dotted-quad parsing and rendering as the Python `ipaddress` module does them: four parts, each of
one to three ASCII digits, no leading zero, at most 255.  An address is a 32-bit word.

* `ofChars_format`: a rendered address reads back.
* `isQuad_format`: a rendered address is four runs of digits with a value of at most 255.
-/

namespace Ipv4

open PyText

abbrev Addr := BitVec 32

/-- One part of a dotted quad, `IPv4Address._parse_octet`. -/
def octet (cs : List Char) : Option ℕ :=
  if isDigits cs && cs.length ≤ 3 && (cs == ['0'] || cs.head? != some '0') then
    if ofDigits cs ≤ 255 then some (ofDigits cs) else none
  else none

/-- The word with the given parts, most significant first. -/
def pack (a b c d : ℕ) : Addr := BitVec.ofNat 32 (((a * 256 + b) * 256 + c) * 256 + d)

/-- `IPv4Address(s)`; `none` is `AddressValueError`. -/
def ofChars (cs : List Char) : Option Addr :=
  match cs.splitOn '.' with
  | [a, b, c, d] => do
    let a ← octet a
    let b ← octet b
    let c ← octet c
    let d ← octet d
    pure (pack a b c d)
  | _ => none

/-- The parts of an address, most significant first. -/
def part (a : Addr) (i : ℕ) : ℕ := a.toNat / 256 ^ (3 - i) % 256

theorem part_lt (a : Addr) (i : ℕ) : part a i < 256 := Nat.mod_lt _ (by decide)

/-- `str(IPv4Address(n))`. -/
def format (a : Addr) : List Char :=
  decimal (part a 0) ++ '.' :: (decimal (part a 1) ++ '.' :: (decimal (part a 2) ++
    '.' :: decimal (part a 3)))

theorem pack_part (a : Addr) : pack (part a 0) (part a 1) (part a 2) (part a 3) = a := by
  apply BitVec.eq_of_toNat_eq
  have h : a.toNat < 2 ^ 32 := a.isLt
  rw [pack, BitVec.toNat_ofNat]
  simp only [part]
  norm_num
  omega

/-! ## The decimal rendering of a part -/

variable {n : ℕ}

theorem decimal_of_lt_ten (h : n < 10) : decimal n = [n.digitChar] :=
  Nat.toDigits_of_lt_base h

theorem length_decimal_le (h : n < 256) : (decimal n).length ≤ 3 :=
  (Nat.length_toDigits_le_iff (by decide) (by decide)).mpr (by omega)

theorem head?_decimal (h : n ≠ 0) : (decimal n).head? ≠ some '0' := by
  induction n using Nat.strong_induction_on with
  | _ n ih =>
    rcases Nat.lt_or_ge n 10 with hn | hn
    · rw [decimal_of_lt_ten hn]
      interval_cases n <;> first | exact absurd rfl h | decide
    · have hq : n / 10 ≠ 0 := by omega
      have hd : decimal n = decimal (n / 10) ++ [(n % 10).digitChar] :=
        Nat.toDigits_of_base_le (by decide) hn
      have hne : decimal (n / 10) ≠ [] := Nat.toDigits_ne_nil
      rw [hd, List.head?_append_of_ne_nil _ hne]
      exact ih (n / 10) (by omega) hq

theorem octet_decimal (h : n < 256) : octet (decimal n) = some n := by
  have hlen : decide ((decimal n).length ≤ 3) = true := by
    simpa using length_decimal_le h
  have hzero : (decimal n == ['0'] || (decimal n).head? != some '0') = true := by
    by_cases hn : n = 0
    · subst hn
      rfl
    · rw [Bool.or_eq_true]
      exact Or.inr (by simpa using head?_decimal hn)
  have hle : n ≤ 255 := by omega
  rw [octet, isDigits_decimal, hlen, hzero, if_pos (by decide), ofDigits_decimal, if_pos hle]

theorem not_dot_of_mem_decimal : ∀ c ∈ decimal n, (c == '.') = false := by
  intro c hc
  have hd := isDigit_of_mem_decimal hc
  rw [beq_eq_false_iff_ne]
  rintro rfl
  exact absurd hd (by decide)

theorem splitOn_format (a : Addr) : (format a).splitOn '.' =
    [decimal (part a 0), decimal (part a 1), decimal (part a 2), decimal (part a 3)] := by
  rw [List.splitOn_eq_splitOnP, format,
    List.splitOnP_append_cons_of_forall_mem not_dot_of_mem_decimal _ (by decide),
    List.splitOnP_append_cons_of_forall_mem not_dot_of_mem_decimal _ (by decide),
    List.splitOnP_append_cons_of_forall_mem not_dot_of_mem_decimal _ (by decide),
    List.splitOnP_eq_singleton not_dot_of_mem_decimal]

/-- A rendered address reads back. -/
@[simp] theorem ofChars_format (a : Addr) : ofChars (format a) = some a := by
  rw [ofChars, splitOn_format]
  simp only [octet_decimal (part_lt a _), Option.bind_eq_bind, Option.bind_some, Option.pure_def]
  rw [pack_part]

/-! ## Four runs of digits -/

/-- Four runs of digits, each with a value of at most 255, between dots. -/
def isQuad (cs : List Char) : Bool :=
  let parts := cs.splitOn '.'
  parts.length == 4 && parts.all fun p => isDigits p && ofDigits p ≤ 255

@[simp] theorem isQuad_format (a : Addr) : isQuad (format a) = true := by
  have h (i : ℕ) : (isDigits (decimal (part a i)) && decide (ofDigits (decimal (part a i)) ≤ 255))
      = true := by
    have hlt := part_lt a i
    rw [isDigits_decimal, ofDigits_decimal, Bool.true_and, decide_eq_true_eq]
    omega
  rw [isQuad, splitOn_format]
  simp only [List.all_cons, List.all_nil, h]
  rfl

variable {cs : List Char}

theorem dot_mem_of_isQuad (h : isQuad cs) : '.' ∈ cs := by
  by_contra hdot
  have hsplit : cs.splitOn '.' = [cs] := by
    rw [List.splitOn_eq_splitOnP]
    refine List.splitOnP_eq_singleton fun c hc => ?_
    rw [beq_eq_false_iff_ne]
    rintro rfl
    exact hdot hc
  rw [isQuad, hsplit] at h
  simp at h

theorem head?_isDigit_of_isQuad (h : isQuad cs) : cs.head?.any Char.isDigit = true := by
  rcases cs with _ | ⟨c, cs⟩
  · exact absurd h (by decide)
  · rw [isQuad, Bool.and_eq_true, List.all_eq_true] at h
    obtain ⟨-, hall⟩ := h
    rw [List.splitOn_eq_splitOnP, List.splitOnP_cons_eq_if_modifyHead] at hall
    split at hall
    · exact absurd (hall [] List.mem_cons_self) (by decide)
    · obtain ⟨t, ts, ht⟩ := List.exists_cons_of_ne_nil (List.splitOnP_ne_nil (· == '.') cs)
      rw [ht, List.modifyHead_cons] at hall
      have hfirst := hall (c :: t) List.mem_cons_self
      simp only [isDigits, Bool.and_eq_true, List.all_cons] at hfirst
      simpa using hfirst.1.2.1

theorem isSpace_of_mem_format {a : Addr} {c : Char} (h : c ∈ format a) : isSpace c = false := by
  have hdec {n : ℕ} (hc : c ∈ decimal n) : isSpace c = false :=
    isSpace_of_isDigit (isDigit_of_mem_decimal hc)
  simp only [format, List.mem_append, List.mem_cons] at h
  rcases h with h | rfl | h | rfl | h | rfl | h
  · exact hdec h
  · rfl
  · exact hdec h
  · rfl
  · exact hdec h
  · rfl
  · exact hdec h

theorem isDigit_of_octet (h : octet cs = some n) {c : Char} (hc : c ∈ cs) : c.isDigit = true := by
  unfold octet at h
  split at h
  · next hdigits =>
    simp only [isDigits, Bool.and_eq_true, List.all_eq_true] at hdigits
    exact hdigits.1.1.2 c hc
  · cases h

theorem isSpace_of_ofChars {a : Addr} (h : ofChars cs = some a) {c : Char}
    (hc : c ∈ cs) : isSpace c = false := by
  unfold ofChars at h
  split at h
  · next p q r s hsplit =>
    obtain ⟨np, hp, h⟩ := Option.bind_eq_some_iff.mp h
    obtain ⟨nq, hq, h⟩ := Option.bind_eq_some_iff.mp h
    obtain ⟨nr, hr, h⟩ := Option.bind_eq_some_iff.mp h
    obtain ⟨ns, hs, -⟩ := Option.bind_eq_some_iff.mp h
    rcases mem_splitOn (c := '.') hc with rfl | ⟨seg, hseg, hc⟩
    · rfl
    · refine isSpace_of_isDigit ?_
      rw [hsplit] at hseg
      simp only [List.mem_cons, List.not_mem_nil, or_false] at hseg
      rcases hseg with rfl | rfl | rfl | rfl
      · exact isDigit_of_octet hp hc
      · exact isDigit_of_octet hq hc
      · exact isDigit_of_octet hr hc
      · exact isDigit_of_octet hs hc
  · cases h

theorem format_ne_nil (a : Addr) : format a ≠ [] := by
  simp [format]

end Ipv4
