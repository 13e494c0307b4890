import SentinelNet.Lib.Text

/-!
# Paths of URLs

What a client makes of the path that it is given before it asks for a resource: it cuts the query
and the fragment off, decodes the percent-encodings of unreserved characters and follows the dot
segments.

* `walk`: the segments that are left where dot segments are followed.
* `segments_append`, `resource_eq`: a path that begins with a directory.
-/

namespace UrlPath

abbrev Segment := List Char

/-! ## Segments -/

/-- The path without its query and fragment. -/
def cut (cs : List Char) : List Char := cs.takeWhile fun c => c ≠ '?' ∧ c ≠ '#'

/-- The characters that need no encoding. -/
def isUnreserved (c : Char) : Bool := c.isAlphanum || c ∈ ['-', '.', '_', '~']

/-- The value of a hexadecimal digit. -/
def hexValue (c : Char) : Option ℕ :=
  if c.isDigit then some (c.toNat - '0'.toNat)
  else if 'a' ≤ c ∧ c ≤ 'f' then some (c.toNat - 'a'.toNat + 10)
  else if 'A' ≤ c ∧ c ≤ 'F' then some (c.toNat - 'A'.toNat + 10)
  else none

/-- The unreserved character that two hexadecimal digits stand for. -/
def encoded (a b : Char) : Option Char :=
  match hexValue a, hexValue b with
  | some x, some y => if isUnreserved (Char.ofNat (16 * x + y)) then some (Char.ofNat (16 * x + y))
    else none
  | _, _ => none

/-- The percent-encodings of unreserved characters decoded. -/
def decode : List Char → List Char
  | [] => []
  | '%' :: a :: b :: cs =>
    match encoded a b with
    | some c => c :: decode cs
    | none => '%' :: decode (a :: b :: cs)
  | c :: cs => c :: decode cs

def segments (cs : List Char) : List Segment := (decode (cut cs)).splitOn '/'

/-! ## Dot segments -/

/-- A segment is followed: one dot stays, two dots go up. -/
def follow (out : List Segment) (seg : Segment) : List Segment :=
  if seg = ['.'] then out else if seg = ['.', '.'] then out.dropLast else out ++ [seg]

def walk (out : List Segment) (segs : List Segment) : List Segment := segs.foldl follow out

def isDots (seg : Segment) : Bool := seg = ['.'] ∨ seg = ['.', '.']

/-- Before the first slash there is nothing. -/
def rooted : List Segment → List Segment
  | [] :: out => [] :: out
  | out => [] :: out

/-- The dot segments of a path that begins with a slash are followed; one at the end leaves a
directory. -/
def removeDots (segs : List Segment) : List Segment :=
  rooted (walk [] segs) ++ if segs.getLast?.any isDots then [[]] else []

/-- The resource of a path that begins with a slash. -/
def resource (cs : List Char) : List Segment := removeDots (segments cs)

/-! ## Paths in parts -/

variable {a b cs : List Char} {out segs : List Segment}

/-- Nothing is cut off. -/
def Uncut (cs : List Char) : Prop := ∀ c ∈ cs, c ≠ '?' ∧ c ≠ '#'

instance : Decidable (Uncut cs) := List.decidableBAll _ _

theorem cut_append (h : Uncut a) (b : List Char) : cut (a ++ b) = a ++ cut b :=
  List.takeWhile_append_of_pos fun c hc => decide_eq_true (h c hc)

theorem cut_of_uncut (h : Uncut a) : cut a = a :=
  List.takeWhile_eq_self_iff.mpr fun c hc => decide_eq_true (h c hc)

variable {c : Char}

theorem cut_append_mark (h : Uncut a) (hc : c = '?' ∨ c = '#') (b : List Char) :
    cut (a ++ c :: b) = a := by
  have hmark : ¬decide (c ≠ '?' ∧ c ≠ '#') = true := fun hne =>
    hc.elim (of_decide_eq_true hne).1 (of_decide_eq_true hne).2
  rw [cut_append h, cut, List.takeWhile_cons, if_neg hmark, List.append_nil]

theorem uncut_or_mark (cs : List Char) :
    Uncut cs ∨ ∃ a c b, cs = a ++ c :: b ∧ Uncut a ∧ (c = '?' ∨ c = '#') := by
  induction cs with
  | nil => exact .inl fun _ h => absurd h List.not_mem_nil
  | cons d cs ih =>
    by_cases hd : d ≠ '?' ∧ d ≠ '#'
    · have hcons : ∀ {l}, Uncut l → Uncut (d :: l) := fun hl c hc =>
        (List.mem_cons.mp hc).elim (fun h => h ▸ hd) (hl c)
      refine ih.imp hcons ?_
      rintro ⟨a, c, b, rfl, ha, hc⟩
      exact ⟨d :: a, c, b, rfl, hcons ha, hc⟩
    · refine .inr ⟨[], d, cs, rfl, fun _ h => absurd h List.not_mem_nil, ?_⟩
      by_cases hq : d = '?'
      · exact .inl hq
      · exact .inr (by_contra fun hn => hd ⟨hq, hn⟩)

theorem encoded_slash_left (b : Char) : encoded '/' b = none := rfl

theorem encoded_slash_right (a : Char) : encoded a '/' = none := by
  rw [encoded]
  cases hexValue a <;> rfl

theorem decode_cons_of_ne (h : c ≠ '%') (cs : List Char) : decode (c :: cs) = c :: decode cs := by
  rw [decode]
  rintro a b cs' hc -
  exact h hc

theorem decode_of_encoded {x y : Char} (h : encoded x y = some c) (cs : List Char) :
    decode ('%' :: x :: y :: cs) = c :: decode cs := by
  rw [decode, h]

theorem decode_of_not_encoded {x y : Char} (h : encoded x y = none) (cs : List Char) :
    decode ('%' :: x :: y :: cs) = '%' :: decode (x :: y :: cs) := by
  rw [decode, h]

theorem decode_of_not_mem (h : '%' ∉ cs) : decode cs = cs := by
  induction cs with
  | nil => rfl
  | cons c cs ih =>
    rw [List.mem_cons, not_or] at h
    rw [decode_cons_of_ne (Ne.symm h.1), ih h.2]

theorem decode_append_slash (a b : List Char) :
    decode (a ++ '/' :: b) = decode a ++ '/' :: decode b := by
  have hslash : ∀ cs, decode ('/' :: cs) = '/' :: decode cs := fun cs =>
    decode_cons_of_ne (by decide) cs
  fun_induction decode a with
  | case1 => exact hslash b
  | case2 x y cs c hc ih =>
    exact (decode_of_encoded hc _).trans (congrArg (c :: ·) ih)
  | case3 x y cs hc ih =>
    exact (decode_of_not_encoded hc _).trans (congrArg ('%' :: ·) ih)
  | case4 c cs hshort ih =>
    by_cases hc : c = '%'
    · subst hc
      match cs, hshort, ih with
      | [], _, _ =>
        cases b with
        | nil => rfl
        | cons d b =>
          exact (decode_of_not_encoded (encoded_slash_left d) b).trans
            (congrArg ('%' :: ·) (hslash _))
      | [x], _, ih =>
        exact (decode_of_not_encoded (encoded_slash_right x) b).trans (congrArg ('%' :: ·) ih)
      | x :: y :: cs, hshort, _ => exact absurd rfl (hshort x y cs rfl)
    · rw [List.cons_append, decode_cons_of_ne hc, ih]
      rfl

/-- The segments of a directory and of what is in it. -/
theorem segments_append (h : Uncut a) (b : List Char) :
    segments (a ++ '/' :: b) = segments a ++ segments b := by
  have huncut : Uncut (a ++ ['/']) := fun c hc => by
    rcases List.mem_append.mp hc with hc | hc
    · exact h c hc
    · rw [List.mem_singleton.mp hc]
      decide
  have hcut : cut (a ++ '/' :: b) = a ++ '/' :: cut b := by
    have hsplit : a ++ '/' :: b = (a ++ ['/']) ++ b := by rw [List.append_assoc]; rfl
    rw [hsplit, cut_append huncut, List.append_assoc]
    rfl
  rw [segments, hcut, decode_append_slash, List.splitOn_append_cons_self, segments, segments,
    cut_of_uncut h]

theorem segments_append_mark (h : Uncut a) (hc : c = '?' ∨ c = '#') (b : List Char) :
    segments (a ++ c :: b) = segments a := by
  rw [segments, cut_append_mark h hc, segments, cut_of_uncut h]

/-! ## Plain texts -/

/-- No marks, encodings and dots. -/
def Plain (cs : List Char) : Prop := ∀ c ∈ cs, c ∉ ['?', '#', '%', '.']

instance : Decidable (Plain cs) := List.decidableBAll _ _

theorem plain_of_isSpace (h : PyText.isSpace c) : c ∉ ['?', '#', '%', '.'] := by
  intro hc
  have hnone : ∀ d ∈ ['?', '#', '%', '.'], PyText.isSpace d = false := by decide
  exact absurd h (by rw [hnone c hc]; exact Bool.false_ne_true)

theorem Plain.append (ha : Plain a) (hb : Plain b) : Plain (a ++ b) := fun c hc =>
  (List.mem_append.mp hc).elim (ha c) (hb c)

theorem Plain.uncut (h : Plain cs) : Uncut cs := fun c hc => by
  have hc := h c hc
  constructor
  · rintro rfl
    exact hc (by decide)
  · rintro rfl
    exact hc (by decide)

theorem Plain.segments (h : Plain cs) : segments cs = cs.splitOn '/' := by
  rw [UrlPath.segments, cut_of_uncut h.uncut, decode_of_not_mem fun hc => h _ hc (by decide)]

theorem Plain.isDots (h : Plain cs) : ∀ seg ∈ cs.splitOn '/', isDots seg = false := by
  intro seg hseg
  obtain ⟨-, u, v, huv⟩ := PyText.splitOn_spec.2 seg hseg
  have hdot : '.' ∉ seg := fun hmem => by
    refine h '.' ?_ (by decide)
    rw [← huv]
    exact List.mem_append_left _ (List.mem_append_right _ hmem)
  refine decide_eq_false ?_
  rintro (rfl | rfl)
  · exact hdot (List.mem_cons_self ..)
  · exact hdot List.mem_cons_self

/-! ## Following in parts -/

theorem walk_append (out segs segs' : List Segment) :
    walk out (segs ++ segs') = walk (walk out segs) segs' := List.foldl_append

theorem walk_of_plain (h : ∀ seg ∈ segs, isDots seg = false) (out : List Segment) :
    walk out segs = out ++ segs := by
  induction segs generalizing out with
  | nil => exact (List.append_nil out).symm
  | cons seg segs ih =>
    have hseg := of_decide_eq_false (h seg List.mem_cons_self)
    rw [not_or] at hseg
    have hstep : follow out seg = out ++ [seg] := by rw [follow, if_neg hseg.1, if_neg hseg.2]
    show walk (follow out seg) segs = _
    rw [hstep, ih (List.forall_mem_cons.mp h).2, List.append_assoc]
    rfl

theorem rooted_append {seg : Segment} (h : seg ≠ []) (out segs : List Segment) :
    rooted (out ++ seg :: segs) = rooted out ++ seg :: segs := by
  match out with
  | [] =>
    match seg, h with
    | _ :: _, _ => rfl
  | [] :: _ => rfl
  | (_ :: _) :: _ => rfl

theorem removeDots_append (h : ∀ seg ∈ segs, isDots seg = false) {segs' : List Segment}
    (hne : segs' ≠ []) :
    removeDots (segs ++ segs') =
      rooted (walk segs segs') ++ if segs'.getLast?.any isDots then [[]] else [] := by
  rw [removeDots, walk_append, walk_of_plain h, List.nil_append,
    List.getLast?_append_of_ne_nil _ hne]

theorem removeDots_of_plain {segs : List Segment} (h : ∀ seg ∈ [] :: segs, isDots seg = false) :
    removeDots ([] :: segs) = [] :: segs := by
  have hlast : ([] :: segs).getLast?.any isDots = false := by
    cases hseg : ([] :: segs).getLast? with
    | none => rfl
    | some seg => exact h seg (List.mem_of_getLast? hseg)
  rw [removeDots, walk_of_plain h, List.nil_append, hlast, if_neg Bool.false_ne_true,
    List.append_nil]
  rfl

end UrlPath
