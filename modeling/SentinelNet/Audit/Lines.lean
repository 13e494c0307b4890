import SentinelNet.Lib.Text

/-!
# Lines of the audit log

`security/security_manager.py` writes one line for a record and ends it with a tag.  This module has
the text of the log: its lines as Python reads them back, and the tag at the end of a line.

* `readLines_append`: one more line.
* `splitChainTag`: a line without its tag, and the tag.
* `splitChainTag_eq_some`: it has a tag only if it was put together with one.
-/

namespace SentinelNet.Audit

open PyText

/-- A text, character by character. -/
abbrev Text := List Char

/-! ## The lines of a file -/

/-- What a file in text mode makes of the line ends `\r\n`, `\r` and `\n`, after a carriage return
or not. -/
def newlines : Bool → Text → Text
  | _, [] => []
  | after, c :: cs =>
    if c = '\r' then '\n' :: newlines true cs
    else if c = '\n' ∧ after = true then newlines false cs
    else c :: newlines false cs

/-- The lines between line feeds; the last one may have none. -/
def splitLines : Text → List Text
  | [] => []
  | c :: cs =>
    if c = '\n' then [] :: splitLines cs
    else
      match splitLines cs with
      | [] => [[c]]
      | line :: lines => (c :: line) :: lines

/-- `for line in f`, each one without its line feed. -/
def readLines (text : Text) : List Text := splitLines (newlines false text)

structure OneLine (text : Text) : Prop where
  feed : '\n' ∉ text
  carriage : '\r' ∉ text

theorem OneLine.append {t u : Text} (ht : OneLine t) (hu : OneLine u) : OneLine (t ++ u) := by
  constructor
  · rw [List.mem_append]
    exact fun h => h.elim ht.feed hu.feed
  · rw [List.mem_append]
    exact fun h => h.elim ht.carriage hu.carriage

/-- A text that has no last line without an end. -/
def Complete (text : Text) : Prop := text = [] ∨ ∃ t, text = t ++ ['\n']

theorem newlines_append (after : Bool) (t u : Text) :
    newlines after (t ++ '\n' :: u) = newlines after (t ++ ['\n']) ++ newlines false u := by
  induction t generalizing after with
  | nil => cases after <;> simp [newlines]
  | cons c t ih =>
    rw [List.cons_append, List.cons_append, newlines, newlines, ih true, ih false]
    split
    · rfl
    · split <;> rfl

theorem newlines_end (after : Bool) (t : Text) :
    (after = true ∧ t = []) ∨ ∃ u, newlines after (t ++ ['\n']) = u ++ ['\n'] := by
  induction t generalizing after with
  | nil =>
    cases after with
    | true => exact Or.inl ⟨rfl, rfl⟩
    | false => exact Or.inr ⟨[], by simp [newlines]⟩
  | cons c t ih =>
    refine Or.inr ?_
    rw [List.cons_append, newlines]
    obtain ⟨u, hu⟩ := (ih false).resolve_left fun h => Bool.false_ne_true h.1
    split
    · rcases ih true with ⟨-, rfl⟩ | ⟨v, hv⟩
      · exact ⟨[], by simp [newlines]⟩
      · exact ⟨'\n' :: v, by rw [hv]; rfl⟩
    · split
      · exact ⟨u, hu⟩
      · exact ⟨c :: u, by rw [hu]; rfl⟩

variable {text : Text}

theorem newlines_oneLine (h : OneLine text) : newlines false (text ++ ['\n']) = text ++ ['\n'] := by
  induction text with
  | nil => simp [newlines]
  | cons c text ih =>
    have hfeed : c ≠ '\n' := fun heq => h.feed (heq ▸ List.mem_cons_self ..)
    have hcarriage : c ≠ '\r' := fun heq => h.carriage (heq ▸ List.mem_cons_self ..)
    have htail : OneLine text :=
      ⟨fun hm => h.feed (List.mem_cons_of_mem _ hm), fun hm => h.carriage (List.mem_cons_of_mem _ hm)⟩
    rw [List.cons_append, newlines, if_neg hcarriage, if_neg fun hand => hfeed hand.1, ih htail]

theorem splitLines_append (t u : Text) :
    splitLines (t ++ '\n' :: u) = splitLines (t ++ ['\n']) ++ splitLines u := by
  induction t with
  | nil => simp [splitLines]
  | cons c t ih =>
    rw [List.cons_append, List.cons_append, splitLines, splitLines, ih]
    split
    · rfl
    · cases hlines : splitLines (t ++ ['\n']) with
      | cons line lines => rfl
      | nil =>
        cases t with
        | nil => simp [splitLines] at hlines
        | cons d t =>
          rw [List.cons_append, splitLines] at hlines
          split at hlines
          · cases hlines
          · split at hlines <;> cases hlines

theorem splitLines_oneLine (h : '\n' ∉ text) : splitLines (text ++ ['\n']) = [text] := by
  induction text with
  | nil => simp [splitLines]
  | cons c text ih =>
    have hc : c ≠ '\n' := fun heq => h (heq ▸ List.mem_cons_self ..)
    rw [List.cons_append, splitLines, if_neg hc, ih fun hm => h (List.mem_cons_of_mem _ hm)]

/-- One more line of a text. -/
theorem readLines_append {line : Text} (htext : Complete text) (hline : OneLine line) :
    readLines (text ++ (line ++ ['\n'])) = readLines text ++ [line] := by
  rcases htext with rfl | ⟨t, rfl⟩
  · rw [List.nil_append, readLines, newlines_oneLine hline, splitLines_oneLine hline.feed]
    rfl
  · obtain ⟨u, hu⟩ := (newlines_end false t).resolve_left fun h => Bool.false_ne_true h.1
    rw [readLines, readLines, List.append_assoc, List.singleton_append, newlines_append,
      newlines_oneLine hline, hu, List.append_assoc, List.singleton_append, splitLines_append,
      splitLines_oneLine hline.feed]

theorem readLines_append_of_complete (htext : Complete text) (u : Text) :
    readLines (text ++ u) = readLines text ++ readLines u := by
  rcases htext with rfl | ⟨t, rfl⟩
  · rfl
  · obtain ⟨v, hv⟩ := (newlines_end false t).resolve_left fun h => Bool.false_ne_true h.1
    rw [readLines, readLines, readLines, List.append_assoc, List.singleton_append, newlines_append,
      hv, List.append_assoc, List.singleton_append, splitLines_append]

theorem complete_append (text line : Text) : Complete (text ++ (line ++ ['\n'])) :=
  Or.inr ⟨text ++ line, (List.append_assoc ..).symm⟩

/-! ## The tag at the end of a line -/

/-- `" [" + _CHAIN_TAG`. -/
def marker : Text := [' ', '[', 'c', 'h', 'a', 'i', 'n', ':']

/-- `line.rfind(p)`; `none` is -1. -/
def rfind (p : Text) : Text → Option ℕ
  | [] => none
  | c :: cs =>
    match rfind p cs with
    | some i => some (i + 1)
    | none => if p.isPrefixOf (c :: cs) then some 0 else none

/-- Sixty-four hexadecimal digits. -/
def IsTag (tag : Text) : Prop :=
  tag.length = 64 ∧ ∀ c ∈ tag, c ∈ ['0', '1', '2', '3', '4', '5', '6', '7', '8', '9', 'a', 'b', 'c',
    'd', 'e', 'f']

instance (tag : Text) : Decidable (IsTag tag) := inferInstanceAs (Decidable (_ ∧ _))

def splitChainTag (line : Text) : Text × Option Text :=
  match rfind marker line with
  | none => (line, none)
  | some start =>
    if line.getLast? ≠ some ']' then (line, none)
    else
      let tag := (line.drop (start + marker.length)).dropLast
      if IsTag tag then (line.take start, some tag) else (line, none)

/-- `f"{base} [{_CHAIN_TAG}{tag}]"`. -/
def render (base tag : Text) : Text := base ++ (marker ++ (tag ++ [']']))

theorem rfind_of_not_mem {c : Char} {p cs : Text} (h : c ∉ cs) : rfind (c :: p) cs = none := by
  induction cs with
  | nil => rfl
  | cons d cs ih =>
    have hd : ¬ (c :: p).isPrefixOf (d :: cs) = true := by
      rw [List.isPrefixOf_iff_prefix, List.cons_prefix_cons]
      exact fun hand => h (hand.1 ▸ List.mem_cons_self ..)
    rw [rfind, ih fun hm => h (List.mem_cons_of_mem _ hm)]
    exact if_neg hd

theorem rfind_append {c : Char} {p u : Text} (t : Text) (hp : c ∉ p) (hu : c ∉ u) :
    rfind (c :: p) (t ++ (c :: p ++ u)) = some t.length := by
  induction t with
  | nil =>
    have hrest : c ∉ p ++ u := by
      rw [List.mem_append]
      exact fun h => h.elim hp hu
    rw [List.nil_append, List.cons_append, rfind, rfind_of_not_mem hrest]
    exact if_pos (List.isPrefixOf_iff_prefix.mpr ⟨u, rfl⟩)
  | cons d t ih => rw [List.cons_append, rfind, ih, List.length_cons]

theorem rfind_some {p cs : Text} {i : ℕ} (h : rfind p cs = some i) :
    ∃ u, cs = cs.take i ++ (p ++ u) := by
  induction cs generalizing i with
  | nil => cases h
  | cons c cs ih =>
    rw [rfind] at h
    cases hrest : rfind p cs with
    | some j =>
      rw [hrest] at h
      obtain ⟨u, hu⟩ := ih hrest
      refine ⟨u, ?_⟩
      rw [← Option.some.inj h, List.take_succ_cons, List.cons_append, ← hu]
    | none =>
      rw [hrest] at h
      dsimp only at h
      split at h
      · next hpre =>
        obtain ⟨u, hu⟩ := List.isPrefixOf_iff_prefix.mp hpre
        refine ⟨u, ?_⟩
        rw [← Option.some.inj h, List.take_zero, List.nil_append, hu]
      · cases h

variable {tag : Text}

theorem space_not_mem_tag (h : IsTag tag) : ' ' ∉ tag := fun hm =>
  absurd (h.2 ' ' hm) (by decide)

theorem splitChainTag_render (base : Text) (h : IsTag tag) :
    splitChainTag (render base tag) = (base, some tag) := by
  have hfind : rfind marker (render base tag) = some base.length := by
    refine rfind_append base (by decide) ?_
    rw [List.mem_append]
    exact fun hm => hm.elim (space_not_mem_tag h) (by decide)
  have hlast : (render base tag).getLast? = some ']' := by
    rw [render, ← List.append_assoc, ← List.append_assoc, List.getLast?_concat]
  have hdrop : (render base tag).drop (base.length + marker.length) = tag ++ [']'] := by
    rw [render, ← List.append_assoc, ← List.length_append, List.drop_left]
  have htake : (render base tag).take base.length = base := List.take_left
  rw [splitChainTag, hfind]
  dsimp only
  rw [hlast, if_neg (not_not.mpr rfl), hdrop, List.dropLast_concat, if_pos h, htake]

/-- A line has a tag only if it was put together with it. -/
theorem splitChainTag_eq_some {line base : Text} :
    splitChainTag line = (base, some tag) ↔ line = render base tag ∧ IsTag tag := by
  constructor
  · intro h
    rw [splitChainTag] at h
    cases hfind : rfind marker line with
    | none =>
      rw [hfind] at h
      cases h
    | some start =>
      rw [hfind] at h
      dsimp only at h
      split at h
      · cases h
      · next hlast =>
        split at h
        · next htag =>
          obtain ⟨rfl, htag'⟩ := Prod.mk.inj h
          obtain rfl := Option.some.inj htag'
          obtain ⟨u, hu⟩ := rfind_some hfind
          have hrest : line.drop (start + marker.length) = u := by
            have hstart : (line.take start).length = start := by
              rw [List.length_take]
              have hlen := congrArg List.length hu
              rw [List.length_append, List.length_append, List.length_take] at hlen
              have hmarker : marker.length = 8 := rfl
              omega
            conv_lhs => rw [hu]
            rw [← List.drop_drop, List.drop_append_of_le_length (le_of_eq hstart.symm)]
            rw [show (line.take start).drop start = [] from List.drop_of_length_le (le_of_eq hstart),
              List.nil_append, List.drop_left]
          refine ⟨?_, htag⟩
          rw [hrest]
          have hend : u = u.dropLast ++ [']'] := by
            rcases List.eq_nil_or_concat u with rfl | ⟨v, c, rfl⟩
            · rw [hrest] at htag
              exact absurd htag (by decide)
            · rw [List.concat_eq_append] at hu ⊢
              rw [not_not, hu, ← List.append_assoc, ← List.append_assoc, List.getLast?_concat] at hlast
              rw [Option.some.inj hlast, List.dropLast_concat]
          rw [render, ← hend]
          exact hu
        · cases h
  · rintro ⟨rfl, htag⟩
    exact splitChainTag_render base htag

/-! ## A message on one line -/

/-- `message.replace("\r", "\\r").replace("\n", "\\n")`. -/
def escape (message : Text) : Text :=
  message.flatMap fun c => if c = '\r' then ['\\', 'r'] else if c = '\n' then ['\\', 'n'] else [c]

theorem oneLine_escape (message : Text) : OneLine (escape message) := by
  have hchar : ∀ c : Char, OneLine
      (if c = '\r' then ['\\', 'r'] else if c = '\n' then ['\\', 'n'] else [c]) := by
    intro c
    split
    · exact ⟨by decide, by decide⟩
    · next hcarriage =>
      split
      · exact ⟨by decide, by decide⟩
      · next hfeed =>
        exact ⟨fun hm => hfeed (List.mem_singleton.mp hm).symm,
          fun hm => hcarriage (List.mem_singleton.mp hm).symm⟩
  constructor
  · intro h
    obtain ⟨c, -, hc⟩ := List.mem_flatMap.mp h
    exact (hchar c).feed hc
  · intro h
    obtain ⟨c, -, hc⟩ := List.mem_flatMap.mp h
    exact (hchar c).carriage hc

theorem IsTag.oneLine (h : IsTag tag) : OneLine tag :=
  ⟨fun hm => absurd (h.2 _ hm) (by decide), fun hm => absurd (h.2 _ hm) (by decide)⟩

theorem oneLine_render {base : Text} (hbase : OneLine base) (htag : IsTag tag) :
    OneLine (render base tag) :=
  hbase.append (OneLine.append ⟨by decide, by decide⟩
    (htag.oneLine.append ⟨by decide, by decide⟩))

end SentinelNet.Audit
