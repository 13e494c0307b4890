import SentinelNet.Blueprint.Tables

/-!
# Slugs

The ids of locations are slugs: small letters, digits and single dashes between them.  That is why
the id of a link can be read back, and why a new number behind an id never makes the id of another
family.

* `slug_slugify`: what `_slugify` returns has the form.
* `Slug.slugify_eq`: what has the form is not changed by `_slugify`.
* `linkId_injective`: links with one id have the same ends and the same kind.
-/

namespace SentinelNet.Blueprint

open PyText Probes

/-! ## The form -/

/-- Two characters that are not both dashes. -/
def NotDashes (a b : Char) : Prop := ¬ (a = '-' ∧ b = '-')

instance : DecidableRel NotDashes := fun a b => inferInstanceAs (Decidable (¬ (a = '-' ∧ b = '-')))

/-- The characters of a slug: letters, digits and single dashes, no dash at either end. -/
structure SlugChars (cs : List Char) : Prop where
  ne_nil : cs ≠ []
  chars : ∀ c ∈ cs, isSlugChar c = true ∨ c = '-'
  single : cs.IsChain NotDashes
  head : ∀ h : cs ≠ [], cs.head h ≠ '-'
  last : ∀ h : cs ≠ [], cs.getLast h ≠ '-'

/-- A text with the characters of a slug. -/
def Slug (s : String) : Prop := SlugChars s.toList

theorem isSlugChar_dash : isSlugChar '-' = false := by decide

/-! ## What `_slugify` returns -/

theorem dashed_chars (b : Bool) (cs : List Char) :
    ∀ c ∈ dashed b cs, isSlugChar c = true ∨ c = '-' := by
  induction cs generalizing b with
  | nil => exact fun c hc => nomatch hc
  | cons x cs ih =>
    intro c hc
    rw [dashed] at hc
    split at hc
    · next hx =>
      rcases List.mem_cons.mp hc with rfl | hc
      · exact Or.inl hx
      · exact ih false c hc
    · split at hc
      · exact ih true c hc
      · rcases List.mem_cons.mp hc with rfl | hc
        · exact Or.inr rfl
        · exact ih true c hc

theorem dashed_single (b : Bool) (cs : List Char) :
    (dashed b cs).IsChain NotDashes ∧ (b = true → ∀ c ∈ (dashed b cs).head?, c ≠ '-') := by
  induction cs generalizing b with
  | nil => exact ⟨List.isChain_nil, fun _ c hc => absurd hc (by simp [dashed])⟩
  | cons x cs ih =>
    rw [dashed]
    split
    · next hx =>
      have hne : x ≠ '-' := by
        rintro rfl
        rw [isSlugChar_dash] at hx
        cases hx
      refine ⟨List.isChain_cons.mpr ⟨fun c _ h => hne h.1, (ih false).1⟩, fun _ c hc => ?_⟩
      rw [List.head?_cons] at hc
      rw [← Option.some.inj hc]
      exact hne
    · split
      · exact ⟨(ih true).1, fun _ => (ih true).2 rfl⟩
      · next hb =>
        refine ⟨List.isChain_cons.mpr ⟨fun c hc h => (ih true).2 rfl c hc h.2, (ih true).1⟩,
          fun htrue => absurd htrue hb⟩

/-- What `_slugify` returns has the form of a slug. -/
theorem slug_slugify (name : String) : Slug (slugify name) := by
  have hprobe : Slug "probe" := by
    refine ⟨by decide, by decide, by decide, by decide, by decide⟩
  unfold slugify
  dsimp only
  generalize (strip name).toList.flatMap Observability.lowerChar = cs
  have hsuf := List.dropWhile_suffix (l := dashed false cs) (fun c => decide (c = '-'))
  have hpre := List.rdropWhile_prefix (fun c => decide (c = '-'))
    ((dashed false cs).dropWhile fun c => decide (c = '-'))
  split
  · exact hprobe
  · next hne =>
    rw [List.isEmpty_iff] at hne
    rw [Slug, String.toList_ofList]
    refine ⟨hne, fun c hc => ?_, ?_, fun h => ?_, fun h => ?_⟩
    · exact dashed_chars false cs c (hsuf.subset (hpre.subset hc))
    · have hchain := (dashed_single false cs).1.suffix hsuf
      obtain ⟨t, ht⟩ := hpre
      rw [← ht] at hchain
      exact hchain.left_of_append
    · have hne' : (dashed false cs).dropWhile (fun c => decide (c = '-')) ≠ [] := by
        intro hnil
        rw [hnil] at hne
        exact hne rfl
      have hhead := List.head_dropWhile_not (fun c => decide (c = '-')) hne'
      rw [hpre.head h]
      simpa using hhead
    · simpa using List.rdropWhile_last_not _ _ h

/-! ## Slugs stay as they are -/

variable {c : Char}

theorem toNat_of_isSlugChar (h : isSlugChar c) :
    (48 ≤ c.toNat ∧ c.toNat ≤ 57) ∨ (97 ≤ c.toNat ∧ c.toNat ≤ 122) := by
  simp only [isSlugChar, Bool.or_eq_true, Bool.and_eq_true, decide_eq_true_eq] at h
  rcases h with ⟨hlo, hhi⟩ | ⟨hlo, hhi⟩
  · exact Or.inr ⟨UInt32.le_iff_toNat_le.mp hlo, UInt32.le_iff_toNat_le.mp hhi⟩
  · exact Or.inl ⟨UInt32.le_iff_toNat_le.mp hlo, UInt32.le_iff_toNat_le.mp hhi⟩

theorem isSpace_of_isSlugChar (h : isSlugChar c = true ∨ c = '-') : isSpace c = false := by
  rcases h with h | rfl
  · have hrange := toNat_of_isSlugChar h
    exact isSpace_of_between (by omega) (by omega)
  · decide

theorem lowerChar_of_isSlugChar (h : isSlugChar c = true ∨ c = '-') :
    Observability.lowerChar c = [c] := by
  rcases h with h | rfl
  · have hk : c ≠ '\u212a' := by
      rintro rfl
      exact absurd h (by decide)
    have hi : c ≠ '\u0130' := by
      rintro rfl
      exact absurd h (by decide)
    have hrange := toNat_of_isSlugChar h
    have hlower : c.toLower = c := by
      rw [Char.toLower, dif_neg]
      rintro ⟨hlo, hhi⟩
      have hlo' : 65 ≤ c.toNat := UInt32.le_iff_toNat_le.mp hlo
      have hhi' : c.toNat ≤ 90 := UInt32.le_iff_toNat_le.mp hhi
      omega
    rw [Observability.lowerChar, if_neg hk, if_neg hi, hlower]
  · decide

theorem dashed_of_slug {cs : List Char} (b : Bool) (hchars : ∀ c ∈ cs, isSlugChar c = true ∨ c = '-')
    (hsingle : cs.IsChain NotDashes) (hhead : b = true → ∀ c ∈ cs.head?, c ≠ '-') :
    dashed b cs = cs := by
  induction cs generalizing b with
  | nil => rfl
  | cons x cs ih =>
    obtain ⟨hx, hcs⟩ := List.isChain_cons.mp hsingle
    have htail : ∀ c ∈ cs, isSlugChar c = true ∨ c = '-' :=
      (List.forall_mem_cons.mp hchars).2
    rw [dashed]
    rcases hchars x List.mem_cons_self with hslug | rfl
    · rw [if_pos hslug, ih false htail hcs (fun h => nomatch h)]
    · have hb : ¬ b = true := fun hb => hhead hb '-' rfl rfl
      have hnext : ∀ c ∈ cs.head?, c ≠ '-' := fun c hc h => hx c hc ⟨rfl, h⟩
      rw [isSlugChar_dash, if_neg Bool.false_ne_true, if_neg hb, ih true htail hcs fun _ => hnext]

/-- A slug is not changed by `_slugify`. -/
theorem Slug.slugify_eq {s : String} (h : Slug s) : slugify s = s := by
  have hstrip : strip s = s := strip_of_forall fun c hc => isSpace_of_isSlugChar (h.chars c hc)
  have hlower : s.toList.flatMap Observability.lowerChar = s.toList := by
    have hsingle : ∀ l : List Char, (∀ c ∈ l, isSlugChar c = true ∨ c = '-') →
        l.flatMap Observability.lowerChar = l := by
      intro l hl
      induction l with
      | nil => rfl
      | cons c l ih =>
        rw [List.flatMap_cons, lowerChar_of_isSlugChar (hl c List.mem_cons_self),
          ih (List.forall_mem_cons.mp hl).2]
        rfl
    exact hsingle _ h.chars
  have hdashed : dashed false s.toList = s.toList :=
    dashed_of_slug false h.chars h.single fun hfalse => nomatch hfalse
  have hfront : s.toList.dropWhile (fun c => decide (c = '-')) = s.toList := by
    refine List.dropWhile_eq_self_iff.mpr fun hlen => ?_
    have hhead := h.head h.ne_nil
    rw [List.head_eq_getElem] at hhead
    simpa using hhead
  have hback : s.toList.rdropWhile (fun c => decide (c = '-')) = s.toList :=
    (List.rdropWhile_eq_self_iff ..).mpr fun hne => by simpa using h.last hne
  unfold slugify
  dsimp only
  rw [hstrip, hlower, hdashed, hfront, hback, if_neg (by simpa using h.ne_nil),
    String.ofList_toList]

/-! ## Numbers behind an id -/

theorem isSlugChar_of_isDigit (h : c.isDigit) : isSlugChar c = true := by
  simp only [Char.isDigit, Bool.and_eq_true, decide_eq_true_eq] at h
  simp only [isSlugChar, Bool.or_eq_true, Bool.and_eq_true, decide_eq_true_eq]
  exact Or.inr h

theorem isDigit_of_mem_str {n : ℕ} (h : c ∈ (str n).toList) : c.isDigit = true := by
  rw [str, String.toList_ofList] at h
  exact isDigit_of_mem_decimal h

theorem dash_not_mem_str (n : ℕ) : '-' ∉ (str n).toList := fun h =>
  absurd (isDigit_of_mem_str h) (by decide)

theorem toList_str_ne_nil (n : ℕ) : (str n).toList ≠ [] := by
  rw [str, String.toList_ofList]
  exact Nat.toDigits_ne_nil

/-- An id with a number behind it has the form of a slug. -/
theorem Slug.candidate {base : String} (h : Slug base) (n : ℕ) : Slug (candidateId base n) := by
  cases n with
  | zero => exact h
  | succ n =>
    have hdigits : ∀ c ∈ (str (n + 2)).toList, c ≠ '-' := by
      rintro c hc rfl
      exact dash_not_mem_str _ hc
    have hchain : ∀ l : List Char, (∀ c ∈ l, c ≠ '-') → ∀ x, ('-' :: l).IsChain NotDashes ∧
        (x ≠ '-' → (x :: l).IsChain NotDashes) := by
      intro l
      induction l with
      | nil => exact fun _ x => ⟨List.isChain_singleton _, fun _ => List.isChain_singleton x⟩
      | cons y l ih =>
        intro hl x
        have hy := hl y List.mem_cons_self
        have htail := (ih (fun c hc => hl c (List.mem_cons_of_mem y hc)) y).2 hy
        exact ⟨List.isChain_cons_cons.mpr ⟨fun hd => hy hd.2, htail⟩,
          fun _ => List.isChain_cons_cons.mpr ⟨fun hd => hy hd.2, htail⟩⟩
    rw [Slug, toList_candidateId]
    refine ⟨by simp, fun c hc => ?_, ?_, fun hne => ?_, fun hne => ?_⟩
    · rcases List.mem_append.mp hc with hc | hc
      · exact h.chars c hc
      · rcases List.mem_cons.mp hc with rfl | hc
        · exact Or.inr rfl
        · exact Or.inl (isSlugChar_of_isDigit (isDigit_of_mem_str hc))
    · refine List.isChain_append.mpr ⟨h.single, (hchain _ hdigits 'a').1, ?_⟩
      intro x hx y _ hd
      have hlast : base.toList.getLast h.ne_nil = x := by
        rw [List.getLast?_eq_some_getLast h.ne_nil] at hx
        exact Option.some.inj hx
      exact h.last h.ne_nil (hlast.trans hd.1)
    · rw [List.head_append_of_ne_nil h.ne_nil]
      exact h.head h.ne_nil
    · rw [List.getLast_append_of_ne_nil _ (List.cons_ne_nil _ _),
        List.getLast_cons (toList_str_ne_nil _)]
      exact hdigits _ (List.getLast_mem _)

/-- Ids with a number behind them are the same only if what they begin with is. -/
theorem candidateId_succ_injective {base base' : String} {n m : ℕ}
    (h : candidateId base (n + 1) = candidateId base' (m + 1)) : base = base' := by
  have hlist := congrArg String.toList h
  rw [toList_candidateId, toList_candidateId] at hlist
  rcases List.append_eq_append_iff.mp hlist with ⟨c, hbase, hrest⟩ | ⟨c, hbase, hrest⟩
  · cases c with
    | nil => exact (String.toList_injective (by simpa using hbase)).symm
    | cons x c =>
      obtain ⟨-, hrest⟩ := List.cons.inj hrest
      have hmem : '-' ∈ (str (n + 2)).toList := by
        rw [hrest]
        exact List.mem_append_right _ List.mem_cons_self
      exact absurd hmem (dash_not_mem_str _)
  · cases c with
    | nil => exact String.toList_injective (by simpa using hbase)
    | cons x c =>
      obtain ⟨-, hrest⟩ := List.cons.inj hrest
      have hmem : '-' ∈ (str (m + 2)).toList := by
        rw [hrest]
        exact List.mem_append_right _ List.mem_cons_self
      exact absurd hmem (dash_not_mem_str _)

theorem lt_candidateId (base : String) (n : ℕ) : base < candidateId base (n + 1) := by
  have hlt : ∀ (l : List Char) (c : Char) (r : List Char), l < l ++ c :: r := by
    intro l c r
    induction l with
    | nil => exact List.nil_lt_cons c r
    | cons x l ih => exact List.cons_lt_cons_iff.mpr (Or.inr ⟨rfl, ih⟩)
  rw [String.lt_iff_toList_lt, toList_candidateId]
  exact hlt _ _ _

/-! ## The id of a link -/

/-- A text without two dashes in a row and with no dash at its end is read back from what comes
before two dashes. -/
theorem cut_dashes {l l' r r' : List Char} (hl : l.IsChain NotDashes)
    (hl' : l'.IsChain NotDashes) (hlast : ∀ h : l ≠ [], l.getLast h ≠ '-')
    (hlast' : ∀ h : l' ≠ [], l'.getLast h ≠ '-')
    (h : l ++ '-' :: '-' :: r = l' ++ '-' :: '-' :: r') : l = l' ∧ r = r' := by
  -- A longer text would have the dashes inside of it, or at its end.
  have hlonger : ∀ (x : Char) (t u v : List Char), (x :: t).IsChain NotDashes →
      (∀ h : x :: t ≠ [], (x :: t).getLast h ≠ '-') →
      '-' :: '-' :: u = x :: t ++ '-' :: '-' :: v → False := by
    intro x t u v hchain hend heq
    obtain ⟨rfl, htail⟩ := List.cons.inj heq
    cases t with
    | nil => exact hend (List.cons_ne_nil _ _) rfl
    | cons y t =>
      obtain ⟨rfl, -⟩ := List.cons.inj htail
      exact (List.isChain_cons_cons.mp hchain).1 ⟨rfl, rfl⟩
  induction l generalizing l' with
  | nil =>
    cases l' with
    | nil =>
      refine ⟨rfl, ?_⟩
      simpa using h
    | cons x t => exact (hlonger x t r r' hl' hlast' h).elim
  | cons x t ih =>
    cases l' with
    | nil => exact (hlonger x t r' r hl hlast h.symm).elim
    | cons y t' =>
      obtain ⟨rfl, htail⟩ := List.cons.inj h
      have hne : ∀ {u : List Char} (hu : u ≠ []) (hend : ∀ h : x :: u ≠ [],
          (x :: u).getLast h ≠ '-'), u.getLast hu ≠ '-' := by
        intro u hu hend
        have hend := hend (List.cons_ne_nil _ _)
        rwa [List.getLast_cons hu] at hend
      have hl₁ : t.IsChain NotDashes := hl.tail
      have hl₁' : t'.IsChain NotDashes := hl'.tail
      obtain ⟨rfl, hr⟩ := ih hl₁ hl₁' (fun hu => hne hu hlast) (fun hu => hne hu hlast') htail
      exact ⟨rfl, hr⟩

theorem Slug.cut {a a' : String} {r r' : List Char} (h : Slug a) (h' : Slug a')
    (heq : a.toList ++ '-' :: '-' :: r = a'.toList ++ '-' :: '-' :: r') : a = a' ∧ r = r' := by
  obtain ⟨hl, hr⟩ := cut_dashes h.single h'.single h.last h'.last heq
  exact ⟨String.toList_injective hl, hr⟩

theorem toList_linkId (a b kind : String) :
    (linkId a b kind).toList = (ordered a b).1.toList ++
      '-' :: '-' :: ((ordered a b).2.toList ++ '-' :: '-' :: kind.toList) := by
  simp [linkId]

theorem Slug.ordered {a b : String} (ha : Slug a) (hb : Slug b) :
    Slug (ordered a b).1 ∧ Slug (ordered a b).2 := by
  rw [Blueprint.ordered]
  split
  · exact ⟨hb, ha⟩
  · exact ⟨ha, hb⟩

/-- Links with one id have the same ends and the same kind. -/
theorem linkId_injective {a b a' b' kind kind' : String} (ha : Slug a) (hb : Slug b)
    (ha' : Slug a') (hb' : Slug b') (h : linkId a b kind = linkId a' b' kind') :
    ordered a b = ordered a' b' ∧ kind = kind' := by
  have hlist := congrArg String.toList h
  rw [toList_linkId, toList_linkId] at hlist
  obtain ⟨hfirst, hrest⟩ := (ha.ordered hb).1.cut (ha'.ordered hb').1 hlist
  obtain ⟨hsecond, hkind⟩ := (ha.ordered hb).2.cut (ha'.ordered hb').2 hrest
  exact ⟨Prod.ext hfirst hsecond, String.toList_injective hkind⟩

theorem Slug.not_ref {s : String} (h : Slug s) : startsWith s "+" = false := by
  cases hs : s.toList with
  | nil => exact absurd hs h.ne_nil
  | cons c cs =>
    have hc := h.chars c (by rw [hs]; exact List.mem_cons_self ..)
    have hne : c ≠ '+' := by
      rintro rfl
      exact absurd hc (by decide)
    rw [startsWith, hs]
    change (('+' == c) && _) = false
    rw [beq_eq_false_iff_ne.mpr (Ne.symm hne), Bool.false_and]

end SentinelNet.Blueprint
