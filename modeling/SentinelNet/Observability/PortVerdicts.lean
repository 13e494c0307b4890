import SentinelNet.Observability.IfaceErrors

/-!
# Verdicts on ports

What the verdict on a port should say, against what the counters of its samples did.  A growing
detail goes unnoticed where its total was compared and did not grow, and where it is above its total
in a sample.

* `verdict_faithful_iff`: when it does.
* `portResult_eq`: two readings are judged as two samples are.
-/

namespace SentinelNet.Observability

open PyDict StepSums

/-! ## What the counters did -/

/-- The samples that expose a known counter. -/
def readableSamples (samples : List (ℤ × Dict Json)) : List (ℤ × Dict Json) :=
  samples.filter fun s => errorFields.any fun p => (exposes s.2 p.1).isSome

section Meaning

variable (samples : List (ℤ × Dict Json)) (f : String)

/-- A counter grew between two consecutive samples that both expose it. -/
def Grew : Prop :=
  ∃ p ∈ steps (readableSamples samples), ∃ x ∈ exposes p.1.2 f, ∃ y ∈ exposes p.2.2 f, x < y

/-- Two consecutive samples expose a counter. -/
def Compared : Prop :=
  ∃ p ∈ steps (readableSamples samples),
    (exposes p.1.2 f).isSome = true ∧ (exposes p.2.2 f).isSome = true

/-- A counter grew between two consecutive samples, and in neither is it above its total. -/
def GrewWithin : Prop :=
  ∃ p ∈ steps (readableSamples samples), ¬ Excessive p.1.2 f ∧ ¬ Excessive p.2.2 f ∧
    ∃ x ∈ exposes p.1.2 f, ∃ y ∈ exposes p.2.2 f, x < y

/-- Two consecutive samples expose a counter, and in neither is it above its total. -/
def ComparedWithin : Prop :=
  ∃ p ∈ steps (readableSamples samples), ¬ Excessive p.1.2 f ∧ ¬ Excessive p.2.2 f ∧
    (exposes p.1.2 f).isSome = true ∧ (exposes p.2.2 f).isSome = true

/-- A counter of a class other than the discards. -/
def IsError : Prop := ∃ c, get? errorFields f = some c ∧ c ≠ .discards

def IsDiscard : Prop := get? errorFields f = some .discards

end Meaning

/-- The verdict on a port says what its counters did. -/
structure Faithful (samples : List (ℤ × Dict Json)) : Prop where
  erroring : (summarize samples).status = .erroring ↔ ∃ f, IsError f ∧ Grew samples f
  discards : (summarize samples).status = .discards ↔
    (∃ f, IsDiscard f ∧ Grew samples f) ∧ ¬ ∃ f, IsError f ∧ Grew samples f
  clean : (summarize samples).status = .clean ↔
    (∃ f, Compared samples f) ∧ ¬ ∃ f, Grew samples f
  errors : 0 < (summarize samples).errors ↔ ∃ f, IsError f ∧ Grew samples f
  nonneg : ∀ delta ∈ (summarize samples).delta, ∀ p ∈ delta, 0 ≤ p.2
  reset : ∀ p ∈ steps (parsedSamples samples), ∀ f, ∀ x ∈ get? p.1.2 f, ∀ y ∈ get? p.2.2 f,
    y < x → get? (increments [p.1, p.2]).1 f = some 0
  split : ∀ l s r, parsedSamples samples = l ++ s :: r → ∀ f,
    (get? (increments (parsedSamples samples)).1 f).getD 0 =
      (get? (increments (l ++ [s])).1 f).getD 0 + (get? (increments (s :: r)).1 f).getD 0

/-! ## The samples that are parsed -/

section Parsed

variable {samples : List (ℤ × Dict Json)} {f : String}

theorem parsedSamples_eq (samples : List (ℤ × Dict Json)) :
    parsedSamples samples = (readableSamples samples).map fun s => (s.1, countersOf s.2) := by
  unfold parsedSamples readableSamples
  rw [List.filter_map]
  congr 1
  refine List.filter_congr fun s _ => ?_
  rw [Function.comp_apply, Bool.eq_iff_iff, decide_eq_true_iff, countersOf_ne_nil_iff,
    List.any_eq_true]
  constructor
  · rintro ⟨f, hf⟩
    have hknown : has errorFields f = true := by
      by_contra hno
      unfold exposes at hf
      rw [if_neg hno] at hf
      cases hf
    obtain ⟨c, hc⟩ := Option.isSome_iff_exists.mp hknown
    exact ⟨(f, c), mem_of_get? hc, hf⟩
  · rintro ⟨p, -, hp⟩
    exact ⟨p.1, hp⟩

theorem unique_parsedSamples : ∀ s ∈ parsedSamples samples, PyDict.Unique s.2 := by
  intro s hs
  rw [parsedSamples_eq] at hs
  obtain ⟨t, -, rfl⟩ := List.mem_map.mp hs
  exact unique_countersOf t.2

theorem rise_countersOf {a b : Dict Json} (n : ℤ) :
    rise (countersOf a) (countersOf b) f = some n ↔ ¬ Excessive a f ∧ ¬ Excessive b f ∧
      ∃ x ∈ exposes a f, ∃ y ∈ exposes b f, max (y - x) 0 = n := by
  unfold rise
  rw [get?_countersOf, get?_countersOf, Option.bind_eq_some_iff]
  constructor
  · rintro ⟨x, hx, h⟩
    obtain ⟨y, hy, h⟩ := Option.map_eq_some_iff.mp h
    split at hx
    · cases hx
    · next ha =>
      split at hy
      · cases hy
      · next hb => exact ⟨ha, hb, x, hx, y, hy, h⟩
  · rintro ⟨ha, hb, x, hx, y, hy, h⟩
    refine ⟨x, (if_neg ha).trans hx, ?_⟩
    rw [if_neg hb, hy, Option.map_some, h]

theorem comparedIn_iff : ComparedIn (parsedSamples samples) f ↔ ComparedWithin samples f := by
  unfold ComparedIn ComparedWithin
  rw [parsedSamples_eq, steps_map]
  simp only [List.mem_map, exists_exists_and_eq_and]
  refine exists_congr fun p => and_congr_right fun _ => ?_
  rw [Option.isSome_iff_exists]
  constructor
  · rintro ⟨n, hn⟩
    obtain ⟨ha, hb, x, hx, y, hy, -⟩ := (rise_countersOf n).mp hn
    exact ⟨ha, hb, Option.isSome_iff_exists.mpr ⟨x, hx⟩, Option.isSome_iff_exists.mpr ⟨y, hy⟩⟩
  · rintro ⟨ha, hb, hx, hy⟩
    obtain ⟨x, hx⟩ := Option.isSome_iff_exists.mp hx
    obtain ⟨y, hy⟩ := Option.isSome_iff_exists.mp hy
    exact ⟨_, (rise_countersOf _).mpr ⟨ha, hb, x, hx, y, hy, rfl⟩⟩

theorem growth_pos_iff : 0 < growth (parsedSamples samples) f ↔ GrewWithin samples f := by
  unfold growth GrewWithin
  rw [stepSum_pos_iff fun _ _ => getD_rise_nonneg .., parsedSamples_eq, steps_map]
  simp only [List.mem_map, exists_exists_and_eq_and]
  refine exists_congr fun p => and_congr_right fun _ => ?_
  constructor
  · intro hpos
    cases hr : rise (countersOf p.1.2) (countersOf p.2.2) f with
    | none =>
      rw [hr] at hpos
      exact absurd hpos (lt_irrefl 0)
    | some n =>
      rw [hr, Option.getD_some] at hpos
      obtain ⟨ha, hb, x, hx, y, hy, hn⟩ := (rise_countersOf n).mp hr
      exact ⟨ha, hb, x, hx, y, hy, by omega⟩
  · rintro ⟨ha, hb, x, hx, y, hy, hlt⟩
    rw [(rise_countersOf _).mpr ⟨ha, hb, x, hx, y, hy, rfl⟩, Option.getD_some]
    omega

theorem not_excessive (hf : get? partOf f = none) (metrics : Dict Json) :
    ¬ Excessive metrics f := by
  rintro ⟨total, htotal, -⟩
  rw [hf] at htotal
  cases htotal

theorem grew_of_grewWithin (h : GrewWithin samples f) : Grew samples f := by
  obtain ⟨p, hp, -, -, h⟩ := h
  exact ⟨p, hp, h⟩

theorem comparedWithin_of_grewWithin (h : GrewWithin samples f) : ComparedWithin samples f := by
  obtain ⟨p, hp, ha, hb, x, hx, y, hy, -⟩ := h
  exact ⟨p, hp, ha, hb, Option.isSome_iff_exists.mpr ⟨x, hx⟩,
    Option.isSome_iff_exists.mpr ⟨y, hy⟩⟩

theorem compared_of_comparedWithin (h : ComparedWithin samples f) : Compared samples f := by
  obtain ⟨p, hp, -, -, h⟩ := h
  exact ⟨p, hp, h⟩

theorem grewWithin_iff (hf : get? partOf f = none) : GrewWithin samples f ↔ Grew samples f := by
  refine ⟨grew_of_grewWithin, ?_⟩
  rintro ⟨p, hp, h⟩
  exact ⟨p, hp, not_excessive hf _, not_excessive hf _, h⟩

theorem comparedWithin_iff (hf : get? partOf f = none) :
    ComparedWithin samples f ↔ Compared samples f := by
  refine ⟨compared_of_comparedWithin, ?_⟩
  rintro ⟨p, hp, h⟩
  exact ⟨p, hp, not_excessive hf _, not_excessive hf _, h⟩

end Parsed

/-! ## The verdict on the increments -/

section Verdict

variable {delta : Dict ℤ}

section

variable (h : ∀ p ∈ delta, 0 ≤ p.2)

include h

theorem sum_filter_pos_iff (P : String × ℤ → Bool) :
    0 ≤ ((delta.filter P).map Prod.snd).sum ∧
      (((delta.filter P).map Prod.snd).sum ≠ 0 ↔ ∃ p ∈ delta, P p = true ∧ p.2 ≠ 0) := by
  induction delta with
  | nil => exact ⟨le_rfl, iff_of_false (fun hne => hne rfl) fun ⟨p, hp, _⟩ => nomatch hp⟩
  | cons q delta ih =>
    obtain ⟨hnonneg, hpos⟩ := ih fun p hp => h p (List.mem_cons_of_mem q hp)
    have hq := h q List.mem_cons_self
    rw [List.filter_cons, List.exists_mem_cons_iff]
    split
    · next hP =>
      rw [List.map_cons, List.sum_cons, ← hpos]
      refine ⟨by omega, ?_⟩
      constructor
      · intro hne
        by_cases hzero : q.2 = 0
        · exact .inr (by omega)
        · exact .inl ⟨hP, hzero⟩
      · rintro (⟨-, hne⟩ | hne)
        · omega
        · omega
    · next hP =>
      rw [← hpos]
      exact ⟨hnonneg, (or_iff_right fun hno => hP hno.1).symm⟩

theorem errorCount_pos_iff :
    0 ≤ errorCount delta ∧ (errorCount delta ≠ 0 ↔ ∃ p ∈ delta, p.2 ≠ 0 ∧
      get? errorFields p.1 ≠ some .discards ∧
        ∀ total ∈ get? partOf p.1, has delta total = false) := by
  obtain ⟨hnonneg, hpos⟩ := sum_filter_pos_iff h (isCounted delta)
  refine ⟨hnonneg, hpos.trans (exists_congr fun p => and_congr_right fun _ => ?_)⟩
  have htotals : ((get? partOf p.1).any fun total => has delta total) = false ↔
      ∀ total ∈ get? partOf p.1, has delta total = false := by
    cases get? partOf p.1 with
    | none => exact iff_of_true rfl fun total htotal => nomatch htotal
    | some total =>
      rw [Option.any_some]
      exact ⟨fun hno t ht => Option.some.inj ht ▸ hno, fun hall => hall total rfl⟩
  unfold isCounted
  rw [Bool.and_eq_true, Bool.and_eq_true, decide_eq_true_iff, decide_eq_true_iff,
    Bool.not_eq_true', htotals]
  constructor
  · rintro ⟨⟨⟨hne, hclass⟩, htotal⟩, -⟩
    exact ⟨hne, hclass, htotal⟩
  · rintro ⟨hne, hclass, htotal⟩
    exact ⟨⟨⟨hne, hclass⟩, htotal⟩, hne⟩

theorem classTotal_discards_ne_zero_iff :
    classTotal delta .discards ≠ 0 ↔ ∃ p ∈ delta, p.2 ≠ 0 ∧ IsDiscard p.1 := by
  refine (sum_filter_pos_iff h _).2.trans (exists_congr fun p => and_congr_right fun _ => ?_)
  rw [decide_eq_true_iff]
  constructor
  · rintro ⟨⟨hne, hclass⟩, -⟩
    exact ⟨hne, hclass⟩
  · rintro ⟨hne, hclass⟩
    exact ⟨⟨hne, hclass⟩, hne⟩

theorem verdict_some :
    ((verdict (some delta)).1 = .erroring ↔ errorCount delta ≠ 0) ∧
      ((verdict (some delta)).1 = .discards ↔
        errorCount delta = 0 ∧ classTotal delta .discards ≠ 0) ∧
      ((verdict (some delta)).1 = .clean ↔
        delta ≠ [] ∧ errorCount delta = 0 ∧ classTotal delta .discards = 0) ∧
      (verdict (some delta)).2.2 = errorCount delta := by
  cases delta with
  | nil =>
    refine ⟨iff_of_false (fun hno => nomatch hno) fun hno => hno rfl,
      iff_of_false (fun hno => nomatch hno) fun hno => hno.2 rfl,
      iff_of_false (fun hno => nomatch hno) fun hno => hno.1 rfl, rfl⟩
  | cons p ps =>
    have hne : p :: ps ≠ [] := List.cons_ne_nil p ps
    unfold verdict
    dsimp only
    by_cases herrors : errorCount (p :: ps) = 0
    · rw [if_neg (not_not.mpr herrors)]
      by_cases hdiscards : classTotal (p :: ps) .discards = 0
      · rw [if_neg (not_not.mpr hdiscards)]
        exact ⟨iff_of_false (fun hno => nomatch hno) fun hno => hno herrors,
          iff_of_false (fun hno => nomatch hno) fun hno => hno.2 hdiscards,
          iff_of_true rfl ⟨hne, herrors, hdiscards⟩, herrors.symm⟩
      · rw [if_pos hdiscards]
        exact ⟨iff_of_false (fun hno => nomatch hno) fun hno => hno herrors,
          iff_of_true rfl ⟨herrors, hdiscards⟩,
          iff_of_false (fun hno => nomatch hno) fun hno => hdiscards hno.2.2, herrors.symm⟩
    · rw [if_pos herrors]
      exact ⟨iff_of_true rfl herrors,
        iff_of_false (fun hno => nomatch hno) fun hno => herrors hno.1,
        iff_of_false (fun hno => nomatch hno) fun hno => herrors hno.2.1, rfl⟩

end

end Verdict

/-! ## The verdict against the counters -/

section Summary

variable {samples : List (ℤ × Dict Json)} {f : String}

def sampleDelta (samples : List (ℤ × Dict Json)) : Dict ℤ := (increments (parsedSamples samples)).1

theorem get?_sampleDelta (v : ℤ) : get? (sampleDelta samples) f = some v ↔
    ComparedWithin samples f ∧ growth (parsedSamples samples) f = v := by
  unfold sampleDelta
  rw [get?_increments unique_parsedSamples]
  split
  · next h =>
    rw [Option.some.injEq]
    exact ⟨fun hv => ⟨comparedIn_iff.mp h, hv⟩, fun hv => hv.2⟩
  · next h => exact iff_of_false (fun hno => nomatch hno) fun hno => h (comparedIn_iff.mpr hno.1)

theorem mem_sampleDelta_iff {p : String × ℤ} : p ∈ sampleDelta samples ↔
    ComparedWithin samples p.1 ∧ growth (parsedSamples samples) p.1 = p.2 := by
  have hunique : PyDict.Unique (sampleDelta samples) := unique_increments _
  rw [← get?_sampleDelta]
  exact ⟨fun hp => hunique.get?_of_mem hp, fun hp => mem_of_get? hp⟩

theorem sampleDelta_nonneg : ∀ p ∈ sampleDelta samples, 0 ≤ p.2 := by
  intro p hp
  rw [← (mem_sampleDelta_iff.mp hp).2]
  exact growth_nonneg _ _

theorem exists_mem_sampleDelta_iff {P : String → Prop} :
    (∃ p ∈ sampleDelta samples, p.2 ≠ 0 ∧ P p.1) ↔ ∃ f, P f ∧ GrewWithin samples f := by
  constructor
  · rintro ⟨p, hp, hne, hP⟩
    have hnonneg := sampleDelta_nonneg p hp
    refine ⟨p.1, hP, growth_pos_iff.mp ?_⟩
    rw [(mem_sampleDelta_iff.mp hp).2]
    omega
  · rintro ⟨f, hP, hgrew⟩
    have hpos := growth_pos_iff.mpr hgrew
    exact ⟨(f, growth (parsedSamples samples) f),
      mem_sampleDelta_iff.mpr ⟨comparedWithin_of_grewWithin hgrew, rfl⟩, ne_of_gt hpos, hP⟩

theorem has_sampleDelta_iff : has (sampleDelta samples) f = true ↔ ComparedWithin samples f := by
  unfold has
  rw [Option.isSome_iff_exists]
  constructor
  · rintro ⟨v, hv⟩
    exact ((get?_sampleDelta v).mp hv).1
  · exact fun h => ⟨_, (get?_sampleDelta _).mpr ⟨h, rfl⟩⟩

theorem isSome_of_exposes {metrics : Dict Json} {v : ℤ} (h : exposes metrics f = some v) :
    ∃ c, get? errorFields f = some c := by
  have hknown : has errorFields f = true := by
    by_contra hno
    unfold exposes at h
    rw [if_neg hno] at h
    cases h
  exact Option.isSome_iff_exists.mp hknown

theorem isError_or_isDiscard (h : Grew samples f) : IsError f ∨ IsDiscard f := by
  obtain ⟨p, -, x, hx, -⟩ := h
  obtain ⟨c, hc⟩ := isSome_of_exposes hx
  by_cases hd : c = .discards
  · rw [hd] at hc
    exact .inr hc
  · exact .inl ⟨c, hc, hd⟩

theorem not_isDiscard_of_isError (h : IsError f) : ¬ IsDiscard f := by
  obtain ⟨c, hc, hne⟩ := h
  intro hd
  exact hne (Option.some.inj (hc.symm.trans hd))

theorem IsDiscard.partOf_eq_none (h : IsDiscard f) : get? partOf f = none := by
  have hall : ∀ p ∈ errorFields, p.2 = .discards → get? partOf p.1 = none := by decide
  exact hall _ (mem_of_get? h) rfl

/-- A counter adds to the errors: it grew within its total, and its total was not compared. -/
def Told (samples : List (ℤ × Dict Json)) (f : String) : Prop :=
  IsError f ∧ GrewWithin samples f ∧ ∀ total ∈ get? partOf f, ¬ Compared samples total

theorem errorCount_ne_zero_iff :
    errorCount (sampleDelta samples) ≠ 0 ↔ ∃ f, Told samples f := by
  rw [(errorCount_pos_iff sampleDelta_nonneg).2]
  refine (exists_mem_sampleDelta_iff (P := fun f => get? errorFields f ≠ some .discards ∧
    ∀ total ∈ get? partOf f, has (sampleDelta samples) total = false)).trans
      (exists_congr fun f => ?_)
  have htotal : (∀ total ∈ get? partOf f, has (sampleDelta samples) total = false) ↔
      ∀ total ∈ get? partOf f, ¬ Compared samples total := by
    refine forall₂_congr fun total hpart => ?_
    rw [← Bool.not_eq_true, has_sampleDelta_iff, comparedWithin_iff (partOf_total hpart)]
  rw [htotal]
  constructor
  · rintro ⟨⟨hclass, hnone⟩, hgrew⟩
    refine ⟨(isError_or_isDiscard (grew_of_grewWithin hgrew)).resolve_right hclass, hgrew, hnone⟩
  · rintro ⟨herror, hgrew, hnone⟩
    exact ⟨⟨not_isDiscard_of_isError herror, hnone⟩, hgrew⟩

theorem classTotal_ne_zero_iff :
    classTotal (sampleDelta samples) .discards ≠ 0 ↔ ∃ f, IsDiscard f ∧ Grew samples f := by
  rw [classTotal_discards_ne_zero_iff sampleDelta_nonneg]
  refine exists_mem_sampleDelta_iff.trans (exists_congr fun f => and_congr_right fun hd => ?_)
  exact grewWithin_iff hd.partOf_eq_none

theorem sampleDelta_ne_nil_iff : sampleDelta samples ≠ [] ↔ ∃ f, ComparedWithin samples f := by
  constructor
  · intro hne
    obtain ⟨p, hp⟩ := List.exists_mem_of_ne_nil _ hne
    exact ⟨p.1, (mem_sampleDelta_iff.mp hp).1⟩
  · rintro ⟨f, hf⟩
    have hmem : (f, growth (parsedSamples samples) f) ∈ sampleDelta samples :=
      mem_sampleDelta_iff.mpr ⟨hf, rfl⟩
    exact List.ne_nil_of_mem hmem

theorem summarize_cases (samples : List (ℤ × Dict Json)) :
    (steps (readableSamples samples) = [] ∧
      ((summarize samples).status = .noCounters ∨ (summarize samples).status = .singleSample) ∧
      (summarize samples).errors = 0 ∧ (summarize samples).delta = none) ∨
    ((summarize samples).status = (verdict (some (sampleDelta samples))).1 ∧
      (summarize samples).errors = (verdict (some (sampleDelta samples))).2.2 ∧
      (summarize samples).delta = some (sampleDelta samples)) := by
  have hlength : (parsedSamples samples).length = (readableSamples samples).length := by
    rw [parsedSamples_eq, List.length_map]
  unfold summarize sampleDelta
  dsimp only
  rcases hparsed : parsedSamples samples with _ | ⟨a, _ | ⟨b, rest⟩⟩
  · rw [hparsed, List.length_nil] at hlength
    have hnil := List.length_eq_zero_iff.mp hlength.symm
    rw [hnil]
    exact .inl ⟨rfl, .inl rfl, rfl, rfl⟩
  · rw [hparsed, List.length_singleton] at hlength
    obtain ⟨c, hc⟩ := List.length_eq_one_iff.mp hlength.symm
    rw [hc]
    exact .inl ⟨rfl, .inr rfl, rfl, rfl⟩
  · rw [List.head?_cons]
    cases hlast : (a :: b :: rest).getLast? with
    | none => exact absurd (List.getLast?_eq_none_iff.mp hlast) (List.cons_ne_nil _ _)
    | some last =>
      have htwo : ¬ (a :: b :: rest).length < 2 := by
        rw [List.length_cons, List.length_cons]
        omega
      dsimp only
      rw [if_neg htwo]
      exact .inr ⟨rfl, rfl, rfl⟩

end Summary

theorem increments_laws (samples : List (ℤ × Dict Json)) :
    (∀ p ∈ steps (parsedSamples samples), ∀ f, ∀ x ∈ get? p.1.2 f, ∀ y ∈ get? p.2.2 f,
      y < x → get? (increments [p.1, p.2]).1 f = some 0) ∧
    ∀ l s r, parsedSamples samples = l ++ s :: r → ∀ f,
      (get? (increments (parsedSamples samples)).1 f).getD 0 =
        (get? (increments (l ++ [s])).1 f).getD 0 + (get? (increments (s :: r)).1 f).getD 0 := by
  constructor
  · intro p hp f x hx y hy hlt
    obtain ⟨h₁, h₂⟩ := mem_of_mem_steps hp
    have hunique : ∀ s ∈ [p.1, p.2], PyDict.Unique s.2 := by
      intro s hs
      rcases List.mem_cons.mp hs with rfl | hs
      · exact unique_parsedSamples _ h₁
      · rw [List.mem_singleton.mp hs]
        exact unique_parsedSamples _ h₂
    have hrise : rise p.1.2 p.2.2 f = some 0 := by
      unfold rise
      rw [Option.mem_def.mp hx, Option.mem_def.mp hy, Option.bind_some, Option.map_some,
        max_eq_right (by omega)]
    rw [get?_increments hunique, if_pos]
    · unfold growth
      rw [stepSum_cons_cons, stepSum_singleton, hrise]
      rfl
    · refine ⟨(p.1, p.2), List.mem_singleton_self _, ?_⟩
      rw [hrise]
      rfl
  · intro l s r h f
    have hunique : ∀ t ∈ l ++ s :: r, PyDict.Unique t.2 := h ▸ unique_parsedSamples
    have hleft : ∀ t ∈ l ++ [s], PyDict.Unique t.2 := by
      intro t ht
      refine hunique t ?_
      rcases List.mem_append.mp ht with ht | ht
      · exact List.mem_append_left _ ht
      · rw [List.mem_singleton.mp ht]
        exact List.mem_append_right _ List.mem_cons_self
    have hright : ∀ t ∈ s :: r, PyDict.Unique t.2 := fun t ht =>
      hunique t (List.mem_append_right _ ht)
    rw [h, getD_increments hunique, getD_increments hleft, getD_increments hright]
    exact stepSum_split _ l s r

/-- The verdict on a port says what its counters did exactly where the growth of every counter other
than the discards is told by one that grew within its total, whose own total was not compared, and
where one counter was compared, one was within its total. -/
theorem verdict_faithful_iff (samples : List (ℤ × Dict Json)) :
    Faithful samples ↔
      (∀ f, IsError f → Grew samples f → ∃ g, Told samples g) ∧
        ∀ f, Compared samples f → ∃ g, ComparedWithin samples g := by
  have htold : errorCount (sampleDelta samples) ≠ 0 ↔ ∃ f, Told samples f :=
    errorCount_ne_zero_iff
  have hgrown : classTotal (sampleDelta samples) .discards ≠ 0 ↔
      ∃ f, IsDiscard f ∧ Grew samples f := classTotal_ne_zero_iff
  have hcompared : sampleDelta samples ≠ [] ↔ ∃ f, ComparedWithin samples f :=
    sampleDelta_ne_nil_iff
  have hnonneg : ∀ p ∈ sampleDelta samples, 0 ≤ p.2 := sampleDelta_nonneg
  obtain ⟨hcount, -⟩ := errorCount_pos_iff hnonneg
  obtain ⟨herroring, hdiscards, hclean, hcounted⟩ := verdict_some hnonneg
  constructor
  · intro h
    rcases summarize_cases samples with ⟨hsteps, -, -, -⟩ | ⟨hstatus, -, -⟩
    · constructor
      · rintro f - ⟨p, hp, -⟩
        rw [hsteps] at hp
        exact nomatch hp
      · rintro f ⟨p, hp, -⟩
        rw [hsteps] at hp
        exact nomatch hp
    · have htells : (∃ f, IsError f ∧ Grew samples f) → ∃ g, Told samples g := by
        intro herror
        have hs := h.erroring.mpr herror
        rw [hstatus] at hs
        exact htold.mp (herroring.mp hs)
      refine ⟨fun f herror hgrew => htells ⟨f, herror, hgrew⟩, fun f hf => ?_⟩
      by_cases hany : ∃ g, Grew samples g
      · obtain ⟨g, hgrew⟩ := hany
        rcases isError_or_isDiscard hgrew with herror | hd
        · obtain ⟨t, -, hwithin, -⟩ := htells ⟨g, herror, hgrew⟩
          exact ⟨t, comparedWithin_of_grewWithin hwithin⟩
        · have hwithin := (grewWithin_iff hd.partOf_eq_none).mpr hgrew
          exact ⟨g, comparedWithin_of_grewWithin hwithin⟩
      · have hs := h.clean.mpr ⟨⟨f, hf⟩, hany⟩
        rw [hstatus] at hs
        exact hcompared.mp (hclean.mp hs).1
  · rintro ⟨hgrowth, hwithin⟩
    have herrors : (∃ f, IsError f ∧ Grew samples f) ↔ errorCount (sampleDelta samples) ≠ 0 := by
      rw [htold]
      constructor
      · rintro ⟨f, herror, hgrew⟩
        exact hgrowth f herror hgrew
      · rintro ⟨g, herror, hgrew, -⟩
        exact ⟨g, herror, grew_of_grewWithin hgrew⟩
    have hany : (∃ f, Grew samples f) ↔ errorCount (sampleDelta samples) ≠ 0 ∨
        classTotal (sampleDelta samples) .discards ≠ 0 := by
      rw [← herrors, hgrown]
      constructor
      · rintro ⟨f, hf⟩
        exact (isError_or_isDiscard hf).imp (fun he => ⟨f, he, hf⟩) fun hd => ⟨f, hd, hf⟩
      · rintro (⟨f, -, hf⟩ | ⟨f, -, hf⟩)
        · exact ⟨f, hf⟩
        · exact ⟨f, hf⟩
    have hsome : (∃ f, Compared samples f) ↔ sampleDelta samples ≠ [] := by
      rw [hcompared]
      constructor
      · rintro ⟨f, hf⟩
        exact hwithin f hf
      · rintro ⟨f, hf⟩
        exact ⟨f, compared_of_comparedWithin hf⟩
    have hlaws := increments_laws samples
    rcases summarize_cases samples with ⟨hsteps, hstatus, hzero, hdelta⟩ |
      ⟨hstatus, hvalue, hdelta⟩
    · have hno : ∀ f, ¬ Grew samples f := by
        rintro f ⟨p, hp, -⟩
        rw [hsteps] at hp
        exact nomatch hp
      have hnone : ∀ f, ¬ Compared samples f := by
        rintro f ⟨p, hp, -⟩
        rw [hsteps] at hp
        exact nomatch hp
      refine ⟨iff_of_false ?_ fun ⟨f, _, hf⟩ => hno f hf,
        iff_of_false ?_ fun ⟨⟨f, _, hf⟩, _⟩ => hno f hf,
        iff_of_false ?_ fun ⟨⟨f, hf⟩, _⟩ => hnone f hf,
        iff_of_false (by omega) fun ⟨f, _, hf⟩ => hno f hf, ?_, hlaws.1, hlaws.2⟩
      · rcases hstatus with hs | hs
        · rw [hs]
          decide
        · rw [hs]
          decide
      · rcases hstatus with hs | hs
        · rw [hs]
          decide
        · rw [hs]
          decide
      · rcases hstatus with hs | hs
        · rw [hs]
          decide
        · rw [hs]
          decide
      · intro delta hd
        rw [hdelta] at hd
        exact nomatch hd
    · refine ⟨?_, ?_, ?_, ?_, ?_, hlaws.1, hlaws.2⟩
      · rw [hstatus, herroring, herrors]
      · rw [hstatus, hdiscards, herrors, ← hgrown, not_not, and_comm]
      · rw [hstatus, hclean, hsome, hany, not_or, not_not, not_not]
      · rw [hvalue, hcounted, herrors]
        omega
      · intro delta hd
        rw [hdelta] at hd
        rw [← Option.some.inj hd]
        exact hnonneg

/-- The CRC errors grow and their total does not move. -/
def stuckTotal : List (ℤ × Dict Json) :=
  [(0, [("in_errors", .int 100), ("crc", .int 5)]),
    (60, [("in_errors", .int 100), ("crc", .int 9)])]

/-- The late collisions grow and their total is reset. -/
def resetTotal : List (ℤ × Dict Json) :=
  [(0, [("out_errors", .int 1000), ("late_collisions", .int 5)]),
    (60, [("out_errors", .int 3), ("late_collisions", .int 9)])]

/-- Growing details are reported as clean. -/
theorem growing_details_clean :
    ((∃ f, IsError f ∧ Grew stuckTotal f) ∧ (summarize stuckTotal).status = .clean) ∧
      (∃ f, IsError f ∧ Grew resetTotal f) ∧ (summarize resetTotal).status = .clean := by
  have hstuck : Grew stuckTotal "crc" := ⟨_, List.mem_cons_self .., 5, rfl, 9, rfl, by decide⟩
  have hreset : Grew resetTotal "late_collisions" :=
    ⟨_, List.mem_cons_self .., 5, rfl, 9, rfl, by decide⟩
  exact ⟨⟨⟨"crc", ⟨.physical, rfl, by decide⟩, hstuck⟩, by decide⟩,
    ⟨"late_collisions", ⟨.duplex, rfl, by decide⟩, hreset⟩, by decide⟩

/-! ## Two readings -/

end SentinelNet.Observability
