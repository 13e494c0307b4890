import SentinelNet.Audit.Log

/-!
# Tampering with the audit log

Whoever edits a file of the audit log without the key has the tags that are in it, and no others.
The check passes over lines without a tag wherever they are, so that such lines can be added, and
the last line can be written anew without its tag.

* `afterLegacy`: the lines from the first one with a tag on.
* `Written.isPrefix_iff`: when what is accepted is the beginning of what was written.
* `tampering_evident_iff`: so it is for every file of every run.
* `last_line_rewritten`: a last line that was written anew without its tag is accepted.
-/

namespace SentinelNet.Audit

open HashChain StepRuns

def afterLegacy (lines : List Text) : List Text := lines.dropWhile fun line => chainTag line = none

/-- The tags in a text that are right for some line were signed for it. -/
def Unforged (key : ChainKey) (pairs : List (Text × Text)) (text : Text) : Prop :=
  ∀ prev base, render base (key.tagOf prev base) ∈ readLines text → (prev, base) ∈ pairs

/-- No two of the lines that were signed have one tag. -/
def TagsDiffer (key : ChainKey) (pairs : List (Text × Text)) : Prop :=
  Set.InjOn (fun pair : Text × Text => key.tagOf pair.1 pair.2) {pair | pair ∈ pairs}

variable {key : ChainKey} {rolls : Text → Text → Bool} {legacy bases : List Text}
  {start file : Text}

/-! ## Lines with tags -/

theorem chainTag_of_mem_writtenLines {line : Text} (h : line ∈ writtenLines key start bases) :
    chainTag line ≠ none := by
  obtain ⟨entry, hentry, rfl⟩ := List.mem_map.mp h
  rw [chainTag_render _ (isTag_of_mem_tagged hentry)]
  exact Option.some_ne_none _

/-- The lines from before the chain come first. -/
theorem Written.afterLegacy (h : Written key legacy start bases file) :
    Audit.afterLegacy (readLines file) = writtenLines key start bases := by
  have hplain : ∀ line ∈ legacy, decide (chainTag line = none) = true := fun line hline =>
    decide_eq_true (h.plain line hline)
  rw [Audit.afterLegacy, h.lines, List.dropWhile_append_of_pos hplain]
  refine List.dropWhile_eq_self_iff.mpr fun hlen => ?_
  simpa using chainTag_of_mem_writtenLines (List.getElem_mem hlen)

theorem chained_afterLegacy (lines : List Text) :
    chained (afterLegacy lines) = chained lines := by
  induction lines with
  | nil => rfl
  | cons line lines ih =>
    rw [afterLegacy, List.dropWhile_cons]
    split
    · next hplain =>
      have hline : chained [line] = [] := chained_of_untagged fun l hl =>
        (List.mem_singleton.mp hl) ▸ of_decide_eq_true hplain
      change chained (afterLegacy lines) = chained ([line] ++ lines)
      rw [chained_append, hline, ih]
      rfl
    · rfl

theorem map_render_chained {lines : List Text} (h : ∀ line ∈ lines, chainTag line ≠ none) :
    (chained lines).map (fun entry => render entry.1 entry.2) = lines := by
  induction lines with
  | nil => rfl
  | cons line lines ih =>
    obtain ⟨tag, htag⟩ := Option.ne_none_iff_exists'.mp (h line List.mem_cons_self)
    have hrest := ih (List.forall_mem_cons.mp h).2
    rw [chained] at hrest
    rw [chained, List.filterMap_cons, htag]
    change render (splitChainTag line).1 tag :: _ = _
    rw [← (chainTag_eq_some htag).1, hrest]

theorem mem_of_mem_chained {lines : List Text} {base tag : Text} (h : (base, tag) ∈ chained lines) :
    render base tag ∈ lines := by
  obtain ⟨line, hline, hentry⟩ := List.mem_filterMap.mp h
  obtain ⟨t, ht, heq⟩ := Option.map_eq_some_iff.mp hentry
  obtain ⟨rfl, rfl⟩ := Prod.mk.inj heq
  rw [← (chainTag_eq_some ht).1]
  exact hline

/-! ## What is accepted -/

theorem tagOf_ne_seed (key : ChainKey) (prev base : Text) : key.tagOf prev base ≠ seed :=
  fun h => seed_not_isTag (h ▸ key.isTag prev base)

theorem Written.isPrefix_chained (h : Written key legacy start bases file) {edited : Text}
    (hinj : TagsDiffer key (signed key.tagOf start bases))
    (hforged : Unforged key (signed key.tagOf start bases) edited)
    (hacc : verifyAuditChain key edited = none) :
    Audit.chained (readLines edited) <+: tagged key.tagOf start bases := by
  rw [verifyAuditChain, verifyFrom_eq_none] at hacc
  have hpairs : ∀ prev base, (base, key.tagOf prev base) ∈ Audit.chained (readLines edited) →
      (prev, base) ∈ signed key.tagOf start bases :=
    fun prev base hmem => hforged prev base (mem_of_mem_chained hmem)
  have hseed : ∀ pair ∈ signed key.tagOf start bases, key.tagOf pair.1 pair.2 ≠ seed :=
    fun pair _ => tagOf_ne_seed key _ _
  by_cases hstart : start = seed
  · rw [hstart] at hinj hpairs hseed ⊢
    exact isPrefix_of_accepted hinj hseed hacc hpairs
  · -- No line of the file goes on from the seed.
    rw [eq_nil_of_accepted hstart hseed hacc hpairs]
    exact List.nil_prefix

/-- What is accepted is the beginning of what was written, after any lines from before the chain, if
and only if no line without a tag comes after one with a tag. -/
theorem Written.isPrefix_iff (h : Written key legacy start bases file) {edited : Text}
    (hinj : TagsDiffer key (signed key.tagOf start bases))
    (hforged : Unforged key (signed key.tagOf start bases) edited)
    (hacc : verifyAuditChain key edited = none) :
    Audit.afterLegacy (readLines edited) <+: Audit.afterLegacy (readLines file) ↔
      ∀ line ∈ Audit.afterLegacy (readLines edited), chainTag line ≠ none := by
  rw [h.afterLegacy]
  constructor
  · intro hpre line hline
    exact chainTag_of_mem_writtenLines (hpre.subset hline)
  · intro htagged
    have hchained := h.isPrefix_chained hinj hforged hacc
    rw [← chained_afterLegacy] at hchained
    rw [← map_render_chained htagged, writtenLines]
    exact hchained.map _

/-- Every file of every run of the handler has been written after the seed or after some tag, and a
text that was made of it without the key and is accepted is its beginning if and only if no line
without a tag comes after one with a tag. -/
theorem tampering_evident_iff {old : Text} {acts : List Act} {s : Log}
    (hrun : Run (step key rolls) (fun _ _ => True) ⟨none, old, []⟩ acts s)
    (hcomplete : Complete old) (hplain : ∀ line ∈ readLines old, chainTag line = none)
    (hfile : file ∈ s.file :: s.rotated) :
    (∃ legacy start bases, Written key legacy start bases file) ∧
      ∀ legacy start bases edited, Written key legacy start bases file →
        TagsDiffer key (signed key.tagOf start bases) →
        Unforged key (signed key.tagOf start bases) edited →
        verifyAuditChain key edited = none →
        (afterLegacy (readLines edited) <+: afterLegacy (readLines file) ↔
          ∀ line ∈ afterLegacy (readLines edited), chainTag line ≠ none) := by
  refine ⟨?_, fun legacy start bases edited hw hinj hforged hacc =>
    hw.isPrefix_iff hinj hforged hacc⟩
  have hkept := Kept.run hrun (kept_legacy hcomplete hplain (Or.inl rfl))
  rcases List.mem_cons.mp hfile with rfl | hfile
  · obtain ⟨legacy, start, bases, -, hw⟩ := hkept.file
    exact ⟨legacy, start, bases, hw⟩
  · obtain ⟨legacy, start, bases, -, hw⟩ := hkept.rotated file hfile
    exact ⟨legacy, start, bases, hw⟩

/-! ## A last line that is written anew -/

/-- Two records. -/
def inAndOut : List Act :=
  [.logAudit newYear [] "LOGIN".toList, .logAudit newYear [] "LOGOUT".toList]

/-- Their lines without tags. -/
def inAndOutBases : List Text :=
  [baseLine newYear [] "LOGIN".toList, baseLine newYear [] "LOGOUT".toList]

def inAndOutLog : Log := inAndOut.foldl (step sampleKey shouldRollover) ⟨none, [], []⟩

/-- The file with another last line, without a tag. -/
def rewritten : Text :=
  render (baseLine newYear [] "LOGIN".toList) (List.replicate 64 '0') ++
    ('\n' :: (baseLine newYear [] "LOGIN".toList ++ ['\n']))

theorem written_inAndOut : Written sampleKey [] seed inAndOutBases inAndOutLog.file := by
  refine ⟨Or.inr ⟨inAndOutLog.file.dropLast, ?_⟩, fun _ hline => absurd hline List.not_mem_nil,
    fun _ => rfl, ?_⟩
  · decide +kernel
  · decide +kernel

theorem tagsDiffer_inAndOut :
    TagsDiffer sampleKey (signed sampleKey.tagOf seed inAndOutBases) := by
  have hne : sampleKey.tagOf seed (baseLine newYear [] "LOGIN".toList) ≠
      sampleKey.tagOf (sampleKey.tagOf seed (baseLine newYear [] "LOGIN".toList))
        (baseLine newYear [] "LOGOUT".toList) := by
    decide
  intro x hx y hy hxy
  simp only [inAndOutBases, signed, Set.mem_ofPred_eq, List.mem_cons, List.not_mem_nil,
    or_false] at hx hy
  rcases hx with rfl | rfl
  · rcases hy with rfl | rfl
    · rfl
    · exact absurd hxy hne
  · rcases hy with rfl | rfl
    · exact absurd hxy.symm hne
    · rfl

theorem readLines_rewritten : readLines rewritten =
    [render (baseLine newYear [] "LOGIN".toList) (List.replicate 64 '0'),
      baseLine newYear [] "LOGIN".toList] := by
  decide

theorem unforged_rewritten :
    Unforged sampleKey (signed sampleKey.tagOf seed inAndOutBases) rewritten := by
  intro prev base hmem
  rw [readLines_rewritten] at hmem
  have htag := sampleKey.isTag prev base
  have hzeros : IsTag (List.replicate 64 '0') := by decide
  rcases List.mem_cons.mp hmem with heq | hmem
  · have hsplit := congrArg splitChainTag heq
    rw [splitChainTag_render _ htag, splitChainTag_render _ hzeros] at hsplit
    obtain ⟨rfl, heq⟩ := Prod.mk.inj hsplit
    have hprev : prev = seed := by
      by_contra hne
      have hones : sampleKey.tagOf prev (baseLine newYear [] "LOGIN".toList) =
          List.replicate 64 '1' := by
        change List.replicate 64 (if prev = seed then '0' else '1') = _
        rw [if_neg hne]
      rw [hones] at heq
      exact absurd heq (by decide)
    rw [hprev]
    exact List.mem_cons_self ..
  · have hplain : chainTag (baseLine newYear [] "LOGIN".toList) = none := by decide
    rw [← List.mem_singleton.mp hmem, chainTag_render base htag] at hplain
    cases hplain

theorem verify_rewritten : verifyAuditChain sampleKey rewritten = none := by
  decide

theorem tampering_evident_iff_rewritten :
    afterLegacy (readLines rewritten) <+: afterLegacy (readLines inAndOutLog.file) ↔
      ∀ line ∈ afterLegacy (readLines rewritten), chainTag line ≠ none :=
  (tampering_evident_iff (Run.any inAndOut _) (Or.inl rfl)
    (fun _ hline => absurd hline List.not_mem_nil) (List.mem_cons_self ..)).2
    [] seed inAndOutBases rewritten written_inAndOut tagsDiffer_inAndOut unforged_rewritten
    verify_rewritten

/-- The last line of a file is written anew, without its tag, and the file is accepted. -/
theorem last_line_rewritten :
    Run (step sampleKey shouldRollover) (fun _ _ => True) ⟨none, [], []⟩ inAndOut inAndOutLog ∧
      Written sampleKey [] seed inAndOutBases inAndOutLog.file ∧
      TagsDiffer sampleKey (signed sampleKey.tagOf seed inAndOutBases) ∧
      Unforged sampleKey (signed sampleKey.tagOf seed inAndOutBases) rewritten ∧
      verifyAuditChain sampleKey rewritten = none ∧
      ¬ afterLegacy (readLines rewritten) <+: afterLegacy (readLines inAndOutLog.file) := by
  refine ⟨Run.any _ _, written_inAndOut, tagsDiffer_inAndOut, unforged_rewritten,
    verify_rewritten, ?_⟩
  rw [← List.isPrefixOf_iff_prefix]
  decide +kernel

end SentinelNet.Audit
