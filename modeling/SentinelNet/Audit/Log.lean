import SentinelNet.Lib.HashChain
import SentinelNet.Lib.Runs
import SentinelNet.Audit.Lines

/-!
# The audit log

`_ChainedFormatter` ends a line with a tag over the line and the tag before it, and keeps the line
with the record, since the handler formats a record twice: to see whether the file has to be
rotated, and to write it.  A rotation in between lets the chain start anew, but the line that is
kept goes on with the old one.

* `verifyAuditChain`: the check of a file.
* `Kept.run`: every file of every run has this form, after the seed or after some tag.
* `verifies_of_calm`: where no record rotates a file with a tag, every file is in order.
* `rotated_not_verified`: a record that rotates a file of ten megabytes is not.
-/

namespace SentinelNet.Audit

open HashChain StepRuns

/-! ## The formatter and the handler -/

def seed : Text := "sentinelnet-audit-chain-v1".toList

/-- What `_chain_key` makes of a tag and a line: an HMAC, in hexadecimal digits. -/
structure ChainKey where
  /-- `_chain_tag_of`. -/
  tagOf : Text → Text → Text
  isTag : ∀ prev line, IsTag (tagOf prev line)

def chainTag (line : Text) : Option Text := (splitChainTag line).2

def lastChainTag (file : Text) : Text :=
  ((readLines file).foldl (fun last line => (chainTag line).or last) none).getD seed

/-- The log of a process: `_chain_prev`, the file, and the rotated files. -/
structure Log where
  prev : Option Text
  file : Text
  rotated : List Text

/-- A record, with the line that was kept of it. -/
structure Record where
  base : Text
  chainLine : Option Text

section Handler

variable (key : ChainKey)

def Log.chainPrev (s : Log) : Text := s.prev.getD (lastChainTag s.file)

def format (s : Log) (record : Record) : Text × Log × Record :=
  match record.chainLine with
  | some line => (line, s, record)
  | none =>
    let tag := key.tagOf s.chainPrev record.base
    let line := render record.base tag
    (line, { s with prev := some tag }, { record with chainLine := some line })

/-- `_ChainedRotatingHandler.doRollover`, with nine backups. -/
def doRollover (s : Log) : Log := ⟨none, [], (s.file :: s.rotated).take 9⟩

/-- `emit` of the rotating handler; `rolls` is its decision on a file and a line. -/
def emit (rolls : Text → Text → Bool) (s : Log) (record : Record) : Log :=
  let (line, s, record) := format key s record
  let s := if rolls s.file line then doRollover s else s
  let (line, s, _) := format key s record
  { s with file := s.file ++ (line ++ ['\n']) }

/-- The time of a record, `%(asctime)s`. -/
structure Stamp where
  text : Text
  oneLine : OneLine text

/-- The message of `log_audit`, with the client that was declared. -/
def auditMessage (client message : Text) : Text :=
  escape (if client = [] then message
    else message ++ (" [client dichiarato: ".toList ++ (client ++ [']'])))

/-- `%(asctime)s - [AUDIT] - %(message)s`. -/
def baseLine (stamp : Stamp) (client message : Text) : Text :=
  stamp.text ++ (" - [AUDIT] - ".toList ++ auditMessage client message)

/-- What happens to the log. -/
inductive Act where
  | logAudit (stamp : Stamp) (client message : Text)
  /-- A message that has no UTF-8: the tag cannot be computed, and the record is dropped. -/
  | unencodable
  | restart

def step (rolls : Text → Text → Bool) (s : Log) : Act → Log
  | .logAudit stamp client message => emit key rolls s ⟨baseLine stamp client message, none⟩
  | .unencodable => { s with prev := some s.chainPrev }
  | .restart => { s with prev := none }

/-! ## The check -/

/-- The loop of `verify_audit_chain`, from line `n` on. -/
def verifyFrom (n : ℕ) (prev : Text) : List Text → Option ℕ
  | [] => none
  | line :: lines =>
    if line = [] then verifyFrom (n + 1) prev lines
    else
      match splitChainTag line with
      | (_, none) => verifyFrom (n + 1) prev lines
      | (base, some tag) =>
        if tag ≠ key.tagOf prev base then some n else verifyFrom (n + 1) tag lines

def verifyAuditChain (file : Text) : Option ℕ := verifyFrom key 1 seed (readLines file)

end Handler

variable {key : ChainKey} {rolls : Text → Text → Bool}

/-! ## Lines with tags -/

def chained (lines : List Text) : List (Text × Text) :=
  lines.filterMap fun line => (chainTag line).map fun tag => ((splitChainTag line).1, tag)

theorem chained_append (l l' : List Text) : chained (l ++ l') = chained l ++ chained l' :=
  List.filterMap_append

theorem chained_of_untagged {lines : List Text} (h : ∀ line ∈ lines, chainTag line = none) :
    chained lines = [] := by
  refine List.filterMap_eq_nil_iff.mpr fun line hline => ?_
  rw [h line hline]
  rfl

theorem chainTag_render (base : Text) {tag : Text} (h : IsTag tag) :
    chainTag (render base tag) = some tag := by
  rw [chainTag, splitChainTag_render base h]

theorem chainTag_eq_some {line tag : Text} (h : chainTag line = some tag) :
    line = render (splitChainTag line).1 tag ∧ IsTag tag :=
  splitChainTag_eq_some.mp (Prod.ext rfl h)

theorem verifyFrom_eq_none {n : ℕ} {prev : Text} {lines : List Text} :
    verifyFrom key n prev lines = none ↔ Accepted key.tagOf prev (chained lines) := by
  induction lines generalizing n prev with
  | nil => exact ⟨fun _ => trivial, fun _ => rfl⟩
  | cons line lines ih =>
    rw [verifyFrom, chained, List.filterMap_cons, chainTag]
    split
    · next hempty =>
      rw [hempty]
      exact ih
    · cases hsplit : splitChainTag line with
      | mk base tag =>
        cases tag with
        | none => exact ih
        | some tag =>
          change (if tag ≠ key.tagOf prev base then some n else verifyFrom key (n + 1) tag lines) =
            none ↔ tag = key.tagOf prev base ∧ Accepted key.tagOf tag (chained lines)
          split
          · next hne => exact ⟨fun h => (nomatch h), fun h => absurd h.1 hne⟩
          · next heq => exact ih.trans ⟨fun h => ⟨not_not.mp heq, h⟩, fun h => h.2⟩

theorem foldl_chainTag (lines : List Text) (last : Option Text) :
    lines.foldl (fun last line => (chainTag line).or last) last =
      (((chained lines).getLast?).map Prod.snd).or last := by
  induction lines using List.reverseRecOn with
  | nil => rfl
  | append_singleton lines line ih =>
    rw [List.foldl_concat, ih, chained_append]
    cases htag : chainTag line with
    | none =>
      rw [show chained [line] = [] from chained_of_untagged fun l hl =>
        (List.mem_singleton.mp hl) ▸ htag, List.append_nil]
      rfl
    | some tag =>
      rw [show chained [line] = [((splitChainTag line).1, tag)] from by
        simp [chained, htag], List.getLast?_concat]
      rfl

theorem lastChainTag_eq (file : Text) : lastChainTag file =
    (((chained (readLines file)).getLast?).map Prod.snd).getD seed := by
  rw [lastChainTag, foldl_chainTag, Option.or_none]

theorem lastChainTag_of_untagged {file : Text} (h : ∀ line ∈ readLines file, chainTag line = none) :
    lastChainTag file = seed := by
  rw [lastChainTag_eq, chained_of_untagged h]
  rfl

theorem lastChainTag_cases (file : Text) : lastChainTag file = seed ∨ IsTag (lastChainTag file) := by
  rw [lastChainTag_eq]
  cases hlast : (chained (readLines file)).getLast? with
  | none => exact Or.inl rfl
  | some entry =>
    refine Or.inr ?_
    obtain ⟨line, -, hline⟩ := List.mem_filterMap.mp (List.mem_of_getLast? hlast)
    obtain ⟨tag, htag, rfl⟩ := Option.map_eq_some_iff.mp hline
    exact (chainTag_eq_some htag).2

theorem seed_not_isTag : ¬ IsTag seed := by decide

/-! ## Files that the handler wrote -/

def writtenLines (key : ChainKey) (start : Text) (bases : List Text) : List Text :=
  (tagged key.tagOf start bases).map fun entry => render entry.1 entry.2

/-- The form of a file that the handler wrote: lines without a tag from before, and then lines that
were written after a tag, which is the seed if there are none. -/
structure Written (key : ChainKey) (legacy : List Text) (start : Text) (bases : List Text)
    (file : Text) : Prop where
  complete : Complete file
  plain : ∀ line ∈ legacy, chainTag line = none
  fresh : bases = [] → start = seed
  lines : readLines file = legacy ++ writtenLines key start bases

theorem isTag_of_mem_tagged {start : Text} {bases : List Text} {entry : Text × Text}
    (h : entry ∈ tagged key.tagOf start bases) : IsTag entry.2 := by
  induction bases generalizing start with
  | nil => exact absurd h List.not_mem_nil
  | cons base bases ih =>
    rcases List.mem_cons.mp h with rfl | h
    · exact key.isTag _ _
    · exact ih h

theorem chained_writtenLines (start : Text) (bases : List Text) :
    chained (writtenLines key start bases) = tagged key.tagOf start bases := by
  rw [chained, writtenLines, List.filterMap_map]
  have hsome : ∀ entry ∈ tagged key.tagOf start bases,
      ((fun line => (chainTag line).map fun tag => ((splitChainTag line).1, tag)) ∘
        fun entry : Text × Text => render entry.1 entry.2) entry = some entry := by
    intro entry hentry
    have htag := isTag_of_mem_tagged hentry
    rw [Function.comp_apply, chainTag_render _ htag, splitChainTag_render _ htag]
    rfl
  rw [List.filterMap_congr hsome]
  exact List.filterMap_some

variable {legacy bases : List Text} {start file : Text}

theorem Written.chained (h : Written key legacy start bases file) :
    Audit.chained (readLines file) = tagged key.tagOf start bases := by
  rw [h.lines, chained_append, chained_of_untagged h.plain, List.nil_append, chained_writtenLines]

theorem Written.lastChainTag (h : Written key legacy start bases file) :
    Audit.lastChainTag file = bases.foldl key.tagOf start := by
  rw [lastChainTag_eq, h.chained, ← getLast?_tagged]
  rcases List.eq_nil_or_concat bases with rfl | ⟨init, base, rfl⟩
  · rw [h.fresh rfl]
  · rw [List.concat_eq_append, tagged_append, tagged, tagged, List.getLast?_concat]
    rfl

theorem Written.verifies (h : Written key legacy seed bases file) :
    verifyAuditChain key file = none := by
  rw [verifyAuditChain, verifyFrom_eq_none, h.chained]
  exact accepted_tagged _ _

variable {base : Text}

theorem Written.write (h : Written key legacy start bases file)
    (hbase : OneLine base) : Written key legacy start (bases ++ [base])
      (file ++ (render base (key.tagOf (Audit.lastChainTag file) base) ++ ['\n'])) := by
  refine ⟨complete_append _ _, h.plain, fun hnil => absurd hnil (by simp), ?_⟩
  rw [readLines_append h.complete (oneLine_render hbase (key.isTag _ _)), h.lines,
    List.append_assoc, writtenLines, writtenLines, tagged_append, List.map_append,
    ← h.lastChainTag]
  rfl

theorem written_first (start : Text) (hbase : OneLine base) :
    Written key [] start [base] (render base (key.tagOf start base) ++ ['\n']) := by
  have hempty : Complete [] := Or.inl rfl
  refine ⟨complete_append [] _, fun _ h => absurd h List.not_mem_nil,
    fun hnil => absurd hnil (List.cons_ne_nil _ _), ?_⟩
  exact readLines_append hempty (oneLine_render hbase (key.isTag _ _))

/-! ## Runs -/

theorem oneLine_baseLine (stamp : Stamp) (client message : Text) :
    OneLine (baseLine stamp client message) :=
  stamp.oneLine.append (OneLine.append ⟨by decide, by decide⟩ (oneLine_escape _))

theorem emit_eq (s : Log) (base : Text) : emit key rolls s ⟨base, none⟩ =
    if rolls s.file (render base (key.tagOf s.chainPrev base)) = true then
      ⟨none, render base (key.tagOf s.chainPrev base) ++ ['\n'], (s.file :: s.rotated).take 9⟩
    else
      ⟨some (key.tagOf s.chainPrev base),
        s.file ++ (render base (key.tagOf s.chainPrev base) ++ ['\n']), s.rotated⟩ := by
  rw [emit, format]
  dsimp only
  split <;> rfl

/-- Every file has the form of a file that was written, with a start of some kind, and the chain
goes on from the last tag of the file. -/
structure Kept (key : ChainKey) (Start : Text → Prop) (s : Log) : Prop where
  file : ∃ legacy start bases, Start start ∧ Written key legacy start bases s.file
  prev : ∀ tag ∈ s.prev, tag = lastChainTag s.file
  rotated : ∀ f ∈ s.rotated, ∃ legacy start bases, Start start ∧ Written key legacy start bases f

variable {Start : Text → Prop} {s s' : Log}

theorem Kept.chainPrev (h : Kept key Start s) : s.chainPrev = lastChainTag s.file := by
  rw [Log.chainPrev]
  cases hprev : s.prev with
  | none => rfl
  | some tag => exact h.prev tag hprev

/-- A record is written; where it rotates the file, the new file starts with the last tag of the
old one. -/
theorem Kept.emit (h : Kept key Start s) (hbase : OneLine base)
    (hstart : rolls s.file (render base (key.tagOf (lastChainTag s.file) base)) = true →
      Start (lastChainTag s.file)) : Kept key Start (Audit.emit key rolls s ⟨base, none⟩) := by
  obtain ⟨legacy, start, bases, hs, hw⟩ := h.file
  rw [emit_eq, h.chainPrev]
  split
  · next hroll =>
    refine ⟨⟨[], _, [base], hstart hroll, written_first _ hbase⟩, fun tag htag => (nomatch htag),
      fun f hf => ?_⟩
    rcases List.mem_cons.mp (List.mem_of_mem_take hf) with rfl | hf
    · exact h.file
    · exact h.rotated f hf
  · have hnext := hw.write hbase
    refine ⟨⟨legacy, start, _, hs, hnext⟩, fun tag htag => ?_, h.rotated⟩
    rw [← Option.some.inj htag, hnext.lastChainTag, hw.lastChainTag, List.foldl_concat]

/-- A record rotates a file that has a tag. -/
def RotatesTagged (key : ChainKey) (rolls : Text → Text → Bool) (s : Log) : Act → Prop
  | .logAudit stamp client message =>
    rolls s.file (format key s ⟨baseLine stamp client message, none⟩).1 = true ∧
      ∃ line ∈ readLines s.file, chainTag line ≠ none
  | _ => False

theorem Kept.step (h : Kept key Start s) (a : Act)
    (hstart : RotatesTagged key rolls s a → Start (lastChainTag s.file)) (hseed : Start seed) :
    Kept key Start (Audit.step key rolls s a) := by
  cases a with
  | logAudit stamp client message =>
    refine h.emit (oneLine_baseLine stamp client message) fun hroll => ?_
    by_cases htagged : ∃ line ∈ readLines s.file, chainTag line ≠ none
    · refine hstart ⟨?_, htagged⟩
      rw [← h.chainPrev] at hroll
      exact hroll
    · have hnone : ∀ line ∈ readLines s.file, chainTag line = none := by
        intro line hline
        by_contra hne
        exact htagged ⟨line, hline, hne⟩
      rw [lastChainTag_of_untagged hnone]
      exact hseed
  | unencodable =>
    refine ⟨h.file, fun tag htag => ?_, h.rotated⟩
    rw [← Option.some.inj htag]
    exact h.chainPrev
  | restart => exact ⟨h.file, fun tag htag => (nomatch htag), h.rotated⟩

theorem kept_legacy {old : Text} (hcomplete : Complete old)
    (hplain : ∀ line ∈ readLines old, chainTag line = none) (hseed : Start seed) :
    Kept key Start ⟨none, old, []⟩ :=
  ⟨⟨readLines old, seed, [], hseed, hcomplete, hplain, fun _ => rfl, (List.append_nil _).symm⟩,
    fun _ htag => (nomatch htag), fun _ hf => nomatch hf⟩

/-- Every file of every run was written after the seed or after some tag. -/
theorem Kept.run {P : Log → Act → Prop} {acts : List Act}
    (hrun : Run (Audit.step key rolls) P s acts s')
    (h : Kept key (fun start => start = seed ∨ IsTag start) s) :
    Kept key (fun start => start = seed ∨ IsTag start) s' :=
  hrun.invariant (fun s a h _ => h.step a (fun _ => lastChainTag_cases s.file) (Or.inl rfl)) h

/-- In a run in which no record rotates a file that has a tag, the file and every rotated file are
in order at the end. -/
theorem verifies_of_calm {old : Text} {acts : List Act} {s : Log}
    (hrun : Run (step key rolls) (fun s a => ¬ RotatesTagged key rolls s a) ⟨none, old, []⟩ acts s)
    (hcomplete : Complete old) (hplain : ∀ line ∈ readLines old, chainTag line = none) :
    verifyAuditChain key s.file = none ∧ ∀ f ∈ s.rotated, verifyAuditChain key f = none := by
  have hstart : Kept key (fun start => start = seed) ⟨none, old, []⟩ :=
    kept_legacy hcomplete hplain rfl
  have hkept := hrun.invariant
    (fun s a h hcalm => h.step a (fun hrot => absurd hrot hcalm) rfl) hstart
  constructor
  · obtain ⟨legacy, start, bases, rfl, hw⟩ := hkept.file
    exact hw.verifies
  · intro f hf
    obtain ⟨legacy, start, bases, rfl, hw⟩ := hkept.rotated f hf
    exact hw.verifies

/-! ## A record that rotates a file -/

theorem first_line_not_verified {start : Text} (hbase : OneLine base)
    (hne : key.tagOf start base ≠ key.tagOf seed base) :
    verifyAuditChain key (render base (key.tagOf start base) ++ ['\n']) = some 1 := by
  have hempty : Complete [] := Or.inl rfl
  have hlines : readLines (render base (key.tagOf start base) ++ ['\n']) =
      [render base (key.tagOf start base)] :=
    readLines_append hempty (oneLine_render hbase (key.isTag _ _))
  have hline : render base (key.tagOf start base) ≠ [] := by simp [render, marker]
  rw [verifyAuditChain, hlines, verifyFrom, if_neg hline,
    splitChainTag_render base (key.isTag _ _)]
  exact if_pos hne

/-- Tags that tell the seed from what follows. -/
def sampleKey : ChainKey where
  tagOf prev _ := List.replicate 64 (if prev = seed then '0' else '1')
  isTag prev _ := by
    split
    · exact ⟨List.length_replicate, by decide⟩
    · exact ⟨List.length_replicate, by decide⟩

def maxBytes : ℕ := 10 * 1024 * 1024

/-- `shouldRollover`: a file that is not empty would reach the limit, with the line in
characters. -/
def shouldRollover (file line : Text) : Bool :=
  decide (file ≠ [] ∧ maxBytes ≤ (file.map Char.utf8Size).sum + line.length + 1)

/-- A time. -/
def newYear : Stamp := ⟨"2026-01-01 00:00:00,000".toList, by decide, by decide⟩

def twoRecords : List Act :=
  [.logAudit newYear [] "LOGIN".toList, .restart, .logAudit newYear "mcp".toList "LOGOUT".toList]

theorem verifies_of_calm_twoRecords :
    verifyAuditChain sampleKey (twoRecords.foldl (step sampleKey shouldRollover)
        ⟨none, [], []⟩).file = none ∧
      ∀ f ∈ (twoRecords.foldl (step sampleKey shouldRollover) ⟨none, [], []⟩).rotated,
        verifyAuditChain sampleKey f = none := by
  rw [twoRecords, List.foldl_cons, List.foldl_cons, List.foldl_cons, List.foldl_nil]
  refine verifies_of_calm (Run.cons ?_ (Run.cons id (Run.cons ?_ (Run.nil _)))) (Or.inl rfl)
    fun line hline => nomatch hline
  · exact fun h => absurd h.1 (by decide)
  · exact fun h => absurd h.1 (by decide +kernel)

theorem length_le_utf8 (text : Text) : text.length ≤ (text.map Char.utf8Size).sum := by
  induction text with
  | nil => exact le_refl _
  | cons c text ih =>
    have hc := Char.utf8Size_pos c
    rw [List.length_cons, List.map_cons, List.sum_cons]
    omega

theorem length_le_escape (message : Text) : message.length ≤ (escape message).length := by
  induction message with
  | nil => exact le_refl _
  | cons c message ih =>
    have hc : 1 ≤ (if c = '\r' then ['\\', 'r'] else if c = '\n' then ['\\', 'n'] else [c]).length := by
      split
      · decide
      · split
        · decide
        · exact le_refl _
    rw [escape, List.flatMap_cons, List.length_append, List.length_cons]
    rw [escape] at ih
    omega

/-- A long record and another one, which rotates the file. -/
def longAndShort (message : Text) : List Act :=
  [.logAudit newYear [] message, .logAudit newYear [] ['b']]

theorem file_of_first (message : Text) :
    step sampleKey shouldRollover ⟨none, [], []⟩ (.logAudit newYear [] message) =
      ⟨some (List.replicate 64 '0'),
        render (baseLine newYear [] message) (List.replicate 64 '0') ++ ['\n'], []⟩ := by
  rw [step, emit_eq, if_neg]
  · rfl
  · simp [shouldRollover]

theorem shouldRollover_of_long {message : Text} (h : maxBytes ≤ message.length) (line : Text) :
    shouldRollover (render (baseLine newYear [] message) (List.replicate 64 '0') ++ ['\n']) line =
      true := by
  have hsize := length_le_utf8
    (render (baseLine newYear [] message) (List.replicate 64 '0') ++ ['\n'])
  have hmessage := length_le_escape message
  have hline : message.length ≤
      (render (baseLine newYear [] message) (List.replicate 64 '0') ++ ['\n']).length := by
    rw [render, baseLine, auditMessage, if_pos rfl]
    simp only [List.length_append]
    omega
  rw [shouldRollover, decide_eq_true_iff]
  exact ⟨List.append_ne_nil_of_right_ne_nil _ (List.cons_ne_nil _ _), by omega⟩

theorem file_of_second {message : Text} (h : maxBytes ≤ message.length) :
    verifyAuditChain sampleKey
      ((longAndShort message).foldl (step sampleKey shouldRollover) ⟨none, [], []⟩).file =
        some 1 := by
  have hfile : ((longAndShort message).foldl (step sampleKey shouldRollover)
      ⟨none, [], []⟩).file =
      render (baseLine newYear [] ['b']) (sampleKey.tagOf (List.replicate 64 '0')
        (baseLine newYear [] ['b'])) ++ ['\n'] := by
    rw [longAndShort, List.foldl_cons, List.foldl_cons, List.foldl_nil, file_of_first, step,
      emit_eq, if_pos (shouldRollover_of_long h _)]
    rfl
  rw [hfile]
  refine first_line_not_verified (oneLine_baseLine _ _ _) ?_
  change List.replicate 64 _ ≠ List.replicate 64 _
  decide

/-- The record that rotates a file of ten megabytes is written into the new one with a tag that goes
on with the old chain, and the new file is not in order from its first line on. -/
theorem rotated_not_verified :
    Run (step sampleKey shouldRollover) (fun _ _ => True) ⟨none, [], []⟩
        (longAndShort (List.replicate maxBytes 'a'))
        ((longAndShort (List.replicate maxBytes 'a')).foldl (step sampleKey shouldRollover)
          ⟨none, [], []⟩) ∧
      verifyAuditChain sampleKey ((longAndShort (List.replicate maxBytes 'a')).foldl
        (step sampleKey shouldRollover) ⟨none, [], []⟩).file = some 1 :=
  ⟨Run.any _ _, file_of_second (le_of_eq List.length_replicate.symm)⟩

end SentinelNet.Audit
