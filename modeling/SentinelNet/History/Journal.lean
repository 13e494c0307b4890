import SentinelNet.Audit.Lines
import SentinelNet.History.Diff
import SentinelNet.Lib.Runs

/-!
# The log of the devices and crashes

`device_history.jsonl` has a line for every event.  A crash may stop an append after any character.
Readers drop a line that they cannot read, but the next append goes on where the torn line ends, so
that its own first line is lost with it.

* `Journal`, `Journal.step`: the file, and what happens to it.
* `history_of_whole`: it holds in every run that appends to whole lines only.
-/

namespace SentinelNet.History

open Audit (Text readLines Complete OneLine readLines_append_of_complete)
open Inventory (Host)
open StepRuns

/-! ## The file -/

/-- `json.dumps` of an event, and `json.loads` of a line.  What was read is written on one line and
read again as it was. -/
structure Format where
  dumps : Event → Text
  loads : Text → Option Event
  oneLine : ∀ t e, loads t = some e → OneLine (dumps e)
  loads_dumps : ∀ t e, loads t = some e → loads (dumps e) = some e

def Format.Reads (fmt : Format) (e : Event) : Prop := fmt.loads (fmt.dumps e) = some e

section Machine

variable (fmt : Format)

def line (e : Event) : Text := fmt.dumps e ++ ['\n']

def text (es : List Event) : Text := es.flatMap (line fmt)

def parsed (file : Text) : List Event := (readLines file).filterMap fmt.loads

/-- The events whose lines are in the first characters of the lines of events. -/
def complete : List Event → ℕ → List Event
  | [], _ => []
  | e :: es, k =>
    if (line fmt e).length ≤ k then e :: complete es (k - (line fmt e).length) else []

/-- The events whose lines begin in the first characters. -/
def begunIn : List Event → ℕ → List Event
  | [], _ => []
  | e :: es, k => if k = 0 then [] else e :: begunIn es (k - (line fmt e).length)

/-- The file, and whether this process has merged the past into it.  What was begun and what was
completely written is kept to speak about it, and how many crashes there were. -/
structure Journal where
  file : Text
  backfilled : Bool
  begun : List Event
  written : List Event
  crashes : ℕ

/-- Before the first event. -/
def Journal.empty : Journal := ⟨[], false, [], [], 0⟩

/-- What happens to the log. -/
inductive Act where
  /-- `record`. -/
  | record (oldRows newRows : List Host) (relabel : Relabel) (stamp : Stamp)
  /-- `record`, and the process ends after some characters. -/
  | tear (oldRows newRows : List Host) (relabel : Relabel) (stamp : Stamp) (k : ℕ)
  /-- The process ends while nothing is written to the log. -/
  | crash
  /-- `_ensure_backfill`, with the events that `backfill_from_audit` finds. -/
  | backfill (past : List Event)

variable (decrypt : String → String)

/-- The events that are handed over. -/
def Act.events : Act → List Event
  | .record oldRows newRows relabel stamp => recordEvents decrypt oldRows newRows relabel stamp
  | .tear oldRows newRows relabel stamp _ => recordEvents decrypt oldRows newRows relabel stamp
  | .crash => []
  | .backfill past => past

def Act.appends : Act → Text
  | .record oldRows newRows relabel stamp =>
    text fmt (recordEvents decrypt oldRows newRows relabel stamp)
  | .tear oldRows newRows relabel stamp k =>
    (text fmt (recordEvents decrypt oldRows newRows relabel stamp)).take k
  | _ => []

def Journal.ensureBackfill (s : Journal) (past : List Event) : Journal :=
  if s.backfilled then s
  else
    let live := parsed fmt s.file
    if live.any (fun e => e.source.any (· ≠ "")) || past.isEmpty then { s with backfilled := true }
    else
      { s with
        file := text fmt ((past ++ live).insertionSort fun a b => a.ts ≤ b.ts)
        backfilled := true }

def Journal.step (s : Journal) (a : Act) : Journal :=
  match a with
  | .record _ _ _ _ =>
    { s with
      file := s.file ++ a.appends fmt decrypt
      begun := s.begun ++ a.events decrypt
      written := s.written ++ a.events decrypt }
  | .tear _ _ _ _ k =>
    { file := s.file ++ a.appends fmt decrypt
      backfilled := false
      begun := s.begun ++ begunIn fmt (a.events decrypt) k
      written := s.written ++ complete fmt (a.events decrypt) k
      crashes := s.crashes + 1 }
  | .crash => { s with backfilled := false, crashes := s.crashes + 1 }
  | .backfill past => s.ensureBackfill fmt past

def shown (tenants : Option (List String)) (ip : String) (e : Event) : Bool :=
  tenants.all (e.tenant ∈ ·) && (ip = "" || e.device.tracked.ip = ip)

/-- What `events` returns, the newest first. -/
def listed (file : Text) (tenants : Option (List String)) (ip : String) (limit : ℕ) :
    List Event :=
  ((parsed fmt file).reverse.filter (shown tenants ip)).take (max limit 1)

/-- Every event whose line was completely written is returned, and every crash costs one event at
most of those whose lines were begun. -/
structure Survives (s : Journal) : Prop where
  returned : ∀ e ∈ s.written, ∀ tenants ip limit, shown tenants ip e = true →
    (readLines s.file).length ≤ limit → e ∈ listed fmt s.file tenants ip limit
  lost : s.written.Sublist s.begun ∧ s.begun.length ≤ s.written.length + s.crashes

/-- Something is appended only where the file ends with a whole line; `json` reads the events as they
were written. -/
structure Whole (s : Journal) (a : Act) : Prop where
  whole : a.appends fmt decrypt ≠ [] → Complete s.file
  reads : ∀ e ∈ a.events decrypt, fmt.Reads e

end Machine

/-! ## Lines -/

section Lines

variable {fmt : Format}

variable {es : List Event}

theorem readLines_text (h : ∀ e ∈ es, fmt.Reads e) :
    readLines (text fmt es) = es.map fmt.dumps := by
  induction es with
  | nil => rfl
  | cons e es ih =>
    have hline : readLines (line fmt e) = [fmt.dumps e] :=
      Audit.readLines_append (Or.inl rfl) (fmt.oneLine _ e (h e List.mem_cons_self))
    have hcomplete : Complete (line fmt e) := Or.inr ⟨fmt.dumps e, rfl⟩
    rw [text, List.flatMap_cons, readLines_append_of_complete hcomplete, hline, ← text,
      ih fun e' he' => h e' (List.mem_cons_of_mem e he')]
    rfl

theorem filterMap_loads (h : ∀ e ∈ es, fmt.Reads e) :
    (es.map fmt.dumps).filterMap fmt.loads = es := by
  rw [List.filterMap_map]
  induction es with
  | nil => rfl
  | cons e es ih =>
    rw [List.filterMap_cons, Function.comp_apply, h e List.mem_cons_self,
      ih fun e' he' => h e' (List.mem_cons_of_mem e he')]

theorem parsed_text (h : ∀ e ∈ es, fmt.Reads e) : parsed fmt (text fmt es) = es := by
  rw [parsed, readLines_text h, filterMap_loads h]

theorem parsed_append {file : Text} (hfile : Complete file) (u : Text) :
    parsed fmt (file ++ u) = parsed fmt file ++ parsed fmt u := by
  rw [parsed, readLines_append_of_complete hfile, List.filterMap_append, parsed, parsed]

theorem complete_text (es : List Event) : Complete (text fmt es) := by
  rcases List.eq_nil_or_concat es with rfl | ⟨init, e, rfl⟩
  · exact Or.inl rfl
  · refine Or.inr ⟨text fmt init ++ fmt.dumps e, ?_⟩
    rw [text, List.concat_eq_append, List.flatMap_append, List.flatMap_singleton, line, ← text,
      List.append_assoc]

theorem take_text (es : List Event) (k : ℕ) :
    ∃ part, (text fmt es).take k = text fmt (complete fmt es k) ++ part := by
  induction es generalizing k with
  | nil => exact ⟨[], by rw [complete]; simp [text]⟩
  | cons e es ih =>
    rw [complete]
    split
    · next hk =>
      obtain ⟨part, hpart⟩ := ih (k - (line fmt e).length)
      refine ⟨part, ?_⟩
      rw [text, List.flatMap_cons, List.take_append, List.take_of_length_le hk, ← text, hpart, text,
        text, List.flatMap_cons, List.append_assoc]
    · exact ⟨_, rfl⟩

theorem complete_sublist (es : List Event) (k : ℕ) :
    (complete fmt es k).Sublist (begunIn fmt es k) := by
  induction es generalizing k with
  | nil => exact List.Sublist.slnil
  | cons e es ih =>
    rw [complete, begunIn]
    split
    · next hk =>
      have hpos : 0 < (line fmt e).length := by rw [line, List.length_append]; simp
      rw [if_neg (by omega)]
      exact (ih _).cons_cons e
    · exact List.nil_sublist _

theorem length_begunIn (es : List Event) (k : ℕ) :
    (begunIn fmt es k).length ≤ (complete fmt es k).length + 1 := by
  induction es generalizing k with
  | nil => exact Nat.zero_le _
  | cons e es ih =>
    rw [complete, begunIn]
    split
    · exact Nat.zero_le _
    · split
      · rw [List.length_cons, List.length_cons]
        exact Nat.succ_le_succ (ih _)
      · next hk =>
        have hzero : k - (line fmt e).length = 0 := by omega
        rw [hzero, List.length_cons]
        cases es with
        | nil => exact Nat.le_refl _
        | cons e' es => exact Nat.le_refl _

end Lines

/-! ## Steps -/

section Steps

variable {fmt : Format} {decrypt : String → String} {s : Journal}

/-- What was completely written is in the file. -/
structure Journal.Kept (fmt : Format) (s : Journal) : Prop where
  parsed : ∀ e ∈ s.written, e ∈ parsed fmt s.file
  sublist : s.written.Sublist s.begun
  length : s.begun.length ≤ s.written.length + s.crashes

theorem Journal.Kept.empty : Journal.empty.Kept fmt :=
  ⟨fun _ he => absurd he List.not_mem_nil, List.Sublist.slnil, Nat.le_refl _⟩

theorem reads_of_complete {es : List Event} {k : ℕ} (h : ∀ e ∈ es, fmt.Reads e) :
    ∀ e ∈ complete fmt es k, fmt.Reads e := by
  induction es generalizing k with
  | nil => exact h
  | cons e es ih =>
    rw [complete]
    split
    · intro e' he'
      rcases List.mem_cons.mp he' with rfl | he'
      · exact h e' List.mem_cons_self
      · exact ih (fun e'' he'' => h e'' (List.mem_cons_of_mem e he'')) e' he'
    · exact fun e' he' => nomatch he'

theorem Journal.Kept.parsed_append (hs : s.Kept fmt) {es : List Event} {part : Text}
    (hreads : ∀ e ∈ es, fmt.Reads e) (hwhole : text fmt es ++ part ≠ [] → Complete s.file) :
    ∀ e ∈ s.written ++ es, e ∈ History.parsed fmt (s.file ++ (text fmt es ++ part)) := by
  by_cases hnil : text fmt es ++ part = []
  · have hes : es = [] := by
      cases es with
      | nil => rfl
      | cons e es => exact absurd (List.append_eq_nil_iff.mp hnil).1 (by simp [text, line])
    rw [hnil, hes, List.append_nil, List.append_nil]
    exact hs.parsed
  · have hfile := hwhole hnil
    rw [History.parsed_append hfile, History.parsed_append (complete_text es), parsed_text hreads]
    intro e he
    rcases List.mem_append.mp he with he | he
    · exact List.mem_append_left _ (hs.parsed e he)
    · exact List.mem_append_right _ (List.mem_append_left _ he)

theorem Journal.Kept.ensureBackfill (hs : s.Kept fmt) {past : List Event}
    (hreads : ∀ e ∈ past, fmt.Reads e) : (s.ensureBackfill fmt past).Kept fmt := by
  rw [Journal.ensureBackfill]
  split
  · exact hs
  · dsimp only
    split
    · exact ⟨hs.parsed, hs.sublist, hs.length⟩
    · refine ⟨fun e he => ?_, hs.sublist, hs.length⟩
      have hall : ∀ e ∈ (past ++ History.parsed fmt s.file).insertionSort fun a b => a.ts ≤ b.ts,
          fmt.Reads e := by
        intro e he
        rcases List.mem_append.mp ((List.mem_insertionSort _).mp he) with he | he
        · exact hreads e he
        · obtain ⟨t, _, ht⟩ := List.mem_filterMap.mp he
          exact fmt.loads_dumps t e ht
      rw [parsed_text hall]
      exact (List.mem_insertionSort _).mpr (List.mem_append_right _ (hs.parsed e he))

theorem Journal.Kept.step (hs : s.Kept fmt) {a : Act} (ha : Whole fmt decrypt s a) :
    (s.step fmt decrypt a).Kept fmt := by
  cases a with
  | record oldRows newRows relabel stamp =>
    constructor
    · have hwhole : text fmt (recordEvents decrypt oldRows newRows relabel stamp) ++ [] ≠ [] →
          Complete s.file := by
        rw [List.append_nil]
        exact ha.whole
      have hparsed := hs.parsed_append ha.reads hwhole
      rwa [List.append_nil] at hparsed
    · exact hs.sublist.append (List.Sublist.refl _)
    · have hlength := hs.length
      simp only [Journal.step, List.length_append]
      omega
  | tear oldRows newRows relabel stamp k =>
    set es := recordEvents decrypt oldRows newRows relabel stamp with hes
    obtain ⟨part, hpart⟩ : ∃ part, (text fmt es).take k = text fmt (complete fmt es k) ++ part :=
      take_text es k
    have happends : Act.appends fmt decrypt (.tear oldRows newRows relabel stamp k) =
        text fmt (complete fmt es k) ++ part := hpart
    have hreads : ∀ e ∈ es, fmt.Reads e := ha.reads
    constructor
    · have hwhole : text fmt (complete fmt es k) ++ part ≠ [] → Complete s.file :=
        happends ▸ ha.whole
      have hparsed := hs.parsed_append (reads_of_complete hreads) hwhole
      rwa [← happends] at hparsed
    · exact hs.sublist.append (complete_sublist es k)
    · have hlength := hs.length
      have hone : (begunIn fmt es k).length ≤ (complete fmt es k).length + 1 :=
        length_begunIn es k
      simp only [Journal.step, Act.events, List.length_append, ← hes]
      omega
  | crash => exact ⟨hs.parsed, hs.sublist, Nat.le_succ_of_le hs.length⟩
  | backfill past => exact hs.ensureBackfill ha.reads

theorem Journal.Kept.survives (hs : s.Kept fmt) : Survives fmt s where
  returned e he tenants ip limit hshown hlimit := by
    have hlength : ((History.parsed fmt s.file).reverse.filter (shown tenants ip)).length ≤
        max limit 1 := by
      refine Nat.le_trans (List.length_filter_le ..) (Nat.le_trans ?_ (Nat.le_max_left ..))
      rw [List.length_reverse]
      exact Nat.le_trans (List.length_filterMap_le ..) hlimit
    rw [listed, List.take_of_length_le hlength]
    exact List.mem_filter.mpr ⟨List.mem_reverse.mpr (hs.parsed e he), hshown⟩
  lost := ⟨hs.sublist, hs.length⟩

/-- Inventory writes without a crash. -/
def records : List Host → List Write → List Act
  | _, [] => []
  | old, w :: ws => .record old w.rows w.relabel w.stamp :: records w.rows ws

theorem file_records (first : List Host) (ws : List Write) :
    ((records first ws).foldl (Journal.step fmt decrypt) s).file =
      s.file ++ text fmt (recordAll decrypt first ws) := by
  induction ws generalizing first s with
  | nil => rw [recordAll, text, List.flatMap_nil, List.append_nil]; rfl
  | cons w ws ih =>
    rw [records, List.foldl_cons, ih, recordAll, text, text, List.flatMap_append,
      ← List.append_assoc]
    rfl

theorem listed_records {first : List Host} {ws : List Write}
    (h : ∀ e ∈ recordAll decrypt first ws, fmt.Reads e) {limit : ℕ}
    (hlimit : (recordAll decrypt first ws).length ≤ limit) :
    listed fmt ((records first ws).foldl (Journal.step fmt decrypt) Journal.empty).file none ""
      limit = (recordAll decrypt first ws).reverse := by
  have hfile : parsed fmt ((records first ws).foldl (Journal.step fmt decrypt) Journal.empty).file =
      recordAll decrypt first ws := by
    rw [file_records, Journal.empty, List.nil_append, parsed_text h]
  have hshown : (recordAll decrypt first ws).reverse.filter (shown none "") =
      (recordAll decrypt first ws).reverse := List.filter_eq_self.mpr fun _ _ => rfl
  rw [listed, hfile, hshown, List.take_of_length_le]
  rw [List.length_reverse]
  exact Nat.le_trans hlimit (Nat.le_max_left ..)

/-- **In every run that appends to whole lines only** every event that was completely written is
returned, and a crash costs one event at most of those that were begun.  The events of any sequence
of inventory writes without a crash, as they are returned, lead from the devices of the first rows
to those of the last rows with their tracked columns, and also with the marks of their credentials
where these are steady. -/
theorem history_of_whole {acts : List Act}
    (hrun : Run (Journal.step fmt decrypt) (Whole fmt decrypt) Journal.empty acts s) :
    Survives fmt s ∧
      ∀ first ws, (∀ e ∈ recordAll decrypt first ws, fmt.Reads e) →
        ∀ limit, (recordAll decrypt first ws).length ≤ limit →
        let returned := listed fmt
          ((records first ws).foldl (Journal.step fmt decrypt) Journal.empty).file none "" limit
        Agrees Snapshot.tracked (replay (devices first) returned.reverse) (lastRows first ws) ∧
          (Along (Steady decrypt) first ws →
            replay (devices first) returned.reverse = devices (lastRows first ws)) := by
  have hkept : s.Kept fmt := hrun.invariant (fun _ _ hs ha => hs.step ha) Journal.Kept.empty
  refine ⟨hkept.survives, fun first ws hreads limit hlimit => ?_⟩
  dsimp only
  rw [listed_records hreads hlimit, List.reverse_reverse]
  exact ⟨tracked_recordAll decrypt first ws, snapshot_recordAll⟩

end Steps

/-! ## Two devices -/

def quoted (s : String) : Text := Char.ofNat 34 :: s.toList ++ [Char.ofNat 34]

def object (ps : List (String × Text)) : Text :=
  Char.ofNat 123 :: (List.intercalate [','] (ps.map fun p => quoted p.1 ++ ':' :: p.2)) ++
    [Char.ofNat 125]

/-- The marks of credentials with their names. -/
def Marks.columns (m : Marks) : List (String × String) :=
  [("Password", m.password), ("Enable Secret", m.enableSecret),
    ("SNMP Community", m.snmpCommunity)].map fun p => (p.1, if p.2 then "set" else "")

/-- The text of an event that is neither a change nor rebuilt, at a whole second. -/
def asJson (e : Event) : Text :=
  object [("event", quoted e.kind),
    ("device", object ((e.device.tracked.columns ++ e.device.marks.columns).map fun p =>
      (p.1, quoted p.2))),
    ("id", quoted e.id), ("ts", (toString e.ts.num).toList), ("actor", quoted e.actor),
    ("tenant", quoted e.tenant)]

/-- `json`, as far as some events go. -/
def formatOf (known : List Event)
    (h : ∀ e ∈ known, OneLine (asJson e) ∧ known.find? (asJson · = asJson e) = some e) : Format where
  dumps := asJson
  loads t := known.find? (asJson · = t)
  oneLine _ e he := (h e (List.mem_of_find?_eq_some he)).1
  loads_dumps _ e he := (h e (List.mem_of_find?_eq_some he)).2

def switch (ip : String) : Host :=
  ⟨ip, "cisco", "custom", "admin", "", "", "Roma", "", "central", "", "22", "", "", ""⟩

/-- The clock and the ids of a call. -/
def stampAt (id : String) (ts : ℚ) : Stamp := ⟨fun _ => id, ts, "admin"⟩

def twoAdded : List Event :=
  recordEvents id [] [switch "10.0.0.1"] .plain (stampAt "a" 0) ++
    recordEvents id [switch "10.0.0.1"] [switch "10.0.0.1", switch "10.0.0.2"] .plain (stampAt "b" 60)

theorem reads_twoAdded :
    ∀ e ∈ twoAdded, OneLine (asJson e) ∧ twoAdded.find? (asJson · = asJson e) = some e := by
  have hlines : ∀ e ∈ twoAdded, '\n' ∉ asJson e ∧ '\r' ∉ asJson e ∧
      twoAdded.find? (asJson · = asJson e) = some e := by decide +kernel
  exact fun e he => ⟨⟨(hlines e he).1, (hlines e he).2.1⟩, (hlines e he).2.2⟩

/-- `json` for them. -/
def twoFormat : Format := formatOf twoAdded reads_twoAdded

/-- A switch is added, the process ends, and another switch is added. -/
def quietCrash : List Act :=
  [.record [] [switch "10.0.0.1"] .plain (stampAt "a" 0), .crash,
    .record [switch "10.0.0.1"] [switch "10.0.0.1", switch "10.0.0.2"] .plain (stampAt "b" 60)]

theorem history_of_whole_quietCrash :
    Survives twoFormat (quietCrash.foldl (Journal.step twoFormat id) Journal.empty) := by
  refine (@history_of_whole twoFormat id _ quietCrash ?_).1
  rw [quietCrash]
  simp only [List.foldl_cons, List.foldl_nil]
  refine Run.cons ⟨fun _ => Or.inl rfl, fun e he => (reads_twoAdded e ?_).2⟩
    (Run.cons ⟨fun h => absurd rfl h, fun e he => nomatch he⟩
      (Run.cons ⟨fun _ => complete_text _, fun e he => (reads_twoAdded e ?_).2⟩
        (Run.nil _)))
  · exact List.mem_append_left _ he
  · exact List.mem_append_right _ he

/-- The process ends in the line of the first switch, and the second one is lost. -/
theorem second_switch_lost :
    ¬Survives twoFormat
      ([.tear [] [switch "10.0.0.1"] .plain (stampAt "a" 0) 5,
        .record [switch "10.0.0.1"] [switch "10.0.0.1", switch "10.0.0.2"] .plain
          (stampAt "b" 60)].foldl (Journal.step twoFormat id) Journal.empty) := by
  intro h
  obtain ⟨e, he⟩ := List.exists_mem_of_ne_nil
    (recordEvents id [switch "10.0.0.1"] [switch "10.0.0.1", switch "10.0.0.2"] .plain
      (stampAt "b" 60)) (by decide)
  have hmem := h.returned e (List.mem_append_right _ he) none "" 1 rfl (by decide +kernel)
  revert hmem
  have hnone : (listed twoFormat ([.tear [] [switch "10.0.0.1"] .plain (stampAt "a" 0) 5,
      .record [switch "10.0.0.1"] [switch "10.0.0.1", switch "10.0.0.2"] .plain
        (stampAt "b" 60)].foldl (Journal.step twoFormat id) Journal.empty).file none "" 1).isEmpty =
      true := by decide +kernel
  rw [List.isEmpty_iff.mp hnone]
  exact List.not_mem_nil

end SentinelNet.History
