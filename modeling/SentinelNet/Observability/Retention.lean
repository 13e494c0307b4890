import SentinelNet.Observability.Sources

/-!
# Projection and retention

Rows arrive in a table, `normalize_once` projects those with a number above its cursor, and
`prune_once` deletes old ones.  The number of a new row is one more than the greatest that is left,
so a table that was emptied starts again at 1, below the cursor, and the row is never read.

* `projected_once`: in every run whose steps are steady, each row is projected once or waits.
-/

namespace SentinelNet.Observability

open PyDict PyText

section Retention

variable {R : Type*} (src : Source R)

/-! ## Runs -/

/-- A table, the cursor of its adapter and the events.  `inserted` and `normalized` count, `due` are
the rows that were there at the normalization after their insert, if this was not the first, and
`log` says of each row that was projected whether its event was new. -/
structure Retained (R : Type*) where
  table : Table R
  cursor : ℕ
  events : List Event
  inserted : ℕ
  normalized : ℕ
  due : List ℕ
  log : List (ℕ × Bool)

/-- Nothing has happened yet. -/
def Retained.empty : Retained R := ⟨Table.empty, 0, [], 0, 0, [], []⟩

/-- A row arrives; some rows older than the limit, and some events older than theirs, are deleted;
`normalize_once` runs, together with the other adapters, which complete or not. -/
inductive Retention (R : Type*) where
  | insert (ts : ℤ) (data : R)
  | prune (cutoff eventsCutoff : ℤ) (part : Stored R → Bool) (eventsPart : Event → Bool)
  | normalize (now : ℤ) (others : Bool)

/-- What the query of the adapter returns. -/
def Retained.read (st : Retained R) (now : ℤ) : List (Stored R) :=
  (st.table.rows.filter fun r => st.cursor < r.id ∧ ∀ m ∈ src.minTs st.cursor now, m ≤ r.ts).take
    maxRowsPerSource

def rowEvents (now : ℤ) (rows : List (Stored R)) (r : Stored R) : List Event :=
  src.event now r :: src.further now rows r

/-- One turn of the loop of the adapter. -/
def projectRow (now : ℤ) (rows : List (Stored R)) (acc : List Event × List (ℕ × Bool))
    (r : Stored R) : List Event × List (ℕ × Bool) :=
  ((rowEvents src now rows r).foldl emit acc.1,
    acc.2 ++ [(r.serial, (atKey acc.1 (src.event now r).dedupKey).isNone)])

/-- The loop of the adapter. -/
def projectRows (now : ℤ) (rows read : List (Stored R)) (acc : List Event × List (ℕ × Bool)) :
    List Event × List (ℕ × Bool) :=
  read.foldl (projectRow src now rows) acc

def lastId (cursor : ℕ) (read : List (Stored R)) : ℕ := read.foldl (fun c r => max c r.id) cursor

/-- No row raises when its events are bound, and the other adapters complete. -/
def Completes (st : Retained R) (now : ℤ) (others : Bool) : Prop :=
  others = true ∧ ∀ r ∈ st.read src now, ∀ e ∈ rowEvents src now st.table.rows r, e.Bindable

/-- The rows that are there at the normalization after their insert, unless it is the first. -/
def Retained.fresh (st : Retained R) : List ℕ :=
  (st.table.rows.filter fun r => 1 ≤ r.born ∧ r.born = st.normalized).map Stored.serial

/-- `normalize_once` is one transaction: it saves everything or, on an exception, nothing. -/
def Retained.normalize (st : Retained R) (now : ℤ) (others : Bool)
    [Decidable (Completes src st now others)] : Retained R :=
  if Completes src st now others then
    { st with
      events := (projectRows src now st.table.rows (st.read src now) (st.events, st.log)).1
      log := (projectRows src now st.table.rows (st.read src now) (st.events, st.log)).2
      cursor := lastId st.cursor (st.read src now)
      normalized := st.normalized + 1
      due := st.due ++ st.fresh }
  else { st with normalized := st.normalized + 1, due := st.due ++ st.fresh }

instance (st : Retained R) (now : ℤ) (others : Bool) : Decidable (Completes src st now others) :=
  inferInstanceAs (Decidable (_ ∧ _))

/-- One action. -/
def retainStep (st : Retained R) : Retention R → Retained R
  | .insert ts data =>
    { st with
      table := st.table.insert ts data st.inserted st.normalized
      inserted := st.inserted + 1 }
  | .prune cutoff eventsCutoff part eventsPart =>
    { st with
      table := st.table.keep fun r => !(part r && r.ts < cutoff)
      events := st.events.filter fun e => !(eventsPart e && e.ts < eventsCutoff) }
  | .normalize now others => st.normalize src now others

/-- The actions one after the other, each from a state that meets a condition. -/
inductive RetentionRun (P : Retained R → Retention R → Prop) :
    Retained R → List (Retention R) → Retained R → Prop where
  | nil (st : Retained R) : RetentionRun P st [] st
  | cons {st st' : Retained R} {a : Retention R} {acts : List (Retention R)} :
      P st a → RetentionRun P (retainStep src st a) acts st' → RetentionRun P st (a :: acts) st'

/-- What a step meets: a row gets a number above the cursor; no row that has to be projected and
waits is deleted; and a normalization completes and passes over no waiting row that came after the
first one. -/
def Steady (st : Retained R) : Retention R → Prop
  | .insert _ _ => st.cursor < st.table.nextId
  | .prune cutoff _ part _ => ∀ r ∈ st.table.rows, r.serial ∈ st.due → st.cursor < r.id →
      (part r && decide (r.ts < cutoff)) = false
  | .normalize now others => Completes src st now others ∧
      ∀ r ∈ st.table.rows, 1 ≤ r.born → st.cursor < r.id →
        ∀ m ∈ src.minTs st.cursor now, m ≤ r.ts

/-- The row was projected once, into an event of its own. -/
def ProjectedOnce (st : Retained R) (n : ℕ) : Prop := st.log.filter (fun l => l.1 = n) = [(n, true)]

/-- The row is in the table, above the cursor, and was not projected. -/
def Waits (st : Retained R) (n : ℕ) : Prop :=
  st.log.filter (fun l => l.1 = n) = [] ∧
    ∃ r ∈ st.table.rows, r.serial = n ∧ 1 ≤ r.born ∧ st.cursor < r.id

/-! ## The loop over the rows -/

variable {src}

theorem lastId_cons (c : ℕ) (r : Stored R) (read : List (Stored R)) :
    lastId c (r :: read) = lastId (max c r.id) read := rfl

theorem le_lastId (c : ℕ) (read : List (Stored R)) : c ≤ lastId c read := by
  induction read generalizing c with
  | nil => exact le_rfl
  | cons r read ih => exact (le_max_left c _).trans (ih _)

variable {read : List (Stored R)} {r : Stored R}

theorem id_le_lastId (h : r ∈ read) (c : ℕ) : r.id ≤ lastId c read := by
  induction read generalizing c with
  | nil => cases h
  | cons r' read ih =>
    rw [lastId_cons]
    rcases List.mem_cons.mp h with rfl | h
    · exact (le_max_right c _).trans (le_lastId _ read)
    · exact ih h _

theorem lastId_eq (c : ℕ) (read : List (Stored R)) :
    lastId c read = c ∨ ∃ r ∈ read, r.id = lastId c read := by
  induction read generalizing c with
  | nil => exact Or.inl rfl
  | cons r read ih =>
    rw [lastId_cons]
    rcases ih (max c r.id) with h | ⟨r', hr', h⟩
    · rcases le_total c r.id with hle | hle
      · rw [max_eq_right hle] at h ⊢
        exact Or.inr ⟨r, List.mem_cons_self .., h.symm⟩
      · rw [max_eq_left hle] at h ⊢
        exact Or.inl h
    · exact Or.inr ⟨r', List.mem_cons_of_mem _ hr', h⟩

variable (src) in
/-- No event has the key of a row above a number. -/
def KeysUpTo (events : List Event) (c : ℕ) : Prop :=
  ∀ n : ℕ, src.name ++ ":" ++ str n ∈ events.map Event.dedupKey → n ≤ c

variable {events : List Event}

theorem KeysUpTo.mono {c c' : ℕ} (h : KeysUpTo src events c) (hc : c ≤ c') :
    KeysUpTo src events c' := fun n hn => (h n hn).trans hc

theorem key_inj {n m : ℕ} (h : src.name ++ ":" ++ str n = src.name ++ ":" ++ str m) : n = m := by
  have htext := congrArg String.toList h
  exact str_inj (String.toList_injective (by simpa using htext))

theorem keysUpTo_foldl_emit {es : List Event} {c : ℕ} (h : KeysUpTo src events c)
    (hes : ∀ e ∈ es, ∀ n : ℕ, e.dedupKey = src.name ++ ":" ++ str n → n ≤ c) :
    KeysUpTo src (es.foldl emit events) c := by
  induction es generalizing events with
  | nil => exact h
  | cons e es ih =>
    refine ih (fun n hn => ?_) (List.forall_mem_cons.mp hes).2
    rcases mem_keys_emit.mp hn with hn | hn
    · exact h n hn
    · exact hes e List.mem_cons_self n hn.symm

theorem keysUpTo_projectRow {log : List (ℕ × Bool)} {c : ℕ} {now : ℤ}
    {rows : List (Stored R)} (h : KeysUpTo src events c) :
    KeysUpTo src (projectRow src now rows (events, log) r).1 (max c r.id) := by
  refine keysUpTo_foldl_emit (h.mono (le_max_left _ _)) fun e he n hn => ?_
  rcases List.mem_cons.mp he with rfl | he
  · rw [src.event_key] at hn
    rw [key_inj hn]
    exact le_max_right _ _
  · exact absurd hn (src.further_key now rows r e he n)

theorem atKey_eq_none {k : String} (h : k ∉ events.map Event.dedupKey) : atKey events k = none := by
  rw [atKey, List.find?_eq_none]
  intro e he hk
  exact h (of_decide_eq_true hk ▸ List.mem_map_of_mem he)

theorem projectRows_spec {log : List (ℕ × Bool)} {c : ℕ} {now : ℤ}
    {rows : List (Stored R)} (h : KeysUpTo src events c) (hread : ∀ r ∈ read, c < r.id)
    (hsorted : read.Pairwise fun r r' => r.id < r'.id) :
    (projectRows src now rows read (events, log)).2 =
        log ++ read.map (fun r => (r.serial, true)) ∧
      KeysUpTo src (projectRows src now rows read (events, log)).1 (lastId c read) := by
  induction read generalizing events log c with
  | nil => exact ⟨(List.append_nil _).symm, h⟩
  | cons r read ih =>
    obtain ⟨hr, hsorted⟩ := List.pairwise_cons.mp hsorted
    have hc := hread r List.mem_cons_self
    have hmax : max c r.id = r.id := max_eq_right hc.le
    have hnew : (atKey events (src.event now r).dedupKey).isNone = true := by
      rw [atKey_eq_none]
      · rfl
      · rw [src.event_key]
        intro hmem
        have hle := h r.id hmem
        omega
    have hstep : KeysUpTo src (projectRow src now rows (events, log) r).1 r.id := by
      rw [← hmax]
      exact keysUpTo_projectRow h
    have hlog : (projectRow src now rows (events, log) r).2 = log ++ [(r.serial, true)] := by
      rw [projectRow, hnew]
    obtain ⟨hlog', hkeys'⟩ := @ih _ (projectRow src now rows (events, log) r).2 _ hstep hr hsorted
    rw [lastId_cons, hmax]
    refine ⟨?_, hkeys'⟩
    show (projectRows src now rows read (projectRow src now rows (events, log) r)).2 = _
    rw [show projectRow src now rows (events, log) r =
      ((projectRow src now rows (events, log) r).1, (projectRow src now rows (events, log) r).2)
      from rfl, hlog', hlog, List.map_cons, List.append_assoc, List.singleton_append]

/-! ## What is read -/

theorem mem_read {st : Retained R} {now : ℤ} (h : r ∈ st.read src now) :
    r ∈ st.table.rows ∧ st.cursor < r.id := by
  have hr := List.mem_filter.mp (List.mem_of_mem_take h)
  exact ⟨hr.1, (of_decide_eq_true hr.2).1⟩

theorem read_sorted (st : Retained R) (now : ℤ) :
    (st.read src now).Pairwise fun r r' => r.id < r'.id :=
  (st.table.ascending.filter _).sublist (List.take_sublist _ _)

theorem mem_read_or_lt {st : Retained R} {now : ℤ} (hr : r ∈ st.table.rows)
    (hid : st.cursor < r.id) (hts : ∀ m ∈ src.minTs st.cursor now, m ≤ r.ts) :
    r ∈ st.read src now ∨ lastId st.cursor (st.read src now) < r.id := by
  have hall : r ∈ st.table.rows.filter fun r =>
      st.cursor < r.id ∧ ∀ m ∈ src.minTs st.cursor now, m ≤ r.ts :=
    List.mem_filter.mpr ⟨hr, decide_eq_true ⟨hid, hts⟩⟩
  have hsorted := st.table.ascending.filter fun r =>
    st.cursor < r.id ∧ ∀ m ∈ src.minTs st.cursor now, m ≤ r.ts
  rw [← List.take_append_drop maxRowsPerSource (List.filter _ _), List.pairwise_append] at hsorted
  rw [← List.take_append_drop maxRowsPerSource (List.filter _ _), List.mem_append] at hall
  rcases hall with hall | hall
  · exact Or.inl hall
  · right
    rcases lastId_eq st.cursor (st.read src now) with heq | ⟨r', hr', heq⟩
    · omega
    · have hlt := hsorted.2.2 r' hr' r hall
      omega

theorem read_eq_nil {st : Retained R} {now : ℤ} (h : st.read src now = [])
    (hr : r ∈ st.table.rows) (hid : st.cursor < r.id) :
    ¬ ∀ m ∈ src.minTs st.cursor now, m ≤ r.ts := by
  intro hts
  have hall : r ∈ st.table.rows.filter fun r =>
      st.cursor < r.id ∧ ∀ m ∈ src.minTs st.cursor now, m ≤ r.ts :=
    List.mem_filter.mpr ⟨hr, decide_eq_true ⟨hid, hts⟩⟩
  rcases List.take_eq_nil_iff.mp h with hzero | hnil
  · exact absurd hzero (by decide)
  · rw [hnil] at hall
    cases hall

def entries (read : List (Stored R)) : List (ℕ × Bool) := read.map fun r => (r.serial, true)

theorem filter_entries (h : (read.map Stored.serial).Nodup) (hr : r ∈ read) :
    (entries read).filter (fun l => l.1 = r.serial) = [(r.serial, true)] := by
  induction read with
  | nil => cases hr
  | cons r' read ih =>
    obtain ⟨hr', h⟩ := List.nodup_cons.mp h
    rw [entries, List.map_cons, ← entries]
    rcases List.mem_cons.mp hr with rfl | hr
    · have hnone : (entries read).filter (fun l => l.1 = r.serial) = [] := by
        refine List.filter_eq_nil_iff.mpr fun l hl heq => hr' ?_
        obtain ⟨r'', hr'', rfl⟩ := List.mem_map.mp hl
        have hserial : r''.serial = r.serial := of_decide_eq_true heq
        exact hserial ▸ List.mem_map_of_mem hr''
      rw [List.filter_cons_of_pos (by simp), hnone]
    · have hne : ¬ r'.serial = r.serial := fun heq => hr' (heq ▸ List.mem_map_of_mem hr)
      rw [List.filter_cons_of_neg (by simpa using hne)]
      exact ih h hr

theorem filter_entries_eq_nil {n : ℕ} (h : ∀ r ∈ read, r.serial ≠ n) :
    (entries read).filter (fun l => l.1 = n) = [] := by
  refine List.filter_eq_nil_iff.mpr fun l hl heq => ?_
  obtain ⟨r, hr, rfl⟩ := List.mem_map.mp hl
  exact h r hr (of_decide_eq_true heq)

/-! ## What every run keeps -/

variable (src) in
/-- The numbers of the inserts are different and below their count, the events have keys up to the
cursor only, rows above the cursor were not projected, rows since the last normalization are above
the cursor, and a row that has to be projected was, once, or waits. -/
structure Settled (st : Retained R) : Prop where
  serial_lt : ∀ r ∈ st.table.rows, r.serial < st.inserted
  serial_inj : (st.table.rows.map Stored.serial).Nodup
  log_lt : ∀ l ∈ st.log, l.1 < st.inserted
  born_le : ∀ r ∈ st.table.rows, r.born ≤ st.normalized
  keys : KeysUpTo src st.events st.cursor
  unread : ∀ r ∈ st.table.rows, st.cursor < r.id → st.log.filter (fun l => l.1 = r.serial) = []
  new : ∀ r ∈ st.table.rows, r.born = st.normalized → st.cursor < r.id
  due : ∀ n ∈ st.due, ProjectedOnce st n ∨ Waits st n

theorem settled_empty : Settled src (Retained.empty : Retained R) where
  serial_lt _ h := nomatch h
  serial_inj := List.nodup_nil
  log_lt _ h := nomatch h
  born_le _ h := nomatch h
  keys _ h := nomatch h
  unread _ h := nomatch h
  new _ h := nomatch h
  due _ h := nomatch h

theorem Settled.insert {st : Retained R} (h : Settled src st) {ts : ℤ} {data : R}
    (hsteady : Steady src st (.insert ts data)) :
    Settled src (retainStep src st (.insert ts data)) := by
  have hnew : ∀ r ∈ st.table.rows ++ [⟨st.table.nextId, ts, data, st.inserted, st.normalized⟩],
      r ∈ st.table.rows ∨ r = ⟨st.table.nextId, ts, data, st.inserted, st.normalized⟩ := by
    intro r hr
    rcases List.mem_append.mp hr with hr | hr
    · exact Or.inl hr
    · exact Or.inr (List.mem_singleton.mp hr)
  refine ⟨fun r hr => ?_, ?_, fun l hl => ?_, fun r hr => ?_, h.keys, fun r hr hid => ?_,
    fun r hr hborn => ?_, fun n hn => ?_⟩
  · rcases hnew r hr with hr | rfl
    · exact Nat.lt_succ_of_lt (h.serial_lt r hr)
    · exact Nat.lt_succ_self _
  · show ((st.table.rows ++ [_]).map Stored.serial).Nodup
    rw [List.map_append, List.nodup_append]
    refine ⟨h.serial_inj, List.nodup_singleton _, fun a ha b hb => ?_⟩
    obtain ⟨r, hr, rfl⟩ := List.mem_map.mp ha
    have hlt := h.serial_lt r hr
    obtain rfl : b = st.inserted := by simpa using hb
    omega
  · exact Nat.lt_succ_of_lt (h.log_lt l hl)
  · rcases hnew r hr with hr | rfl
    · exact h.born_le r hr
    · exact le_rfl
  · rcases hnew r hr with hr | rfl
    · exact h.unread r hr hid
    · refine List.filter_eq_nil_iff.mpr fun l hl heq => ?_
      have hlt := h.log_lt l hl
      rw [of_decide_eq_true heq] at hlt
      exact absurd hlt (lt_irrefl _)
  · rcases hnew r hr with hr | rfl
    · exact h.new r hr hborn
    · exact hsteady
  · rcases h.due n hn with honce | ⟨hlog, r, hr, hserial, hborn, hid⟩
    · exact Or.inl honce
    · exact Or.inr ⟨hlog, r, List.mem_append_left _ hr, hserial, hborn, hid⟩

theorem Settled.prune {st : Retained R} (h : Settled src st) {cutoff eventsCutoff : ℤ}
    {part : Stored R → Bool} {eventsPart : Event → Bool}
    (hsteady : Steady src st (.prune cutoff eventsCutoff part eventsPart)) :
    Settled src (retainStep src st (.prune cutoff eventsCutoff part eventsPart)) := by
  have hmem {r : Stored R}
      (hr : r ∈ st.table.rows.filter fun r => !(part r && decide (r.ts < cutoff))) :
      r ∈ st.table.rows := (List.mem_filter.mp hr).1
  refine ⟨fun r hr => h.serial_lt r (hmem hr), ?_, h.log_lt, fun r hr => h.born_le r (hmem hr),
    fun n hn => ?_, fun r hr => h.unread r (hmem hr), fun r hr => h.new r (hmem hr), fun n hn => ?_⟩
  · exact h.serial_inj.sublist ((List.filter_sublist).map _)
  · obtain ⟨e, he, hkey⟩ := List.mem_map.mp hn
    exact h.keys n (hkey ▸ List.mem_map_of_mem (List.mem_filter.mp he).1)
  · rcases h.due n hn with honce | ⟨hlog, r, hr, hserial, hborn, hid⟩
    · exact Or.inl honce
    · have hstays := hsteady r hr (hserial ▸ hn) hid
      refine Or.inr ⟨hlog, r, List.mem_filter.mpr ⟨hr, ?_⟩, hserial, hborn, hid⟩
      rw [hstays]
      rfl

theorem Settled.due_or_fresh {st : Retained R} (h : Settled src st) {n : ℕ}
    (hn : n ∈ st.due ++ st.fresh) : ProjectedOnce st n ∨ Waits st n := by
  rcases List.mem_append.mp hn with hn | hn
  · exact h.due n hn
  · obtain ⟨r, hr, rfl⟩ := List.mem_map.mp hn
    obtain ⟨hr, hborn⟩ := List.mem_filter.mp hr
    obtain ⟨hpos, hlast⟩ := of_decide_eq_true hborn
    have hid := h.new r hr hlast
    exact Or.inr ⟨h.unread r hr hid, r, hr, rfl, hpos, hid⟩

section Normalize

variable {st : Retained R} {now : ℤ} {others : Bool}

theorem normalize_of_completes (h : Completes src st now others) :
    retainStep src st (.normalize now others) =
      { st with
        events := (projectRows src now st.table.rows (st.read src now) (st.events, st.log)).1
        log := (projectRows src now st.table.rows (st.read src now) (st.events, st.log)).2
        cursor := lastId st.cursor (st.read src now)
        normalized := st.normalized + 1
        due := st.due ++ st.fresh } := if_pos h

theorem Settled.log_projectRows (h : Settled src st) :
    (projectRows src now st.table.rows (st.read src now) (st.events, st.log)).2 =
        st.log ++ entries (st.read src now) ∧
      KeysUpTo src (projectRows src now st.table.rows (st.read src now) (st.events, st.log)).1
        (lastId st.cursor (st.read src now)) :=
  projectRows_spec h.keys (fun _ hr => (mem_read hr).2) (read_sorted st now)

theorem Settled.serial_read (h : Settled src st) : ((st.read src now).map Stored.serial).Nodup :=
  h.serial_inj.sublist (((List.take_sublist _ _).trans List.filter_sublist).map _)

theorem Settled.eq_of_serial (h : Settled src st) {r r' : Stored R} (hr : r ∈ st.table.rows)
    (hr' : r' ∈ st.table.rows) (hserial : r.serial = r'.serial) : r = r' :=
  List.inj_on_of_nodup_map h.serial_inj hr hr' hserial

theorem Settled.unread_after (h : Settled src st) {r : Stored R} (hr : r ∈ st.table.rows)
    (hid : lastId st.cursor (st.read src now) < r.id) :
    (st.log ++ entries (st.read src now)).filter (fun l => l.1 = r.serial) = [] := by
  have hcursor := le_lastId st.cursor (st.read src now)
  rw [List.filter_append, h.unread r hr (by omega), List.nil_append]
  refine filter_entries_eq_nil fun r' hr' heq => ?_
  obtain rfl := h.eq_of_serial (mem_read hr').1 hr heq
  have hle := id_le_lastId hr' st.cursor
  omega

theorem Settled.normalize (h : Settled src st) (hsteady : Steady src st (.normalize now others)) :
    Settled src (retainStep src st (.normalize now others)) := by
  obtain ⟨hlog, hkeys⟩ := @Settled.log_projectRows _ src st now h
  rw [normalize_of_completes hsteady.1, hlog]
  have hnext {r : Stored R} (hr : r ∈ st.table.rows) (hborn : r.born = st.normalized + 1) :
      False := by
    have hle := h.born_le r hr
    omega
  refine ⟨h.serial_lt, h.serial_inj, fun l hl => ?_, fun r hr => (h.born_le r hr).trans
    (Nat.le_succ _), hkeys, fun r hr hid => h.unread_after hr hid,
    fun r hr hborn => (hnext hr hborn).elim, fun n hn => ?_⟩
  · rcases List.mem_append.mp hl with hl | hl
    · exact h.log_lt l hl
    · obtain ⟨r, hr, rfl⟩ := List.mem_map.mp hl
      exact h.serial_lt r (mem_read hr).1
  · rcases h.due_or_fresh hn with honce | ⟨hnone, r, hr, rfl, hborn, hid⟩
    · left
      have hskip : ∀ r ∈ st.read src now, r.serial ≠ n := by
        rintro r hr rfl
        have hnone := h.unread r (mem_read hr).1 (mem_read hr).2
        rw [ProjectedOnce, hnone] at honce
        simp at honce
      show (st.log ++ entries (st.read src now)).filter (fun l => l.1 = n) = _
      rw [List.filter_append, filter_entries_eq_nil hskip, List.append_nil]
      exact honce
    · rcases mem_read_or_lt hr hid (hsteady.2 r hr hborn hid) with hread | hlt
      · left
        show (st.log ++ entries (st.read src now)).filter (fun l => l.1 = r.serial) = _
        rw [List.filter_append, hnone, filter_entries h.serial_read hread]
        rfl
      · exact Or.inr ⟨h.unread_after hr hlt, r, hr, rfl, hborn, hlt⟩

end Normalize

theorem Settled.step {st : Retained R} {a : Retention R} (h : Settled src st)
    (hsteady : Steady src st a) : Settled src (retainStep src st a) := by
  cases a with
  | insert ts data => exact h.insert hsteady
  | prune cutoff eventsCutoff part eventsPart => exact h.prune hsteady
  | normalize now others => exact h.normalize hsteady

theorem Settled.run {st st' : Retained R} {acts : List (Retention R)} (h : Settled src st)
    (hrun : RetentionRun src (Steady src) st acts st') : Settled src st' := by
  induction hrun with
  | nil => exact h
  | cons hsteady _ ih => exact ih (h.step hsteady)

/-! ## Once nothing arrives -/

/-- No row that came after the first normalization is above the cursor. -/
def Caught (st : Retained R) : Prop :=
  ∀ r ∈ st.table.rows, 1 ≤ r.born → r.id ≤ st.cursor

/-- The rows above the cursor. -/
def aheadRows (st : Retained R) : List (Stored R) :=
  st.table.rows.filter fun r => st.cursor < r.id

theorem normalize_progress {st : Retained R} {now : ℤ} {others : Bool}
    (hsteady : Steady src st (.normalize now others)) :
    Caught (retainStep src st (.normalize now others)) ∨
      (aheadRows (retainStep src st (.normalize now others))).length < (aheadRows st).length := by
  rw [normalize_of_completes hsteady.1]
  cases hread : st.read src now with
  | nil =>
    refine Or.inl fun r hr hborn => ?_
    by_contra hgt
    exact read_eq_nil hread hr (not_le.mp hgt) (hsteady.2 r hr hborn (not_le.mp hgt))
  | cons r read =>
    right
    have hr : r ∈ st.read src now := hread ▸ List.mem_cons_self ..
    have hle := @id_le_lastId _ (r :: read) _ List.mem_cons_self st.cursor
    have hcursor := le_lastId st.cursor (r :: read)
    have hsub := List.monotone_filter_right st.table.rows
      (p := fun r' => decide (lastId st.cursor (r :: read) < r'.id))
      (q := fun r' => decide (st.cursor < r'.id))
      (fun r' h => decide_eq_true (hcursor.trans_lt (of_decide_eq_true h)))
    refine lt_of_le_of_ne hsub.length_le fun hlen => ?_
    have hmem : r ∈ aheadRows st := List.mem_filter.mpr ⟨(mem_read hr).1, decide_eq_true (mem_read hr).2⟩
    rw [aheadRows, ← hsub.eq_of_length hlen] at hmem
    have hlt := of_decide_eq_true (List.mem_filter.mp hmem).2
    omega

theorem Caught.normalize {st : Retained R} {now : ℤ} {others : Bool} (h : Caught st)
    (hsteady : Steady src st (.normalize now others)) :
    Caught (retainStep src st (.normalize now others)) := by
  rw [normalize_of_completes hsteady.1]
  exact fun r hr hborn => (h r hr hborn).trans (le_lastId _ _)

/-- The normalizations of a stretch of time. -/
def normalizations (nows : List ℤ) : List (Retention R) := nows.map fun now => .normalize now true

theorem caught_of_normalizations {st st' : Retained R} {nows : List ℤ}
    (hrun : RetentionRun src (Steady src) st (normalizations nows) st') :
    (Caught st → Caught st') ∧
      (Caught st' ∨ (aheadRows st').length + nows.length ≤ (aheadRows st).length) := by
  induction nows generalizing st with
  | nil =>
    cases hrun
    exact ⟨id, Or.inr le_rfl⟩
  | cons now nows ih =>
    rcases hrun with _ | ⟨hsteady, hrun⟩
    obtain ⟨hkeep, hprogress⟩ := ih hrun
    refine ⟨fun h => hkeep (h.normalize hsteady), ?_⟩
    rcases normalize_progress hsteady with hcaught | hlt
    · exact Or.inl (hkeep hcaught)
    · refine hprogress.imp id fun hle => ?_
      have hnext : (aheadRows st').length + nows.length ≤
          (aheadRows (retainStep src st (.normalize now true))).length := hle
      rw [List.length_cons]
      omega

/-- In every run whose steps are steady, each row that was there at the normalization after its
insert, if this was not the first, was projected once, into an event of its own, or waits above the
cursor; and each was projected once the normalization has run alone more often than there are
rows. -/
theorem projected_once {acts : List (Retention R)} {nows : List ℤ} {st st' : Retained R}
    (hacts : RetentionRun src (Steady src) Retained.empty acts st)
    (hrun : RetentionRun src (Steady src) st (normalizations nows) st')
    (hlong : st.table.rows.length < nows.length) :
    (∀ n ∈ st.due, ProjectedOnce st n ∨ Waits st n) ∧ ∀ n ∈ st'.due, ProjectedOnce st' n := by
  have hsettled := settled_empty.run hacts
  refine ⟨hsettled.due, fun n hn => ?_⟩
  have hahead : (aheadRows st).length ≤ st.table.rows.length := List.length_filter_le _ _
  rcases (caught_of_normalizations hrun).2 with hcaught | hle
  · rcases (hsettled.run hrun).due n hn with honce | ⟨-, r, hr, -, hborn, hid⟩
    · exact honce
    · have hle := hcaught r hr hborn
      omega
  · omega

/-! ## Runs that are computed -/

instance (st : Retained R) : (a : Retention R) → Decidable (Steady src st a)
  | .insert _ _ => inferInstanceAs (Decidable (_ < _))
  | .prune _ _ _ _ => inferInstanceAs (Decidable (∀ r ∈ st.table.rows, _ → _ → _))
  | .normalize _ _ => inferInstanceAs (Decidable (_ ∧ ∀ r ∈ st.table.rows, _ → _ → _))

variable (src) in
/-- Whether all steps of the run from a state meet a condition. -/
def checkRun (P : Retained R → Retention R → Prop) [∀ st a, Decidable (P st a)] :
    Retained R → List (Retention R) → Bool
  | _, [] => true
  | st, a :: acts => decide (P st a) && checkRun P (retainStep src st a) acts

theorem run_of_checkRun {P : Retained R → Retention R → Prop} [∀ st a, Decidable (P st a)]
    {st : Retained R} {acts : List (Retention R)} (h : checkRun src P st acts) :
    RetentionRun src P st acts (acts.foldl (retainStep src) st) := by
  induction acts generalizing st with
  | nil => exact .nil st
  | cons a acts ih =>
    obtain ⟨ha, hacts⟩ := Bool.and_eq_true_iff.mp h
    exact .cons (of_decide_eq_true ha) (ih hacts)

end Retention

/-- A syslog row of a device. -/
def logRow (message : String) : LogRow where
  tenant := "acme"
  deviceIp := some "10.0.0.1"
  severity := some 4
  action := none
  message := some message
  exporterIp := some "10.0.0.1"

/-- A message without recognised fields. -/
def noFields : Option String → LogFields := fun _ => {}

/-- A row, the first normalization, another row. -/
def steadyActs : List (Retention LogRow) :=
  [.insert 60000 (logRow "link up"), .normalize 60010 true, .insert 60020 (logRow "link down")]

/-- The second row is projected once. -/
theorem projected_once_steady :
    let st := steadyActs.foldl (retainStep (syslogSource noFields)) Retained.empty
    let st' := (normalizations [60030, 60060, 60090]).foldl (retainStep (syslogSource noFields)) st
    (∀ n ∈ st.due, ProjectedOnce st n ∨ Waits st n) ∧ ∀ n ∈ st'.due, ProjectedOnce st' n :=
  projected_once
    (run_of_checkRun (P := Steady (syslogSource noFields)) (by decide))
    (run_of_checkRun (P := Steady (syslogSource noFields)) (by decide))
    (by decide)

/-- A row that is projected and then deleted, after a week without another one; and a row that then
arrives, with the same number. -/
def quietActs : List (Retention LogRow) :=
  [.insert 60000 (logRow "link up"), .normalize 60010 true,
    .prune 63600 0 (fun _ => true) (fun _ => true), .insert 670000 (logRow "link down")]

/-- The row is there at the following normalizations, and none projects it. -/
theorem reused_number_lost :
    ¬ ∀ (acts : List (Retention LogRow)) (nows : List ℤ) (st st' : Retained LogRow),
      RetentionRun (syslogSource noFields) (fun _ _ => True) Retained.empty acts st →
      RetentionRun (syslogSource noFields) (fun _ _ => True) st (normalizations nows) st' →
      st.table.rows.length < nows.length →
        (∀ n ∈ st.due, ProjectedOnce st n ∨ Waits st n) ∧ ∀ n ∈ st'.due, ProjectedOnce st' n := by
  intro hclaim
  have hall := (hclaim quietActs [670030, 670060] _ _
    (run_of_checkRun (by decide)) (run_of_checkRun (by decide))
    (by decide)).2
  have honce := hall 1 (by decide)
  exact absurd honce (by unfold ProjectedOnce; decide)

end SentinelNet.Observability
