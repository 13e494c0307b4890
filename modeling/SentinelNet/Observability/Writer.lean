import SentinelNet.Observability.Flows

/-!
# The write queue

`core/db.py` writes through one thread, which takes what the queue holds in batches.  A batch is one
transaction; where a payload of it fails with `sqlite3.Error`, the batch is rolled back and done
again payload by payload, and only those that fail are dropped.  Any other exception leaves the loop
with the batch undone, and the supervisor starts the loop again a few times.

* `exact_runLoop_iff`: when the writer does exactly this, and counts it.
-/

namespace SentinelNet.Observability

/-- What executing a payload comes to. -/
inductive Outcome (σ : Type*) where
  | done (s : σ)
  | sqliteError
  | otherError

section Writer

variable {σ P : Type*} (execute : P → σ → Outcome σ)

/-! ## The writer -/

def maxWriterRestarts : ℕ := 5

/-- The database as committed, the number of payloads taken from the queue, and the metrics. -/
structure Writer (σ : Type*) where
  committed : σ
  taken : ℕ := 0
  writesOk : ℕ := 0
  writesDroppedError : ℕ := 0
  writerRestarts : ℕ := 0
  writerDead : Bool := false

/-- The payloads of a batch in one transaction, up to the first that fails. -/
def executeAll : List P → σ → Outcome σ
  | [], s => .done s
  | p :: batch, s =>
    match execute p s with
    | .done s' => executeAll batch s'
    | .sqliteError => .sqliteError
    | .otherError => .otherError

/-- The payloads of a batch one by one, each its own transaction; and whether an exception has left
the loop. -/
def replay : List P → Writer σ → Writer σ × Bool
  | [], w => (w, false)
  | p :: batch, w =>
    match execute p w.committed with
    | .done s => replay batch { w with committed := s, writesOk := w.writesOk + 1 }
    | .sqliteError => replay batch { w with writesDroppedError := w.writesDroppedError + 1 }
    | .otherError => (w, true)

/-- A batch in `_writer_loop`; and whether an exception has left the loop. -/
def writeBatch (batch : List P) (w : Writer σ) : Writer σ × Bool :=
  match executeAll execute batch w.committed with
  | .done s => ({ w with committed := s, writesOk := w.writesOk + batch.length }, false)
  | .sqliteError => replay execute batch w
  | .otherError => (w, true)

/-- `_writer_supervisor` over the batches that `_writer_loop` takes while it lives. -/
def runLoop : List (List P) → Writer σ → Writer σ
  | [], w => w
  | batch :: batches, w =>
    match writeBatch execute batch { w with taken := w.taken + batch.length } with
    | (w', false) => runLoop batches w'
    | (w', true) =>
      if maxWriterRestarts < w'.writerRestarts + 1 then
        { w' with writerRestarts := w'.writerRestarts + 1, writerDead := true }
      else runLoop batches { w' with writerRestarts := w'.writerRestarts + 1 }

/-! ## Each payload for itself -/

/-- A payload that fails leaves the database alone. -/
def applyOne (s : σ) (p : P) : σ :=
  match execute p s with
  | .done s' => s'
  | .sqliteError => s
  | .otherError => s

def applyGood (payloads : List P) (s : σ) : σ := payloads.foldl (applyOne execute) s

/-- No payload raises an exception other than `sqlite3.Error` in its turn. -/
def OnlySqlite : List P → σ → Prop
  | [], _ => True
  | p :: payloads, s =>
    (match execute p s with
      | .done _ => True
      | .sqliteError => True
      | .otherError => False) ∧ OnlySqlite payloads (applyOne execute s p)

/-- The writer has done what the payloads do for themselves, has counted each that it took, and
lives. -/
structure Exact (payloads : List P) (s : σ) (w : Writer σ) : Prop where
  applied : w.committed = applyGood execute payloads s
  counted : w.writesOk + w.writesDroppedError = w.taken
  lives : w.writerDead = false

/-- The payloads the metrics account for. -/
def Writer.counted (w : Writer σ) : ℕ := w.writesOk + w.writesDroppedError

variable {execute}

variable {s : σ}

theorem applyOne_of_done {p : P} {s' : σ} (h : execute p s = .done s') :
    applyOne execute s p = s' := by
  rw [applyOne, h]

theorem applyOne_of_sqliteError {p : P} (h : execute p s = .sqliteError) :
    applyOne execute s p = s := by
  rw [applyOne, h]

theorem applyGood_cons (p : P) (payloads : List P) (s : σ) :
    applyGood execute (p :: payloads) s = applyGood execute payloads (applyOne execute s p) := rfl

theorem onlySqlite_append {payloads payloads' : List P} :
    OnlySqlite execute (payloads ++ payloads') s ↔
      OnlySqlite execute payloads s ∧
        OnlySqlite execute payloads' (applyGood execute payloads s) := by
  induction payloads generalizing s with
  | nil => exact (and_iff_right trivial).symm
  | cons p payloads ih =>
    rw [List.cons_append, OnlySqlite, OnlySqlite, ih, applyGood_cons, and_assoc]

/-! ## One batch -/

theorem executeAll_eq_done {batch : List P} {s' : σ} (h : executeAll execute batch s = .done s') :
    applyGood execute batch s = s' ∧ OnlySqlite execute batch s := by
  induction batch generalizing s with
  | nil => exact ⟨Outcome.done.inj h, trivial⟩
  | cons p batch ih =>
    rw [executeAll] at h
    rw [applyGood_cons, OnlySqlite]
    rcases hp : execute p s with s₁ | _ | _
    · rw [hp] at h
      rw [applyOne_of_done hp]
      exact ⟨(ih h).1, trivial, (ih h).2⟩
    · rw [hp] at h
      simp at h
    · rw [hp] at h
      simp at h

theorem executeAll_eq_otherError {batch : List P}
    (h : executeAll execute batch s = .otherError) : ¬ OnlySqlite execute batch s := by
  induction batch generalizing s with
  | nil => exact absurd h (by simp [executeAll])
  | cons p batch ih =>
    rw [executeAll] at h
    rw [OnlySqlite]
    rcases hp : execute p s with s₁ | _ | _
    · rw [hp] at h
      rw [applyOne_of_done hp]
      exact fun hno => ih h hno.2
    · rw [hp] at h
      simp at h
    · exact fun hno => hno.1

section

variable (batch : List P) (w : Writer σ)

include batch w

/-- The payloads one by one do what they do for themselves and are counted, or an exception leaves
some uncounted. -/
theorem replay_spec :
    (OnlySqlite execute batch w.committed →
      (replay execute batch w).2 = false ∧
        (replay execute batch w).1.committed = applyGood execute batch w.committed ∧
        (replay execute batch w).1.counted = w.counted + batch.length) ∧
    (¬ OnlySqlite execute batch w.committed →
      (replay execute batch w).2 = true ∧
        (replay execute batch w).1.counted < w.counted + batch.length) := by
  induction batch generalizing w with
  | nil => exact ⟨fun _ => ⟨rfl, rfl, rfl⟩, fun h => absurd trivial h⟩
  | cons p batch ih =>
    rw [replay, OnlySqlite, applyGood_cons, List.length_cons]
    rcases hp : execute p w.committed with s | _ | _
    · rw [applyOne_of_done hp]
      have hnext := ih { w with committed := s, writesOk := w.writesOk + 1 }
      have hcount : ({ w with committed := s, writesOk := w.writesOk + 1 } : Writer σ).counted +
          batch.length = w.counted + (batch.length + 1) := by
        simp only [Writer.counted]
        omega
      rw [hcount] at hnext
      simpa only [true_and] using hnext
    · rw [applyOne_of_sqliteError hp]
      have hnext := ih { w with writesDroppedError := w.writesDroppedError + 1 }
      have hcount : ({ w with writesDroppedError := w.writesDroppedError + 1 } : Writer σ).counted +
          batch.length = w.counted + (batch.length + 1) := by
        simp only [Writer.counted]
        omega
      rw [hcount] at hnext
      simpa only [true_and] using hnext
    · refine ⟨fun h => absurd h.1 id, fun _ => ⟨rfl, ?_⟩⟩
      show w.counted < _
      omega

theorem writeBatch_spec :
    (OnlySqlite execute batch w.committed →
      (writeBatch execute batch w).2 = false ∧
        (writeBatch execute batch w).1.committed = applyGood execute batch w.committed ∧
        (writeBatch execute batch w).1.counted = w.counted + batch.length) ∧
    (¬ OnlySqlite execute batch w.committed →
      (writeBatch execute batch w).2 = true ∧
        (writeBatch execute batch w).1.counted < w.counted + batch.length) := by
  rw [writeBatch]
  rcases hall : executeAll execute batch w.committed with s | _ | _
  · obtain ⟨hgood, honly⟩ := executeAll_eq_done hall
    refine ⟨fun _ => ⟨rfl, hgood.symm, ?_⟩, fun hno => absurd honly hno⟩
    simp only [Writer.counted]
    omega
  · exact replay_spec batch w
  · have hno := executeAll_eq_otherError hall
    refine ⟨fun h => absurd h hno, fun _ => ⟨rfl, ?_⟩⟩
    have hne : batch ≠ [] := by
      rintro rfl
      exact hno trivial
    have hpos := List.length_pos_of_ne_nil hne
    show w.counted < _
    omega

theorem replay_frame :
    (replay execute batch w).1.taken = w.taken ∧
      (replay execute batch w).1.writerDead = w.writerDead := by
  induction batch generalizing w with
  | nil => exact ⟨rfl, rfl⟩
  | cons p batch ih =>
    rw [replay]
    rcases execute p w.committed with s | _ | _
    · exact ih _
    · exact ih _
    · exact ⟨rfl, rfl⟩

theorem writeBatch_frame :
    (writeBatch execute batch w).1.taken = w.taken ∧
      (writeBatch execute batch w).1.writerDead = w.writerDead := by
  rw [writeBatch]
  rcases executeAll execute batch w.committed with s | _ | _
  · exact ⟨rfl, rfl⟩
  · exact replay_frame batch w
  · exact ⟨rfl, rfl⟩

theorem counted_writeBatch_le :
    (writeBatch execute batch w).1.counted ≤ w.counted + batch.length := by
  obtain ⟨hyes, hno⟩ := @writeBatch_spec _ _ execute batch w
  by_cases honly : OnlySqlite execute batch w.committed
  · exact (hyes honly).2.2.le
  · exact (hno honly).2.le

end

/-! ## All batches -/

variable {batches : List (List P)}

theorem counted_lt_runLoop {w : Writer σ} (h : w.counted < w.taken) :
    (runLoop execute batches w).counted < (runLoop execute batches w).taken := by
  induction batches generalizing w with
  | nil => exact h
  | cons batch batches ih =>
    have hle := @counted_writeBatch_le _ _ execute batch
      { w with taken := w.taken + batch.length }
    have hframe := @writeBatch_frame _ _ execute batch
      { w with taken := w.taken + batch.length }
    rw [runLoop]
    rcases hb : writeBatch execute batch { w with taken := w.taken + batch.length } with ⟨w', crashed⟩
    rw [hb] at hle hframe
    have hlt : w'.counted < w'.taken := by
      rw [hframe.1]
      have hle' : w'.counted ≤ w.counted + batch.length := hle
      show w'.counted < w.taken + batch.length
      omega
    cases crashed with
    | false => exact ih hlt
    | true =>
      dsimp only
      split
      · exact hlt
      · exact ih hlt

theorem exact_of_onlySqlite {w : Writer σ}
    (hcounted : w.counted = w.taken) (hlives : w.writerDead = false)
    (h : OnlySqlite execute batches.flatten w.committed) :
    Exact execute batches.flatten w.committed (runLoop execute batches w) := by
  induction batches generalizing w with
  | nil => exact ⟨rfl, hcounted, hlives⟩
  | cons batch batches ih =>
    rw [List.flatten_cons, onlySqlite_append] at h
    obtain ⟨hok, hcommitted, hcount⟩ := (@writeBatch_spec _ _ execute batch
      { w with taken := w.taken + batch.length }).1 h.1
    have hframe := @writeBatch_frame _ _ execute batch
      { w with taken := w.taken + batch.length }
    rw [runLoop]
    rcases hb : writeBatch execute batch { w with taken := w.taken + batch.length } with ⟨w', crashed⟩
    rw [hb] at hok hcommitted hcount hframe
    obtain rfl : crashed = false := hok
    have hnext : w'.committed = applyGood execute batch w.committed := hcommitted
    have hbalance : w'.counted = w'.taken := by
      rw [hframe.1]
      have hcount' : w'.counted = w.counted + batch.length := hcount
      show w'.counted = w.taken + batch.length
      omega
    rw [← hnext] at h
    have hrest := ih hbalance (hframe.2.trans hlives) h.2
    refine ⟨?_, hrest.counted, hrest.lives⟩
    rw [hrest.applied, List.flatten_cons, applyGood, applyGood, List.foldl_append, hnext]
    rfl

theorem counted_lt_of_not_onlySqlite {w : Writer σ}
    (hcounted : w.counted = w.taken) (h : ¬ OnlySqlite execute batches.flatten w.committed) :
    (runLoop execute batches w).counted < (runLoop execute batches w).taken := by
  induction batches generalizing w with
  | nil => exact absurd trivial h
  | cons batch batches ih =>
    have hspec := @writeBatch_spec _ _ execute batch
      { w with taken := w.taken + batch.length }
    have hframe := @writeBatch_frame _ _ execute batch
      { w with taken := w.taken + batch.length }
    rw [runLoop]
    rcases hb : writeBatch execute batch { w with taken := w.taken + batch.length } with ⟨w', crashed⟩
    rw [hb] at hspec hframe
    have htaken : w'.taken = w.taken + batch.length := hframe.1
    by_cases honly : OnlySqlite execute batch w.committed
    · obtain ⟨hok, hcommitted, hcount⟩ := hspec.1 honly
      obtain rfl : crashed = false := hok
      have hnext : w'.committed = applyGood execute batch w.committed := hcommitted
      have hcount' : w'.counted = w.counted + batch.length := hcount
      refine ih (by omega) ?_
      rw [hnext]
      rw [List.flatten_cons, onlySqlite_append] at h
      exact fun hrest => h ⟨honly, hrest⟩
    · obtain ⟨hcrash, hlt⟩ := hspec.2 honly
      obtain rfl : crashed = true := hcrash
      have hlt' : w'.counted < w.counted + batch.length := hlt
      dsimp only
      split
      · show w'.counted < w'.taken
        omega
      · exact counted_lt_runLoop (show w'.counted < w'.taken by omega)

/-- For every sequence of payloads and every split of it into batches, the writer applies the good
payloads once each and in order, counts every payload it takes and lives, exactly when no payload
raises an exception other than `sqlite3.Error`. -/
theorem exact_runLoop_iff (batches : List (List P)) (s : σ) :
    Exact execute batches.flatten s (runLoop execute batches { committed := s }) ↔
      OnlySqlite execute batches.flatten s := by
  constructor
  · intro hexact
    by_contra hno
    have hlt := counted_lt_of_not_onlySqlite (w := { committed := s }) rfl hno
    exact absurd hexact.counted hlt.ne
  · intro h
    exact exact_of_onlySqlite (w := { committed := s }) rfl rfl h

end Writer

/-! ## Flows on the queue -/

/-- A payload of `enqueue_flow`. -/
def executeFlow (r : FlowRecord) (flows : List FlowRow) : Outcome (List FlowRow) :=
  match upsertFlow flows r with
  | .ok flows' => .done flows'
  | .error .overflow => .otherError

/-- A flow whose template declares a byte counter of nine octets. -/
def longCounterFlow : FlowRecord where
  tenant := "acme"
  srcIp := "10.0.0.7"
  dstIp := "10.0.0.9"
  protocol := some 6
  dstPort := some 443
  bytes := 2 ^ 64
  packets := 3
  exporterIp := "10.0.0.3"
  exportTs := none
  receiveTs := 60060
  source := some "ipfix"
  received := promptFlow.received

/-- The flow that shares a batch with it is lost, and neither is counted. -/
theorem longCounter_loses_batch :
    ¬ ∀ (batches : List (List FlowRecord)) (flows : List FlowRow),
      Exact executeFlow batches.flatten flows (runLoop executeFlow batches { committed := flows }) := by
  intro hclaim
  have hcounted := (hclaim [[promptFlow, longCounterFlow]] []).counted
  exact absurd hcounted (by decide)

end SentinelNet.Observability
