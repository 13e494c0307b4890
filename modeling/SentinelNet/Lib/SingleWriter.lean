import Mathlib

/-!
# A database with one writer

A database that connections of one process write to, one at a time: a write fails while another
connection has written what it did not commit.

* `transact_idle`: such a connection succeeds where nobody else writes.
* `transact_of_locked`: it fails where somebody else does, if it has something to write.
-/

namespace SingleWriter

variable {C S : Type*} [DecidableEq C]

/-- What is committed, and what one connection wrote and did not commit. -/
structure Db (C S : Type*) where
  committed : S
  pending : Option (C × S)

/-- Nobody writes. -/
def Db.idle (s : S) : Db C S := ⟨s, none⟩

/-- Another connection wrote what it did not commit. -/
def Db.locked (db : Db C S) (c : C) : Bool := db.pending.any fun p => p.1 ≠ c

/-- What a connection reads: its own writes, or what is committed. -/
def Db.read (db : Db C S) (c : C) : S :=
  match db.pending with
  | some p => if p.1 = c then p.2 else db.committed
  | none => db.committed

/-- A write of a connection, unless another one holds the lock. -/
def Db.write (db : Db C S) (c : C) (f : S → S) : Option (Db C S) :=
  if db.locked c then none else some { db with pending := some (c, f (db.read c)) }

/-- A connection commits what it wrote. -/
def Db.commit (db : Db C S) (c : C) : Db C S :=
  if db.locked c then db else Db.idle (db.read c)

/-- A connection is closed: what it did not commit is lost. -/
def Db.close (db : Db C S) (c : C) : Db C S :=
  if db.locked c then db else Db.idle db.committed

/-- The writes of a connection, one after the other. -/
def Db.writeAll (db : Db C S) (c : C) (fs : List (S → S)) : Option (Db C S) :=
  fs.foldlM (fun db f => db.write c f) db

/-- A connection that is opened for some writes and commits them. -/
def Db.transact (db : Db C S) (c : C) (fs : List (S → S)) : Option (Db C S) :=
  (db.writeAll c fs).map fun db => db.commit c

/-! ## Where nobody else writes -/

variable {c : C} {s t : S}

@[simp]
theorem locked_idle : (Db.idle s : Db C S).locked c = false := rfl

@[simp]
theorem locked_own : (⟨s, some (c, t)⟩ : Db C S).locked c = false := by
  simp [Db.locked]

@[simp]
theorem read_idle : (Db.idle s : Db C S).read c = s := rfl

@[simp]
theorem read_own : (⟨s, some (c, t)⟩ : Db C S).read c = t := if_pos rfl

theorem write_idle (f : S → S) : (Db.idle s).write c f = some ⟨s, some (c, f s)⟩ := by
  simp [Db.write, Db.idle, Db.read, Db.locked]

theorem write_own (f : S → S) :
    (⟨s, some (c, t)⟩ : Db C S).write c f = some ⟨s, some (c, f t)⟩ := by
  simp [Db.write]

theorem commit_own : (⟨s, some (c, t)⟩ : Db C S).commit c = Db.idle t := by
  simp [Db.commit]

theorem close_own : (⟨s, some (c, t)⟩ : Db C S).close c = Db.idle s := by
  simp [Db.close]

theorem close_idle : (Db.idle s).close c = Db.idle s := by
  rw [Db.close, locked_idle]
  rfl

theorem commit_idle : (Db.idle s).commit c = Db.idle s := by
  simp [Db.commit]

theorem writeAll_own (fs : List (S → S)) (t : S) :
    (⟨s, some (c, t)⟩ : Db C S).writeAll c fs =
      some ⟨s, some (c, fs.foldl (fun t f => f t) t)⟩ := by
  induction fs generalizing t with
  | nil => rfl
  | cons f fs ih =>
    rw [Db.writeAll, List.foldlM_cons, write_own]
    exact ih (f t)

/-- A connection succeeds where nobody else writes. -/
theorem transact_idle (fs : List (S → S)) :
    (Db.idle s).transact c fs = some (Db.idle (fs.foldl (fun s f => f s) s)) := by
  cases fs with
  | nil => exact congrArg some commit_idle
  | cons f fs =>
    have hall : (Db.idle s).writeAll c (f :: fs) =
        some ⟨s, some (c, fs.foldl (fun t f => f t) (f s))⟩ := by
      rw [Db.writeAll, List.foldlM_cons, write_idle]
      exact writeAll_own fs (f s)
    rw [Db.transact, hall, Option.map_some, commit_own]
    rfl

/-! ## Where somebody else writes -/

variable {db : Db C S}

theorem transact_nil (h : db.locked c) : db.transact c [] = some db := by
  rw [Db.transact, Db.writeAll, List.foldlM_nil]
  exact congrArg some (if_pos h)

/-- A connection fails where somebody else writes. -/
theorem transact_of_locked (h : db.locked c) {fs : List (S → S)} (hne : fs ≠ []) :
    db.transact c fs = none := by
  cases fs with
  | nil => exact absurd rfl hne
  | cons f fs =>
    have hfail : db.write c f = none := if_pos h
    rw [Db.transact, Db.writeAll, List.foldlM_cons, hfail]
    rfl

end SingleWriter
