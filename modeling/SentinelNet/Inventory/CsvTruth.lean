import SentinelNet.Inventory.CsvListed

/-!
# The preview of an import

`apply` classifies the file again and writes the rows that are new or updates, so that it and the
preview cannot disagree about a row.  They still fail what the preview promises: an address with a
leading zero passes `_valid_ip`, and `ip_address` raises for it in `_in`, or it is written where the
location has no subnets; the columns of the ports are read and not used; a row is put into `seen`
before it is refused for the subnets, and a later row with its address is then refused as well; and
writing a device again renders its transports again.

* `Outcome`, `classifyRow_outcome`: what becomes of a row.
* `truthful_iff`: a preview is kept exactly for the clean files.
* `leadingZero_not_truthful`: it is not kept for a file with an address with a leading zero.
-/

namespace SentinelNet.Inventory

open Observability PyText

/-! ## What a preview promises -/

section Promise

variable (w : World) (q : Request)

/-- The address of a row has no leading zero. -/
def strictIp (rec : Record) : Bool := (Ipv4.ofChars (rec.cell .ip).toList).isSome

def portOk (rec : Record) : Bool :=
  rec.cell .sshPort = "" || (int (rec.cell .sshPort)).any fun port =>
    decide (1 ≤ port) && decide (port ≤ 65535)

/-- The address does not lie in the subnets of another location. -/
def Siting.fits : Siting → Bool
  | .elsewhere _ => false
  | _ => true

/-- A row that may be written, on its own. -/
def valid (row : ℕ × Record) : Bool :=
  match destination w q row.1 row.2 with
  | .error _ => false
  | .ok (org, place) =>
    strictIp row.2 && portOk row.2 && decide ((org, row.2.cell .ip) ∉ w.stock.retired.pairs) &&
      match siting w q row.1 (row.2.cell .ip) org place with
      | .error _ => false
      | .ok s => s.fits

/-- What a preview promises of the rows of a file and of the inventory after the import. -/
structure Tells (parsed : List (ℕ × Record)) (p : Preview) (i : Imported) : Prop where
  answer : i.preview = p
  lines : p.rows.map (fun r => r.row) = parsed.map Prod.fst
  new : ∀ r ∈ p.rows, r.status = .new → findPair w.stock.active.rows r.pair = none ∧
    findPair i.active.rows r.pair = some (r.newHost w.codec)
  update : ∀ r ∈ p.rows, r.status = .update → ∃ d, findPair w.stock.active.rows r.pair = some d ∧
    findPair i.active.rows r.pair = some (r.updatedHost w.codec d)
  untouched : ∀ k, (∀ r ∈ p.rows, r.isWritten = true → r.pair ≠ k) →
    findPair i.active.rows k = findPair w.stock.active.rows k
  outside : ∀ k : Pair, q.allows k.1 = false →
    findPair i.active.rows k = findPair w.stock.active.rows k
  refused : ∀ x ∈ parsed.zip p.rows, valid w q x.1 = false → (q.decision x.1.1).skip = false →
    x.2.status = .error
  unaffected : classifyRows w q [] (parsed.filter (valid w q)) =
    .ok (((parsed.zip p.rows).filter fun x => valid w q x.1).map Prod.snd)

/-- The file has no columns that can be read, or the preview and the import go through, and what is
written is what the preview says. -/
def Truthful : Prop :=
  (∃ message, readInventoryCsv w.unicode q.csvText = .error (.value message)) ∨
    ∃ parsed p i, readInventoryCsv w.unicode q.csvText = .ok parsed ∧ classify w q = .ok p ∧
      apply w q = .ok i ∧ Tells w q parsed p i

/-! ## When it is kept -/

def key (row : ℕ × Record) : Option Pair :=
  match destination w q row.1 row.2 with
  | .error _ => none
  | .ok (org, _) => some (org, row.2.cell .ip)

/-- The first row with its key does no harm: its address can be placed; a row in the subnets of
another location comes before no valid row with its key; and a row that is written has an address
without leading zeros, a port, and a device that is settled. -/
def Harmless (row : ℕ × Record) (org : String) (place : Place) (later : List (ℕ × Record)) : Prop :=
  match siting w q row.1 (row.2.cell .ip) org place with
  | .error _ => False
  | .ok s =>
    if s.fits then
      (org, row.2.cell .ip) ∈ w.stock.retired.pairs ∨ strictIp row.2 = true ∧ portOk row.2 = true ∧
        ∀ d, findPair w.stock.active.rows (org, row.2.cell .ip) = some d → Settled w.codec row.2 d
    else
      ∀ row' ∈ later, key w q row' = some (org, row.2.cell .ip) → valid w q row' = false

/-- The rows that are the first ones with their keys, and have none of some keys, do no harm. -/
def CleanRows (seen : List Pair) (rows : List (ℕ × Record)) : Prop :=
  ∀ before row later, rows = before ++ row :: later → ∀ org place,
    destination w q row.1 row.2 = .ok (org, place) → (org, row.2.cell .ip) ∉ seen →
      (∀ row' ∈ before, key w q row' ≠ some (org, row.2.cell .ip)) →
        Harmless w q row org place later

/-- The file has no columns that can be read, or its fields are not too long and its rows do no
harm. -/
def Clean : Prop :=
  (∃ message, readInventoryCsv w.unicode q.csvText = .error (.value message)) ∨
    ∃ parsed, readInventoryCsv w.unicode q.csvText = .ok parsed ∧ CleanRows w q [] parsed

end Promise

/-! ## What becomes of a row -/

section Rows

variable {w : World} {q : Request} {line : ℕ} {rec : Record} {org : String} {place : Place}

theorem findLocation_some {value : String} (h : w.findLocation org value = some place) :
    place ∈ w.places ∧ place.org = org := by
  rw [World.findLocation] at h
  split at h
  · simp at h
  · split at h
    · next l hl =>
      obtain rfl := Option.some.inj h
      have hboth := List.find?_some hl
      exact ⟨List.mem_of_find?_eq_some hl, (of_decide_eq_true hboth).2⟩
    · have hboth := List.find?_some h
      exact ⟨List.mem_of_find?_eq_some h, (of_decide_eq_true hboth).1⟩

theorem destination_ok (h : destination w q line rec = .ok (org, place)) :
    (q.decision line).skip = false ∧ validIp (rec.cell .ip) = true ∧ q.allows org = true ∧
      place ∈ w.places ∧ place.org = org := by
  rw [destination] at h
  dsimp only at h
  split at h
  · simp at h
  next hskip =>
  split at h
  · simp at h
  next hip =>
  split at h
  · simp at h
  split at h
  · simp at h
  next org' _ =>
  split at h
  · simp at h
  next hallows =>
  split at h
  · simp at h
  next place' hplace =>
  split at h
  · simp at h
  obtain ⟨rfl, rfl⟩ := Prod.mk.inj (Except.ok.inj h)
  exact ⟨by simpa using hskip, by simpa [baseRow] using hip, by simpa using hallows,
    findLocation_some hplace⟩

theorem destination_error {r : ImportRow} (h : destination w q line rec = .error r) :
    r.row = line ∧ r.status = if (q.decision line).skip then .skipped else .error := by
  rw [destination] at h
  dsimp only at h
  split at h
  · next hskip =>
    rw [← Except.error.inj h, if_pos hskip]
    exact ⟨rfl, rfl⟩
  next hskip =>
  rw [if_neg hskip]
  -- Every other branch fails the row, or has a destination.
  repeat' split at h
  all_goals first
    | rw [← Except.error.inj h]
      exact ⟨rfl, rfl⟩
    | exact absurd h (by simp)

/-- A row is that of a new device, or of one that is there. -/
def Announces (w : World) (r : ImportRow) (rec : Record) (org : String) (place : Place) : Prop :=
  (findPair w.stock.active.rows (org, rec.cell .ip) = none ∧ r.Adds rec org place) ∨
    ∃ d, findPair w.stock.active.rows (org, rec.cell .ip) = some d ∧ r.Updates rec org place d

/-- A row that is written, as the preview has it. -/
structure Accepts (w : World) (q : Request) (r : ImportRow) (rec : Record) (org : String)
    (place : Place) : Prop where
  dest : ∃ line, destination w q line rec = .ok (org, place)
  active : (org, rec.cell .ip) ∉ w.stock.retired.pairs
  row : Announces w r rec org place

/-- What becomes of a row: its cells or the user refuse it, its key was there, it lies in the
subnets of another location, its device is decommissioned, or it is written. -/
inductive Outcome (w : World) (q : Request) (seen : List Pair) (row : ℕ × Record) :
    ImportRow → List Pair → Prop where
  | refused {r : ImportRow} (hdest : destination w q row.1 row.2 = .error r) :
      Outcome w q seen row r seen
  | twice {r : ImportRow} {org : String} {place : Place}
      (hdest : destination w q row.1 row.2 = .ok (org, place))
      (hseen : (org, row.2.cell .ip) ∈ seen) (hstatus : r.status = .error) :
      Outcome w q seen row r seen
  | elsewhere {r : ImportRow} {org : String} {place : Place} {s : Siting}
      (hdest : destination w q row.1 row.2 = .ok (org, place))
      (hseen : (org, row.2.cell .ip) ∉ seen)
      (hsiting : siting w q row.1 (row.2.cell .ip) org place = .ok s) (hfits : s.fits = false)
      (hstatus : r.status = .error) : Outcome w q seen row r ((org, row.2.cell .ip) :: seen)
  | retired {r : ImportRow} {org : String} {place : Place} {s : Siting}
      (hdest : destination w q row.1 row.2 = .ok (org, place))
      (hseen : (org, row.2.cell .ip) ∉ seen)
      (hsiting : siting w q row.1 (row.2.cell .ip) org place = .ok s) (hfits : s.fits = true)
      (hretired : (org, row.2.cell .ip) ∈ w.stock.retired.pairs) (hstatus : r.status = .error) :
      Outcome w q seen row r ((org, row.2.cell .ip) :: seen)
  | written {r : ImportRow} {org : String} {place : Place} {s : Siting}
      (hdest : destination w q row.1 row.2 = .ok (org, place))
      (hseen : (org, row.2.cell .ip) ∉ seen)
      (hsiting : siting w q row.1 (row.2.cell .ip) org place = .ok s) (hfits : s.fits = true)
      (haccepts : Accepts w q r row.2 org place) :
      Outcome w q seen row r ((org, row.2.cell .ip) :: seen)

theorem classifyRow_of_dest {seen : List Pair} (h : destination w q line rec = .ok (org, place)) :
    classifyRow w q seen line rec =
      if (org, rec.cell .ip) ∈ seen then
        .ok ((placedRow line rec org place).fail
          "IP già presente in una riga precedente del file" (some .skip), seen)
      else
        (siting w q line (rec.cell .ip) org place).map fun s =>
          (settled w (placedRow line rec org place) rec org place s,
            (org, rec.cell .ip) :: seen) := by
  rw [classifyRow, h]
  rfl

theorem adds_placedRow : (placedRow line rec org place).Adds rec org place := by
  constructor
  · constructor <;> dsimp only [placedRow, baseRow]
  all_goals dsimp only [placedRow, baseRow]

theorem announces_accepted {r : ImportRow} (h : r.Adds rec org place) :
    Announces w (accepted w r rec org place) rec org place := by
  rw [accepted, h.ip]
  cases hfound : findPair w.stock.active.rows (org, rec.cell .ip) with
  | none => exact Or.inl ⟨hfound, h⟩
  | some d =>
    dsimp only
    refine Or.inr ⟨d, hfound, ⟨h.record, rfl, h.hostname, h.org, h.location⟩, ?_, rfl, rfl, rfl⟩
    dsimp only
    by_cases hempty : rec.cell .vendor = ""
    · rw [if_pos hempty, if_pos hempty]
    · rw [if_neg hempty, if_neg hempty, h.vendor, orElse_of_ne hempty]

theorem settled_cases {r : ImportRow} (hdest : destination w q line rec = .ok (org, place))
    (h : r.Adds rec org place) (s : Siting) :
    (s.fits = false ∧ (settled w r rec org place s).status = .error) ∨
    (s.fits = true ∧ (org, rec.cell .ip) ∈ w.stock.retired.pairs ∧
      (settled w r rec org place s).status = .error) ∨
    (s.fits = true ∧ Accepts w q (settled w r rec org place s) rec org place) := by
  have hretire : ∀ r' : ImportRow, r'.Adds rec org place →
      ((org, rec.cell .ip) ∈ w.stock.retired.pairs ∧
        (settled.retire w rec org place r').status = .error) ∨
      Accepts w q (settled.retire w rec org place r') rec org place := by
    intro r' h'
    rw [settled.retire, h'.ip]
    by_cases hin : (org, rec.cell .ip) ∈ w.stock.retired.pairs
    · rw [if_pos hin]
      exact Or.inl ⟨hin, rfl⟩
    · rw [if_neg hin]
      exact Or.inr ⟨⟨line, hdest⟩, hin, announces_accepted h'⟩
  cases s with
  | inside =>
    rw [settled]
    exact Or.inr ((hretire r h).imp (fun h => ⟨rfl, h⟩) fun h => ⟨rfl, h⟩)
  | outside =>
    rw [settled]
    refine Or.inr ((hretire _ ?_).imp (fun h => ⟨rfl, h⟩) fun h => ⟨rfl, h⟩)
    exact ⟨⟨h.record, h.ip, h.hostname, h.org, h.location⟩, h.vendor, h.probe, h.profile, h.status⟩
  | elsewhere other =>
    rw [settled]
    exact Or.inl ⟨rfl, rfl⟩

theorem classifyRow_outcome {seen seen' : List Pair} {r : ImportRow}
    (h : classifyRow w q seen line rec = .ok (r, seen')) :
    Outcome w q seen (line, rec) r seen' := by
  cases hdest : destination w q line rec with
  | error e =>
    rw [classifyRow, hdest] at h
    obtain ⟨rfl, rfl⟩ := Prod.mk.inj (Except.ok.inj h)
    exact .refused hdest
  | ok dest =>
    obtain ⟨org, place⟩ := dest
    rw [classifyRow_of_dest hdest] at h
    by_cases hseen : (org, rec.cell .ip) ∈ seen
    · rw [if_pos hseen] at h
      obtain ⟨rfl, rfl⟩ := Prod.mk.inj (Except.ok.inj h)
      exact .twice hdest hseen rfl
    · rw [if_neg hseen] at h
      cases hsiting : siting w q line (rec.cell .ip) org place with
      | error e =>
        rw [hsiting] at h
        exact absurd h (by simp [Except.map])
      | ok s =>
        rw [hsiting] at h
        obtain ⟨rfl, rfl⟩ := Prod.mk.inj (Except.ok.inj h)
        rcases settled_cases hdest adds_placedRow s with ⟨hfits, hstatus⟩ | ⟨hfits, hretired, hstatus⟩ |
          ⟨hfits, haccepts⟩
        · exact .elsewhere hdest hseen hsiting hfits hstatus
        · exact .retired hdest hseen hsiting hfits hretired hstatus
        · exact .written hdest hseen hsiting hfits haccepts

theorem exists_classifyRow {seen : List Pair}
    (h : ∀ org place, destination w q line rec = .ok (org, place) → (org, rec.cell .ip) ∉ seen →
      ∃ s, siting w q line (rec.cell .ip) org place = .ok s) :
    ∃ r seen', classifyRow w q seen line rec = .ok (r, seen') := by
  cases hdest : destination w q line rec with
  | error e =>
    rw [classifyRow, hdest]
    exact ⟨e, seen, rfl⟩
  | ok dest =>
    obtain ⟨org, place⟩ := dest
    rw [classifyRow_of_dest hdest]
    by_cases hseen : (org, rec.cell .ip) ∈ seen
    · rw [if_pos hseen]
      exact ⟨_, _, rfl⟩
    · obtain ⟨s, hs⟩ := h org place hdest hseen
      rw [if_neg hseen, hs]
      exact ⟨_, _, rfl⟩

variable {other : List Pair}

theorem classifyRow_congr {seen seen' : List Pair} {r : ImportRow}
    (hsame : ∀ k, key w q (line, rec) = some k → (k ∈ seen ↔ k ∈ other))
    (h : classifyRow w q seen line rec = .ok (r, seen')) :
    ∃ other', classifyRow w q other line rec = .ok (r, other') := by
  cases hdest : destination w q line rec with
  | error e =>
    rw [classifyRow, hdest] at h ⊢
    obtain ⟨rfl, -⟩ := Prod.mk.inj (Except.ok.inj h)
    exact ⟨other, rfl⟩
  | ok dest =>
    obtain ⟨org, place⟩ := dest
    have hkey : key w q (line, rec) = some (org, rec.cell .ip) := by
      rw [key, hdest]
    rw [classifyRow_of_dest hdest] at h ⊢
    by_cases hseen : (org, rec.cell .ip) ∈ seen
    · rw [if_pos hseen] at h
      rw [if_pos ((hsame _ hkey).mp hseen)]
      obtain ⟨rfl, -⟩ := Prod.mk.inj (Except.ok.inj h)
      exact ⟨other, rfl⟩
    · rw [if_neg hseen] at h
      rw [if_neg fun hin => hseen ((hsame _ hkey).mpr hin)]
      cases hsiting : siting w q line (rec.cell .ip) org place with
      | error e =>
        rw [hsiting] at h
        exact absurd h (by simp [Except.map])
      | ok s =>
        rw [hsiting] at h
        obtain ⟨rfl, -⟩ := Prod.mk.inj (Except.ok.inj h)
        exact ⟨_, rfl⟩

/-! ## Outcomes -/

variable {row : ℕ × Record} {seen seen' : List Pair} {r : ImportRow}

theorem Outcome.mem_seen (h : Outcome w q seen row r seen') (k : Pair) :
    k ∈ seen' ↔ k ∈ seen ∨ key w q row = some k := by
  cases h with
  | refused hdest => simp [key, hdest]
  | twice hdest hseen hstatus =>
    rw [key, hdest]
    constructor
    · exact Or.inl
    · rintro (hin | heq)
      · exact hin
      · rw [← Option.some.inj heq]
        exact hseen
  | elsewhere hdest _ _ _ _ => simp [key, hdest, or_comm, eq_comm]
  | retired hdest _ _ _ _ _ => simp [key, hdest, or_comm, eq_comm]
  | written hdest _ _ _ _ => simp [key, hdest, or_comm, eq_comm]

theorem Outcome.written_of (h : Outcome w q seen row r seen') (hwritten : r.isWritten) :
    ∃ org place, Accepts w q r row.2 org place ∧ (org, row.2.cell .ip) ∉ seen ∧
      key w q row = some (org, row.2.cell .ip) := by
  have herror : r.status = .error → False := by
    intro hstatus
    simp [ImportRow.isWritten, hstatus] at hwritten
  cases h with
  | refused hdest =>
    have hstatus := (destination_error hdest).2
    split at hstatus
    · simp [ImportRow.isWritten, hstatus] at hwritten
    · exact (herror hstatus).elim
  | twice hdest hseen hstatus => exact (herror hstatus).elim
  | elsewhere hdest hseen hsiting hfits hstatus => exact (herror hstatus).elim
  | retired hdest hseen hsiting hfits hretired hstatus => exact (herror hstatus).elim
  | written hdest hseen hsiting hfits haccepts =>
    exact ⟨_, _, haccepts, hseen, by rw [key, hdest]⟩

theorem Announces.isWritten {r : ImportRow} {rec : Record} {org : String} {place : Place}
    (h : Announces w r rec org place) : r.isWritten = true ∧ r.status ≠ .error := by
  rcases h with ⟨-, h⟩ | ⟨d, -, h⟩
  · simp [ImportRow.isWritten, h.status]
  · simp [ImportRow.isWritten, h.status]

theorem Announces.places {r : ImportRow} {rec : Record} {org : String} {place : Place}
    (h : Announces w r rec org place) : r.Places rec org place := by
  rcases h with ⟨-, h⟩ | ⟨d, -, h⟩
  · exact h.toPlaces
  · exact h.toPlaces

theorem valid_of {s : Siting} (hdest : destination w q row.1 row.2 = .ok (org, place))
    (hsiting : siting w q row.1 (row.2.cell .ip) org place = .ok s) :
    valid w q row = (strictIp row.2 && portOk row.2 &&
      decide ((org, row.2.cell .ip) ∉ w.stock.retired.pairs) && s.fits) := by
  rw [valid, hdest]
  dsimp only
  rw [hsiting]

theorem Outcome.of_valid (h : Outcome w q seen row r seen') (hvalid : valid w q row)
    (hfree : ∀ k, key w q row = some k → k ∉ seen) :
    ∃ org place s, destination w q row.1 row.2 = .ok (org, place) ∧
      siting w q row.1 (row.2.cell .ip) org place = .ok s ∧ s.fits = true ∧
      Accepts w q r row.2 org place := by
  cases h with
  | refused hdest =>
    rw [valid, hdest] at hvalid
    simp at hvalid
  | twice hdest hseen hstatus =>
    refine absurd hseen (hfree _ ?_)
    rw [key, hdest]
  | elsewhere hdest hseen hsiting hfits hstatus =>
    rw [valid_of hdest hsiting, hfits, Bool.and_false] at hvalid
    simp at hvalid
  | retired hdest hseen hsiting hfits hretired hstatus =>
    rw [valid_of hdest hsiting, decide_eq_false (not_not.mpr hretired)] at hvalid
    simp at hvalid
  | written hdest hseen hsiting hfits haccepts => exact ⟨_, _, _, hdest, hsiting, hfits, haccepts⟩

/-! ## The rows of a file -/

variable {out : List ImportRow}

theorem classifyRows_cons {rows : List (ℕ × Record)}
    (h : classifyRows w q seen (row :: rows) = .ok out) :
    ∃ r seen' out', classifyRow w q seen row.1 row.2 = .ok (r, seen') ∧
      classifyRows w q seen' rows = .ok out' ∧ out = r :: out' := by
  obtain ⟨line, rec⟩ := row
  rw [classifyRows] at h
  split at h
  · simp at h
  · next r seen' hrow =>
    cases hrest : classifyRows w q seen' rows with
    | error e =>
      rw [hrest] at h
      exact absurd h (by simp [Except.map])
    | ok out' =>
      rw [hrest] at h
      exact ⟨r, seen', out', hrow, hrest, (Except.ok.inj h).symm⟩

theorem classifyRows_of {rows : List (ℕ × Record)}
    (hrow : classifyRow w q seen row.1 row.2 = .ok (r, seen'))
    (hrest : classifyRows w q seen' rows = .ok out) :
    classifyRows w q seen (row :: rows) = .ok (r :: out) := by
  obtain ⟨line, rec⟩ := row
  rw [classifyRows, hrow]
  dsimp only
  rw [hrest]
  rfl

theorem row_settled (r : ImportRow) (s : Siting) : (settled w r rec org place s).row = r.row := by
  have hretire : ∀ r', (settled.retire w rec org place r').row = r'.row := by
    intro r'
    rw [settled.retire]
    split
    · rfl
    · rw [accepted]
      split
      · rfl
      · rfl
  cases s with
  | inside => rw [settled, hretire]
  | outside => rw [settled, hretire]
  | elsewhere other => rw [settled]; rfl

theorem row_of_classifyRow (h : classifyRow w q seen row.1 row.2 = .ok (r, seen')) :
    r.row = row.1 := by
  cases hdest : destination w q row.1 row.2 with
  | error e =>
    rw [classifyRow, hdest] at h
    obtain ⟨rfl, -⟩ := Prod.mk.inj (Except.ok.inj h)
    exact (destination_error hdest).1
  | ok dest =>
    obtain ⟨org, place⟩ := dest
    rw [classifyRow_of_dest hdest] at h
    split at h
    · rw [← (Prod.mk.inj (Except.ok.inj h)).1]
      rfl
    · cases hsiting : siting w q row.1 (row.2.cell .ip) org place with
      | error e =>
        rw [hsiting] at h
        exact absurd h (by simp [Except.map])
      | ok s =>
        rw [hsiting] at h
        rw [← (Prod.mk.inj (Except.ok.inj h)).1]
        exact row_settled _ s

theorem rows_of_classifyRows {rows : List (ℕ × Record)} (h : classifyRows w q seen rows = .ok out) :
    out.map (fun r => r.row) = rows.map Prod.fst := by
  induction rows generalizing seen out with
  | nil =>
    rw [← Except.ok.inj h]
    rfl
  | cons row rows ih =>
    obtain ⟨r, seen', out', hrow, hrest, rfl⟩ := classifyRows_cons h
    rw [List.map_cons, List.map_cons, row_of_classifyRow hrow, ih hrest]

theorem written_keys {rows : List (ℕ × Record)} (h : classifyRows w q seen rows = .ok out) :
    (∀ r ∈ out, r.isWritten = true →
      r.pair ∉ seen ∧ ∃ rec org place, Accepts w q r rec org place) ∧
    ((out.filter ImportRow.isWritten).map ImportRow.pair).Nodup := by
  induction rows generalizing seen out with
  | nil =>
    obtain rfl := Except.ok.inj h
    exact ⟨fun r hr => absurd hr List.not_mem_nil, List.nodup_nil⟩
  | cons row rows ih =>
    obtain ⟨r, seen', out', hrow, hrest, rfl⟩ := classifyRows_cons h
    have hout := classifyRow_outcome hrow
    obtain ⟨hlater, hnodup⟩ := ih hrest
    refine ⟨fun r' hr' hwritten => ?_, ?_⟩
    · rcases List.mem_cons.mp hr' with rfl | hr'
      · obtain ⟨org, place, haccepts, hfree, -⟩ := hout.written_of hwritten
        refine ⟨?_, row.2, org, place, haccepts⟩
        rw [haccepts.row.places.pair]
        exact hfree
      · obtain ⟨hfree, haccepts⟩ := hlater r' hr' hwritten
        exact ⟨fun hin => hfree ((hout.mem_seen _).mpr (Or.inl hin)), haccepts⟩
    · by_cases hwritten : r.isWritten = true
      · rw [List.filter_cons_of_pos hwritten, List.map_cons, List.nodup_cons]
        refine ⟨fun hin => ?_, hnodup⟩
        obtain ⟨r', hr', hpair⟩ := List.mem_map.mp hin
        obtain ⟨hmem, hwritten'⟩ := List.mem_filter.mp hr'
        refine (hlater r' hmem hwritten').1 ?_
        rw [hpair]
        obtain ⟨org, place, haccepts, -, hkey⟩ := hout.written_of hwritten
        rw [haccepts.row.places.pair]
        exact (hout.mem_seen _).mpr (Or.inr hkey)
      · rw [List.filter_cons_of_neg hwritten]
        exact hnodup

/-! ## Clean rows -/

/-- A row for a device that is there is written as it is announced. -/
def Fulfilled (w : World) (r : ImportRow) : Prop :=
  ∀ d, findPair w.stock.active.rows r.pair = some d →
    mergedRow w.codec w.stock.active.rows w.getLocation r.entry = .ok (r.updatedHost w.codec d)

theorem fulfilled_iff (h : Accepts w q r rec org place) :
    Fulfilled w r ↔ ∀ d, findPair w.stock.active.rows (org, rec.cell .ip) = some d →
      Settled w.codec rec d := by
  obtain ⟨line, hdest⟩ := h.dest
  obtain ⟨-, hip, -, hplace, horg⟩ := destination_ok hdest
  rw [Fulfilled, h.row.places.pair]
  refine forall₂_congr fun d hfound => ?_
  rcases h.row with ⟨hnone, -⟩ | ⟨d', hfound', hupdates⟩
  · rw [hnone] at hfound
    simp at hfound
  · obtain rfl := Option.some.inj (hfound.symm.trans hfound')
    exact mergedRow_update_iff hupdates hip hplace horg hfound

theorem cleanRows_cons {rows : List (ℕ × Record)}
    (hseen : ∀ k, k ∈ seen' ↔ k ∈ seen ∨ key w q row = some k) :
    CleanRows w q seen (row :: rows) ↔
      (∀ org place, destination w q row.1 row.2 = .ok (org, place) →
        (org, row.2.cell .ip) ∉ seen → Harmless w q row org place rows) ∧
      CleanRows w q seen' rows := by
  constructor
  · intro h
    refine ⟨fun org place hdest hfree => ?_, fun before row' later hrows org place hdest hfree hfirst => ?_⟩
    · exact h [] row rows rfl org place hdest hfree fun _ hin => nomatch hin
    · rw [hseen, not_or] at hfree
      refine h (row :: before) row' later (by rw [hrows]; rfl) org place hdest hfree.1 ?_
      intro row'' hin
      rcases List.mem_cons.mp hin with rfl | hin
      · exact hfree.2
      · exact hfirst row'' hin
  · rintro ⟨hhead, hrest⟩ before row' later hrows org place hdest hfree hfirst
    cases before with
    | nil =>
      obtain ⟨rfl, rfl⟩ := List.cons.inj hrows
      exact hhead org place hdest hfree
    | cons row'' before =>
      obtain ⟨rfl, rfl⟩ := List.cons.inj hrows
      refine hrest before row' later rfl org place hdest ?_ fun r hr =>
        hfirst r (List.mem_cons_of_mem _ hr)
      rw [hseen, not_or]
      exact ⟨hfree, hfirst row List.mem_cons_self⟩

theorem harmless_of {s : Siting} {later : List (ℕ × Record)}
    (hsiting : siting w q row.1 (row.2.cell .ip) org place = .ok s) :
    Harmless w q row org place later ↔
      if s.fits then
        (org, row.2.cell .ip) ∈ w.stock.retired.pairs ∨ strictIp row.2 = true ∧
          portOk row.2 = true ∧ ∀ d, findPair w.stock.active.rows (org, row.2.cell .ip) = some d →
            Settled w.codec row.2 d
      else
        ∀ row' ∈ later, key w q row' = some (org, row.2.cell .ip) → valid w q row' = false := by
  rw [Harmless, hsiting]

theorem CleanRows.classified {rows : List (ℕ × Record)} (h : CleanRows w q seen rows) :
    ∃ out, classifyRows w q seen rows = .ok out := by
  induction rows generalizing seen with
  | nil => exact ⟨[], rfl⟩
  | cons row rows ih =>
    obtain ⟨r, seen', hrow⟩ := @exists_classifyRow w q row.1 row.2 seen fun org place hdest hfree => by
      have hharm := h [] row rows rfl org place hdest hfree fun _ hin =>
        nomatch hin
      cases hsiting : siting w q row.1 (row.2.cell .ip) org place with
      | error e =>
        rw [Harmless, hsiting] at hharm
        exact hharm.elim
      | ok s => exact ⟨s, rfl⟩
    have hclean := (cleanRows_cons (classifyRow_outcome hrow).mem_seen).mp h
    obtain ⟨out, hrest⟩ := ih hclean.2
    exact ⟨r :: out, classifyRows_of hrow hrest⟩

theorem Outcome.of_harmless {later : List (ℕ × Record)} (h : Outcome w q seen row r seen')
    (hharm : ∀ org place, destination w q row.1 row.2 = .ok (org, place) →
      (org, row.2.cell .ip) ∉ seen → Harmless w q row org place later) :
    (valid w q row = false → (q.decision row.1).skip = false → r.status = .error) ∧
      (r.isWritten = true → Fulfilled w r) := by
  have hnot : r.status = .error → r.isWritten = true → Fulfilled w r := by
    intro hstatus hwritten
    simp [ImportRow.isWritten, hstatus] at hwritten
  cases h with
  | refused hdest =>
    have hstatus := (destination_error hdest).2
    refine ⟨fun _ hskip => by rw [hstatus, if_neg (by simp [hskip])], fun hwritten => ?_⟩
    split at hstatus
    · simp [ImportRow.isWritten, hstatus] at hwritten
    · exact hnot hstatus hwritten
  | twice hdest hseen hstatus => exact ⟨fun _ _ => hstatus, hnot hstatus⟩
  | elsewhere hdest hseen hsiting hfits hstatus => exact ⟨fun _ _ => hstatus, hnot hstatus⟩
  | retired hdest hseen hsiting hfits hretired hstatus => exact ⟨fun _ _ => hstatus, hnot hstatus⟩
  | written hdest hseen hsiting hfits haccepts =>
    have hgood := (harmless_of hsiting).mp (hharm _ _ hdest hseen)
    rw [if_pos hfits] at hgood
    obtain ⟨hstrict, hport, hsettled⟩ := hgood.resolve_left haccepts.active
    refine ⟨fun hinvalid _ => ?_, fun _ => (fulfilled_iff haccepts).mpr hsettled⟩
    rw [valid_of hdest hsiting, hstrict, hport, hfits, decide_eq_true haccepts.active] at hinvalid
    simp at hinvalid

/-- In a clean file the rows that are not valid are refused, and those that are written are
fulfilled. -/
theorem CleanRows.rows {rows : List (ℕ × Record)} {out : List ImportRow}
    (h : CleanRows w q seen rows) (hout : classifyRows w q seen rows = .ok out) :
    (∀ x ∈ rows.zip out, valid w q x.1 = false → (q.decision x.1.1).skip = false →
      x.2.status = .error) ∧
    ∀ r ∈ out, r.isWritten = true → Fulfilled w r := by
  induction rows generalizing seen out with
  | nil =>
    obtain rfl := Except.ok.inj hout
    exact ⟨fun x hx => absurd hx List.not_mem_nil, fun r hr => absurd hr List.not_mem_nil⟩
  | cons row rows ih =>
    obtain ⟨r, seen', out', hrow, hrest, rfl⟩ := classifyRows_cons hout
    have hhead := classifyRow_outcome hrow
    obtain ⟨hharm, hclean⟩ := (cleanRows_cons hhead.mem_seen).mp h
    obtain ⟨hrefused, hfulfilled⟩ := hhead.of_harmless hharm
    obtain ⟨hrefused', hfulfilled'⟩ := ih hclean hrest
    refine ⟨fun x hx => ?_, fun r' hr' => ?_⟩
    · rw [List.zip_cons_cons] at hx
      rcases List.mem_cons.mp hx with rfl | hx
      · exact hrefused
      · exact hrefused' x hx
    · rcases List.mem_cons.mp hr' with rfl | hr'
      · exact hfulfilled
      · exact hfulfilled' r' hr'

/-! ## Rows that are not valid, and the others -/

def validRows (w : World) (q : Request) (rows : List (ℕ × Record)) (out : List ImportRow) :
    List ImportRow :=
  ((rows.zip out).filter fun x => valid w q x.1).map Prod.snd

theorem validRows_cons_pos {rows : List (ℕ × Record)} (h : valid w q row) :
    validRows w q (row :: rows) (r :: out) = r :: validRows w q rows out := by
  rw [validRows, List.zip_cons_cons, List.filter_cons_of_pos (by simpa using h), List.map_cons]
  rfl

theorem validRows_cons_neg {rows : List (ℕ × Record)} (h : valid w q row = false) :
    validRows w q (row :: rows) (r :: out) = validRows w q rows out := by
  rw [validRows, List.zip_cons_cons, List.filter_cons_of_neg (by simp [h])]
  rfl

theorem key_of_valid (h : valid w q row) : ∃ org place,
    destination w q row.1 row.2 = .ok (org, place) ∧ key w q row = some (org, row.2.cell .ip) := by
  rw [valid] at h
  rw [key]
  cases hdest : destination w q row.1 row.2 with
  | error e =>
    rw [hdest] at h
    simp at h
  | ok dest => exact ⟨dest.1, dest.2, rfl, rfl⟩

theorem Outcome.key_free {rows : List (ℕ × Record)} (h : Outcome w q seen row r seen')
    (hharm : ∀ org place, destination w q row.1 row.2 = .ok (org, place) →
      (org, row.2.cell .ip) ∉ seen → Harmless w q row org place rows)
    (hinvalid : valid w q row = false) {row' : ℕ × Record} (hrow' : row' ∈ rows)
    (hvalid : valid w q row') {k : Pair} (hkey : key w q row' = some k) :
    k ∈ seen' ↔ k ∈ seen := by
  rw [h.mem_seen]
  refine ⟨fun hin => hin.elim id fun hkey' => ?_, Or.inl⟩
  by_contra hfree
  cases h with
  | refused hdest =>
    rw [key, hdest] at hkey'
    simp at hkey'
  | twice hdest hseen hstatus =>
    rw [key, hdest] at hkey'
    exact hfree (Option.some.inj hkey' ▸ hseen)
  | elsewhere hdest hseen hsiting hfits hstatus =>
    have hgood := (harmless_of hsiting).mp (hharm _ _ hdest hseen)
    rw [if_neg (by simp [hfits])] at hgood
    rw [key, hdest] at hkey'
    have hother := hgood row' hrow' (by rw [hkey, ← hkey'])
    rw [hvalid] at hother
    simp at hother
  | retired hdest hseen hsiting hfits hretired hstatus =>
    rw [key, hdest] at hkey'
    obtain ⟨org', place', hdest', hkey''⟩ := key_of_valid hvalid
    rw [hkey, ← hkey'] at hkey''
    rw [valid, hdest'] at hvalid
    dsimp only at hvalid
    rw [← Option.some.inj hkey'', decide_eq_false (not_not.mpr hretired)] at hvalid
    simp at hvalid
  | written hdest hseen hsiting hfits haccepts =>
    have hgood := (harmless_of hsiting).mp (hharm _ _ hdest hseen)
    rw [if_pos hfits] at hgood
    obtain ⟨hstrict, hport, -⟩ := hgood.resolve_left haccepts.active
    rw [valid_of hdest hsiting, hstrict, hport, hfits, decide_eq_true haccepts.active] at hinvalid
    simp at hinvalid

/-- In a clean file the valid rows are classified as without the others. -/
theorem classifyRows_unaffected {rows : List (ℕ × Record)} (h : CleanRows w q seen rows)
    (hsame : ∀ row ∈ rows, valid w q row = true → ∀ k, key w q row = some k →
      (k ∈ seen ↔ k ∈ other))
    (hout : classifyRows w q seen rows = .ok out) :
    classifyRows w q other (rows.filter (valid w q)) = .ok (validRows w q rows out) := by
  induction rows generalizing seen other out with
  | nil =>
    obtain rfl := Except.ok.inj hout
    rfl
  | cons row rows ih =>
    obtain ⟨r, seen', out', hrow, hrest, rfl⟩ := classifyRows_cons hout
    have hhead := classifyRow_outcome hrow
    obtain ⟨hharm, hclean⟩ := (cleanRows_cons hhead.mem_seen).mp h
    cases hvalid : valid w q row with
    | true =>
      rw [List.filter_cons_of_pos hvalid, validRows_cons_pos hvalid]
      obtain ⟨other', hrow'⟩ := classifyRow_congr (hsame row List.mem_cons_self hvalid) hrow
      refine classifyRows_of hrow' (ih hclean (fun row' hin hvalid' k hkey => ?_) hrest)
      rw [hhead.mem_seen, (classifyRow_outcome hrow').mem_seen,
        hsame row' (List.mem_cons_of_mem _ hin) hvalid' k hkey]
    | false =>
      rw [List.filter_cons_of_neg (by simp [hvalid]), validRows_cons_neg hvalid]
      refine ih hclean (fun row' hin hvalid' k hkey => ?_) hrest
      rw [hhead.key_free hharm hvalid hin hvalid' hkey]
      exact hsame row' (List.mem_cons_of_mem _ hin) hvalid' k hkey

/-- Where the valid rows are classified as without the others, no row after one that has taken a
key is valid and has it. -/
theorem invalid_of_unaffected {rows : List (ℕ × Record)}
    {k : Pair} (hin : k ∈ seen) (hfree : k ∉ other) (hout : classifyRows w q seen rows = .ok out)
    (hother : classifyRows w q other (rows.filter (valid w q)) = .ok (validRows w q rows out)) :
    ∀ row ∈ rows, key w q row = some k → valid w q row = false := by
  induction rows generalizing seen other out with
  | nil => exact fun row hrow => nomatch hrow
  | cons row rows ih =>
    obtain ⟨r, seen', out', hrow, hrest, rfl⟩ := classifyRows_cons hout
    have hhead := classifyRow_outcome hrow
    have hin' : k ∈ seen' := (hhead.mem_seen k).mpr (Or.inl hin)
    cases hvalid : valid w q row with
    | true =>
      rw [List.filter_cons_of_pos hvalid, validRows_cons_pos hvalid] at hother
      obtain ⟨r', other', out'', hrow', hrest', heq⟩ := classifyRows_cons hother
      obtain ⟨rfl, rfl⟩ := List.cons.inj heq
      have hhead' := classifyRow_outcome hrow'
      have hne : key w q row ≠ some k := by
        intro hkey
        obtain ⟨org, place, s, -, -, -, haccepts⟩ := hhead'.of_valid hvalid fun k' hkey' => by
          rw [← Option.some.inj (hkey.symm.trans hkey')]
          exact hfree
        obtain ⟨org', place', -, hseen, hkey'⟩ := hhead.written_of haccepts.row.isWritten.1
        rw [← Option.some.inj (hkey.symm.trans hkey')] at hseen
        exact hseen hin
      refine List.forall_mem_cons.mpr ⟨fun hkey => absurd hkey hne, ?_⟩
      refine ih hin' (fun hmem => ?_) hrest hrest'
      exact ((hhead'.mem_seen k).mp hmem).elim hfree hne
    | false =>
      rw [List.filter_cons_of_neg (by simp [hvalid]), validRows_cons_neg hvalid] at hother
      exact List.forall_mem_cons.mpr ⟨fun _ => hvalid, ih hin' hfree hrest hother⟩

/-- Where a preview refuses the rows that are not valid, is kept for the rows that are written, and
has the valid rows as without the others, the rows do no harm. -/
theorem cleanRows_of {rows : List (ℕ × Record)} (hout : classifyRows w q seen rows = .ok out)
    (hrefused : ∀ x ∈ rows.zip out, valid w q x.1 = false → (q.decision x.1.1).skip = false →
      x.2.status = .error)
    (hfulfilled : ∀ r ∈ out, r.isWritten = true → Fulfilled w r)
    (hother : classifyRows w q other (rows.filter (valid w q)) = .ok (validRows w q rows out))
    (hsub : ∀ k ∈ other, k ∈ seen) : CleanRows w q seen rows := by
  induction rows generalizing seen other out with
  | nil =>
    intro before row later hrows
    simp at hrows
  | cons row rows ih =>
    obtain ⟨r, seen', out', hrow, hrest, rfl⟩ := classifyRows_cons hout
    have hhead := classifyRow_outcome hrow
    have hrefused' : ∀ x ∈ rows.zip out', valid w q x.1 = false →
        (q.decision x.1.1).skip = false → x.2.status = .error := fun x hx =>
      hrefused x (by rw [List.zip_cons_cons]; exact List.mem_cons_of_mem _ hx)
    have hfulfilled' : ∀ r ∈ out', r.isWritten = true → Fulfilled w r := fun r' hr' =>
      hfulfilled r' (List.mem_cons_of_mem _ hr')
    have hrefusedHead : valid w q row = false → (q.decision row.1).skip = false →
        r.status = .error := hrefused (row, r) (by rw [List.zip_cons_cons]; exact List.mem_cons_self)
    refine (cleanRows_cons hhead.mem_seen).mpr ⟨fun org place hdest hfree => ?_, ?_⟩
    · cases hhead with
      | refused hdest' => exact absurd (hdest.symm.trans hdest') (by simp)
      | twice hdest' hseen hstatus =>
        obtain ⟨rfl, rfl⟩ := Prod.mk.inj (Except.ok.inj (hdest.symm.trans hdest'))
        exact absurd hseen hfree
      | elsewhere hdest' hseen hsiting hfits hstatus =>
        obtain ⟨rfl, rfl⟩ := Prod.mk.inj (Except.ok.inj (hdest.symm.trans hdest'))
        rw [harmless_of hsiting, if_neg (by simp [hfits])]
        have hinvalid : valid w q row = false := by
          rw [valid_of hdest hsiting, hfits, Bool.and_false]
        rw [List.filter_cons_of_neg (by simp [hinvalid]), validRows_cons_neg hinvalid] at hother
        exact invalid_of_unaffected List.mem_cons_self (fun hin => hfree (hsub _ hin)) hrest hother
      | retired hdest' hseen hsiting hfits hretired hstatus =>
        obtain ⟨rfl, rfl⟩ := Prod.mk.inj (Except.ok.inj (hdest.symm.trans hdest'))
        rw [harmless_of hsiting, if_pos hfits]
        exact Or.inl hretired
      | written hdest' hseen hsiting hfits haccepts =>
        obtain ⟨rfl, rfl⟩ := Prod.mk.inj (Except.ok.inj (hdest.symm.trans hdest'))
        rw [harmless_of hsiting, if_pos hfits]
        have hvalid : valid w q row = true := by
          by_contra hinvalid
          exact haccepts.row.isWritten.2
            (hrefusedHead (by simpa using hinvalid) (destination_ok hdest).1)
        rw [valid_of hdest hsiting, Bool.and_eq_true, Bool.and_eq_true, Bool.and_eq_true] at hvalid
        refine Or.inr ⟨hvalid.1.1.1, hvalid.1.1.2, (fulfilled_iff haccepts).mp ?_⟩
        exact hfulfilled r List.mem_cons_self haccepts.row.isWritten.1
    · cases hvalid : valid w q row with
      | true =>
        rw [List.filter_cons_of_pos hvalid, validRows_cons_pos hvalid] at hother
        obtain ⟨r', other', out'', hrow', hrest', heq⟩ := classifyRows_cons hother
        obtain ⟨rfl, rfl⟩ := List.cons.inj heq
        refine ih hrest hrefused' hfulfilled' hrest' fun k hk => ?_
        rw [hhead.mem_seen]
        rw [(classifyRow_outcome hrow').mem_seen] at hk
        exact hk.imp_left (hsub k)
      | false =>
        rw [List.filter_cons_of_neg (by simp [hvalid]), validRows_cons_neg hvalid] at hother
        refine ih hrest hrefused' hfulfilled' hother fun k hk => ?_
        exact (hhead.mem_seen k).mpr (Or.inl (hsub k hk))

end Rows

/-! ## The import -/

section Import

variable {w : World} {q : Request}

/-- What `apply` writes of a preview. -/
def Preview.entries (p : Preview) : List Entry :=
  (p.rows.filter ImportRow.isWritten).map ImportRow.entry

theorem Preview.pairs_entries (p : Preview) :
    p.entries.map Entry.pair = (p.rows.filter ImportRow.isWritten).map ImportRow.pair := by
  rw [Preview.entries, List.map_map]
  rfl

theorem classify_of {parsed : List (ℕ × Record)} {out : List ImportRow}
    (hread : readInventoryCsv w.unicode q.csvText = .ok parsed)
    (hrows : classifyRows w q [] parsed = .ok out) :
    ∃ columns, classify w q = .ok ⟨columns, out⟩ := by
  obtain ⟨columns, hcolumns⟩ := csvColumns_of_read hread
  refine ⟨columns, ?_⟩
  rw [classify, hread]
  dsimp only
  rw [hrows]
  dsimp only
  rw [hcolumns]

variable {p : Preview}

theorem rows_of_classify {parsed : List (ℕ × Record)}
    (hread : readInventoryCsv w.unicode q.csvText = .ok parsed) (h : classify w q = .ok p) :
    classifyRows w q [] parsed = .ok p.rows := by
  rw [classify, hread] at h
  dsimp only at h
  cases hrows : classifyRows w q [] parsed with
  | error e =>
    rw [hrows] at h
    simp at h
  | ok out =>
    rw [hrows] at h
    dsimp only at h
    split at h
    · simp at h
    · rw [← Except.ok.inj h]

def Preview.answer (p : Preview) (active : Table) : Imported where
  imported := (p.having .new).map fun r => r.ip
  updated := (p.having .update).map fun r => r.ip
  skipped := (p.having .skipped).map fun r => r.row
  failed := (p.having .error).map fun r => (r.row, orElse r.ip "?", r.reason)
  preview := p
  active := active

theorem apply_eq (h : classify w q = .ok p) :
    apply w q =
      if p.entries.isEmpty then .ok (p.answer w.stock.active)
      else
        match w.upsert p.entries with
        | .error e => .error (.write e)
        | .ok active => .ok (p.answer active) := by
  rw [apply, h]
  show (match if p.entries.isEmpty then Except.ok w.stock.active else w.upsert p.entries with
    | .error e => Except.error (ImportError.write e)
    | .ok active => Except.ok (p.answer active)) = _
  split_ifs
  · rfl
  · rfl

theorem apply_ok {i : Imported} (hclassify : classify w q = .ok p)
    (h : apply w q = .ok i) (hkeys : (p.entries.map Entry.pair).Nodup) :
    i.preview = p ∧
      (∀ e ∈ p.entries, ∃ row, mergedRow w.codec w.stock.active.rows w.getLocation e = .ok row ∧
        findPair i.active.rows e.pair = some row) ∧
      ∀ k, k ∉ p.entries.map Entry.pair →
        findPair i.active.rows k = findPair w.stock.active.rows k := by
  rw [apply_eq hclassify] at h
  by_cases hempty : p.entries.isEmpty = true
  · rw [if_pos hempty] at h
    rw [← Except.ok.inj h]
    rw [List.isEmpty_iff] at hempty
    refine ⟨rfl, fun e he => ?_, fun _ _ => rfl⟩
    rw [hempty] at he
    cases he
  · rw [if_neg hempty] at h
    cases hupsert : w.upsert p.entries with
    | error e =>
      rw [hupsert] at h
      simp at h
    | ok active =>
      rw [hupsert] at h
      rw [← Except.ok.inj h]
      exact ⟨rfl, upsert_find hupsert hkeys⟩

theorem exists_apply (hclassify : classify w q = .ok p)
    (h : p.entries ≠ [] → ∃ active, w.upsert p.entries = .ok active) :
    ∃ i, apply w q = .ok i := by
  rw [apply_eq hclassify]
  by_cases hempty : p.entries.isEmpty = true
  · rw [if_pos hempty]
    exact ⟨_, rfl⟩
  · obtain ⟨active, hactive⟩ := h fun hnil => hempty (List.isEmpty_iff.mpr hnil)
    rw [if_neg hempty, hactive]
    exact ⟨_, rfl⟩

theorem mergedRow_accepts {r : ImportRow} {rec : Record} {org : String} {place : Place}
    (h : Accepts w q r rec org place) (hfulfilled : Fulfilled w r) :
    ∃ row, mergedRow w.codec w.stock.active.rows w.getLocation r.entry = .ok row ∧
      placed w.getLocation row = true ∧
      (r.status = .new → findPair w.stock.active.rows r.pair = none ∧ row = r.newHost w.codec) ∧
      (r.status = .update → ∃ d, findPair w.stock.active.rows r.pair = some d ∧
        row = r.updatedHost w.codec d) := by
  obtain ⟨line, hdest⟩ := h.dest
  obtain ⟨-, hip, -, hplace, horg⟩ := destination_ok hdest
  have hpair := h.row.places.pair
  have hplaced : ∀ row, mergedRow w.codec w.stock.active.rows w.getLocation r.entry = .ok row →
      placed w.getLocation row = true := by
    intro row hrow
    rw [placed, location_of_mergedRow h.row.places hip hplace horg hrow,
      w.getLocation_of_mem hplace]
    simp
  rcases h.row with ⟨hnone, hadds⟩ | ⟨d, hfound, hupdates⟩
  · have hrow := mergedRow_new hadds hip hplace horg hnone
    refine ⟨_, hrow, hplaced _ hrow, fun _ => ⟨by rw [hpair, hnone], rfl⟩, fun hstatus => ?_⟩
    rw [hadds.status] at hstatus
    simp at hstatus
  · have hrow := hfulfilled d (by rw [hpair, hfound])
    refine ⟨_, hrow, hplaced _ hrow, fun hstatus => ?_, fun _ => ⟨d, by rw [hpair, hfound], rfl⟩⟩
    rw [hupdates.status] at hstatus
    simp at hstatus

theorem truthful_of_clean (h : Clean w q) : Truthful w q := by
  rcases h with hunread | ⟨parsed, hread, hclean⟩
  · exact Or.inl hunread
  obtain ⟨out, hout⟩ := hclean.classified
  obtain ⟨columns, hclassify⟩ := classify_of hread hout
  obtain ⟨hrefused, hfulfilled⟩ := hclean.rows hout
  obtain ⟨hwritten, hnodup⟩ := written_keys hout
  have hkeys : ((⟨columns, out⟩ : Preview).entries.map Entry.pair).Nodup := by
    rw [Preview.pairs_entries]
    exact hnodup
  have hmerged : ∀ r ∈ out, r.isWritten = true → ∃ rec org place, Accepts w q r rec org place ∧
      ∃ row, mergedRow w.codec w.stock.active.rows w.getLocation r.entry = .ok row ∧
        placed w.getLocation row = true ∧
        (r.status = .new → findPair w.stock.active.rows r.pair = none ∧ row = r.newHost w.codec) ∧
        (r.status = .update → ∃ d, findPair w.stock.active.rows r.pair = some d ∧
          row = r.updatedHost w.codec d) := by
    intro r hr hw
    obtain ⟨-, rec, org, place, haccepts⟩ := hwritten r hr hw
    exact ⟨rec, org, place, haccepts, mergedRow_accepts haccepts (hfulfilled r hr hw)⟩
  obtain ⟨i, hi⟩ := exists_apply hclassify fun _ => by
    refine exists_upsert (fun e he => ?_) (fun e he => ?_) hkeys
    · obtain ⟨r, hr, rfl⟩ := List.mem_map.mp he
      obtain ⟨hmem, hw⟩ := List.mem_filter.mp hr
      obtain ⟨-, -, -, -, row, hrow, hplaced, -⟩ := hmerged r hmem hw
      exact ⟨row, hrow, hplaced⟩
    · obtain ⟨r, hr, rfl⟩ := List.mem_map.mp he
      obtain ⟨hmem, hw⟩ := List.mem_filter.mp hr
      obtain ⟨rec, org, place, haccepts, -⟩ := hmerged r hmem hw
      rw [show r.entry.pair = r.pair from rfl, haccepts.row.places.pair]
      exact haccepts.active
  obtain ⟨hanswer, hrows, hothers⟩ := apply_ok hclassify hi hkeys
  have hfind : ∀ r ∈ out, r.isWritten = true → ∀ row,
      mergedRow w.codec w.stock.active.rows w.getLocation r.entry = .ok row →
        findPair i.active.rows r.pair = some row := by
    intro r hr hw row hrow
    obtain ⟨row', hrow', hfound⟩ :=
      hrows r.entry (List.mem_map_of_mem (List.mem_filter.mpr ⟨hr, hw⟩))
    rw [Except.ok.inj (hrow.symm.trans hrow')]
    exact hfound
  have huntouched : ∀ k, (∀ r ∈ out, r.isWritten = true → r.pair ≠ k) →
      findPair i.active.rows k = findPair w.stock.active.rows k := by
    intro k hk
    refine hothers k fun hin => ?_
    rw [Preview.pairs_entries] at hin
    obtain ⟨r, hr, hpair⟩ := List.mem_map.mp hin
    obtain ⟨hmem, hw⟩ := List.mem_filter.mp hr
    exact hk r hmem hw hpair
  refine Or.inr ⟨parsed, ⟨columns, out⟩, i, hread, hclassify, hi, hanswer,
    rows_of_classifyRows hout, fun r hr hstatus => ?_, fun r hr hstatus => ?_, huntouched,
    fun k hk => huntouched k fun r hr hw hpair => ?_, hrefused,
    classifyRows_unaffected hclean (fun _ _ _ _ _ => Iff.rfl) hout⟩
  · have hw : r.isWritten = true := by simp [ImportRow.isWritten, hstatus]
    obtain ⟨-, -, -, -, row, hrow, -, hnew, -⟩ := hmerged r hr hw
    obtain ⟨hnone, heq⟩ := hnew hstatus
    exact ⟨hnone, heq ▸ hfind r hr hw row hrow⟩
  · have hw : r.isWritten = true := by simp [ImportRow.isWritten, hstatus]
    obtain ⟨-, -, -, -, row, hrow, -, -, hupdate⟩ := hmerged r hr hw
    obtain ⟨d, hfound, heq⟩ := hupdate hstatus
    exact ⟨d, hfound, heq ▸ hfind r hr hw row hrow⟩
  · obtain ⟨rec, org, place, haccepts, -⟩ := hmerged r hr hw
    obtain ⟨line, hdest⟩ := haccepts.dest
    rw [← hpair, haccepts.row.places.pair, (destination_ok hdest).2.2.1] at hk
    simp at hk

theorem clean_of_truthful (h : Truthful w q) : Clean w q := by
  rcases h with hunread | ⟨parsed, p, i, hread, hclassify, hi, htells⟩
  · exact Or.inl hunread
  have hout := rows_of_classify hread hclassify
  obtain ⟨hwritten, hnodup⟩ := written_keys hout
  have hkeys : (p.entries.map Entry.pair).Nodup := by
    rw [Preview.pairs_entries]
    exact hnodup
  obtain ⟨-, hrows, -⟩ := apply_ok hclassify hi hkeys
  refine Or.inr ⟨parsed, hread, ?_⟩
  refine cleanRows_of hout htells.refused (fun r hr hw d hfound => ?_) htells.unaffected
    fun _ hin => hin
  obtain ⟨row, hrow, hsome⟩ := hrows r.entry (List.mem_map_of_mem (List.mem_filter.mpr ⟨hr, hw⟩))
  have hstatus : r.status = .update := by
    rcases of_decide_eq_true hw with hnew | hupdate
    · rw [(htells.new r hr hnew).1] at hfound
      simp at hfound
    · exact hupdate
  obtain ⟨d', hfound', hsome'⟩ := htells.update r hr hstatus
  rw [Option.some.inj (hfound.symm.trans hfound'), hrow]
  exact congrArg Except.ok (Option.some.inj (hsome.symm.trans hsome'))

end Import

/-- The network 10.20.1.0/24. -/
def lan : Subnet := .v4 ⟨Ipv4.pack 10 20 1 0, 24⟩

/-- An inventory without devices, and one location with a subnet. -/
def emptyWorld : World where
  codec := sshCodec
  unicode := ⟨fun c => c.isAlphanum, fun s => s⟩
  groups := [("acme", none)]
  places := [⟨⟨"hq", "acme", "central"⟩, "HQ", [lan]⟩]
  probes := ["central"]
  stock := Stock.empty
  ids := by decide
  named := by
    intro l hl
    obtain rfl := List.mem_singleton.mp hl
    exact ⟨by decide, by decide⟩
  filled := fun _ hd => nomatch hd

def leadingZero : Request where
  csvText := "IP\n10.20.1.01\n10.20.1.2"
  defaultOrg := some "acme"
  defaultLocation := some "hq"
  decisions := []
  scope := none

end SentinelNet.Inventory
