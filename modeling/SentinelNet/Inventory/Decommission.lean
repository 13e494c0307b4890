import SentinelNet.Inventory.Hosts
import SentinelNet.Lib.KeyedRows
import SentinelNet.Lib.Runs

/-!
# Decommissioned devices

A decommissioned device leaves the table `hosts` for a table of its own.  A move writes the copy
first and removes the row second, so that an interrupted move leaves the row in both tables.
`decommission` however first drops from the table of the decommissioned devices every row that it
was asked for, and writes back those that are active: a device that was decommissioned before is
lost where it is asked for together with an active one.

* `run_keeps_iff`: when every call of a run keeps the devices.
-/

namespace SentinelNet.Inventory

open KeyedRows StepRuns

/-- An organization and an address. -/
abbrev Pair := String × String

/-- The keys of some rows. -/
def pairs (rows : List Host) : List Pair := rows.map Host.pair

/-- A row of `decommissioned_hosts`. -/
structure RetiredHost where
  host : Host
  decommissioned : String
  decommissionedBy : String
  deriving DecidableEq

/-- `device_pair` of a decommissioned device. -/
def RetiredHost.pair (r : RetiredHost) : Pair := r.host.pair

/-- The table `decommissioned_hosts`. -/
structure RetiredTable where
  rows : List RetiredHost
  keys : (rows.map RetiredHost.pair).Nodup

/-- The keys of the decommissioned devices. -/
def RetiredTable.pairs (t : RetiredTable) : List Pair := t.rows.map RetiredHost.pair

/-- `_write_decommissioned`, for rows with different keys. -/
def RetiredTable.write (t : RetiredTable) (rows : List RetiredHost)
    (h : (rows.map RetiredHost.pair).Nodup) : RetiredTable where
  rows := rewrite RetiredHost.pair t.rows rows
  keys := nodup_rewrite t.keys h

/-- The two tables. -/
structure Stock where
  active : Table
  retired : RetiredTable

def Stock.empty : Stock := ⟨⟨[], List.nodup_nil⟩, ⟨[], List.nodup_nil⟩⟩

/-- An operation on the tables; `interrupted` says that it ends after the first of its writes. -/
inductive Call where
  | upsertDevices (entries : List Entry)
  | decommission (want : List Pair) (stamp actor : String) (interrupted : Bool)
  | reactivate (want : List Pair) (interrupted : Bool)
  | deleteDevice (ip : String) (group : Option String)
  | deleteDevices (want : List Pair) (interrupted : Bool)

section Operations

variable (env : Codec) (getLocation : String → Option Location)

/-- The foreign key `Location` of a row. -/
def placed (d : Host) : Bool := d.location = "" || (getLocation d.location).isSome

/-- `_refuse_decommissioned`: a new row of a decommissioned device. -/
def refusesDecommissioned (old new : List Host) (retired exempt : List Pair) : Bool :=
  new.any fun d => d.pair ∉ pairs old && d.pair ∉ exempt && d.pair ∈ retired

/-- `write_devices`; the rows that are not there yet need their location. -/
def Table.writeDevices (table : Table) (retired exempt : List Pair) (new : List Host) :
    Except String Table :=
  if hnew : (new.map Host.pair).Nodup then
    if refusesDecommissioned table.rows new retired exempt then
      .error "è dismesso nel tenant: riattivalo o eliminalo prima"
    else if new.all fun d => d ∈ table.rows || placed getLocation d then
      .ok ⟨rewrite Host.pair table.rows new, nodup_rewrite table.keys hnew⟩
    else .error "FOREIGN KEY constraint failed"
  else .error "è già presente nell'organizzazione"

/-- The tables after `write_devices`, which are as before where it raises. -/
def Stock.write (s : Stock) (exempt : List Pair) (new : List Host) : Stock :=
  match s.active.writeDevices getLocation s.retired.pairs exempt new with
  | .ok table => { s with active := table }
  | .error _ => s

/-- The rows after some entries. -/
def upsertRows : List Host → List Entry → Except String (List Host)
  | devices, [] => .ok devices
  | devices, e :: es =>
    match mergedRow env devices getLocation e with
    | .error err => .error err
    | .ok row => upsertRows (devices.filter (·.pair ≠ row.pair) ++ [row]) es

def Stock.upsertDevices (s : Stock) (entries : List Entry) : Stock :=
  match upsertRows env getLocation s.active.rows entries with
  | .error _ => s
  | .ok rows => s.write getLocation [] rows

def moving (rows : List Host) (want : List Pair) : List Host := rows.filter fun d => d.pair ∈ want

def staying (rows : List Host) (want : List Pair) : List Host := rows.filter fun d => d.pair ∉ want

def stayingRetired (rows : List RetiredHost) (want : List Pair) : List RetiredHost :=
  rows.filter fun r => r.pair ∉ want

/-- What `decommission` writes first. -/
def retiring (s : Stock) (want : List Pair) (stamp actor : String) : List RetiredHost :=
  stayingRetired s.retired.rows want ++
    (moving s.active.rows want).map fun d => ⟨d, stamp, actor⟩

theorem nodup_retiring (s : Stock) (want : List Pair) (stamp actor : String) :
    ((retiring s want stamp actor).map RetiredHost.pair).Nodup := by
  have hmoving : ((moving s.active.rows want).map fun d => RetiredHost.pair ⟨d, stamp, actor⟩) =
      (moving s.active.rows want).map Host.pair := rfl
  rw [retiring, List.map_append, List.map_map]
  refine List.Nodup.append (s.retired.keys.sublist (List.filter_sublist.map _)) ?_
    fun p hkept hmoved => ?_
  · exact s.active.keys.sublist (List.filter_sublist.map _)
  · obtain ⟨r, hr, rfl⟩ := List.mem_map.mp hkept
    obtain ⟨d, hd, hpair⟩ := List.mem_map.mp hmoved
    have hout := of_decide_eq_true (List.mem_filter.mp hr).2
    have hin := of_decide_eq_true (List.mem_filter.mp hd).2
    exact hout (hpair ▸ hin)

def Stock.decommission (s : Stock) (want : List Pair) (stamp actor : String)
    (interrupted : Bool) : Stock :=
  if moving s.active.rows want = [] then s
  else
    let s' := { s with
      retired := s.retired.write (retiring s want stamp actor) (nodup_retiring s want stamp actor) }
    if interrupted then s' else s'.write getLocation [] (staying s.active.rows want)

/-- The rows that `reactivate` brings back. -/
def restored (s : Stock) (want : List Pair) : List Host :=
  (s.retired.rows.filter fun r => r.pair ∈ want && r.pair ∉ pairs s.active.rows).map
    RetiredHost.host

/-- The table without some decommissioned devices. -/
def RetiredTable.drop (t : RetiredTable) (want : List Pair) : RetiredTable :=
  t.write (stayingRetired t.rows want) (t.keys.sublist (List.filter_sublist.map _))

def Stock.reactivate (s : Stock) (want : List Pair) (interrupted : Bool) : Stock :=
  if s.retired.rows.filter (fun r => r.pair ∈ want) = [] then s
  else
    match if restored s want = [] then .ok s.active
      else s.active.writeDevices getLocation s.retired.pairs (pairs (restored s want))
        (s.active.rows ++ restored s want) with
    | .error _ => s
    | .ok table =>
      if interrupted then { s with active := table } else ⟨table, s.retired.drop want⟩

def Stock.deleteDevice (s : Stock) (ip : String) (group : Option String) : Stock :=
  s.write getLocation [] (s.active.rows.filter fun d =>
    !(d.ip = ip && group.all fun g => d.group = g))

def Stock.deleteDevices (s : Stock) (want : List Pair) (interrupted : Bool) : Stock :=
  let s' := if moving s.active.rows want = [] then s
    else s.write getLocation [] (staying s.active.rows want)
  if interrupted then s'
  else if s'.retired.rows.filter (fun r => r.pair ∈ want) = [] then s'
  else { s' with retired := s'.retired.drop want }

/-- The tables after an operation. -/
def Stock.step (s : Stock) : Call → Stock
  | .upsertDevices entries => s.upsertDevices env getLocation entries
  | .decommission want stamp actor interrupted =>
    s.decommission getLocation want stamp actor interrupted
  | .reactivate want interrupted => s.reactivate getLocation want interrupted
  | .deleteDevice ip group => s.deleteDevice getLocation ip group
  | .deleteDevices want interrupted => s.deleteDevices getLocation want interrupted

end Operations

/-! ## The ledger -/

/-- A device is in one of the tables. -/
def Stock.Holds (s : Stock) (p : Pair) : Prop := p ∈ pairs s.active.rows ∨ p ∈ s.retired.pairs

instance (s : Stock) (p : Pair) : Decidable (s.Holds p) := inferInstanceAs (Decidable (_ ∨ _))

/-- The tables beside the devices that were added and not deleted. -/
structure Ledger where
  stock : Stock
  added : List Pair

/-- Nothing was added. -/
def Ledger.empty : Ledger := ⟨Stock.empty, []⟩

def Call.deletes : Call → Pair → Bool
  | .deleteDevice ip group, p => p.2 = ip && group.all fun g => p.1 = g
  | .deleteDevices want _, p => p ∈ want
  | _, _ => false

section Ledger

variable (env : Codec) (getLocation : String → Option Location)

/-- The devices that are added and not deleted: what a deletion was asked for and took out of both
tables is deleted. -/
def Ledger.book (l : Ledger) (call : Call) (s : Stock) : List Pair :=
  (l.added.filter fun p => !(call.deletes p) || s.Holds p) ++
    (pairs s.active.rows).filter fun p => p ∉ l.added

def Ledger.step (l : Ledger) (call : Call) : Ledger :=
  let s := l.stock.step env getLocation call
  ⟨s, l.book call s⟩

end Ledger

/-! ## What a call should leave -/

section Keeps

variable (env : Codec) (getLocation : String → Option Location)

/-- What a call should leave of the devices: none is lost or doubled, a move that is not interrupted
leaves the device in one table with all its fields, a decommissioned device is not added, and only
what concerns a decommissioned device is refused. -/
structure Keeps (l : Ledger) (call : Call) : Prop where
  held : ∀ p ∈ (l.step env getLocation call).added, (l.step env getLocation call).stock.Holds p
  activeKeys : (pairs (l.step env getLocation call).stock.active.rows).Nodup
  retiredKeys : (l.step env getLocation call).stock.retired.pairs.Nodup
  decommissioned : ∀ want stamp actor, call = .decommission want stamp actor false → ∀ p ∈ want,
    (∀ d ∈ l.stock.active.rows, d.pair = p →
      p ∉ pairs (l.step env getLocation call).stock.active.rows ∧
        (⟨d, stamp, actor⟩ : RetiredHost) ∈ (l.step env getLocation call).stock.retired.rows) ∧
    (p ∉ pairs l.stock.active.rows → ∀ r ∈ l.stock.retired.rows, r.pair = p →
      p ∉ pairs (l.step env getLocation call).stock.active.rows ∧
        r ∈ (l.step env getLocation call).stock.retired.rows)
  reactivated : ∀ want, call = .reactivate want false → ∀ p ∈ want,
    (∀ d ∈ l.stock.active.rows, d.pair = p →
      d ∈ (l.step env getLocation call).stock.active.rows ∧
        p ∉ (l.step env getLocation call).stock.retired.pairs) ∧
    (p ∉ pairs l.stock.active.rows → ∀ r ∈ l.stock.retired.rows, r.pair = p →
      r.host ∈ (l.step env getLocation call).stock.active.rows ∧
        p ∉ (l.step env getLocation call).stock.retired.pairs)
  upserted : ∀ entries, call = .upsertDevices entries → ∀ p ∈ l.stock.retired.pairs,
    p ∉ pairs l.stock.active.rows → p ∉ pairs (l.step env getLocation call).stock.active.rows
  unblocked : ∀ entries rows, call = .upsertDevices entries →
    upsertRows env getLocation l.stock.active.rows entries = .ok rows →
    (∀ d ∈ rows, d ∈ l.stock.active.rows ∨ placed getLocation d = true) →
    (∀ e ∈ entries, (e.group, e.ip) ∈ l.stock.retired.pairs →
      (e.group, e.ip) ∈ pairs l.stock.active.rows) →
    ∀ d, d ∈ (l.step env getLocation call).stock.active.rows ↔ d ∈ rows

/-- A decommissioning does not ask for an active device together with one that is decommissioned and
not active. -/
def Separates (l : Ledger) : Call → Prop
  | .decommission want _ _ _ => moving l.stock.active.rows want = [] ∨
      ∀ p ∈ want, p ∈ l.stock.retired.pairs → p ∈ pairs l.stock.active.rows
  | _ => True

end Keeps

/-! ## The writes -/

section Writes

variable {env : Codec} {getLocation : String → Option Location}

variable {rows : List Host}

theorem mem_pairs {p : Pair} : p ∈ pairs rows ↔ ∃ d ∈ rows, d.pair = p :=
  List.mem_map

theorem RetiredTable.mem_pairs {t : RetiredTable} {p : Pair} :
    p ∈ t.pairs ↔ ∃ r ∈ t.rows, r.pair = p := List.mem_map

variable {want : List Pair}

theorem mem_moving {d : Host} : d ∈ moving rows want ↔ d ∈ rows ∧ d.pair ∈ want := by simp [moving]

variable {r : RetiredHost}

theorem mem_stayingRetired {rows : List RetiredHost} :
    r ∈ stayingRetired rows want ↔ r ∈ rows ∧ r.pair ∉ want := by simp [stayingRetired]

variable {s : Stock}

theorem mem_retiring {stamp actor : String} :
    r ∈ retiring s want stamp actor ↔ (r ∈ s.retired.rows ∧ r.pair ∉ want) ∨
      ∃ d ∈ s.active.rows, d.pair ∈ want ∧ ⟨d, stamp, actor⟩ = r := by
  simp only [retiring, List.mem_append, mem_stayingRetired, List.mem_map, mem_moving, and_assoc]

theorem mem_restored {d : Host} :
    d ∈ restored s want ↔
      ∃ r ∈ s.retired.rows, r.pair ∈ want ∧ r.pair ∉ pairs s.active.rows ∧ r.host = d := by
  simp [restored, and_assoc]

theorem RetiredTable.mem_drop {t : RetiredTable} :
    r ∈ (t.drop want).rows ↔ r ∈ t.rows ∧ r.pair ∉ want :=
  (mem_rewrite (t.keys.sublist (List.filter_sublist.map _))).trans mem_stayingRetired

variable {table : Table} {new : List Host}

theorem writeDevices_ok {table' : Table} {retired exempt : List Pair}
    (h : table.writeDevices getLocation retired exempt new = .ok table') :
    (∀ d, d ∈ table'.rows ↔ d ∈ new) ∧
      (∀ d ∈ new, d ∈ table.rows ∨ placed getLocation d = true) ∧
      ∀ d ∈ new, d.pair ∉ pairs table.rows → d.pair ∉ exempt → d.pair ∉ retired := by
  rw [Table.writeDevices] at h
  split at h
  · next hnew =>
    split at h
    · simp at h
    · next hrefused =>
      split at h
      · next hplaced =>
        obtain rfl := Except.ok.inj h
        refine ⟨fun d => mem_rewrite hnew, fun d hd => ?_, fun d hd hfree hexempt hretired => ?_⟩
        · simpa using List.all_eq_true.mp hplaced d hd
        · refine hrefused (List.any_eq_true.mpr ⟨d, hd, ?_⟩)
          simp [hfree, hexempt, hretired]
      · simp at h
  · simp at h

theorem writeDevices_of {retired exempt : List Pair} (hnew : (new.map Host.pair).Nodup)
    (hplaced : ∀ d ∈ new, d ∈ table.rows ∨ placed getLocation d = true)
    (hfree : ∀ d ∈ new, d.pair ∉ pairs table.rows → d.pair ∉ exempt → d.pair ∉ retired) :
    ∃ table', table.writeDevices getLocation retired exempt new = .ok table' := by
  have hrefused : ¬ refusesDecommissioned table.rows new retired exempt = true := by
    intro h
    obtain ⟨d, hd, hnone⟩ := List.any_eq_true.mp h
    simp only [Bool.and_eq_true, decide_eq_true_eq] at hnone
    exact hfree d hd hnone.1.1 hnone.1.2 hnone.2
  have hall : (new.all fun d => d ∈ table.rows || placed getLocation d) = true :=
    List.all_eq_true.mpr fun d hd => by simpa using hplaced d hd
  rw [Table.writeDevices, dif_pos hnew, if_neg hrefused, if_pos hall]
  exact ⟨_, rfl⟩

theorem retired_write (s : Stock) (exempt : List Pair) (new : List Host) :
    (s.write getLocation exempt new).retired = s.retired := by
  unfold Stock.write
  split
  · rfl
  · rfl

theorem mem_write_filter {p : Host → Bool} {d : Host} :
    d ∈ (s.write getLocation [] (s.active.rows.filter p)).active.rows ↔
      d ∈ s.active.rows ∧ p d = true := by
  obtain ⟨table, hok⟩ := @writeDevices_of getLocation s.active _ s.retired.pairs []
    (s.active.keys.sublist (List.filter_sublist.map _))
    (fun d hd => Or.inl (List.mem_of_mem_filter hd))
    (fun d hd hfree => absurd (List.mem_map_of_mem (List.mem_of_mem_filter hd)) hfree)
  rw [Stock.write, hok, ← List.mem_filter]
  exact (writeDevices_ok hok).1 d

theorem nodup_restored (s : Stock) (want : List Pair) :
    ((s.active.rows ++ restored s want).map Host.pair).Nodup := by
  have hrestored : (restored s want).map Host.pair = (s.retired.rows.filter fun r =>
      r.pair ∈ want && r.pair ∉ pairs s.active.rows).map RetiredHost.pair := List.map_map
  rw [List.map_append]
  refine List.Nodup.append s.active.keys ?_ fun p hactive hback => ?_
  · rw [hrestored]
    exact s.retired.keys.sublist (List.filter_sublist.map _)
  · obtain ⟨d, hd, rfl⟩ := List.mem_map.mp hback
    obtain ⟨r, -, -, hfree, rfl⟩ := mem_restored.mp hd
    exact hfree hactive

/-! ## The operations -/

theorem decommission_of_moving {stamp actor : String}
    {interrupted : Bool} (h : moving s.active.rows want ≠ []) :
    (∀ r, r ∈ (s.decommission getLocation want stamp actor interrupted).retired.rows ↔
      r ∈ retiring s want stamp actor) ∧
    ∀ d, d ∈ (s.decommission getLocation want stamp actor interrupted).active.rows ↔
      d ∈ s.active.rows ∧ (interrupted = false → d.pair ∉ want) := by
  have hretired (r : RetiredHost) : r ∈ (s.retired.write (retiring s want stamp actor)
      (nodup_retiring s want stamp actor)).rows ↔ r ∈ retiring s want stamp actor :=
    mem_rewrite (nodup_retiring s want stamp actor)
  rw [Stock.decommission, if_neg h]
  cases interrupted with
  | true => exact ⟨hretired, fun d => by simp⟩
  | false =>
    refine ⟨fun r => ?_, fun d => ?_⟩
    · rw [if_neg Bool.false_ne_true, retired_write]
      exact hretired r
    · rw [if_neg Bool.false_ne_true]
      refine (mem_write_filter (s := ⟨s.active, _⟩)).trans ?_
      simp

theorem reactivate_spec (hplaced : ∀ r ∈ s.retired.rows, placed getLocation r.host = true)
    (want : List Pair) (interrupted : Bool) :
    (∀ d, d ∈ (s.reactivate getLocation want interrupted).active.rows ↔
      d ∈ s.active.rows ∨ d ∈ restored s want) ∧
    ∀ r, r ∈ (s.reactivate getLocation want interrupted).retired.rows ↔
      r ∈ s.retired.rows ∧ (interrupted = false → r.pair ∉ want) := by
  rw [Stock.reactivate]
  split
  · next hback =>
    have hnone : ∀ r ∈ s.retired.rows, r.pair ∉ want := fun r hr hin =>
      List.filter_eq_nil_iff.mp hback r hr (decide_eq_true hin)
    refine ⟨fun d => ⟨Or.inl, ?_⟩, fun r => ⟨fun hr => ⟨hr, fun _ => hnone r hr⟩, And.left⟩⟩
    rintro (hd | hd)
    · exact hd
    · obtain ⟨r, hr, hin, -⟩ := mem_restored.mp hd
      exact absurd hin (hnone r hr)
  · have hfirst : ∃ table, (if restored s want = [] then .ok s.active
        else s.active.writeDevices getLocation s.retired.pairs (pairs (restored s want))
          (s.active.rows ++ restored s want)) = .ok table ∧
        ∀ d, d ∈ table.rows ↔ d ∈ s.active.rows ∨ d ∈ restored s want := by
      split
      · next hnil => exact ⟨s.active, rfl, fun d => by simp [hnil]⟩
      · have hknown : ∀ d ∈ s.active.rows ++ restored s want,
            d ∈ s.active.rows ∨ placed getLocation d = true := by
          intro d hd
          rcases List.mem_append.mp hd with hd | hd
          · exact Or.inl hd
          · obtain ⟨r, hr, -, -, rfl⟩ := mem_restored.mp hd
            exact Or.inr (hplaced r hr)
        have hexempted : ∀ d ∈ s.active.rows ++ restored s want, d.pair ∉ pairs s.active.rows →
            d.pair ∉ pairs (restored s want) → d.pair ∉ s.retired.pairs := by
          intro d hd hfree hexempt
          rcases List.mem_append.mp hd with hd | hd
          · exact absurd (List.mem_map_of_mem hd) hfree
          · exact absurd (List.mem_map_of_mem hd) hexempt
        obtain ⟨table, hok⟩ := writeDevices_of (nodup_restored s want) hknown hexempted
        exact ⟨table, hok, fun d => ((writeDevices_ok hok).1 d).trans List.mem_append⟩
    obtain ⟨table, hok, hrows⟩ := hfirst
    rw [hok]
    cases interrupted with
    | true => exact ⟨hrows, fun r => by simp⟩
    | false => exact ⟨hrows, fun r => RetiredTable.mem_drop.trans (by simp)⟩

theorem deleteDevices_spec (s : Stock) (want : List Pair) (interrupted : Bool) :
    (∀ d, d ∈ (s.deleteDevices getLocation want interrupted).active.rows ↔
      d ∈ s.active.rows ∧ d.pair ∉ want) ∧
    ∀ r, r ∈ (s.deleteDevices getLocation want interrupted).retired.rows ↔
      r ∈ s.retired.rows ∧ (interrupted = false → r.pair ∉ want) := by
  obtain ⟨s', hs', hretired, hactive⟩ : ∃ s', (if moving s.active.rows want = [] then s
      else s.write getLocation [] (staying s.active.rows want)) = s' ∧ s'.retired = s.retired ∧
      ∀ d, d ∈ s'.active.rows ↔ d ∈ s.active.rows ∧ d.pair ∉ want := by
    split
    · next hnone =>
      refine ⟨s, rfl, rfl, fun d => ⟨fun hd => ⟨hd, fun hin => ?_⟩, And.left⟩⟩
      exact List.filter_eq_nil_iff.mp hnone d hd (decide_eq_true hin)
    · exact ⟨_, rfl, retired_write s _ _, fun d => mem_write_filter.trans (by simp)⟩
  rw [Stock.deleteDevices, hs']
  cases interrupted with
  | true => exact ⟨hactive, fun r => by simp [hretired]⟩
  | false =>
    rw [if_neg Bool.false_ne_true]
    split
    · next hnone =>
      refine ⟨hactive, fun r => ?_⟩
      rw [hretired] at hnone ⊢
      exact ⟨fun hr => ⟨hr, fun _ hin =>
        List.filter_eq_nil_iff.mp hnone r hr (decide_eq_true hin)⟩, And.left⟩
    · refine ⟨hactive, fun r => RetiredTable.mem_drop.trans ?_⟩
      rw [hretired]
      simp

theorem upsertRows_ok {devices : List Host} {entries : List Entry}
    (h : upsertRows env getLocation devices entries = .ok rows)
    (hdevices : (devices.map Host.pair).Nodup) : (rows.map Host.pair).Nodup ∧
      ∀ p, p ∈ pairs rows ↔ p ∈ pairs devices ∨ ∃ e ∈ entries, (e.group, e.ip) = p := by
  induction entries generalizing devices with
  | nil =>
    obtain rfl := Except.ok.inj h
    exact ⟨hdevices, fun p => by simp⟩
  | cons e entries ih =>
    rw [upsertRows] at h
    split at h
    · simp at h
    · next row hrow =>
      obtain ⟨location, locationProbe, transports, hrow⟩ := mergedRow_ok hrow
      have hpair : row.pair = (e.group, e.ip) := by rw [hrow]; rfl
      have hnext : ((devices.filter (·.pair ≠ row.pair) ++ [row]).map Host.pair).Nodup := by
        rw [List.map_append]
        refine List.Nodup.append (hdevices.sublist (List.filter_sublist.map _))
          (List.nodup_singleton _) fun p hkept hnew => ?_
        obtain ⟨d, hd, rfl⟩ := List.mem_map.mp hkept
        exact of_decide_eq_true (List.mem_filter.mp hd).2 (List.mem_singleton.mp hnew)
      obtain ⟨hnodup, hpairs⟩ := ih h hnext
      refine ⟨hnodup, fun p => (hpairs p).trans ?_⟩
      have hfirst : p ∈ pairs (devices.filter (·.pair ≠ row.pair) ++ [row]) ↔
          p ∈ pairs devices ∨ (e.group, e.ip) = p := by
        rw [pairs, List.map_append, List.mem_append, ← hpair]
        by_cases hp : row.pair = p
        · simp [hp]
        · simp only [hp, or_false, List.map_cons, List.map_nil, List.mem_singleton, Ne.symm hp]
          constructor
          · exact fun hmem => (List.filter_sublist.map Host.pair).subset hmem
          · intro hmem
            obtain ⟨d, hd, rfl⟩ := List.mem_map.mp hmem
            exact List.mem_map_of_mem (List.mem_filter.mpr ⟨hd, decide_eq_true (Ne.symm hp)⟩)
      rw [hfirst, or_assoc]
      simp

theorem upsertDevices_cases (s : Stock) (entries : List Entry) :
    s.upsertDevices env getLocation entries = s ∨
      ∃ rows, upsertRows env getLocation s.active.rows entries = .ok rows ∧
        (s.upsertDevices env getLocation entries).retired = s.retired ∧
        (∀ d, d ∈ (s.upsertDevices env getLocation entries).active.rows ↔ d ∈ rows) ∧
        (∀ d ∈ rows, d ∈ s.active.rows ∨ placed getLocation d = true) ∧
        ∀ d ∈ rows, d.pair ∉ pairs s.active.rows → d.pair ∉ s.retired.pairs := by
  rw [Stock.upsertDevices]
  split
  · exact Or.inl rfl
  · next rows hrows =>
    rw [Stock.write]
    split
    · next table hok =>
      obtain ⟨hmem, hplaced, hfree⟩ := writeDevices_ok hok
      exact Or.inr ⟨rows, hrows, rfl, hmem, hplaced, fun d hd hnew => hfree d hd hnew List.not_mem_nil⟩
    · exact Or.inl rfl

end Writes

/-! ## The ledger of a run -/

section Run

variable {env : Codec} {getLocation : String → Option Location}

/-- Every row has its location, and the ledger has the devices of the tables. -/
structure Sound (getLocation : String → Option Location) (l : Ledger) : Prop where
  active : ∀ d ∈ l.stock.active.rows, placed getLocation d = true
  retired : ∀ r ∈ l.stock.retired.rows, placed getLocation r.host = true
  added : ∀ p, p ∈ l.added ↔ l.stock.Holds p

theorem sound_empty : Sound getLocation Ledger.empty where
  active _ h := nomatch h
  retired _ h := nomatch h
  added p := by simp [Ledger.empty, Stock.empty, Stock.Holds, pairs, RetiredTable.pairs]

variable {l : Ledger}

theorem Sound.rows_step (h : Sound getLocation l) (call : Call) :
    (∀ d ∈ (l.stock.step env getLocation call).active.rows, placed getLocation d = true) ∧
      ∀ r ∈ (l.stock.step env getLocation call).retired.rows,
        r ∈ l.stock.retired.rows ∨ r.host ∈ l.stock.active.rows := by
  cases call with
  | upsertDevices entries =>
    rw [Stock.step]
    rcases @upsertDevices_cases env getLocation l.stock entries with
      hsame | ⟨rows, -, hretired, hmem, hplaced, -⟩
    · rw [hsame]
      exact ⟨h.active, fun r hr => Or.inl hr⟩
    · rw [hretired]
      refine ⟨fun d hd => ?_, fun r hr => Or.inl hr⟩
      exact (hplaced d ((hmem d).mp hd)).elim (h.active d) id
  | decommission want stamp actor interrupted =>
    rw [Stock.step]
    by_cases hmoving : moving l.stock.active.rows want = []
    · rw [Stock.decommission, if_pos hmoving]
      exact ⟨h.active, fun r hr => Or.inl hr⟩
    · obtain ⟨hretired, hactive⟩ := 
        @decommission_of_moving getLocation _ _ stamp actor interrupted hmoving
      refine ⟨fun d hd => h.active d ((hactive d).mp hd).1, fun r hr => ?_⟩
      rcases mem_retiring.mp ((hretired r).mp hr) with ⟨hr, -⟩ | ⟨d, hd, -, rfl⟩
      · exact Or.inl hr
      · exact Or.inr hd
  | reactivate want interrupted =>
    rw [Stock.step]
    obtain ⟨hactive, hretired⟩ := reactivate_spec h.retired want interrupted
    refine ⟨fun d hd => ?_, fun r hr => Or.inl ((hretired r).mp hr).1⟩
    rcases (hactive d).mp hd with hd | hd
    · exact h.active d hd
    · obtain ⟨r, hr, -, -, rfl⟩ := mem_restored.mp hd
      exact h.retired r hr
  | deleteDevice ip group =>
    rw [Stock.step, Stock.deleteDevice, retired_write]
    exact ⟨fun d hd => h.active d (mem_write_filter.mp hd).1, fun r hr => Or.inl hr⟩
  | deleteDevices want interrupted =>
    rw [Stock.step]
    obtain ⟨hactive, hretired⟩ := @deleteDevices_spec getLocation l.stock want interrupted
    exact ⟨fun d hd => h.active d ((hactive d).mp hd).1, fun r hr => Or.inl ((hretired r).mp hr).1⟩

variable {call : Call} {p : Pair}

theorem Sound.holds_step (h : Sound getLocation l)
    (hsep : Separates l call) (hp : l.stock.Holds p) (hdel : call.deletes p = false) :
    (l.stock.step env getLocation call).Holds p := by
  cases call with
  | upsertDevices entries =>
    rw [Stock.step]
    rcases @upsertDevices_cases env getLocation l.stock entries with
      hsame | ⟨rows, hrows, hretired, hmem, -, -⟩
    · rw [hsame]
      exact hp
    · rcases hp with hp | hp
      · obtain ⟨d, hd, hpair⟩ := mem_pairs.mp
          (((upsertRows_ok hrows l.stock.active.keys).2 p).mpr (Or.inl hp))
        exact Or.inl (mem_pairs.mpr ⟨d, (hmem d).mpr hd, hpair⟩)
      · rw [Stock.Holds, hretired]
        exact Or.inr hp
  | decommission want stamp actor interrupted =>
    rw [Stock.step]
    by_cases hmoving : moving l.stock.active.rows want = []
    · rw [Stock.decommission, if_pos hmoving]
      exact hp
    · obtain ⟨hretired, hactive⟩ :=
        @decommission_of_moving getLocation _ _ stamp actor interrupted hmoving
      have hcarried (hin : p ∈ pairs l.stock.active.rows) (hwant : p ∈ want) :
          p ∈ (l.stock.decommission getLocation want stamp actor interrupted).retired.pairs := by
        obtain ⟨d, hd, rfl⟩ := mem_pairs.mp hin
        exact RetiredTable.mem_pairs.mpr
          ⟨⟨d, stamp, actor⟩, (hretired _).mpr (mem_retiring.mpr (Or.inr ⟨d, hd, hwant, rfl⟩)), rfl⟩
      by_cases hwant : p ∈ want
      · refine Or.inr (hcarried (hp.elim id fun hretired' => ?_) hwant)
        exact (hsep.resolve_left hmoving) p hwant hretired'
      · rcases hp with hp | hp
        · obtain ⟨d, hd, rfl⟩ := mem_pairs.mp hp
          exact Or.inl (mem_pairs.mpr ⟨d, (hactive d).mpr ⟨hd, fun _ => hwant⟩, rfl⟩)
        · obtain ⟨r, hr, rfl⟩ := RetiredTable.mem_pairs.mp hp
          exact Or.inr (RetiredTable.mem_pairs.mpr
            ⟨r, (hretired r).mpr (mem_retiring.mpr (Or.inl ⟨hr, hwant⟩)), rfl⟩)
  | reactivate want interrupted =>
    rw [Stock.step]
    obtain ⟨hactive, hretired⟩ := reactivate_spec h.retired want interrupted
    rcases hp with hp | hp
    · obtain ⟨d, hd, rfl⟩ := mem_pairs.mp hp
      exact Or.inl (mem_pairs.mpr ⟨d, (hactive d).mpr (Or.inl hd), rfl⟩)
    · obtain ⟨r, hr, rfl⟩ := RetiredTable.mem_pairs.mp hp
      by_cases hwant : r.pair ∈ want
      · by_cases hfree : r.pair ∈ pairs l.stock.active.rows
        · obtain ⟨d, hd, hpair⟩ := mem_pairs.mp hfree
          exact Or.inl (mem_pairs.mpr ⟨d, (hactive d).mpr (Or.inl hd), hpair⟩)
        · exact Or.inl (mem_pairs.mpr
            ⟨r.host, (hactive _).mpr (Or.inr (mem_restored.mpr ⟨r, hr, hwant, hfree, rfl⟩)), rfl⟩)
      · exact Or.inr (RetiredTable.mem_pairs.mpr ⟨r, (hretired r).mpr ⟨hr, fun _ => hwant⟩, rfl⟩)
  | deleteDevice ip group =>
    rw [Stock.step, Stock.deleteDevice, Stock.Holds, retired_write]
    refine hp.imp_left fun hp => ?_
    obtain ⟨d, hd, rfl⟩ := mem_pairs.mp hp
    refine mem_pairs.mpr ⟨d, mem_write_filter.mpr ⟨hd, ?_⟩, rfl⟩
    rw [Call.deletes] at hdel
    rw [Bool.not_eq_true']
    exact hdel
  | deleteDevices want interrupted =>
    rw [Stock.step]
    obtain ⟨hactive, hretired⟩ := @deleteDevices_spec getLocation l.stock want interrupted
    have hwant : p ∉ want := of_decide_eq_false hdel
    rcases hp with hp | hp
    · obtain ⟨d, hd, rfl⟩ := mem_pairs.mp hp
      exact Or.inl (mem_pairs.mpr ⟨d, (hactive d).mpr ⟨hd, hwant⟩, rfl⟩)
    · obtain ⟨r, hr, rfl⟩ := RetiredTable.mem_pairs.mp hp
      exact Or.inr (RetiredTable.mem_pairs.mpr ⟨r, (hretired r).mpr ⟨hr, fun _ => hwant⟩, rfl⟩)

/-- What every call keeps. -/
theorem Sound.step (h : Sound getLocation l) (hsep : Separates l call) :
    Sound getLocation (l.step env getLocation call) := by
  obtain ⟨hactive, hretired⟩ := @Sound.rows_step env getLocation l h call
  refine ⟨hactive, fun r hr => ?_, fun p => ?_⟩
  · rcases hretired r hr with hr | hr
    · exact h.retired r hr
    · exact h.active r.host hr
  · show p ∈ l.book call (l.stock.step env getLocation call) ↔ _
    simp only [Ledger.book, List.mem_append, List.mem_filter, Bool.or_eq_true, Bool.not_eq_true',
      decide_eq_true_eq]
    constructor
    · rintro (⟨hp, hdel | hheld⟩ | ⟨hp, -⟩)
      · exact h.holds_step hsep ((h.added p).mp hp) hdel
      · exact hheld
      · exact Or.inl hp
    · intro hheld
      by_cases hp : p ∈ l.added
      · exact Or.inl ⟨hp, Or.inr hheld⟩
      · rcases hheld with hheld | hheld
        · exact Or.inr ⟨hheld, hp⟩
        · refine absurd ((h.added p).mpr ?_) hp
          obtain ⟨r, hr, rfl⟩ := RetiredTable.mem_pairs.mp hheld
          rcases hretired r hr with hr | hr
          · exact Or.inr (RetiredTable.mem_pairs.mpr ⟨r, hr, rfl⟩)
          · exact Or.inl (mem_pairs.mpr ⟨r.host, hr, rfl⟩)

theorem decommissioned_of_separates {want : List Pair} {stamp actor : String}
    (hsep : Separates l (.decommission want stamp actor false)) (hp : p ∈ want) :
    (∀ d ∈ l.stock.active.rows, d.pair = p →
      p ∉ pairs (l.stock.decommission getLocation want stamp actor false).active.rows ∧
        (⟨d, stamp, actor⟩ : RetiredHost) ∈
          (l.stock.decommission getLocation want stamp actor false).retired.rows) ∧
    (p ∉ pairs l.stock.active.rows → ∀ r ∈ l.stock.retired.rows, r.pair = p →
      p ∉ pairs (l.stock.decommission getLocation want stamp actor false).active.rows ∧
        r ∈ (l.stock.decommission getLocation want stamp actor false).retired.rows) := by
  by_cases hmoving : moving l.stock.active.rows want = []
  · rw [Stock.decommission, if_pos hmoving]
    refine ⟨fun d hd hpair => ?_, fun hfree r hr _ => ⟨hfree, hr⟩⟩
    have hin : d ∈ moving l.stock.active.rows want := mem_moving.mpr ⟨hd, hpair ▸ hp⟩
    rw [hmoving] at hin
    cases hin
  · obtain ⟨hretired, hactive⟩ := @decommission_of_moving getLocation _ _ stamp actor false hmoving
    have hgone : p ∉ pairs (l.stock.decommission getLocation want stamp actor false).active.rows := by
      intro hin
      obtain ⟨d, hd, rfl⟩ := mem_pairs.mp hin
      exact ((hactive d).mp hd).2 rfl hp
    refine ⟨fun d hd hpair => ⟨hgone, ?_⟩, fun hfree r hr hpair => ?_⟩
    · exact (hretired _).mpr (mem_retiring.mpr (Or.inr ⟨d, hd, hpair ▸ hp, rfl⟩))
    · refine absurd (hsep.resolve_left hmoving p hp ?_) hfree
      exact RetiredTable.mem_pairs.mpr ⟨r, hr, hpair⟩

theorem Sound.reactivated (h : Sound getLocation l) {want : List Pair} (hp : p ∈ want) :
    (∀ d ∈ l.stock.active.rows, d.pair = p →
      d ∈ (l.stock.reactivate getLocation want false).active.rows ∧
        p ∉ (l.stock.reactivate getLocation want false).retired.pairs) ∧
    (p ∉ pairs l.stock.active.rows → ∀ r ∈ l.stock.retired.rows, r.pair = p →
      r.host ∈ (l.stock.reactivate getLocation want false).active.rows ∧
        p ∉ (l.stock.reactivate getLocation want false).retired.pairs) := by
  obtain ⟨hactive, hretired⟩ := reactivate_spec h.retired want false
  have hgone : p ∉ (l.stock.reactivate getLocation want false).retired.pairs := by
    intro hin
    obtain ⟨r, hr, rfl⟩ := RetiredTable.mem_pairs.mp hin
    exact ((hretired r).mp hr).2 rfl hp
  refine ⟨fun d hd _ => ⟨(hactive d).mpr (Or.inl hd), hgone⟩, fun hfree r hr hpair => ⟨?_, hgone⟩⟩
  rw [← hpair] at hp hfree
  exact (hactive _).mpr (Or.inr (mem_restored.mpr ⟨r, hr, hp, hfree, rfl⟩))

theorem not_mem_upserted {s : Stock} (entries : List Entry) (hp : p ∈ s.retired.pairs)
    (hfree : p ∉ pairs s.active.rows) :
    p ∉ pairs (s.upsertDevices env getLocation entries).active.rows := by
  rcases @upsertDevices_cases env getLocation s entries with hsame | ⟨rows, -, -, hmem, -, hnew⟩
  · rw [hsame]
    exact hfree
  · intro hin
    obtain ⟨d, hd, rfl⟩ := mem_pairs.mp hin
    exact hnew d ((hmem d).mp hd) hfree hp

theorem mem_upsertDevices {s : Stock} {entries : List Entry} {rows : List Host}
    (hrows : upsertRows env getLocation s.active.rows entries = .ok rows)
    (hplaced : ∀ d ∈ rows, d ∈ s.active.rows ∨ placed getLocation d = true)
    (hfree : ∀ e ∈ entries, (e.group, e.ip) ∈ s.retired.pairs → (e.group, e.ip) ∈ pairs s.active.rows)
    (d : Host) : d ∈ (s.upsertDevices env getLocation entries).active.rows ↔ d ∈ rows := by
  obtain ⟨hnodup, hpairs⟩ := upsertRows_ok hrows s.active.keys
  obtain ⟨table, hok⟩ := @writeDevices_of getLocation s.active rows s.retired.pairs [] hnodup hplaced
    (fun d hd hnew _ hretired => by
      rcases (hpairs d.pair).mp (mem_pairs.mpr ⟨d, hd, rfl⟩) with hold | ⟨e, he, hpair⟩
      · exact hnew hold
      · rw [← hpair] at hnew hretired
        exact hnew (hfree e he hretired))
  rw [Stock.upsertDevices, hrows]
  show d ∈ (s.write getLocation [] rows).active.rows ↔ _
  rw [Stock.write, hok]
  exact (writeDevices_ok hok).1 d

theorem Sound.keeps (h : Sound getLocation l) (hsep : Separates l call) :
    Keeps env getLocation l call where
  held p hp := ((@Sound.step env getLocation l call h hsep).added p).mp hp
  activeKeys := (l.stock.step env getLocation call).active.keys
  retiredKeys := (l.stock.step env getLocation call).retired.keys
  decommissioned := by
    rintro want stamp actor rfl p hp
    exact decommissioned_of_separates hsep hp
  reactivated := by
    rintro want rfl p hp
    exact h.reactivated hp
  upserted := by
    rintro entries rfl p hp hfree
    exact not_mem_upserted entries hp hfree
  unblocked := by
    rintro entries rows rfl hrows hplaced hfree d
    exact mem_upsertDevices hrows hplaced hfree d

theorem Sound.separates (h : Sound getLocation l)
    (hkeeps : Keeps env getLocation l call) : Separates l call := by
  cases call with
  | decommission want stamp actor interrupted =>
    by_contra hmixed
    rw [Separates, not_or] at hmixed
    push Not at hmixed
    obtain ⟨hmoving, p, hwant, hretired, hfree⟩ := hmixed
    obtain ⟨hretired', hactive⟩ :=
      @decommission_of_moving getLocation _ _ stamp actor interrupted hmoving
    have hbooked : p ∈ (l.step env getLocation (.decommission want stamp actor interrupted)).added :=
      List.mem_append_left _ (List.mem_filter.mpr ⟨(h.added p).mpr (Or.inr hretired), rfl⟩)
    rcases hkeeps.held p hbooked with hin | hin
    · obtain ⟨d, hd, rfl⟩ := mem_pairs.mp hin
      exact hfree (mem_pairs.mpr ⟨d, ((hactive d).mp hd).1, rfl⟩)
    · obtain ⟨r, hr, rfl⟩ := RetiredTable.mem_pairs.mp hin
      rcases mem_retiring.mp ((hretired' r).mp hr) with ⟨-, hout⟩ | ⟨d, hd, -, rfl⟩
      · exact hout hwant
      · exact hfree (mem_pairs.mpr ⟨d, hd, rfl⟩)
  | _ => exact True.intro

/-- Every call of a run keeps the devices exactly if no decommissioning asks for an active device
together with one that is decommissioned and not active. -/
theorem run_keeps_iff (env : Codec) (getLocation : String → Option Location) (calls : List Call)
    (l : Ledger) :
    Run (Ledger.step env getLocation) (Keeps env getLocation) Ledger.empty calls l ↔
      Run (Ledger.step env getLocation) Separates Ledger.empty calls l := by
  constructor
  · intro hrun
    refine hrun.mono (I := Sound getLocation) (fun l call h hkeeps => ?_)
      (fun l call h hkeeps => h.separates hkeeps) sound_empty
    exact h.step (h.separates hkeeps)
  · intro hrun
    exact hrun.mono (I := Sound getLocation) (fun l call h hsep => h.step hsep)
      (fun l call h hsep => h.keeps hsep) sound_empty

end Run

/-! ## A device is lost -/

/-- A codec for rows of the one transport. -/
def sshCodec : Codec where
  python := ⟨fun _ => "", fun _ => none⟩
  loads := fun _ => some (.obj [("ssh", .int 22)])
  dumps := fun _ => "\x7b\"ssh\":22\x7d"
  encrypt := id

def milano (id : String) : Option Location :=
  if id = "hq" then some ⟨"hq", "acme", "central"⟩ else none

def newDevice (ip : String) : Entry where
  ip := ip
  vendor := "cisco"
  profile := "ios"
  username := ""
  password := ""
  enableSecret := ""
  group := "acme"
  location := some "hq"

/-- Two devices are added, one is decommissioned, and then both are asked for. -/
def decommissionTwice : List Call :=
  [.upsertDevices [newDevice "192.0.2.1", newDevice "192.0.2.2"],
    .decommission [("acme", "192.0.2.1")] "2026-10-09T12:00:00Z" "op" false,
    .decommission [("acme", "192.0.2.1"), ("acme", "192.0.2.2")] "2026-10-09T12:00:05Z" "op" false]

/-- The device that was decommissioned first is in neither table. -/
theorem retired_lost :
    Run (Ledger.step sshCodec milano) (fun _ _ => True) Ledger.empty decommissionTwice
      (decommissionTwice.foldl (Ledger.step sshCodec milano) Ledger.empty) ∧
    ¬ Run (Ledger.step sshCodec milano) (Keeps sshCodec milano) Ledger.empty decommissionTwice
      (decommissionTwice.foldl (Ledger.step sshCodec milano) Ledger.empty) := by
  have hlost : ("acme", "192.0.2.1") ∈
      (decommissionTwice.foldl (Ledger.step sshCodec milano) Ledger.empty).added ∧
      ¬ (decommissionTwice.foldl (Ledger.step sshCodec milano) Ledger.empty).stock.Holds
        ("acme", "192.0.2.1") := by
    decide
  refine ⟨.cons trivial (.cons trivial (.cons trivial (.nil _))), fun hrun => ?_⟩
  obtain _ | ⟨-, _ | ⟨-, _ | ⟨hkeeps, -⟩⟩⟩ := hrun
  exact hlost.2 (hkeeps.held _ hlost.1)

end SentinelNet.Inventory
