import SentinelNet.Inventory.Hosts
import SentinelNet.Lib.Assoc

/-!
# The events of an inventory write

`services/device_history.py` compares the rows of the inventory before and after a write.  A device
is told by its organization and its address; of its credentials only whether they are set is kept.

* `Host.snapshot`, `changes`: what is kept of a row, and what differs between two rows.
* `diff`, `recordEvents`: the events of a write.
* `replay`: what the events make of the devices that there were.
* `agrees_recordAll`: so do the events of any sequence of writes.
-/

namespace SentinelNet.History

open Assoc
open Inventory (Host)

/-! ## What is kept of a row -/

/-- The columns of `_FIELDS`. -/
structure Tracked where
  ip : String
  hostname : String
  vendor : String
  profile : String
  group : String
  probe : String
  username : String
  sshPort : String
  transports : String
  snmpDisabled : String
  deriving DecidableEq

/-- Whether the columns of `_SECRETS` are set. -/
structure Marks where
  password : Bool
  enableSecret : Bool
  snmpCommunity : Bool
  deriving DecidableEq

/-- The device of an event. -/
structure Snapshot where
  tracked : Tracked
  marks : Marks
  deriving DecidableEq

/-- `_key`: organization and address. -/
abbrev Key := String × String

/-- The tracked columns of a row. -/
def tracked (d : Host) : Tracked :=
  ⟨d.ip, d.hostname, d.vendor, d.profile, d.group, d.probe, d.username, d.sshPort, d.transports,
    d.snmpDisabled⟩

/-- Which credentials of a row are set. -/
def marks (d : Host) : Marks := ⟨d.password ≠ "", d.enableSecret ≠ "", d.snmpCommunity ≠ ""⟩

def snapshot (d : Host) : Snapshot := ⟨tracked d, marks d⟩

def Snapshot.key (s : Snapshot) : Key := (s.tracked.group, s.tracked.ip)

def Tracked.columns (t : Tracked) : List (String × String) :=
  [("IP", t.ip), ("Hostname", t.hostname), ("Vendor", t.vendor), ("Profile", t.profile),
    ("Group", t.group), ("Probe", t.probe), ("Username", t.username), ("SSH Port", t.sshPort),
    ("Transports", t.transports), ("SNMP Disabled", t.snmpDisabled)]

/-- The credentials of a row with their names. -/
def secrets (d : Host) : List (String × String) :=
  [("Password", d.password), ("Enable Secret", d.enableSecret),
    ("SNMP Community", d.snmpCommunity)]

/-- How a credential is shown. -/
def mark (v : String) : String := if v = "" then "" else "set"

/-! ## Events -/

/-- What differs: the column, its old and its new value. -/
abbrev Change := String × String × String

section Diff

-- `decrypt_password`
variable (decrypt : String → String)

def changes (old new : Host) : List Change :=
  (((tracked old).columns.zip (tracked new).columns).filter fun p => p.1.2 ≠ p.2.2).map
      (fun p => (p.1.1, p.1.2, p.2.2)) ++
    (((secrets old).zip (secrets new)).filter fun p => decrypt p.1.2 ≠ decrypt p.2.2).map
      fun p => (p.1.1, mark p.1.2, mark p.2.2)

/-- An event of `diff`. -/
structure Found where
  kind : String
  device : Snapshot
  changes : Option (List Change)

def byKey (rows : List Host) : List (Key × Host) := rows.foldl (fun d r => put d r.pair r) []

/-- The event of a row of the new inventory. -/
def foundNew (old : List (Key × Host)) (e : Key × Host) : Option Found :=
  match find old e.1 with
  | none => some ⟨"added", snapshot e.2, none⟩
  | some before =>
    match changes decrypt before e.2 with
    | [] => none
    | ch => some ⟨"changed", snapshot e.2, some ch⟩

/-- The event of a row of the old inventory. -/
def foundOld (new : List (Key × Host)) (e : Key × Host) : Option Found :=
  match find new e.1 with
  | none => some ⟨"removed", snapshot e.2, none⟩
  | some _ => none

def diff (oldRows newRows : List Host) : List Found :=
  (byKey newRows).filterMap (foundNew decrypt (byKey oldRows)) ++
    (byKey oldRows).filterMap (foundOld (byKey newRows))

/-- A line of the log. -/
structure Event where
  kind : String
  device : Snapshot
  changes : Option (List Change)
  id : String
  ts : ℚ
  actor : String
  tenant : String
  source : Option String := none
  deriving DecidableEq

/-- What a call of `record` takes from outside: the ids that it draws, the clock and the actor. -/
structure Stamp where
  ids : ℕ → String
  ts : ℚ
  actor : String

/-- The argument `relabel` of an inventory write: none, or that of `decommission` or `reactivate`. -/
inductive Relabel where
  | plain
  | decommission
  | reactivate
  deriving DecidableEq

/-- `relabel.get(kind, kind)`. -/
def Relabel.apply : Relabel → String → String
  | .decommission, "removed" => "decommissioned"
  | .reactivate, "added" => "reactivated"
  | _, kind => kind

def Found.event (relabel : Relabel) (stamp : Stamp) (f : Found) (n : ℕ) : Event where
  kind := relabel.apply f.kind
  device := f.device
  changes := f.changes
  id := stamp.ids n
  ts := stamp.ts
  actor := stamp.actor
  tenant := f.device.tracked.group

def recordEvents (oldRows newRows : List Host) (relabel : Relabel) (stamp : Stamp) : List Event :=
  (diff decrypt oldRows newRows).zipIdx.map fun p => p.1.event relabel stamp p.2

/-- An inventory write: the rows after it. -/
structure Write where
  rows : List Host
  relabel : Relabel
  stamp : Stamp

def recordAll : List Host → List Write → List Event
  | _, [] => []
  | old, w :: ws => recordEvents decrypt old w.rows w.relabel w.stamp ++ recordAll w.rows ws

def lastRows : List Host → List Write → List Host
  | first, [] => first
  | _, w :: ws => lastRows w.rows ws

end Diff

/-! ## Replay -/

/-- `DH_BUCKET` of `static/js/device-history.js`: what a kind of event counts as. -/
def bucket : String → String
  | "decommissioned" => "removed"
  | "reactivated" => "added"
  | kind => kind

/-- The devices that there are, as far as events tell. -/
abbrev Devices := Key → Option Snapshot

def Event.key (e : Event) : Key := (e.tenant, e.device.tracked.ip)

def Event.leaves (e : Event) : Option Snapshot :=
  if bucket e.kind = "removed" then none else some e.device

def replay (m : Devices) (es : List Event) : Devices :=
  es.foldl (fun m e => Function.update m e.key e.leaves) m

def devices (rows : List Host) : Devices := fun k => (find (byKey rows) k).map snapshot

/-- Events tell the same of every device as rows do, as far as it is looked at. -/
def Agrees {γ : Type} (look : Snapshot → γ) (m : Devices) (rows : List Host) : Prop :=
  ∀ k, (m k).map look = (devices rows k).map look

/-! ### Rows by key -/

section ByKey

variable {rows : List Host} {k : Key} {d : Host}

theorem byKey_concat (rows : List Host) (d : Host) :
    byKey (rows ++ [d]) = put (byKey rows) d.pair d := List.foldl_concat ..

theorem nodup_byKey (rows : List Host) : ((byKey rows).map Prod.fst).Nodup := by
  induction rows using List.reverseRecOn with
  | nil => exact List.nodup_nil
  | append_singleton rows d ih =>
    rw [byKey_concat]
    exact nodup_put ih d.pair d

theorem pair_of_mem_byKey (h : (k, d) ∈ byKey rows) : d.pair = k := by
  induction rows using List.reverseRecOn with
  | nil => cases h
  | append_singleton rows r ih =>
    rw [byKey_concat] at h
    rcases mem_put h with heq | h
    · obtain ⟨rfl, rfl⟩ := Prod.mk.inj heq
      rfl
    · exact ih h

theorem key_snapshot (h : (k, d) ∈ byKey rows) : (snapshot d).key = k := pair_of_mem_byKey h

end ByKey

/-! ### Replaying -/

section Replay

variable {m : Devices} {es : List Event} {k : Key}

theorem replay_of_forall_ne (h : ∀ e ∈ es, e.key ≠ k) : replay m es k = m k := by
  induction es generalizing m with
  | nil => rfl
  | cons e es ih =>
    rw [replay, List.foldl_cons, ← replay, ih fun e' he' => h e' (List.mem_cons_of_mem e he')]
    exact Function.update_of_ne (h e List.mem_cons_self).symm _ _

theorem replay_of_mem {v : Option Snapshot} (hall : ∀ e ∈ es, e.key = k → e.leaves = v)
    (h : ∃ e ∈ es, e.key = k) : replay m es k = v := by
  induction es generalizing m with
  | nil =>
    obtain ⟨e, he, _⟩ := h
    cases he
  | cons e es ih =>
    rw [replay, List.foldl_cons, ← replay]
    by_cases hlater : ∃ e' ∈ es, e'.key = k
    · exact ih (fun e' he' => hall e' (List.mem_cons_of_mem e he')) hlater
    · have hkey : e.key = k := by
        obtain ⟨e', he', hk⟩ := h
        rcases List.mem_cons.mp he' with rfl | he'
        · exact hk
        · exact absurd ⟨e', he', hk⟩ hlater
      rw [replay_of_forall_ne fun e' he' hk => hlater ⟨e', he', hk⟩, hkey, Function.update_self]
      exact hall e List.mem_cons_self hkey

theorem replay_append (m : Devices) (es es' : List Event) :
    replay m (es ++ es') = replay (replay m es) es' := List.foldl_append ..

end Replay

/-! ### The events of one write -/

section Record

variable {decrypt : String → String} {old new : List Host} {k : Key}

/-- An event of `diff` goes with its device. -/
structure Fits (old new : List Host) (f : Found) : Prop where
  kept : ∀ d, find (byKey new) f.device.key = some d →
    f.device = snapshot d ∧ f.kind ∈ ["added", "changed"]
  gone : find (byKey new) f.device.key = none → f.kind = "removed"

theorem fits_of_mem {f : Found} (h : f ∈ diff decrypt old new) : Fits old new f := by
  rcases List.mem_append.mp h with h | h
  · obtain ⟨⟨k, d⟩, hd, hf⟩ := List.mem_filterMap.mp h
    have hfind : find (byKey new) k = some d := find_of_mem (nodup_byKey new) hd
    have hdevice : f.device = snapshot d ∧ f.kind ∈ ["added", "changed"] := by
      unfold foundNew at hf
      split at hf
      · rw [← Option.some.inj hf]
        exact ⟨rfl, by simp⟩
      · split at hf
        · cases hf
        · rw [← Option.some.inj hf]
          exact ⟨rfl, by simp⟩
    have hkey : f.device.key = k := by rw [hdevice.1, key_snapshot hd]
    rw [← hkey] at hfind
    constructor
    · intro d' hd'
      obtain rfl := Option.some.inj (hfind.symm.trans hd')
      exact hdevice
    · intro hnone
      exact nomatch hfind.symm.trans hnone
  · obtain ⟨⟨k, d⟩, hd, hf⟩ := List.mem_filterMap.mp h
    unfold foundOld at hf
    split at hf
    · next hnone =>
      obtain rfl := Option.some.inj hf
      have hkey : (snapshot d).key = k := key_snapshot hd
      refine ⟨fun d' hd' => ?_, fun _ => rfl⟩
      rw [hkey, hnone] at hd'
      cases hd'
    · cases hf

theorem nothing_to_tell (h : ∀ f ∈ diff decrypt old new, f.device.key ≠ k) :
    (find (byKey old) k = none ∧ find (byKey new) k = none) ∨
      ∃ before after, find (byKey old) k = some before ∧ find (byKey new) k = some after ∧
        changes decrypt before after = [] := by
  cases hnew : find (byKey new) k with
  | none =>
    cases hold : find (byKey old) k with
    | none => exact .inl ⟨rfl, rfl⟩
    | some before =>
      have hmem : (k, before) ∈ byKey old := mem_of_find hold
      refine absurd (key_snapshot hmem) (h ⟨"removed", snapshot before, none⟩
        (List.mem_append_right _ (List.mem_filterMap.mpr ⟨_, hmem, ?_⟩)))
      simp only [foundOld, hnew]
  | some after =>
    have hmem : (k, after) ∈ byKey new := mem_of_find hnew
    cases hold : find (byKey old) k with
    | none =>
      refine absurd (key_snapshot hmem) (h ⟨"added", snapshot after, none⟩
        (List.mem_append_left _ (List.mem_filterMap.mpr ⟨_, hmem, ?_⟩)))
      simp only [foundNew, hold]
    | some before =>
      refine .inr ⟨before, after, rfl, rfl, ?_⟩
      cases hch : changes decrypt before after with
      | nil => rfl
      | cons c cs =>
        refine absurd (key_snapshot hmem) (h ⟨"changed", snapshot after, some (c :: cs)⟩
          (List.mem_append_left _ (List.mem_filterMap.mpr ⟨_, hmem, ?_⟩)))
        simp only [foundNew, hold, hch]

variable {relabel : Relabel} {stamp : Stamp}

theorem bucket_apply {kind : String} (h : kind ∈ ["added", "changed", "removed"]) :
    bucket (relabel.apply kind) = kind := by
  simp only [List.mem_cons, List.not_mem_nil, or_false] at h
  rcases h with rfl | rfl | rfl <;> cases relabel <;> rfl

theorem mem_recordEvents {e : Event} (h : e ∈ recordEvents decrypt old new relabel stamp) :
    ∃ f ∈ diff decrypt old new, ∃ n, e = f.event relabel stamp n := by
  obtain ⟨⟨f, n⟩, hf, rfl⟩ := List.mem_map.mp h
  exact ⟨f, (List.mem_zipIdx' hf).2 ▸ List.getElem_mem _, n, rfl⟩

theorem exists_recordEvents {f : Found} (h : f ∈ diff decrypt old new) :
    ∃ e ∈ recordEvents decrypt old new relabel stamp, e.key = f.device.key := by
  obtain ⟨n, hn, rfl⟩ := List.getElem_of_mem h
  exact ⟨_, List.mem_map.mpr ⟨((diff decrypt old new)[n], n),
    List.mem_zipIdx_iff_getElem?.mpr (List.getElem?_eq_getElem hn), rfl⟩, rfl⟩

theorem leaves_event {f : Found} (h : f ∈ diff decrypt old new) (n : ℕ) :
    (f.event relabel stamp n).leaves = devices new f.device.key := by
  have hfits := fits_of_mem h
  rw [Event.leaves, devices]
  cases hfind : find (byKey new) f.device.key with
  | none =>
    have hkind := hfits.gone hfind
    have hbucket : bucket (f.event relabel stamp n).kind = f.kind :=
      bucket_apply (by rw [hkind]; simp)
    rw [hbucket, if_pos hkind]
    rfl
  | some d =>
    obtain ⟨hdevice, hkind⟩ := hfits.kept d hfind
    have hbucket : bucket (f.event relabel stamp n).kind = f.kind :=
      bucket_apply (by simp only [List.mem_cons, List.not_mem_nil, or_false] at hkind ⊢; tauto)
    have hne : f.kind ≠ "removed" := by
      rintro heq
      rw [heq] at hkind
      exact absurd hkind (by decide)
    rw [hbucket, if_neg hne]
    exact congrArg some hdevice

/-- **The events of a write** lead from what the rows before it say to what the rows after it say,
wherever rows that do not differ look the same. -/
theorem Agrees.record {γ : Type} {look : Snapshot → γ} {m : Devices} (h : Agrees look m old)
    (hlook : ∀ k before after, find (byKey old) k = some before →
      find (byKey new) k = some after → changes decrypt before after = [] →
      look (snapshot before) = look (snapshot after)) :
    Agrees look (replay m (recordEvents decrypt old new relabel stamp)) new := by
  intro k
  by_cases hevent : ∃ f ∈ diff decrypt old new, f.device.key = k
  · obtain ⟨f, hf, rfl⟩ := hevent
    rw [replay_of_mem (v := devices new f.device.key) ?_ (exists_recordEvents hf)]
    intro e he hkey
    obtain ⟨f', hf', n, rfl⟩ := mem_recordEvents he
    rw [leaves_event hf' n, ← hkey]
    rfl
  · have hne : ∀ f ∈ diff decrypt old new, f.device.key ≠ k := fun f hf hk => hevent ⟨f, hf, hk⟩
    have hnone : ∀ e ∈ recordEvents decrypt old new relabel stamp, e.key ≠ k := by
      intro e he
      obtain ⟨f, hf, n, rfl⟩ := mem_recordEvents he
      exact hne f hf
    rw [replay_of_forall_ne hnone, h k, devices, devices]
    rcases nothing_to_tell hne with ⟨hold, hnew⟩ | ⟨before, after, hold, hnew, hch⟩
    · rw [hold, hnew]
    · rw [hold, hnew]
      exact congrArg some (hlook k before after hold hnew hch)

end Record

/-! ## Main results -/

section Sequences

variable {decrypt : String → String}

theorem tracked_eq {before after : Host} (h : changes decrypt before after = []) :
    tracked before = tracked after := by
  have hcolumns := List.filter_eq_nil_iff.mp (List.map_eq_nil_iff.mp (List.append_eq_nil_iff.mp h).1)
  simp only [Tracked.columns, List.zip_cons_cons, List.zip_nil_right, List.mem_cons,
    List.not_mem_nil, or_false, forall_eq_or_imp, forall_eq, decide_eq_true_eq, not_not] at hcolumns
  obtain ⟨h1, h2, h3, h4, h5, h6, h7, h8, h9, h10⟩ := hcolumns
  cases hb : tracked before
  cases ha : tracked after
  simp_all only

/-- Where a credential says the same before and after a write, it is set in both or in none. -/
def Steady (decrypt : String → String) (old new : List Host) : Prop :=
  ∀ k before after, find (byKey old) k = some before → find (byKey new) k = some after →
    ∀ p ∈ (secrets before).zip (secrets after), decrypt p.1.2 = decrypt p.2.2 →
      (p.1.2 = "" ↔ p.2.2 = "")

theorem snapshot_eq {before after : Host} (h : changes decrypt before after = [])
    (hsteady : ∀ p ∈ (secrets before).zip (secrets after), decrypt p.1.2 = decrypt p.2.2 →
      (p.1.2 = "" ↔ p.2.2 = "")) : snapshot before = snapshot after := by
  have hsecrets :=
    List.filter_eq_nil_iff.mp (List.map_eq_nil_iff.mp (List.append_eq_nil_iff.mp h).2)
  simp only [secrets, List.zip_cons_cons, List.zip_nil_right, List.mem_cons, List.not_mem_nil,
    or_false, forall_eq_or_imp, forall_eq, decide_eq_true_eq, not_not] at hsecrets hsteady
  obtain ⟨hpassword, henable, hsnmp⟩ := hsecrets
  obtain ⟨hpassword', henable', hsnmp'⟩ := hsteady
  have hmarks : marks before = marks after := by
    simp only [marks, ne_eq, hpassword' hpassword, henable' henable, hsnmp' hsnmp]
  rw [snapshot, snapshot, tracked_eq h, hmarks]

/-- A condition on every write of a sequence: on the rows before it and after it. -/
def Along (P : List Host → List Host → Prop) : List Host → List Write → Prop
  | _, [] => True
  | old, w :: ws => P old w.rows ∧ Along P w.rows ws

/-- The events of a sequence of writes lead from what the first rows say to what the last say. -/
theorem agrees_recordAll {γ : Type} {look : Snapshot → γ} {P : List Host → List Host → Prop}
    (hlook : ∀ old new, P old new → ∀ k before after, find (byKey old) k = some before →
      find (byKey new) k = some after → changes decrypt before after = [] →
      look (snapshot before) = look (snapshot after))
    {first : List Host} {ws : List Write} {m : Devices} (h : Agrees look m first)
    (hws : Along P first ws) :
    Agrees look (replay m (recordAll decrypt first ws)) (lastRows first ws) := by
  induction ws generalizing first m with
  | nil => exact h
  | cons w ws ih =>
    rw [recordAll, replay_append]
    exact ih (h.record (hlook first w.rows hws.1)) hws.2

theorem agrees_devices {γ : Type} (look : Snapshot → γ) (rows : List Host) :
    Agrees look (devices rows) rows := fun _ => rfl

/-- **The events of any sequence of writes**, replayed over the first rows, give the devices of the
last rows with their tracked columns. -/
theorem tracked_recordAll (decrypt : String → String) (first : List Host) (ws : List Write) :
    Agrees Snapshot.tracked (replay (devices first) (recordAll decrypt first ws))
      (lastRows first ws) := by
  have halong : Along (fun _ _ => True) first ws := by
    induction ws generalizing first with
    | nil => trivial
    | cons w ws ih => exact ⟨trivial, ih w.rows⟩
  exact agrees_recordAll (fun _ _ _ _ _ _ _ _ hch => tracked_eq hch) (agrees_devices _ first) halong

theorem snapshot_recordAll {first : List Host} {ws : List Write}
    (hws : Along (Steady decrypt) first ws) :
    replay (devices first) (recordAll decrypt first ws) = devices (lastRows first ws) := by
  have hagrees := agrees_recordAll (P := Steady decrypt)
    (fun _ _ hsteady k before after hb ha hch => snapshot_eq hch (hsteady k before after hb ha))
    (agrees_devices id first) hws
  funext k
  simpa only [Option.map_id, id_eq] using hagrees k

end Sequences

end SentinelNet.History
