import SentinelNet.Lib.Outcomes
import SentinelNet.Lib.Text

/-!
# The segments of an organization

`services/segment_manager.py` keeps the zones that are drawn on the maps.  A node is to be in one
segment of its organization: who saves a segment takes its nodes from the other ones.  The other
segments are read before the transaction that writes begins, since Python's `sqlite3` begins a
transaction at the first write only.
-/

namespace SentinelNet.Segments

open PyText Outcomes

/-! ## Rows -/

/-- A row of `segments`. -/
structure Segment where
  id : String
  org : String
  name : String
  color : String
  subnets : List String
  members : List String
  excluded : List String
  cores : List String
  deriving DecidableEq

def colors : List String := ["amber", "teal", "violet", "rose", "lime", "sky"]

def cut (v : String) : String := String.ofList ((strip v).toList.take 200)

def trimmed (values : List String) : List String := (values.filter (strip · ≠ "")).map cut

def ids (values : List String) : Except String (List String) :=
  let out := (trimmed values).dedup.insertionSort (· ≤ ·)
  if 2000 < out.length then .error "Troppi apparati in un segmento." else .ok out

section Checks

-- `str(ipaddress.ip_network(raw, strict=False))`, if it is a network.
variable (network : String → Option String)

/-- `_subnets`, before sorting. -/
def networks : List String → Except String (List String)
  | [] => .ok []
  | raw :: rest =>
    if strip raw = "" then networks rest
    else
      match network (strip raw) with
      | none => .error ("Subnet non valida: " ++ strip raw)
      | some n => (networks rest).map (n :: ·)

def subnets (values : List String) : Except String (List String) :=
  (networks network values).map fun out => out.dedup.insertionSort (· ≤ ·)

/-- What `save_segment` is asked for. -/
structure SaveRequest where
  org : String
  segId : Option String
  name : String
  color : String
  subnets : List String := []
  members : List String := []
  excluded : List String := []
  cores : List String := []

/-- The checks of `save_segment` before it opens the database: the segment to save, under the given
id; `groups` are the organizations. -/
def SaveRequest.segment (req : SaveRequest) (groups : List String) (segId : String) :
    Except String Segment := do
  demand (req.org ∈ groups) ("Organizzazione '" ++ req.org ++ "' inesistente.")
  let name := strip req.name
  demand (name ≠ "" ∧ name.length ≤ 60)
    "Nome del segmento obbligatorio (massimo 60 caratteri)."
  demand (req.color ∈ colors) ("Colore non valido: " ++ req.color)
  let nets ← Segments.subnets network req.subnets
  let members ← ids req.members
  let excluded ← ids req.excluded
  let cores := (trimmed req.cores).eraseDups
  demand (cores.length ≤ 2) "Una zona ha al massimo 2 core."
  return ⟨segId, req.org, name, req.color, nets, members, excluded, cores⟩

variable {network}

theorem segment_id {req : SaveRequest} {groups : List String} {segId : String} {seg : Segment}
    (h : req.segment network groups segId = .ok seg) : seg.id = segId := by
  obtain ⟨_, _, h⟩ := bind_ok h
  obtain ⟨_, _, h⟩ := bind_ok h
  obtain ⟨_, _, h⟩ := bind_ok h
  obtain ⟨_, _, h⟩ := bind_ok h
  obtain ⟨_, _, h⟩ := bind_ok h
  obtain ⟨_, _, h⟩ := bind_ok h
  obtain ⟨_, _, h⟩ := bind_ok h
  rw [← Except.ok.inj h]

end Checks

/-! ## Transactions -/

/-- What a save reads of the other segments of its organization: ids and members. -/
def others (table : List Segment) (org segId : String) : List (String × List String) :=
  (table.filter fun r => r.org = org ∧ r.id ≠ segId).map fun r => (r.id, r.members)

def setMembers (members : List String) (segId : String) (r : Segment) : Segment :=
  if r.id = segId then { r with members := members } else r

/-- What the loop of a save makes of a row: the other segments become what they were when they were
read, without the nodes that are taken. -/
def rewriteRow (taken : List String) (read : List (String × List String)) (r : Segment) : Segment :=
  read.foldl (fun r p => setMembers (p.2.filter (· ∉ taken)) p.1 r) r

/-- The row that `INSERT … ON CONFLICT (id) DO UPDATE` leaves under the id of a segment; the
organization of a row stays. -/
def upsert (seg : Segment) (table : List Segment) : List Segment :=
  if table.any fun r => r.id = seg.id then
    table.map fun r => if r.id = seg.id then { seg with org := r.org } else r
  else table ++ [seg]

/-- The transaction of `save_segment`. -/
def writeSegment (seg : Segment) (read : List (String × List String)) (table : List Segment) :
    List Segment :=
  upsert seg (table.map (rewriteRow seg.members read))

/-- The rows that `delete_segment` finds. -/
def Segment.named (org segId : String) (r : Segment) : Bool := r.id = segId && r.org = org

/-- The transaction of `delete_segment`; without such a row it is an error, and nothing changes. -/
def deleteSegment (org segId : String) (table : List Segment) : List Segment :=
  table.filter fun r => !r.named org segId

/-! ## What a save makes of the rows -/

variable {seg r : Segment} {table : List Segment} {taken : List String}
  {read : List (String × List String)}

theorem mem_others {org segId : String} {p : String × List String}
    (h : p ∈ others table org segId) :
    ∃ r ∈ table, r.org = org ∧ r.id ≠ segId ∧ p = (r.id, r.members) := by
  obtain ⟨r, hr, rfl⟩ := List.mem_map.mp h
  obtain ⟨hr, hother⟩ := List.mem_filter.mp hr
  exact ⟨r, hr, (of_decide_eq_true hother).1, (of_decide_eq_true hother).2, rfl⟩

structure Rewritten (taken : List String) (read : List (String × List String)) (old new : Segment) :
    Prop where
  id : new.id = old.id
  org : new.org = old.org
  members : (old.id ∉ read.map Prod.fst ∧ new.members = old.members) ∨
    ∃ m, (old.id, m) ∈ read ∧ new.members = m.filter (· ∉ taken)

theorem rewriteRow_spec (taken : List String) (read : List (String × List String)) (r : Segment) :
    Rewritten taken read r (rewriteRow taken read r) := by
  induction read using List.reverseRecOn with
  | nil => exact ⟨rfl, rfl, .inl ⟨List.not_mem_nil, rfl⟩⟩
  | append_singleton read p ih =>
    rw [rewriteRow, List.foldl_concat, ← rewriteRow, setMembers]
    split
    · next hid =>
      refine ⟨ih.id, ih.org, .inr ⟨p.2, List.mem_append_right _ ?_, rfl⟩⟩
      rw [← ih.id, hid]
      exact List.mem_singleton_self p
    · next hid =>
      refine ⟨ih.id, ih.org, ?_⟩
      rcases ih.members with ⟨hunread, hsame⟩ | ⟨m, hm, hmembers⟩
      · refine .inl ⟨fun hmem => ?_, hsame⟩
        rw [List.map_append, List.mem_append] at hmem
        rcases hmem with hmem | hmem
        · exact hunread hmem
        · exact hid (ih.id.trans (List.mem_singleton.mp hmem))
      · exact .inr ⟨m, List.mem_append_left _ hm, hmembers⟩

theorem mem_writeSegment (h : r ∈ writeSegment seg read table) :
    (r.id = seg.id ∧ r.members = seg.members ∧
        (r.org = seg.org ∨ ∃ old ∈ table, old.id = seg.id ∧ r.org = old.org)) ∨
      (r.id ≠ seg.id ∧ ∃ old ∈ table, Rewritten seg.members read old r) := by
  rw [writeSegment, upsert] at h
  split at h
  · obtain ⟨r', hr', rfl⟩ := List.mem_map.mp h
    obtain ⟨old, hold, rfl⟩ := List.mem_map.mp hr'
    have hspec := rewriteRow_spec seg.members read old
    split
    · next hid =>
      exact .inl ⟨rfl, rfl, .inr ⟨old, hold, hspec.id.symm.trans hid, hspec.org⟩⟩
    · next hid => exact .inr ⟨hid, old, hold, hspec⟩
  · next hnew =>
    rcases List.mem_append.mp h with h | h
    · obtain ⟨old, hold, rfl⟩ := List.mem_map.mp h
      refine .inr ⟨fun hid => hnew ?_, old, hold, rewriteRow_spec seg.members read old⟩
      exact List.any_eq_true.mpr ⟨_, h, decide_eq_true hid⟩
    · obtain rfl := List.mem_singleton.mp h
      exact .inl ⟨rfl, rfl, .inl rfl⟩

theorem exists_saved (seg : Segment) (read : List (String × List String)) (table : List Segment) :
    ∃ r ∈ writeSegment seg read table, r.id = seg.id ∧ r.members = seg.members := by
  rw [writeSegment, upsert]
  split
  · next hany =>
    obtain ⟨r, hr, hid⟩ := List.any_eq_true.mp hany
    exact ⟨_, List.mem_map_of_mem hr, by rw [if_pos (of_decide_eq_true hid)],
      by rw [if_pos (of_decide_eq_true hid)]⟩
  · exact ⟨seg, List.mem_concat_self, rfl, rfl⟩

theorem exists_rewritten (hr : r ∈ table) (hid : r.id ≠ seg.id) :
    ∃ r' ∈ writeSegment seg read table, Rewritten seg.members read r r' := by
  have hspec := rewriteRow_spec seg.members read r
  have hmem : rewriteRow seg.members read r ∈ table.map (rewriteRow seg.members read) :=
    List.mem_map_of_mem hr
  have hother : (rewriteRow seg.members read r).id ≠ seg.id := hspec.id.trans_ne hid
  refine ⟨_, ?_, hspec⟩
  rw [writeSegment, upsert]
  split
  · exact List.mem_map.mpr ⟨_, hmem, if_neg hother⟩
  · exact List.mem_append_left _ hmem

/-! ## Reads that are still true -/

/-- What a save knows of the other segments is true where it matters: a segment that it read has
got no node since, apart from those that are taken; a segment that it did not read has neither a
node that is taken nor one that it read in another segment. -/
structure UpToDate (seg : Segment) (read : List (String × List String)) (table : List Segment) :
    Prop where
  known : ∀ r ∈ table, r.org = seg.org → r.id ≠ seg.id → ∀ m, (r.id, m) ∈ read →
    ∀ n ∈ r.members, n ∉ seg.members → n ∈ m
  unknown : ∀ r ∈ table, r.org = seg.org → r.id ≠ seg.id → r.id ∉ read.map Prod.fst →
    ∀ n ∈ r.members, n ∉ seg.members ∧
      ∀ p ∈ read, p.1 ∈ table.map Segment.id → n ∉ p.2

theorem upToDate_others (hids : (table.map Segment.id).Nodup) :
    UpToDate seg (others table seg.org seg.id) table where
  known r hr _ _ m hm n hn _ := by
    obtain ⟨r', hr', _, _, heq⟩ := mem_others hm
    obtain ⟨hid, rfl⟩ := Prod.mk.inj heq
    rwa [← List.inj_on_of_nodup_map hids hr hr' hid]
  unknown r hr horg hid hunread := by
    refine absurd (List.mem_map.mpr ⟨(r.id, r.members), ?_, rfl⟩) hunread
    exact List.mem_map.mpr ⟨r, List.mem_filter.mpr ⟨hr, decide_eq_true ⟨horg, hid⟩⟩, rfl⟩

end SentinelNet.Segments
