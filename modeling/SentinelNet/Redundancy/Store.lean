import SentinelNet.Observability.Events

/-!
# Redundancy groups

`redundancy/store.py` keeps the groups of devices that stand in for one another: pairs of firewalls,
stacks of switches, pairs of controllers.  A group belongs to a tenant; within a tenant its type and
name tell it apart, and no two groups have the same address of a logical device.

* `saveGroup`, `deleteGroup`, `findGroupByName`: the operations.
* `saveGroup_ok`, `saveGroup_known`: what a write leaves of the table.
-/

namespace SentinelNet.Redundancy

open Observability PyDict

/-! ## Rows -/

inductive GroupType where
  | haPair | stack | sso
  deriving DecidableEq

inductive MemberRole where
  | active | standby | master | member | unknown
  deriving DecidableEq

inductive MemberState where
  | ready | down | versionMismatch | standbyHot | rpDown | provisioned | unknown
  deriving DecidableEq

inductive GroupHealth where
  | ok | degraded | outOfSync | splitBrain | unknown
  deriving DecidableEq

/-- `DetectionSource`, as far as it is written. -/
inductive DetectionSource where
  | manual | fortiosApi | cliParser
  deriving DecidableEq

/-- A row of `redundancy_members`. -/
structure Member where
  deviceIp : Option String
  memberIndex : Option ℤ
  role : MemberRole
  serial : Option String
  normSerial : Option String
  model : Option String
  firmware : Option String
  state : MemberState
  mgmtIp : Option String
  priority : Option ℤ
  details : Dict Json

/-- A row of `redundancy_groups` with its members, in the order in which they are read. -/
structure Group where
  id : ℕ
  groupName : String
  groupType : GroupType
  name : String
  virtualIp : Option String
  logicalDeviceIp : Option String
  health : GroupHealth
  detectionSource : DetectionSource
  lastVerified : Option String
  members : List Member

/-- The groups in the order of their ids, and the id of the next one. -/
structure GroupStore where
  groups : List Group
  nextId : ℕ

def GroupStore.empty : GroupStore := ⟨[], 1⟩

/-! ## Operations -/

/-- The index of a member, nothing before all numbers. -/
def Member.indexKey (m : Member) : WithBot ℤ := m.memberIndex

/-- `ORDER BY member_index ASC, id ASC`. -/
abbrev indexLe (a b : Member) : Prop := a.indexKey ≤ b.indexKey

/-- The members in the order in which they are read. -/
def byIndex (members : List Member) : List Member := members.insertionSort indexLe

/-- `UNIQUE(group_name, group_type, name)` and `UNIQUE(logical_device_ip)`. -/
def Group.sameKey (a b : Group) : Bool :=
  (a.groupName = b.groupName && a.groupType = b.groupType && a.name = b.name) ||
    (a.logicalDeviceIp.isSome && a.logicalDeviceIp = b.logicalDeviceIp)

/-- `idx_members_group_norm_serial` and `idx_members_group_index`. -/
def membersClash (members : List Member) : Bool :=
  !(decide (members.filterMap Member.normSerial).Nodup &&
    decide (members.filterMap Member.memberIndex).Nodup)

/-- The indices refuse a row: another group has its key, or two members have one serial number or
one index. -/
def Clashes (s : GroupStore) (payload : Group) : Bool :=
  (s.groups.any fun g => g.id ≠ payload.id && g.sameKey payload) || membersClash payload.members

/-- The row that is written. -/
def Group.stored (payload : Group) (id : ℕ) : Group :=
  { payload with id := id, members := byIndex payload.members }

/-- `UPDATE` of a group, and its members written anew. -/
def GroupStore.replace (s : GroupStore) (payload : Group) : GroupStore :=
  { s with groups := s.groups.map fun g =>
      if g.id = payload.id then payload.stored payload.id else g }

/-- `INSERT` of a group. -/
def GroupStore.append (s : GroupStore) (payload : Group) : GroupStore where
  groups := s.groups ++ [payload.stored s.nextId]
  nextId := s.nextId + 1

/-- `save_group`; the id of a new group is 0. -/
def saveGroup (s : GroupStore) (payload : Group) : Except String (GroupStore × ℕ) :=
  if payload.id ≠ 0 then
    if s.groups.any fun g => g.id = payload.id then
      if Clashes s payload then .error "UNIQUE constraint failed"
      else .ok (s.replace payload, payload.id)
    else if payload.members.isEmpty then .ok (s, payload.id)
    else .error "FOREIGN KEY constraint failed"
  else if Clashes s payload then .error "UNIQUE constraint failed"
  else .ok (s.append payload, s.nextId)

def deleteGroup (s : GroupStore) (groupId : ℕ) : GroupStore :=
  { s with groups := s.groups.filter fun g => g.id ≠ groupId }

def findGroupByName (s : GroupStore) (groupName : String) (groupType : GroupType) (name : String) :
    Option Group :=
  s.groups.find? fun g => g.groupName = groupName ∧ g.groupType = groupType ∧ g.name = name

def findGroupByLogicalIp (s : GroupStore) (logicalIp : String) : Option Group :=
  s.groups.find? fun g => g.logicalDeviceIp = some logicalIp

/-! ## What the indices keep -/

theorem Group.sameKey_comm (a b : Group) : a.sameKey b = b.sameKey a := by
  unfold Group.sameKey
  rw [Bool.eq_iff_iff]
  simp only [Bool.or_eq_true, Bool.and_eq_true, decide_eq_true_eq]
  constructor
  · rintro (⟨⟨h₁, h₂⟩, h₃⟩ | ⟨hsome, heq⟩)
    · exact .inl ⟨⟨h₁.symm, h₂.symm⟩, h₃.symm⟩
    · exact .inr ⟨heq ▸ hsome, heq.symm⟩
  · rintro (⟨⟨h₁, h₂⟩, h₃⟩ | ⟨hsome, heq⟩)
    · exact .inl ⟨⟨h₁.symm, h₂.symm⟩, h₃.symm⟩
    · exact .inr ⟨heq ▸ hsome, heq.symm⟩

theorem byIndex_byIndex (members : List Member) : byIndex (byIndex members) = byIndex members :=
  (List.pairwise_insertionSort indexLe members).insertionSort_eq

theorem membersClash_byIndex (members : List Member) :
    membersClash (byIndex members) = membersClash members := by
  have hperm : (byIndex members).Perm members := List.perm_insertionSort indexLe members
  unfold membersClash
  rw [decide_eq_decide.mpr (hperm.filterMap Member.normSerial).nodup_iff,
    decide_eq_decide.mpr (hperm.filterMap Member.memberIndex).nodup_iff]

variable {s : GroupStore} {payload : Group}

theorem clashes_eq_false_iff : Clashes s payload = false ↔
    (∀ g ∈ s.groups, g.id ≠ payload.id → g.sameKey payload = false) ∧
      membersClash payload.members = false := by
  rw [Clashes, Bool.or_eq_false_iff, List.any_eq_false]
  refine and_congr_left fun _ => forall₂_congr fun g _ => ?_
  rw [Bool.and_eq_true, decide_eq_true_eq, not_and, Bool.not_eq_true]

/-- The indices hold of all groups where they hold of the one that is written, and of the others as
before. -/
theorem clashes_stored (hs : ∀ g ∈ s.groups, Clashes s g = false) {id : ℕ}
    (hnew : ∀ g ∈ s.groups, g.id ≠ id → g.sameKey payload = false)
    (hmembers : membersClash payload.members = false) {s' : GroupStore}
    (hs' : ∀ g ∈ s'.groups, g = payload.stored id ∨ (g ∈ s.groups ∧ g.id ≠ id)) :
    ∀ g ∈ s'.groups, Clashes s' g = false := by
  intro g hg
  rw [clashes_eq_false_iff]
  rcases hs' g hg with rfl | ⟨hold, hid⟩
  · refine ⟨fun g' hg' hne => ?_, (membersClash_byIndex _).trans hmembers⟩
    rcases hs' g' hg' with rfl | ⟨hold', hid'⟩
    · exact absurd rfl hne
    · exact hnew g' hold' hid'
  · have hbefore := clashes_eq_false_iff.mp (hs g hold)
    refine ⟨fun g' hg' hne => ?_, hbefore.2⟩
    rcases hs' g' hg' with rfl | ⟨hold', -⟩
    · rw [Group.sameKey_comm]
      exact hnew g hold hid
    · exact hbefore.1 g' hold' hne

/-! ## What is kept -/

/-- The groups have different ids below the next one, their members are in order, and the indices
hold. -/
structure WellKept (s : GroupStore) : Prop where
  next : 0 < s.nextId
  ids : (s.groups.map Group.id).Nodup
  range : ∀ g ∈ s.groups, 0 < g.id ∧ g.id < s.nextId
  sorted : ∀ g ∈ s.groups, byIndex g.members = g.members
  unique : ∀ g ∈ s.groups, Clashes s g = false

variable {g : Group}

theorem WellKept.eq_of_id (h : WellKept s) {g' : Group} (hg : g ∈ s.groups)
    (hg' : g' ∈ s.groups) (hid : g.id = g'.id) : g = g' :=
  List.inj_on_of_nodup_map h.ids hg hg' hid

theorem wellKept_empty : WellKept GroupStore.empty where
  next := Nat.one_pos
  ids := List.nodup_nil
  range _ hg := nomatch hg
  sorted _ hg := nomatch hg
  unique _ hg := nomatch hg

/-- What a write leaves: everything, a new group at the end, or one group replaced. -/
theorem saveGroup_ok {r : GroupStore × ℕ} (h : saveGroup s payload = .ok r) :
    r.1 = s ∨ (payload.id = 0 ∧ Clashes s payload = false ∧ r.1 = s.append payload) ∨
      (payload.id ≠ 0 ∧ Clashes s payload = false ∧ r.1 = s.replace payload) := by
  unfold saveGroup at h
  split at h
  · next hid =>
    split at h
    · split at h
      · cases h
      · next hclash =>
        obtain rfl := Except.ok.inj h
        exact .inr (.inr ⟨hid, Bool.eq_false_iff.mpr hclash, rfl⟩)
    · split at h
      · obtain rfl := Except.ok.inj h
        exact .inl rfl
      · cases h
  · next hid =>
    split at h
    · cases h
    · next hclash =>
      obtain rfl := Except.ok.inj h
      exact .inr (.inl ⟨not_not.mp hid, Bool.eq_false_iff.mpr hclash, rfl⟩)

theorem mem_replace (hg : g ∈ (s.replace payload).groups) :
    g = payload.stored payload.id ∨ (g ∈ s.groups ∧ g.id ≠ payload.id) := by
  obtain ⟨old, hold, rfl⟩ := List.mem_map.mp hg
  by_cases hid : old.id = payload.id
  · exact .inl (if_pos hid)
  · rw [if_neg hid]
    exact .inr ⟨hold, hid⟩

theorem mem_replace_of_ne (hg : g ∈ s.groups) (hid : g.id ≠ payload.id) :
    g ∈ (s.replace payload).groups :=
  List.mem_map.mpr ⟨g, hg, if_neg hid⟩

theorem map_id_replace (s : GroupStore) (payload : Group) :
    (s.replace payload).groups.map Group.id = s.groups.map Group.id := by
  rw [GroupStore.replace, List.map_map]
  refine List.map_congr_left fun g _ => ?_
  by_cases hg : g.id = payload.id
  · rw [Function.comp_apply, if_pos hg, hg]
    rfl
  · rw [Function.comp_apply, if_neg hg]

theorem WellKept.append (hs : WellKept s) (hid : payload.id = 0)
    (hclash : Clashes s payload = false) : WellKept (s.append payload) := by
  have hmem : ∀ g ∈ (s.append payload).groups,
      g = payload.stored s.nextId ∨ (g ∈ s.groups ∧ g.id ≠ s.nextId) := by
    intro g hg
    rcases List.mem_append.mp hg with hg | hg
    · exact .inr ⟨hg, (hs.range g hg).2.ne⟩
    · exact .inl (List.mem_singleton.mp hg)
  have hfree := clashes_eq_false_iff.mp hclash
  refine ⟨Nat.succ_pos _, ?_, fun g hg => ?_, fun g hg => ?_, ?_⟩
  · rw [GroupStore.append, List.map_append, List.nodup_append]
    refine ⟨hs.ids, List.nodup_singleton _, fun a ha b hb hab => ?_⟩
    obtain ⟨g, hg, rfl⟩ := List.mem_map.mp ha
    have hlt := (hs.range g hg).2
    rw [hab, List.mem_singleton.mp hb] at hlt
    exact Nat.lt_irrefl _ hlt
  · rcases hmem g hg with rfl | ⟨hg, -⟩
    · exact ⟨hs.next, Nat.lt_succ_self _⟩
    · exact ⟨(hs.range g hg).1, (hs.range g hg).2.trans (Nat.lt_succ_self _)⟩
  · rcases hmem g hg with rfl | ⟨hg, -⟩
    · exact byIndex_byIndex _
    · exact hs.sorted g hg
  · refine clashes_stored hs.unique (fun g hg _ => hfree.1 g hg ?_) hfree.2 hmem
    rw [hid]
    exact (hs.range g hg).1.ne'

theorem WellKept.replace (hs : WellKept s) (hclash : Clashes s payload = false) :
    WellKept (s.replace payload) := by
  have hfree := clashes_eq_false_iff.mp hclash
  refine ⟨hs.next, ?_, fun g hg => ?_, fun g hg => ?_, ?_⟩
  · rw [map_id_replace]
    exact hs.ids
  · have hid : g.id ∈ s.groups.map Group.id := by
      rw [← map_id_replace s payload]
      exact List.mem_map_of_mem hg
    obtain ⟨old, hold, hid⟩ := List.mem_map.mp hid
    rw [← hid]
    exact hs.range old hold
  · rcases mem_replace hg with rfl | ⟨hg, -⟩
    · exact byIndex_byIndex _
    · exact hs.sorted g hg
  · exact clashes_stored hs.unique hfree.1 hfree.2 fun g hg => mem_replace hg

theorem WellKept.save (hs : WellKept s) {r : GroupStore × ℕ}
    (h : saveGroup s payload = .ok r) : WellKept r.1 := by
  rcases saveGroup_ok h with hr | ⟨hid, hclash, hr⟩ | ⟨-, hclash, hr⟩
  · rw [hr]
    exact hs
  · rw [hr]
    exact hs.append hid hclash
  · rw [hr]
    exact hs.replace hclash

theorem WellKept.delete (hs : WellKept s) (groupId : ℕ) : WellKept (deleteGroup s groupId) where
  next := hs.next
  ids := hs.ids.sublist (List.filter_sublist.map _)
  range g hg := hs.range g (List.mem_of_mem_filter hg)
  sorted g hg := hs.sorted g (List.mem_of_mem_filter hg)
  unique g hg := by
    have hbefore := clashes_eq_false_iff.mp (hs.unique g (List.mem_of_mem_filter hg))
    exact clashes_eq_false_iff.mpr
      ⟨fun g' hg' => hbefore.1 g' (List.mem_of_mem_filter hg'), hbefore.2⟩

/-! ## Changes -/

/-- A write with the id of a group replaces it, or an index refuses it. -/
theorem saveGroup_known (hid : payload.id ≠ 0) (hthere : ∃ g ∈ s.groups, g.id = payload.id) :
    saveGroup s payload =
      if Clashes s payload then .error "UNIQUE constraint failed"
      else .ok (s.replace payload, payload.id) := by
  have hany : (s.groups.any fun g => g.id = payload.id) = true := by
    obtain ⟨g, hg, hgid⟩ := hthere
    exact List.any_eq_true.mpr ⟨g, hg, decide_eq_true hgid⟩
  rw [saveGroup, if_pos hid, if_pos hany]

def ofTenant (s : GroupStore) (tenant : String) : List Group :=
  s.groups.filter fun g => g.groupName = tenant

variable {tenant : String}

theorem mem_ofTenant : g ∈ ofTenant s tenant ↔ g ∈ s.groups ∧ g.groupName = tenant := by
  rw [ofTenant, List.mem_filter, decide_eq_true_eq]

theorem ofTenant_append (htenant : tenant ≠ payload.groupName) :
    ofTenant (s.append payload) tenant = ofTenant s tenant := by
  have hout : decide ((payload.stored s.nextId).groupName = tenant) ≠ true := fun h =>
    htenant (of_decide_eq_true h).symm
  rw [ofTenant, GroupStore.append, List.filter_append, List.filter_cons, if_neg hout,
    List.filter_nil, List.append_nil, ofTenant]

/-- A group that is replaced by one of a tenant, where it was one of this tenant, changes no other
tenant. -/
theorem ofTenant_replace (hs : WellKept s) {old : Group} (hold : old ∈ s.groups)
    (hid : payload.id = old.id) (hname : old.groupName = payload.groupName)
    (htenant : tenant ≠ payload.groupName) :
    ofTenant (s.replace payload) tenant = ofTenant s tenant := by
  have hkeep : ∀ g ∈ s.groups, g.id = payload.id → g.groupName = payload.groupName := by
    intro g hg hgid
    rw [hs.eq_of_id hg hold (hgid.trans hid), hname]
  show (s.groups.map _).filter _ = s.groups.filter _
  clear hold hs
  generalize s.groups = groups at hkeep ⊢
  induction groups with
  | nil => rfl
  | cons g groups ih =>
    have ih := ih (List.forall_mem_cons.mp hkeep).2
    rw [List.map_cons]
    by_cases hgid : g.id = payload.id
    · have hout : decide (g.groupName = tenant) ≠ true := fun h =>
        htenant ((of_decide_eq_true h).symm.trans (hkeep g List.mem_cons_self hgid))
      have hstored : decide ((payload.stored payload.id).groupName = tenant) ≠ true := fun h =>
        htenant (of_decide_eq_true h).symm
      rw [if_pos hgid, List.filter_cons, if_neg hstored, List.filter_cons, if_neg hout, ih]
    · rw [if_neg hgid, List.filter_cons, List.filter_cons, ih]

theorem ofTenant_delete (hs : WellKept s) {old : Group} (hold : old ∈ s.groups)
    (htenant : tenant ≠ old.groupName) :
    ofTenant (deleteGroup s old.id) tenant = ofTenant s tenant := by
  show (s.groups.filter _).filter _ = s.groups.filter _
  rw [List.filter_filter]
  refine List.filter_congr fun g hg => ?_
  rw [Bool.and_eq_left_iff_imp]
  intro hname
  refine decide_eq_true fun hid => htenant ?_
  rw [← hs.eq_of_id hg hold hid]
  exact (of_decide_eq_true hname).symm

end SentinelNet.Redundancy
