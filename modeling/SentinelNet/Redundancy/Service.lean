import SentinelNet.Lib.Runs
import SentinelNet.Lib.Text
import SentinelNet.Redundancy.Store

/-!
# Whose redundancy groups

`redundancy/service.py` writes the groups: an operator saves them by hand or deletes them, the
triage of a switch or a controller detects them, and so does the discovery of the clusters of a
firewall.  The triage finds a group by the address of the device, in all tenants, and lets groups
of the operator alone; the discovery finds it by the name of the cluster in the tenant, and does
not ask who wrote it.

* `saveManualGroup` to `discoverFgcp`: the writes.
* `RedundancyAction`, `redundancyStep`: the writes in any order.
* `run_spared_iff`: in every run the detections spare the others exactly where they are harmless.
-/

namespace SentinelNet.Redundancy

open Observability PyDict PyText StepRuns

/-! ## Health -/

def normalizeSerial (serial : Option String) : Option String :=
  (serial.map fun s => upper (String.ofList (s.toList.filter Char.isAlphanum))).filter (· ≠ "")

def MemberRole.leads (r : MemberRole) : Bool := r = .active || r = .master

def MemberState.fails (st : MemberState) : Bool :=
  st = .down || st = .rpDown || st = .versionMismatch

def computeHealth (groupType : GroupType) (members : List Member) : GroupHealth :=
  if 1 < members.countP fun m => m.role.leads then .splitBrain
  else if groupType ≠ .stack ∧ members.length < 2 then .degraded
  else if members.any fun m => m.state.fails then .degraded
  else .ok

/-! ## Groups of the operator -/

/-- A member of the payload of `save_manual_group`. -/
structure ManualMember where
  role : MemberRole := .unknown
  serial : Option String := none
  model : Option String := none
  firmware : Option String := none
  mgmtIp : Option String := none
  priority : Option ℤ := none
  state : MemberState := .ready
  details : Dict Json := []
  deviceIp : Option String := none

/-- The payload of `save_manual_group`; the id of a new group is 0. -/
structure ManualPayload where
  id : ℕ := 0
  groupName : String
  /-- Nothing where the text is no type. -/
  groupType : Option GroupType
  name : String
  virtualIp : Option String := none
  logicalDeviceIp : Option String := none
  members : List ManualMember := []

def given (value : Option String) : Bool := value.any (· ≠ "")

/-- A member with its place in the list. -/
def ManualMember.stored (m : ManualMember) (index : ℕ) : Member where
  deviceIp := m.deviceIp
  memberIndex := some index
  role := m.role
  serial := m.serial
  normSerial := normalizeSerial m.serial
  model := m.model
  firmware := m.firmware
  state := m.state
  mgmtIp := m.mgmtIp
  priority := m.priority
  details := m.details

/-- `group_dict`. -/
def manualGroup (payload : ManualPayload) (groupType : GroupType) (now : String) : Group :=
  let members := payload.members.zipIdx.map fun m => m.1.stored m.2
  { id := payload.id
    groupName := payload.groupName
    groupType := groupType
    name := payload.name
    virtualIp := payload.virtualIp
    logicalDeviceIp := payload.logicalDeviceIp
    health := computeHealth groupType members
    detectionSource := .manual
    lastVerified := some now
    members := members }

def saveManualGroup (s : GroupStore) (payload : ManualPayload) (now : String) :
    Except String GroupStore :=
  match payload.groupType with
  | none => .error "Invalid group_type"
  | some groupType =>
    if groupType = .haPair ∧ given payload.virtualIp = false then
      .error "HA pair requires virtual_ip"
    else if groupType ≠ .haPair ∧ given payload.logicalDeviceIp = false then
      .error "Stack/SSO group requires logical_device_ip"
    else if given payload.logicalDeviceIp && s.groups.any (fun g =>
        g.id ≠ payload.id && g.logicalDeviceIp = payload.logicalDeviceIp) then
      .error "Logical device IP already bound to group"
    else (saveGroup s (manualGroup payload groupType now)).map Prod.fst

/-! ## Groups from the triage -/

/-- A member that the parsers of the triage give. -/
structure CliMember where
  role : MemberRole := .member
  serial : Option String := none
  model : Option String := none
  state : MemberState := .ready
  /-- Nothing where the parser gives none. -/
  memberIndex : Option ℤ := none
  details : Dict Json := []

/-- A member with its place in the list. -/
def CliMember.stored (deviceIp : String) (m : CliMember) (index : ℕ) : Member where
  deviceIp := some deviceIp
  memberIndex := some (m.memberIndex.getD index)
  role := m.role
  serial := m.serial
  normSerial := normalizeSerial m.serial
  model := m.model
  firmware := none
  state := m.state
  mgmtIp := some deviceIp
  priority := none
  details := m.details

/-- The payload of `upsert_redundancy_from_cli`. -/
def cliGroup (id : ℕ) (groupName deviceIp name : String) (members : List CliMember)
    (groupType : GroupType) (now : String) : Group :=
  let members := members.zipIdx.map fun m => m.1.stored deviceIp m.2
  { id := id
    groupName := groupName
    groupType := groupType
    name := name
    virtualIp := none
    logicalDeviceIp := some deviceIp
    health := computeHealth groupType members
    detectionSource := .cliParser
    lastVerified := some now
    members := members }

/-- `upsert_redundancy_from_cli`; a device that stands alone has no members. -/
def upsertRedundancyFromCli (s : GroupStore) (groupName deviceIp name : String)
    (members : List CliMember) (groupType : GroupType) (now : String) : Except String GroupStore :=
  let existing := findGroupByLogicalIp s deviceIp
  if existing.any fun g => g.detectionSource = .manual then .ok s
  else if members.isEmpty then
    match existing with
    | some g => .ok (deleteGroup s g.id)
    | none => .ok s
  else
    (saveGroup s (cliGroup (existing.elim 0 Group.id) groupName deviceIp name members groupType
      now)).map Prod.fst

/-! ## Clusters of firewalls -/

/-- What `parse_ha_status` reads. -/
structure ClusterInfo where
  name : String
  virtualIp : Option String
  health : GroupHealth
  members : List ManualMember

inductive FgcpAnswer where
  | unreachable
  /-- `parse_ha_status` raises. -/
  | unreadable
  | cluster (info : ClusterInfo)

/-- The payload of `upsert_fgcp`, with the addresses of the devices under their serial numbers. -/
def fgcpGroup (id : ℕ) (groupName : String) (info : ClusterInfo)
    (serials : Dict String) (now : String) : Group where
  id := id
  groupName := groupName
  groupType := .haPair
  name := info.name
  virtualIp := info.virtualIp
  logicalDeviceIp := none
  health := info.health
  detectionSource := .fortiosApi
  lastVerified := some now
  members := info.members.zipIdx.map fun m =>
    { m.1.stored m.2 with deviceIp := (normalizeSerial m.1.serial).bind (get? serials) }

/-- `device_serial_map`: the addresses and serial numbers of the inventory. -/
def deviceSerialMap (managed : List (String × Option String)) : Dict String :=
  managed.foldl (fun d dev =>
    match normalizeSerial dev.2 with
    | some serial => if dev.1 ≠ "" then set d serial dev.1 else d
    | none => d) []

def upsertFgcp (s : GroupStore) (groupName : String) (info : ClusterInfo)
    (managed : List (String × Option String)) (now : String) : Except String GroupStore :=
  let existing := findGroupByName s groupName .haPair info.name
  (saveGroup s (fgcpGroup (existing.elim 0 Group.id) groupName info (deviceSerialMap managed)
    now)).map Prod.fst

def haStatusClusterName (s : GroupStore) (deviceIp : String) : Option String :=
  (s.groups.find? fun g => g.members.any fun m => m.deviceIp = some deviceIp).map Group.name

def markFgcpUnknown (s : GroupStore) (groupName clusterName now : String) :
    Except String GroupStore :=
  match findGroupByName s groupName .haPair clusterName with
  | none => .ok s
  | some existing =>
    (saveGroup s { existing with health := .unknown, lastVerified := some now }).map Prod.fst

def discoverFgcp (s : GroupStore) (groupName deviceIp : String) (answer : FgcpAnswer)
    (managed : List (String × Option String)) (now : String) : Except String GroupStore :=
  match answer with
  | .unreachable =>
    match haStatusClusterName s deviceIp with
    | some name => if name = "" then .ok s else markFgcpUnknown s groupName name now
    | none => .ok s
  | .unreadable => .error "AttributeError"
  | .cluster info => upsertFgcp s groupName info managed now

/-! ## Runs -/

/-- A write of the operator or a detection. -/
inductive RedundancyAction where
  | manual (payload : ManualPayload) (now : String)
  | delete (groupId : ℕ)
  | cli (groupName deviceIp name : String) (members : List CliMember) (groupType : GroupType)
      (now : String)
  | fgcp (groupName deviceIp : String) (answer : FgcpAnswer)
      (managed : List (String × Option String)) (now : String)

/-- What a call does; one that raises leaves the store as it is. -/
def attempt (s : GroupStore) : RedundancyAction → Except String GroupStore
  | .manual payload now => saveManualGroup s payload now
  | .delete groupId => .ok (deleteGroup s groupId)
  | .cli groupName deviceIp name members groupType now =>
    upsertRedundancyFromCli s groupName deviceIp name members groupType now
  | .fgcp groupName deviceIp answer managed now =>
    discoverFgcp s groupName deviceIp answer managed now

def redundancyStep (s : GroupStore) (a : RedundancyAction) : GroupStore :=
  match attempt s a with
  | .ok s' => s'
  | .error _ => s

/-- The tenant of the device that a detection is about. -/
def RedundancyAction.detects : RedundancyAction → Option String
  | .manual .. => none
  | .delete _ => none
  | .cli groupName .. => some groupName
  | .fgcp groupName .. => some groupName

/-- A detection on a device of a tenant leaves the groups of the operator and those of the other
tenants as they are. -/
structure Spared (s : GroupStore) (a : RedundancyAction) : Prop where
  manual : ∀ tenant, a.detects = some tenant → ∀ g ∈ s.groups, g.detectionSource = .manual →
    g ∈ (redundancyStep s a).groups
  others : ∀ tenant, a.detects = some tenant → ∀ other, other ≠ tenant →
    ofTenant (redundancyStep s a) other = ofTenant s other

/-- The group that a detection finds is its own to change.  For the triage, the group with the
address of the device is the operator's, which is let alone, or one of the tenant, or the write is
refused by an index.  For the discovery, the pair with the name of the cluster is not the
operator's, or nothing of it changes: it is marked unknown at this time already, or the write is
refused by an index. -/
def Harmless (s : GroupStore) : RedundancyAction → Prop
  | .manual .. => True
  | .delete _ => True
  | .cli groupName deviceIp name members groupType now =>
    ∀ g, findGroupByLogicalIp s deviceIp = some g →
      g.detectionSource = .manual ∨ g.groupName = groupName ∨
        (members ≠ [] ∧
          Clashes s (cliGroup g.id groupName deviceIp name members groupType now) = true)
  | .fgcp groupName deviceIp .unreachable _ now =>
    ∀ name, haStatusClusterName s deviceIp = some name → name ≠ "" →
      ∀ g, findGroupByName s groupName .haPair name = some g → g.detectionSource = .manual →
        g.health = .unknown ∧ g.lastVerified = some now
  | .fgcp _ _ .unreadable _ _ => True
  | .fgcp groupName _ (.cluster info) managed now =>
    ∀ g, findGroupByName s groupName .haPair info.name = some g → g.detectionSource = .manual →
      Clashes s (fgcpGroup g.id groupName info (deviceSerialMap managed) now) = true

/-! ## What a step leaves -/

variable {s : GroupStore} {a : RedundancyAction} {payload old g : Group}

theorem findGroupByLogicalIp_some {logicalIp : String}
    (h : findGroupByLogicalIp s logicalIp = some g) : g ∈ s.groups :=
  List.mem_of_find?_eq_some h

theorem findGroupByName_some {groupName name : String} {groupType : GroupType}
    (h : findGroupByName s groupName groupType name = some g) :
    g ∈ s.groups ∧ g.groupName = groupName := by
  unfold findGroupByName at h
  have hfound := List.find?_some h
  have hkey := of_decide_eq_true hfound
  exact ⟨List.mem_of_find?_eq_some h, hkey.1⟩

variable {s' : GroupStore}

theorem redundancyStep_ok (h : attempt s a = .ok s') : redundancyStep s a = s' := by
  rw [redundancyStep, h]

theorem redundancyStep_known (hs : WellKept s)
    (h : attempt s a = (saveGroup s payload).map Prod.fst) (hold : old ∈ s.groups)
    (hid : payload.id = old.id) :
    redundancyStep s a = if Clashes s payload then s else s.replace payload := by
  have hpos : payload.id ≠ 0 := by
    rw [hid]
    exact (hs.range old hold).1.ne'
  rw [redundancyStep, h, saveGroup_known hpos ⟨old, hold, hid.symm⟩]
  by_cases hclash : Clashes s payload
  · rw [if_pos hclash, if_pos hclash]
    rfl
  · rw [if_neg hclash, if_neg hclash]
    rfl

theorem redundancyStep_new (hid : payload.id = 0)
    (h : attempt s a = (saveGroup s payload).map Prod.fst) :
    redundancyStep s a = if Clashes s payload then s else s.append payload := by
  rw [redundancyStep, h, saveGroup, if_neg (not_not.mpr hid)]
  by_cases hclash : Clashes s payload
  · rw [if_pos hclash, if_pos hclash]
    rfl
  · rw [if_neg hclash, if_neg hclash]
    rfl

theorem map_fst_ok {r : Except String (GroupStore × ℕ)}
    (h : r.map Prod.fst = .ok s') : ∃ n, r = .ok (s', n) := by
  cases r with
  | error e => cases h
  | ok r =>
    obtain rfl := Except.ok.inj h
    exact ⟨r.2, rfl⟩

theorem attempt_ok (h : attempt s a = .ok s') :
    s' = s ∨ (∃ groupId, s' = deleteGroup s groupId) ∨
      ∃ payload n, saveGroup s payload = .ok (s', n) := by
  cases a with
  | manual payload now =>
    rw [attempt, saveManualGroup] at h
    split at h
    · cases h
    · split_ifs at h
      exact .inr (.inr ⟨_, map_fst_ok h⟩)
  | delete groupId => exact .inr (.inl ⟨groupId, (Except.ok.inj h).symm⟩)
  | cli groupName deviceIp name members groupType now =>
    rw [attempt, upsertRedundancyFromCli] at h
    split_ifs at h
    · exact .inl (Except.ok.inj h).symm
    · split at h
      · exact .inr (.inl ⟨_, (Except.ok.inj h).symm⟩)
      · exact .inl (Except.ok.inj h).symm
    · exact .inr (.inr ⟨_, map_fst_ok h⟩)
  | fgcp groupName deviceIp answer managed now =>
    cases answer with
    | unreachable =>
      rw [attempt, discoverFgcp] at h
      split at h
      · split_ifs at h
        · exact .inl (Except.ok.inj h).symm
        · rw [markFgcpUnknown] at h
          split at h
          · exact .inl (Except.ok.inj h).symm
          · exact .inr (.inr ⟨_, map_fst_ok h⟩)
      · exact .inl (Except.ok.inj h).symm
    | unreadable => cases h
    | cluster info => exact .inr (.inr ⟨_, map_fst_ok h⟩)

theorem WellKept.step (hs : WellKept s) (a : RedundancyAction) : WellKept (redundancyStep s a) := by
  rw [redundancyStep]
  split
  · next s' h =>
    rcases attempt_ok h with rfl | ⟨groupId, rfl⟩ | ⟨payload, n, hsave⟩
    · exact hs
    · exact hs.delete groupId
    · exact hs.save hsave
  · exact hs

/-- Whatever is detected, typed in or deleted, and in whatever order, the groups are well kept. -/
theorem wellKept_actions (acts : List RedundancyAction) :
    WellKept (acts.foldl redundancyStep GroupStore.empty) :=
  List.foldlRecOn acts _ wellKept_empty fun _ h a _ => h.step a

/-! ## What a step spares -/

theorem spared_of_eq (h : redundancyStep s a = s) : Spared s a where
  manual _ _ g hg _ := by
    rw [h]
    exact hg
  others _ _ _ _ := by rw [h]

variable {tenant : String}

theorem spared_of_append (hdetects : a.detects = some tenant)
    (hname : payload.groupName = tenant) (h : redundancyStep s a = s.append payload) :
    Spared s a where
  manual _ _ g hg _ := by
    rw [h]
    exact List.mem_append_left _ hg
  others tenant' htenant' other hother := by
    have htenant : tenant = tenant' := Option.some.inj (hdetects.symm.trans htenant')
    rw [h]
    refine ofTenant_append ?_
    rw [hname, htenant]
    exact hother

/-- A detection that replaces a group by one of its tenant spares the others exactly where it was
one of the tenant, and is as before if it is the operator's. -/
theorem spared_replace_iff (hs : WellKept s) (hdetects : a.detects = some tenant)
    (hname : payload.groupName = tenant) (hold : old ∈ s.groups) (hid : payload.id = old.id)
    (h : redundancyStep s a = s.replace payload) :
    Spared s a ↔ (old.detectionSource = .manual → payload.stored payload.id = old) ∧
      old.groupName = tenant := by
  have hreplaced : old ∈ (s.replace payload).groups → payload.stored payload.id = old := by
    intro hmem
    rcases mem_replace hmem with heq | ⟨-, hne⟩
    · exact heq.symm
    · exact absurd hid.symm hne
  constructor
  · intro hspared
    refine ⟨fun hmanual => hreplaced ?_, by_contra fun hne => hne ?_⟩
    · rw [← h]
      exact hspared.manual tenant hdetects old hold hmanual
    · have hmem : old ∈ ofTenant s old.groupName := mem_ofTenant.mpr ⟨hold, rfl⟩
      rw [← hspared.others tenant hdetects old.groupName hne, h] at hmem
      rw [← hreplaced (mem_ofTenant.mp hmem).1]
      exact hname
  · rintro ⟨hmanual, htenant⟩
    refine ⟨fun _ _ g hg hsource => ?_, fun tenant' htenant' other hother => ?_⟩
    · rw [h]
      by_cases hgid : g.id = payload.id
      · obtain rfl : g = old := hs.eq_of_id hg hold (hgid.trans hid)
        exact List.mem_map.mpr ⟨g, hg, (if_pos hgid).trans (hmanual hsource)⟩
      · exact mem_replace_of_ne hg hgid
    · have heq : tenant = tenant' := Option.some.inj (hdetects.symm.trans htenant')
      rw [h]
      refine ofTenant_replace hs hold hid (htenant.trans hname.symm) ?_
      rw [hname, heq]
      exact hother

/-- A detection that deletes a group which is not the operator's spares the others exactly where it
was one of the tenant. -/
theorem spared_delete_iff (hs : WellKept s) (hdetects : a.detects = some tenant)
    (hold : old ∈ s.groups) (hsource : old.detectionSource ≠ .manual)
    (h : redundancyStep s a = deleteGroup s old.id) :
    Spared s a ↔ old.groupName = tenant := by
  constructor
  · refine fun hspared => by_contra fun hne => ?_
    have hmem : old ∈ ofTenant s old.groupName := mem_ofTenant.mpr ⟨hold, rfl⟩
    rw [← hspared.others tenant hdetects old.groupName hne, h] at hmem
    exact of_decide_eq_true (List.mem_filter.mp (mem_ofTenant.mp hmem).1).2 rfl
  · intro htenant
    refine ⟨fun _ _ g hg hmanual => ?_, fun tenant' htenant' other hother => ?_⟩
    · rw [h]
      refine List.mem_filter.mpr ⟨hg, decide_eq_true fun hid => hsource ?_⟩
      rw [← hs.eq_of_id hg hold hid]
      exact hmanual
    · have heq : tenant = tenant' := Option.some.inj (hdetects.symm.trans htenant')
      rw [h]
      refine ofTenant_delete hs hold ?_
      rw [htenant, heq]
      exact hother

theorem spared_of_new (hdetects : a.detects = some tenant)
    (hname : payload.groupName = tenant) (hid : payload.id = 0)
    (h : attempt s a = (saveGroup s payload).map Prod.fst) : Spared s a := by
  have hstep := redundancyStep_new hid h
  by_cases hclash : Clashes s payload
  · rw [if_pos hclash] at hstep
    exact spared_of_eq hstep
  · rw [if_neg hclash] at hstep
    exact spared_of_append hdetects hname hstep

theorem spared_known_iff (hs : WellKept s) (h : attempt s a = (saveGroup s payload).map Prod.fst)
    (hdetects : a.detects = some tenant) (hname : payload.groupName = tenant)
    (hold : old ∈ s.groups) (hid : payload.id = old.id) :
    Spared s a ↔ Clashes s payload = true ∨
      ((old.detectionSource = .manual → payload.stored payload.id = old) ∧
        old.groupName = tenant) := by
  have hstep := redundancyStep_known hs h hold hid
  by_cases hclash : Clashes s payload = true
  · rw [if_pos hclash] at hstep
    exact iff_of_true (spared_of_eq hstep) (.inl hclash)
  · rw [if_neg hclash] at hstep
    rw [spared_replace_iff hs hdetects hname hold hid hstep]
    exact (or_iff_right hclash).symm

/-! ## Detections -/

section

variable (hs : WellKept s) (groupName deviceIp name : String) (members : List CliMember)
  (groupType : GroupType)

include hs groupName deviceIp name members groupType

theorem spared_cli_iff (now : String) :
    Spared s (.cli groupName deviceIp name members groupType now) ↔
      Harmless s (.cli groupName deviceIp name members groupType now) := by
  have hattempt : attempt s (.cli groupName deviceIp name members groupType now) =
      upsertRedundancyFromCli s groupName deviceIp name members groupType now := rfl
  rw [upsertRedundancyFromCli] at hattempt
  rw [Harmless]
  cases hfind : findGroupByLogicalIp s deviceIp with
  | none =>
    refine iff_of_true ?_ fun _ h => nomatch h
    rw [hfind, Option.any_none, if_neg Bool.false_ne_true] at hattempt
    by_cases hempty : members.isEmpty
    · rw [if_pos hempty] at hattempt
      exact spared_of_eq (redundancyStep_ok hattempt)
    · rw [if_neg hempty] at hattempt
      exact spared_of_new rfl rfl rfl hattempt
  | some old =>
    have hold := findGroupByLogicalIp_some hfind
    rw [hfind, Option.any_some] at hattempt
    have hone : (∀ g, some old = some g → g.detectionSource = .manual ∨ g.groupName = groupName ∨
        (members ≠ [] ∧
          Clashes s (cliGroup g.id groupName deviceIp name members groupType now) = true)) ↔
      old.detectionSource = .manual ∨ old.groupName = groupName ∨ (members ≠ [] ∧
        Clashes s (cliGroup old.id groupName deviceIp name members groupType now) = true) :=
      ⟨fun h => h old rfl, fun h g hg => Option.some.inj hg ▸ h⟩
    rw [hone]
    by_cases hmanual : old.detectionSource = .manual
    · rw [if_pos (decide_eq_true hmanual)] at hattempt
      exact iff_of_true (spared_of_eq (redundancyStep_ok hattempt)) (.inl hmanual)
    · rw [if_neg (fun h => hmanual (of_decide_eq_true h))] at hattempt
      rw [or_iff_right hmanual]
      by_cases hempty : members = []
      · rw [if_pos (List.isEmpty_iff.mpr hempty)] at hattempt
        rw [or_iff_left fun h => h.1 hempty]
        exact spared_delete_iff hs rfl hold hmanual (redundancyStep_ok hattempt)
      · rw [if_neg fun h => hempty (List.isEmpty_iff.mp h)] at hattempt
        rw [Option.elim_some] at hattempt
        rw [spared_known_iff hs hattempt rfl rfl hold rfl, or_comm, and_iff_right hempty,
          and_iff_right fun h => absurd h hmanual]

theorem manual_mem_cli (now : String) (hg : g ∈ s.groups) (hmanual : g.detectionSource = .manual) :
    g ∈ (redundancyStep s (.cli groupName deviceIp name members groupType now)).groups := by
  have hattempt : attempt s (.cli groupName deviceIp name members groupType now) =
      upsertRedundancyFromCli s groupName deviceIp name members groupType now := rfl
  have hsame : redundancyStep s (.cli groupName deviceIp name members groupType now) = s →
      g ∈ (redundancyStep s (.cli groupName deviceIp name members groupType now)).groups := by
    intro h
    rw [h]
    exact hg
  rw [upsertRedundancyFromCli] at hattempt
  cases hfind : findGroupByLogicalIp s deviceIp with
  | none =>
    rw [hfind, Option.any_none, if_neg Bool.false_ne_true] at hattempt
    by_cases hempty : members.isEmpty
    · rw [if_pos hempty] at hattempt
      exact hsame (redundancyStep_ok hattempt)
    · rw [if_neg hempty, Option.elim_none] at hattempt
      have hspared : Spared s (.cli groupName deviceIp name members groupType now) :=
        spared_of_new rfl rfl rfl hattempt
      exact hspared.manual groupName rfl g hg hmanual
  | some old =>
    have hold := findGroupByLogicalIp_some hfind
    rw [hfind, Option.any_some] at hattempt
    by_cases hsource : old.detectionSource = .manual
    · rw [if_pos (decide_eq_true hsource)] at hattempt
      exact hsame (redundancyStep_ok hattempt)
    · rw [if_neg fun h => hsource (of_decide_eq_true h)] at hattempt
      have hid : g.id ≠ old.id := fun h => hsource (hs.eq_of_id hg hold h ▸ hmanual)
      by_cases hempty : members.isEmpty
      · rw [if_pos hempty] at hattempt
        rw [redundancyStep_ok hattempt]
        exact List.mem_filter.mpr ⟨hg, decide_eq_true hid⟩
      · rw [if_neg hempty, Option.elim_some] at hattempt
        rw [redundancyStep_known hs hattempt hold rfl]
        split
        · exact hg
        · exact mem_replace_of_ne hg hid

theorem others_cli_iff (now : String) :
    (∀ other, other ≠ groupName →
      ofTenant (redundancyStep s (.cli groupName deviceIp name members groupType now)) other =
        ofTenant s other) ↔
      Harmless s (.cli groupName deviceIp name members groupType now) := by
  rw [← spared_cli_iff hs]
  constructor
  · refine fun h => ⟨fun _ _ g hg hmanual => manual_mem_cli hs _ _ _ _ _ _ hg hmanual,
      fun tenant htenant other hother => h other ?_⟩
    rw [Option.some.inj htenant]
    exact hother
  · exact fun h other hother => h.others groupName rfl other hother

end

theorem spared_unreachable_iff (hs : WellKept s) (groupName deviceIp : String)
    (managed : List (String × Option String)) (now : String) :
    Spared s (.fgcp groupName deviceIp .unreachable managed now) ↔
      Harmless s (.fgcp groupName deviceIp .unreachable managed now) := by
  have hattempt : attempt s (.fgcp groupName deviceIp .unreachable managed now) =
      discoverFgcp s groupName deviceIp .unreachable managed now := rfl
  rw [discoverFgcp] at hattempt
  rw [Harmless]
  cases hcluster : haStatusClusterName s deviceIp with
  | none =>
    rw [hcluster] at hattempt
    exact iff_of_true (spared_of_eq (redundancyStep_ok hattempt)) fun _ h => nomatch h
  | some name =>
    rw [hcluster] at hattempt
    dsimp only at hattempt
    by_cases hname : name = ""
    · rw [if_pos hname] at hattempt
      refine iff_of_true (spared_of_eq (redundancyStep_ok hattempt)) fun name' h hne => ?_
      exact absurd ((Option.some.inj h).symm.trans hname) hne
    · rw [if_neg hname, markFgcpUnknown] at hattempt
      cases hfind : findGroupByName s groupName .haPair name with
      | none =>
        rw [hfind] at hattempt
        refine iff_of_true (spared_of_eq (redundancyStep_ok hattempt)) fun name' h _ g hg => ?_
        rw [← Option.some.inj h, hfind] at hg
        cases hg
      | some old =>
        obtain ⟨hold, htenant⟩ := findGroupByName_some hfind
        have hsave : attempt s (.fgcp groupName deviceIp .unreachable managed now) =
            (saveGroup s
              { old with health := .unknown, lastVerified := some now }).map Prod.fst := by
          rw [hattempt, hfind]
        have hunique :
            Clashes s { old with health := .unknown, lastVerified := some now } = false :=
          hs.unique old hold
        have hsame : ({ old with health := .unknown, lastVerified := some now } : Group).stored
            old.id = old ↔ old.health = .unknown ∧ old.lastVerified = some now := by
          constructor
          · intro h
            rw [← h]
            exact ⟨rfl, rfl⟩
          · rintro ⟨hhealth, hverified⟩
            show ({ old with
              health := .unknown
              lastVerified := some now
              members := byIndex old.members } : Group) = old
            rw [hs.sorted old hold, ← hhealth, ← hverified]
        rw [spared_known_iff hs hsave rfl htenant hold rfl, hunique,
          or_iff_right Bool.false_ne_true, and_iff_left htenant, hsame]
        constructor
        · intro h name' hname' _ g hg
          rw [← Option.some.inj hname', hfind] at hg
          rw [← Option.some.inj hg]
          exact h
        · exact fun h => h name rfl hname old hfind

theorem spared_cluster_iff (hs : WellKept s) (groupName deviceIp : String) (info : ClusterInfo)
    (managed : List (String × Option String)) (now : String) :
    Spared s (.fgcp groupName deviceIp (.cluster info) managed now) ↔
      Harmless s (.fgcp groupName deviceIp (.cluster info) managed now) := by
  have hattempt : attempt s (.fgcp groupName deviceIp (.cluster info) managed now) =
      upsertFgcp s groupName info managed now := rfl
  rw [upsertFgcp] at hattempt
  rw [Harmless]
  cases hfind : findGroupByName s groupName .haPair info.name with
  | none =>
    rw [hfind] at hattempt
    exact iff_of_true (spared_of_new rfl rfl rfl hattempt) fun _ h => nomatch h
  | some old =>
    obtain ⟨hold, htenant⟩ := findGroupByName_some hfind
    have hsave : attempt s (.fgcp groupName deviceIp (.cluster info) managed now) =
        (saveGroup s (fgcpGroup old.id groupName info (deviceSerialMap managed) now)).map
          Prod.fst := by
      rw [hattempt, hfind, Option.elim_some]
    rw [spared_known_iff hs hsave rfl rfl hold rfl, and_iff_left htenant]
    constructor
    · intro h g hg hmanual
      obtain rfl := Option.some.inj hg
      rcases h with hclash | hsame
      · exact hclash
      · rw [← hsame hmanual] at hmanual
        cases hmanual
    · intro h
      by_cases hmanual : old.detectionSource = .manual
      · exact .inl (h old rfl hmanual)
      · exact .inr fun h => absurd h hmanual

theorem spared_iff (hs : WellKept s) (a : RedundancyAction) : Spared s a ↔ Harmless s a := by
  cases a with
  | manual payload now =>
    exact iff_of_true ⟨fun _ h => (nomatch h), fun _ h => (nomatch h)⟩ trivial
  | delete groupId =>
    exact iff_of_true ⟨fun _ h => (nomatch h), fun _ h => (nomatch h)⟩ trivial
  | cli groupName deviceIp name members groupType now =>
    exact spared_cli_iff hs groupName deviceIp name members groupType now
  | fgcp groupName deviceIp answer managed now =>
    cases answer with
    | unreachable => exact spared_unreachable_iff hs groupName deviceIp managed now
    | unreadable => exact iff_of_true (spared_of_eq rfl) trivial
    | cluster info => exact spared_cluster_iff hs groupName deviceIp info managed now

/-- In every run from the empty store, the detections spare the groups of the operator and of the
other tenants exactly where every one of them is harmless when it comes. -/
theorem run_spared_iff (acts : List RedundancyAction) (s : GroupStore) :
    Run redundancyStep Spared GroupStore.empty acts s ↔
      Run redundancyStep Harmless GroupStore.empty acts s :=
  ⟨fun h => h.mono (fun _ a hs _ => hs.step a) (fun _ a hs => (spared_iff hs a).mp) wellKept_empty,
    fun h => h.mono (fun _ a hs _ => hs.step a) (fun _ a hs => (spared_iff hs a).mpr)
      wellKept_empty⟩

/-- The operator writes down a pair of firewalls. -/
def operatorPair : RedundancyAction :=
  .manual { groupName := "acme", groupType := some .haPair, name := "edge",
            virtualIp := some "10.0.0.9" } "t1"

/-- One of them answers with a cluster of the same name. -/
def acmeCluster : RedundancyAction :=
  .fgcp "acme" "10.0.0.2" (.cluster ⟨"edge", none, .degraded, []⟩) [] "t2"

/-- The triage of a customer detects a stack. -/
def acmeStack : RedundancyAction :=
  .cli "acme" "10.0.0.1" "core" [{ role := .master, memberIndex := some 1 }] .stack "t1"

/-- The triage of another customer has a device with the same address, which stands alone. -/
def betaSwitch : RedundancyAction := .cli "beta" "10.0.0.1" "lab" [] .stack "t2"

/-- The discovery takes the pair of the operator over, and the triage of a customer dissolves the
stack of another one. -/
theorem detections_take_over :
    ¬ Spared (redundancyStep GroupStore.empty operatorPair) acmeCluster ∧
      ¬ Spared (redundancyStep GroupStore.empty acmeStack) betaSwitch := by
  rw [spared_iff (wellKept_empty.step _), spared_iff (wellKept_empty.step _)]
  constructor
  · intro h
    exact Bool.false_ne_true (h _ rfl rfl)
  · intro h
    rcases h _ rfl with hmanual | hname | ⟨hempty, -⟩
    · exact nomatch hmanual
    · exact absurd hname (by decide)
    · exact hempty rfl

end SentinelNet.Redundancy
