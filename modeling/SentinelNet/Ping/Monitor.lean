import SentinelNet.Inventory.Hosts
import SentinelNet.Lib.Assoc
import SentinelNet.Probes.Registry

/-!
# The ping monitor

`services/ping_monitor.py` pings the devices of the inventory in cycles and keeps, for every
address, how its pings went.  A change that is confirmed by a second ping is reported.

* `ipProbe`, `pingableIps`, `unknownIps`: what a cycle pings.
* `runCycle`: a cycle, and the notifications that it emits.
* `find_ipProbe`, `mem_pingableIps`: which row decides about an address.
* `runCycle_pinged`: what a cycle makes of an address that it pings.
-/

namespace SentinelNet.Ping

open Assoc Inventory PyDict PyText

/-! ## The state -/

inductive Status where
  | up | down | unknown
  deriving DecidableEq

/-- What is kept of an address; `none` where the entry of an address that is not measurable has
`None` or no such key. -/
structure Entry where
  up : Option Bool
  status : Status
  lastCheck : ℚ
  lastChange : ℚ
  checks : ℕ
  fails : ℕ
  consecutiveCount : Option ℕ
  reportedStatus : Option Status

/-- `_state` and `_last_run`. -/
structure State where
  entries : List (String × Entry)
  lastRun : Option ℚ

/-- Nothing was pinged yet. -/
def State.start : State := ⟨[], none⟩

def newStatus (up : Bool) : Status := if up then .up else .down

/-- The entry of an address that was not there. -/
def firstEntry (up : Bool) (now : ℚ) : Entry where
  up := some up
  status := newStatus up
  lastCheck := now
  lastChange := now
  checks := 1
  fails := if up then 0 else 1
  consecutiveCount := some 1
  reportedStatus := some (newStatus up)

/-- The entry of an address that is not measurable. -/
def unknownEntry (now : ℚ) : Entry where
  up := none
  status := .unknown
  lastCheck := now
  lastChange := now
  checks := 0
  fails := 0
  consecutiveCount := none
  reportedStatus := none

/-- How often a result came in a row. -/
def Entry.countWith (prev : Entry) (up : Bool) : ℕ :=
  if prev.up ≠ some up then 1 else prev.consecutiveCount.getD 1 + 1

/-- A result is reported. -/
def Entry.confirms (prev : Entry) (up : Bool) : Bool :=
  prev.countWith up = 2 ∧ prev.reportedStatus ≠ some (newStatus up)

/-- The entry of an address after a ping. -/
def Entry.next (prev : Entry) (up : Bool) (now : ℚ) : Entry where
  up := some up
  status := newStatus up
  lastCheck := now
  lastChange := if prev.up ≠ some up then now else prev.lastChange
  checks := prev.checks + 1
  fails := if up then prev.fails else prev.fails + 1
  consecutiveCount := some (prev.countWith up)
  reportedStatus := if prev.confirms up then some (newStatus up) else prev.reportedStatus

/-! ## Notifications -/

/-- The arguments of `notifications.emit`. -/
structure Notice where
  kind : String
  deviceIp : String
  severity : String
  title : String
  ctx : List (String × String)
  dedupKey : String
  deriving DecidableEq

def notice (ip : String) (stat : Status) : Notice :=
  if stat = .down then
    { kind := "device.down"
      deviceIp := ip
      severity := "high"
      title := "Dispositivo non raggiungibile: " ++ ip
      ctx := [("ip", ip), ("status", "down")]
      dedupKey := "ping:" ++ ip ++ ":down" }
  else
    { kind := "device.up"
      deviceIp := ip
      severity := "low"
      title := "Dispositivo tornato online: " ++ ip
      ctx := [("ip", ip), ("status", "up")]
      dedupKey := "ping:" ++ ip ++ ":up" }

/-! ## A cycle -/

/-- What a cycle finds: the inventory, the file of the probes, the setting `ping_enabled` of the
tenants that have one, how the pings go, and the clock. -/
structure Cycle where
  devices : List Host
  probes : Probes.Registry
  pingEnabled : String → Option Bool
  ping : String → Bool
  now : ℚ

def hasDirectPath (probes : Probes.Registry) (probeId : String) : Bool :=
  match get? probes probeId with
  | some probe => probe.mode ≠ .jump ∧ probe.mode ≠ .agent
  | none => true

def Cycle.telemetryEnabled (c : Cycle) (tenant : String) : Bool :=
  tenant = "" ∨ (c.pingEnabled tenant).getD true

def address (d : Host) : String := strip d.ip

def probeOf (d : Host) : String := orElse d.probe "central"

section Cycles

variable (env : Codec) (c : Cycle)

/-- A row that takes part in a cycle. -/
def Cycle.counts (d : Host) : Bool :=
  !isManual env d && c.telemetryEnabled d.group && address d ≠ ""

/-- A row of the inventory. -/
def noteProbe (ipProbe : List (String × String)) (d : Host) : List (String × String) :=
  if c.counts env d then put ipProbe (address d) (probeOf d) else ipProbe

def ipProbe : List (String × String) := c.devices.foldl (noteProbe env c) []

def pingableIps : List String :=
  (((ipProbe env c).filter fun e => hasDirectPath c.probes e.2).map Prod.fst).insertionSort (· ≤ ·)

def unknownIps : List String :=
  (((ipProbe env c).map Prod.fst).filter fun ip => ip ∉ pingableIps env c).insertionSort (· ≤ ·)

/-- The result of a ping. -/
def record (s : List (String × Entry) × List (String × Status)) (ip : String) :
    List (String × Entry) × List (String × Status) :=
  match find s.1 ip with
  | none => (put s.1 ip (firstEntry (c.ping ip) c.now), s.2)
  | some prev =>
    (put s.1 ip (prev.next (c.ping ip) c.now),
      if prev.confirms (c.ping ip) then s.2 ++ [(ip, newStatus (c.ping ip))] else s.2)

def runCycle (s : State) : State × List Notice :=
  if ipProbe env c = [] then (⟨[], some c.now⟩, [])
  else
    let recorded := (pingableIps env c).foldl (record c) (s.entries, [])
    let entries := (unknownIps env c).foldl (fun entries ip => put entries ip (unknownEntry c.now))
      recorded.1
    (⟨entries.filter fun e => e.1 ∈ (ipProbe env c).map Prod.fst, some c.now⟩,
      recorded.2.map fun e => notice e.1 e.2)

/-! ## What a cycle pings -/

def lastRow (ip : String) : Option Host :=
  (c.devices.filter fun d => c.counts env d && address d = ip).getLast?

variable {env c}

theorem find_foldl_noteProbe (ds : List Host) (m : List (String × String)) (ip : String) :
    find (ds.foldl (noteProbe env c) m) ip =
      ((ds.filter fun d => c.counts env d && address d = ip).getLast?.map probeOf).or
        (find m ip) := by
  induction ds generalizing m with
  | nil => rfl
  | cons d ds ih =>
    rw [List.foldl_cons, ih, noteProbe]
    by_cases hcounts : c.counts env d = true
    · rw [if_pos hcounts, find_put]
      by_cases hip : address d = ip
      · rw [if_pos hip, List.filter_cons_of_pos (by simp [hcounts, hip]), List.getLast?_cons]
        cases (ds.filter fun d => c.counts env d && address d = ip).getLast? with
        | none => rfl
        | some row => rfl
      · rw [if_neg hip, List.filter_cons_of_neg (by simp [hip])]
    · rw [if_neg hcounts, List.filter_cons_of_neg (by simp [hcounts])]

/-- The last row of an address decides about its probe. -/
theorem find_ipProbe (ip : String) : find (ipProbe env c) ip = (lastRow env c ip).map probeOf := by
  rw [ipProbe, find_foldl_noteProbe, find_nil, Option.or_none, lastRow]

theorem nodup_ipProbe : ((ipProbe env c).map Prod.fst).Nodup := by
  have hfold : ∀ (ds : List Host) (m : List (String × String)), (m.map Prod.fst).Nodup →
      ((ds.foldl (noteProbe env c) m).map Prod.fst).Nodup := by
    intro ds
    induction ds with
    | nil => exact fun m hm => hm
    | cons d ds ih =>
      intro m hm
      refine ih _ ?_
      rw [noteProbe]
      split
      · exact nodup_put hm _ _
      · exact hm
  exact hfold c.devices [] List.nodup_nil

/-- An address is pinged when the probe of its last row has a direct path. -/
theorem mem_pingableIps {ip : String} :
    ip ∈ pingableIps env c ↔
      ∃ d ∈ lastRow env c ip, hasDirectPath c.probes (probeOf d) = true := by
  rw [pingableIps, List.mem_insertionSort, List.mem_map]
  constructor
  · rintro ⟨e, he, rfl⟩
    obtain ⟨hmem, hdirect⟩ := List.mem_filter.mp he
    have hfind : find (ipProbe env c) e.1 = some e.2 := find_of_mem nodup_ipProbe hmem
    rw [find_ipProbe] at hfind
    obtain ⟨d, hd, hprobe⟩ := Option.map_eq_some_iff.mp hfind
    exact ⟨d, hd, hprobe ▸ hdirect⟩
  · rintro ⟨d, hd, hdirect⟩
    have hfind : find (ipProbe env c) ip = some (probeOf d) := by
      rw [find_ipProbe, Option.mem_def.mp hd]
      rfl
    exact ⟨(ip, probeOf d), List.mem_filter.mpr ⟨mem_of_find hfind, hdirect⟩, rfl⟩

theorem nodup_pingableIps : (pingableIps env c).Nodup := by
  rw [pingableIps, (List.perm_insertionSort _ _).nodup_iff]
  exact nodup_ipProbe.sublist (List.filter_sublist.map _)

theorem mem_unknownIps {ip : String} :
    ip ∈ unknownIps env c ↔ ip ∈ (ipProbe env c).map Prod.fst ∧ ip ∉ pingableIps env c := by
  rw [unknownIps, List.mem_insertionSort, List.mem_filter, decide_eq_true_eq]

theorem mem_keys_of_pingable {ip : String} (h : ip ∈ pingableIps env c) :
    ip ∈ (ipProbe env c).map Prod.fst := by
  rw [pingableIps, List.mem_insertionSort, List.mem_map] at h
  obtain ⟨e, he, rfl⟩ := h
  exact List.mem_map_of_mem (List.mem_filter.mp he).1

/-! ## What a cycle makes of an address -/

/-- The entry of an address after a ping. -/
def recordedEntry (prev : Option Entry) (up : Bool) (now : ℚ) : Entry :=
  match prev with
  | none => firstEntry up now
  | some prev => prev.next up now

def reported (prev : Option Entry) (up : Bool) : Option Status :=
  match prev with
  | none => none
  | some prev => if prev.confirms up then some (newStatus up) else none

variable {s : List (String × Entry) × List (String × Status)} {ip : String}

theorem find_record (ip' : String) :
    find (record c s ip').1 ip =
      if ip' = ip then some (recordedEntry (find s.1 ip) (c.ping ip) c.now)
      else find s.1 ip := by
  rw [record]
  split
  · next h =>
    rw [find_put]
    split
    · next heq =>
      subst heq
      rw [h]
      rfl
    · rfl
  · next prev h =>
    rw [find_put]
    split
    · next heq =>
      subst heq
      rw [h]
      rfl
    · rfl

theorem events_record (ip' : String) :
    (record c s ip').2 = s.2 ++
      ((reported (find s.1 ip') (c.ping ip')).map fun stat => (ip', stat)).toList := by
  rw [record]
  split
  · next h =>
    rw [h]
    exact (List.append_nil _).symm
  · next prev h =>
    rw [h]
    cases hconfirms : prev.confirms (c.ping ip') with
    | true => simp only [reported, hconfirms, if_true, Option.map_some, Option.toList_some]
    | false => simp [reported, hconfirms]

variable {ips : List String}

theorem find_foldl_record_of_notMem (h : ip ∉ ips) :
    find (ips.foldl (record c) s).1 ip = find s.1 ip := by
  induction ips generalizing s with
  | nil => rfl
  | cons ip' ips ih =>
    obtain ⟨hne, hnot⟩ := not_or.mp (mt List.mem_cons.mpr h)
    rw [List.foldl_cons, ih hnot, find_record, if_neg (Ne.symm hne)]

theorem events_foldl_record_of_notMem (h : ip ∉ ips) :
    (ips.foldl (record c) s).2.filter (·.1 = ip) = s.2.filter (·.1 = ip) := by
  induction ips generalizing s with
  | nil => rfl
  | cons ip' ips ih =>
    obtain ⟨hne, hnot⟩ := not_or.mp (mt List.mem_cons.mpr h)
    rw [List.foldl_cons, ih hnot, events_record, List.filter_append]
    cases reported (find s.1 ip') (c.ping ip') with
    | none => exact List.append_nil _
    | some stat => simp [Ne.symm hne]

theorem foldl_record (hnodup : ips.Nodup) (h : ip ∈ ips) :
    find (ips.foldl (record c) s).1 ip =
        some (recordedEntry (find s.1 ip) (c.ping ip) c.now) ∧
      (ips.foldl (record c) s).2.filter (·.1 = ip) = s.2.filter (·.1 = ip) ++
        ((reported (find s.1 ip) (c.ping ip)).map fun stat => (ip, stat)).toList := by
  induction ips generalizing s with
  | nil => cases h
  | cons ip' ips ih =>
    obtain ⟨hnot, hnodup⟩ := List.nodup_cons.mp hnodup
    rw [List.foldl_cons]
    by_cases heq : ip' = ip
    · subst heq
      rw [find_foldl_record_of_notMem hnot, events_foldl_record_of_notMem hnot, find_record,
        if_pos rfl, events_record, List.filter_append]
      refine ⟨rfl, ?_⟩
      cases reported (find s.1 ip') (c.ping ip') with
      | none => rfl
      | some stat => simp
    · have hin := (List.mem_cons.mp h).resolve_left (Ne.symm heq)
      obtain ⟨hfind, hevents⟩ := ih (s := record c s ip') hnodup hin
      rw [find_record, if_neg heq] at hfind hevents
      refine ⟨hfind, hevents.trans ?_⟩
      rw [events_record, List.filter_append]
      cases reported (find s.1 ip') (c.ping ip') with
      | none => simp
      | some stat => simp [heq]

theorem deviceIp_notice (ip : String) (stat : Status) : (notice ip stat).deviceIp = ip := by
  rw [notice]
  split <;> rfl

theorem find_filter_keys (entries : List (String × Entry)) (keys : List String) (ip : String) :
    find (entries.filter fun e => e.1 ∈ keys) ip = if ip ∈ keys then find entries ip else none := by
  induction entries with
  | nil => exact (ite_self _).symm
  | cons e entries ih =>
    by_cases hkey : e.1 ∈ keys
    · rw [List.filter_cons_of_pos (by simpa using hkey), find, ih, find]
      by_cases heq : e.1 = ip
      · rw [if_pos heq, if_pos heq, if_pos (heq ▸ hkey)]
      · rw [if_neg heq, if_neg heq]
    · rw [List.filter_cons_of_neg (by simpa using hkey), ih, find]
      by_cases heq : e.1 = ip
      · rw [if_neg (heq ▸ hkey), if_neg (heq ▸ hkey)]
      · rw [if_neg heq]

theorem find_foldl_put_of_notMem (h : ip ∉ ips) (entry : Entry) (entries : List (String × Entry)) :
    find (ips.foldl (fun entries ip => put entries ip entry) entries) ip = find entries ip := by
  induction ips generalizing entries with
  | nil => rfl
  | cons ip' ips ih =>
    obtain ⟨hne, hnot⟩ := not_or.mp (mt List.mem_cons.mpr h)
    rw [List.foldl_cons, ih hnot, find_put, if_neg (Ne.symm hne)]

/-- An address that a cycle pings has its entry of this cycle, and is reported as it says. -/
theorem runCycle_pinged (h : ip ∈ pingableIps env c) (s : State) :
    find (runCycle env c s).1.entries ip =
        some (recordedEntry (find s.entries ip) (c.ping ip) c.now) ∧
      (runCycle env c s).2.filter (·.deviceIp = ip) =
        ((reported (find s.entries ip) (c.ping ip)).map (notice ip)).toList := by
  have hkey := mem_keys_of_pingable h
  have hne : ipProbe env c ≠ [] := by
    intro hnil
    rw [hnil] at hkey
    cases hkey
  obtain ⟨hfind, hevents⟩ := foldl_record (s := (s.entries, [])) nodup_pingableIps h
  rw [runCycle, if_neg hne]
  constructor
  · have hnot : ip ∉ unknownIps env c := fun hin => (mem_unknownIps.mp hin).2 h
    exact (find_filter_keys ..).trans
      ((if_pos hkey).trans ((find_foldl_put_of_notMem hnot _ _).trans hfind))
  · rw [List.filter_map]
    have hsame : ((fun n : Notice => decide (n.deviceIp = ip)) ∘
        fun e : String × Status => notice e.1 e.2) = fun e => decide (e.1 = ip) := by
      funext e
      rw [Function.comp_apply, deviceIp_notice]
    rw [hsame, hevents]
    cases reported (find s.entries ip) (c.ping ip) with
    | none => rfl
    | some stat => rfl

theorem find_runCycle_of_lastRow (h : lastRow env c ip = none) (s : State) :
    find (runCycle env c s).1.entries ip = none := by
  rw [runCycle]
  split
  · rfl
  · refine (find_filter_keys ..).trans (if_neg fun hkey => ?_)
    obtain ⟨e, he, rfl⟩ := List.mem_map.mp hkey
    refine find_ne_none he ?_
    rw [find_ipProbe, h]
    rfl

end Cycles

end SentinelNet.Ping
