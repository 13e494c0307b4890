import SentinelNet.Inventory.Decommission
import SentinelNet.Lib.Assoc

/-!
# Devices by address

`get_device_by_ip` attributes what comes from an address to the device that has it.  It looks the
address up in a cache that it builds from the rows when there is none, and `write_devices` drops the
cache.  But `write_devices` drops it before it writes the rows, under another lock: a lookup between
the two builds the cache from the old rows, and nothing drops it afterwards.

* `Server`, `Action`, `Server.step`: the blocks under the locks, in any order.
* `run_follows_iff`: when the lookups follow the rows throughout a run.
-/

namespace SentinelNet.Inventory

open Assoc StepRuns

/-! ## The cache -/

structure DeviceEntry where
  ip : String
  hostname : String
  tenant : String
  probe : String
  deriving DecidableEq

/-- A device, or the mark that several devices have the address. -/
inductive Answer where
  | device (d : DeviceEntry)
  | collision
  deriving DecidableEq

def devEntry (d : Host) : DeviceEntry := ⟨d.ip, d.hostname, d.group, orElse d.probe "central"⟩

/-- `_device_ip_cache` and `_device_tenant_ip_cache`. -/
structure IpCache where
  byIp : List (String × Answer)
  byTenant : List (Pair × DeviceEntry)

/-- A row comes into the cache. -/
def IpCache.add (c : IpCache) (d : Host) : IpCache :=
  if d.ip = "" then c
  else
    { byIp := put c.byIp d.ip
        (if (find c.byIp d.ip).isSome then .collision else .device (devEntry d))
      byTenant := put c.byTenant (d.group, d.ip) (devEntry d) }

def buildCache (rows : List Host) : IpCache := rows.foldl IpCache.add ⟨[], []⟩

/-- What the cache has of an address, for all tenants or for one. -/
def IpCache.get (c : IpCache) (ip : String) : Option String → Option Answer
  | none => find c.byIp ip
  | some tenant => (find c.byTenant (tenant, ip)).map Answer.device

/-! ## What the rows say -/

/-- The devices with an address, for all tenants or for one. -/
def owners (rows : List Host) (ip : String) (tenant : Option String) : List Host :=
  rows.filter fun d => d.ip ≠ "" && d.ip = ip && tenant.all fun t => d.group = t

/-- The one device, or the mark of a collision. -/
def answerOf : List Host → Option Answer
  | [] => none
  | [d] => some (.device (devEntry d))
  | _ :: _ :: _ => some .collision

/-- What the rows say of an address. -/
def attributed (rows : List Host) (ip : String) (tenant : Option String) : Option Answer :=
  answerOf (owners rows ip tenant)

theorem answerOf_concat (ds : List Host) (d : Host) : answerOf (ds ++ [d]) =
    some (if (answerOf ds).isSome then .collision else .device (devEntry d)) := by
  match ds with
  | [] => rfl
  | [_] => rfl
  | _ :: _ :: _ => rfl

theorem buildCache_concat (rows : List Host) (d : Host) :
    buildCache (rows ++ [d]) = (buildCache rows).add d := List.foldl_concat _ _ _ _

theorem owners_concat (rows : List Host) (d : Host) (ip : String) (tenant : Option String) :
    owners (rows ++ [d]) ip tenant = owners rows ip tenant ++ owners [d] ip tenant :=
  List.filter_append ..

theorem owners_singleton (d : Host) (ip : String) (tenant : Option String) :
    owners [d] ip tenant =
      if d.ip ≠ "" ∧ d.ip = ip ∧ ∀ t ∈ tenant, d.group = t then [d] else [] := by
  rw [owners, List.filter_cons, List.filter_nil]
  refine if_congr ?_ rfl rfl
  cases tenant with
  | none => simp
  | some t => simp [and_assoc]

theorem find_byIp (rows : List Host) (ip : String) :
    find (buildCache rows).byIp ip = attributed rows ip none := by
  induction rows using List.reverseRecOn with
  | nil => rfl
  | append_singleton rows d ih =>
    rw [buildCache_concat, attributed, owners_concat, owners_singleton, IpCache.add]
    by_cases hempty : d.ip = ""
    · rw [if_pos hempty, ih, if_neg fun h => h.1 hempty, List.append_nil, attributed]
    · rw [if_neg hempty, find_put]
      by_cases hip : d.ip = ip
      · have hown : d.ip ≠ "" ∧ d.ip = ip ∧ ∀ t ∈ (none : Option String), d.group = t :=
          ⟨hempty, hip, fun t ht => absurd ht (by simp)⟩
        rw [if_pos hip, if_pos hown, answerOf_concat, hip, ih, attributed]
      · rw [if_neg hip, if_neg fun h => hip h.2.1, List.append_nil, ih, attributed]

theorem find_byTenant {rows : List Host} (hrows : (rows.map Host.pair).Nodup) (ip tenant : String) :
    (find (buildCache rows).byTenant (tenant, ip)).map Answer.device =
      attributed rows ip (some tenant) := by
  induction rows using List.reverseRecOn with
  | nil => rfl
  | append_singleton rows d ih =>
    rw [List.map_append, List.nodup_append'] at hrows
    rw [buildCache_concat, attributed, owners_concat, owners_singleton, IpCache.add]
    by_cases hempty : d.ip = ""
    · rw [if_pos hempty, ih hrows.1, if_neg fun h => h.1 hempty, List.append_nil, attributed]
    · rw [if_neg hempty, find_put]
      by_cases hpair : (d.group, d.ip) = (tenant, ip)
      · obtain ⟨hgroup, hip⟩ := Prod.mk.inj hpair
        have hown : d.ip ≠ "" ∧ d.ip = ip ∧ ∀ t ∈ some tenant, d.group = t :=
          ⟨hempty, hip, fun t ht => hgroup.trans (Option.mem_some_iff.mp ht)⟩
        have hfirst : owners rows ip (some tenant) = [] := by
          refine List.filter_eq_nil_iff.mpr fun o ho hsame => ?_
          simp only [Option.all_some, Bool.and_eq_true, decide_eq_true_eq] at hsame
          have hsamepair : o.pair = d.pair := by
            rw [Host.pair, Host.pair, hpair, hsame.1.2, hsame.2]
          exact hrows.2.2 (List.mem_map_of_mem ho) (hsamepair ▸ List.mem_singleton_self d.pair)
        rw [if_pos hpair, if_pos hown, hfirst]
        rfl
      · have hother : ¬ (d.ip ≠ "" ∧ d.ip = ip ∧ ∀ t ∈ some tenant, d.group = t) := fun h =>
          hpair (Prod.ext (h.2.2 tenant rfl) h.2.1)
        rw [if_neg hpair, if_neg hother, List.append_nil, ih hrows.1, attributed]

theorem get_buildCache (table : Table) (ip : String) (tenant : Option String) :
    (buildCache table.rows).get ip tenant = attributed table.rows ip tenant := by
  cases tenant with
  | none => exact find_byIp table.rows ip
  | some tenant => exact find_byTenant table.keys ip tenant

/-! ## The blocks under the locks -/

/-- The table and the caches; `pending` counts the calls of `write_devices` that have dropped the
cache and not written the rows. -/
structure Server where
  stock : Stock
  rowsCache : Option (List Host)
  ipCache : Option IpCache
  pending : ℕ

/-- Nothing is cached, and nothing is being written. -/
def Server.start (stock : Stock) : Server := ⟨stock, none, none, 0⟩

/-- A block: `write_devices` drops the cache, or writes its rows, or the rows are read, or an address
is looked up. -/
inductive Block where
  | invalidate
  | write (exempt : List Pair) (devices : List Host)
  | getAllDevices
  | getDeviceByIp (ip : String) (tenant : Option String)

section Blocks

variable (getLocation : String → Option Location)

def Server.getAllDevices (s : Server) : List Host × Server :=
  match s.rowsCache with
  | some rows => (rows, s)
  | none => (s.stock.active.rows, { s with rowsCache := some s.stock.active.rows })

/-- The block of `write_devices` that writes the rows; where it raises the cache of the rows stays. -/
def Server.writeBlock (s : Server) (exempt : List Pair) (devices : List Host) : Server :=
  match s.stock.active.writeDevices getLocation s.stock.retired.pairs exempt devices with
  | .ok table =>
    { s with
      stock := { s.stock with active := table }
      rowsCache := none
      pending := s.pending - 1 }
  | .error _ => { s with pending := s.pending - 1 }

def Server.getDeviceByIp (s : Server) (ip : String) (tenant : Option String) :
    Option Answer × Server :=
  match s.ipCache with
  | some c => (c.get ip tenant, s)
  | none =>
    let (rows, s) := s.getAllDevices
    ((buildCache rows).get ip tenant, { s with ipCache := some (buildCache rows) })

def Server.step (s : Server) : Block → Server
  | .invalidate => { s with ipCache := none, pending := s.pending + 1 }
  | .write exempt devices => s.writeBlock getLocation exempt devices
  | .getAllDevices => s.getAllDevices.2
  | .getDeviceByIp ip tenant => (s.getDeviceByIp ip tenant).2

/-- A call writes its rows after it has dropped the cache. -/
def InOrder (s : Server) : Block → Prop
  | .write _ _ => 0 < s.pending
  | _ => True

/-- What a lookup answers is what the rows say. -/
def Follows (s : Server) : Prop :=
  ∀ ip tenant, (s.getDeviceByIp ip tenant).1 = attributed s.stock.active.rows ip tenant

/-- A write that changes what the rows say does not find the cache rebuilt. -/
def Timely (s : Server) : Block → Prop
  | .write exempt devices => s.ipCache = none ∨
      ∀ ip tenant, attributed (s.writeBlock getLocation exempt devices).stock.active.rows ip tenant =
        attributed s.stock.active.rows ip tenant
  | _ => True

end Blocks

/-! ## Lookups -/

section Lookups

variable {getLocation : String → Option Location}

def RowsCached (s : Server) : Prop := ∀ rows, s.rowsCache = some rows → rows = s.stock.active.rows

variable {s : Server}

theorem RowsCached.getAllDevices (h : RowsCached s) :
    s.getAllDevices.1 = s.stock.active.rows ∧ RowsCached s.getAllDevices.2 ∧
      s.getAllDevices.2.stock = s.stock ∧ s.getAllDevices.2.ipCache = s.ipCache := by
  rw [Server.getAllDevices]
  cases hcache : s.rowsCache with
  | some rows => exact ⟨h rows hcache, h, rfl, rfl⟩
  | none =>
    refine ⟨rfl, fun rows hrows => ?_, rfl, rfl⟩
    exact (Option.some.inj hrows).symm

theorem RowsCached.writeBlock (h : RowsCached s) (exempt : List Pair)
    (devices : List Host) : RowsCached (s.writeBlock getLocation exempt devices) := by
  rw [Server.writeBlock]
  split
  · exact fun rows hrows => absurd hrows (by simp)
  · exact h

theorem ipCache_writeBlock (s : Server) (exempt : List Pair) (devices : List Host) :
    (s.writeBlock getLocation exempt devices).ipCache = s.ipCache := by
  rw [Server.writeBlock]
  split
  · rfl
  · rfl

theorem RowsCached.follows_of_none (h : RowsCached s) (hcache : s.ipCache = none) : Follows s := by
  intro ip tenant
  rw [Server.getDeviceByIp, hcache]
  show (buildCache s.getAllDevices.1).get ip tenant = _
  rw [h.getAllDevices.1]
  exact get_buildCache s.stock.active ip tenant

theorem follows_of_some {c : IpCache} (hcache : s.ipCache = some c) :
    Follows s ↔ ∀ ip tenant, c.get ip tenant = attributed s.stock.active.rows ip tenant := by
  refine forall_congr' fun ip => forall_congr' fun tenant => ?_
  rw [Server.getDeviceByIp, hcache]

theorem RowsCached.follows_step (h : RowsCached s) (hfollows : Follows s) (b : Block) :
    RowsCached (s.step getLocation b) ∧ (Follows (s.step getLocation b) ↔ Timely getLocation s b) := by
  cases b with
  | invalidate =>
    have hcached : RowsCached (s.step getLocation .invalidate) := h
    exact ⟨hcached, iff_of_true (hcached.follows_of_none rfl) trivial⟩
  | write exempt devices =>
    rw [Server.step]
    have hcached : RowsCached (s.writeBlock getLocation exempt devices) := h.writeBlock exempt devices
    refine ⟨hcached, ?_⟩
    have hsame := @ipCache_writeBlock getLocation s exempt devices
    cases hcache : s.ipCache with
    | none => exact iff_of_true (hcached.follows_of_none (hsame.trans hcache)) (Or.inl hcache)
    | some c =>
      have hold := (follows_of_some hcache).mp hfollows
      rw [follows_of_some (hsame.trans hcache), Timely, hcache]
      constructor
      · exact fun hnew => Or.inr fun ip tenant => (hnew ip tenant).symm.trans (hold ip tenant)
      · intro htimely ip tenant
        rw [hold, (htimely.resolve_left (by simp)) ip tenant]
  | getAllDevices =>
    obtain ⟨-, hcached, hstock, hsame⟩ := h.getAllDevices
    refine ⟨hcached, iff_of_true ?_ trivial⟩
    show Follows s.getAllDevices.2
    cases hcache : s.ipCache with
    | none => exact hcached.follows_of_none (hsame.trans hcache)
    | some c =>
      rw [follows_of_some (hsame.trans hcache), hstock]
      exact (follows_of_some hcache).mp hfollows
  | getDeviceByIp ip tenant =>
    show RowsCached (s.getDeviceByIp ip tenant).2 ∧ (Follows (s.getDeviceByIp ip tenant).2 ↔ True)
    rw [Server.getDeviceByIp]
    split
    · exact ⟨h, iff_of_true hfollows trivial⟩
    · obtain ⟨hrows, hcached, hstock, -⟩ := h.getAllDevices
      refine ⟨hcached, iff_of_true ?_ trivial⟩
      refine (follows_of_some rfl).mpr fun ip tenant => ?_
      rw [hrows, hstock]
      exact get_buildCache s.stock.active ip tenant

/-- The lookups follow the rows throughout a run exactly if no write that changes what the rows say
finds the cache rebuilt. -/
theorem run_follows_iff (getLocation : String → Option Location) (stock : Stock)
    (blocks : List Block) (s : Server) :
    Run (Server.step getLocation) (fun s b => Follows (s.step getLocation b)) (Server.start stock)
        blocks s ↔
      Run (Server.step getLocation) (Timely getLocation) (Server.start stock) blocks s := by
  have hcached : RowsCached (Server.start stock) := fun rows hrows => absurd hrows (by simp [Server.start])
  have hstart : RowsCached (Server.start stock) ∧ Follows (Server.start stock) :=
    ⟨hcached, hcached.follows_of_none rfl⟩
  constructor
  · intro hrun
    refine hrun.mono (I := fun s => RowsCached s ∧ Follows s) (fun s b hs hb => ?_)
      (fun s b hs hb => ?_) hstart
    · exact ⟨(hs.1.follows_step hs.2 b).1, hb⟩
    · exact (hs.1.follows_step hs.2 b).2.mp hb
  · intro hrun
    refine hrun.mono (I := fun s => RowsCached s ∧ Follows s) (fun s b hs hb => ?_)
      (fun s b hs hb => ?_) hstart
    · exact ⟨(hs.1.follows_step hs.2 b).1, (hs.1.follows_step hs.2 b).2.mpr hb⟩
    · exact (hs.1.follows_step hs.2 b).2.mpr hb

end Lookups

/-! ## A lookup between the blocks -/

/-- A row of a new device. -/
def newHost (ip : String) : Host where
  ip := ip
  vendor := "cisco"
  profile := "ios"
  username := ""
  password := ""
  enableSecret := ""
  group := "acme"
  hostname := "sw-1"
  probe := "central"
  location := "hq"
  sshPort := "22"
  transports := ""
  snmpCommunity := ""
  snmpDisabled := ""

/-- A call drops the cache, a datagram is attributed, and then the call writes its row. -/
def lookupBetween : List Block :=
  [.invalidate, .getDeviceByIp "198.51.100.7" none, .write [] [newHost "192.0.2.1"]]

/-- After the call the new device is not known. -/
theorem stale_answer :
    Run (Server.step milano) InOrder (Server.start Stock.empty) lookupBetween
        (lookupBetween.foldl (Server.step milano) (Server.start Stock.empty)) ∧
      (lookupBetween.foldl (Server.step milano) (Server.start Stock.empty)).pending = 0 ∧
      ¬ Follows (lookupBetween.foldl (Server.step milano) (Server.start Stock.empty)) := by
  refine ⟨.cons trivial (.cons trivial (.cons ?_ (.nil _))), by decide, fun hfollows => ?_⟩
  · show (0 : ℕ) < 1
    decide
  · exact absurd (hfollows "192.0.2.1" none) (by decide)

end SentinelNet.Inventory
