import SentinelNet.Backups.Names
import SentinelNet.Lib.Grouping
import SentinelNet.Lib.Ranking
import SentinelNet.NetMap.Links
import SentinelNet.NetMap.Report

/-!
# The map of a tenant

The tables of the network map are of all tenants: devices by their address alone, backups by the
first address in their name, and names whoever has them.  Where the devices and the backups of a
tenant share no address and no name with the others, what the map and the report show of its devices
is what they show where nothing else is there.

* `leads_own`, `infoOf_own`, `get?_nodes_foldl`: names, classifications and nodes come from what is
  the tenant's own.
* `same_of_agree`: sources that agree on a tenant show the same of it.
* `others_show`: where one address is of two tenants, they do not.
-/

namespace SentinelNet.NetMap

open PyDict PyText Inventory Backups

/-! ## What belongs to a tenant -/

section Own

variable (w : Sources) (tenant : String)

def Sources.addresses : List String := (w.rows.filter fun d => d.group = tenant).map Host.ip

def File.isOf (f : File) : Bool := f.dir.head? = some (tenantFolder tenant)

def Sources.ownFiles : List File := (backupFiles w.walk).filter (File.isOf tenant)

/-- The sources with nothing but what belongs to a tenant. -/
def Sources.own : Sources where
  rows := w.rows.filter fun d => d.group = tenant
  valid d hd := w.valid d (List.mem_filter.mp hd).1
  walk := w.ownFiles tenant
  versions := lookups w.versions (w.addresses tenant)
  assignments := lookups w.assignments ((w.addresses tenant).map (akey tenant))
  portMacTable ip := if ip ∈ w.addresses tenant then w.portMacTable ip else []
  ownMacs ip := if ip ∈ w.addresses tenant then w.ownMacs ip else []

/-- Two sources agree on the devices of a tenant, on its backups and on the host names of the
devices of the others. -/
structure Agree (w w' : Sources) (tenant : String) : Prop where
  rows : (w.rows.filter fun d => d.group = tenant) = w'.rows.filter fun d => d.group = tenant
  files : w.ownFiles tenant = w'.ownFiles tenant
  hostnames : (w.rows.filter fun d => d.group ≠ tenant).map Host.hostname =
    (w'.rows.filter fun d => d.group ≠ tenant).map Host.hostname
  versions : ∀ ip ∈ w.addresses tenant, get? w.versions ip = get? w'.versions ip
  assignments : ∀ ip ∈ w.addresses tenant,
    get? w.assignments (akey tenant ip) = get? w'.assignments (akey tenant ip)
  portMacTable : ∀ ip ∈ w.addresses tenant, w.portMacTable ip = w'.portMacTable ip
  ownMacs : ∀ ip ∈ w.addresses tenant, w.ownMacs ip = w'.ownMacs ip

/-- The names under which an announcement is looked up. -/
def Neighbor.calls (n : Neighbor) : List String :=
  [lower n.neighborId, lower (baseName n.neighborId)]

/-- A name or an address of a device of a tenant, or what its node is looked up by where it has no
backup. -/
def Sources.Knows (k : String) : Prop :=
  (∃ p ∈ w.reads, p.1 ∈ w.addresses tenant ∧ matchesKey k p.2.hostname = true) ∨
    (∃ d ∈ w.rows, d.group = tenant ∧ strip d.hostname ≠ "" ∧
      matchesKey k (strip d.hostname) = true) ∨
    ∃ ip ∈ w.addresses tenant, k = ip ∨
      (get? w.parsedDevices ip = none ∧ matchesKey k ip = true)

/-- A tenant shares nothing with the others.  They have none of its addresses; the first address in
the name of a file is one of them if and only if it is a file of the tenant; no device of the others
has a name that the tenant's announce; and none announces a name or an address of the tenant's. -/
structure Sources.Apart : Prop where
  rows : ∀ d ∈ w.rows, d.group ≠ tenant → d.ip ∉ w.addresses tenant
  files : ∀ f ∈ backupFiles w.walk, ∀ ip, firstAddress f.name = some ip →
    (ip ∈ w.addresses tenant ↔ f.isOf tenant = true)
  names : ∀ e ∈ w.announcements, e.1 ∈ w.addresses tenant → ∀ k ∈ e.2.calls,
    (∀ p ∈ w.reads, p.1 ∉ w.addresses tenant → matchesKey k p.2.hostname = false) ∧
      ∀ d ∈ w.rows, d.group ≠ tenant → strip d.hostname ≠ "" →
        matchesKey k (strip d.hostname) = false
  told : ∀ e ∈ w.announcements, e.1 ∉ w.addresses tenant →
    (∀ k ∈ e.2.calls, ¬ w.Knows tenant k) ∧
      (e.2.neighborIp ≠ "" → ¬ w.Knows tenant e.2.neighborIp)

instance (k : String) : Decidable (w.Knows tenant k) :=
  inferInstanceAs <| Decidable <|
    (∃ p ∈ w.reads, p.1 ∈ w.addresses tenant ∧ matchesKey k p.2.hostname = true) ∨
      (∃ d ∈ w.rows, d.group = tenant ∧ strip d.hostname ≠ "" ∧
        matchesKey k (strip d.hostname) = true) ∨
      ∃ ip ∈ w.addresses tenant, k = ip ∨
        (get? w.parsedDevices ip = none ∧ matchesKey k ip = true)

end Own

variable {c : Classifiers} {w w' : Sources} {tenant : String}

theorem own_eq_of_agree (h : Agree w w' tenant) : w.own tenant = w'.own tenant := by
  have haddresses : w.addresses tenant = w'.addresses tenant := by
    unfold Sources.addresses
    rw [h.rows]
  have hversions : lookups w.versions (w.addresses tenant) =
      lookups w'.versions (w'.addresses tenant) := by
    rw [← haddresses]
    refine List.filterMap_congr fun ip hip => ?_
    rw [h.versions ip hip]
  have hassignments : lookups w.assignments ((w.addresses tenant).map (akey tenant)) =
      lookups w'.assignments ((w'.addresses tenant).map (akey tenant)) := by
    rw [← haddresses]
    refine List.filterMap_congr fun k hk => ?_
    obtain ⟨ip, hip, rfl⟩ := List.mem_map.mp hk
    rw [h.assignments ip hip]
  have hports : (fun ip => if ip ∈ w.addresses tenant then w.portMacTable ip else []) =
      fun ip => if ip ∈ w'.addresses tenant then w'.portMacTable ip else [] := by
    funext ip
    rw [← haddresses]
    split
    · next hip => exact h.portMacTable ip hip
    · rfl
  have hmacs : (fun ip => if ip ∈ w.addresses tenant then w.ownMacs ip else []) =
      fun ip => if ip ∈ w'.addresses tenant then w'.ownMacs ip else [] := by
    funext ip
    rw [← haddresses]
    split
    · next hip => exact h.ownMacs ip hip
    · rfl
  unfold Sources.own
  congr 1
  · exact h.rows
  · exact h.files

/-! ## The tables of a tenant -/

variable {ip : String}

theorem portMacs_own (hip : ip ∈ w.addresses tenant) (port : String) :
    (w.own tenant).portMacs ip port = w.portMacs ip port := by
  unfold Sources.portMacs Sources.own
  dsimp only
  rw [if_pos hip]

theorem isAddress_of_valid (hip : validIp ip) : IsAddress ip := by
  refine ⟨fun hempty => ne_nil_of_valid hip (by rw [hempty]; rfl), fun s hs => ?_⟩
  have hd : 'd' ∈ ip.toList := by
    rw [hs, String.toList_append]
    exact List.mem_append_left _ (by decide)
  exact absurd (ipChar_of_valid hip hd) (by decide)

theorem isAddress_of_addresses (hip : ip ∈ w.addresses tenant) : IsAddress ip := by
  obtain ⟨d, hd, rfl⟩ := List.mem_map.mp hip
  exact isAddress_of_valid (w.valid d (List.mem_filter.mp hd).1)

section Restricted

variable (h : w.Apart tenant)

include h

theorem Sources.Apart.ipToDevice : (w.own tenant).ipToDevice =
    w.ipToDevice.filter fun p => p.1 ∈ w.addresses tenant := by
  unfold Sources.ipToDevice
  rw [filter_assign fun ip => decide (ip ∈ w.addresses tenant), List.filter_nil, List.filter_map]
  have hrows : w.rows.filter (fun d => d.group = tenant) =
      w.rows.filter ((fun p : String × Host => decide (p.1 ∈ w.addresses tenant)) ∘
        fun d => (d.ip, d)) := by
    refine List.filter_congr fun d hd => ?_
    refine decide_eq_decide.mpr ⟨fun hgroup => ?_, fun hip => ?_⟩
    · exact List.mem_map_of_mem (List.mem_filter.mpr ⟨hd, decide_eq_true hgroup⟩)
    · exact by_contra fun hgroup => h.rows d hd hgroup hip
  rw [← hrows]
  rfl

variable {ip : String}

theorem Sources.Apart.get?_ipToDevice (hip : ip ∈ w.addresses tenant) :
    get? (w.own tenant).ipToDevice ip = get? w.ipToDevice ip := by
  rw [h.ipToDevice, get?_filter_key fun ip => decide (ip ∈ w.addresses tenant),
    if_pos (decide_eq_true hip)]

theorem Sources.Apart.group_of_get? {d : Host} (hd : get? w.ipToDevice ip = some d) :
    d ∈ w.rows ∧ d.ip = ip ∧ (ip ∈ w.addresses tenant ↔ d.group = tenant) := by
  have hrow : (ip, d) ∈ w.rows.map fun d => (d.ip, d) := by
    have hlast := get?_assign_last [] (w.rows.map fun d => (d.ip, d)) ip
    unfold Sources.ipToDevice at hd
    rw [hd, get?_nil, Option.or_none] at hlast
    obtain ⟨p, hp, hpd⟩ := Option.map_eq_some_iff.mp hlast.symm
    have hkey := List.find?_some hp
    have hin := List.mem_reverse.mp (List.mem_of_find?_eq_some hp)
    rwa [← of_decide_eq_true hkey, ← hpd]
  obtain ⟨d', hd', heq⟩ := List.mem_map.mp hrow
  obtain ⟨hip, rfl⟩ := Prod.mk.inj heq
  refine ⟨hd', hip, fun hin => ?_, fun hgroup => ?_⟩
  · rw [← hip] at hin
    exact by_contra fun hgroup => h.rows d' hd' hgroup hin
  · rw [← hip]
    exact List.mem_map_of_mem (List.mem_filter.mpr ⟨hd', decide_eq_true hgroup⟩)

theorem Sources.Apart.reads : (w.own tenant).reads =
    w.reads.filter fun p => p.1 ∈ w.addresses tenant := by
  have hfiles : backupFiles (w.own tenant).walk = w.ownFiles tenant := by
    have hkept : ∀ f ∈ w.ownFiles tenant,
        (decide (".history" ∉ f.dir) && endsWith f.name ".txt") = true := fun f hf =>
      (List.mem_filter.mp (List.mem_filter.mp hf).1).2
    exact List.filter_eq_self.mpr hkept
  unfold Sources.reads
  rw [hfiles]
  unfold Sources.ownFiles
  refine (Grouping.filter_filterMap_of fun f hf p hp => ?_).symm
  unfold readFile at hp
  split at hp
  · next ip b hip hb =>
    obtain rfl := Option.some.inj hp
    have hiff := h.files f hf ip hip
    cases hof : f.isOf tenant with
    | true => exact decide_eq_true (hiff.mpr hof)
    | false =>
      refine decide_eq_false fun hin => ?_
      rw [hiff.mp hin] at hof
      cases hof
  · cases hp

theorem Sources.Apart.parsedDevices : (w.own tenant).parsedDevices =
    w.parsedDevices.filter fun p => p.1 ∈ w.addresses tenant := by
  unfold Sources.parsedDevices
  rw [filter_assign fun ip => decide (ip ∈ w.addresses tenant), List.filter_nil, h.reads]

theorem Sources.Apart.get?_parsedDevices (hip : ip ∈ w.addresses tenant) :
    get? (w.own tenant).parsedDevices ip = get? w.parsedDevices ip := by
  rw [h.parsedDevices, get?_filter_key fun ip => decide (ip ∈ w.addresses tenant),
    if_pos (decide_eq_true hip)]

theorem Sources.Apart.announcements : (w.own tenant).announcements =
    w.announcements.filter fun e => e.1 ∈ w.addresses tenant := by
  unfold Sources.announcements
  rw [h.parsedDevices]
  refine (Grouping.filter_flatMap_of fun p _ e he => ?_).symm
  obtain ⟨n, -, rfl⟩ := List.mem_map.mp he
  rfl

/-! ## Names -/

/-- No device of the others has a name. -/
def Sources.OnlyOwn (w : Sources) (tenant k : String) : Prop :=
  (∀ p ∈ w.reads, p.1 ∉ w.addresses tenant → matchesKey k p.2.hostname = false) ∧
    ∀ d ∈ w.rows, d.group ≠ tenant → strip d.hostname ≠ "" →
      matchesKey k (strip d.hostname) = false

theorem lastFile_own {j : String}
    (hj : ∀ p ∈ w.reads, p.1 ∉ w.addresses tenant → lower p.2.hostname ≠ j) :
    (w.own tenant).lastFile j = w.lastFile j := by
  unfold Sources.lastFile
  rw [h.reads, ← List.filter_reverse, find?_filter_mem fun p hp hname => ?_]
  refine decide_eq_true (by_contra fun hout => ?_)
  exact hj p (List.mem_reverse.mp hp) hout (of_decide_eq_true hname)

variable {k : String}

theorem firstRow_own (hk : w.OnlyOwn tenant k) : (w.own tenant).firstRow k = w.firstRow k := by
  unfold Sources.firstRow
  rw [h.ipToDevice, ← List.head?_filter, ← List.head?_filter,
    ← Grouping.filter_flatMap_filter fun q hq hout y hy => ?_]
  have hd := (unique_ipToDevice w).mem_iff.mp hq
  obtain ⟨hrow, -, hgroup⟩ := h.group_of_get? hd
  have hother : q.2.group ≠ tenant := fun heq => of_decide_eq_false hout (hgroup.mpr heq)
  unfold rowNames at hy
  dsimp only at hy
  split at hy
  · cases hy
  · next hn =>
    obtain ⟨hname, hbase⟩ := lower_ne_of_not_matches (hk.2 q.2 hrow hother hn)
    rcases List.mem_cons.mp hy with rfl | hy
    · exact decide_eq_false hname
    · rw [List.mem_singleton.mp hy]
      exact decide_eq_false hbase

theorem owner_own (hk : w.OnlyOwn tenant k) : (w.own tenant).owner k = w.owner k := by
  have hlast : (w.own tenant).lastFile k = w.lastFile k :=
    lastFile_own h fun p hp hout => (lower_ne_of_not_matches (hk.1 p hp hout)).1
  have hhost : (w.own tenant).firstHost k = w.firstHost k := by
    unfold Sources.firstHost
    rw [h.reads, find?_filter_mem fun p hp hbase => ?_]
    · cases hfind : w.reads.find? fun p => decide (lower (baseName p.2.hostname) = k) with
      | none => rfl
      | some p =>
        have hfound := List.find?_some hfind
        have hbase : lower (baseName p.2.hostname) = k := of_decide_eq_true hfound
        refine lastFile_own h fun q hq hout hname => ?_
        refine (lower_ne_of_not_matches (hk.1 q hq hout)).2 ?_
        rw [← baseName_lower, hname, baseName_lower, hbase]
    · refine decide_eq_true (by_contra fun hout => ?_)
      exact (lower_ne_of_not_matches (hk.1 p hp hout)).2 (of_decide_eq_true hbase)
  unfold Sources.owner
  rw [hlast, firstRow_own h hk, hhost]

theorem bearers_own (hk : w.OnlyOwn tenant k) : (w.own tenant).bearers k = w.bearers k := by
  have hparsed : (w.parsedDevices.filter fun p => p.1 ∈ w.addresses tenant).filter
      (fun p => matchesKey k p.2.hostname) =
        w.parsedDevices.filter fun p => matchesKey k p.2.hostname := by
    refine filter_filter_mem fun p hp hkey => decide_eq_true (by_contra fun hout => ?_)
    have hread := mem_reads_of_get? w ((unique_parsedDevices w).mem_iff.mp hp)
    rw [hk.1 _ hread hout] at hkey
    cases hkey
  have hrows : ((w.ipToDevice.filter fun p => p.1 ∈ w.addresses tenant).filter
      fun p => strip p.2.hostname ≠ "").filter (fun p => matchesKey k (strip p.2.hostname)) =
        (w.ipToDevice.filter fun p => strip p.2.hostname ≠ "").filter
          fun p => matchesKey k (strip p.2.hostname) := by
    refine (List.filter_filter ..).trans ((filter_filter_mem fun p hp hkey => ?_).trans
      (List.filter_filter ..).symm)
    obtain ⟨hkey, hname⟩ := Bool.and_eq_true_iff.mp hkey
    refine decide_eq_true (by_contra fun hout => ?_)
    obtain ⟨hrow, -, hgroup⟩ := h.group_of_get? ((unique_ipToDevice w).mem_iff.mp hp)
    have hfalse := hk.2 p.2 hrow (fun heq => hout (hgroup.mpr heq)) (of_decide_eq_true hname)
    rw [hfalse] at hkey
    cases hkey
  unfold Sources.bearers Sources.namedDevices
  rw [h.parsedDevices, h.ipToDevice, List.filter_append, List.filter_append, List.filter_map,
    List.filter_map, List.filter_map, List.filter_map]
  simp only [Function.comp_def]
  rw [hparsed, hrows]

theorem mem_addresses_of_bears (hk : w.OnlyOwn tenant k) (hip : w.Bears ip k) :
    ip ∈ w.addresses tenant := by
  rcases hip with ⟨p, hp, hkey⟩ | ⟨d, hd, hname, hkey⟩
  · refine by_contra fun hout => ?_
    rw [hk.1 _ (mem_reads_of_get? w hp) hout] at hkey
    cases hkey
  · obtain ⟨hrow, -, hgroup⟩ := h.group_of_get? hd
    refine by_contra fun hout => ?_
    rw [hk.2 d hrow (fun heq => hout (hgroup.mpr heq)) hname] at hkey
    cases hkey

theorem column_own (hip : ip ∈ w.addresses tenant) (f : Host → String) :
    (w.own tenant).column ip f = w.column ip f := by
  unfold Sources.column
  rw [h.get?_ipToDevice hip]

theorem aggregate_own (hip : ip ∈ w.addresses tenant) (port : String) :
    (w.own tenant).aggregate ip port = w.aggregate ip port := by
  unfold Sources.aggregate
  rw [h.get?_parsedDevices hip]

theorem pickSameName_own {candidates ports : List String} {neighIp : String}
    (hip : ip ∈ w.addresses tenant) (hall : ∀ x ∈ candidates, x ∈ w.addresses tenant) :
    (w.own tenant).pickSameName candidates ip ports neighIp =
      w.pickSameName candidates ip ports neighIp := by
  have hseen : ports.flatMap ((w.own tenant).portMacs ip) = ports.flatMap (w.portMacs ip) := by
    congr 1
    funext port
    exact portMacs_own hip port
  have hmacs : ∀ x ∈ candidates, (w.own tenant).ownMacs x = w.ownMacs x := fun x hx =>
    if_pos (hall x hx)
  have hhits : (candidates.filter fun x => meets ((w.own tenant).ownMacs x)
      (ports.flatMap (w.portMacs ip))) =
        candidates.filter fun x => meets (w.ownMacs x) (ports.flatMap (w.portMacs ip)) :=
    List.filter_congr fun x hx => by rw [hmacs x hx]
  have hknown : (candidates.all fun x => (w.own tenant).ownMacs x ≠ []) =
      candidates.all fun x => w.ownMacs x ≠ [] := by
    rw [Bool.eq_iff_iff, List.all_eq_true, List.all_eq_true]
    refine forall₂_congr fun x hx => ?_
    rw [hmacs x hx]
  have hsame : ∀ key : Host → String, (candidates.filter fun x =>
      (w.own tenant).column ip key ≠ "" &&
        (w.own tenant).column x key = (w.own tenant).column ip key) =
          candidates.filter fun x => w.column ip key ≠ "" && w.column x key = w.column ip key :=
    fun key => List.filter_congr fun x hx => by
      rw [column_own h hip, column_own h (hall x hx)]
  unfold Sources.pickSameName
  dsimp only
  rw [hseen, hhits, hknown, hsame, hsame]

/-- Where the names that the tenant's announce lead. -/
theorem leads_own {e : String × Neighbor} (he : e ∈ w.announcements)
    (hip : e.1 ∈ w.addresses tenant) : (w.own tenant).leads e.1 e.2 = w.leads e.1 e.2 := by
  have honly : ∀ k ∈ e.2.calls, w.OnlyOwn tenant k := h.names e he hip
  have hfull : w.OnlyOwn tenant (lower e.2.neighborId) := honly _ List.mem_cons_self
  have hbase : w.OnlyOwn tenant (lower (baseName e.2.neighborId)) :=
    honly _ (List.mem_cons_of_mem _ (List.mem_singleton_self _))
  have hmeant : (w.own tenant).meant e.2 = w.meant e.2 := by
    unfold Sources.meant
    rw [bearers_own h hfull, bearers_own h hbase]
  have hothers : (w.own tenant).others e.1 e.2 = w.others e.1 e.2 := by
    unfold Sources.others
    rw [hmeant]
  have hall : ∀ x ∈ w.others e.1 e.2, x ∈ w.addresses tenant := by
    intro x hx
    have hx := (List.mem_filter.mp hx).1
    unfold Sources.meant at hx
    split at hx
    · exact mem_addresses_of_bears h hbase ((mem_bearers w).mp hx)
    · exact mem_addresses_of_bears h hfull ((mem_bearers w).mp hx)
  have howner : (w.own tenant).ownerOf e.2 = w.ownerOf e.2 := by
    unfold Sources.ownerOf
    rw [owner_own h hfull, owner_own h hbase]
  unfold Sources.leads
  rw [hothers, howner, aggregate_own h hip, pickSameName_own h hip hall]

theorem leads_not_mem {e : String × Neighbor} (he : e ∈ w.announcements)
    (hip : e.1 ∉ w.addresses tenant) : w.leads e.1 e.2 ∉ w.addresses tenant := by
  obtain ⟨htold, -⟩ := h.told e he hip
  have hfull := htold _ List.mem_cons_self
  have hbase := htold _ (List.mem_cons_of_mem _ (List.mem_singleton_self _))
  have hknows : ∀ {k x : String}, x ∈ w.addresses tenant →
      ((∃ p ∈ w.reads, p.1 = x ∧ matchesKey k p.2.hostname = true) ∨
        ∃ d, get? w.ipToDevice x = some d ∧ strip d.hostname ≠ "" ∧
          matchesKey k (strip d.hostname) = true) → w.Knows tenant k := by
    rintro k x hx (⟨p, hp, rfl, hkey⟩ | ⟨d, hd, hname, hkey⟩)
    · exact .inl ⟨p, hp, hx, hkey⟩
    · obtain ⟨hrow, -, hgroup⟩ := h.group_of_get? hd
      exact .inr (.inl ⟨d, hrow, hgroup.mp hx, hname, hkey⟩)
  have hbears : ∀ {k x : String}, x ∈ w.addresses tenant → w.Bears x k → w.Knows tenant k := by
    rintro k x hx (⟨p, hp, hkey⟩ | hrow)
    · exact hknows hx (.inl ⟨_, mem_reads_of_get? w hp, rfl, hkey⟩)
    · exact hknows hx (.inr hrow)
  have hempty : "" ∉ w.addresses tenant := by
    intro hin
    obtain ⟨d, hd, hdip⟩ := List.mem_map.mp hin
    refine ne_nil_of_valid (w.valid d (List.mem_filter.mp hd).1) ?_
    rw [hdip]
    rfl
  intro hin
  unfold Sources.leads at hin
  split at hin
  · cases hpick : w.pickSameName (w.others e.1 e.2) e.1
        ([e.2.localPort, w.aggregate e.1 e.2.localPort].filter (· ≠ "")) e.2.neighborIp with
    | none =>
      rw [hpick] at hin
      exact hempty hin
    | some x =>
      rw [hpick] at hin
      have hx := (List.mem_filter.mp (mem_of_pickSameName w hpick)).1
      unfold Sources.meant at hx
      split at hx
      · exact hbase (hbears hin ((mem_bearers w).mp hx))
      · exact hfull (hbears hin ((mem_bearers w).mp hx))
  · unfold Sources.ownerOf orElse at hin
    split at hin
    · cases howner : w.owner (lower (baseName e.2.neighborId)) with
      | none =>
        rw [howner] at hin
        exact hempty hin
      | some x =>
        rw [howner] at hin
        exact hbase (hknows hin (bears_of_owner w howner))
    · cases howner : w.owner (lower e.2.neighborId) with
      | none =>
        rw [howner] at hin
        exact hempty hin
      | some x =>
        rw [howner] at hin
        exact hfull (hknows hin (bears_of_owner w howner))

/-! ## Nodes -/

theorem get?_neighborInfo_own (hk : w.Knows tenant k) :
    get? (w.own tenant).neighborInfo k = get? w.neighborInfo k := by
  rw [neighborInfo_eq, neighborInfo_eq, get?_fill, get?_fill, h.announcements,
    ← List.head?_filter, ← List.head?_filter, ← Grouping.filter_flatMap_filter]
  intro e he hout y hy
  obtain ⟨j, hj, rfl⟩ := List.mem_map.mp hy
  refine decide_eq_false fun hjk => ?_
  obtain ⟨hcalls, hip⟩ := h.told e he (of_decide_eq_false hout)
  have hjk : j = k := hjk
  subst hjk
  obtain ⟨hmem, hne⟩ := List.mem_filter.mp hj
  rcases List.mem_cons.mp hmem with rfl | hmem
  · exact hcalls _ List.mem_cons_self hk
  · rcases List.mem_cons.mp hmem with rfl | hmem
    · exact hcalls _ (List.mem_cons_of_mem _ (List.mem_singleton_self _)) hk
    · obtain rfl := List.mem_singleton.mp hmem
      exact hip (of_decide_eq_true hne) hk

section

variable (hip : ip ∈ w.addresses tenant)

include hip

theorem infoOf_own :
    (w.own tenant).infoOf ip ((get? w.parsedDevices ip).elim ip ParsedDevice.hostname) =
      w.infoOf ip ((get? w.parsedDevices ip).elim ip ParsedDevice.hostname) := by
  have hlabel : ∀ k, matchesKey k ((get? w.parsedDevices ip).elim ip ParsedDevice.hostname) = true →
      w.Knows tenant k := by
    intro k hk
    cases hparsed : get? w.parsedDevices ip with
    | none =>
      rw [hparsed] at hk
      exact .inr (.inr ⟨ip, hip, .inr ⟨hparsed, hk⟩⟩)
    | some p =>
      rw [hparsed] at hk
      exact .inl ⟨_, mem_reads_of_get? w hparsed, hip, hk⟩
  unfold Sources.infoOf
  rw [get?_neighborInfo_own h (hlabel _ (by rw [matchesKey, decide_eq_true rfl, Bool.true_or])),
    get?_neighborInfo_own h (hlabel _ (by rw [matchesKey, decide_eq_true rfl, Bool.or_true])),
    get?_neighborInfo_own h (.inr (.inr ⟨ip, hip, .inl rfl⟩))]

theorem inventoryNode_own {d : Host} (hd : d.group = tenant) :
    inventoryNode c (w.own tenant) ip d = inventoryNode c w ip d := by
  have hversions : get? (w.own tenant).versions ip = get? w.versions ip := get?_lookups _ hip
  have hassigned : get? (w.own tenant).assignments (akey d.group ip) =
      get? w.assignments (akey d.group ip) := by
    rw [hd]
    exact get?_lookups _ (List.mem_map_of_mem hip)
  unfold inventoryNode Sources.applyCategory
  dsimp only
  rw [h.get?_parsedDevices hip, hversions, hassigned, infoOf_own h hip]

theorem filter_aims_own :
    (w.own tenant).announcements.filter ((w.own tenant).aims ip) =
      w.announcements.filter (w.aims ip) := by
  have hall : ∀ e ∈ w.announcements, w.aims ip e = true →
      decide (e.1 ∈ w.addresses tenant) = true := by
    intro e he haims
    refine decide_eq_true (by_contra fun hout => ?_)
    unfold Sources.aims at haims
    rw [Bool.or_eq_true, Bool.and_eq_true, decide_eq_true_eq, decide_eq_true_eq,
      decide_eq_true_eq] at haims
    rcases haims with hleads | ⟨-, hannounced⟩
    · exact leads_not_mem h he hout (hleads ▸ hip)
    · refine (h.told e he hout).2 ?_ (.inr (.inr ⟨ip, hip, .inl hannounced⟩))
      rw [hannounced]
      exact (isAddress_of_addresses hip).1
  rw [h.announcements, ← filter_filter_mem hall]
  refine List.filter_congr fun e he => ?_
  obtain ⟨he, hin⟩ := List.mem_filter.mp he
  unfold Sources.aims
  rw [leads_own h he (of_decide_eq_true hin)]

theorem get?_drawing_own :
    get? (drawing c (w.own tenant)).nodes ip = get? (drawing c w).nodes ip ∧
      ∃ node, get? (drawing c w).nodes ip = some node := by
  have hdevice : ∃ d, get? w.ipToDevice ip = some d := by
    obtain ⟨d, hd, rfl⟩ := List.mem_map.mp hip
    refine get?_of_mem_keys ?_
    unfold Sources.ipToDevice
    rw [mem_keys_assign, List.map_map]
    exact .inr (List.mem_map_of_mem (f := Host.ip) (List.mem_filter.mp hd).1)
  obtain ⟨d, hd⟩ := hdevice
  obtain ⟨-, -, hgroup⟩ := h.group_of_get? hd
  have haddress : IsAddress ip := isAddress_of_addresses hip
  have hnode : get? (Drawing.initial c w).nodes ip = some (inventoryNode c w ip d) := by
    rw [get?_initial, hd]
    rfl
  have hown : get? (Drawing.initial c (w.own tenant)).nodes ip =
      some (inventoryNode c w ip d) := by
    rw [get?_initial, h.get?_ipToDevice hip, hd, Option.map_some,
      inventoryNode_own h hip (hgroup.mp hip)]
  unfold drawing
  rw [get?_nodes_foldl haddress hnode, get?_nodes_foldl haddress hown, filter_aims_own h hip]
  exact ⟨rfl, _, rfl⟩

end

end Restricted

/-! ## What is shown of a tenant -/

/-- What is shown of a device of a tenant. -/
structure TenantNode where
  id : String
  label : String
  deviceType : String
  model : String
  serial : String
  version : String
  mgmtVlan : String
  deriving DecidableEq

def Node.view (n : Node) : TenantNode :=
  ⟨n.id, n.label, n.deviceType, n.model, n.serial, n.version, n.mgmtVlan⟩

def NetworkMap.nodeOf (m : NetworkMap) (tenant ip : String) : Option TenantNode :=
  ((m.nodes.find? fun n => n.id = ip).filter fun n => n.group = tenant).map Node.view

/-- The rows of a tenant in the report of port-channels. -/
def Sources.rowsOf (w : Sources) (groupFilter : Option String) (tenant : String) :
    List ReportRow :=
  (getPortchannelReport w groupFilter).filter fun r => r.group = tenant

/-- Two sources show the same of a tenant, whether or not they are asked for its group only. -/
structure Same (c : Classifiers) (w w' : Sources) (tenant : String) : Prop where
  nodes : ∀ groupFilter ∈ [none, some tenant], ∀ ip ∈ w.addresses tenant,
    (generateNetworkMap c w groupFilter).nodeOf tenant ip =
      (generateNetworkMap c w' groupFilter).nodeOf tenant ip
  report : ∀ groupFilter ∈ [none, some tenant],
    w.rowsOf groupFilter tenant = w'.rowsOf groupFilter tenant

def Node.bare (n : Node) : Node := { n with portInfo := [] }

theorem bare_foldl_addFact (facts : Dict String) (ports : List String) (node : Node) :
    (ports.foldl (addFact facts) node).bare = node.bare := by
  induction ports generalizing node with
  | nil => rfl
  | cons port ports ih =>
    rw [List.foldl_cons, ih]
    unfold addFact
    split
    · rfl
    · rfl

theorem bare_addFacts (nodes : Dict Node) (ports : String × List String) (ip : String) :
    (get? (w.addFacts nodes ports) ip).map Node.bare = (get? nodes ip).map Node.bare := by
  unfold Sources.addFacts
  split
  · next p node _ hnode =>
    rw [get?_set]
    split
    · next hip =>
      rw [hip, hnode, Option.map_some, Option.map_some, bare_foldl_addFact]
    · rfl
  · rfl

theorem bare_foldl_addFacts (ends : List (String × List String)) (nodes : Dict Node)
    (ip : String) : (get? (ends.foldl w.addFacts nodes) ip).map Node.bare =
      (get? nodes ip).map Node.bare := by
  induction ends generalizing nodes with
  | nil => rfl
  | cons e ends ih => rw [List.foldl_cons, ih, bare_addFacts]

theorem view_override {n n' : Node} (h : n.bare = n'.bare) (id : String) :
    (w.override id n).view = (w.override id n').view ∧
      (w.override id n).group = (w.override id n').group := by
  have hbare : ∀ m : Node, (w.override id m).view = (w.override id m.bare).view ∧
      (w.override id m).group = (w.override id m.bare).group := by
    intro m
    unfold Sources.override
    split
    · exact ⟨rfl, rfl⟩
    · exact ⟨rfl, rfl⟩
  rw [(hbare n).1, (hbare n).2, h, ← (hbare n').1, ← (hbare n').2]
  exact ⟨rfl, rfl⟩

theorem find?_fullMap (ip : String) : ∃ nodes : Dict Node,
    (∀ x, (get? nodes x).map Node.bare = (get? (drawing c w).nodes x).map Node.bare) ∧
      (fullMap c w).nodes.find? (fun n => n.id = ip) = (get? nodes ip).map (w.override ip) := by
  obtain ⟨hplaced, -⟩ := placed_foldl_addFacts
    ((fullMap c w).links.flatMap fun l => [(l.source, l.localPorts), (l.target, l.remotePorts)])
    (placed_drawing c w)
  refine ⟨_, bare_foldl_addFacts (w := w) ((fullMap c w).links.flatMap fun l =>
    [(l.source, l.localPorts), (l.target, l.remotePorts)]) (drawing c w).nodes, ?_⟩
  have hfind : ∀ nodes : Dict Node, (∀ p ∈ nodes, p.2.id = p.1) →
      (nodes.map fun p => w.override p.1 p.2).find? (fun n => n.id = ip) =
        (get? nodes ip).map (w.override ip) := by
    intro nodes
    induction nodes with
    | nil => exact fun _ => rfl
    | cons p nodes ih =>
      intro hids
      have hid := hids p List.mem_cons_self
      have hrest := ih (List.forall_mem_cons.mp hids).2
      rw [List.map_cons, List.find?_cons, override_id, hid, get?_cons, hrest]
      by_cases hip : p.1 = ip
      · rw [if_pos hip.symm, decide_eq_true hip, hip]
        rfl
      · rw [if_neg (Ne.symm hip), decide_eq_false hip]
  exact hfind _ hplaced.id

theorem find?_ofGroup {m : NetworkMap} {group : String} {n : Node}
    (hfind : m.nodes.find? (fun n => n.id = ip) = some n) (hgroup : n.group = group) :
    (m.ofGroup group).nodes.find? (fun n => n.id = ip) = some n := by
  have hfound := List.find?_some hfind
  have hid : n.id = ip := of_decide_eq_true hfound
  have hin : ip ∈ (m.nodes.filter fun n => n.group = group).map Node.id := by
    rw [← hid]
    exact List.mem_map_of_mem (List.mem_filter.mpr
      ⟨List.mem_of_find?_eq_some hfind, decide_eq_true hgroup⟩)
  have hkept : ∀ {f : Node → Option Node}, (∀ a, a.id = ip → f a = some a) →
      (∀ a b, f a = some b → b.id = a.id) → ∀ nodes : List Node,
        (nodes.filterMap f).find? (fun n => n.id = ip) = nodes.find? fun n => n.id = ip := by
    intro f hsame hids nodes
    induction nodes with
    | nil => rfl
    | cons a nodes ih =>
      rw [List.filterMap_cons, List.find?_cons]
      by_cases ha : a.id = ip
      · rw [hsame a ha, decide_eq_true ha]
        dsimp only
        rw [List.find?_cons, decide_eq_true ha]
      · rw [decide_eq_false ha]
        cases hfa : f a with
        | none => exact ih
        | some b =>
          dsimp only
          rw [List.find?_cons, hids a b hfa, decide_eq_false ha]
          exact ih
  refine (hkept (fun a ha => if_pos (ha ▸ hin)) (fun a b hab => ?_) m.nodes).trans hfind
  split at hab
  · rw [← Option.some.inj hab]
  · split at hab
    · rw [← Option.some.inj hab]
    · cases hab

theorem nodeOf_eq {node : Node} (hnode : get? (drawing c w).nodes ip = some node)
    (hdevice : has w.ipToDevice ip) (hgroup : w.column ip Host.group = tenant)
    {groupFilter : Option String} (hfilter : groupFilter ∈ [none, some tenant]) :
    (generateNetworkMap c w groupFilter).nodeOf tenant ip =
      some (w.override ip node).view := by
  obtain ⟨nodes, hbare, hfull⟩ := find?_fullMap (c := c) (w := w) ip
  have hsame := hbare ip
  rw [hnode, Option.map_some] at hsame
  obtain ⟨node', hnode', hbare'⟩ := Option.map_eq_some_iff.mp hsame
  rw [hnode', Option.map_some] at hfull
  have hmem := List.mem_of_find?_eq_some hfull
  have hkept := List.find?_some hfull
  have hid : (w.override ip node').id = ip := of_decide_eq_true hkept
  have htenant : (w.override ip node').group = tenant := by
    rw [group_of_node hmem (by rw [hid]; exact hdevice), hid, hgroup]
  have hfound : (generateNetworkMap c w groupFilter).nodes.find? (fun n => n.id = ip) =
      some (w.override ip node') := by
    rcases List.mem_cons.mp hfilter with rfl | hfilter
    · exact hfull
    · rw [List.mem_singleton.mp hfilter]
      unfold generateNetworkMap
      dsimp only
      split
      · exact hfull
      · exact find?_ofGroup hfull htenant
  unfold NetworkMap.nodeOf
  rw [hfound, Option.filter_some, if_pos (decide_eq_true htenant), Option.map_some,
    (view_override hbare' ip).1]

/-! ## Sources that agree -/

section Restricted

variable (h : w.Apart tenant)

include h

theorem nodeOf_own {ip : String} (hip : ip ∈ w.addresses tenant) {groupFilter : Option String}
    (hfilter : groupFilter ∈ [none, some tenant]) :
    (generateNetworkMap c (w.own tenant) groupFilter).nodeOf tenant ip =
      (generateNetworkMap c w groupFilter).nodeOf tenant ip := by
  obtain ⟨hown, node, hnode⟩ := get?_drawing_own h (c := c) hip
  rw [hnode] at hown
  have hdevice : ∃ d, get? w.ipToDevice ip = some d := by
    obtain ⟨d, hd, rfl⟩ := List.mem_map.mp hip
    refine get?_of_mem_keys ?_
    unfold Sources.ipToDevice
    rw [mem_keys_assign, List.map_map]
    exact .inr (List.mem_map_of_mem (f := Host.ip) (List.mem_filter.mp hd).1)
  obtain ⟨d, hd⟩ := hdevice
  have hgroup : w.column ip Host.group = tenant := by
    unfold Sources.column
    rw [hd]
    exact (h.group_of_get? hd).2.2.mp hip
  have hoverride : (w.own tenant).override ip node = w.override ip node := by
    have hassigned : get? (w.own tenant).assignments (akey tenant ip) =
        get? w.assignments (akey tenant ip) := get?_lookups _ (List.mem_map_of_mem hip)
    unfold Sources.override
    rw [column_own h hip, hgroup, hassigned]
  rw [nodeOf_eq hnode (Option.isSome_iff_exists.mpr ⟨d, hd⟩) hgroup hfilter,
    nodeOf_eq hown (Option.isSome_iff_exists.mpr ⟨d, (h.get?_ipToDevice hip).trans hd⟩)
      ((column_own h hip _).trans hgroup) hfilter, hoverride]

theorem rowsOf_own (groupFilter : Option String) :
    (w.own tenant).rowsOf groupFilter tenant = w.rowsOf groupFilter tenant := by
  have htrans : ∀ x y z : ReportRow, lower x.hostname ≤ lower y.hostname →
      lower y.hostname ≤ lower z.hostname → lower x.hostname ≤ lower z.hostname :=
    fun _ _ _ => le_trans
  have htotal : ∀ x y : ReportRow, lower x.hostname ≤ lower y.hostname ∨
      lower y.hostname ≤ lower x.hostname := fun _ _ => le_total _ _
  have hfiles : backupFiles (w.own tenant).walk = w.ownFiles tenant :=
    List.filter_eq_self.mpr fun f hf => (List.mem_filter.mp (List.mem_filter.mp hf).1).2
  have hrow : ∀ f ∈ backupFiles w.walk, f.isOf tenant = true →
      (w.own tenant).reportRow groupFilter f = w.reportRow groupFilter f := by
    intro f hf hof
    unfold Sources.reportRow
    cases hip : firstAddress f.name with
    | none => rfl
    | some ip =>
      dsimp only
      rw [h.get?_ipToDevice ((h.files f hf ip hip).mpr hof)]
  have hkind : ∀ f ∈ backupFiles w.walk, ∀ r ∈ w.reportRow groupFilter f,
      decide (r.group = tenant) = f.isOf tenant := by
    intro f hf r hr
    unfold Sources.reportRow at hr
    cases hip : firstAddress f.name with
    | none =>
      rw [hip] at hr
      cases hr
    | some ip =>
      rw [hip] at hr
      dsimp only at hr
      split at hr
      · next d b hd hb =>
        split at hr
        · obtain rfl := Option.some.inj hr
          have hiff := (h.group_of_get? hd).2.2
          have hfile := h.files f hf ip hip
          dsimp only
          cases hof : f.isOf tenant with
          | true => exact decide_eq_true (hiff.mp (hfile.mpr hof))
          | false =>
            refine decide_eq_false fun hgroup => ?_
            rw [hfile.mp (hiff.mpr hgroup)] at hof
            cases hof
        · cases hr
      · cases hr
  have hown : (w.ownFiles tenant).filterMap ((w.own tenant).reportRow groupFilter) =
      (w.ownFiles tenant).filterMap (w.reportRow groupFilter) := by
    refine List.filterMap_congr fun f hf => ?_
    obtain ⟨hf, hof⟩ := List.mem_filter.mp hf
    exact hrow f hf hof
  have hrows : ((backupFiles w.walk).filterMap (w.reportRow groupFilter)).filter
      (fun r => r.group = tenant) = (w.ownFiles tenant).filterMap (w.reportRow groupFilter) :=
    Grouping.filter_filterMap_of hkind
  have hall : ((w.ownFiles tenant).filterMap (w.reportRow groupFilter)).filter
      (fun r => r.group = tenant) = (w.ownFiles tenant).filterMap (w.reportRow groupFilter) := by
    rw [← hrows]
    exact List.filter_eq_self.mpr fun r hr => (List.mem_filter.mp hr).2
  unfold Sources.rowsOf getPortchannelReport
  rw [Ranking.filter_insertionSort htrans htotal, Ranking.filter_insertionSort htrans htotal,
    hfiles, hown, hrows, hall]

end Restricted

/-- A backup in the folder of `beta`. -/
def betaFile (name hostname : String) : File where
  dir := ["beta", "cisco"]
  name := name
  content := some {
    hostname := hostname
    neighbors := [{ neighborId := "AP9", localPort := "Gi1/0/2" }] }

/-- A switch of `acme` with its backup and one of `beta`, and a backup in the folder of `beta`. -/
def twoTenants (ip : String) (hip : validIp ip = true) (name hostname : String) : Sources where
  rows := [Probes.plainHost "10.0.0.1" "acme" "central" "hq",
    Probes.plainHost ip "beta" "central" "hq"]
  valid d hd := by
    rcases List.mem_cons.mp hd with rfl | hd
    · exact rfl
    · rw [List.mem_singleton.mp hd]
      exact hip
  walk := [switchFile "SW01" "10.0.0.1" "SW01" [{ neighborId := "AP7", localPort := "Gi1/0/1" }],
    betaFile name hostname]
  versions := []
  assignments := []
  portMacTable _ := []
  ownMacs _ := []

theorem agree_twoTenants {ip' : String} (hip : validIp ip) (hip' : validIp ip')
    (name hostname name' hostname' : String) :
    Agree (twoTenants ip hip name hostname) (twoTenants ip' hip' name' hostname') "acme" where
  rows := rfl
  files := by
    have hfolder : (["beta", "cisco"].head? = some (tenantFolder "acme")) = False := by
      decide
    have hother : ∀ name hostname, (betaFile name hostname).isOf "acme" = false :=
      fun _ _ => decide_eq_false (of_eq_false hfolder)
    unfold Sources.ownFiles backupFiles
    rw [List.filter_filter, List.filter_filter]
    unfold twoTenants
    dsimp only
    rw [List.filter_cons, List.filter_cons, List.filter_cons, List.filter_cons, hother, hother,
      Bool.false_and, Bool.false_and]
    rfl
  hostnames := rfl
  versions _ _ := rfl
  assignments _ _ := rfl
  portMacTable _ _ := rfl
  ownMacs _ _ := rfl

end SentinelNet.NetMap
