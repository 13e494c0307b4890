import SentinelNet.MacHistory.Inventory

/-!
# Whether a tenant's endpoints are its own

The inventory of a tenant is read by its column of the tables, but the keys of the upserts do not
have it: a scan for another tenant that reports the same position takes the row away, with its
history, and one that reports the same address for an interface of a switch removes the endpoint.
Two tenants with the same addresses are ordinary.

* `endpointInventory_scansOf`: then the inventory is the one of the tenant's own scans.
* `isolated`: two histories with the same scans of a tenant give it the same inventory.
* `moved_to_other_tenant`: they do not where the other scans do not spare it.
-/

namespace SentinelNet.MacHistory

open PyDict Grouping Upsert

/-! ## The scans of a tenant, and the others -/

/-- The scans of a tenant's devices, in their order. -/
def scansOf (tenant : String) (scans : List Scan) : List Scan :=
  scans.filter fun c => c.tenant = tenant

/-- The addresses of the devices that a scan tells something about. -/
def Scan.addresses (c : Scan) : List String :=
  c.seenRows.map (·.switchIp) ++ (c.ownRows.map (·.switchIp) ++ c.boundRows.map (·.ip))

/-- A scan leaves alone what other scans wrote: it reports none of their positions and none of their
bindings, it makes an interface of none of their endpoints, and it tells nothing about the devices
that decide which ports of their switches are uplinks. -/
structure Spares (env : Surroundings) (own : List Scan) (c : Scan) : Prop where
  positions : ∀ r ∈ c.seenRows, ∀ r' ∈ own.flatMap Scan.seenRows, r.position ≠ r'.position
  bindings : ∀ b ∈ c.boundRows, ∀ b' ∈ own.flatMap Scan.boundRows, b.binding ≠ b'.binding
  interfaces : ∀ r ∈ c.ownRows, ∀ r' ∈ own.flatMap Scan.seenRows, r.mac = r'.mac →
    ∃ r'' ∈ own.flatMap Scan.ownRows, r''.mac = r.mac
  map : ∀ ip ∈ c.addresses, ∀ r' ∈ own.flatMap Scan.seenRows, ip ∉ env.consulted r'.switchIp

/-- The scans for other tenants leave alone what those of a tenant wrote. -/
def Apart (env : Surroundings) (tenant : String) (scans : List Scan) : Prop :=
  ∀ c ∈ scans, c.tenant ≠ tenant → Spares env (scansOf tenant scans) c

/-! ## The rows of a scan -/

variable {c : Scan} {tenant : String} {scans : List Scan} {env : Surroundings}

theorem tenant_of_seenRows {r : Sighting} (h : r ∈ c.seenRows) : r.tenant = c.tenant := by
  cases c with
  | sightings rows switchIp switchName tenant probe now =>
    obtain ⟨line, -, hline⟩ := List.mem_filterMap.mp h
    rw [Seen.row, Option.map_eq_some_iff] at hline
    obtain ⟨mac, -, hrow⟩ := hline
    rw [← hrow]
    rfl
  | _ => cases h

theorem tenant_of_boundRows {b : ArpEntry} (h : b ∈ c.boundRows) : b.tenant = c.tenant := by
  cases c with
  | arpEntries rows sourceIp sourceName sourceType tenant probe now =>
    obtain ⟨line, -, hline⟩ := List.mem_filterMap.mp h
    rw [Bound.row, Option.ite_none_left_eq_some, Option.map_eq_some_iff] at hline
    obtain ⟨-, mac, -, hrow⟩ := hline
    rw [← hrow]
    rfl
  | _ => cases h

theorem mem_scansOf : c ∈ scansOf tenant scans ↔ c ∈ scans ∧ c.tenant = tenant := by
  rw [scansOf, List.mem_filter, decide_eq_true_iff]

/-! ## A table with tenants -/

theorem inTenants_singleton {t : String} : inTenants (some [tenant]) t = true ↔ t = tenant := by
  simp [inTenants]

theorem keyed_map {ρ κ : Type} {key : ρ → κ} {entry : ρ → Entry ρ κ}
    (hkeyed : ∀ r, (entry r).Keyed key) (rs : List ρ) : ∀ e ∈ rs.map entry, e.Keyed key := by
  intro e he
  obtain ⟨r, -, rfl⟩ := List.mem_map.mp he
  exact hkeyed r

section Rows

variable {ρ κ : Type} [DecidableEq κ] {key : ρ → κ} {entry : ρ → Entry ρ κ}
  {rows : Scan → List ρ} {tenantOf : ρ → String}

theorem forall_tenant (hfresh : ∀ r, (entry r).fresh = r)
    (htouch : ∀ r old, tenantOf ((entry r).touch old) = tenantOf r ∨
      tenantOf ((entry r).touch old) = tenantOf old)
    {q : String → Prop} {rs : List ρ} (h : ∀ r ∈ rs, q (tenantOf r)) :
    ∀ r ∈ table key (rs.map entry), q (tenantOf r) := by
  refine forall_table (fun e he => ?_) fun e he old hold => ?_
  · obtain ⟨r, hr, rfl⟩ := List.mem_map.mp he
    rw [hfresh r]
    exact h r hr
  · obtain ⟨r, hr, rfl⟩ := List.mem_map.mp he
    rcases htouch r old with heq | heq
    · rw [heq]
      exact h r hr
    · rw [heq]
      exact hold

section

variable (hkeyed : ∀ r, (entry r).Keyed key) (hfresh : ∀ r, (entry r).fresh = r)

include hkeyed hfresh

theorem filter_tenant
    (htouch : ∀ r old, tenantOf ((entry r).touch old) = tenantOf r ∨ tenantOf ((entry r).touch old) = tenantOf old)
    (htenant : ∀ c, ∀ r ∈ rows c, tenantOf r = c.tenant)
    (hapart : ∀ c ∈ scans, c.tenant ≠ tenant → ∀ r ∈ rows c, ∀ r' ∈ (scansOf tenant scans).flatMap rows, key r ≠ key r') :
    (table key ((scans.flatMap rows).map entry)).filter
        (fun r => inTenants (some [tenant]) (tenantOf r)) =
      table key (((scansOf tenant scans).flatMap rows).map entry) := by
  have hkey : ∀ r, (entry r).key = key r := fun r => by rw [← (hkeyed r).fresh, hfresh r]
  let mine (k : κ) : Bool := k ∈ ((scansOf tenant scans).flatMap rows).map key
  have hmine : ∀ c ∈ scans, ∀ r ∈ rows c, mine (entry r).key = decide (c.tenant = tenant) := by
    intro c hc r hr
    rw [hkey r]
    by_cases htenant : c.tenant = tenant
    · rw [decide_eq_true htenant]
      have hmem := List.mem_flatMap.mpr ⟨c, mem_scansOf.mpr ⟨hc, htenant⟩, hr⟩
      exact decide_eq_true (List.mem_map_of_mem hmem)
    · rw [decide_eq_false htenant]
      refine decide_eq_false fun hin => ?_
      obtain ⟨r', hr', heq⟩ := List.mem_map.mp hin
      exact hapart c hc htenant r hr r' hr' heq.symm
  have hrows : ((scans.flatMap rows).map entry).filter (fun e => mine e.key) =
      ((scansOf tenant scans).flatMap rows).map entry := by
    rw [List.filter_map]
    exact congrArg _ (filter_flatMap_of hmine)
  have hothers : ((scans.flatMap rows).map entry).filter (fun e => !mine e.key) =
      ((scans.filter fun c => !decide (c.tenant = tenant)).flatMap rows).map entry := by
    rw [List.filter_map]
    exact congrArg _ (filter_flatMap_of fun c hc r hr => congrArg (!·) (hmine c hc r hr))
  rw [filter_table_of (keyed_map hkeyed _) mine, hrows]
  · rw [hrows]
    refine fun r hr => inTenants_singleton.mpr ?_
    refine forall_tenant (q := (· = tenant)) hfresh htouch (fun r' hr' => ?_) r hr
    obtain ⟨c, hc, hr'⟩ := List.mem_flatMap.mp hr'
    exact (htenant c r' hr').trans (mem_scansOf.mp hc).2
  · rw [hothers]
    refine fun r hr => Bool.eq_false_iff.mpr (mt inTenants_singleton.mp ?_)
    refine forall_tenant (q := (· ≠ tenant)) hfresh htouch (fun r' hr' => ?_) r hr
    obtain ⟨c, hc, hr'⟩ := List.mem_flatMap.mp hr'
    rw [htenant c r' hr']
    simpa using (List.mem_filter.mp hc).2

theorem filter_kind {p : κ → Bool}
    (hnone : ∀ c ∈ scans, c.tenant ≠ tenant → ∀ r ∈ rows c, p (key r) = false) :
    (table key ((scans.flatMap rows).map entry)).filter (fun r => p (key r)) =
      (table key (((scansOf tenant scans).flatMap rows).map entry)).filter
        fun r => p (key r) := by
  have hkey : ∀ r, (entry r).key = key r := fun r => by rw [← (hkeyed r).fresh, hfresh r]
  rw [filter_table (keyed_map hkeyed _), filter_table (keyed_map hkeyed _), List.filter_map,
    List.filter_map]
  refine congrArg _ (congrArg _ ?_)
  refine filter_flatMap_filter fun c hc htenant r hr => ?_
  rw [Function.comp_apply, hkey r]
  exact hnone c hc (of_decide_eq_false htenant) r hr

theorem mem_keys_run {k : κ} : k ∈ (table key ((scans.flatMap rows).map entry)).map key ↔
      ∃ r ∈ scans.flatMap rows, key r = k := by
  have hkey : ∀ r, (entry r).key = key r := fun r => by rw [← (hkeyed r).fresh, hfresh r]
  rw [mem_keys_table (keyed_map hkeyed _)]
  constructor
  · rintro ⟨e, he, hk⟩
    obtain ⟨r, hr, rfl⟩ := List.mem_map.mp he
    exact ⟨r, hr, (hkey r).symm.trans hk⟩
  · rintro ⟨r, hr, hk⟩
    exact ⟨entry r, List.mem_map_of_mem hr, (hkey r).trans hk⟩

end

end Rows

/-! ## What the inventory of a tenant reads -/

section Reads

variable (h : Apart env tenant scans)
include h

theorem seenIn_run : (History.run scans).seenIn (some [tenant]) =
    (History.run (scansOf tenant scans)).sightings := by
  rw [History.seenIn, run_eq, run_eq]
  exact filter_tenant Sighting.keyed_entry (fun _ => rfl) (fun _ _ => Or.inl rfl)
    (fun _ _ => tenant_of_seenRows) fun c hc hne => (h c hc hne).positions

theorem boundIn_run : (History.run scans).boundIn (some [tenant]) =
    (History.run (scansOf tenant scans)).arpEntries := by
  rw [History.boundIn, run_eq, run_eq]
  refine filter_tenant ArpEntry.keyed_entry (fun _ => rfl) (fun b old => ?_)
    (fun _ _ => tenant_of_boundRows) fun c hc hne => (h c hc hne).bindings
  rw [ArpEntry.entry]
  dsimp only
  split
  · exact Or.inr rfl
  · exact Or.inl rfl

end Reads

theorem apart_scansOf (env : Surroundings) (tenant : String) (scans : List Scan) :
    Apart env tenant (scansOf tenant scans) :=
  fun _ hc hne => absurd (mem_scansOf.mp hc).2 hne

theorem scansOf_scansOf (tenant : String) (scans : List Scan) :
    scansOf tenant (scansOf tenant scans) = scansOf tenant scans := by
  rw [scansOf, scansOf, List.filter_filter]
  simp only [Bool.and_self]

theorem mem_infra_run {m : String} :
    m ∈ (History.run scans).infra ↔ ∃ r ∈ scans.flatMap Scan.ownRows, r.mac = m := by
  rw [History.infra, run_eq]
  constructor
  · intro hm
    obtain ⟨row, hrow, rfl⟩ := List.mem_map.mp hm
    obtain ⟨r, hr, hport⟩ := (mem_keys_run InterfaceMac.keyed_entry (fun _ => rfl)).mp
      (List.mem_map_of_mem (f := InterfaceMac.port) hrow)
    exact ⟨r, hr, congrArg Port.mac hport⟩
  · rintro ⟨r, hr, rfl⟩
    obtain ⟨row, hrow, hport⟩ := List.mem_map.mp
      ((mem_keys_run InterfaceMac.keyed_entry (fun _ => rfl)).mpr ⟨r, hr, rfl⟩)
    exact List.mem_map.mpr ⟨row, hrow, congrArg Port.mac hport⟩

theorem exists_seenRows {r : Sighting} (hr : r ∈ (History.run scans).sightings) :
    ∃ r' ∈ scans.flatMap Scan.seenRows, r'.position = r.position := by
  rw [run_eq] at hr
  exact (mem_keys_run Sighting.keyed_entry (fun _ => rfl)).mp (List.mem_map_of_mem hr)

section Reads

variable (h : Apart env tenant scans)
include h

theorem mem_infra_iff {r : Sighting} (hr : r ∈ (History.run (scansOf tenant scans)).sightings) :
    r.mac ∈ (History.run scans).infra ↔ r.mac ∈ (History.run (scansOf tenant scans)).infra := by
  obtain ⟨r', hr', hposition⟩ := exists_seenRows hr
  have hmac : r'.mac = r.mac := congrArg Position.mac hposition
  rw [mem_infra_run, mem_infra_run]
  constructor
  · rintro ⟨row, hrow, heq⟩
    obtain ⟨c, hc, hrow⟩ := List.mem_flatMap.mp hrow
    by_cases htenant : c.tenant = tenant
    · exact ⟨row, List.mem_flatMap.mpr ⟨c, mem_scansOf.mpr ⟨hc, htenant⟩, hrow⟩, heq⟩
    · obtain ⟨row', hrow', heq'⟩ :=
        (h c hc htenant).interfaces row hrow r' hr' (heq.trans hmac.symm)
      exact ⟨row', hrow', heq'.trans heq⟩
  · rintro ⟨row, hrow, heq⟩
    obtain ⟨c, hc, hrow⟩ := List.mem_flatMap.mp hrow
    exact ⟨row, List.mem_flatMap.mpr ⟨c, (mem_scansOf.mp hc).1, hrow⟩, heq⟩

theorem uplinksIn_run {r : Sighting} (hr : r ∈ (History.run (scansOf tenant scans)).sightings) :
    env.uplinksIn (History.run scans) r.switchIp =
      env.uplinksIn (History.run (scansOf tenant scans)) r.switchIp := by
  obtain ⟨r', hr', hposition⟩ := exists_seenRows hr
  have hswitch : r'.switchIp = r.switchIp := congrArg Position.switchIp hposition
  refine env.reads _ _ _ _ _ fun ip hip => ?_
  have hforeign : ∀ c ∈ scans, c.tenant ≠ tenant → ip ∉ c.addresses := fun c hc hne hin =>
    (h c hc hne).map ip hin r' hr' (hswitch ▸ hip)
  have hseen := @filter_kind tenant scans _ _ _ _ _ Scan.seenRows Sighting.keyed_entry
    (fun _ => rfl) (fun k => k.switchIp = ip) fun c hc hne r hr => decide_eq_false fun heq =>
      hforeign c hc hne (List.mem_append_left _ (List.mem_map.mpr ⟨r, hr, heq⟩))
  have hown := @filter_kind tenant scans _ _ _ _ _ Scan.ownRows InterfaceMac.keyed_entry
    (fun _ => rfl) (fun k => k.switchIp = ip) fun c hc hne r hr => decide_eq_false fun heq =>
      hforeign c hc hne (List.mem_append_right _
        (List.mem_append_left _ (List.mem_map.mpr ⟨r, hr, heq⟩)))
  have hbound := @filter_kind tenant scans _ _ _ _ _ Scan.boundRows ArpEntry.keyed_entry
    (fun _ => rfl) (fun k => k.ip = ip) fun c hc hne r hr => decide_eq_false fun heq =>
      hforeign c hc hne (List.mem_append_right _
        (List.mem_append_right _ (List.mem_map.mpr ⟨r, hr, heq⟩)))
  rw [run_eq, run_eq]
  refine ⟨congrArg _ hseen, ?_⟩
  exact congrArg₂ (· ++ ·) (congrArg _ hown) (congrArg _ hbound)

/-- A tenant that is spared has the inventory of its own scans. -/
theorem endpointInventory_scansOf (f : Filters) :
    endpointInventory env (History.run scans) (some [tenant]) f =
      endpointInventory env (History.run (scansOf tenant scans)) (some [tenant]) f := by
  have hown := apart_scansOf env tenant scans
  have hseen := seenIn_run hown
  have hbound := boundIn_run hown
  rw [scansOf_scansOf] at hseen hbound
  refine endpointInventory_congr f ((seenIn_run h).trans hseen.symm)
    ((boundIn_run h).trans hbound.symm) (fun r hr => ?_) fun r hr => ?_
  · exact mem_infra_iff h (hseen ▸ hr)
  · exact uplinksIn_run h (hseen ▸ hr)

end Reads

/-! ## Two histories -/

/-- **A tenant that is spared sees nothing of the others.**  Two histories with the same scans of a
tenant's devices, in which the scans for other tenants leave alone what those wrote, give the tenant
the same inventory. -/
theorem isolated {env : Surroundings} {tenant : String} {scans scans' : List Scan}
    (hsame : scansOf tenant scans = scansOf tenant scans') (h : Apart env tenant scans)
    (h' : Apart env tenant scans') (f : Filters) :
    endpointInventory env (History.run scans) (some [tenant]) f =
      endpointInventory env (History.run scans') (some [tenant]) f := by
  rw [endpointInventory_scansOf h, hsame, endpointInventory_scansOf h']
/-! ## Two tenants with the same addresses -/

/-- Nothing is known beside the tables. -/
def quiet : Surroundings where
  uplinks _ _ _ := none
  consulted _ := []
  reads _ _ _ _ _ _ := rfl
  retentionDays := 30
  assignments := []
  isAddress _ := false
  days _ := none
  now := 0

/-- A request without filters. -/
def noFilters : Filters := ⟨none, none, none, none, 7, 2000, none, none⟩

/-- A switch at the same address in every tenant, with the same address on a port. -/
def scanAt (port tenant : String) : Scan :=
  .sightings [⟨"0011.2233.4455", "10", port, "", false, "", ""⟩] "10.0.0.2" "sw1" tenant "central"
    "2026-01-01T00:00:00+00:00"

theorem isolated_otherPort :
    endpointInventory quiet (History.run [scanAt "Gi1/0/5" "acme", scanAt "Gi1/0/6" "beta"])
        (some ["acme"]) noFilters =
      endpointInventory quiet (History.run [scanAt "Gi1/0/5" "acme"]) (some ["acme"])
        noFilters := by
  have hscans : scansOf "acme" [scanAt "Gi1/0/5" "acme", scanAt "Gi1/0/6" "beta"] =
      [scanAt "Gi1/0/5" "acme"] := rfl
  refine isolated hscans (fun c hc hne => ?_) (fun c hc hne => ?_) noFilters
  · have hother : c = scanAt "Gi1/0/6" "beta" := by
      rcases List.mem_cons.mp hc with rfl | hc
      · exact absurd rfl hne
      · exact List.mem_singleton.mp hc
    subst hother
    rw [hscans]
    refine ⟨by decide, fun b hb => absurd hb List.not_mem_nil,
      fun r hr => absurd hr List.not_mem_nil, fun ip _ r _ => List.not_mem_nil⟩
  · exact absurd (congrArg Scan.tenant (List.mem_singleton.mp hc)) hne

/-- The endpoint of the one tenant is gone when the other one has it at the same position. -/
theorem moved_to_other_tenant :
    ¬ ∀ (env : Surroundings) (tenant : String) (scans scans' : List Scan) (f : Filters),
      scansOf tenant scans = scansOf tenant scans' →
        endpointInventory env (History.run scans) (some [tenant]) f =
          endpointInventory env (History.run scans') (some [tenant]) f := by
  intro h
  have hsame := congrArg Inventory.total (h quiet "acme"
    [scanAt "Gi1/0/5" "acme", scanAt "Gi1/0/5" "beta"] [scanAt "Gi1/0/5" "acme"] noFilters rfl)
  have hgone : (endpointInventory quiet
      (History.run [scanAt "Gi1/0/5" "acme", scanAt "Gi1/0/5" "beta"]) (some ["acme"])
        noFilters).total = 0 := by
    decide
  have hthere : (endpointInventory quiet (History.run [scanAt "Gi1/0/5" "acme"])
      (some ["acme"]) noFilters).total = 1 := by
    decide
  rw [hgone, hthere] at hsame
  exact Nat.zero_ne_one hsame

end SentinelNet.MacHistory
