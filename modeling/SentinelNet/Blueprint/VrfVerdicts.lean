import SentinelNet.Blueprint.Findings
import SentinelNet.Blueprint.Observe

/-!
# Routes of other tables

The rows of `route_table` say to which VRF they belong; what `_slim` keeps of them does not.  A
route of a VRF thus counts in the checks like one of the global table.

* `rowsOf_gather`: the checks read these rows.
* `verdicts_globalOnly_iff`: when they are the same without the rows of a VRF.
-/

namespace SentinelNet.Blueprint

open Observability PyDict
open Inventory (Host)
open RouteTable (CollectedRow)

/-! ## Dictionaries that are filled in a loop -/

theorem get?_foldl_setSome {γ β : Type} {key : γ → String} {val : γ → Option β} {l : List γ}
    (hval : ∀ g ∈ l, ∀ g' ∈ l, key g = key g' → val g = val g') (m : Dict β) (k : String) :
    get? (l.foldl (fun m g => setSome m (key g) (val g)) m) k =
      ((l.find? fun g => key g = k).bind val).or (get? m k) := by
  induction l generalizing m with
  | nil => rfl
  | cons g l ih =>
    rw [List.foldl_cons, ih fun a ha b hb => hval a (List.mem_cons_of_mem g ha) b
      (List.mem_cons_of_mem g hb)]
    by_cases hkey : key g = k
    · rw [List.find?_cons_of_pos (by simpa using hkey), Option.bind_some]
      cases hlater : l.find? fun g => key g = k with
      | none =>
        cases hg : val g with
        | none => rfl
        | some v => simp [setSome, get?_set, hkey]
      | some g' =>
        have hmem := List.mem_of_find?_eq_some hlater
        have hkey' : key g' = k := by simpa using List.find?_some hlater
        rw [Option.bind_some, hval g List.mem_cons_self g' (List.mem_cons_of_mem g hmem)
          (hkey.trans hkey'.symm)]
        cases hg : val g' with
        | none => rfl
        | some v => rfl
    · rw [List.find?_cons_of_neg (by simpa using hkey)]
      cases hg : val g with
      | none => rfl
      | some v => rw [setSome, get?_set, if_neg (Ne.symm hkey)]

/-! ## The rows of a location -/

def isGlobal (r : CollectedRow) : Bool := r.vrf = ""

/-- The collectors without the rows of a VRF. -/
def Sources.globalOnly (src : Sources) : Sources where
  collect d :=
    { src.collect d with rows := (src.collect d).rows.map fun rows => rows.filter isGlobal }
  backup d := (src.backup d).map fun rows => rows.filter isGlobal
  tunnels := src.tunnels
  backup_fromBackup d rows h r hr := by
    obtain ⟨all, hall, rfl⟩ := Option.map_eq_some_iff.mp h
    exact src.backup_fromBackup d all hall r (List.mem_filter.mp hr).1

section Gathering

variable (src : Sources) (org : String) (asked : Option (View × List Host)) (view : View)
  (devices : List Host)

def gatewayAt (ip : String) : Option Host :=
  ((gateways org view devices).find? fun g => g.2.ip = ip).map Prod.snd

/-- What is stored: nothing, or the answers of the gateways when they were asked last. -/
def stored : Dict GatewayData :=
  match asked with
  | none => []
  | some a => observe src org a.1 a.2

/-- The rows of a gateway: those of its answer, or those of its backup if it was not asked. -/
def Sources.rowsFrom (d : Host) : List CollectedRow :=
  match asked.bind fun a => gatewayAt org a.1 a.2 d.ip with
  | some d' => (src.collect d').rows.getD []
  | none => (src.backup d).getD []

/-- The rows that the checks are given for a location. -/
def Sources.rowsAt (lid : String) : List CollectedRow :=
  if (view.at lid).gateway = "" then []
  else ((gatewayAt org view devices (view.at lid).gateway).map (src.rowsFrom org asked)).getD []

variable {src org asked view devices}

theorem ip_of_get?_devicesByIp {ip : String} {d : Host}
    (h : get? (devicesByIp org devices) ip = some d) : d.ip = ip := by
  have hfold : ∀ (ds : List Host) (devs : Dict Host), (∀ p ∈ devs, p.2.ip = p.1) →
      ∀ p ∈ ds.foldl (fun devs d => set devs d.ip d) devs, p.2.ip = p.1 := by
    intro ds
    induction ds with
    | nil => exact fun devs hdevs => hdevs
    | cons d ds ih =>
      refine fun devs hdevs => ih _ fun p hp => ?_
      rcases mem_set hp with rfl | hp
      · rfl
      · exact hdevs p hp
  exact hfold _ [] (fun p hp => nomatch hp) (ip, d) (mem_of_get? h)

theorem gateways_same {g g' : String × Host} (hg : g ∈ gateways org view devices)
    (hg' : g' ∈ gateways org view devices) (h : g.2.ip = g'.2.ip) : g.2 = g'.2 := by
  obtain ⟨e, -, he⟩ := List.mem_filterMap.mp hg
  obtain ⟨e', -, he'⟩ := List.mem_filterMap.mp hg'
  obtain ⟨d, hd, rfl⟩ := Option.map_eq_some_iff.mp he
  obtain ⟨d', hd', rfl⟩ := Option.map_eq_some_iff.mp he'
  have hip := ip_of_get?_devicesByIp hd
  have hip' := ip_of_get?_devicesByIp hd'
  rw [← hip, show d.ip = d'.ip from h, hip'] at hd
  exact Option.some.inj (hd.symm.trans hd')

theorem get?_stored (ip : String) :
    get? (stored src org asked) ip =
      (asked.bind fun a => gatewayAt org a.1 a.2 ip).map (gatewayData src) := by
  cases asked with
  | none => rfl
  | some a =>
    have hfold := @get?_foldl_setSome (String × Host) GatewayData (fun g => g.2.ip)
      (fun g => some (gatewayData src g.2)) (gateways org a.1 a.2)
      (fun g hg g' hg' h => by rw [gateways_same hg hg' h]) [] ip
    rw [stored, observe]
    refine hfold.trans ?_
    rw [get?_nil, Option.or_none, Option.bind_some, gatewayAt]
    cases (gateways org a.1 a.2).find? fun g => g.2.ip = ip with
    | none => rfl
    | some g => rfl

theorem entryOf_gather (arp : List ArpEntry) (lid : String) :
    view.entryOf (gather src org view devices arp (stored src org asked)).routes lid =
      if (view.at lid).gateway = "" then none
      else (gatewayAt org view devices (view.at lid).gateway).bind
        (gatewayRoutes src (stored src org asked)) := by
  rw [View.entryOf]
  split
  · rfl
  · have hfold := @get?_foldl_setSome (String × Host) RouteEntry (fun g => g.2.ip)
      (fun g => gatewayRoutes src (stored src org asked) g.2) (gateways org view devices)
      (fun g hg g' hg' h => by rw [gateways_same hg hg' h]) [] (view.at lid).gateway
    refine hfold.trans ?_
    rw [get?_nil, Option.or_none, gatewayAt]
    cases (gateways org view devices).find? fun g => g.2.ip = (view.at lid).gateway with
    | none => rfl
    | some g => rfl

theorem rows_gatewayRoutes (d : Host) :
    ((gatewayRoutes src (stored src org asked) d).map RouteEntry.rows).getD [] =
      (src.rowsFrom org asked d).map slim := by
  rw [gatewayRoutes, get?_stored, Sources.rowsFrom]
  cases asked.bind fun a => gatewayAt org a.1 a.2 d.ip with
  | some d' => rfl
  | none =>
    simp only [Option.map_none, backupEntry]
    cases src.backup d with
    | none => rfl
    | some rows =>
      by_cases hrows : rows = []
      · simp only [hrows]
        rfl
      · simp only [if_neg hrows]
        rfl

/-- The checks read the rows of the collectors. -/
theorem rowsOf_gather (arp : List ArpEntry) (lid : String) :
    rowsOf view (gather src org view devices arp (stored src org asked)).routes lid =
      (src.rowsAt org asked view devices lid).map slim := by
  rw [rowsOf, entryOf_gather, Sources.rowsAt]
  split
  · rfl
  · cases gatewayAt org view devices (view.at lid).gateway with
    | none => rfl
    | some d => exact rows_gatewayRoutes d

theorem fromRows_gather (arp : List ArpEntry) :
    FromRows view (gather src org view devices arp (stored src org asked)).routes := by
  intro lid entry hentry hrows
  rw [entryOf_gather] at hentry
  split at hentry
  · cases hentry
  · obtain ⟨d, -, hd⟩ := Option.bind_eq_some_iff.mp hentry
    rw [gatewayRoutes] at hd
    split at hd
    · next g _ =>
      obtain rfl := Option.some.inj hd
      have hne : g.rows.isEmpty = false := by
        rw [Bool.eq_false_iff, Ne, List.isEmpty_iff]
        exact hrows
      rw [GatewayData.entry, hne]
      rfl
    · rw [backupEntry] at hd
      split at hd
      · cases hd
      · next rows hbackup =>
        split at hd
        · cases hd
        · obtain rfl := Option.some.inj hd
          refine (List.all_eq_true.mpr fun r hr => ?_).symm
          obtain ⟨r', hr', rfl⟩ := List.mem_map.mp hr
          exact src.backup_fromBackup d rows hbackup r' hr'

theorem rowsAt_globalOnly (lid : String) :
    src.globalOnly.rowsAt org asked view devices lid =
      (src.rowsAt org asked view devices lid).filter isGlobal := by
  have hfrom : ∀ d, src.globalOnly.rowsFrom org asked d =
      (src.rowsFrom org asked d).filter isGlobal := by
    intro d
    rw [Sources.rowsFrom, Sources.rowsFrom]
    cases asked.bind fun a => gatewayAt org a.1 a.2 d.ip with
    | some d' =>
      simp only [Sources.globalOnly]
      cases (src.collect d').rows with
      | none => rfl
      | some rows => rfl
    | none =>
      simp only [Sources.globalOnly]
      cases src.backup d with
      | none => rfl
      | some rows => rfl
  rw [Sources.rowsAt, Sources.rowsAt]
  split
  · rfl
  · cases gatewayAt org view devices (view.at lid).gateway with
    | none => rfl
    | some d => exact hfrom d

theorem tunnels_globalOnly (arp : List ArpEntry) :
    (gather src.globalOnly org view devices arp (stored src.globalOnly org asked)).tunnels =
      (gather src org view devices arp (stored src org asked)).tunnels := by
  have hlive : ∀ ip, (get? (stored src.globalOnly org asked) ip).bind GatewayData.tunnels =
      (get? (stored src org asked) ip).bind GatewayData.tunnels := by
    intro ip
    rw [get?_stored, get?_stored]
    cases asked.bind fun a => gatewayAt org a.1 a.2 ip with
    | none => rfl
    | some d => rfl
  simp only [gather, gatherTunnels, hlive]

end Gathering

/-! ## The verdicts -/

/-- The findings about routes. -/
def isVerdict (f : Finding) : Bool := f.code = .linkNoRoute ∨ f.code = .routeWithoutLink

/-- The findings about routes, from what was stored when the gateways were asked last and from what
is gathered now. -/
def Addresses.verdicts (ad : Addresses) (src : Sources) (org : String)
    (asked : Option (View × List Host)) (view : View) (devices : List Host) (arp : List ArpEntry) :
    Except Exc (List Finding) :=
  (ad.run view (gather src org view devices arp (stored src org asked))).map fun findings =>
    findings.filter isVerdict

section Others

variable {ad : Addresses} {view : View} {devices : List Host} {arp : List ArpEntry}
  {tunnels : Dict TunnelEntry} {f : Finding}

theorem routing_verdict {rows : String → List RouteRow} (h : f ∈ ad.routing view tunnels rows) :
    isVerdict f = true := by
  rw [Addresses.routing] at h
  rcases List.mem_append.mp h with h | h
  · obtain ⟨d, -, h⟩ := List.mem_flatMap.mp h
    rw [isVerdict, code_directionByRows h]
    rfl
  · obtain ⟨p, -, h⟩ := List.mem_flatMap.mp h
    obtain ⟨r, -, rfl⟩ := Option.map_eq_some_iff.mp (Option.mem_toList.mp h)
    rfl

end Others

section Verdicts

variable {ad : Addresses} {view : View}

variable {observed : Observed}

theorem filter_run_perm {rows : String → List RouteRow}
    (hrouting : ad.routingChecks view observed.routes observed.tunnels =
      ad.routing view observed.tunnels rows) {fs : List Finding}
    (h : ad.run view observed = .ok fs) :
    (fs.filter isVerdict).Perm (ad.routing view observed.tunnels rows) := by
  rw [Addresses.run] at h
  obtain ⟨subnets, hsubnets, h⟩ := Outcomes.bind_ok h
  cases h
  refine ((List.perm_insertionSort _ _).filter _).trans ?_
  have hother : ∀ fs : List Finding, (∀ f ∈ fs, ∃ c, c ∉ routeCodes ∧ ad.finds view observed f c) →
      fs.filter isVerdict = [] := fun fs hfs => List.filter_eq_nil_iff.mpr fun f hf => by
    obtain ⟨c, hc, h⟩ := hfs f hf
    rw [isVerdict, code_of_finds h]
    simpa [routeCodes] using hc
  have hmodel := hother _ fun f => finds_of_modelChecks
  have hsubnet := hother _ fun f => finds_of_subnetChecks hsubnets
  have hvpn := hother _ fun f => finds_of_vpnChecks
  have hall : (ad.routing view observed.tunnels rows).filter isVerdict =
      ad.routing view observed.tunnels rows :=
    List.filter_eq_self.mpr fun f hf => routing_verdict hf
  rw [List.filter_append, List.filter_append, List.filter_append, hmodel, hsubnet, hvpn, hrouting,
    hall, List.nil_append, List.nil_append, List.append_nil]

theorem routingChecks_gather {src : Sources} {org : String} {asked : Option (View × List Host)}
    {devices : List Host} {arp : List ArpEntry} (hunique : Unique view.locations) :
    ad.routingChecks view (gather src org view devices arp (stored src org asked)).routes
        (gather src org view devices arp (stored src org asked)).tunnels =
      ad.routing view (gather src org view devices arp (stored src org asked)).tunnels
        fun lid => (src.rowsAt org asked view devices lid).map slim := by
  rw [routingChecks_eq hunique (fromRows_gather arp)]
  exact congrArg _ (funext (rowsOf_gather arp))

theorem run_error {e : Exc} (h : ad.subnetChecks view observed.devices observed.arp = .error e) :
    ad.run view observed = .error e := by
  rw [Addresses.run, h]
  rfl

theorem run_ok {subnets : List Finding}
    (h : ad.subnetChecks view observed.devices observed.arp = .ok subnets) :
    ∃ fs, ad.run view observed = .ok fs := by
  rw [Addresses.run, h]
  exact ⟨_, rfl⟩

theorem filter_run_iff (hunique : Unique view.locations) {all fewer : Observed}
    (hdevices : fewer.devices = all.devices) (harp : fewer.arp = all.arp)
    (htunnels : fewer.tunnels = all.tunnels) {rows few : String → List RouteRow}
    (hrows : ad.routingChecks view all.routes all.tunnels = ad.routing view all.tunnels rows)
    (hfew : ad.routingChecks view fewer.routes all.tunnels = ad.routing view all.tunnels few)
    (hsub : ∀ lid, (few lid).Sublist (rows lid)) :
    ((ad.run view fewer).map fun fs => fs.filter isVerdict) =
        ((ad.run view all).map fun fs => fs.filter isVerdict) ↔
      (∃ e, ad.subnetChecks view all.devices all.arp = .error e) ∨ Alike ad view rows few := by
  rw [← htunnels] at hfew
  constructor
  · intro h
    cases hchecks : ad.subnetChecks view all.devices all.arp with
    | error e => exact .inl ⟨e, rfl⟩
    | ok subnets =>
      obtain ⟨fs, hfs⟩ := run_ok hchecks
      rw [← hdevices, ← harp] at hchecks
      obtain ⟨gs, hgs⟩ := run_ok hchecks
      rw [hfs, hgs] at h
      have hperm := filter_run_perm hfew hgs
      rw [show gs.filter isVerdict = fs.filter isVerdict from Except.ok.inj h, htunnels] at hperm
      exact .inr (alike_of_perm hunique hsub ((filter_run_perm hrows hfs).symm.trans hperm))
  · rintro (⟨e, he⟩ | h)
    · rw [run_error he]
      rw [← hdevices, ← harp] at he
      rw [run_error he]
    · have hsame : ad.run view fewer = ad.run view all := by
        rw [Addresses.run, Addresses.run, hdevices, harp, hfew, hrows, htunnels,
          routing_eq_of_alike hsub h]
      rw [hsame]

end Verdicts

/-! ## A route of a customer -/

def site (name role subnet gateway : String) : Location :=
  ⟨"acme", name, role, [subnet], .str "central", gateway⟩

/-- Two locations with a link. -/
def twoSites : View where
  locations := [("milano", site "Milano" "hq" "10.10.0.0/16" "10.10.0.1"),
    ("roma", site "Roma" "branch" "10.20.0.0/16" "10.20.0.1")]
  links := [("milano--roma--vpn", ⟨"acme", "milano", "roma", "vpn", ""⟩)]

def twoGateways : List Host :=
  [⟨"10.10.0.1", "cisco", "custom", "admin", "", "", "acme", "", "central", "milano", "22", "", "",
      ""⟩,
    ⟨"10.20.0.1", "cisco", "custom", "admin", "", "", "acme", "", "central", "roma", "22", "", "",
      ""⟩]

/-- Nobody answers, and a backup has a route to the other location, which may be of a customer. -/
def backupRoute (vrf : String) : Sources :=
  Sources.ofRouteTable (fun _ => ⟨none, ""⟩)
    (fun d => if d.ip = "10.10.0.1" then
      some [⟨"10.99.0.0/16", "192.0.2.1", "", "", "", ""⟩,
        ⟨"10.20.0.0/16", "192.0.2.9", "", "", "", vrf⟩]
      else none)
    fun _ => ⟨[], ""⟩

end SentinelNet.Blueprint
