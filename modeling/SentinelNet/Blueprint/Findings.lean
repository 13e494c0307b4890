import SentinelNet.Lib.Outcomes
import SentinelNet.Blueprint.RouteVerdicts

/-!
# What each check finds

Every check has its own code, so what `run` returns can be read code by code: a finding is there
exactly when the check of its code finds it.

* `Addresses.finds`: what the check of a code finds.
* `mem_run_iff`: the findings of `run`.
* `exists_run_iff`: `run` raises nothing when the check of every device and of every ARP entry does
  not.
* `mem_overlaps` to `mem_tunnelLoop`: the checks one by one, from the tables.
-/

namespace SentinelNet.Blueprint

open Observability PyDict PyText IpNetwork Outcomes Claims
open Inventory (Host)

/-! ## Codes -/

section Codes

variable (ad : Addresses) (view : View) (observed : Observed)

def Addresses.finds (f : Finding) : Code → Prop
  | .subnetOverlap => f ∈ ad.overlaps view
  | .locationNoSubnets => f ∈ view.bare
  | .locationIsolated => f ∈ view.isolated
  | .locationNoGateway =>
    ∃ e ∈ view.locations, e.2.gateway = "" ∧ gatewayFinding observed.devices e = some f
  | .gatewayNotInLocation =>
    ∃ e ∈ view.locations, e.2.gateway ≠ "" ∧ gatewayFinding observed.devices e = some f
  | .deviceOutsideSubnets => ∃ d ∈ observed.devices, ad.deviceFinding view d = .ok (some f)
  | .arpUncovered =>
    ∃ keys, observed.arp.mapM (ad.uncovered view) = .ok keys ∧
      f ∈ arpFindings view keys.reduceOption
  | .subnetUnused => ∃ e ∈ view.locations, f ∈ ad.unused observed.devices observed.arp e
  | .linkNoRoute => ∃ k ∈ view.links, f ∈ ad.linkFindings view observed.routes k
  | .routeWithoutLink =>
    f ∈ (view.pairs.foldl (ad.routePair view observed.routes observed.tunnels) ([], [])).1
  | .vpnLinkDown =>
    ∃ k ∈ view.links, k.2.kind = "vpn" ∧
      f ∈ ad.vpnFindings view observed.tunnels observed.devices k
  | .tunnelWithoutLink =>
    f ∈ ((view.tunnelPairs observed.tunnels observed.devices).foldl (ad.tunnelPair view)
      ([], [])).1

variable {ad view observed} {f : Finding} {fs : List Finding}

theorem of_overlapFinding {a b : String × Location} {na nb : Network}
    (h : ad.overlapFinding a b na nb = some f) :
    f.code = .subnetOverlap ∧ f.proposal = none := by
  rw [Addresses.overlapFinding] at h
  obtain ⟨-, heq⟩ := Option.ite_none_right_eq_some.mp h
  rw [← Option.some.inj heq]
  exact ⟨rfl, rfl⟩

variable {e : String × Location}

theorem of_gatewayFinding (hempty : e.2.gateway ≠ "")
    (h : gatewayFinding observed.devices e = some f) :
    f.code = .gatewayNotInLocation ∧ f.proposal = none := by
  rw [gatewayFinding, if_neg hempty] at h
  obtain ⟨-, heq⟩ := Option.ite_none_left_eq_some.mp h
  rw [← Option.some.inj heq]
  exact ⟨rfl, rfl⟩

theorem of_gatewayFinding_empty (hempty : e.2.gateway = "")
    (h : gatewayFinding observed.devices e = some f) :
    f.code = .locationNoGateway ∧ f.subject = .location e.1 ∧ get? f.params "subnet" = none ∧
      f.proposal =
        match candidates observed.devices e.1 with
        | [ip] => some [setGatewayOp e.1 ip]
        | _ => none := by
  rw [gatewayFinding, if_pos hempty] at h
  rw [← Option.some.inj h]
  exact ⟨rfl, rfl, rfl, rfl⟩

theorem code_deviceFinding {d : Host} (h : ad.deviceFinding view d = .ok (some f)) :
    f.code = .deviceOutsideSubnets := by
  rw [Addresses.deviceFinding] at h
  split at h
  · cases h
  · split at h
    · cases h
    · obtain ⟨proposal, -, heq⟩ := map_ok h
      rw [← Option.some.inj heq]
      rfl

theorem of_unused (h : f ∈ ad.unused observed.devices observed.arp e) :
    f.code = .subnetUnused ∧ f.proposal = none := by
  rw [Addresses.unused] at h
  split at h
  · cases h
  · obtain ⟨n, -, rfl⟩ := List.mem_map.mp h
    exact ⟨rfl, rfl⟩

theorem of_directionFindings {lkid src dst : String}
    (h : f ∈ ad.directionFindings view observed.routes lkid src dst) :
    f.code = .linkNoRoute ∧ f.proposal = none := by
  rw [Addresses.directionFindings] at h
  split at h
  · rw [List.mem_singleton.mp h]
    exact ⟨rfl, rfl⟩
  · split at h
    · rw [List.mem_singleton.mp h]
      exact ⟨rfl, rfl⟩
    · obtain ⟨s, -, hs⟩ := List.mem_filterMap.mp h
      rw [Addresses.noRoute] at hs
      obtain ⟨-, heq⟩ := Option.ite_none_left_eq_some.mp hs
      rw [← Option.some.inj heq]
      exact ⟨rfl, rfl⟩

theorem of_linkFindings {k : String × Link} (h : f ∈ ad.linkFindings view observed.routes k) :
    f.code = .linkNoRoute ∧ f.proposal = none := by
  rw [Addresses.linkFindings] at h
  exact (List.mem_append.mp h).elim of_directionFindings of_directionFindings

theorem of_sideFindings {lkid side other : String} {ts : List Tunnel}
    (h : f ∈ ad.sideFindings view lkid side other ts) :
    f.code = .vpnLinkDown ∧ f.proposal = none := by
  rw [Addresses.sideFindings] at h
  split at h
  · rw [List.mem_singleton.mp h]
    exact ⟨rfl, rfl⟩
  · split at h
    · cases h
    · rw [List.mem_singleton.mp h]
      exact ⟨rfl, rfl⟩

theorem of_vpnFindings {k : String × Link}
    (h : f ∈ ad.vpnFindings view observed.tunnels observed.devices k) :
    f.code = .vpnLinkDown ∧ f.proposal = none := by
  have hside : ∀ (o : Option (List Tunnel)) (side other : String),
      f ∈ (o.map (ad.sideFindings view k.1 side other)).getD [] →
        f.code = .vpnLinkDown ∧ f.proposal = none := by
    intro o side other hf
    cases o with
    | none => cases hf
    | some ts => exact of_sideFindings hf
  simp only [Addresses.vpnFindings, List.mem_append] at h
  rcases h with (h | h) | h
  · exact hside _ _ _ h
  · exact hside _ _ _ h
  · split at h
    · rw [List.mem_singleton.mp h]
      exact ⟨rfl, rfl⟩
    · cases h

theorem exists_routeFinding
    (h : f ∈ (view.pairs.foldl (ad.routePair view observed.routes observed.tunnels) ([], [])).1) :
    ∃ (p : String × String) (row : RouteRow),
      f = routeFinding view observed.tunnels p.1 p.2 row := by
  rw [routePair_eq_take, mem_foldl_take] at h
  obtain ⟨-, p, -, -, hfound, -⟩ := h
  obtain ⟨row, -, rfl⟩ := Option.map_eq_some_iff.mp hfound
  exact ⟨p, row, rfl⟩

/-- What is found of a tunnel and a location. -/
def Addresses.meeting (ad : Addresses) (view : View) (c : String × Tunnel × String) :
    Option Finding :=
  if c.2.2 = c.1 ∨ pair c.1 c.2.2 ∈ view.linked (fun k => k.kind = "vpn") ∨
      ad.tunnelMatches c.2.1 (view.at c.2.2) = false then none
  else some (tunnelFinding view c.1 c.2.2 c.2.1)

theorem tunnelPair_eq_take :
    ad.tunnelPair view = take (fun c => pair c.1 c.2.2) (ad.meeting view) := by
  funext st c
  rw [Addresses.tunnelPair, take, Addresses.meeting]
  by_cases hseen : pair c.1 c.2.2 ∈ st.2
  · rw [if_pos (.inr (.inr (.inl hseen))), if_pos hseen]
  · rw [if_neg hseen]
    by_cases hbad : c.2.2 = c.1 ∨ pair c.1 c.2.2 ∈ view.linked (fun k => k.kind = "vpn") ∨
        ad.tunnelMatches c.2.1 (view.at c.2.2) = false
    · rw [if_pos hbad, if_pos (hbad.imp_right (.imp_right .inr))]
    · rw [if_neg hbad, if_neg]
      rintro (h | h | h | h)
      · exact hbad (.inl h)
      · exact hbad (.inr (.inl h))
      · exact hseen h
      · exact hbad (.inr (.inr h))

theorem exists_tunnelFinding
    (h : f ∈ ((view.tunnelPairs observed.tunnels observed.devices).foldl (ad.tunnelPair view)
      ([], [])).1) : ∃ src dst t, f = tunnelFinding view src dst t := by
  rw [tunnelPair_eq_take, mem_foldl_take] at h
  obtain ⟨-, c, -, -, hfound, -⟩ := h
  rw [Addresses.meeting] at hfound
  obtain ⟨-, heq⟩ := Option.ite_none_left_eq_some.mp hfound
  exact ⟨c.1, c.2.2, c.2.1, (Option.some.inj heq).symm⟩

theorem of_overlaps (h : f ∈ ad.overlaps view) : f.code = .subnetOverlap ∧ f.proposal = none := by
  obtain ⟨p, -, h⟩ := List.mem_flatMap.mp h
  obtain ⟨na, -, h⟩ := List.mem_flatMap.mp h
  obtain ⟨nb, -, h⟩ := List.mem_filterMap.mp h
  exact of_overlapFinding h

theorem code_of_finds {c : Code} (h : ad.finds view observed f c) : f.code = c := by
  cases c with
  | subnetOverlap => exact (of_overlaps h).1
  | locationNoSubnets =>
    obtain ⟨e, -, rfl⟩ := List.mem_map.mp h
    rfl
  | locationIsolated =>
    obtain ⟨e, -, rfl⟩ := List.mem_map.mp h
    rfl
  | locationNoGateway =>
    obtain ⟨e, -, hempty, h⟩ := h
    exact (of_gatewayFinding_empty hempty h).1
  | gatewayNotInLocation =>
    obtain ⟨e, -, hempty, h⟩ := h
    exact (of_gatewayFinding hempty h).1
  | deviceOutsideSubnets =>
    obtain ⟨d, -, h⟩ := h
    exact code_deviceFinding h
  | arpUncovered =>
    obtain ⟨keys, -, h⟩ := h
    obtain ⟨k, -, rfl⟩ := List.mem_map.mp h
    rfl
  | subnetUnused =>
    obtain ⟨e, -, h⟩ := h
    exact (of_unused h).1
  | linkNoRoute =>
    obtain ⟨k, -, h⟩ := h
    exact (of_linkFindings h).1
  | routeWithoutLink =>
    obtain ⟨p, row, rfl⟩ := exists_routeFinding h
    rfl
  | vpnLinkDown =>
    obtain ⟨k, -, -, h⟩ := h
    exact (of_vpnFindings h).1
  | tunnelWithoutLink =>
    obtain ⟨src, dst, t, rfl⟩ := exists_tunnelFinding h
    rfl

/-- Six checks propose something. -/
def proposing : List Code :=
  [.locationIsolated, .locationNoGateway, .deviceOutsideSubnets, .arpUncovered, .routeWithoutLink,
    .tunnelWithoutLink]

theorem proposal_of_finds {c : Code} (h : ad.finds view observed f c) (hc : c ∉ proposing) :
    f.proposal = none := by
  cases c with
  | subnetOverlap => exact (of_overlaps h).2
  | locationNoSubnets =>
    obtain ⟨e, -, rfl⟩ := List.mem_map.mp h
    rfl
  | gatewayNotInLocation =>
    obtain ⟨e, -, hempty, h⟩ := h
    exact (of_gatewayFinding hempty h).2
  | subnetUnused =>
    obtain ⟨e, -, h⟩ := h
    exact (of_unused h).2
  | linkNoRoute =>
    obtain ⟨k, -, h⟩ := h
    exact (of_linkFindings h).2
  | vpnLinkDown =>
    obtain ⟨k, -, -, h⟩ := h
    exact (of_vpnFindings h).2
  | locationIsolated => exact absurd (by decide) hc
  | locationNoGateway => exact absurd (by decide) hc
  | deviceOutsideSubnets => exact absurd (by decide) hc
  | arpUncovered => exact absurd (by decide) hc
  | routeWithoutLink => exact absurd (by decide) hc
  | tunnelWithoutLink => exact absurd (by decide) hc

/-- The codes of the findings about routes. -/
def routeCodes : List Code := [.linkNoRoute, .routeWithoutLink]

theorem finds_of_modelChecks (h : f ∈ ad.modelChecks view observed.devices) :
    ∃ c, c ∉ routeCodes ∧ ad.finds view observed f c := by
  simp only [Addresses.modelChecks, List.mem_append] at h
  rcases h with ((h | h) | h) | h
  · exact ⟨.subnetOverlap, by decide, h⟩
  · exact ⟨.locationNoSubnets, by decide, h⟩
  · exact ⟨.locationIsolated, by decide, h⟩
  · obtain ⟨e, he, h⟩ := List.mem_filterMap.mp h
    by_cases hempty : e.2.gateway = ""
    · exact ⟨.locationNoGateway, by decide, e, mem_sortedItems.mp he, hempty, h⟩
    · exact ⟨.gatewayNotInLocation, by decide, e, mem_sortedItems.mp he, hempty, h⟩

theorem finds_of_subnetChecks (hfs : ad.subnetChecks view observed.devices observed.arp = .ok fs)
    (h : f ∈ fs) : ∃ c, c ∉ routeCodes ∧ ad.finds view observed f c := by
  rw [Addresses.subnetChecks] at hfs
  obtain ⟨outside, houtside, hfs⟩ := bind_ok hfs
  obtain ⟨keys, hkeys, hfs⟩ := bind_ok hfs
  cases hfs
  simp only [List.mem_append] at h
  rcases h with (h | h) | h
  · obtain ⟨o, ho, rfl : o = some f⟩ := List.mem_filterMap.mp h
    obtain ⟨d, hd, h⟩ := mem_mapM_ok houtside ho
    exact ⟨.deviceOutsideSubnets, by decide, d, hd, h⟩
  · exact ⟨.arpUncovered, by decide, keys, hkeys, h⟩
  · obtain ⟨e, he, h⟩ := List.mem_flatMap.mp h
    exact ⟨.subnetUnused, by decide, e, mem_sortedItems.mp he, h⟩

theorem finds_of_vpnChecks (h : f ∈ ad.vpnChecks view observed.tunnels observed.devices) :
    ∃ c, c ∉ routeCodes ∧ ad.finds view observed f c := by
  rcases List.mem_append.mp h with h | h
  · obtain ⟨k, hk, h⟩ := List.mem_flatMap.mp h
    obtain ⟨hk, hvpn⟩ := List.mem_filter.mp hk
    exact ⟨.vpnLinkDown, by decide, k, mem_sortedItems.mp hk, of_decide_eq_true hvpn, h⟩
  · exact ⟨.tunnelWithoutLink, by decide, h⟩

theorem mem_run (hrun : ad.run view observed = .ok fs) :
    f ∈ fs ↔ ∃ c, ad.finds view observed f c := by
  rw [Addresses.run] at hrun
  obtain ⟨subnets, hsubnets, hrun⟩ := bind_ok hrun
  cases hrun
  simp only [List.mem_insertionSort, List.mem_append]
  constructor
  · rintro (((h | h) | h) | h)
    · exact (finds_of_modelChecks h).imp fun _ => And.right
    · exact (finds_of_subnetChecks hsubnets h).imp fun _ => And.right
    · rcases List.mem_append.mp h with h | h
      · obtain ⟨k, hk, h⟩ := List.mem_flatMap.mp h
        exact ⟨.linkNoRoute, k, mem_sortedItems.mp hk, h⟩
      · exact ⟨.routeWithoutLink, h⟩
    · exact (finds_of_vpnChecks h).imp fun _ => And.right
  · rw [Addresses.subnetChecks] at hsubnets
    obtain ⟨outside, houtside, hsubnets⟩ := bind_ok hsubnets
    obtain ⟨keys, hkeys, hsubnets⟩ := bind_ok hsubnets
    cases hsubnets
    simp only [List.mem_append, Addresses.modelChecks, Addresses.routingChecks, Addresses.vpnChecks]
    rintro ⟨c, h⟩
    cases c with
    | subnetOverlap => exact .inl (.inl (.inl (.inl (.inl (.inl h)))))
    | locationNoSubnets => exact .inl (.inl (.inl (.inl (.inl (.inr h)))))
    | locationIsolated => exact .inl (.inl (.inl (.inl (.inr h))))
    | locationNoGateway =>
      obtain ⟨e, he, -, h⟩ := h
      exact .inl (.inl (.inl (.inr (List.mem_filterMap.mpr ⟨e, mem_sortedItems.mpr he, h⟩))))
    | gatewayNotInLocation =>
      obtain ⟨e, he, -, h⟩ := h
      exact .inl (.inl (.inl (.inr (List.mem_filterMap.mpr ⟨e, mem_sortedItems.mpr he, h⟩))))
    | deviceOutsideSubnets =>
      obtain ⟨d, hd, h⟩ := h
      exact .inl (.inl (.inr (.inl (.inl (List.mem_filterMap.mpr
        ⟨some f, mem_of_mapM_ok houtside hd h, rfl⟩)))))
    | arpUncovered =>
      obtain ⟨keys', hkeys', h⟩ := h
      rw [hkeys] at hkeys'
      obtain rfl := Except.ok.inj hkeys'
      exact .inl (.inl (.inr (.inl (.inr h))))
    | subnetUnused =>
      obtain ⟨e, he, h⟩ := h
      exact .inl (.inl (.inr (.inr (List.mem_flatMap.mpr ⟨e, mem_sortedItems.mpr he, h⟩))))
    | linkNoRoute =>
      obtain ⟨k, hk, h⟩ := h
      exact .inl (.inr (.inl (List.mem_flatMap.mpr ⟨k, mem_sortedItems.mpr hk, h⟩)))
    | routeWithoutLink => exact .inl (.inr (.inr h))
    | vpnLinkDown =>
      obtain ⟨k, hk, hvpn, h⟩ := h
      exact .inr (.inl (List.mem_flatMap.mpr
        ⟨k, List.mem_filter.mpr ⟨mem_sortedItems.mpr hk, decide_eq_true hvpn⟩, h⟩))
    | tunnelWithoutLink => exact .inr (.inr h)

/-- A finding is there exactly when the check of its code finds it. -/
theorem mem_run_iff (hrun : ad.run view observed = .ok fs) :
    f ∈ fs ↔ ad.finds view observed f f.code := by
  rw [mem_run hrun]
  constructor
  · rintro ⟨c, h⟩
    rw [code_of_finds h]
    exact h
  · exact fun h => ⟨f.code, h⟩

/-- `run` raises nothing when the check of every device and of every ARP entry does not. -/
theorem exists_run_iff : (∃ fs, ad.run view observed = .ok fs) ↔
    (∀ d ∈ observed.devices, ∃ o, ad.deviceFinding view d = .ok o) ∧
      ∀ e ∈ observed.arp, ∃ o, ad.uncovered view e = .ok o := by
  rw [← exists_mapM_ok, ← exists_mapM_ok]
  constructor
  · rintro ⟨fs, hrun⟩
    rw [Addresses.run] at hrun
    obtain ⟨subnets, hsubnets, -⟩ := bind_ok hrun
    rw [Addresses.subnetChecks] at hsubnets
    obtain ⟨outside, houtside, hsubnets⟩ := bind_ok hsubnets
    obtain ⟨keys, hkeys, -⟩ := bind_ok hsubnets
    exact ⟨⟨outside, houtside⟩, keys, hkeys⟩
  · rintro ⟨⟨outside, houtside⟩, keys, hkeys⟩
    rw [Addresses.run, Addresses.subnetChecks, houtside, hkeys]
    exact ⟨_, rfl⟩

end Codes

/-! ## Overlaps -/

theorem mem_combinations {α : Type} {r : α → α → Prop} (hasymm : ∀ a b, r a b → ¬ r b a)
    {l : List α} (hl : l.Pairwise r) {a b : α} :
    (a, b) ∈ combinations l ↔ a ∈ l ∧ b ∈ l ∧ r a b := by
  induction l with
  | nil => simp [combinations]
  | cons c l ih =>
    obtain ⟨hc, hl⟩ := List.pairwise_cons.mp hl
    rw [combinations, List.mem_append, ih hl]
    constructor
    · rintro (h | ⟨ha, hb, hab⟩)
      · obtain ⟨b, hb, heq⟩ := List.mem_map.mp h
        obtain ⟨rfl, rfl⟩ := Prod.mk.inj heq
        exact ⟨List.mem_cons_self .., List.mem_cons_of_mem _ hb, hc _ hb⟩
      · exact ⟨List.mem_cons_of_mem c ha, List.mem_cons_of_mem c hb, hab⟩
    · rintro ⟨ha, hb, hab⟩
      rcases List.mem_cons.mp ha with rfl | ha'
      · rcases List.mem_cons.mp hb with rfl | hb'
        · exact absurd hab (hasymm _ _ hab)
        · exact .inl (List.mem_map.mpr ⟨b, hb', rfl⟩)
      · rcases List.mem_cons.mp hb with rfl | hb'
        · exact absurd hab (hasymm _ _ (hc a ha'))
        · exact .inr ⟨ha', hb', hab⟩

section Overlaps

variable {ad : Addresses} {view : View} {f : Finding}

/-- Two networks of two locations that overlap. -/
theorem mem_overlaps (hunique : Unique view.locations) : f ∈ ad.overlaps view ↔
    ∃ a ∈ view.locations, ∃ b ∈ view.locations, a.1 < b.1 ∧
      ∃ na ∈ ad.nets a.2.subnets, ∃ nb ∈ ad.nets b.2.subnets,
        ad.overlapFinding a b na nb = some f := by
  have hitems := List.pairwise_map.mp (keys_sortedItems hunique)
  rw [Addresses.overlaps, List.mem_flatMap]
  constructor
  · rintro ⟨⟨a, b⟩, hab, h⟩
    obtain ⟨ha, hb, hlt⟩ := (mem_combinations (fun a b => lt_asymm) hitems).mp hab
    obtain ⟨na, hna, h⟩ := List.mem_flatMap.mp h
    obtain ⟨nb, hnb, h⟩ := List.mem_filterMap.mp h
    exact ⟨a, mem_sortedItems.mp ha, b, mem_sortedItems.mp hb, hlt, na, hna, nb, hnb, h⟩
  · rintro ⟨a, ha, b, hb, hlt, na, hna, nb, hnb, h⟩
    refine ⟨(a, b), (mem_combinations (fun a b => lt_asymm) hitems).mpr
      ⟨mem_sortedItems.mpr ha, mem_sortedItems.mpr hb, hlt⟩, ?_⟩
    exact List.mem_flatMap.mpr ⟨na, hna, List.mem_filterMap.mpr ⟨nb, hnb, h⟩⟩

end Overlaps

/-! ## Devices and ARP entries -/

section Devices

variable (ad : Addresses) (view : View)

/-- A device outside of the subnets of its location. -/
structure Addresses.Stray (d : Host) (ip : Address) : Prop where
  read : ad.addr d.ip = some ip
  known : has view.locations d.location = true
  subnets : ad.netsAt view d.location ≠ []
  outside : covers (ad.netsAt view d.location) ip = false

def Addresses.Unowned (lid : String) (ip : Address) : Prop :=
  ∀ e ∈ view.locations, e.1 ≠ lid → covers (ad.nets e.2.subnets) ip = false

/-- A device outside of the subnets of its location, with an address of the version 4 that no other
location has. -/
structure Addresses.Astray (d : Host) (ip : Address) : Prop extends ad.Stray view d ip where
  unowned : ad.Unowned view d.location ip
  version : ip.version = .v4

structure Addresses.Unseen (e : ArpEntry) (lid : String) (ip : Address) : Prop where
  gateway : get? view.gatewayLocations e.sourceIp = some lid
  read : ad.addr e.ip = some ip
  lan : covers lanNets ip = true
  outside : covers (ad.allNets view) ip = false

variable {ad view} {d : Host} {ip : Address} {lid : String} {f : Finding}

theorem owner_eq_none : ad.owner view lid ip = none ↔ ad.Unowned view lid ip := by
  rw [Addresses.owner, Option.map_eq_none_iff, List.find?_eq_none, Addresses.Unowned]
  refine forall_congr' fun e => ?_
  rw [mem_sortedItems, decide_eq_true_eq, not_and, Bool.not_eq_true]

theorem mem_keys_of_owner {o : String} (h : ad.owner view lid ip = some o) :
    o ∈ keys view.locations := by
  obtain ⟨e, he, rfl⟩ := Option.map_eq_some_iff.mp h
  exact List.mem_map_of_mem (mem_sortedItems.mp (List.mem_of_find?_eq_some he))

theorem owner_getD (hids : "" ∉ keys view.locations) :
    (ad.owner view lid ip).getD "" = "" ↔ ad.Unowned view lid ip := by
  rw [← owner_eq_none]
  cases howner : ad.owner view lid ip with
  | none => exact ⟨fun _ => rfl, fun _ => rfl⟩
  | some o =>
    rw [Option.getD_some]
    refine ⟨fun h => ?_, fun h => nomatch h⟩
    rw [h] at howner
    exact absurd (mem_keys_of_owner howner) hids

theorem deviceFinding_of_stray (h : ad.Stray view d ip) : ad.deviceFinding view d =
    (ad.outsideProposal d ip ((ad.owner view d.location ip).getD "")).map fun proposal =>
      some (outsideFinding view d ((ad.owner view d.location ip).getD "") proposal) := by
  have hnot : ¬ (has view.locations d.location = false ∨ ad.netsAt view d.location = [] ∨
      covers (ad.netsAt view d.location) ip = true) := by
    rw [h.known, h.outside]
    rintro (h' | h' | h')
    · cases h'
    · exact h.subnets h'
    · cases h'
  rw [Addresses.deviceFinding, h.read]
  exact if_neg hnot

theorem deviceFinding_of_not_stray (h : ∀ ip, ¬ ad.Stray view d ip) :
    ad.deviceFinding view d = .ok none := by
  rw [Addresses.deviceFinding]
  cases haddr : ad.addr d.ip with
  | none => rfl
  | some ip =>
    refine if_pos ?_
    by_contra hnot
    rw [not_or, not_or, Bool.not_eq_false, Bool.not_eq_true] at hnot
    exact h ip ⟨haddr, hnot.1, hnot.2.1, hnot.2.2⟩

theorem exists_stray {o : Finding} (h : ad.deviceFinding view d = .ok (some o)) :
    ∃ ip proposal, ad.Stray view d ip ∧
      ad.outsideProposal d ip ((ad.owner view d.location ip).getD "") = .ok proposal ∧
      o = outsideFinding view d ((ad.owner view d.location ip).getD "") proposal := by
  by_cases hstray : ∃ ip, ad.Stray view d ip
  · obtain ⟨ip, hstray⟩ := hstray
    rw [deviceFinding_of_stray hstray] at h
    obtain ⟨proposal, hproposal, heq⟩ := map_ok h
    exact ⟨ip, proposal, hstray, hproposal, (Option.some.inj heq).symm⟩
  · rw [deviceFinding_of_not_stray (not_exists.mp hstray)] at h
    cases h

theorem exists_deviceFinding (h : ad.Stray view d ip) {o : Option Finding}
    (ho : ad.deviceFinding view d = .ok o) :
    ∃ f, ad.deviceFinding view d = .ok (some f) ∧ f.subject = .device d.ip := by
  rw [deviceFinding_of_stray h] at ho ⊢
  obtain ⟨proposal, hproposal, -⟩ := map_ok ho
  rw [hproposal]
  exact ⟨_, rfl, rfl⟩

theorem slash24_eq (h : ad.Astray view d ip) (hids : "" ∉ keys view.locations) :
    ad.deviceFinding view d = (ad.slash24 d.ip).map fun subnet =>
      some (outsideFinding view d "" (some [addSubnetOp d.location subnet])) := by
  have howner := (owner_getD hids).mpr h.unowned
  have hnot : ¬ ("" ≠ "" ∨ ip.version ≠ .v4) := by
    rw [h.version]
    simp
  rw [deviceFinding_of_stray h.toStray, howner, Addresses.outsideProposal, if_neg hnot]
  cases ad.slash24 d.ip with
  | error e => rfl
  | ok t => rfl

theorem exists_deviceFinding_iff (hids : "" ∉ keys view.locations) :
    (∃ o, ad.deviceFinding view d = .ok o) ↔
      ∀ ip, ad.Astray view d ip → ∃ t, ad.network (d.ip ++ "/24") = some t := by
  constructor
  · rintro ⟨o, ho⟩ ip h
    rw [slash24_eq h hids] at ho
    obtain ⟨t, ht, -⟩ := map_ok ho
    rw [Addresses.slash24] at ht
    cases hnet : ad.network (d.ip ++ "/24") with
    | none =>
      rw [hnet] at ht
      cases ht
    | some t' => exact ⟨t', rfl⟩
  · intro h
    by_cases hstray : ∃ ip, ad.Stray view d ip
    · obtain ⟨ip, hstray⟩ := hstray
      by_cases hastray : ad.Astray view d ip
      · obtain ⟨t, ht⟩ := h ip hastray
        rw [slash24_eq hastray hids, Addresses.slash24, ht]
        exact ⟨_, rfl⟩
      · have hnone : (ad.owner view d.location ip).getD "" ≠ "" ∨ ip.version ≠ .v4 := by
          by_contra hnot
          rw [not_or, not_not, not_not] at hnot
          exact hastray ⟨hstray, (owner_getD hids).mp hnot.1, hnot.2⟩
        rw [deviceFinding_of_stray hstray, Addresses.outsideProposal, if_pos hnone]
        exact ⟨_, rfl⟩
    · exact ⟨none, deviceFinding_of_not_stray (not_exists.mp hstray)⟩

theorem exists_astray (hids : "" ∉ keys view.locations) {ops : List Json}
    (h : ad.deviceFinding view d = .ok (some f)) (hp : f.proposal = some ops) :
    ∃ ip t, ad.Astray view d ip ∧ ad.network (d.ip ++ "/24") = some t ∧
      f = outsideFinding view d "" (some [addSubnetOp d.location t]) := by
  obtain ⟨ip, proposal, hstray, hproposal, rfl⟩ := exists_stray h
  obtain rfl : proposal = some ops := hp
  rw [Addresses.outsideProposal] at hproposal
  split at hproposal
  · cases hproposal
  · next hnot =>
    rw [not_or, not_not, not_not] at hnot
    have hastray : ad.Astray view d ip := ⟨hstray, (owner_getD hids).mp hnot.1, hnot.2⟩
    obtain ⟨t, ht⟩ := (exists_deviceFinding_iff hids).mp ⟨_, h⟩ ip hastray
    rw [slash24_eq hastray hids, Addresses.slash24, ht] at h
    exact ⟨ip, t, hastray, ht, (Option.some.inj (Except.ok.inj h)).symm⟩

variable {e : ArpEntry}

theorem uncovered_eq_some {k : String × String} (h : ad.uncovered view e = .ok (some k)) :
    ∃ ip, ad.Unseen view e k.1 ip ∧ ad.network (ad.addressText ip ++ "/24") = some k.2 := by
  rw [Addresses.uncovered] at h
  split at h
  · next lid ip hgateway haddr =>
    split at h
    · cases h
    · next hnot =>
      rw [not_or, Bool.not_eq_false, Bool.not_eq_true] at hnot
      obtain ⟨t, ht, heq⟩ := map_ok h
      obtain rfl := Option.some.inj heq
      rw [Addresses.slash24] at ht
      cases hnet : ad.network (ad.addressText ip ++ "/24") with
      | none =>
        rw [hnet] at ht
        cases ht
      | some t' =>
        rw [hnet] at ht
        rw [← Except.ok.inj ht]
        exact ⟨ip, ⟨hgateway, haddr, hnot.1, hnot.2⟩, hnet⟩
  · cases h

theorem uncovered_of_unseen (h : ad.Unseen view e lid ip) :
    ad.uncovered view e =
      (ad.slash24 (ad.addressText ip)).map fun net => some (lid, net) := by
  have hnot : ¬ (covers lanNets ip = false ∨ covers (ad.allNets view) ip = true) := by
    rw [h.lan, h.outside]
    simp
  rw [Addresses.uncovered, h.gateway, h.read]
  exact if_neg hnot

theorem uncovered_of_not_unseen (h : ∀ lid ip, ¬ ad.Unseen view e lid ip) :
    ad.uncovered view e = .ok none := by
  rw [Addresses.uncovered]
  split
  · next lid ip hgateway haddr =>
    refine if_pos ?_
    by_contra hnot
    rw [not_or, Bool.not_eq_false, Bool.not_eq_true] at hnot
    exact h lid ip ⟨hgateway, haddr, hnot.1, hnot.2⟩
  · rfl

theorem exists_uncovered {observed : Observed} (h : ad.finds view observed f .arpUncovered) :
    ∃ e ∈ observed.arp, ∃ k, ad.uncovered view e = .ok (some k) ∧ f.subject = .location k.1 ∧
      f.proposal = some [addSubnetOp k.1 k.2] ∧ get? f.params "subnet" = some (.str k.2) := by
  obtain ⟨keys, hkeys, h⟩ := h
  obtain ⟨k, hk, rfl⟩ := List.mem_map.mp h
  rw [seenKeys, List.mem_insertionSort, List.mem_dedup] at hk
  obtain ⟨o, ho, rfl : o = some k⟩ := List.mem_filterMap.mp hk
  obtain ⟨e, he, huncovered⟩ := mem_mapM_ok hkeys ho
  exact ⟨e, he, k, huncovered, rfl, rfl, rfl⟩

theorem exists_arpFinding {observed : Observed} {keys : List (Option (String × String))}
    (hkeys : observed.arp.mapM (ad.uncovered view) = .ok keys)
    (he : e ∈ observed.arp) {k : String × String} (h : ad.uncovered view e = .ok (some k)) :
    ∃ f, ad.finds view observed f .arpUncovered ∧ f.subject = .location k.1 ∧
      f.proposal = some [addSubnetOp k.1 k.2] ∧ get? f.params "subnet" = some (.str k.2) := by
  have hk : k ∈ seenKeys keys.reduceOption := by
    rw [seenKeys, List.mem_insertionSort, List.mem_dedup]
    exact List.mem_filterMap.mpr ⟨some k, mem_of_mapM_ok hkeys he h, rfl⟩
  exact ⟨_, ⟨keys, hkeys, List.mem_map.mpr ⟨k, hk, rfl⟩⟩, rfl, rfl, rfl⟩

end Devices

/-! ## Routes and tunnels -/

section Loops

variable {ad : Addresses} {view : View} {routes : Dict RouteEntry} {tunnels : Dict TunnelEntry}
  {devices : List Host} {f : Finding}

/-- The findings of the loop over the pairs. -/
theorem mem_routeLoop (hunique : Unique view.locations) :
    f ∈ (view.pairs.foldl (ad.routePair view routes tunnels) ([], [])).1 ↔
      ∃ p ∈ view.pairs, ∃ row, ad.firstLead view (rowsOf view routes) p = some row ∧
        f = routeFinding view tunnels p.1 p.2 row := by
  rw [foldl_routePair hunique, List.mem_flatMap]
  refine exists_congr fun p => and_congr_right fun _ => ?_
  rw [Option.mem_toList, Option.map_eq_some_iff]
  exact exists_congr fun row => and_congr_right fun _ => eq_comm

/-- A tunnel that is up leads from a location to another one without a link of tunnels. -/
def Addresses.Meets (ad : Addresses) (view : View) (tunnels : Dict TunnelEntry)
    (devices : List Host) (src dst : String) : Prop :=
  ∃ c ∈ view.tunnelPairs tunnels devices, c.1 = src ∧ c.2.2 = dst ∧ (ad.meeting view c).isSome

/-- The same, unless a tunnel leads back from a location that is asked before. -/
def Addresses.FirstMeets (ad : Addresses) (view : View) (tunnels : Dict TunnelEntry)
    (devices : List Host) (src dst : String) : Prop :=
  ad.Meets view tunnels devices src dst ∧ ¬ (dst < src ∧ ad.Meets view tunnels devices dst src)

theorem tunnelPairs_pairwise (hunique : Unique view.locations) :
    (view.tunnelPairs tunnels devices).Pairwise fun c c' => c.1 ≤ c'.1 := by
  have hfirst : ∀ (e : String × Location) (c : String × Tunnel × String),
      (c ∈ (((view.sideTunnels tunnels devices e.1).getD []).filter Tunnel.up).flatMap fun t =>
        (sortedItems view.locations).map fun f => (e.1, t, f.1)) → c.1 = e.1 := by
    intro e c hc
    obtain ⟨t, -, hc⟩ := List.mem_flatMap.mp hc
    obtain ⟨f, -, rfl⟩ := List.mem_map.mp hc
    rfl
  rw [View.tunnelPairs, List.pairwise_flatMap]
  constructor
  · intro e _
    refine List.pairwise_of_forall_mem_list fun c hc c' hc' => ?_
    rw [hfirst e c hc, hfirst e c' hc']
  · refine (List.pairwise_map.mp (keys_sortedItems hunique)).imp fun {e e'} hlt c hc c' hc' => ?_
    rw [hfirst e c hc, hfirst e' c' hc']
    exact hlt.le

theorem meeting_isSome {c : String × Tunnel × String} : (ad.meeting view c).isSome ↔
    c.2.2 ≠ c.1 ∧ pair c.1 c.2.2 ∉ view.linked (fun k => k.kind = "vpn") ∧
      ad.tunnelMatches c.2.1 (view.at c.2.2) = true := by
  rw [Addresses.meeting]
  split
  · next h =>
    refine ⟨fun h' => (nomatch h'), fun ⟨hne, hlinked, hmatch⟩ => ?_⟩
    rcases h with h | h | h
    · exact absurd h hne
    · exact absurd h hlinked
    · rw [h] at hmatch
      cases hmatch
  · next h =>
    rw [not_or, not_or, Bool.not_eq_false] at h
    exact ⟨fun _ => h, fun _ => rfl⟩

theorem firstMeets_of_mem (hunique : Unique view.locations)
    (h : f ∈ ((view.tunnelPairs tunnels devices).foldl (ad.tunnelPair view) ([], [])).1) :
    ∃ src dst t, ad.FirstMeets view tunnels devices src dst ∧
      f = tunnelFinding view src dst t := by
  have hsorted := @tunnelPairs_pairwise view tunnels devices hunique
  rw [tunnelPair_eq_take, mem_foldl_take] at h
  obtain ⟨l₁, c, l₂, hl, hfound, hfirst⟩ := h
  rw [hl] at hsorted
  have hc : c ∈ view.tunnelPairs tunnels devices := by
    rw [hl]
    exact List.mem_append_right _ List.mem_cons_self
  have hsome : (ad.meeting view c).isSome := by
    rw [hfound]
    rfl
  obtain ⟨hne, -, -⟩ := meeting_isSome.mp hsome
  refine ⟨c.1, c.2.2, c.2.1, ⟨⟨c, hc, rfl, rfl, hsome⟩, ?_⟩, ?_⟩
  · rintro ⟨hlt, c', hc', hsrc, hdst, hsome'⟩
    rw [hl] at hc'
    rcases List.mem_append.mp hc' with hc' | hc'
    · refine hfirst c' hc' hsome' ?_
      rw [hsrc, hdst]
      exact ordered_comm _ _
    · rcases List.mem_cons.mp hc' with rfl | hc'
      · exact hne hsrc.symm
      · have hle := (List.pairwise_cons.mp (List.pairwise_append.mp hsorted).2.1).1 c' hc'
        rw [hsrc] at hle
        exact absurd hle (not_le.mpr hlt)
  · rw [Addresses.meeting] at hfound
    obtain ⟨-, heq⟩ := Option.ite_none_left_eq_some.mp hfound
    exact (Option.some.inj heq).symm

theorem mem_of_firstMeets (hunique : Unique view.locations) {src dst : String}
    (h : ad.FirstMeets view tunnels devices src dst) :
    ∃ t, tunnelFinding view src dst t ∈
      ((view.tunnelPairs tunnels devices).foldl (ad.tunnelPair view) ([], [])).1 := by
  have hsorted := @tunnelPairs_pairwise view tunnels devices hunique
  obtain ⟨⟨c₀, hc₀, hsrc₀, hdst₀, hsome₀⟩, hback⟩ := h
  have hkey₀ : pair c₀.1 c₀.2.2 = pair src dst := by rw [hsrc₀, hdst₀]
  obtain ⟨l₁, c, l₂, hl, hsome, hkey, hfirst⟩ := @exists_first _ _ _ _
    (fun c : String × Tunnel × String => pair c.1 c.2.2) (ad.meeting view) _ _
    ⟨c₀, hc₀, hsome₀, hkey₀⟩
  have hc : c ∈ view.tunnelPairs tunnels devices := by
    rw [hl]
    exact List.mem_append_right _ List.mem_cons_self
  rcases pair_eq_iff.mp hkey with ⟨hsrc, hdst⟩ | ⟨hsrc, hdst⟩
  · refine ⟨c.2.1, ?_⟩
    rw [tunnelPair_eq_take]
    refine mem_foldl_take.mpr ⟨l₁, c, l₂, hl, ?_, fun c' hc' hsome' => ?_⟩
    · obtain ⟨f, hf⟩ := Option.isSome_iff_exists.mp hsome
      have hf' := hf
      rw [Addresses.meeting] at hf'
      obtain ⟨-, heq⟩ := Option.ite_none_left_eq_some.mp hf'
      rw [hf, ← Option.some.inj heq, hsrc, hdst]
    · rw [show pair c.1 c.2.2 = pair src dst from hkey]
      exact hfirst c' hc' hsome'
  · -- the first one leads back, from a location behind this one
    obtain ⟨hne, -, -⟩ := meeting_isSome.mp hsome
    rw [hsrc, hdst] at hne
    have hlt : src < dst := by
      refine lt_of_le_of_ne (not_lt.mp fun hlt => hback ⟨hlt, c, hc, hsrc, hdst, hsome⟩) hne
    rw [hl] at hc₀ hsorted
    rcases List.mem_append.mp hc₀ with hc₀ | hc₀
    · exact absurd hkey₀ (hfirst c₀ hc₀ hsome₀)
    · rcases List.mem_cons.mp hc₀ with rfl | hc₀
      · rw [hsrc₀] at hsrc
        exact absurd hsrc hne
      · have hle := (List.pairwise_cons.mp (List.pairwise_append.mp hsorted).2.1).1 c₀ hc₀
        rw [hsrc, hsrc₀] at hle
        exact absurd hle (not_le.mpr hlt)

end Loops

end SentinelNet.Blueprint
