import SentinelNet.Blueprint.Proposals

/-!
# Proposals that close their gap

A finding may carry a proposal that is to close the gap.  A proposal is good when `apply_ops`
accepts it on the view, the checks of the view that comes out do not find the same again, and they
find no overlap of subnets that was not there before.

* `closes_isolated` to `closes_tunnel_iff`: when the proposals of a check are good.
-/

namespace SentinelNet.Blueprint

open Observability PyDict PyText IpNetwork Outcomes
open Inventory (Host)

/-! ## Good proposals -/

/-- The same is found again: with the same code, about the same subject, and about the same subnet
where the finding names one. -/
def Finding.Again (f g : Finding) : Prop :=
  g.code = f.code ∧ g.subject = f.subject ∧
    ∀ s, get? f.params "subnet" = some s → get? g.params "subnet" = some s

/-- The proposal of a finding is applied, closes its gap and opens no overlap. -/
def Addresses.Closes (ad : Addresses) (probes : Probes) (org : String) (view : View)
    (observed : Observed) (fs : List Finding) (f : Finding) (ops : List Json) : Prop :=
  ∃ w fs', applyOps ad.toLibrary probes org view.locations view.links ops = .ok w ∧
    ad.run ⟨w.locations, w.links⟩ observed = .ok fs' ∧
    (∀ g ∈ fs', ¬ f.Again g) ∧ ∀ g ∈ fs', g.code = .subnetOverlap → g ∈ fs

/-- A location without networks has no device that a subnet of it brings to an exception. -/
def Addresses.Quiet (ad : Addresses) (view : View) (devices : List Host) (lid : String)
    (n : Network) : Prop :=
  ad.netsAt view lid = [] → ∀ d ∈ devices, d.location = lid → ∀ ip, ad.addr d.ip = some ip →
    ip.version = .v4 → n.has ip = false → ad.Unowned view lid ip →
      ∃ t, ad.network (d.ip ++ "/24") = some t

/-- The proposals of the checks are good. -/
structure Addresses.Sound (ad : Addresses) (view : View) (observed : Observed) : Prop where
  /-- The only candidate of a location without a gateway has an address. -/
  gateway : ∀ e ∈ view.locations, e.2.gateway = "" → ∀ ip,
    candidates observed.devices e.1 = [ip] → strip ip ≠ "" ∧ ad.address (strip ip) = true
  /-- No other location has a subnet in the `/24` of a device outside of its subnets, and no device
  with the same address strays from another location. -/
  device : ∀ d ∈ observed.devices, ∀ ip, ad.Astray view d ip →
    ad.Clear view d.location (Network.around ip 24) ∧
      ∀ d' ∈ observed.devices, d'.ip = d.ip → ad.Stray view d' ip → d'.location = d.location
  /-- No other location has a subnet in the `/24` of an ARP entry that no subnet covers, and a
  first subnet of the location brings no device to an exception. -/
  arp : ∀ e ∈ observed.arp, ∀ lid ip, ad.Unseen view e lid ip →
    ad.Clear view lid (Network.around ip 24) ∧
      ad.Quiet view observed.devices lid (Network.around ip 24)
  /-- The routes of a location lead to at most one location without a link. -/
  route : ∀ src dst dst', (src, dst) ∈ view.pairs → (src, dst') ∈ view.pairs →
    (ad.firstLead view (rowsOf view observed.routes) (src, dst)).isSome →
    (ad.firstLead view (rowsOf view observed.routes) (src, dst')).isSome → dst = dst'
  /-- The tunnels of a location lead to at most one location without a link. -/
  tunnel : ∀ src dst dst', ad.FirstMeets view observed.tunnels observed.devices src dst →
    ad.FirstMeets view observed.tunnels observed.devices src dst' → dst = dst'

section Closing

variable {ad : Ipaddress} {probes : Probes} {org : String} {view view' : View}
  {observed : Observed} {fs : List Finding} {f : Finding} {op : Json}

theorem closes_iff (hrun : ad.run view observed = .ok fs)
    (hop : applyOp ad.toLibrary probes org ⟨view.locations, view.links, []⟩ 0 op =
      .ok ⟨view'.locations, view'.links, []⟩) :
    ad.Closes probes org view observed fs f [op] ↔ (∃ fs', ad.run view' observed = .ok fs') ∧
      (∀ g, ad.finds view' observed g f.code → g.subject = f.subject →
        ¬ ∀ s, get? f.params "subnet" = some s → get? g.params "subnet" = some s) ∧
      ∀ g ∈ ad.overlaps view', g ∈ ad.overlaps view := by
  have happly : applyOps ad.toLibrary probes org view.locations view.links [op] =
      .ok ⟨view'.locations, view'.links, []⟩ := by
    rw [applyOps_singleton, hop]
    rfl
  have hmem : ∀ {fs'}, ad.run view' observed = .ok fs' →
      (((∀ g ∈ fs', ¬ f.Again g) ∧ ∀ g ∈ fs', g.code = .subnetOverlap → g ∈ fs) ↔
        (∀ g, ad.finds view' observed g f.code → g.subject = f.subject →
          ¬ ∀ s, get? f.params "subnet" = some s → get? g.params "subnet" = some s) ∧
        ∀ g ∈ ad.overlaps view', g ∈ ad.overlaps view) := by
    intro fs' hrun'
    refine and_congr ?_ ?_
    · constructor
      · intro h g hg hsubject hsubnet
        exact h g ((mem_run hrun').mpr ⟨_, hg⟩) ⟨code_of_finds hg, hsubject, hsubnet⟩
      · rintro h g hg ⟨hcode, hsubject, hsubnet⟩
        exact h g (hcode ▸ (mem_run_iff hrun').mp hg) hsubject hsubnet
    · constructor
      · intro h g hg
        have hcode := @code_of_finds _ view' observed _ .subnetOverlap hg
        have hold := (mem_run_iff hrun).mp (h g ((mem_run hrun').mpr ⟨.subnetOverlap, hg⟩) hcode)
        rw [hcode] at hold
        exact hold
      · intro h g hg hcode
        have hnew := (mem_run_iff hrun').mp hg
        rw [hcode] at hnew
        exact (mem_run hrun).mpr ⟨.subnetOverlap, h g hnew⟩
  constructor
  · rintro ⟨w, fs', hw, hrun', hrest⟩
    rw [happly] at hw
    obtain rfl := Except.ok.inj hw
    exact ⟨⟨fs', hrun'⟩, (hmem hrun').mp hrest⟩
  · rintro ⟨⟨fs', hrun'⟩, hrest⟩
    exact ⟨_, fs', happly, hrun', (hmem hrun').mpr hrest⟩

theorem version_of_lan {ip : Address} (h : covers lanNets ip) : ip.version = .v4 := by
  obtain ⟨n, hn, hhas⟩ := covers_iff.mp h
  rw [(has_iff.mp hhas).1]
  simp only [lanNets, List.mem_cons, List.not_mem_nil, or_false] at hn
  rcases hn with rfl | rfl | rfl
  · rfl
  · rfl
  · rfl

theorem network_of_unseen {e : ArpEntry} {lid : String} {ip : Address}
    (h : ad.Unseen view e lid ip) : ad.network (ad.addressText ip ++ "/24") =
      some (ad.networkText (Network.around ip 24)) := by
  rw [ad.network_eq, ad.slash24_text _ ip h.read (version_of_lan h.lan)]
  rfl

theorem exists_run (hids : "" ∉ keys view.locations) :
    (∃ fs, ad.run view observed = .ok fs) ↔
      ∀ d ∈ observed.devices, ∀ ip, ad.Astray view d ip →
        ∃ t, ad.network (d.ip ++ "/24") = some t := by
  rw [exists_run_iff]
  have harp : ∀ e ∈ observed.arp, ∃ o, ad.uncovered view e = .ok o := by
    intro e _
    by_cases h : ∃ lid ip, ad.Unseen view e lid ip
    · obtain ⟨lid, ip, h⟩ := h
      rw [uncovered_of_unseen h, Addresses.slash24, network_of_unseen h]
      exact ⟨_, rfl⟩
    · rw [not_exists] at h
      exact ⟨none, uncovered_of_not_unseen fun lid ip hip => h lid ⟨ip, hip⟩⟩
  rw [and_iff_left harp]
  exact forall₂_congr fun d _ => exists_deviceFinding_iff hids

/-! ## A view of an organization -/

/-- A view that was recorded, with the locations of one organization. -/
structure View.Drawn (ad : Addresses) (org : String) (view : View) : Prop extends
    Recorded ad.toLibrary view.locations view.links where
  org : ∀ lid l, get? view.locations lid = some l → l.org = org

theorem View.Drawn.ids (h : view.Drawn ad.toAddresses org) : "" ∉ keys view.locations := by
  intro hmem
  obtain ⟨l, hl⟩ := mem_keys.mp hmem
  exact (h.slug "" l hl).ne_nil rfl

theorem View.Drawn.own (h : view.Drawn ad.toAddresses org) {lid : String}
    (hlid : lid ∈ keys view.locations) :
    Work.Own org ⟨view.locations, view.links, []⟩ lid := by
  obtain ⟨l, hl⟩ := mem_keys.mp hlid
  exact ⟨l, hl, h.org lid l hl⟩

/-! ## A link -/

section Link

variable {a b kind : String}

theorem applyOp_join (h : view.Drawn ad.toAddresses org) (ha : a ∈ keys view.locations)
    (hb : b ∈ keys view.locations) (hab : a ≠ b) (hkind : kind ∈ kinds)
    (hnew : get? view.links (linkId a b kind) = none) :
    applyOp ad.toLibrary probes org ⟨view.locations, view.links, []⟩ 0 (addLinkOp a b kind) =
      .ok ⟨(view.join org a b kind).locations, (view.join org a b kind).links, []⟩ :=
  applyOp_addLink (h.own ha) (h.own hb) rfl hab hkind hnew

theorem closes_join_iff (hrun : ad.run view observed = .ok fs) (h : view.Drawn ad.toAddresses org)
    (ha : a ∈ keys view.locations) (hb : b ∈ keys view.locations) (hab : a ≠ b)
    (hkind : kind ∈ kinds) (hnew : get? view.links (linkId a b kind) = none)
    (hnamed : get? f.params "subnet" = none) :
    ad.Closes probes org view observed fs f [addLinkOp a b kind] ↔
      ∀ g, ad.finds (view.join org a b kind) observed g f.code → g.subject ≠ f.subject := by
  rw [closes_iff hrun (applyOp_join h ha hb hab hkind hnew)]
  have hchecks := exists_run_iff.mp ⟨fs, hrun⟩
  have hrun' : ∃ fs', ad.run (view.join org a b kind) observed = .ok fs' :=
    exists_run_iff.mpr hchecks
  have hunnamed : ∀ g : Finding,
      ∀ s, get? f.params "subnet" = some s → get? g.params "subnet" = some s := by
    intro g s hs
    rw [hnamed] at hs
    cases hs
  constructor
  · exact fun ⟨_, hgone, _⟩ g hg hsubject => hgone g hg hsubject (hunnamed g)
  · exact fun hgone => ⟨hrun', fun g hg hsubject _ => hgone g hg hsubject, fun g hg => hg⟩

/-- A link to the hub is always a good proposal. -/
theorem closes_isolated (hrun : ad.run view observed = .ok fs) (h : view.Drawn ad.toAddresses org)
    (hf : f ∈ view.isolated) {ops : List Json} (hops : f.proposal = some ops) :
    ad.Closes probes org view observed fs f ops := by
  obtain ⟨e, he, rfl⟩ := List.mem_map.mp hf
  obtain ⟨he, hspoke⟩ := List.mem_filter.mp he
  rw [decide_eq_true_eq] at hspoke
  obtain ⟨hrole, hreach⟩ := hspoke
  obtain ⟨hub, hhub, rfl⟩ := Option.map_eq_some_iff.mp hops
  have hmem := hub_mem_hubs hhub
  obtain ⟨c, hc, hcrole, rfl⟩ := mem_hubs.mp hmem
  have hne : c.1 ≠ e.1 := by
    intro heq
    refine hreach ((mem_reach_iff h.linked).mpr ⟨c.1, hmem, ?_⟩)
    rw [heq]
  have hckey : c.1 ∈ keys view.locations := List.mem_map_of_mem hc
  have hekey : e.1 ∈ keys view.locations := List.mem_map_of_mem (mem_sortedItems.mp he)
  have hnew : get? view.links (linkId c.1 e.1 "vpn") = none := by
    refine get?_linkId h.linked h.slug hckey hekey fun hlinked => ?_
    obtain ⟨k, hk, -, hpair⟩ := mem_linked.mp hlinked
    exact not_linked_hub h.linked hmem hreach (mem_linked.mpr ⟨k, hk, rfl, hpair⟩)
  rw [closes_join_iff hrun h hckey hekey hne List.mem_cons_self hnew rfl]
  intro g hg hsubject
  obtain ⟨e', he', rfl⟩ := List.mem_map.mp hg
  obtain ⟨-, hspoke'⟩ := List.mem_filter.mp he'
  rw [decide_eq_true_eq] at hspoke'
  have hid : e'.1 = e.1 := Subject.location.inj hsubject
  rw [hid] at hspoke'
  have hlinked : Linked view.locations (view.join org c.1 e.1 "vpn").links :=
    Linked.join (w := ⟨view.locations, view.links, []⟩) h.linked (h.own hckey) (h.own hekey) hne
      "vpn" ""
  exact hspoke'.2 (mem_reach_join hlinked hmem hnew)

section

variable (hnew : get? view.links (linkId a b kind) = none) (rows : String → List RouteRow)
  (q : String × String)

include hnew rows q

theorem lead_join :
    ad.lead (view.join org a b kind) rows q =
      if pair q.1 q.2 = pair a b then none else ad.lead view rows q := by
  rw [Addresses.lead, Addresses.lead]
  by_cases hpair : pair q.1 q.2 = pair a b
  · rw [if_pos hpair, if_pos (.inr ((mem_linked_join hnew).mpr (.inr ⟨rfl, hpair⟩)))]
  · have hsame : (q.2 = q.1 ∨ pair q.1 q.2 ∈ (view.join org a b kind).linked fun _ => true) ↔
        (q.2 = q.1 ∨ pair q.1 q.2 ∈ view.linked fun _ => true) := by
      rw [mem_linked_join hnew]
      exact or_congr_right ⟨fun h => h.resolve_right fun h' => hpair h'.2, .inl⟩
    rw [if_neg hpair, if_congr hsame rfl rfl]
    rfl

theorem firstLead_join :
    ad.firstLead (view.join org a b kind) rows q =
      if pair q.1 q.2 = pair a b then none else ad.firstLead view rows q := by
  have hback : pair q.2 q.1 = pair q.1 q.2 := ordered_comm q.2 q.1
  rw [Addresses.firstLead, lead_join hnew, lead_join hnew, hback]
  by_cases hpair : pair q.1 q.2 = pair a b
  · rw [if_pos hpair, if_pos hpair, if_pos hpair, ite_self]
  · rw [if_neg hpair, if_neg hpair, if_neg hpair, Addresses.firstLead]

end

/-- A link for a route is a good proposal where the routes of its location lead to no other location
without a link. -/
theorem closes_route_iff (hrun : ad.run view observed = .ok fs)
    (h : view.Drawn ad.toAddresses org) {p : String × String} (hp : p ∈ view.pairs)
    {row : RouteRow} (hrow : ad.firstLead view (rowsOf view observed.routes) p = some row)
    {ops : List Json}
    (hops : (routeFinding view observed.tunnels p.1 p.2 row).proposal = some ops) :
    ad.Closes probes org view observed fs (routeFinding view observed.tunnels p.1 p.2 row) ops ↔
      ∀ dst, (p.1, dst) ∈ view.pairs →
        (ad.firstLead view (rowsOf view observed.routes) (p.1, dst)).isSome → dst = p.2 := by
  obtain ⟨ha, hb⟩ := mem_pairs.mp hp
  have hlead := hrow
  rw [Addresses.firstLead] at hlead
  obtain ⟨-, hlead⟩ := Option.ite_none_left_eq_some.mp hlead
  rw [Addresses.lead] at hlead
  obtain ⟨hfree, -⟩ := Option.ite_none_left_eq_some.mp hlead
  rw [not_or] at hfree
  obtain ⟨kind, hkind, rfl⟩ : ∃ kind, kind ∈ kinds ∧ ops = [addLinkOp p.1 p.2 kind] := by
    obtain rfl := Option.some.inj hops
    refine ⟨_, ?_, rfl⟩
    split
    · exact List.mem_cons_self ..
    · exact List.mem_cons_of_mem _ List.mem_cons_self
  have hnew : get? view.links (linkId p.1 p.2 kind) = none := by
    refine get?_linkId h.linked h.slug ha hb fun hlinked => ?_
    obtain ⟨k, hk, -, hpair⟩ := mem_linked.mp hlinked
    exact hfree.2 (mem_linked.mpr ⟨k, hk, rfl, hpair⟩)
  have hunique' : Unique (view.join org p.1 p.2 kind).locations := h.linked.locationIds
  rw [closes_join_iff hrun h ha hb (Ne.symm hfree.1) hkind hnew rfl]
  constructor
  · intro hgone dst hdst hsome
    by_contra hne
    have hpair : pair p.1 dst ≠ pair p.1 p.2 := fun heq =>
      (pair_eq_iff.mp heq).elim (fun h => hne h.2) fun h => hne (h.2.trans h.1)
    obtain ⟨row', hrow'⟩ := Option.isSome_iff_exists.mp hsome
    refine hgone (routeFinding (view.join org p.1 p.2 kind) observed.tunnels p.1 dst row')
      ((mem_routeLoop hunique').mpr ⟨(p.1, dst), hdst, row', ?_, rfl⟩) rfl
    rw [firstLead_join hnew, if_neg hpair]
    exact hrow'
  · intro honly g hg hsubject
    obtain ⟨q, hq, row', hrow', rfl⟩ := (mem_routeLoop hunique').mp hg
    rw [firstLead_join hnew] at hrow'
    obtain ⟨hpair, hrow'⟩ := Option.ite_none_left_eq_some.mp hrow'
    obtain ⟨src, dst⟩ := q
    obtain rfl : src = p.1 := Subject.location.inj hsubject
    refine hpair ?_
    rw [honly dst hq (Option.isSome_iff_exists.mpr ⟨row', hrow'⟩)]

variable {src dst : String}

theorem meets_join_iff (hnew : get? view.links (linkId a b "vpn") = none) :
    ad.Meets (view.join org a b "vpn") observed.tunnels observed.devices src dst ↔
      ad.Meets view observed.tunnels observed.devices src dst ∧ pair src dst ≠ pair a b := by
  constructor
  · rintro ⟨c, hc, rfl, rfl, hsome⟩
    obtain ⟨hne, hlinked, hmatch⟩ := meeting_isSome.mp hsome
    rw [mem_linked_join hnew, not_or, not_and] at hlinked
    exact ⟨⟨c, hc, rfl, rfl, meeting_isSome.mpr ⟨hne, hlinked.1, hmatch⟩⟩, hlinked.2 rfl⟩
  · rintro ⟨⟨c, hc, rfl, rfl, hsome⟩, hpair⟩
    obtain ⟨hne, hlinked, hmatch⟩ := meeting_isSome.mp hsome
    refine ⟨c, hc, rfl, rfl, meeting_isSome.mpr ⟨hne, ?_, hmatch⟩⟩
    rw [mem_linked_join hnew, not_or, not_and]
    exact ⟨hlinked, fun _ => hpair⟩

theorem firstMeets_join_iff (hnew : get? view.links (linkId a b "vpn") = none) :
    ad.FirstMeets (view.join org a b "vpn") observed.tunnels observed.devices src dst ↔
      ad.FirstMeets view observed.tunnels observed.devices src dst ∧ pair src dst ≠ pair a b := by
  have hback : pair dst src = pair src dst := ordered_comm dst src
  rw [Addresses.FirstMeets, Addresses.FirstMeets, meets_join_iff hnew, meets_join_iff hnew, hback]
  constructor
  · rintro ⟨⟨hmeets, hpair⟩, hfirst⟩
    exact ⟨⟨hmeets, fun h => hfirst ⟨h.1, h.2, hpair⟩⟩, hpair⟩
  · rintro ⟨⟨hmeets, hfirst⟩, hpair⟩
    exact ⟨⟨hmeets, hpair⟩, fun h => hfirst ⟨h.1, h.2.1⟩⟩

/-- A link for a tunnel is a good proposal where the tunnels of its location lead to no other
location without a link. -/
theorem closes_tunnel_iff (hrun : ad.run view observed = .ok fs)
    (h : view.Drawn ad.toAddresses org) {t : Tunnel}
    (hmeets : ad.FirstMeets view observed.tunnels observed.devices src dst) :
    ad.Closes probes org view observed fs (tunnelFinding view src dst t)
        [addLinkOp src dst "vpn"] ↔
      ∀ dst', ad.FirstMeets view observed.tunnels observed.devices src dst' → dst' = dst := by
  obtain ⟨c, hc, hsrc, hdst, hsome⟩ := hmeets.1
  obtain ⟨hne, hlinked, -⟩ := meeting_isSome.mp hsome
  rw [hsrc, hdst] at hne hlinked
  obtain ⟨ha, hb⟩ : src ∈ keys view.locations ∧ dst ∈ keys view.locations := by
    rw [View.tunnelPairs] at hc
    obtain ⟨e, he, hc⟩ := List.mem_flatMap.mp hc
    obtain ⟨t', -, hc⟩ := List.mem_flatMap.mp hc
    obtain ⟨e', he', rfl⟩ := List.mem_map.mp hc
    subst hsrc hdst
    exact ⟨List.mem_map_of_mem (mem_sortedItems.mp he),
      List.mem_map_of_mem (mem_sortedItems.mp he')⟩
  have hnew := get?_linkId h.linked h.slug ha hb hlinked
  have hunique' : Unique (view.join org src dst "vpn").locations := h.linked.locationIds
  rw [closes_join_iff hrun h ha hb (Ne.symm hne) List.mem_cons_self hnew rfl]
  constructor
  · intro hgone dst' hmeets'
    by_contra hne'
    have hpair : pair src dst' ≠ pair src dst := fun heq =>
      (pair_eq_iff.mp heq).elim (fun h => hne' h.2) fun h => hne' (h.2.trans h.1)
    obtain ⟨t', ht'⟩ := mem_of_firstMeets hunique'
      ((firstMeets_join_iff hnew).mpr ⟨hmeets', hpair⟩)
    exact hgone _ ht' rfl
  · intro honly g hg hsubject
    obtain ⟨src', dst', t', hmeets', rfl⟩ := firstMeets_of_mem hunique' hg
    obtain ⟨hold, hpair⟩ := (firstMeets_join_iff hnew).mp hmeets'
    obtain rfl : src' = src := Subject.location.inj hsubject
    refine hpair ?_
    rw [honly dst' hold]

end Link

/-! ## A gateway -/

section Gateway

variable {e : String × Location} {ip : String}

theorem astray_of_gateway (h : view.Drawn ad.toAddresses org) (he : e ∈ view.locations) {g : String}
    {d : Host} {a : Address} (hastray : ad.Astray (view.put e.1 { e.2 with gateway := g }) d a) :
    ad.Astray view d a := by
  have hunique := h.linked.locationIds
  have hl : get? view.locations e.1 = some e.2 := hunique.mem_iff.mp he
  have hmore : ∀ n ∈ ad.nets e.2.subnets, n ∈ ad.nets { e.2 with gateway := g }.subnets :=
    fun n hn => hn
  by_cases hd : d.location = e.1
  · have hnets : ad.netsAt (view.put e.1 { e.2 with gateway := g }) d.location =
        ad.netsAt view d.location := by
      rw [netsAt_put, if_pos hd, Addresses.netsAt, hd, at_eq hl]
    refine ⟨⟨hastray.read, has_put hl _ ▸ hastray.known, hnets ▸ hastray.subnets,
      hnets ▸ hastray.outside⟩, ?_, hastray.version⟩
    exact unowned_of_put hunique hl hmore hastray.unowned
  · exact astray_of_put hunique hl hmore hd hastray

/-- The only candidate is a good proposal for a location without a gateway when it has an
address. -/
theorem closes_gateway_iff (hrun : ad.run view observed = .ok fs)
    (h : view.Drawn ad.toAddresses org) (he : e ∈ view.locations) (hempty : e.2.gateway = "")
    (hf : gatewayFinding observed.devices e = some f) :
    ad.Closes probes org view observed fs f [setGatewayOp e.1 ip] ↔
      strip ip ≠ "" ∧ ad.address (strip ip) = true := by
  have hunique := h.linked.locationIds
  have hl : get? view.locations e.1 = some e.2 := hunique.mem_iff.mp he
  obtain ⟨hcode, hsubject, hnamed, -⟩ := of_gatewayFinding_empty hempty hf
  have hop := @applyOp_setGateway ad.toLibrary probes org ⟨view.locations, view.links, []⟩ 0 e.1 ip
    e.2 hl (h.org e.1 e.2 hl) rfl
  by_cases hok : strip ip = "" ∨ ad.address (strip ip) = true
  · rw [if_pos hok] at hop
    have hput : applyOp ad.toLibrary probes org ⟨view.locations, view.links, []⟩ 0
        (setGatewayOp e.1 ip) =
        .ok ⟨(view.put e.1 { e.2 with gateway := strip ip }).locations,
          (view.put e.1 { e.2 with gateway := strip ip }).links, []⟩ := hop
    rw [closes_iff hrun hput, hcode]
    constructor
    · rintro ⟨-, hgone, -⟩
      have hne : strip ip ≠ "" := by
        intro hblank
        have hmem : (e.1, { e.2 with gateway := strip ip }) ∈
            (view.put e.1 { e.2 with gateway := strip ip }).locations :=
          (mem_put hunique).mpr (.inl rfl)
        refine hgone _ ⟨_, hmem, hblank, if_pos hblank⟩ hsubject.symm fun s hs => ?_
        rw [hnamed] at hs
        cases hs
      exact ⟨hne, hok.resolve_left hne⟩
    · rintro ⟨hne, -⟩
      refine ⟨(exists_run (mt (mem_keys_put hl).mp h.ids)).mpr fun d hd a ha => ?_,
        fun g hg hsame => ?_, fun g hg => ?_⟩
      · exact (exists_run h.ids).mp ⟨fs, hrun⟩ d hd a (astray_of_gateway h he ha)
      · obtain ⟨e', he', hempty', hg⟩ := hg
        rw [(of_gatewayFinding_empty hempty' hg).2.1, hsubject] at hsame
        have hid : e'.1 = e.1 := Subject.location.inj hsame
        rcases (mem_put hunique).mp he' with rfl | ⟨hne', -⟩
        · exact absurd hempty' hne
        · exact absurd hid hne'
      · exact @mem_overlaps_put ad.toAddresses view e.1 e.2 { e.2 with gateway := strip ip } g
          hunique hl rfl (fun _ => False) (fun n hn => .inl hn) (fun n hn => hn.elim) hg
  · rw [if_neg hok] at hop
    constructor
    · rintro ⟨w, fs', hw, -⟩
      rw [applyOps_singleton, hop] at hw
      cases hw
    · exact fun ⟨_, haddress⟩ => absurd (.inr haddress) hok

end Gateway

/-! ## A subnet -/

def View.widen (view : View) (lid : String) (l : Location) (t : String) : View :=
  view.put lid { l with subnets := sortedSet (l.subnets ++ [t]) }

section Subnet

variable {lid t : String} {l : Location} {n : Network}

theorem netsAt_widen (ht : ad.net t = some n) {m : Network} :
    m ∈ ad.netsAt (view.widen lid l t) lid ↔ m ∈ ad.nets l.subnets ∨ m = n := by
  rw [View.widen, netsAt_put, if_pos rfl, mem_nets_add ht]

theorem applyOp_widen (h : view.Drawn ad.toAddresses org) (hl : get? view.locations lid = some l)
    {s : String} (ht : ad.network s = some t) :
    applyOp ad.toLibrary probes org ⟨view.locations, view.links, []⟩ 0 (addSubnetOp lid t) =
      .ok ⟨(view.widen lid l t).locations, (view.widen lid l t).links, []⟩ :=
  applyOp_addSubnet hl (h.org lid l hl) rfl (h.valid lid l hl).subnets
    (ad.network_network s t ht).1

theorem exists_run_widen_iff (hrun : ad.run view observed = .ok fs)
    (h : view.Drawn ad.toAddresses org) (hl : get? view.locations lid = some l)
    (ht : ad.net t = some n) :
    (∃ fs', ad.run (view.widen lid l t) observed = .ok fs') ↔
      ad.Quiet view observed.devices lid n := by
  have hunique := h.linked.locationIds
  have hnets : ad.netsAt view lid = ad.nets l.subnets := by rw [Addresses.netsAt, at_eq hl]
  have hmore : ∀ m ∈ ad.nets l.subnets, m ∈ ad.nets (sortedSet (l.subnets ++ [t])) :=
    fun m hm => (mem_nets_add ht).mpr (.inl hm)
  rw [View.widen, exists_run (mt (mem_keys_put hl).mp h.ids), ← View.widen]
  constructor
  · rintro hread hnone d hd rfl ip haddr hversion hout hunowned
    refine hread d hd ip ⟨⟨haddr, ?_, ?_, ?_⟩, (unowned_put_self hunique).mpr hunowned, hversion⟩
    · rw [View.widen, has_put hl, has, hl]
      rfl
    · exact List.ne_nil_of_mem ((netsAt_widen ht).mpr (.inr rfl))
    · rw [covers_eq_false]
      intro m hm
      rcases (netsAt_widen ht).mp hm with hm | rfl
      · rw [← hnets, hnone] at hm
        cases hm
      · exact hout
  · intro hquiet d hd ip hastray
    have hread := (exists_run h.ids).mp ⟨fs, hrun⟩ d hd ip
    by_cases hloc : d.location = lid
    · subst hloc
      have hout := covers_eq_false.mp hastray.outside
      have hunowned : ad.Unowned view d.location ip := (unowned_put_self hunique).mp hastray.unowned
      by_cases hnone : ad.netsAt view d.location = []
      · exact hquiet hnone d hd rfl ip hastray.read hastray.version
          (hout n ((netsAt_widen ht).mpr (.inr rfl))) hunowned
      · refine hread ⟨⟨hastray.read, ?_, hnone, ?_⟩, hunowned, hastray.version⟩
        · rw [has, hl]
          rfl
        · rw [covers_eq_false, hnets]
          exact fun m hm => hout m ((netsAt_widen ht).mpr (.inl hm))
    · exact hread (@astray_of_put ad.toAddresses view lid l
        { l with subnets := sortedSet (l.subnets ++ [t]) } ip hunique hl hmore d hloc hastray)

theorem not_mem_nets {ip : Address}
    (h : ∀ e ∈ view.locations, covers (ad.nets e.2.subnets) ip = false) :
    ∀ e ∈ view.locations, Network.around ip 24 ∉ ad.nets e.2.subnets := by
  intro e he hmem
  have hnot := covers_eq_false.mp (h e he) _ hmem
  rw [has_around] at hnot
  cases hnot

/-- The `/24` around the address of a device is a good proposal when no other location has a subnet
in it, and no device with the same address strays from another location. -/
theorem closes_device_iff (hrun : ad.run view observed = .ok fs)
    (h : view.Drawn ad.toAddresses org) {d : Host} {ip : Address}
    (hastray : ad.Astray view d ip) (hnet : ad.network (d.ip ++ "/24") = some t) :
    ad.Closes probes org view observed fs
        (outsideFinding view d "" (some [addSubnetOp d.location t])) [addSubnetOp d.location t] ↔
      ad.Clear view d.location (Network.around ip 24) ∧
        ∀ d' ∈ observed.devices, d'.ip = d.ip → ad.Stray view d' ip →
          d'.location = d.location := by
  have hunique := h.linked.locationIds
  obtain ⟨l, hl⟩ := Option.isSome_iff_exists.mp hastray.known
  obtain ⟨n, hread, -, ht⟩ := net_of_network hnet
  obtain rfl := ad.slash24_read d.ip ip n hastray.read hastray.version hread
  have hnets : ad.netsAt view d.location = ad.nets l.subnets := by rw [Addresses.netsAt, at_eq hl]
  have hcovers : ∀ e ∈ view.locations, covers (ad.nets e.2.subnets) ip = false := by
    intro e he
    by_cases hid : e.1 = d.location
    · have hget := hunique.mem_iff.mp he
      rw [hid, hl] at hget
      rw [← Option.some.inj hget, ← hnets]
      exact hastray.outside
    · exact hastray.unowned e he hid
  have hrun' : ∃ fs', ad.run (view.widen d.location l t) observed = .ok fs' :=
    (exists_run_widen_iff hrun h hl ht).mpr fun hnone => absurd hnone hastray.subnets
  rw [closes_iff hrun (applyOp_widen h hl hnet), and_iff_right hrun', and_comm]
  refine and_congr (overlaps_addSubnet_iff hunique hl ht (not_mem_nets hcovers)) ?_
  constructor
  · intro hgone d' hd' hip hstray
    by_contra hloc
    have hstray' := (@stray_put_iff ad.toAddresses view d.location l
      { l with subnets := sortedSet (l.subnets ++ [t]) } ip hl d' hloc).mpr hstray
    obtain ⟨fs', hfs'⟩ := hrun'
    obtain ⟨o, ho⟩ := (exists_run_iff.mp ⟨fs', hfs'⟩).1 d' hd'
    obtain ⟨g, hg, hsubject⟩ := exists_deviceFinding hstray' ho
    refine hgone g ⟨d', hd', hg⟩ ?_ fun s hs => by cases hs
    rw [hsubject, hip]
    rfl
  · rintro honly g ⟨d', hd', hg⟩ hsubject -
    obtain ⟨ip', proposal, hstray', -, rfl⟩ := exists_stray hg
    have hip : d'.ip = d.ip := Subject.device.inj hsubject
    obtain rfl : ip' = ip := by
      have hsame := hstray'.read
      rw [hip, hastray.read] at hsame
      exact (Option.some.inj hsame).symm
    by_cases hloc : d'.location = d.location
    · have hout := covers_eq_false.mp hstray'.outside
      rw [hloc] at hout
      have hnot := hout _ ((netsAt_widen ht).mpr (.inr rfl))
      rw [has_around] at hnot
      cases hnot
    · exact hloc (honly d' hd' hip ((@stray_put_iff ad.toAddresses view d.location l
        { l with subnets := sortedSet (l.subnets ++ [t]) } ip' hl d' hloc).mp hstray'))

/-- The `/24` around the address of an ARP entry is a good proposal when no other location has a
subnet in it, and it brings no device of a location without networks to an exception. -/
theorem closes_arp_iff (hrun : ad.run view observed = .ok fs)
    (h : view.Drawn ad.toAddresses org) (hlid : lid ∈ keys view.locations) {e : ArpEntry}
    {ip : Address} (hunseen : ad.Unseen view e lid ip)
    (hnet : ad.network (ad.addressText ip ++ "/24") = some t) (hcode : f.code = .arpUncovered)
    (hsubject : f.subject = .location lid) (hnamed : get? f.params "subnet" = some (.str t)) :
    ad.Closes probes org view observed fs f [addSubnetOp lid t] ↔
      ad.Clear view lid (Network.around ip 24) ∧
        ad.Quiet view observed.devices lid (Network.around ip 24) := by
  have hunique := h.linked.locationIds
  obtain ⟨l, hl⟩ := mem_keys.mp hlid
  obtain ⟨n, hread, htext, ht⟩ := net_of_network hnet
  have hslash := ad.slash24_text _ ip hunseen.read (version_of_lan hunseen.lan)
  obtain rfl : n = Network.around ip 24 := by
    rw [hslash] at hread
    exact (Option.some.inj hread).symm
  have hgone : ∀ g, ad.finds (view.widen lid l t) observed g f.code → g.subject = f.subject →
      ¬ ∀ s, get? f.params "subnet" = some s → get? g.params "subnet" = some s := by
    intro g hg hsame hsubnet
    rw [hcode] at hg
    obtain ⟨e', -, k, huncovered, hsubject', -, hnamed'⟩ := exists_uncovered hg
    obtain ⟨ip', hunseen', hnet'⟩ := uncovered_eq_some huncovered
    rw [hsubject', hsubject] at hsame
    have hkey : k.1 = lid := Subject.location.inj hsame
    have hk : k.2 = t := by
      rw [hsubnet _ hnamed] at hnamed'
      exact (Json.str.inj (Option.some.inj hnamed')).symm
    have hslash' := ad.slash24_text _ ip' hunseen'.read (version_of_lan hunseen'.lan)
    have hsamenet : Network.around ip' 24 = Network.around ip 24 := by
      refine networkText_injective hslash' hslash ?_
      rw [network_of_unseen hunseen', hk] at hnet'
      rw [htext]
      exact Option.some.inj hnet'
    have hput : (lid, { l with subnets := sortedSet (l.subnets ++ [t]) }) ∈
        (view.widen lid l t).locations := (mem_put hunique).mpr (.inl rfl)
    have hnot := covers_eq_false.mp (covers_allNets.mp hunseen'.outside _ hput)
      (Network.around ip 24) ((mem_nets_add ht).mpr (.inr rfl))
    rw [← hsamenet, has_around] at hnot
    cases hnot
  rw [closes_iff hrun (applyOp_widen h hl hnet), exists_run_widen_iff hrun h hl ht,
    and_iff_right hgone, and_comm]
  exact and_congr_left fun _ => overlaps_addSubnet_iff hunique hl ht
    (not_mem_nets (covers_allNets.mp hunseen.outside))

end Subnet

/-! ## All proposals -/

theorem mem_keys_of_gateway {gw lid : String} (h : get? view.gatewayLocations gw = some lid) :
    lid ∈ keys view.locations := by
  have hfold : ∀ (items : Dict Location) (d : Dict String), items ⊆ view.locations →
      (∀ v, get? d gw = some v → v ∈ keys view.locations) →
      ∀ v, get? (items.foldl (fun d e => if e.2.gateway = "" then d else set d e.2.gateway e.1) d)
        gw = some v → v ∈ keys view.locations := by
    intro items
    induction items with
    | nil => exact fun d _ hd => hd
    | cons e items ih =>
      intro d hsub hd
      obtain ⟨he, hsub⟩ := List.cons_subset.mp hsub
      refine ih _ hsub fun v hv => ?_
      dsimp only at hv
      split at hv
      · exact hd v hv
      · rw [get?_set] at hv
        split at hv
        · rw [← Option.some.inj hv]
          exact List.mem_map_of_mem he
        · exact hd v hv
  exact hfold view.locations [] (List.Subset.refl _) (fun v hv => nomatch hv) lid h

/-- The proposals of the checks are all good exactly when the candidates for gateways have
addresses, the proposed subnets are clear of the other locations and bring no device to an
exception, no device strays from two locations, and the routes and the tunnels of a location lead
to at most one location without a link. -/
theorem closes_iff_sound (ad : Ipaddress) (probes : Probes) (org : String) (view : View)
    (observed : Observed) (fs : List Finding) (h : view.Drawn ad.toAddresses org)
    (hrun : ad.run view observed = .ok fs) :
    (∀ f ∈ fs, ∀ ops, f.proposal = some ops →
      ad.Closes probes org view observed fs f ops) ↔ ad.Sound view observed := by
  have hunique := h.linked.locationIds
  have hread := (exists_run h.ids).mp ⟨fs, hrun⟩
  constructor
  · intro hall
    refine ⟨?_, ?_, ?_, ?_, ?_⟩
    · intro e he hempty ip hcand
      obtain ⟨f, hf⟩ : ∃ f, gatewayFinding observed.devices e = some f := ⟨_, if_pos hempty⟩
      have hproposal := (of_gatewayFinding_empty hempty hf).2.2.2
      rw [hcand] at hproposal
      have hmem : f ∈ fs := (mem_run hrun).mpr ⟨.locationNoGateway, e, he, hempty, hf⟩
      exact (closes_gateway_iff hrun h he hempty hf).mp (hall f hmem _ hproposal)
    · intro d hd ip hastray
      obtain ⟨t, ht⟩ := hread d hd ip hastray
      have hf := slash24_eq hastray h.ids
      rw [Addresses.slash24, ht] at hf
      exact (closes_device_iff hrun h hastray ht).mp
        (hall _ ((mem_run hrun).mpr ⟨.deviceOutsideSubnets, d, hd, hf⟩) _ rfl)
    · intro e he lid ip hunseen
      have huncovered := uncovered_of_unseen hunseen
      rw [Addresses.slash24, network_of_unseen hunseen] at huncovered
      obtain ⟨keys, hkeys⟩ := exists_mapM_ok.mpr (exists_run_iff.mp ⟨fs, hrun⟩).2
      obtain ⟨f, hf, hsubject, hproposal, hnamed⟩ := exists_arpFinding hkeys he huncovered
      exact (closes_arp_iff hrun h (mem_keys_of_gateway hunseen.gateway) hunseen
        (network_of_unseen hunseen) (code_of_finds hf) hsubject hnamed).mp
        (hall f ((mem_run hrun).mpr ⟨.arpUncovered, hf⟩) _ hproposal)
    · intro src dst dst' hdst hdst' hsome hsome'
      obtain ⟨row, hrow⟩ := Option.isSome_iff_exists.mp hsome
      have hmem := (mem_run hrun).mpr
        ⟨.routeWithoutLink, (mem_routeLoop hunique).mpr ⟨(src, dst), hdst, row, hrow, rfl⟩⟩
      exact ((closes_route_iff hrun h hdst hrow rfl).mp (hall _ hmem _ rfl) dst' hdst'
        hsome').symm
    · intro src dst dst' hmeets hmeets'
      obtain ⟨t, ht⟩ := mem_of_firstMeets hunique hmeets
      exact ((closes_tunnel_iff hrun h hmeets).mp
        (hall _ ((mem_run hrun).mpr ⟨.tunnelWithoutLink, ht⟩) _ rfl) dst' hmeets').symm
  · intro hsound f hf ops hops
    have hfinds := (mem_run_iff hrun).mp hf
    by_cases hcode : f.code ∈ proposing
    · simp only [proposing, List.mem_cons, List.not_mem_nil, or_false] at hcode
      rcases hcode with hcode | hcode | hcode | hcode | hcode | hcode
      · rw [hcode] at hfinds
        exact closes_isolated hrun h hfinds hops
      · rw [hcode] at hfinds
        obtain ⟨e, he, hempty, hg⟩ := hfinds
        rw [(of_gatewayFinding_empty hempty hg).2.2.2] at hops
        split at hops
        · next ip hcand =>
          rw [← Option.some.inj hops]
          exact (closes_gateway_iff hrun h he hempty hg).mpr
            (hsound.gateway e he hempty ip hcand)
        · cases hops
      · rw [hcode] at hfinds
        obtain ⟨d, hd, hg⟩ := hfinds
        obtain ⟨ip, t, hastray, ht, rfl⟩ := exists_astray h.ids hg hops
        rw [← Option.some.inj hops]
        exact (closes_device_iff hrun h hastray ht).mpr (hsound.device d hd ip hastray)
      · rw [hcode] at hfinds
        obtain ⟨e, he, k, huncovered, hsubject, hproposal, hnamed⟩ := exists_uncovered hfinds
        obtain ⟨ip, hunseen, ht⟩ := uncovered_eq_some huncovered
        rw [hproposal] at hops
        rw [← Option.some.inj hops]
        exact (closes_arp_iff hrun h (mem_keys_of_gateway hunseen.gateway) hunseen ht hcode
          hsubject hnamed).mpr (hsound.arp e he k.1 ip hunseen)
      · rw [hcode] at hfinds
        obtain ⟨p, hp, row, hrow, rfl⟩ := (mem_routeLoop hunique).mp hfinds
        refine (closes_route_iff hrun h hp hrow hops).mpr fun dst hdst hsome => ?_
        exact (hsound.route p.1 p.2 dst hp hdst (Option.isSome_iff_exists.mpr ⟨row, hrow⟩)
          hsome).symm
      · rw [hcode] at hfinds
        obtain ⟨src, dst, t, hmeets, rfl⟩ := firstMeets_of_mem hunique hfinds
        rw [← Option.some.inj hops]
        exact (closes_tunnel_iff hrun h hmeets).mpr fun dst' hmeets' =>
          (hsound.tunnel src dst dst' hmeets hmeets').symm
    · rw [proposal_of_finds hfinds hcode] at hops
      cases hops

end Closing

/-! ## A neighbour in the same `/24` -/

/-- Two locations with parts of one `/24`. -/
def halves : View where
  locations := [("milano", ⟨"acme", "Milano", "hq", ["10.0.0.0/25"], .str "central", "10.0.0.1"⟩),
    ("roma", ⟨"acme", "Roma", "branch", ["10.0.0.128/26"], .str "central", ""⟩)]
  links := []

/-- The gateway of the one sees an address that neither of them has. -/
def neighbour : Observed := ⟨[], [⟨"10.0.0.200", "10.0.0.1"⟩], [], []⟩

/-- What is found of the address. -/
def neighbourFinding : Finding where
  code := .arpUncovered
  severity := .warning
  subject := .location "milano"
  params := [("name", .str "Milano"), ("subnet", .str "10.0.0.0/24"), ("count", .int 1)]
  proposal := some [addSubnetOp "milano" "10.0.0.0/24"]

/-- The view that the proposal makes. -/
def halvesWidened : View where
  locations := [("milano", ⟨"acme", "Milano", "hq", ["10.0.0.0/24", "10.0.0.0/25"],
      .str "central", "10.0.0.1"⟩),
    ("roma", ⟨"acme", "Roma", "branch", ["10.0.0.128/26"], .str "central", ""⟩)]
  links := []

def findingsOf (view : View) : List Finding :=
  (ipv4Addresses.run view neighbour).toOption.getD []

theorem slug_of_eq {s : String} (h : Probes.slugify s = s) : Slug s := h ▸ slug_slugify s

theorem drawn_halves : halves.Drawn ipv4Addresses "acme" := by
  have hlocations : ∀ {P : String → Location → Prop}, (∀ e ∈ halves.locations, P e.1 e.2) →
      ∀ k l, get? halves.locations k = some l → P k l :=
    fun hP k l hl => hP (k, l) (mem_of_get? hl)
  refine ⟨⟨⟨by unfold PyDict.Unique; decide, by unfold PyDict.Unique; decide,
    fun _ _ h => (nomatch h), fun _ _ h => (nomatch h), fun _ _ h => (nomatch h),
    fun _ _ h => (nomatch h)⟩, hlocations ?_, hlocations ?_, fun _ _ h => (nomatch h)⟩,
    hlocations ?_⟩
  · intro e he
    refine slug_of_eq ?_
    simp only [halves, List.mem_cons, List.not_mem_nil, or_false] at he
    rcases he with rfl | rfl
    · decide +kernel
    · decide +kernel
  · intro e he
    simp only [halves, List.mem_cons, List.not_mem_nil, or_false] at he
    rcases he with rfl | rfl
    · exact ⟨by decide +kernel, by decide +kernel,
        ⟨List.pairwise_singleton _ _, by decide +kernel⟩, ⟨"central", rfl, by decide⟩,
        by decide +kernel⟩
    · exact ⟨by decide +kernel, by decide +kernel,
        ⟨List.pairwise_singleton _ _, by decide +kernel⟩, ⟨"central", rfl, by decide⟩,
        by decide +kernel⟩
  · decide

theorem run_halves : ipv4Addresses.run halves neighbour = .ok (findingsOf halves) := by
  decide +kernel

theorem closes_iff_sound_halves :
    (∀ f ∈ findingsOf halves, ∀ ops, f.proposal = some ops →
      ipv4Addresses.Closes none "acme" halves neighbour (findingsOf halves) f ops) ↔
      ipv4Addresses.Sound halves neighbour :=
  closes_iff_sound ipv4Ipaddress none "acme" halves neighbour (findingsOf halves) drawn_halves
    run_halves

/-- The proposed subnet of the one location overlaps that of the other one. -/
theorem subnet_opens_overlap :
    ¬ ∀ (ad : Ipaddress) (probes : Probes) (org : String) (view : View) (observed : Observed)
      (fs : List Finding), view.Drawn ad.toAddresses org → ad.run view observed = .ok fs →
        ∀ f ∈ fs, ∀ ops, f.proposal = some ops →
          ad.Closes probes org view observed fs f ops := by
  intro hall
  obtain ⟨w, fs', hw, hrun, -, hover⟩ := hall ipv4Ipaddress none "acme" halves neighbour
    (findingsOf halves) drawn_halves run_halves neighbourFinding (by decide +kernel) _ rfl
  have happly : applyOps ipv4Library none "acme" halves.locations halves.links
      [addSubnetOp "milano" "10.0.0.0/24"] =
      .ok ⟨halvesWidened.locations, halvesWidened.links, []⟩ := by
    decide +kernel
  have hafter : ipv4Addresses.run halvesWidened neighbour = .ok (findingsOf halvesWidened) := by
    decide +kernel
  obtain rfl := Except.ok.inj (happly.symm.trans hw)
  obtain rfl := Except.ok.inj (hafter.symm.trans hrun)
  exact absurd hover (by decide +kernel)

end SentinelNet.Blueprint
