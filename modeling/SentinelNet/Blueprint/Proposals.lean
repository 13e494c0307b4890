import SentinelNet.Blueprint.Findings
import SentinelNet.Blueprint.RoundTrip

/-!
# What a proposal makes of a view

The checks propose three operations: a link, a gateway, or the `/24` around an address as a subnet.
Each is applied to the tables of the view, and the checks are run again.

* `applyOp_addLink`, `applyOp_setGateway`, `applyOp_addSubnet`: the three operations.
* `overlaps_setGateway`, `overlaps_addSubnet_iff`: the overlaps afterwards.
* `astray_setGateway`, `astray_addSubnet`: the devices outside of their subnets afterwards.
-/

namespace SentinelNet.Blueprint

open Observability PyDict PyText IpNetwork Outcomes
open Inventory (Host)

/-! ## The network around an address -/

/-- `ipaddress`, with the network that it makes of an address of the version 4 and `/24`. -/
structure Ipaddress extends Addresses where
  /-- A text with `/24` is only a network when it is the address without white space. -/
  slash24_read : ∀ s ip n, readAddress (strip s) = some ip → ip.version = .v4 →
    readNetwork (s ++ "/24") = some n → n = Network.around ip 24
  slash24_text : ∀ s ip, readAddress s = some ip → ip.version = .v4 →
    readNetwork (addressText ip ++ "/24") = some (Network.around ip 24)

theorem networkOfV4_around (a : Ipv4.Addr) :
    networkOfV4 ⟨a &&& Ipv4.maskOf 24, 24⟩ = Network.around ⟨.v4, a.toNat⟩ 24 := by
  rw [networkOfV4, Ipv4.toNat_and_maskOf]
  rfl

/-- Addresses and networks of the version 4. -/
def ipv4Ipaddress : Ipaddress where
  toAddresses := ipv4Addresses
  slash24_read s ip n hread _ hnet := by
    obtain ⟨a, ha, rfl⟩ := Option.map_eq_some_iff.mp hread
    obtain ⟨net, hchars, rfl⟩ := Option.map_eq_some_iff.mp hnet
    rw [String.toList_append] at hchars
    obtain ⟨b, k, hb, hk, rfl⟩ :=
      @Ipv4.networkOfChars_slash s.toList net ['2', '4'] (by decide) hchars
    obtain rfl : k = 24 := by
      rw [show Ipv4.prefixOfChars ['2', '4'] = some 24 from by decide] at hk
      exact (Option.some.inj hk).symm
    have hstrip : stripChars s.toList = s.toList :=
      stripChars_of_forall fun c hc => Ipv4.isSpace_of_ofChars hb hc
    rw [strip, String.toList_ofList, hstrip, hb] at ha
    rw [Option.some.inj ha, networkOfV4_around]
  slash24_text s ip hread _ := by
    obtain ⟨a, -, rfl⟩ := Option.map_eq_some_iff.mp hread
    have hformat : (String.ofList (Ipv4.format (BitVec.ofNat 32 a.toNat)) ++ "/24").toList =
        Ipv4.format a ++ '/' :: ['2', '4'] := by
      rw [String.toList_append, String.toList_ofList, BitVec.ofNat_toNat, BitVec.setWidth_eq]
      rfl
    have hsplit : (Ipv4.format a ++ '/' :: ['2', '4']).splitOn '/' =
        [Ipv4.format a, ['2', '4']] := by
      rw [List.splitOn_eq_splitOnP, List.splitOnP_append_cons_of_forall_mem (fun c hc => by
        rw [beq_eq_false_iff_ne]
        rintro rfl
        exact Ipv4.slash_not_mem_format a hc) _ (by decide)]
      rfl
    change (Ipv4.networkOfChars
      (String.ofList (Ipv4.format (BitVec.ofNat 32 a.toNat)) ++ "/24").toList).map networkOfV4 = _
    rw [hformat, Ipv4.networkOfChars, hsplit]
    change ((Ipv4.ofChars (Ipv4.format a)).bind fun a =>
      (Ipv4.prefixOfChars ['2', '4']).bind fun n => some ⟨a &&& Ipv4.maskOf n, n⟩).map
        networkOfV4 = _
    rw [Ipv4.ofChars_format, show Ipv4.prefixOfChars ['2', '4'] = some 24 from by decide]
    exact congrArg some (networkOfV4_around a)

/-! ## The three operations -/

section Operations

variable {lib : Library} {probes : Probes} {org : String} {w : Work} {i : ℕ}
  {locations : Dict Location} {links : Dict Link}

theorem applyOps_singleton {op : Json} : applyOps lib probes org locations links [op] =
    (applyOp lib probes org ⟨locations, links, []⟩ 0 op).mapError (asOpError 0) := by
  have hsize : ¬ maxDraftOps < [op].length := by
    rw [List.length_singleton]
    decide
  rw [applyOps, if_neg hsize, applyFrom]
  cases applyOp lib probes org ⟨locations, links, []⟩ 0 op with
  | error e => rfl
  | ok w => rfl

theorem applyOp_addLink {a b kind : String} (ha : w.Own org a) (hb : w.Own org b)
    (hrefs : w.refs = []) (hab : a ≠ b) (hkind : kind ∈ kinds)
    (hnew : get? w.links (linkId a b kind) = none) :
    applyOp lib probes org w i (addLinkOp a b kind) =
      .ok { w with links := set w.links (linkId a b kind) (newLink org a b kind "") } :=
  applyOp_linkOp (locId_own ha (by rw [hrefs]; rfl)) (locId_own hb (by rw [hrefs]; rfl)) hab hkind
    hnew

/-- A gateway is accepted when it is empty or an address. -/
theorem applyOp_setGateway {lid ip : String} {l : Location} (hl : get? w.locations lid = some l)
    (horg : l.org = org) (hrefs : w.refs = []) :
    applyOp lib probes org w i (setGatewayOp lid ip) =
      if strip ip = "" ∨ lib.address (strip ip) = true then
        .ok { w with locations := set w.locations lid { l with gateway := strip ip } }
      else .error (.valueError (.badGateway (strip ip))) := by
  have hid : get? w.refs lid = none := by rw [hrefs]; rfl
  have hitem : getItem w.locations lid = .ok l := by rw [getItem, hl]
  have hstripped : lib.stripped (.str ip) = strip ip := by
    rw [Library.stripped, orElse_str_empty]
    rfl
  have hfields : newFields "set_gateway" w lid [("op", .str "set_gateway"), ("id", .str lid),
      ("ip", .str ip)] = .ok [("gateway", .str ip)] := rfl
  change changeLocation lib probes org "set_gateway" w i _ = _
  unfold changeLocation
  refine (bind_eq (locId_own ⟨l, hl, horg⟩ hid) _).trans ((bind_eq hfields _).trans
    ((bind_eq hitem _).trans ?_))
  rw [Library.cleanFields, cleanField_gateway, Library.cleanGateway, hstripped]
  split
  · rfl
  · rfl

/-- A subnet that reads is accepted. -/
theorem applyOp_addSubnet {lid subnet : String} {l : Location}
    (hl : get? w.locations lid = some l) (horg : l.org = org) (hrefs : w.refs = [])
    (hnormal : Normal lib l.subnets) (hsubnet : lib.network subnet = some subnet) :
    applyOp lib probes org w i (addSubnetOp lid subnet) =
      .ok { w with
        locations := set w.locations lid
          { l with subnets := sortedSet (l.subnets ++ [subnet]) } } := by
  have hid : get? w.refs lid = none := by rw [hrefs]; rfl
  have hitem : getItem w.locations lid = .ok l := by rw [getItem, hl]
  have hfields : newFields "add_subnet" w lid [("op", .str "add_subnet"), ("id", .str lid),
      ("subnet", .str subnet)] =
      .ok [("subnets", .arr (l.subnets.map .str ++ [.str subnet]))] := by
    unfold newFields
    exact bind_eq hitem _
  have hnetworks : lib.networks ((l.subnets ++ [subnet]).map .str) = .ok (l.subnets ++ [subnet]) :=
    networks_normal fun s hs => (List.mem_append.mp hs).elim (hnormal.networks s) fun hs => by
      rw [List.mem_singleton.mp hs]
      exact hsubnet
  have hitems : items (orElse (.arr (l.subnets.map .str ++ [.str subnet])) (.arr [])) =
      .ok ((l.subnets ++ [subnet]).map .str) := by
    rw [orElse_arr, List.map_append]
    rfl
  have hclean : lib.cleanSubnets (.arr (l.subnets.map .str ++ [.str subnet])) =
      .ok (sortedSet (l.subnets ++ [subnet])) := by
    unfold Library.cleanSubnets
    exact (bind_eq hitems _).trans (bind_eq hnetworks _)
  change changeLocation lib probes org "add_subnet" w i _ = _
  unfold changeLocation
  refine (bind_eq (locId_own ⟨l, hl, horg⟩ hid) _).trans ((bind_eq hfields _).trans
    ((bind_eq hitem _).trans ?_))
  rw [Library.cleanFields, cleanField_subnets, hclean]
  rfl

end Operations

/-! ## The view with another location -/

def View.put (view : View) (lid : String) (l : Location) : View :=
  { view with locations := set view.locations lid l }

section Put

variable {ad : Addresses} {view : View} {lid : String} {l l' : Location}

theorem mem_put (hunique : Unique view.locations) {e : String × Location} :
    e ∈ (view.put lid l').locations ↔ e = (lid, l') ∨ (e.1 ≠ lid ∧ e ∈ view.locations) :=
  hunique.mem_set_iff

theorem unique_put (hunique : Unique view.locations) : Unique (view.put lid l').locations :=
  hunique.set lid l'

theorem at_put (x : String) : (view.put lid l').at x = if x = lid then l' else view.at x := by
  rw [View.at, View.put, get?_set]
  split
  · rfl
  · rfl

theorem netsAt_put (x : String) : ad.netsAt (view.put lid l') x =
    if x = lid then ad.nets l'.subnets else ad.netsAt view x := by
  rw [Addresses.netsAt, at_put, apply_ite Location.subnets, apply_ite ad.nets]
  rfl

theorem at_eq (hl : get? view.locations lid = some l) : view.at lid = l := by
  rw [View.at, hl]
  rfl

theorem has_put (hl : get? view.locations lid = some l) (x : String) :
    has (view.put lid l').locations x = has view.locations x := by
  rw [has, has, View.put, get?_set]
  split
  · next hx => rw [hx, hl]; rfl
  · rfl

theorem mem_keys_put (hl : get? view.locations lid = some l) {x : String} :
    x ∈ keys (view.put lid l').locations ↔ x ∈ keys view.locations := by
  rw [keys, View.put, mem_keys_set_iff]
  exact or_iff_right_of_imp fun hx => hx ▸ mem_keys.mpr ⟨l, hl⟩

variable {ip : Address}

theorem covers_iff {nets : List Network} :
    covers nets ip = true ↔ ∃ n ∈ nets, n.has ip = true := List.any_eq_true

theorem covers_eq_false {nets : List Network} :
    covers nets ip = false ↔ ∀ n ∈ nets, n.has ip = false := by
  rw [covers, List.any_eq_false]
  simp only [Bool.not_eq_true]

theorem covers_allNets : covers (ad.allNets view) ip = false ↔
    ∀ e ∈ view.locations, covers (ad.nets e.2.subnets) ip = false := by
  rw [covers_eq_false]
  constructor
  · exact fun h e he => covers_eq_false.mpr fun n hn => h n (List.mem_flatMap.mpr ⟨e, he, hn⟩)
  · intro h n hn
    obtain ⟨e, he, hn⟩ := List.mem_flatMap.mp hn
    exact covers_eq_false.mp (h e he) n hn

theorem unowned_put_self (hunique : Unique view.locations) :
    ad.Unowned (view.put lid l') lid ip ↔ ad.Unowned view lid ip := by
  constructor
  · exact fun h e he hne => h e ((mem_put hunique).mpr (.inr ⟨hne, he⟩)) hne
  · intro h e he hne
    rcases (mem_put hunique).mp he with rfl | ⟨-, he⟩
    · exact absurd rfl hne
    · exact h e he hne

theorem unowned_of_put (hunique : Unique view.locations) (hl : get? view.locations lid = some l)
    (hmore : ∀ n ∈ ad.nets l.subnets, n ∈ ad.nets l'.subnets) {x : String}
    (h : ad.Unowned (view.put lid l') x ip) : ad.Unowned view x ip := by
  intro e he hne
  by_cases hkey : e.1 = lid
  · have he' : e.2 = l := by
      have hget := hunique.mem_iff.mp he
      rw [hkey, hl] at hget
      exact (Option.some.inj hget).symm
    have hput := h (lid, l') ((mem_put hunique).mpr (.inl rfl)) (hkey ▸ hne)
    rw [he', covers_eq_false]
    exact fun n hn => covers_eq_false.mp hput n (hmore n hn)
  · exact h e ((mem_put hunique).mpr (.inr ⟨hkey, he⟩)) hne

theorem stray_put_iff (hl : get? view.locations lid = some l) {d : Host} (hd : d.location ≠ lid) :
    ad.Stray (view.put lid l') d ip ↔ ad.Stray view d ip := by
  have hnets : ad.netsAt (view.put lid l') d.location = ad.netsAt view d.location := by
    rw [netsAt_put, if_neg hd]
  constructor
  · intro h
    exact ⟨h.read, has_put hl _ ▸ h.known, hnets ▸ h.subnets, hnets ▸ h.outside⟩
  · intro h
    exact ⟨h.read, (has_put hl _).trans h.known, hnets.symm ▸ h.subnets, hnets.symm ▸ h.outside⟩

theorem astray_of_put (hunique : Unique view.locations) (hl : get? view.locations lid = some l)
    (hmore : ∀ n ∈ ad.nets l.subnets, n ∈ ad.nets l'.subnets) {d : Host} (hd : d.location ≠ lid)
    (h : ad.Astray (view.put lid l') d ip) : ad.Astray view d ip :=
  ⟨(stray_put_iff hl hd).mp h.toStray, unowned_of_put hunique hl hmore h.unowned, h.version⟩

end Put

/-! ## Texts of networks -/

section Texts

variable {ad : Addresses}

theorem readable_of_mem_nets {subnets : List String} {n : Network} (h : n ∈ ad.nets subnets) :
    ∃ s, ad.readNetwork s = some n := by
  obtain ⟨s, -, hs⟩ := List.mem_filterMap.mp h
  exact ⟨_, hs⟩

theorem networkText_injective {s s' : String} {n n' : Network} (h : ad.readNetwork s = some n)
    (h' : ad.readNetwork s' = some n') (htext : ad.networkText n = ad.networkText n') : n = n' := by
  have hread := ad.readNetwork_text s n h
  rw [htext, ad.readNetwork_text s' n' h'] at hread
  exact (Option.some.inj hread).symm

theorem net_of_network {s t : String} (h : ad.network s = some t) :
    ∃ n, ad.readNetwork s = some n ∧ ad.networkText n = t ∧ ad.net t = some n := by
  rw [ad.network_eq] at h
  obtain ⟨n, hn, rfl⟩ := Option.map_eq_some_iff.mp h
  have hnet : ad.network s = some (ad.networkText n) := by
    rw [ad.network_eq, hn]
    rfl
  obtain ⟨-, hstrip, -⟩ := ad.network_network _ _ hnet
  refine ⟨n, hn, rfl, ?_⟩
  have hmap : (ad.networkText n).map (fun c => if c = ' ' then '/' else c) = ad.networkText n := by
    rw [← String.toList_inj, String.toList_map]
    refine List.map_congr_left (fun c hc => if_neg fun hspace => ?_) |>.trans (List.map_id _)
    exact ad.space_not_mem s n hn (hspace ▸ hc)
  rw [Addresses.net, hstrip, hmap]
  exact ad.readNetwork_text s n hn

theorem mem_nets_add {subnets : List String} {t : String} {n m : Network} (ht : ad.net t = some n) :
    m ∈ ad.nets (sortedSet (subnets ++ [t])) ↔ m ∈ ad.nets subnets ∨ m = n := by
  simp only [Addresses.nets, List.mem_filterMap, mem_sortedSet, List.mem_append,
    List.mem_singleton, or_and_right, exists_or, exists_eq_left, ht, Option.some.injEq, @eq_comm _ n m]

end Texts

/-! ## Overlaps -/

section Overlaps

variable {ad : Addresses} {view : View} {lid : String} {l l' : Location} {f : Finding}

/-- No other location has a network that overlaps it. -/
def Addresses.Clear (ad : Addresses) (view : View) (lid : String) (n : Network) : Prop :=
  ∀ e ∈ view.locations, e.1 ≠ lid →
    ∀ m ∈ ad.nets e.2.subnets, m.version = n.version → m.overlaps n = false

theorem overlapFinding_of {a b : String × Location} {na nb : Network}
    (hversion : na.version = nb.version) (hoverlaps : na.overlaps nb) :
    ∃ f, ad.overlapFinding a b na nb = some f := ⟨_, if_pos ⟨hversion, hoverlaps⟩⟩

theorem networkText_of_overlapFinding {a b a' b' : String × Location} {na nb na' nb' : Network}
    (h : ad.overlapFinding a b na nb = some f) (h' : ad.overlapFinding a' b' na' nb' = some f) :
    ad.networkText na = ad.networkText na' ∧ ad.networkText nb = ad.networkText nb' := by
  rw [Addresses.overlapFinding] at h h'
  obtain ⟨-, h⟩ := Option.ite_none_right_eq_some.mp h
  obtain ⟨-, h'⟩ := Option.ite_none_right_eq_some.mp h'
  have hparams := congrArg Finding.params (Option.some.inj (h.trans h'.symm))
  simp only [List.cons.injEq, Prod.mk.injEq, Json.str.injEq, true_and, and_true] at hparams
  exact ⟨hparams.2.2.1, hparams.2.2.2⟩

theorem overlapFinding_congr {a b a' b' : String × Location} (ha : a.1 = a'.1)
    (haname : a.2.name = a'.2.name) (hbname : b.2.name = b'.2.name) (na nb : Network) :
    ad.overlapFinding a b na nb = ad.overlapFinding a' b' na nb := by
  rw [Addresses.overlapFinding, Addresses.overlapFinding, ha, haname, hbname]

/-- A location with other fields overlaps the others as before, unless one of the networks of the
finding is new. -/
theorem mem_overlaps_put (hunique : Unique view.locations) (hl : get? view.locations lid = some l)
    (hname : l'.name = l.name) {P : Network → Prop}
    (hnets : ∀ n ∈ ad.nets l'.subnets, n ∈ ad.nets l.subnets ∨ P n)
    (hclear : ∀ n, P n → n ∈ ad.nets l'.subnets → ad.Clear view lid n)
    (h : f ∈ ad.overlaps (view.put lid l')) : f ∈ ad.overlaps view := by
  obtain ⟨a, ha, b, hb, hlt, na, hna, nb, hnb, hf⟩ := (mem_overlaps (unique_put hunique)).mp h
  have hlmem : (lid, l) ∈ view.locations := mem_of_get? hl
  obtain ⟨⟨hversion, hoverlaps⟩, -⟩ := Option.ite_none_right_eq_some.mp hf
  rw [mem_overlaps hunique]
  rcases (mem_put hunique).mp ha with rfl | ⟨ha₁, ha⟩
  · rcases (mem_put hunique).mp hb with rfl | ⟨hb₁, hb⟩
    · exact absurd hlt (lt_irrefl _)
    · rcases hnets na hna with hna' | hP
      · refine ⟨_, hlmem, b, hb, hlt, na, hna', nb, hnb, ?_⟩
        rw [← hf]
        exact @overlapFinding_congr ad (lid, l) b (lid, l') b rfl hname.symm rfl na nb
      · have hno := hclear na hP hna b hb hb₁ nb hnb hversion.symm
        rw [overlaps_comm, hoverlaps] at hno
        cases hno
  · rcases (mem_put hunique).mp hb with rfl | ⟨hb₁, hb⟩
    · rcases hnets nb hnb with hnb' | hP
      · refine ⟨a, ha, _, hlmem, hlt, na, hna, nb, hnb', ?_⟩
        rw [← hf]
        exact @overlapFinding_congr ad a (lid, l) a (lid, l') rfl rfl hname.symm na nb
      · have hno := hclear nb hP hnb a ha ha₁ na hna hversion
        rw [hoverlaps] at hno
        cases hno
    · exact ⟨a, ha, b, hb, hlt, na, hna, nb, hnb, hf⟩

/-- A new subnet opens no overlap exactly when no other location has one. -/
theorem overlaps_addSubnet_iff (hunique : Unique view.locations)
    (hl : get? view.locations lid = some l) {n : Network} {t : String} (ht : ad.net t = some n)
    (hnew : ∀ e ∈ view.locations, n ∉ ad.nets e.2.subnets) :
    (∀ f ∈ ad.overlaps (view.put lid { l with subnets := sortedSet (l.subnets ++ [t]) }),
        f ∈ ad.overlaps view) ↔ ad.Clear view lid n := by
  constructor
  · intro h e he hne m hm hversion
    by_contra hoverlaps
    rw [Bool.not_eq_false] at hoverlaps
    have hput : (lid, { l with subnets := sortedSet (l.subnets ++ [t]) }) ∈
        (view.put lid { l with subnets := sortedSet (l.subnets ++ [t]) }).locations :=
      (mem_put hunique).mpr (.inl rfl)
    have heput : e ∈ (view.put lid { l with subnets := sortedSet (l.subnets ++ [t]) }).locations :=
      (mem_put hunique).mpr (.inr ⟨hne, he⟩)
    have hn : n ∈ ad.nets (sortedSet (l.subnets ++ [t])) := (mem_nets_add ht).mpr (.inr rfl)
    -- the network of an old finding with its text is one of a location
    have hold : ∀ c ∈ view.locations, ∀ m' ∈ ad.nets c.2.subnets,
        ad.networkText m' ≠ ad.networkText n := by
      intro c hc m' hm' htext
      obtain ⟨s, hs⟩ := readable_of_mem_nets hm'
      exact hnew c hc (networkText_injective hs ht htext ▸ hm')
    rcases lt_or_gt_of_ne hne with hlt | hlt
    · obtain ⟨f, hf⟩ := @overlapFinding_of ad e
        (lid, { l with subnets := sortedSet (l.subnets ++ [t]) }) m n hversion hoverlaps
      have hmem := h f ((mem_overlaps (unique_put hunique)).mpr
        ⟨e, heput, _, hput, hlt, m, hm, n, hn, hf⟩)
      obtain ⟨a, -, b, hb, -, na, -, nb, hnb, hf'⟩ := (mem_overlaps hunique).mp hmem
      exact hold b hb nb hnb (networkText_of_overlapFinding hf' hf).2
    · obtain ⟨f, hf⟩ := @overlapFinding_of ad
        (lid, { l with subnets := sortedSet (l.subnets ++ [t]) }) e n m hversion.symm
        ((overlaps_comm n m).trans hoverlaps)
      have hmem := h f ((mem_overlaps (unique_put hunique)).mpr
        ⟨_, hput, e, heput, hlt, n, hn, m, hm, hf⟩)
      obtain ⟨a, ha, b, -, -, na, hna, nb, -, hf'⟩ := (mem_overlaps hunique).mp hmem
      exact hold a ha na hna (networkText_of_overlapFinding hf' hf).1
  · intro hclear f hf
    refine @mem_overlaps_put ad view lid l { l with subnets := sortedSet (l.subnets ++ [t]) } f
      hunique hl rfl (fun m => m = n) (fun m hm => (mem_nets_add ht).mp hm) ?_ hf
    rintro m rfl -
    exact hclear

end Overlaps

/-! ## The view with another link -/

/-- The view with another link. -/
def View.join (view : View) (org a b kind : String) : View :=
  { view with links := set view.links (linkId a b kind) (newLink org a b kind "") }

section Join

variable {view : View} {org a b kind : String}

theorem mem_linked {p : Link → Bool} {q : String × String} :
    q ∈ view.linked p ↔ ∃ k ∈ view.links, p k.2 = true ∧ pair k.2.a k.2.b = q := by
  simp only [View.linked, List.mem_map, List.mem_filter, and_assoc]

theorem pair_ordered (a b : String) : pair (ordered a b).1 (ordered a b).2 = pair a b := by
  rw [pair_eq_iff, ordered]
  split
  · exact .inr ⟨rfl, rfl⟩
  · exact .inl ⟨rfl, rfl⟩

theorem mem_linked_join (hnew : get? view.links (linkId a b kind) = none) {p : Link → Bool}
    {q : String × String} : q ∈ (view.join org a b kind).linked p ↔
      q ∈ view.linked p ∨ (p (newLink org a b kind "") = true ∧ q = pair a b) := by
  have hkey : linkId a b kind ∉ keys view.links := by
    rw [mem_keys, hnew]
    exact fun ⟨_, h⟩ => nomatch h
  have hends : pair (newLink org a b kind "").a (newLink org a b kind "").b = pair a b :=
    pair_ordered a b
  simp only [mem_linked, View.join, set_of_not_mem hkey, List.mem_append, List.mem_singleton,
    or_and_right, exists_or, exists_eq_left, hends, @eq_comm _ (pair a b) q]

theorem get?_linkId (hlinked : Linked view.locations view.links)
    (hslug : ∀ k l, get? view.locations k = some l → Slug k) (ha : a ∈ keys view.locations)
    (hb : b ∈ keys view.locations)
    (hpair : pair a b ∉ view.linked fun k => k.kind = kind) :
    get? view.links (linkId a b kind) = none := by
  cases hl : get? view.links (linkId a b kind) with
  | none => rfl
  | some k =>
    obtain ⟨u, hu, -⟩ := hlinked.first _ k hl
    obtain ⟨v, hv, -⟩ := hlinked.second _ k hl
    obtain ⟨la, hla⟩ := mem_keys.mp ha
    obtain ⟨lb, hlb⟩ := mem_keys.mp hb
    obtain ⟨hends, hkind⟩ := linkId_injective (hslug a la hla) (hslug b lb hlb) (hslug k.a u hu)
      (hslug k.b v hv) (hlinked.key _ k hl)
    refine absurd (mem_linked.mpr ⟨_, mem_of_get? hl, ?_, ?_⟩) hpair
    · exact decide_eq_true hkind.symm
    · exact hends.symm

theorem mem_adjacent : b ∈ view.adjacent a ↔ pair a b ∈ view.linked fun _ => true := by
  rw [View.adjacent, List.mem_flatMap, mem_linked]
  refine exists_congr fun k => and_congr_right fun _ => ?_
  rw [List.mem_append, pair_eq_iff, and_iff_right rfl]
  have hif : ∀ (c : Prop) [Decidable c] (x : String), (b ∈ if c then [x] else []) ↔ c ∧ x = b := by
    intro c _ x
    by_cases hc : c
    · rw [if_pos hc, List.mem_singleton, eq_comm]
      exact (and_iff_right hc).symm
    · rw [if_neg hc]
      exact ⟨fun h => absurd h List.not_mem_nil, fun h => absurd h.1 hc⟩
  rw [hif, hif, @and_comm (k.2.b = a)]

variable {x : String}

theorem mem_hubs : x ∈ view.hubs ↔ ∃ e ∈ view.locations, e.2.role ∈ hubRoles ∧ e.1 = x := by
  simp only [View.hubs, List.mem_map, List.mem_filter, mem_sortedItems, decide_eq_true_eq,
    and_assoc]

theorem hub_mem_hubs {hub : String} (h : view.hub = some hub) : hub ∈ view.hubs := by
  rw [View.hub, Option.or_eq_some_iff] at h
  rcases h with h | ⟨-, h⟩
  · obtain ⟨e, he, rfl⟩ := Option.map_eq_some_iff.mp h
    have hfound := List.find?_some he
    have hrole : e.2.role = "hq" := of_decide_eq_true hfound
    refine mem_hubs.mpr ⟨e, mem_sortedItems.mp (List.mem_of_find?_eq_some he), ?_, rfl⟩
    rw [hrole]
    exact List.mem_cons_self ..
  · exact List.mem_of_head? h

theorem mem_reach_iff (hlinked : Linked view.locations view.links) :
    x ∈ view.reach ↔ ∃ hub ∈ view.hubs,
      Relation.ReflTransGen (fun a b => b ∈ view.adjacent a) hub x := by
  have hends : ∀ a, view.adjacent a ⊆ keys view.locations := by
    intro a b hb
    obtain ⟨k, hk, -, hpair⟩ := mem_linked.mp (mem_adjacent.mp hb)
    have hget := hlinked.linkIds.mem_iff.mp hk
    obtain ⟨u, hu, -⟩ := hlinked.first _ _ hget
    obtain ⟨v, hv, -⟩ := hlinked.second _ _ hget
    rcases pair_eq_iff.mp hpair with ⟨-, h⟩ | ⟨h, -⟩
    · exact mem_keys.mpr ⟨v, h ▸ hv⟩
    · exact mem_keys.mpr ⟨u, h ▸ hu⟩
  have hnodup : view.hubs.Nodup := by
    have hkeys : ((sortedItems view.locations).map Prod.fst).Nodup :=
      (keys_sortedItems hlinked.locationIds).imp ne_of_lt
    exact hkeys.sublist (List.filter_sublist.map Prod.fst)
  have hsub : view.hubs ⊆ keys view.locations := by
    intro hub hhub
    obtain ⟨e, he, -, rfl⟩ := mem_hubs.mp hhub
    exact List.mem_map_of_mem he
  exact Worklist.mem_flood_iff (fun a _ => hends a) hnodup hsub
    (by rw [keys, List.length_map])

theorem not_linked_hub (hlinked : Linked view.locations view.links) {hub : String}
    (hhub : hub ∈ view.hubs) (hx : x ∉ view.reach) :
    pair hub x ∉ view.linked fun _ => true := fun h =>
  hx ((mem_reach_iff hlinked).mpr ⟨hub, hhub, .single (mem_adjacent.mpr h)⟩)

theorem mem_reach_join
    (hlinked : Linked view.locations (view.join org a x kind).links) (ha : a ∈ view.hubs)
    (hnew : get? view.links (linkId a x kind) = none) : x ∈ (view.join org a x kind).reach :=
  (mem_reach_iff hlinked).mpr
    ⟨a, ha, .single (mem_adjacent.mpr ((mem_linked_join hnew).mpr (.inr ⟨rfl, rfl⟩)))⟩

end Join

end SentinelNet.Blueprint
