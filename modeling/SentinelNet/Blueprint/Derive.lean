import SentinelNet.Blueprint.Proposals
import SentinelNet.Lib.DictLoops

/-!
# Operations from the configurations

`services/blueprint_derive.py` reads a draft out of the backups of an organization's devices.  One
pass makes subnets of the interfaces, one makes gateways of the devices with a default route, and
one makes links of the tunnels; they share the networks that are taken, the holders of the addresses
and the links that are proposed.

* `subnetsOf`, `gatewaysOf`, `tunnelsOf`: the three passes.
* `applyFrom_derived`: what becomes of the tables.
* `derive_safe`: which drafts are accepted, and that they are safe.
-/

namespace SentinelNet.Blueprint

open Observability PyDict PyText IpNetwork Outcomes
open Inventory (Host)

/-! ## What was analyzed -/

/-- `ipaddress`, with what it makes of the address of an interface. -/
structure Interfaces extends Addresses where
  /-- `ip_interface(text)`, its address and its network; `none` is `ValueError`. -/
  readInterface : String → Option (Address × Network)
  interface_version : ∀ s a n, readInterface s = some (a, n) → n.version = a.version
  interface_network : ∀ s a n, readInterface s = some (a, n) →
    readNetwork (networkText n) = some n

/-- Interfaces of the version 4: the text of a network whose address is kept. -/
def ipv4Interfaces : Interfaces where
  toAddresses := ipv4Addresses
  readInterface s :=
    (Ipv4.networkOfChars s.toList).bind fun net =>
      (Ipv4.ofChars (s.toList.takeWhile fun c => c ≠ '/')).map fun a =>
        (⟨.v4, a.toNat⟩, networkOfV4 net)
  interface_version s a n h := by
    obtain ⟨net, -, h⟩ := Option.bind_eq_some_iff.mp h
    obtain ⟨b, -, hpair⟩ := Option.map_eq_some_iff.mp h
    rw [← (Prod.mk.inj hpair).1, ← (Prod.mk.inj hpair).2]
    rfl
  interface_network s a n h := by
    obtain ⟨net, hnet, h⟩ := Option.bind_eq_some_iff.mp h
    obtain ⟨b, -, hpair⟩ := Option.map_eq_some_iff.mp h
    refine ipv4Addresses.readNetwork_text s n ?_
    rw [← (Prod.mk.inj hpair).2]
    exact congrArg (Option.map networkOfV4) hnet

/-- An interface of an analysis. -/
structure Iface where
  name : String
  ip : String
  status : String
  shutdown : Bool

/-- A static route of an analysis; the texts are empty where there is no value. -/
structure StaticRoute where
  network : String
  vrf : String

structure Peer where
  name : String
  remoteGw : String

/-- What the analysis of a configuration says; one that could not be read has no interfaces. -/
structure Analysis where
  interfaces : Option (List Iface)
  static : List StaticRoute
  peers : List Peer

def loopbackNet : Network := ⟨.v4, 127 * 2 ^ 24, 8⟩

inductive DerivedOp where
  | addSubnet (id subnet : String)
  | setGateway (id ip : String)
  | addLink (a b note : String)
  deriving DecidableEq

/-- An operation as `apply_ops` reads it. -/
def DerivedOp.json : DerivedOp → Json
  | .addSubnet id subnet => addSubnetOp id subnet
  | .setGateway id ip => setGatewayOp id ip
  | .addLink a b note =>
    .obj [("op", .str "add_link"), ("a", .str a), ("b", .str b), ("kind", .str "vpn"),
      ("note", .str note)]

/-- The id of the link that an operation adds. -/
def DerivedOp.link? : DerivedOp → Option String
  | .addLink a b _ => some (linkId a b "vpn")
  | _ => none

/-! ## The devices in their places -/

/-- Devices by location and address. -/
def placeLe (d e : Host) : Prop := d.location < e.location ∨ d.location = e.location ∧ d.ip ≤ e.ip

instance : DecidableRel placeLe := fun d e =>
  inferInstanceAs (Decidable (d.location < e.location ∨ d.location = e.location ∧ d.ip ≤ e.ip))

def byPlace (devices : List Host) : List Host := devices.insertionSort placeLe

/-- A device of the view with its analysis. -/
structure PlacedDevice where
  lid : String
  ip : String
  analysis : Analysis

/-- What the loop over the devices leaves behind. -/
structure Scan where
  noLocation : ℕ
  noBackup : ℕ
  unreadable : ℕ
  placed : List PlacedDevice
  /-- The location of the device that holds an address. -/
  owner : Dict String

section Derive

variable (ifs : Interfaces) (view : View)

def Interfaces.addresses (a : Analysis) : List (Iface × Address × Network) :=
  (a.interfaces.getD []).filterMap fun i =>
    match ifs.readInterface i.ip with
    | none => none
    | some x => if x.1.version = .v4 then some (i, x) else none

def isLan (i : Iface) (ip : Address) (net : Network) : Bool :=
  !(decide (31 ≤ net.prefixlen) || loopbackNet.has ip ||
    startsWith (lowerText i.name) "loopback" || i.shutdown || decide (i.status = "down") ||
    !lanNets.any net.subnetOf)

/-- `taken`, before the passes; `none` is the `ValueError` of a subnet. -/
def Interfaces.taken : Option (List Network) :=
  ((view.locations.flatMap fun e => e.2.subnets).mapM ifs.readNetwork).map
    (List.filter fun n => n.version = .v4)

/-- The addresses by which the devices are managed come first. -/
def managed (devices : List Host) : Dict String :=
  fill [] ((devices.filter fun d => has view.locations d.location).map fun d => (d.ip, d.location))

/-- One turn of the loop over the devices. -/
def Interfaces.scanDevice (analyses : Dict Analysis) (s : Scan) (d : Host) : Scan :=
  if has view.locations d.location = false then { s with noLocation := s.noLocation + 1 }
  else
    match get? analyses d.ip with
    | none => { s with noBackup := s.noBackup + 1 }
    | some a =>
      if a.interfaces.isNone then { s with unreadable := s.unreadable + 1 }
      else
        { s with
          placed := s.placed ++ [⟨d.location, d.ip, a⟩]
          owner := fill s.owner
            ((ifs.addresses a).map fun x => (ifs.addressText x.2.1, d.location)) }

/-- The loop over the devices. -/
def Interfaces.scan (devices : List Host) (analyses : Dict Analysis) : Scan :=
  devices.foldl (ifs.scanDevice view analyses) ⟨0, 0, 0, [], managed view devices⟩

/-! ## The three passes -/

/-- One turn of the loop over the interfaces: the networks that are taken, and those that become
subnets of locations. -/
def subnetTurn (s : List Network × List (String × Network))
    (x : String × Iface × Address × Network) : List Network × List (String × Network) :=
  if isLan x.2.1 x.2.2.1 x.2.2.2 = false ∨ s.1.any x.2.2.2.overlaps = true then s
  else (s.1 ++ [x.2.2.2], s.2 ++ [(x.1, x.2.2.2)])

def Interfaces.subnetsOf (taken : List Network) (placed : List PlacedDevice) :
    List (String × Network) :=
  ((placed.flatMap fun p => (ifs.addresses p.analysis).map fun x => (p.lid, x)).foldl subnetTurn
    (taken, [])).2

/-- Whether a device has a default route outside of every VRF. -/
def hasDefault (p : PlacedDevice) : Bool :=
  p.analysis.static.any fun r => decide (r.network = "0.0.0.0/0" ∧ r.vrf = "")

/-- `defaults`: the devices with a default route, by location. -/
def defaultsOf (placed : List PlacedDevice) : Dict (List String) :=
  gather PlacedDevice.lid (fun p ips => ips.getD [] ++ [p.ip]) [] (placed.filter hasDefault)

/-- The gateway of a location without one, when one device has a default route. -/
def gatewayOf (e : String × List String) : Option DerivedOp :=
  if (view.at e.1).gateway ≠ "" then none
  else
    match e.2 with
    | [ip] => some (.setGateway e.1 ip)
    | _ => none

/-- The note on a location without a gateway, when more devices have a default route. -/
def crowdedNote (e : String × List String) : Option String :=
  if (view.at e.1).gateway ≠ "" ∨ e.2.length = 1 then none
  else
    some ((view.at e.1).name ++ ": " ++ str e.2.length ++ " apparati con rotta di default, " ++
      "gateway da scegliere a mano.")

/-- `proposed`, the links, and the peers that are no devices. -/
structure Tunnels where
  proposed : List String
  ops : List DerivedOp
  unknown : ℕ

def peerTurn (owner : Dict String) (s : Tunnels) (x : String × Peer) : Tunnels :=
  if x.2.remoteGw = "" then s
  else
    match get? owner x.2.remoteGw with
    | none => { s with unknown := s.unknown + 1 }
    | some other =>
      if other = x.1 ∨ has view.links (linkId x.1 other "vpn") = true ∨
          linkId x.1 other "vpn" ∈ s.proposed then s
      else
        { s with
          proposed := linkId x.1 other "vpn" :: s.proposed
          ops := s.ops ++ [.addLink x.1 other (String.ofList (x.2.name.toList.take 64))] }

/-- The loop over the peers. -/
def tunnelsOf (owner : Dict String) (placed : List PlacedDevice) : Tunnels :=
  (placed.flatMap fun p => p.analysis.peers.map fun x => (p.lid, x)).foldl (peerTurn view owner)
    ⟨[], [], 0⟩

/-- What `derive` returns. -/
structure Derived where
  ops : List DerivedOp
  notes : List String
  deriving DecidableEq

/-- The notes: those with a count are there when it is not zero. -/
def notesOf (s : Scan) (crowded : List String) (unknown : ℕ) : List String :=
  (if s.noLocation = 0 then [] else [str s.noLocation ++ " apparati senza sede: ignorati."]) ++
    (if s.noBackup = 0 then []
      else [str s.noBackup ++ " apparati senza backup della configurazione."]) ++
    (if s.unreadable = 0 then [] else [str s.unreadable ++ " backup non leggibili."]) ++ crowded ++
    if unknown = 0 then []
      else [str unknown ++
        " peer IPsec verso indirizzi che non sono apparati di questa organizzazione."]

/-- `derive`; `none` is the `ValueError` of a subnet of the view. -/
def Interfaces.derive (devices : List Host) (analyses : Dict Analysis) : Option Derived :=
  (ifs.taken view).map fun taken =>
    let s := ifs.scan view (byPlace devices) analyses
    let tunnels := tunnelsOf view s.owner s.placed
    let defaults := sortedItems (defaultsOf s.placed)
    { ops := (ifs.subnetsOf taken s.placed).map (fun g => .addSubnet g.1 (ifs.networkText g.2)) ++
        defaults.filterMap (gatewayOf view) ++ tunnels.ops
      notes := notesOf s (defaults.filterMap (crowdedNote view)) tunnels.unknown }

end Derive

/-! ## The order of the inventory -/

section Order

variable {devices devices' : List Host}

instance : Std.Total placeLe where
  total d e := by
    rcases lt_trichotomy d.location e.location with h | h | h
    · exact .inl (.inl h)
    · exact (le_total d.ip e.ip).imp (fun hle => .inr ⟨h, hle⟩) fun hle => .inr ⟨h.symm, hle⟩
    · exact .inr (.inl h)

instance : IsTrans Host placeLe where
  trans d e f hde hef := by
    rcases hde with hde | ⟨hde, hip⟩
    · rcases hef with hef | ⟨hef, -⟩
      · exact .inl (hde.trans hef)
      · exact .inl (hef ▸ hde)
    · rcases hef with hef | ⟨hef, hip'⟩
      · exact .inl (hde ▸ hef)
      · exact .inr ⟨hde.trans hef, hip.trans hip'⟩

theorem mem_byPlace {d : Host} : d ∈ byPlace devices ↔ d ∈ devices := List.mem_insertionSort _

theorem byPlace_perm (hips : (devices.map Host.ip).Nodup) (h : devices.Perm devices') :
    byPlace devices' = byPlace devices := by
  have hperm : (byPlace devices').Perm (byPlace devices) :=
    (List.perm_insertionSort _ devices').trans
      (h.symm.trans (List.perm_insertionSort _ devices).symm)
  refine hperm.eq_of_pairwise (fun d e hd he hde hed => ?_) (List.pairwise_insertionSort _ _)
    (List.pairwise_insertionSort _ _)
  have hip : d.ip = e.ip := by
    rcases hde with hde | ⟨hlocation, hde⟩
    · rcases hed with hed | ⟨hlocation, -⟩
      · exact absurd hde (lt_asymm hed)
      · exact absurd hlocation.symm hde.ne
    · rcases hed with hed | ⟨-, hed⟩
      · exact absurd hlocation.symm hed.ne
      · exact le_antisymm hde hed
  exact List.inj_on_of_nodup_map hips (mem_byPlace.mp (hperm.mem_iff.mp hd)) (mem_byPlace.mp he) hip

end Order

/-! ## What the passes preserve -/

section Passes

variable {ifs : Interfaces} {view : View} {devices : List Host} {analyses : Dict Analysis}

theorem has_iff_mem_keys {α : Type} {d : Dict α} {k : String} : has d k = true ↔ k ∈ keys d := by
  rw [has, Option.isSome_iff_exists, mem_keys]

/-- The devices that are placed are those of the inventory, and addresses belong to locations of the
view. -/
structure Scan.Sound (view : View) (devices : List Host) (s : Scan) : Prop where
  placed : ∀ p ∈ s.placed, p.lid ∈ keys view.locations ∧
    ∃ d ∈ devices, d.location = p.lid ∧ d.ip = p.ip
  owner : ∀ e ∈ s.owner, e.2 ∈ keys view.locations

theorem mem_fill {α : Type} {d : Dict α} {l : List (String × α)} {e : String × α}
    (h : e ∈ fill d l) : e ∈ d ∨ e ∈ l := by
  obtain ⟨added, hfill, hadded⟩ := exists_fill d l
  rw [hfill, List.mem_append] at h
  exact h.imp_right (hadded e)

theorem Scan.Sound.scanDevice {s : Scan} (h : s.Sound view devices) {d : Host} (hd : d ∈ devices) :
    (ifs.scanDevice view analyses s d).Sound view devices := by
  unfold Interfaces.scanDevice
  split
  · exact ⟨h.placed, h.owner⟩
  · next hhas =>
    have hlid : d.location ∈ keys view.locations :=
      has_iff_mem_keys.mp (by simpa using hhas)
    cases get? analyses d.ip with
    | none => exact ⟨h.placed, h.owner⟩
    | some a =>
      dsimp only
      split
      · exact ⟨h.placed, h.owner⟩
      · refine ⟨fun p hp => ?_, fun e he => ?_⟩
        · rcases List.mem_append.mp hp with hp | hp
          · exact h.placed p hp
          · obtain rfl := List.mem_singleton.mp hp
            exact ⟨hlid, d, hd, rfl, rfl⟩
        · rcases mem_fill he with he | he
          · exact h.owner e he
          · obtain ⟨x, -, rfl⟩ := List.mem_map.mp he
            exact hlid

theorem scan_sound : (ifs.scan view (byPlace devices) analyses).Sound view devices := by
  refine List.foldlRecOn _ _ ⟨fun p hp => (nomatch hp), fun e he => ?_⟩
    fun s hs d hd => hs.scanDevice (mem_byPlace.mp hd)
  rcases mem_fill he with he | he
  · cases he
  · obtain ⟨d, hd, rfl⟩ := List.mem_map.mp he
    have hhas := (List.mem_filter.mp hd).2
    exact has_iff_mem_keys.mp hhas

/-- The networks that become subnets overlap neither each other nor those that were taken before. -/
structure Free (taken : List Network) (P : String × Network → Prop)
    (s : List Network × List (String × Network)) : Prop where
  all : s.1 = taken ++ s.2.map Prod.snd
  origin : ∀ g ∈ s.2, P g
  before : ∀ g ∈ s.2, ∀ n ∈ taken, g.2.overlaps n = false
  apart : s.2.Pairwise fun g g' => g.2.overlaps g'.2 = false

theorem Free.subnetTurn {taken : List Network} {P : String × Network → Prop}
    {s : List Network × List (String × Network)} (h : Free taken P s)
    {x : String × Iface × Address × Network} (hx : P (x.1, x.2.2.2)) :
    Free taken P (subnetTurn s x) := by
  unfold Blueprint.subnetTurn
  split
  · exact h
  · next hturn =>
    have hfree : ∀ n ∈ s.1, x.2.2.2.overlaps n = false := by
      simpa using (not_or.mp hturn).2
    rw [h.all] at hfree
    refine ⟨?_, fun g hg => ?_, fun g hg n hn => ?_, ?_⟩
    · rw [h.all, List.map_append, List.append_assoc]
      rfl
    · rcases List.mem_append.mp hg with hg | hg
      · exact h.origin g hg
      · rw [List.mem_singleton.mp hg]
        exact hx
    · rcases List.mem_append.mp hg with hg | hg
      · exact h.before g hg n hn
      · rw [List.mem_singleton.mp hg]
        exact hfree n (List.mem_append_left _ hn)
    · refine List.pairwise_append.mpr ⟨h.apart, List.pairwise_singleton _ _, fun g hg g' hg' => ?_⟩
      rw [List.mem_singleton.mp hg', overlaps_comm]
      exact hfree g.2 (List.mem_append_right _ (List.mem_map_of_mem hg))

def Interfaces.Offered (ifs : Interfaces) (placed : List PlacedDevice) (g : String × Network) :
    Prop :=
  (∃ p ∈ placed, p.lid = g.1) ∧ g.2.version = .v4 ∧
    ifs.readNetwork (ifs.networkText g.2) = some g.2

theorem mem_addresses {a : Analysis} {x : Iface × Address × Network} (h : x ∈ ifs.addresses a) :
    x.2.2.version = .v4 ∧ ifs.readNetwork (ifs.networkText x.2.2) = some x.2.2 := by
  obtain ⟨i, -, hi⟩ := List.mem_filterMap.mp h
  cases hread : ifs.readInterface i.ip with
  | none =>
    rw [hread] at hi
    cases hi
  | some y =>
    rw [hread] at hi
    obtain ⟨hversion, hx⟩ := Option.ite_none_right_eq_some.mp hi
    obtain rfl := Option.some.inj hx
    exact ⟨(ifs.interface_version i.ip y.1 y.2 hread).trans hversion,
      ifs.interface_network i.ip y.1 y.2 hread⟩

theorem subnetsOf_free (taken : List Network) (placed : List PlacedDevice) :
    ∃ all, Free taken (ifs.Offered placed) (all, ifs.subnetsOf taken placed) := by
  refine ⟨_, List.foldlRecOn _ _ ?_ fun s hs x hx => hs.subnetTurn ?_⟩
  · exact ⟨(List.append_nil taken).symm, fun g hg => (nomatch hg), fun g hg => (nomatch hg),
      List.Pairwise.nil⟩
  · obtain ⟨p, hp, hx⟩ := List.mem_flatMap.mp hx
    obtain ⟨y, hy, rfl⟩ := List.mem_map.mp hx
    exact ⟨⟨p, hp, rfl⟩, mem_addresses hy⟩

variable {placed : List PlacedDevice}

theorem defaults_step {d : Dict (List String)}
    (hd : ∀ e ∈ d, ∀ ip ∈ e.2, ∃ p ∈ placed, p.lid = e.1 ∧ p.ip = ip) {p : PlacedDevice}
    (hp : p ∈ placed) {e : String × List String}
    (he : e ∈ set d p.lid ((get? d p.lid).getD [] ++ [p.ip])) {ip : String} (hip : ip ∈ e.2) :
    ∃ p ∈ placed, p.lid = e.1 ∧ p.ip = ip := by
  rcases mem_set he with rfl | he
  · rcases List.mem_append.mp hip with hip | hip
    · cases hget : get? d p.lid with
      | none =>
        rw [hget] at hip
        cases hip
      | some ips =>
        rw [hget] at hip
        exact hd (p.lid, ips) (mem_of_get? hget) ip hip
    · exact ⟨p, hp, rfl, (List.mem_singleton.mp hip).symm⟩
  · exact hd e he ip hip

theorem mem_defaultsOf {e : String × List String}
    (he : e ∈ defaultsOf placed) {ip : String} (hip : ip ∈ e.2) :
    ∃ p ∈ placed, p.lid = e.1 ∧ p.ip = ip := by
  have hall : ∀ e ∈ defaultsOf placed, ∀ ip ∈ e.2, ∃ p ∈ placed, p.lid = e.1 ∧ p.ip = ip := by
    refine @List.foldlRecOn _ _ (fun d : Dict (List String) =>
      ∀ e ∈ d, ∀ ip ∈ e.2, ∃ p ∈ placed, p.lid = e.1 ∧ p.ip = ip) _ _ _ (fun e he => ?_)
      fun d hd p hp e he ip hip => ?_
    · cases he
    · exact defaults_step hd (List.mem_filter.mp hp).1 he hip
  exact hall e he ip hip

/-- The links that are proposed are new, join different locations of the view, and are different. -/
structure Tunnels.Sound (view : View) (s : Tunnels) : Prop where
  link : ∀ op ∈ s.ops, ∃ a b note, op = .addLink a b note ∧ a ∈ keys view.locations ∧
    b ∈ keys view.locations ∧ a ≠ b ∧ has view.links (linkId a b "vpn") = false
  proposed : ∀ k ∈ s.ops.filterMap DerivedOp.link?, k ∈ s.proposed
  nodup : (s.ops.filterMap DerivedOp.link?).Nodup

theorem Tunnels.Sound.peerTurn {owner : Dict String} {s : Tunnels} (h : s.Sound view)
    (howner : ∀ e ∈ owner, e.2 ∈ keys view.locations) {x : String × Peer}
    (hx : x.1 ∈ keys view.locations) : (peerTurn view owner s x).Sound view := by
  unfold Blueprint.peerTurn
  split
  · exact h
  · cases hother : get? owner x.2.remoteGw with
    | none => exact ⟨h.link, h.proposed, h.nodup⟩
    | some other =>
      dsimp only
      split
      · exact h
      · next hturn =>
        obtain ⟨hne, hnew, hfirst⟩ : other ≠ x.1 ∧
            ¬ has view.links (linkId x.1 other "vpn") = true ∧
              linkId x.1 other "vpn" ∉ s.proposed := by
          simpa only [not_or] using hturn
        refine ⟨fun op hop => ?_, fun k hk => ?_, ?_⟩
        · rcases List.mem_append.mp hop with hop | hop
          · exact h.link op hop
          · exact ⟨x.1, other, _, List.mem_singleton.mp hop, hx, howner _ (mem_of_get? hother),
              hne.symm, Bool.eq_false_iff.mpr hnew⟩
        · rw [List.filterMap_append] at hk
          rcases List.mem_append.mp hk with hk | hk
          · exact List.mem_cons_of_mem _ (h.proposed k hk)
          · rw [List.mem_singleton.mp hk]
            exact List.mem_cons_self ..
        · rw [List.filterMap_append]
          refine List.nodup_append.mpr ⟨h.nodup, List.nodup_singleton _, fun k hk k' hk' heq => ?_⟩
          rw [List.mem_singleton.mp hk'] at heq
          exact hfirst (heq ▸ h.proposed k hk)

theorem tunnelsOf_sound {owner : Dict String} (howner : ∀ e ∈ owner, e.2 ∈ keys view.locations)
    (hplaced : ∀ p ∈ placed, p.lid ∈ keys view.locations) :
    (tunnelsOf view owner placed).Sound view := by
  refine List.foldlRecOn _ _ ⟨fun op hop => (nomatch hop), fun k hk => (nomatch hk),
    List.nodup_nil⟩ fun s hs x hx => hs.peerTurn howner ?_
  obtain ⟨p, hp, hx⟩ := List.mem_flatMap.mp hx
  obtain ⟨y, -, rfl⟩ := List.mem_map.mp hx
  exact hplaced p hp

end Passes

/-! ## What becomes of the tables -/

section Tables

variable {lib : Library} {probes : Probes} {org : String} {locations : Dict Location}
  {links : Dict Link}

/-- An operation on locations of the view: a subnet as a network writes itself, a gateway where
there is none, a new link. -/
def DerivedOp.Fits (lib : Library) (view : View) : DerivedOp → Prop
  | .addSubnet id subnet => id ∈ keys view.locations ∧ lib.network subnet = some subnet
  | .setGateway id _ => id ∈ keys view.locations ∧ (view.at id).gateway = ""
  | .addLink a b _ => a ∈ keys view.locations ∧ b ∈ keys view.locations ∧ a ≠ b ∧
    has view.links (linkId a b "vpn") = false

/-- A gateway that is empty or an address without its white space. -/
def DerivedOp.Reads (lib : Library) : DerivedOp → Prop
  | .setGateway _ ip => strip ip = "" ∨ lib.address (strip ip) = true
  | _ => True

/-- A location after some operations. -/
structure Location.After (lib : Library) (lid : String) (done : List DerivedOp) (l l' : Location) :
    Prop where
  org : l'.org = l.org
  normal : Normal lib l'.subnets
  subnets : ∀ s, s ∈ l'.subnets ↔ s ∈ l.subnets ∨ .addSubnet lid s ∈ done
  gateway : l'.gateway = l.gateway ∨
    ∃ ip, .setGateway lid ip ∈ done ∧ l'.gateway = strip ip

/-- The tables after some operations. -/
structure Advanced (lib : Library) (org : String) (locations : Dict Location) (links : Dict Link)
    (done : List DerivedOp) (w : Work) : Prop where
  refs : w.refs = []
  unique : PyDict.Unique w.locations
  there : ∀ lid l, get? locations lid = some l → l.org = org →
    ∃ l', get? w.locations lid = some l' ∧ l.After lib lid done l'
  back : ∀ lid l', get? w.locations lid = some l' → l'.org = org →
    ∃ l, get? locations lid = some l ∧ l.org = org
  link : ∀ k, has w.links k = true → has links k = true ∨ k ∈ done.filterMap DerivedOp.link?

variable {done : List DerivedOp} {op : DerivedOp}

theorem Location.After.more {lid : String} {l l' : Location}
    (h : l.After lib lid done l') (hop : ∀ s, op ≠ .addSubnet lid s) :
    l.After lib lid (done ++ [op]) l' := by
  refine ⟨h.org, h.normal, fun s => ?_, ?_⟩
  · rw [h.subnets, List.mem_append, List.mem_singleton, or_iff_left (hop s).symm]
  · exact h.gateway.imp_right fun ⟨ip, hip, hl⟩ => ⟨ip, List.mem_append_left _ hip, hl⟩

variable {w : Work}

theorem Advanced.put (h : Advanced lib org locations links done w) (hlink : op.link? = none)
    {lid : String} {l l₀ l' : Location}
    (hother : ∀ lid', lid' ≠ lid → ∀ s, op ≠ .addSubnet lid' s)
    (hl₀ : get? locations lid = some l₀) (hl : get? w.locations lid = some l)
    (hafter : l₀.After lib lid (done ++ [op]) l') (horg : l'.org = l.org) :
    Advanced lib org locations links (done ++ [op])
      { w with locations := set w.locations lid l' } := by
  refine ⟨h.refs, h.unique.set _ _, fun k v hv hvorg => ?_, fun k v hv hvorg => ?_,
    fun k hk => ?_⟩
  · rw [get?_set]
    split
    · next hkey =>
      rw [hkey, hl₀] at hv
      obtain rfl := Option.some.inj hv
      exact ⟨l', rfl, hkey ▸ hafter⟩
    · next hkey =>
      obtain ⟨v', hv', hv'after⟩ := h.there k v hv hvorg
      exact ⟨v', hv', hv'after.more (hother k hkey)⟩
  · rw [get?_set] at hv
    split at hv
    · next hkey =>
      obtain rfl := Option.some.inj hv
      exact hkey ▸ h.back lid l hl (horg.symm.trans hvorg)
    · exact h.back k v hv hvorg
  · rw [List.filterMap_append]
    exact (h.link k hk).imp_right fun hmem => List.mem_append_left _ hmem

theorem applyOp_derivedLink {i : ℕ} {a b note : String} (ha : w.Own org a)
    (hb : w.Own org b) (hrefs : w.refs = []) (hab : a ≠ b)
    (hnew : ¬ has w.links (linkId a b "vpn") = true) :
    applyOp lib probes org w i (DerivedOp.addLink a b note).json =
      .ok { w with links := set w.links (linkId a b "vpn") (newLink org a b "vpn" note) } :=
  applyOp_linkOp (locId_own ha (by rw [hrefs]; rfl)) (locId_own hb (by rw [hrefs]; rfl)) hab
    (by decide) (Option.not_isSome_iff_eq_none.mp hnew)

theorem reads_of_applyOp {w' : Work} {i : ℕ}
    (h : applyOp lib probes org w i op.json = .ok w') : op.Reads lib := by
  cases op with
  | addSubnet lid s => exact True.intro
  | addLink a b note => exact True.intro
  | setGateway lid ip =>
    have hstripped : lib.stripped (.str ip) = strip ip := by
      rw [Library.stripped, orElse_str_empty]
      rfl
    change changeLocation lib probes org "set_gateway" w i _ = _ at h
    unfold changeLocation at h
    obtain ⟨lid', -, h⟩ := bind_ok h
    obtain ⟨fields, hfields, h⟩ := bind_ok h
    obtain ⟨l, -, h⟩ := bind_ok h
    obtain ⟨clean, hclean, -⟩ := bind_ok h
    obtain rfl : [("gateway", Json.str ip)] = fields := Except.ok.inj hfields
    rw [Library.cleanFields, cleanField_gateway, Library.cleanGateway, hstripped] at hclean
    by_contra hreads
    have hrefused : ¬ (strip ip = "" ∨ lib.address (strip ip) = true) := hreads
    rw [if_neg hrefused] at hclean
    cases hclean

theorem not_has_links (h : Recorded lib locations links) {a b : String}
    (ha : a ∈ keys (orgView locations links org).locations)
    (hb : b ∈ keys (orgView locations links org).locations)
    (hnew : has (orgView locations links org).links (linkId a b "vpn") = false) :
    ¬ has links (linkId a b "vpn") = true := by
  intro hhas
  obtain ⟨v, hv⟩ := Option.isSome_iff_exists.mp hhas
  obtain ⟨la, hla⟩ := mem_keys.mp ha
  obtain ⟨lb, hlb⟩ := mem_keys.mp hb
  obtain ⟨hla, horga⟩ := (get?_orgView_locations h.linked.locationIds).mp hla
  obtain ⟨hlb, horgb⟩ := (get?_orgView_locations h.linked.locationIds).mp hlb
  obtain ⟨u, hu, huorg⟩ := h.linked.first _ v hv
  obtain ⟨u', hu', -⟩ := h.linked.second _ v hv
  obtain ⟨hends, -⟩ := linkId_injective (h.slug a la hla) (h.slug b lb hlb) (h.slug v.a u hu)
    (h.slug v.b u' hu') (h.linked.key _ v hv)
  have hva : v.a = a ∨ v.a = b := by
    have hfirst : (ordered a b).1 = v.a := by
      rw [hends, ordered_of_lt (h.linked.order _ v hv)]
    rw [← hfirst, ordered]
    split
    · exact .inr rfl
    · exact .inl rfl
  have hvorg : v.org = org := by
    rcases hva with hva | hva
    · rw [hva, hla] at hu
      rw [← huorg, ← Option.some.inj hu, horga]
    · rw [hva, hlb] at hu
      rw [← huorg, ← Option.some.inj hu, horgb]
  have hview : get? (orgView locations links org).links (linkId a b "vpn") = some v :=
    (get?_orgView_links h.linked.linkIds).mpr ⟨hv, hvorg⟩
  rw [has, hview] at hnew
  cases hnew

theorem Advanced.step (h : Recorded lib locations links)
    (hw : Advanced lib org locations links done w)
    (hfits : op.Fits lib (orgView locations links org)) (hreads : op.Reads lib)
    (hfirst : ∀ k, op.link? = some k → k ∉ done.filterMap DerivedOp.link?) (i : ℕ) :
    ∃ w', applyOp lib probes org w i op.json = .ok w' ∧
      Advanced lib org locations links (done ++ [op]) w' := by
  have hfind : ∀ lid ∈ keys (orgView locations links org).locations,
      ∃ l₀ l, get? locations lid = some l₀ ∧ l₀.org = org ∧ get? w.locations lid = some l ∧
        l₀.After lib lid done l ∧ l.org = org := by
    intro lid hlid
    obtain ⟨l₀, hl₀⟩ := mem_keys.mp hlid
    obtain ⟨hl₀, horg⟩ := (get?_orgView_locations h.linked.locationIds).mp hl₀
    obtain ⟨l, hl, hafter⟩ := hw.there lid l₀ hl₀ horg
    exact ⟨l₀, l, hl₀, horg, hl, hafter, hafter.org.trans horg⟩
  cases op with
  | addSubnet lid s =>
    obtain ⟨hlid, hs⟩ := hfits
    obtain ⟨l₀, l, hl₀, -, hl, hafter, horg⟩ := hfind lid hlid
    refine ⟨_, applyOp_addSubnet hl horg hw.refs hafter.normal hs,
      hw.put rfl (fun lid' hne s' heq => hne (DerivedOp.addSubnet.inj heq).1.symm) hl₀ hl ?_ rfl⟩
    refine ⟨hafter.org, ⟨sortedSet_sorted _, fun t ht => ?_⟩, fun t => ?_, ?_⟩
    · rcases List.mem_append.mp (mem_sortedSet.mp ht) with ht | ht
      · exact hafter.normal.networks t ht
      · rw [List.mem_singleton.mp ht]
        exact hs
    · simp only [mem_sortedSet, List.mem_append, List.mem_singleton, hafter.subnets,
        DerivedOp.addSubnet.injEq, true_and, or_assoc]
    · exact hafter.gateway.imp_right fun ⟨ip, hip, hgateway⟩ =>
        ⟨ip, List.mem_append_left _ hip, hgateway⟩
  | setGateway lid ip =>
    obtain ⟨l₀, l, hl₀, -, hl, hafter, horg⟩ := hfind lid hfits.1
    have hop : ∀ lid' s, DerivedOp.setGateway lid ip ≠ .addSubnet lid' s :=
      fun _ _ heq => nomatch heq
    have hmore := hafter.more (hop lid)
    refine ⟨_, (applyOp_setGateway hl horg hw.refs).trans (if_pos hreads),
      hw.put rfl (fun lid' _ => hop lid') hl₀ hl ⟨hmore.org, hmore.normal, hmore.subnets, .inr ?_⟩
        rfl⟩
    exact ⟨ip, List.mem_append_right _ (List.mem_singleton_self _), rfl⟩
  | addLink a b note =>
    obtain ⟨ha, hb, hab, hnew⟩ := hfits
    obtain ⟨-, la, -, -, hla, -, horga⟩ := hfind a ha
    obtain ⟨-, lb, -, -, hlb, -, horgb⟩ := hfind b hb
    have hfree : ¬ has w.links (linkId a b "vpn") = true := fun hhas =>
      (hw.link _ hhas).elim (not_has_links h ha hb hnew) (hfirst _ rfl)
    refine ⟨_, applyOp_derivedLink ⟨la, hla, horga⟩ ⟨lb, hlb, horgb⟩ hw.refs hab hfree, hw.refs,
      hw.unique, fun lid l hl horg => ?_, hw.back, fun k hk => ?_⟩
    · obtain ⟨l', hl', hafter⟩ := hw.there lid l hl horg
      exact ⟨l', hl', hafter.more fun _ heq => nomatch heq⟩
    · rw [List.filterMap_append, List.mem_append]
      rw [has, get?_set] at hk
      split at hk
      · next hkey => exact .inr (.inr (hkey ▸ List.mem_singleton_self _))
      · exact (hw.link k hk).imp_right .inl

/-- A draft of operations that fit, with different links, is accepted exactly when its gateways
read. -/
theorem applyFrom_derived (h : Recorded lib locations links) {ops : List DerivedOp}
    (hfits : ∀ op ∈ ops, op.Fits lib (orgView locations links org))
    (hnodup : (ops.filterMap DerivedOp.link?).Nodup) (hreads : ∀ op ∈ ops, op.Reads lib) :
    ∃ w, applyFrom lib probes org 0 ⟨locations, links, []⟩ (ops.map DerivedOp.json) = .ok w ∧
      Advanced lib org locations links ops w := by
  refine applyFrom_loop (fun done op rest w i hops hw => ?_) ?_ 0
  · have hop : op ∈ ops := by
      rw [hops]
      exact List.mem_append_right _ List.mem_cons_self
    refine hw.step h (hfits op hop) (hreads op hop) (fun k hk hmem => ?_) i
    rw [hops, List.filterMap_append, List.filterMap_cons_some hk] at hnodup
    exact List.disjoint_of_nodup_append hnodup hmem List.mem_cons_self
  · refine ⟨rfl, h.linked.locationIds, fun lid l hl _ => ⟨l, hl, rfl, (h.valid lid l hl).subnets,
      fun s => ?_, .inl rfl⟩, fun lid l hl horg => ⟨l, hl, horg⟩, fun k hk => .inl hk⟩
    rw [or_iff_left List.not_mem_nil]

end Tables

/-! ## Derived drafts -/

def View.HasSubnet (view : View) (lid s : String) : Prop :=
  ∃ l, get? view.locations lid = some l ∧ s ∈ l.subnets

/-- Two subnets overlap. -/
def Interfaces.Clash (ifs : Interfaces) (s s' : String) : Prop :=
  ∃ n n', ifs.readNetwork s = some n ∧ ifs.readNetwork s' = some n' ∧ n.version = n'.version ∧
    n.overlaps n' = true

/-- A change of a view after which only subnets overlap that were there before, and a location has
another gateway only if it had none and this is a device of its own. -/
structure SafeChange (ifs : Interfaces) (devices : List Host) (view view' : View) : Prop where
  overlap : ∀ lid s lid' s', view'.HasSubnet lid s → view'.HasSubnet lid' s' →
    (lid, s) ≠ (lid', s') → ifs.Clash s s' → view.HasSubnet lid s ∧ view.HasSubnet lid' s'
  gateway : ∀ lid l', get? view'.locations lid = some l' →
    ∃ l, get? view.locations lid = some l ∧ (l'.gateway = l.gateway ∨
      l.gateway = "" ∧ ∃ d ∈ devices, d.location = lid ∧ l'.gateway = strip d.ip)

/-- Links between different locations that the view does not have, each once. -/
structure NewLinks (view : View) (ops : List DerivedOp) : Prop where
  new : ∀ a b note, .addLink a b note ∈ ops → a ≠ b ∧ has view.links (linkId a b "vpn") = false
  once : (ops.filterMap DerivedOp.link?).Nodup

theorem mapM_some {α β : Type} {f : α → Option β} {xs : List α} (h : ∀ x ∈ xs, (f x).isSome) :
    xs.mapM f = some (xs.filterMap f) := by
  induction xs with
  | nil => rfl
  | cons x xs ih =>
    obtain ⟨y, hy⟩ := Option.isSome_iff_exists.mp (h x List.mem_cons_self)
    rw [List.mapM_cons, hy, ih fun z hz => h z (List.mem_cons_of_mem x hz),
      List.filterMap_cons_some hy]
    rfl

section Derived

variable {ifs : Interfaces} {org : String} {locations : Dict Location} {links : Dict Link}
  {devices : List Host} {analyses : Dict Analysis}

theorem exists_taken (h : Recorded ifs.toLibrary locations links) :
    ∃ taken, ifs.taken (orgView locations links org) = some taken ∧
      ∀ lid s n, (orgView locations links org).HasSubnet lid s → ifs.readNetwork s = some n →
        n.version = .v4 → n ∈ taken := by
  have hread : ∀ s ∈ (orgView locations links org).locations.flatMap fun e => e.2.subnets,
      (ifs.readNetwork s).isSome := by
    intro s hs
    obtain ⟨e, he, hs⟩ := List.mem_flatMap.mp hs
    have hget := (@get?_orgView_locations org _ _ links h.linked.locationIds _).mp
      ((h.linked.locationIds.filter _).get?_of_mem he)
    have hnetwork := (h.valid e.1 e.2 hget.1).subnets.networks s hs
    rw [ifs.network_eq] at hnetwork
    obtain ⟨n, hn, -⟩ := Option.map_eq_some_iff.mp hnetwork
    exact Option.isSome_iff_exists.mpr ⟨n, hn⟩
  refine ⟨_, by rw [Interfaces.taken, mapM_some hread, Option.map_some],
    fun lid s n hsubnet hn hversion => ?_⟩
  obtain ⟨l, hl, hs⟩ := hsubnet
  exact List.mem_filter.mpr ⟨List.mem_filterMap.mpr
    ⟨s, List.mem_flatMap.mpr ⟨(lid, l), mem_of_get? hl, hs⟩, hn⟩, decide_eq_true hversion⟩

/-- What `derive` puts together. -/
structure Composed (ifs : Interfaces) (view : View) (devices : List Host)
    (ops : List DerivedOp) : Prop where
  subnet : ∀ lid s, .addSubnet lid s ∈ ops → lid ∈ keys view.locations ∧
    ∃ n, ifs.networkText n = s ∧ ifs.readNetwork s = some n ∧ n.version = .v4
  /-- A new network does not overlap one that was there. -/
  before : ∀ lid s n lid' s', .addSubnet lid s ∈ ops → ifs.readNetwork s = some n →
    view.HasSubnet lid' s' → ¬ ifs.Clash s s'
  /-- New networks do not overlap each other. -/
  apart : ∀ lid s lid' s', .addSubnet lid s ∈ ops → .addSubnet lid' s' ∈ ops →
    (lid, s) ≠ (lid', s') → ¬ ifs.Clash s s'
  gateway : ∀ lid ip, .setGateway lid ip ∈ ops → lid ∈ keys view.locations ∧
    (view.at lid).gateway = "" ∧ ∃ d ∈ devices, d.location = lid ∧ d.ip = ip
  link : ∀ a b note, .addLink a b note ∈ ops → a ∈ keys view.locations ∧
    b ∈ keys view.locations ∧ a ≠ b ∧ has view.links (linkId a b "vpn") = false
  once : (ops.filterMap DerivedOp.link?).Nodup

theorem mem_subnetOps {given : List (String × Network)} {lid s : String}
    (h : DerivedOp.addSubnet lid s ∈ given.map fun g => .addSubnet g.1 (ifs.networkText g.2)) :
    ∃ g ∈ given, g.1 = lid ∧ ifs.networkText g.2 = s := by
  obtain ⟨g, hg, heq⟩ := List.mem_map.mp h
  exact ⟨g, hg, DerivedOp.addSubnet.inj heq⟩

theorem gatewayOf_eq {view : View} {e : String × List String} {op : DerivedOp}
    (h : gatewayOf view e = some op) :
    ∃ ip, e.2 = [ip] ∧ op = .setGateway e.1 ip ∧ (view.at e.1).gateway = "" := by
  obtain ⟨lid, ips⟩ := e
  unfold gatewayOf at h
  obtain ⟨hempty, h⟩ := Option.ite_none_left_eq_some.mp h
  match ips with
  | [] => cases h
  | [ip] => exact ⟨ip, rfl, (Option.some.inj h).symm, not_not.mp hempty⟩
  | _ :: _ :: _ => cases h

theorem derive_composed (h : Recorded ifs.toLibrary locations links) :
    ∃ d, ifs.derive (orgView locations links org) devices analyses = some d ∧
      Composed ifs (orgView locations links org) devices d.ops := by
  obtain ⟨taken, htaken, hmem⟩ := @exists_taken ifs org _ _ h
  have hscan := @scan_sound ifs (orgView locations links org) devices analyses
  refine ⟨_, by rw [Interfaces.derive, htaken, Option.map_some], ?_⟩
  generalize ifs.scan (orgView locations links org) (byPlace devices) analyses = s at hscan ⊢
  dsimp only
  obtain ⟨all, hfree⟩ := @subnetsOf_free ifs taken s.placed
  have hlinks := tunnelsOf_sound hscan.owner fun p hp => (hscan.placed p hp).1
  have hgateways : ∀ op ∈ (sortedItems (defaultsOf s.placed)).filterMap
      (gatewayOf (orgView locations links org)), ∃ e ∈ defaultsOf s.placed, ∃ ip, e.2 = [ip] ∧
        op = .setGateway e.1 ip ∧ ((orgView locations links org).at e.1).gateway = "" := by
    intro op hop
    obtain ⟨e, he, hop⟩ := List.mem_filterMap.mp hop
    exact ⟨e, mem_sortedItems.mp he, gatewayOf_eq hop⟩
  have hsubnet : ∀ lid s', DerivedOp.addSubnet lid s' ∈
      (ifs.subnetsOf taken s.placed).map (fun g => .addSubnet g.1 (ifs.networkText g.2)) ++
        (sortedItems (defaultsOf s.placed)).filterMap (gatewayOf (orgView locations links org)) ++
          (tunnelsOf (orgView locations links org) s.owner s.placed).ops →
      ∃ g ∈ ifs.subnetsOf taken s.placed, g.1 = lid ∧ ifs.networkText g.2 = s' := by
    intro lid s' hop
    rcases List.mem_append.mp hop with hop | hop
    · rcases List.mem_append.mp hop with hop | hop
      · exact mem_subnetOps hop
      · obtain ⟨e, -, ip, -, heq, -⟩ := hgateways _ hop
        cases heq
    · obtain ⟨a, b, note, heq, -⟩ := hlinks.link _ hop
      cases heq
  refine ⟨fun lid s' hop => ?_, fun lid s' n lid' s'' hop hn hold hclash => ?_,
    fun lid s' lid' s'' hop hop' hne hclash => ?_, fun lid ip hop => ?_,
    fun a b note hop => ?_, ?_⟩
  · obtain ⟨g, hg, rfl, rfl⟩ := hsubnet lid s' hop
    obtain ⟨⟨p, hp, hlid⟩, hversion, hread⟩ := hfree.origin g hg
    exact ⟨hlid ▸ (hscan.placed p hp).1, g.2, rfl, hread, hversion⟩
  · obtain ⟨g, hg, rfl, rfl⟩ := hsubnet lid s' hop
    obtain ⟨-, hversion, hread⟩ := hfree.origin g hg
    obtain ⟨m, m', hm, hm', hsame, hoverlaps⟩ := hclash
    rw [hread] at hm
    obtain rfl := Option.some.inj hm
    have hnone := hfree.before g hg m' (hmem lid' s'' m' hold hm' (hsame.symm.trans hversion))
    rw [hnone] at hoverlaps
    cases hoverlaps
  · obtain ⟨g, hg, rfl, rfl⟩ := hsubnet lid s' hop
    obtain ⟨g', hg', rfl, rfl⟩ := hsubnet lid' s'' hop'
    obtain ⟨m, m', hm, hm', -, hoverlaps⟩ := hclash
    rw [(hfree.origin g hg).2.2] at hm
    rw [(hfree.origin g' hg').2.2] at hm'
    obtain rfl := Option.some.inj hm
    obtain rfl := Option.some.inj hm'
    have hsymm : Std.Symm fun g g' : String × Network => g.2.overlaps g'.2 = false :=
      ⟨fun x y hxy => (overlaps_comm y.2 x.2).trans hxy⟩
    have hapart := hfree.apart.forall hg hg' fun heq => hne (heq ▸ rfl)
    rw [hapart] at hoverlaps
    cases hoverlaps
  · rcases List.mem_append.mp hop with hop | hop
    · rcases List.mem_append.mp hop with hop | hop
      · obtain ⟨g, -, heq⟩ := List.mem_map.mp hop
        cases heq
      · obtain ⟨e, he, ip', hips, heq, hempty⟩ := hgateways _ hop
        obtain ⟨rfl, rfl⟩ := DerivedOp.setGateway.inj heq
        obtain ⟨p, hp, hlid, hip⟩ := mem_defaultsOf he (hips ▸ List.mem_singleton_self ip)
        obtain ⟨hkey, d, hd, hlocation, hdevice⟩ := hscan.placed p hp
        exact ⟨hlid ▸ hkey, hempty, d, hd, hlocation.trans hlid, hdevice.trans hip⟩
    · obtain ⟨a, b, note, heq, -⟩ := hlinks.link _ hop
      cases heq
  · rcases List.mem_append.mp hop with hop | hop
    · rcases List.mem_append.mp hop with hop | hop
      · obtain ⟨g, -, heq⟩ := List.mem_map.mp hop
        cases heq
      · obtain ⟨e, -, ip, -, heq, -⟩ := hgateways _ hop
        cases heq
    · obtain ⟨a', b', note', heq, ha, hb, hab, hnew⟩ := hlinks.link _ hop
      obtain ⟨rfl, rfl, -⟩ := DerivedOp.addLink.inj heq
      exact ⟨ha, hb, hab, hnew⟩
  · have hnone : ((ifs.subnetsOf taken s.placed).map
        (fun g => DerivedOp.addSubnet g.1 (ifs.networkText g.2)) ++
          (sortedItems (defaultsOf s.placed)).filterMap
            (gatewayOf (orgView locations links org))).filterMap DerivedOp.link? = [] := by
      refine List.filterMap_eq_nil_iff.mpr fun op hop => ?_
      rcases List.mem_append.mp hop with hop | hop
      · obtain ⟨g, -, rfl⟩ := List.mem_map.mp hop
        rfl
      · obtain ⟨e, -, ip, -, rfl, -⟩ := hgateways op hop
        rfl
    rw [List.filterMap_append, hnone]
    exact hlinks.nodup

theorem Composed.fits {view : View} {ops : List DerivedOp} (h : Composed ifs view devices ops)
    {op : DerivedOp} (hop : op ∈ ops) : op.Fits ifs.toLibrary view := by
  cases op with
  | addSubnet lid s =>
    obtain ⟨hlid, n, htext, hn, -⟩ := h.subnet lid s hop
    refine ⟨hlid, ?_⟩
    rw [ifs.network_eq, hn, Option.map_some, htext]
  | setGateway lid ip =>
    obtain ⟨hlid, hempty, -⟩ := h.gateway lid ip hop
    exact ⟨hlid, hempty⟩
  | addLink a b note => exact h.link a b note hop

theorem Interfaces.Clash.symm {s s' : String} (h : ifs.Clash s s') : ifs.Clash s' s := by
  obtain ⟨n, n', hn, hn', hversion, hoverlaps⟩ := h
  exact ⟨n', n, hn', hn, hversion.symm, (overlaps_comm n' n).trans hoverlaps⟩

theorem Composed.safe (h : Recorded ifs.toLibrary locations links) {ops : List DerivedOp}
    (hops : Composed ifs (orgView locations links org) devices ops) {w : Work}
    (hw : Advanced ifs.toLibrary org locations links ops w) :
    SafeChange ifs devices (orgView locations links org)
      (orgView w.locations w.links org) := by
  have hback : ∀ lid l', get? (orgView w.locations w.links org).locations lid = some l' →
      ∃ l, get? (orgView locations links org).locations lid = some l ∧
        l.After ifs.toLibrary lid ops l' := by
    intro lid l' hl'
    obtain ⟨hl', horg⟩ := (get?_orgView_locations hw.unique).mp hl'
    obtain ⟨l, hl, hlorg⟩ := hw.back lid l' hl' horg
    obtain ⟨l'', hl'', hafter⟩ := hw.there lid l hl hlorg
    rw [hl'] at hl''
    obtain rfl := Option.some.inj hl''
    exact ⟨l, (get?_orgView_locations h.linked.locationIds).mpr ⟨hl, hlorg⟩, hafter⟩
  have hsubnet : ∀ lid s, (orgView w.locations w.links org).HasSubnet lid s →
      (orgView locations links org).HasSubnet lid s ∨ .addSubnet lid s ∈ ops := by
    rintro lid s ⟨l', hl', hs⟩
    obtain ⟨l, hl, hafter⟩ := hback lid l' hl'
    exact ((hafter.subnets s).mp hs).imp_left fun hs => ⟨l, hl, hs⟩
  refine ⟨fun lid s lid' s' hs hs' hne hclash => ?_, fun lid l' hl' => ?_⟩
  · rcases hsubnet lid s hs with hold | hadd
    · rcases hsubnet lid' s' hs' with hold' | hadd'
      · exact ⟨hold, hold'⟩
      · obtain ⟨-, n, -, hn, -⟩ := hops.subnet lid' s' hadd'
        exact absurd hclash.symm (hops.before lid' s' n lid s hadd' hn hold)
    · rcases hsubnet lid' s' hs' with hold' | hadd'
      · obtain ⟨-, n, -, hn, -⟩ := hops.subnet lid s hadd
        exact absurd hclash (hops.before lid s n lid' s' hadd hn hold')
      · exact absurd hclash (hops.apart lid s lid' s' hadd hadd' hne)
  · obtain ⟨l, hl, hafter⟩ := hback lid l' hl'
    refine ⟨l, hl, hafter.gateway.imp_right ?_⟩
    rintro ⟨ip, hip, hgateway⟩
    obtain ⟨-, hempty, d, hd, hlocation, rfl⟩ := hops.gateway lid ip hip
    rw [at_eq hl] at hempty
    exact ⟨hempty, d, hd, hlocation, hgateway⟩

end Derived

/-- A derived draft is accepted exactly when it is no larger than a draft may be and the devices
that become gateways have addresses.  It makes no subnets overlap, sets gateways of a location only
to its own devices, proposes new links once, and does not depend on the order of the devices. -/
theorem derive_safe (ifs : Interfaces) (probes : Probes) (org : String)
    {locations : Dict Location} {links : Dict Link} {devices : List Host}
    (analyses : Dict Analysis) (h : Recorded ifs.toLibrary locations links)
    (hips : (devices.map Host.ip).Nodup) :
    ∃ d, ifs.derive (orgView locations links org) devices analyses = some d ∧
      ((∃ w, applyOps ifs.toLibrary probes org locations links (d.ops.map DerivedOp.json) = .ok w) ↔
        d.ops.length ≤ maxDraftOps ∧ ∀ op ∈ d.ops, op.Reads ifs.toLibrary) ∧
      (∀ w, applyOps ifs.toLibrary probes org locations links (d.ops.map DerivedOp.json) = .ok w →
        SafeChange ifs devices (orgView locations links org)
          (orgView w.locations w.links org)) ∧
      NewLinks (orgView locations links org) d.ops ∧
      ∀ devices', devices.Perm devices' →
        ifs.derive (orgView locations links org) devices' analyses = some d := by
  obtain ⟨d, hd, hops⟩ := @derive_composed ifs org locations links devices analyses h
  have hreads : ∀ w,
      applyOps ifs.toLibrary probes org locations links (d.ops.map DerivedOp.json) = .ok w →
      d.ops.length ≤ maxDraftOps ∧ (∀ op ∈ d.ops, op.Reads ifs.toLibrary) ∧
        Advanced ifs.toLibrary org locations links d.ops w := by
    intro w hw
    unfold applyOps at hw
    split at hw
    · cases hw
    · next hsize =>
      have hall : ∀ op ∈ d.ops, op.Reads ifs.toLibrary := by
        intro op hop
        obtain ⟨w₁, w₂, j, happly⟩ := exists_applyOp hw (List.mem_map_of_mem hop)
        exact reads_of_applyOp happly
      obtain ⟨w', hw', hadvanced⟩ :=
        @applyFrom_derived _ probes _ _ _ h d.ops (fun op hop => hops.fits hop) hops.once hall
      rw [hw] at hw'
      obtain rfl := Except.ok.inj hw'
      rw [List.length_map, not_lt] at hsize
      exact ⟨hsize, hall, hadvanced⟩
  refine ⟨d, hd, ⟨fun ⟨w, hw⟩ => ?_, fun ⟨hsize, hall⟩ => ?_⟩, fun w hw => ?_, ?_, ?_⟩
  · exact ⟨(hreads w hw).1, (hreads w hw).2.1⟩
  · obtain ⟨w, hw, -⟩ :=
      @applyFrom_derived _ probes _ _ _ h d.ops (fun op hop => hops.fits hop) hops.once hall
    have hfit : ¬ maxDraftOps < (d.ops.map DerivedOp.json).length := by
      rw [List.length_map]
      exact not_lt.mpr hsize
    exact ⟨w, (if_neg hfit).trans hw⟩
  · exact hops.safe h (hreads w hw).2.2
  · exact ⟨fun a b note hop => (hops.link a b note hop).2.2, hops.once⟩
  · intro devices' hperm
    rw [← hd, Interfaces.derive, Interfaces.derive, byPlace_perm hips hperm]

/-- Two locations without a gateway. -/
def derivedLocations : Dict Location :=
  [("roma", ⟨"acme", "Roma", "branch", ["10.10.0.0/16"], .str "central", ""⟩),
    ("milano", ⟨"acme", "Milano", "branch", [], .str "central", ""⟩)]

def deviceAt (ip lid : String) : Host :=
  ⟨ip, "cisco", "", "", "", "", "acme", "", "central", lid, "", "", "", ""⟩

/-- A tunnel between two gateways, with a network of Milan and one inside of a subnet of Rome. -/
def derivedAnalyses : Dict Analysis :=
  [("10.10.1.1", ⟨some [⟨"vlan10", "10.10.1.1/24", "up", false⟩], [⟨"0.0.0.0/0", ""⟩],
      [⟨"to-milano", "10.30.1.1"⟩]⟩),
    ("192.168.0.2", ⟨some [⟨"lan", "10.30.1.1/24", "up", false⟩], [⟨"0.0.0.0/0", ""⟩],
      [⟨"to-roma", "10.10.1.1"⟩]⟩)]

theorem recorded_derivedLocations : Recorded ipv4Library derivedLocations [] := by
  have hlocations : ∀ {P : String → Location → Prop}, (∀ e ∈ derivedLocations, P e.1 e.2) →
      ∀ k l, get? derivedLocations k = some l → P k l :=
    fun hP k l hl => hP (k, l) (mem_of_get? hl)
  have hslugs : ∀ e ∈ derivedLocations, Probes.slugify e.1 = e.1 := by decide
  refine ⟨⟨by unfold PyDict.Unique; decide, List.nodup_nil, fun _ _ h => (nomatch h),
    fun _ _ h => (nomatch h), fun _ _ h => (nomatch h), fun _ _ h => (nomatch h)⟩,
    hlocations fun e he => hslugs e he ▸ slug_slugify e.1, hlocations ?_, fun _ _ h => (nomatch h)⟩
  intro e he
  simp only [derivedLocations, List.mem_cons, List.not_mem_nil, or_false] at he
  rcases he with rfl | rfl
  · exact ⟨by decide, by decide, ⟨List.pairwise_singleton _ _, by decide⟩,
      ⟨"central", rfl, by decide⟩, by decide⟩
  · exact ⟨by decide, by decide, ⟨List.Pairwise.nil, by decide⟩,
      ⟨"central", rfl, by decide⟩, by decide⟩

theorem derive_safe_milano : ∃ d,
    ipv4Interfaces.derive (orgView derivedLocations [] "acme")
      [deviceAt "10.10.1.1" "roma", deviceAt "192.168.0.2" "milano"] derivedAnalyses = some d ∧
    d.ops = [.addSubnet "milano" "10.30.1.0/24", .setGateway "milano" "192.168.0.2",
      .setGateway "roma" "10.10.1.1", .addLink "milano" "roma" "to-roma"] ∧
    ipv4Interfaces.derive (orgView derivedLocations [] "acme")
      [deviceAt "192.168.0.2" "milano", deviceAt "10.10.1.1" "roma"] derivedAnalyses = some d := by
  obtain ⟨d, hd, -, -, -, hperm⟩ := derive_safe ipv4Interfaces none "acme" derivedAnalyses
    recorded_derivedLocations (by decide :
      ([deviceAt "10.10.1.1" "roma", deviceAt "192.168.0.2" "milano"].map Host.ip).Nodup)
  refine ⟨d, hd, ?_, hperm _ (List.Perm.swap _ _ _)⟩
  have hops : (ipv4Interfaces.derive (orgView derivedLocations [] "acme")
      [deviceAt "10.10.1.1" "roma", deviceAt "192.168.0.2" "milano"] derivedAnalyses).map
        Derived.ops = some [.addSubnet "milano" "10.30.1.0/24", .setGateway "milano" "192.168.0.2",
          .setGateway "roma" "10.10.1.1", .addLink "milano" "roma" "to-roma"] := by
    decide
  rw [hd] at hops
  exact Option.some.inj hops

/-- The inventory has a device with a zero in front of an octet, and the draft that makes it the
gateway of its location is refused. -/
theorem padded_gateway_refused : ¬ ∀ (ifs : Interfaces) (probes : Probes) (org : String)
    (locations : Dict Location) (links : Dict Link) (devices : List Host)
    (analyses : Dict Analysis), Recorded ifs.toLibrary locations links →
      (devices.map Host.ip).Nodup →
      ∃ d w, ifs.derive (orgView locations links org) devices analyses = some d ∧
        applyOps ifs.toLibrary probes org locations links (d.ops.map DerivedOp.json) = .ok w := by
  intro h
  obtain ⟨d, w, hd, hw⟩ := h ipv4Interfaces none "acme" derivedLocations []
    [deviceAt "10.20.0.01" "milano"] [("10.20.0.01", ⟨some [], [⟨"0.0.0.0/0", ""⟩], []⟩)]
    recorded_derivedLocations (List.nodup_singleton _)
  have hops : (ipv4Interfaces.derive (orgView derivedLocations [] "acme")
      [deviceAt "10.20.0.01" "milano"]
        [("10.20.0.01", ⟨some [], [⟨"0.0.0.0/0", ""⟩], []⟩)]).map Derived.ops =
      some [.setGateway "milano" "10.20.0.01"] := by
    decide
  rw [hd] at hops
  have hrefused : applyOps ipv4Library none "acme" derivedLocations []
      [setGatewayOp "milano" "10.20.0.01"] =
        .error (.opError 0 (.badGateway "10.20.0.01")) := by
    decide
  rw [Option.some.inj hops] at hw
  cases hrefused.symm.trans hw

end SentinelNet.Blueprint
