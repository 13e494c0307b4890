import Mathlib

/-!
# Networks of both versions

Addresses and networks of `ipaddress` as numbers: a network is the interval from its address to its
broadcast address.

* `Address`, `Network`: addresses and networks of a version.
* `overlaps_iff`: two networks overlap when they have an address in common.
-/

namespace IpNetwork

inductive Version where
  | v4 | v6
  deriving DecidableEq

/-- The number of bits of an address. -/
def Version.bits : Version → ℕ
  | .v4 => 32
  | .v6 => 128

structure Address where
  version : Version
  value : ℕ
  deriving DecidableEq

/-- A network without host bits. -/
structure Network where
  version : Version
  first : ℕ
  prefixlen : ℕ
  deriving DecidableEq

/-- `broadcast_address`. -/
def Network.last (n : Network) : ℕ := n.first + (2 ^ (n.version.bits - n.prefixlen) - 1)

/-- `ip in net`. -/
def Network.has (n : Network) (ip : Address) : Bool :=
  ip.version = n.version ∧ n.first ≤ ip.value ∧ ip.value ≤ n.last

/-- `net.overlaps(other)`, for networks of the same version. -/
def Network.overlaps (n m : Network) : Bool :=
  n.has ⟨n.version, m.first⟩ || n.has ⟨n.version, m.last⟩ || m.has ⟨m.version, n.first⟩ ||
    m.has ⟨m.version, n.last⟩

/-- `net.subnet_of(other)`, for networks of the same version. -/
def Network.subnetOf (n m : Network) : Bool := m.first ≤ n.first ∧ n.last ≤ m.last

/-- The network of a prefix length with an address in it: `ip_network((ip, n), strict=False)`. -/
def Network.around (ip : Address) (n : ℕ) : Network :=
  ⟨ip.version, ip.value / 2 ^ (ip.version.bits - n) * 2 ^ (ip.version.bits - n), n⟩

theorem Network.first_le_last (n : Network) : n.first ≤ n.last := Nat.le_add_right _ _

theorem has_iff {n : Network} {ip : Address} :
    n.has ip = true ↔ ip.version = n.version ∧ n.first ≤ ip.value ∧ ip.value ≤ n.last := by
  rw [Network.has, decide_eq_true_eq]

theorem has_around (ip : Address) (n : ℕ) : (Network.around ip n).has ip = true := by
  have hpos : 0 < 2 ^ (ip.version.bits - n) := Nat.two_pow_pos _
  have hlt := Nat.lt_div_mul_add hpos (a := ip.value)
  have hle := Nat.div_mul_le_self ip.value (2 ^ (ip.version.bits - n))
  rw [has_iff]
  refine ⟨rfl, hle, ?_⟩
  change _ ≤ ip.value / 2 ^ (ip.version.bits - n) * 2 ^ (ip.version.bits - n) +
    (2 ^ (ip.version.bits - n) - 1)
  omega

/-- Two networks overlap when neither ends before the other begins. -/
theorem overlaps_iff {n m : Network} :
    n.overlaps m = true ↔ n.first ≤ m.last ∧ m.first ≤ n.last := by
  have hn := n.first_le_last
  have hm := m.first_le_last
  simp only [Network.overlaps, Bool.or_eq_true, has_iff, true_and]
  omega

theorem overlaps_comm (n m : Network) : n.overlaps m = m.overlaps n := by
  rw [Bool.eq_iff_iff, overlaps_iff, overlaps_iff, and_comm]

end IpNetwork
