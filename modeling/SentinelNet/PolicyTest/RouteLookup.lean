import SentinelNet.PolicyTest.Model

/-!
# Longest-prefix match

`lookup` scans the routes from left to right and keeps the best one so far.  Where every mask has
its ones in front, connected routes have distance zero and the others a positive one, the two tie
breaks of the scan are one lexicographic order, and the scan is its maximum over the routes that
cover the address.

* `Cube.HasLength`, `maskToPrefixLen_of_hasLength`: the prefix length of a mask.
* `foldl_lookupStep`: the scan is the maximum of the rank.
* `lookup_longest_prefix`: the route that is found, and what the order of the table can change.
-/

namespace SentinelNet.PolicyTest

/-! ## Prefix lengths -/

/-- The ones of the mask are its first `len` bits. -/
def Cube.HasLength (c : Cube) (len : ℕ) : Prop :=
  len ≤ 32 ∧ ∀ i < 32, c.mask.getLsbD i = decide (32 - len ≤ i)

theorem Cube.mask_of_hasLength {c : Cube} {len : ℕ} (h : c.HasLength len) :
    c.mask = Cube.prefixMask len := by
  refine BitVec.eq_of_getLsbD_eq fun i hi => ?_
  rw [h.2 i hi, Cube.getLsbD_prefixMask h.1 hi]

/-- The test for leading ones finds the length of every mask that has one. -/
theorem maskToPrefixLen_of_hasLength {c : Cube} {len : ℕ} (h : c.HasLength len) :
    maskToPrefixLen c.mask = some len := by
  have hall : ∀ n < 33, maskToPrefixLen (Cube.prefixMask n) = some n := by decide
  rw [Cube.mask_of_hasLength h]
  exact hall len (Nat.lt_succ_of_le h.1)

namespace RouteTable

variable {r : Route}

theorem prefixLen_of_hasLength {len : ℕ} (h : r.cube.HasLength len) : prefixLen r = len := by
  rw [prefixLen, maskToPrefixLen_of_hasLength h, Option.getD_some]

/-! ## The order of the scan -/

/-- What the scan prefers: the longer prefix, then connected, then the smaller distance. -/
def rank (r : Route) : ℕ ×ₗ Bool ×ₗ ℤᵒᵈ :=
  toLex (prefixLen r, toLex (decide (r.source = .connected), OrderDual.toDual r.distance))

theorem rank_lt_iff {b : Route} : rank b < rank r ↔
    prefixLen b < prefixLen r ∨ prefixLen b = prefixLen r ∧
      ((b.source ≠ .connected ∧ r.source = .connected) ∨
        (b.source = .connected ↔ r.source = .connected) ∧ r.distance < b.distance) := by
  unfold rank
  rw [Prod.Lex.toLex_lt_toLex, Prod.Lex.toLex_lt_toLex, Bool.lt_iff, decide_eq_false_iff_not,
    decide_eq_true_iff, decide_eq_decide, OrderDual.toDual_lt_toDual]

theorem rank_eq_iff {b : Route} : rank b = rank r ↔
    prefixLen b = prefixLen r ∧ (b.source = .connected ↔ r.source = .connected) ∧
      b.distance = r.distance := by
  unfold rank
  rw [toLex_inj, Prod.mk.injEq, toLex_inj, Prod.mk.injEq, decide_eq_decide, OrderDual.toDual_inj]

/-- Connected routes have distance zero, the others a positive one. -/
structure Weighed (r : Route) : Prop where
  connected : r.source = .connected → r.distance = 0
  others : r.source ≠ .connected → 0 < r.distance

theorem lookupStep_some {ip : Addr} {b : Route} (hb : Weighed b) (hr : Weighed r)
    (hcovers : r.cube.containsIp ip) :
    lookupStep ip (some b) r = if rank b < rank r then some r else some b := by
  unfold lookupStep
  rw [if_pos hcovers]
  dsimp only
  rcases lt_trichotomy (prefixLen b) (prefixLen r) with hlt | heq | hgt
  · rw [if_pos hlt, if_pos (rank_lt_iff.mpr (.inl hlt))]
  · rw [if_neg (by omega), if_pos heq.symm]
    by_cases hsource : r.source = .connected ∧ b.source ≠ .connected
    · rw [if_pos hsource, if_pos (rank_lt_iff.mpr (.inr ⟨heq, .inl hsource.symm⟩))]
    · rw [if_neg hsource]
      by_cases hdistance : r.distance < b.distance
      · rw [if_pos hdistance]
        have hsame : b.source = .connected ↔ r.source = .connected := by
          constructor
          · intro hconnected
            by_contra hother
            have hzero := hb.connected hconnected
            have hpos := hr.others hother
            omega
          · intro hconnected
            by_contra hother
            exact hsource ⟨hconnected, hother⟩
        rw [if_pos (rank_lt_iff.mpr (.inr ⟨heq, .inr ⟨hsame, hdistance⟩⟩))]
      · rw [if_neg hdistance, if_neg]
        rw [rank_lt_iff]
        rintro (hlt | ⟨-, hconnected | ⟨-, hless⟩⟩)
        · omega
        · exact hsource hconnected.symm
        · exact hdistance hless
  · rw [if_neg (by omega), if_neg (by omega), if_neg]
    rw [rank_lt_iff]
    rintro (hlt | ⟨heq, -⟩)
    · omega
    · omega

/-- The scan is the maximum of the rank over the routes that cover the address. -/
theorem foldl_lookupStep {ip : Addr} {routes : List Route} (h : ∀ r ∈ routes, Weighed r) :
    routes.foldl (lookupStep ip) none =
      (routes.filter fun r => r.cube.containsIp ip).argmax rank := by
  have hgo : ∀ (routes : List Route) (best : Option Route), (∀ r ∈ routes, Weighed r) →
      (∀ b ∈ best, Weighed b) → routes.foldl (lookupStep ip) best =
        (routes.filter fun r => r.cube.containsIp ip).foldl
          (List.argAux fun b c => rank c < rank b) best := by
    intro routes
    induction routes with
    | nil => exact fun _ _ _ => rfl
    | cons r routes ih =>
      intro best hroutes hbest
      have hr := hroutes r List.mem_cons_self
      have hrest := fun s hs => hroutes s (List.mem_cons_of_mem r hs)
      rw [List.foldl_cons]
      by_cases hcovers : r.cube.containsIp ip = true
      · have hstep : lookupStep ip best r = List.argAux (fun b c => rank c < rank b) best r := by
          cases best with
          | none => exact if_pos hcovers
          | some b => exact lookupStep_some (hbest b rfl) hr hcovers
        rw [List.filter_cons, if_pos hcovers, List.foldl_cons, ← hstep]
        refine ih _ hrest fun b hb => ?_
        rcases lookupStep_eq_some hb with hb | ⟨rfl, -⟩
        · exact hbest b hb
        · exact hr
      · have hstep : lookupStep ip best r = best := if_neg hcovers
        rw [List.filter_cons, if_neg hcovers, hstep]
        exact ih _ hrest hbest
  exact hgo routes none h fun b hb => nomatch hb

/-! ## What is found -/

/-- The masks have their ones in front, connected routes have distance zero and the others a
positive one. -/
structure Graded (t : RouteTable) : Prop where
  contiguous : ∀ r ∈ t.routes, ∃ len, r.cube.HasLength len
  weighed : ∀ r ∈ t.routes, Weighed r

/-- Two routes have prefixes of one length. -/
def SameLength (r s : Route) : Prop := ∃ len, r.cube.HasLength len ∧ s.cube.HasLength len

/-- Two routes agree in prefix length, in being connected and in distance. -/
def SameRank (r s : Route) : Prop :=
  SameLength r s ∧ (r.source = .connected ↔ s.source = .connected) ∧ r.distance = s.distance

/-- A route of the table that covers the address, of maximal length; connected if one of that
length is, and of minimal distance among the others that are left. -/
structure Best (t : RouteTable) (ip : Addr) (r : Route) : Prop where
  mem : r ∈ t.routes
  covers : ip ∈ r.cube.addrs
  longest : ∀ s ∈ t.routes, ip ∈ s.cube.addrs → ∀ m n, s.cube.HasLength m → r.cube.HasLength n →
    m ≤ n
  connected : ∀ s ∈ t.routes, ip ∈ s.cube.addrs → SameLength s r → s.source = .connected →
    r.source = .connected
  nearest : ∀ s ∈ t.routes, ip ∈ s.cube.addrs → SameLength s r →
    (s.source = .connected ↔ r.source = .connected) → r.distance ≤ s.distance

variable {t t' : RouteTable} {dst : String} {ip : Addr}

theorem lookup_eq_argmax (h : t.Graded) (hip : ipToInt dst = .ok ip) :
    t.lookup dst = (t.routes.filter fun r => r.cube.containsIp ip).argmax rank := by
  rw [lookup, hip]
  exact foldl_lookupStep h.weighed

theorem lookup_eq_none_iff (h : t.Graded) (hip : ipToInt dst = .ok ip) :
    t.lookup dst = none ↔ ∀ r ∈ t.routes, ip ∉ r.cube.addrs := by
  rw [lookup_eq_argmax h hip, List.argmax_eq_none, List.filter_eq_nil_iff]
  exact forall₂_congr fun r _ => not_congr Cube.containsIp_iff

theorem sameLength_iff (h : t.Graded) (h' : t'.Graded) {s : Route} (hr : r ∈ t.routes)
    (hs : s ∈ t'.routes) : SameLength r s ↔ prefixLen r = prefixLen s := by
  constructor
  · rintro ⟨len, hlen, hlen'⟩
    rw [prefixLen_of_hasLength hlen, prefixLen_of_hasLength hlen']
  · intro heq
    obtain ⟨m, hm⟩ := h.contiguous r hr
    obtain ⟨n, hn⟩ := h'.contiguous s hs
    rw [prefixLen_of_hasLength hm, prefixLen_of_hasLength hn] at heq
    exact ⟨m, hm, heq ▸ hn⟩

theorem best_of_lookup (h : t.Graded) (hip : ipToInt dst = .ok ip)
    (hr : t.lookup dst = some r) : t.Best ip r := by
  rw [lookup_eq_argmax h hip] at hr
  obtain ⟨hmem, hcovers⟩ := List.mem_filter.mp (List.argmax_mem hr)
  have hmax : ∀ s ∈ t.routes, ip ∈ s.cube.addrs → ¬ rank r < rank s := fun s hs hin =>
    List.not_lt_of_mem_argmax (List.mem_filter.mpr ⟨hs, Cube.containsIp_iff.mpr hin⟩) hr
  refine ⟨hmem, Cube.containsIp_iff.mp hcovers, ?_, ?_, ?_⟩
  · intro s hs hin m n hm hn
    by_contra hlt
    refine hmax s hs hin (rank_lt_iff.mpr (.inl ?_))
    rw [prefixLen_of_hasLength hm, prefixLen_of_hasLength hn]
    omega
  · intro s hs hin hsame hconnected
    by_contra hother
    have hlen := (sameLength_iff h h hs hmem).mp hsame
    exact hmax s hs hin (rank_lt_iff.mpr (.inr ⟨hlen.symm, .inl ⟨hother, hconnected⟩⟩))
  · intro s hs hin hsame hsource
    by_contra hless
    have hlen := (sameLength_iff h h hs hmem).mp hsame
    exact hmax s hs hin
      (rank_lt_iff.mpr (.inr ⟨hlen.symm, .inr ⟨hsource.symm, not_le.mp hless⟩⟩))

theorem Graded.perm (h : t.Graded) (hperm : t'.routes.Perm t.routes) : t'.Graded :=
  ⟨fun r hr => h.contiguous r (hperm.mem_iff.mp hr), fun r hr => h.weighed r (hperm.mem_iff.mp hr)⟩

theorem lookup_perm (h : t.Graded) (hip : ipToInt dst = .ok ip) (hperm : t'.routes.Perm t.routes) :
    Option.Rel SameRank (t.lookup dst) (t'.lookup dst) := by
  have h' := h.perm hperm
  have hnone : t.lookup dst = none ↔ t'.lookup dst = none := by
    rw [lookup_eq_none_iff h hip, lookup_eq_none_iff h' hip]
    exact forall_congr' fun r => imp_congr_left hperm.mem_iff.symm
  cases hr : t.lookup dst with
  | none =>
    rw [hnone.mp hr]
    exact .none
  | some r =>
    cases hs : t'.lookup dst with
    | none =>
      rw [hnone.mpr hs] at hr
      cases hr
    | some s =>
      rw [lookup_eq_argmax h hip] at hr
      rw [lookup_eq_argmax h' hip] at hs
      have hmemr := List.argmax_mem hr
      have hmems := List.argmax_mem hs
      have hfilter := hperm.filter fun r => r.cube.containsIp ip
      have hle := List.not_lt_of_mem_argmax (hfilter.mem_iff.mp hmems) hr
      have hge := List.not_lt_of_mem_argmax (hfilter.mem_iff.mpr hmemr) hs
      have heq : rank r = rank s := le_antisymm (not_lt.mp hge) (not_lt.mp hle)
      obtain ⟨hlen, hsource, hdistance⟩ := rank_eq_iff.mp heq
      refine .some ⟨(sameLength_iff h h' ?_ ?_).mpr hlen, hsource, hdistance⟩
      · exact (List.mem_filter.mp hmemr).1
      · exact (List.mem_filter.mp hmems).1

/-- The lookup is longest-prefix match: there is no route exactly when none covers the address, the
route that is found is a best one, and permuting the table changes it only among equals. -/
theorem lookup_longest_prefix (t : RouteTable) (h : t.Graded) {dst : String} {ip : Addr}
    (hip : ipToInt dst = .ok ip) :
    (t.lookup dst = none ↔ ∀ r ∈ t.routes, ip ∉ r.cube.addrs) ∧
      (∀ r, t.lookup dst = some r → t.Best ip r) ∧
        ∀ t' : RouteTable, t'.routes.Perm t.routes →
          Option.Rel SameRank (t.lookup dst) (t'.lookup dst) :=
  ⟨lookup_eq_none_iff h hip, fun _ hr => best_of_lookup h hip hr,
    fun _ hperm => lookup_perm h hip hperm⟩

/-! ## A branch office -/

def branchCube (network : Addr) (len : ℕ) : Cube := Cube.make network (Cube.prefixMask len)

/-- A default route, a connected network, and a static one of the same length. -/
def branchRoutes : RouteTable where
  routes :=
    [{ network := "0.0.0.0/0", cube := branchCube 0 0, nextHop := some "198.51.100.1" },
      { network := "10.1.0.0/16", cube := branchCube 0x0A010000#32 16, nextHop := some "10.9.0.1" },
      { network := "10.1.0.0/16", cube := branchCube 0x0A010000#32 16, source := .connected,
        distance := 0 }]

theorem hasLength_branchCube (network : Addr) {len : ℕ} (h : len ≤ 32) :
    (branchCube network len).HasLength len :=
  ⟨h, fun _ hi => Cube.getLsbD_prefixMask h hi⟩

/-- The branch office reaches `10.1.2.3` over the connected network, in whatever order. -/
theorem lookup_longest_prefix_branchRoutes :
    branchRoutes.lookup "10.1.2.3" = branchRoutes.routes[2]? ∧
      ∀ t' : RouteTable, t'.routes.Perm branchRoutes.routes →
        Option.Rel SameRank (branchRoutes.lookup "10.1.2.3") (t'.lookup "10.1.2.3") := by
  have hgraded : branchRoutes.Graded := by
    constructor
    · intro r hr
      simp only [branchRoutes, List.mem_cons, List.not_mem_nil, or_false] at hr
      rcases hr with rfl | rfl | rfl
      · exact ⟨0, hasLength_branchCube _ (by decide)⟩
      · exact ⟨16, hasLength_branchCube _ (by decide)⟩
      · exact ⟨16, hasLength_branchCube _ (by decide)⟩
    · intro r hr
      simp only [branchRoutes, List.mem_cons, List.not_mem_nil, or_false] at hr
      rcases hr with rfl | rfl | rfl
      · exact ⟨by decide, by decide⟩
      · exact ⟨by decide, by decide⟩
      · exact ⟨by decide, by decide⟩
  have hip : ipToInt "10.1.2.3" = .ok 0x0A010203#32 := by decide
  have hlookup := lookup_longest_prefix branchRoutes hgraded hip
  exact ⟨by decide, hlookup.2.2⟩

end RouteTable
end SentinelNet.PolicyTest
