import SentinelNet.Blueprint.Checks
import SentinelNet.Lib.Claims

/-!
# What the routes of the gateways decide

The checks of the routes read the tables of the gateways row by row.  Rows that are left out can
only make a route missing, a default route missing, a table one of a backup, or another row the
first one of a location; what the checks say is the same exactly when none of this happens.

* `routingChecks_eq`: `_routing_checks` is this.
* `routing_eq_of_alike`, `alike_of_perm`: they give the same findings, and only they do.
-/

namespace SentinelNet.Blueprint

open Observability PyDict IpNetwork Claims

section Rows

variable (ad : Addresses) (view : View) (tunnels : Dict TunnelEntry)

def View.directions : List (String × String × String) :=
  (sortedItems view.links).flatMap fun k => [(k.1, k.2.a, k.2.b), (k.1, k.2.b, k.2.a)]

def Addresses.directionByRows (rows : List RouteRow) (d : String × String × String) :
    List Finding :=
  if rows = [] then [unknownRoute view d.1 d.2.1 d.2.2]
  else
    (ad.nets (view.at d.2.2).subnets).filterMap
      (ad.noRoute view d.1 d.2.1 d.2.2 ⟨rows, "", rows.all RouteRow.fromBackup⟩)

/-- The first row that leads from a location to another one without a link. -/
def Addresses.lead (rows : String → List RouteRow) (p : String × String) : Option RouteRow :=
  if p.2 = p.1 ∨ pair p.1 p.2 ∈ view.linked (fun _ => true) then none
  else ad.hit view (rows p.1) p.2

/-- The same, unless a row leads back from a location that is asked before. -/
def Addresses.firstLead (rows : String → List RouteRow) (p : String × String) : Option RouteRow :=
  if p.2 < p.1 ∧ (ad.lead view rows (p.2, p.1)).isSome then none else ad.lead view rows p

def Addresses.routing (rows : String → List RouteRow) : List Finding :=
  view.directions.flatMap (fun d => ad.directionByRows view (rows d.2.1) d) ++
    view.pairs.flatMap fun p =>
      ((ad.firstLead view rows p).map (routeFinding view tunnels p.1 p.2)).toList

def rowsOf (routes : Dict RouteEntry) (lid : String) : List RouteRow :=
  ((view.entryOf routes lid).map RouteEntry.rows).getD []

end Rows

/-! ## The loop over the pairs -/

section Pairs

variable {ad : Addresses} {view : View} {tunnels : Dict TunnelEntry}

/-- The order of the pairs. -/
def Before (p q : String × String) : Prop := p.1 < q.1 ∨ (p.1 = q.1 ∧ p.2 < q.2)

instance (p q : String × String) : Decidable (Before p q) := inferInstanceAs (Decidable (_ ∨ _))

variable {p : String × String}

theorem before_asymm {q : String × String} (h : Before p q) : ¬ Before q p := by
  rcases h with h | ⟨heq, h⟩
  · rintro (h' | ⟨heq, -⟩)
    · exact lt_asymm h h'
    · exact absurd heq h.ne'
  · rintro (h' | ⟨-, h'⟩)
    · exact absurd heq h'.ne'
    · exact lt_asymm h h'

theorem keys_sortedItems {α : Type} {d : Dict α} (h : Unique d) :
    ((sortedItems d).map Prod.fst).Pairwise (· < ·) := by
  have hsorted : ((sortedItems d).map Prod.fst).Pairwise (· ≤ ·) :=
    List.pairwise_map.mpr (List.pairwise_insertionSort (fun e f : String × α => e.1 ≤ f.1) d)
  have hnodup : ((sortedItems d).map Prod.fst).Nodup :=
    ((List.perm_insertionSort _ d).map Prod.fst).nodup_iff.mpr h
  exact (hsorted.and hnodup).imp fun h => lt_of_le_of_ne h.1 h.2

theorem mem_sortedItems {α : Type} {d : Dict α} {e : String × α} : e ∈ sortedItems d ↔ e ∈ d :=
  List.mem_insertionSort _

theorem mem_pairs : p ∈ view.pairs ↔ p.1 ∈ keys view.locations ∧ p.2 ∈ keys view.locations := by
  simp only [View.pairs, keys, List.mem_flatMap, List.mem_map, mem_sortedItems]
  constructor
  · rintro ⟨e, he, f, hf, rfl⟩
    exact ⟨⟨e, he, rfl⟩, ⟨f, hf, rfl⟩⟩
  · rintro ⟨⟨e, he, h₁⟩, f, hf, h₂⟩
    exact ⟨e, he, f, hf, Prod.ext h₁ h₂⟩

theorem pairs_pairwise (h : Unique view.locations) : view.pairs.Pairwise Before := by
  have hkeys := keys_sortedItems h
  rw [View.pairs]
  generalize hitems : sortedItems view.locations = items at hkeys
  rw [List.pairwise_flatMap]
  constructor
  · intro e _
    refine List.pairwise_map.mpr ?_
    exact (List.pairwise_map.mp hkeys).imp fun h => .inr ⟨rfl, h⟩
  · refine (List.pairwise_map.mp hkeys).imp fun {e f} hlt => ?_
    intro p hp q hq
    obtain ⟨_, -, rfl⟩ := List.mem_map.mp hp
    obtain ⟨_, -, rfl⟩ := List.mem_map.mp hq
    exact .inl hlt

theorem pair_eq_iff {a b c d : String} :
    pair a b = pair c d ↔ (a = c ∧ b = d) ∨ (a = d ∧ b = c) := by
  constructor
  · intro h
    simp only [pair, ordered] at h
    split at h <;> split at h
    · exact .inl (Prod.mk.inj h).symm
    · exact .inr (Prod.mk.inj h).symm
    · exact .inr (Prod.mk.inj h)
    · exact .inl (Prod.mk.inj h)
  · rintro (⟨rfl, rfl⟩ | ⟨rfl, rfl⟩)
    · rfl
    · exact ordered_comm a b

theorem exists_before_iff (hp : p ∈ view.pairs) {found : String × String → Bool} :
    (∃ q ∈ view.pairs, Before q p ∧ found q = true ∧ pair q.1 q.2 = pair p.1 p.2) ↔
      p.2 < p.1 ∧ found (p.2, p.1) = true := by
  constructor
  · rintro ⟨q, -, hbefore, hfound, hpair⟩
    rcases pair_eq_iff.mp hpair with ⟨h₁, h₂⟩ | ⟨h₁, h₂⟩
    · rw [Prod.ext h₁ h₂] at hbefore
      exact absurd hbefore (before_asymm hbefore)
    · have hq : q = (p.2, p.1) := Prod.ext h₁ h₂
      rw [hq] at hbefore hfound
      rcases hbefore with hlt | ⟨heq, hlt⟩
      · exact ⟨hlt, hfound⟩
      · exact absurd heq hlt.ne'
  · rintro ⟨hlt, hfound⟩
    obtain ⟨h₁, h₂⟩ := mem_pairs.mp hp
    exact ⟨(p.2, p.1), mem_pairs.mpr ⟨h₂, h₁⟩, .inl hlt, hfound, ordered_comm p.2 p.1⟩

theorem routePair_eq_take (routes : Dict RouteEntry) :
    ad.routePair view routes tunnels = take (fun p => pair p.1 p.2)
      fun p => (ad.lead view (rowsOf view routes) p).map (routeFinding view tunnels p.1 p.2) := by
  funext st p
  rw [Addresses.routePair, take, Addresses.lead, rowsOf]
  cases view.entryOf routes p.1 with
  | none =>
    have hhit : ad.hit view [] p.2 = none := rfl
    simp [hhit]
  | some entry =>
    by_cases hbad : p.2 = p.1 ∨ pair p.1 p.2 ∈ view.linked fun _ => true
    · simp only [if_pos hbad, Option.map_none, ite_self]
      exact if_pos (or_assoc.mp (.inl hbad))
    · simp only [if_neg hbad]
      by_cases hseen : pair p.1 p.2 ∈ st.2
      · rw [if_pos hseen, if_pos (.inr (.inr hseen))]
      · rw [if_neg hseen, if_neg fun h => (or_assoc.mpr h).elim hbad hseen]
        simp only [Option.map_some, Option.getD_some]
        cases ad.hit view entry.rows p.2 with
        | none => rfl
        | some row => rfl

theorem foldl_routePair (hunique : Unique view.locations) (routes : Dict RouteEntry) :
    (view.pairs.foldl (ad.routePair view routes tunnels) ([], [])).1 =
      view.pairs.flatMap fun p =>
        ((ad.firstLead view (rowsOf view routes) p).map
          (routeFinding view tunnels p.1 p.2)).toList := by
  rw [routePair_eq_take, foldl_take (pairs_pairwise hunique) fun p q => before_asymm]
  refine List.flatMap_congr fun p hp => ?_
  have hcond : (∃ q ∈ view.pairs, Before q p ∧
      ((ad.lead view (rowsOf view routes) q).map
        (routeFinding view tunnels q.1 q.2)).isSome = true ∧
      pair q.1 q.2 = pair p.1 p.2) ↔
      p.2 < p.1 ∧ (ad.lead view (rowsOf view routes) (p.2, p.1)).isSome = true := by
    simp only [Option.isSome_map]
    exact @exists_before_iff view p hp fun q => (ad.lead view (rowsOf view routes) q).isSome
  rw [Addresses.firstLead]
  split
  · next h => rw [if_pos (hcond.mp h)]; rfl
  · next h => rw [if_neg fun h' => h (hcond.mpr h')]

end Pairs

/-! ## The checks, from the rows -/

section Checks

variable {ad : Addresses} {view : View} {tunnels : Dict TunnelEntry} {routes : Dict RouteEntry}

def FromRows (view : View) (routes : Dict RouteEntry) : Prop :=
  ∀ lid entry, view.entryOf routes lid = some entry → entry.rows ≠ [] →
    entry.fromBackup = entry.rows.all RouteRow.fromBackup

theorem directionFindings_eq (h : FromRows view routes) (lkid src dst : String) :
    ad.directionFindings view routes lkid src dst =
      ad.directionByRows view (rowsOf view routes src) (lkid, src, dst) := by
  rw [Addresses.directionFindings, Addresses.directionByRows, rowsOf]
  cases hentry : view.entryOf routes src with
  | none => rfl
  | some entry =>
    by_cases hrows : entry.rows = []
    · simp only [Option.map_some, Option.getD_some, if_pos hrows]
    · simp only [Option.map_some, Option.getD_some, if_neg hrows]
      refine List.filterMap_congr fun s _ => ?_
      rw [Addresses.noRoute, Addresses.noRoute, h src entry hentry hrows]

/-- The checks of the routes read the rows alone. -/
theorem routingChecks_eq (hunique : Unique view.locations) (h : FromRows view routes) :
    ad.routingChecks view routes tunnels = ad.routing view tunnels (rowsOf view routes) := by
  rw [Addresses.routingChecks, Addresses.routing, foldl_routePair hunique, View.directions,
    List.flatMap_assoc]
  congr 1
  refine List.flatMap_congr fun k _ => ?_
  rw [Addresses.linkFindings, directionFindings_eq h, directionFindings_eq h]
  simp only [List.flatMap_cons, List.flatMap_nil, List.append_nil]

end Checks

/-! ## Fewer rows -/

section Fewer

variable {ad : Addresses} {view : View} {tunnels : Dict TunnelEntry}
  {rows few : String → List RouteRow}

/-- What a row of a lead says. -/
def said (r : RouteRow) : String × String := (r.network, r.interface)

/-- Fewer rows decide the same as the rows. -/
structure Alike (ad : Addresses) (view : View) (rows few : String → List RouteRow) : Prop where
  /-- A table of an end of a link does not become empty. -/
  known : ∀ d ∈ view.directions, rows d.2.1 ≠ [] → few d.2.1 ≠ []
  /-- A subnet of the other end stays routed. -/
  routed : ∀ d ∈ view.directions, ∀ s ∈ ad.netsAt view d.2.2,
    routed (ad.routeNets (rows d.2.1)) s = true → routed (ad.routeNets (few d.2.1)) s = true
  /-- A default route stays, where a subnet is not routed. -/
  byDefault : ∀ d ∈ view.directions, ∀ s ∈ ad.netsAt view d.2.2,
    Blueprint.routed (ad.routeNets (rows d.2.1)) s = false →
    routedByDefault (ad.routeNets (rows d.2.1)) s = true →
    routedByDefault (ad.routeNets (few d.2.1)) s = true
  /-- A table does not become one of a backup, where a subnet is not routed. -/
  live : ∀ d ∈ view.directions, ∀ s ∈ ad.netsAt view d.2.2,
    Blueprint.routed (ad.routeNets (rows d.2.1)) s = false →
    (few d.2.1).all RouteRow.fromBackup = true → (rows d.2.1).all RouteRow.fromBackup = true
  /-- The first row that leads to a location without a link says the same. -/
  lead : ∀ p ∈ view.pairs,
    (ad.firstLead view rows p).map said = (ad.firstLead view few p).map said

theorem any_mono {α : Type} {l l' : List α} (h : l.Sublist l') {p : α → Bool}
    (hany : l.any p) : l'.any p = true := by
  obtain ⟨a, ha, hp⟩ := List.any_eq_true.mp hany
  exact List.any_eq_true.mpr ⟨a, h.subset ha, hp⟩

theorem all_mono {α : Type} {l l' : List α} (h : l.Sublist l') {p : α → Bool}
    (hall : l'.all p) : l.all p = true :=
  List.all_eq_true.mpr fun a ha => List.all_eq_true.mp hall a (h.subset ha)

variable {l l' : List RouteRow}

theorem routeNets_sublist (h : l.Sublist l') :
    (ad.routeNets l).Sublist (ad.routeNets l') := h.filterMap _

theorem routed_mono (h : l.Sublist l') {s : Network}
    (hrouted : routed (ad.routeNets l) s) : routed (ad.routeNets l') s = true :=
  any_mono (routeNets_sublist h) hrouted

theorem byDefault_mono (h : l.Sublist l') {s : Network}
    (hdefault : routedByDefault (ad.routeNets l) s) :
    routedByDefault (ad.routeNets l') s = true :=
  any_mono (routeNets_sublist h) hdefault

theorem eq_nil_of_sublist (h : l.Sublist l') (hnil : l' = []) : l = [] :=
  List.sublist_nil.mp (hnil ▸ h)

theorem directionByRows_of_alike (hsub : ∀ lid, (few lid).Sublist (rows lid))
    (h : Alike ad view rows few) {d : String × String × String} (hd : d ∈ view.directions) :
    ad.directionByRows view (rows d.2.1) d = ad.directionByRows view (few d.2.1) d := by
  rw [Addresses.directionByRows, Addresses.directionByRows]
  by_cases hrows : rows d.2.1 = []
  · rw [if_pos hrows, if_pos (eq_nil_of_sublist (hsub d.2.1) hrows)]
  · rw [if_neg hrows, if_neg (h.known d hd hrows)]
    refine List.filterMap_congr fun s hs => ?_
    rw [Addresses.noRoute, Addresses.noRoute]
    have hrouted : routed (ad.routeNets (rows d.2.1)) s = routed (ad.routeNets (few d.2.1)) s :=
      Bool.eq_iff_iff.mpr ⟨h.routed d hd s hs, routed_mono (hsub d.2.1)⟩
    cases hnot : routed (ad.routeNets (rows d.2.1)) s with
    | true => simp only [← hrouted, hnot, if_true]
    | false =>
      have hdefault : routedByDefault (ad.routeNets (rows d.2.1)) s =
          routedByDefault (ad.routeNets (few d.2.1)) s :=
        Bool.eq_iff_iff.mpr ⟨h.byDefault d hd s hs hnot, byDefault_mono (hsub d.2.1)⟩
      have hbackup : (rows d.2.1).all RouteRow.fromBackup = (few d.2.1).all RouteRow.fromBackup :=
        Bool.eq_iff_iff.mpr ⟨all_mono (hsub d.2.1), h.live d hd s hs hnot⟩
      simp only [← hrouted, hnot, hdefault, hbackup]

theorem routeFinding_of_said {src dst : String} {r r' : RouteRow} (h : said r = said r') :
    routeFinding view tunnels src dst r = routeFinding view tunnels src dst r' := by
  obtain ⟨hnetwork, hinterface⟩ := Prod.mk.inj h
  rw [routeFinding, routeFinding, hnetwork, hinterface]

/-- Rows that decide the same give the same findings. -/
theorem routing_eq_of_alike (hsub : ∀ lid, (few lid).Sublist (rows lid))
    (h : Alike ad view rows few) :
    ad.routing view tunnels rows = ad.routing view tunnels few := by
  rw [Addresses.routing, Addresses.routing]
  congr 1
  · exact List.flatMap_congr fun d hd => directionByRows_of_alike hsub h hd
  · refine List.flatMap_congr fun p hp => ?_
    have hlead := h.lead p hp
    cases hrows : ad.firstLead view rows p with
    | none =>
      cases hfew : ad.firstLead view few p with
      | none => rfl
      | some r' =>
        rw [hrows, hfew] at hlead
        cases hlead
    | some r =>
      cases hfew : ad.firstLead view few p with
      | none =>
        rw [hrows, hfew] at hlead
        cases hlead
      | some r' =>
        rw [hrows, hfew] at hlead
        rw [Option.map_some, Option.map_some, routeFinding_of_said (Option.some.inj hlead)]

/-! ## Only these give the same findings -/

theorem countP_directionByRows (q : Finding → Bool) (l : List RouteRow)
    (d : String × String × String) :
    (ad.directionByRows view l d).countP q =
      if l = [] then if q (unknownRoute view d.1 d.2.1 d.2.2) then 1 else 0
      else (ad.netsAt view d.2.2).countP fun s =>
        (ad.noRoute view d.1 d.2.1 d.2.2 ⟨l, "", l.all RouteRow.fromBackup⟩ s).any q := by
  rw [Addresses.directionByRows]
  split
  · rw [List.countP_singleton]
  · rw [List.countP_filterMap]
    refine List.countP_congr fun s _ => ?_
    cases ad.noRoute view d.1 d.2.1 d.2.2 ⟨l, "", l.all RouteRow.fromBackup⟩ s with
    | none => rfl
    | some f => rfl

variable {q : Finding → Bool}

theorem countP_routing (hq : ∀ src dst r, q (routeFinding view tunnels src dst r) = false)
    (rows : String → List RouteRow) :
    (ad.routing view tunnels rows).countP q =
      (view.directions.map fun d => (ad.directionByRows view (rows d.2.1) d).countP q).sum := by
  have hpairs : (view.pairs.flatMap fun p =>
      ((ad.firstLead view rows p).map
        (routeFinding view tunnels p.1 p.2)).toList).countP q = 0 := by
    refine List.countP_eq_zero.mpr fun f hf => ?_
    obtain ⟨p, -, hf⟩ := List.mem_flatMap.mp hf
    obtain ⟨r, -, rfl⟩ := Option.map_eq_some_iff.mp (Option.mem_toList.mp hf)
    rw [hq]
    exact Bool.false_ne_true
  rw [Addresses.routing, List.countP_append, hpairs, List.countP_flatMap]
  rfl

theorem countP_eq_of_perm
    (hperm : (ad.routing view tunnels rows).Perm (ad.routing view tunnels few))
    (hq : ∀ src dst r, q (routeFinding view tunnels src dst r) = false)
    (hle : ∀ d ∈ view.directions, (ad.directionByRows view (rows d.2.1) d).countP q ≤
      (ad.directionByRows view (few d.2.1) d).countP q) :
    ∀ d ∈ view.directions, (ad.directionByRows view (rows d.2.1) d).countP q =
      (ad.directionByRows view (few d.2.1) d).countP q := by
  refine eq_of_sum_map_eq hle ?_
  rw [← countP_routing hq, ← countP_routing hq]
  exact hperm.countP_eq q

/-- The findings of a missing route. -/
def isGap (f : Finding) : Bool := f.code = .linkNoRoute

/-- Nothing is known of the routes. -/
def isUnknown (f : Finding) : Bool := f.severity = .unknown

/-- A missing route with a default route. -/
def isDefault (f : Finding) : Bool := get? f.params "via" = some (.str "default")

/-- A missing route in a backup. -/
def isBackup (f : Finding) : Bool := get? f.params "backup_only" = some (.bool true)

section NoRoute

variable (lkid src dst : String) (entry : RouteEntry) (s : Network)

theorem noRoute_isGap : (ad.noRoute view lkid src dst entry s).any isGap =
    !routed (ad.routeNets entry.rows) s := by
  rw [Addresses.noRoute]
  cases routed (ad.routeNets entry.rows) s with
  | true => rfl
  | false => rfl

theorem noRoute_isUnknown : (ad.noRoute view lkid src dst entry s).any isUnknown = false := by
  rw [Addresses.noRoute]
  cases routed (ad.routeNets entry.rows) s with
  | true => rfl
  | false =>
    simp only [Bool.false_eq_true, if_false, Option.any_some, isUnknown]
    split <;> rfl

theorem noRoute_isDefault : (ad.noRoute view lkid src dst entry s).any isDefault =
    (!routed (ad.routeNets entry.rows) s && routedByDefault (ad.routeNets entry.rows) s) := by
  rw [Addresses.noRoute]
  cases routed (ad.routeNets entry.rows) s with
  | true => rfl
  | false =>
    cases routedByDefault (ad.routeNets entry.rows) s with
    | true => rfl
    | false => rfl

theorem noRoute_isBackup : (ad.noRoute view lkid src dst entry s).any isBackup =
    (!routed (ad.routeNets entry.rows) s && entry.fromBackup) := by
  rw [Addresses.noRoute]
  cases routed (ad.routeNets entry.rows) s with
  | true => rfl
  | false =>
    cases entry.fromBackup with
    | true => rfl
    | false => rfl

end NoRoute

theorem known_of_perm (hsub : ∀ lid, (few lid).Sublist (rows lid))
    (hperm : (ad.routing view tunnels rows).Perm (ad.routing view tunnels few)) :
    ∀ d ∈ view.directions, rows d.2.1 ≠ [] → few d.2.1 ≠ [] := by
  have hcount : ∀ (l : List RouteRow) (d : String × String × String),
      (ad.directionByRows view l d).countP isUnknown = if l = [] then 1 else 0 := by
    intro l d
    rw [countP_directionByRows]
    split
    · rfl
    · refine List.countP_eq_zero.mpr fun s _ => ?_
      rw [noRoute_isUnknown]
      exact Bool.false_ne_true
  have heq := countP_eq_of_perm hperm (q := isUnknown) (fun _ _ _ => rfl) fun d _ => by
    rw [hcount, hcount]
    split
    · next hrows => rw [if_pos (eq_nil_of_sublist (hsub d.2.1) hrows)]
    · exact Nat.zero_le _
  intro d hd hrows hfew
  have hd := heq d hd
  rw [hcount, hcount, if_neg hrows, if_pos hfew] at hd
  exact absurd hd (by decide)

/-- What is found of a subnet for fewer rows whenever it is found for the rows, is found for the
rows too. -/
theorem any_of_perm (hperm : (ad.routing view tunnels rows).Perm (ad.routing view tunnels few))
    (hq : ∀ src dst r, q (routeFinding view tunnels src dst r) = false)
    (hempty : ∀ d ∈ view.directions, (rows d.2.1 = [] ↔ few d.2.1 = []))
    (himp : ∀ d ∈ view.directions, ∀ s ∈ ad.netsAt view d.2.2,
      (ad.noRoute view d.1 d.2.1 d.2.2
        ⟨rows d.2.1, "", (rows d.2.1).all RouteRow.fromBackup⟩ s).any q = true →
      (ad.noRoute view d.1 d.2.1 d.2.2
        ⟨few d.2.1, "", (few d.2.1).all RouteRow.fromBackup⟩ s).any q = true) :
    ∀ d ∈ view.directions, rows d.2.1 ≠ [] → ∀ s ∈ ad.netsAt view d.2.2,
      (ad.noRoute view d.1 d.2.1 d.2.2
        ⟨few d.2.1, "", (few d.2.1).all RouteRow.fromBackup⟩ s).any q = true →
      (ad.noRoute view d.1 d.2.1 d.2.2
        ⟨rows d.2.1, "", (rows d.2.1).all RouteRow.fromBackup⟩ s).any q = true := by
  have heq := countP_eq_of_perm hperm hq fun d hd => by
    rw [countP_directionByRows, countP_directionByRows]
    by_cases hrows : rows d.2.1 = []
    · rw [if_pos hrows, if_pos ((hempty d hd).mp hrows)]
    · rw [if_neg hrows, if_neg fun h => hrows ((hempty d hd).mpr h)]
      exact List.countP_mono_left (himp d hd)
  intro d hd hrows s hs
  have hcount := heq d hd
  rw [countP_directionByRows, countP_directionByRows, if_neg hrows,
    if_neg fun h => hrows ((hempty d hd).mpr h)] at hcount
  exact eq_of_countP_eq (himp d hd) hcount s hs

theorem routed_of_perm (hsub : ∀ lid, (few lid).Sublist (rows lid))
    (hperm : (ad.routing view tunnels rows).Perm (ad.routing view tunnels few))
    (hempty : ∀ d ∈ view.directions, (rows d.2.1 = [] ↔ few d.2.1 = [])) :
    ∀ d ∈ view.directions, ∀ s ∈ ad.netsAt view d.2.2,
      routed (ad.routeNets (rows d.2.1)) s = true →
        routed (ad.routeNets (few d.2.1)) s = true := by
  intro d hd s hs hrouted
  have hrows : rows d.2.1 ≠ [] := by
    intro hnil
    rw [hnil] at hrouted
    cases hrouted
  have hback := any_of_perm hperm (q := isGap) (fun _ _ _ => rfl) hempty (fun d _ s _ => by
    rw [noRoute_isGap, noRoute_isGap, Bool.not_eq_true', Bool.not_eq_true', Bool.eq_false_iff,
      Bool.eq_false_iff]
    exact mt (routed_mono (hsub d.2.1))) d hd hrows s hs
  rw [noRoute_isGap, noRoute_isGap, hrouted] at hback
  cases hfew : routed (ad.routeNets (few d.2.1)) s with
  | true => rfl
  | false =>
    rw [hfew] at hback
    exact nomatch hback rfl

/-- The first lead of a pair is the finding with its operation. -/
def isLead (p : String × String) (f : Finding) : Bool :=
  f.code = .routeWithoutLink ∧ (f.proposal = some [addLinkOp p.1 p.2 "vpn"] ∨
    f.proposal = some [addLinkOp p.1 p.2 "wan"])

theorem addLinkOp_inj {a b kind a' b' kind' : String}
    (h : addLinkOp a b kind = addLinkOp a' b' kind') : a = a' ∧ b = b' := by
  simp only [addLinkOp, Json.obj.injEq, List.cons.injEq, Prod.mk.injEq, Json.str.injEq,
    true_and, and_true] at h
  exact ⟨h.1, h.2.1⟩

theorem isLead_routeFinding (p q : String × String) (r : RouteRow) :
    isLead p (routeFinding view tunnels q.1 q.2 r) = true ↔ p = q := by
  rw [isLead, decide_eq_true_eq]
  constructor
  · rintro ⟨-, h⟩
    simp only [routeFinding, Option.some.injEq, List.cons.injEq, and_true] at h
    rcases h with h | h
    · exact (Prod.ext (addLinkOp_inj h).1 (addLinkOp_inj h).2).symm
    · exact (Prod.ext (addLinkOp_inj h).1 (addLinkOp_inj h).2).symm
  · rintro rfl
    refine ⟨rfl, ?_⟩
    simp only [routeFinding]
    split
    · exact .inl rfl
    · exact .inr rfl

theorem code_directionByRows {d : String × String × String} {f : Finding}
    (h : f ∈ ad.directionByRows view l d) : f.code = .linkNoRoute := by
  rw [Addresses.directionByRows] at h
  split at h
  · rw [List.mem_singleton.mp h]
    rfl
  · obtain ⟨s, -, hs⟩ := List.mem_filterMap.mp h
    rw [Addresses.noRoute] at hs
    split at hs
    · cases hs
    · rw [← Option.some.inj hs]

theorem filter_isLead (hunique : Unique view.locations) {p : String × String}
    (hp : p ∈ view.pairs) (rows : String → List RouteRow) :
    (ad.routing view tunnels rows).filter (isLead p) =
      ((ad.firstLead view rows p).map (routeFinding view tunnels p.1 p.2)).toList := by
  have hlinks : (view.directions.flatMap fun d =>
      ad.directionByRows view (rows d.2.1) d).filter (isLead p) = [] := by
    refine List.filter_eq_nil_iff.mpr fun f hf hlead => ?_
    obtain ⟨d, -, hf⟩ := List.mem_flatMap.mp hf
    have hcode := (of_decide_eq_true hlead).1
    rw [code_directionByRows hf] at hcode
    cases hcode
  have hnodup : view.pairs.Nodup := by
    refine (pairs_pairwise hunique).imp fun {p q} hpq => ?_
    rintro rfl
    exact before_asymm hpq hpq
  rw [Addresses.routing, List.filter_append, hlinks, List.nil_append, List.filter_flatMap,
    flatMap_eq_of_unique hnodup hp]
  · refine List.filter_eq_self.mpr fun f hf => ?_
    obtain ⟨r, -, rfl⟩ := Option.map_eq_some_iff.mp (Option.mem_toList.mp hf)
    exact (isLead_routeFinding p p r).mpr rfl
  · intro q _ hne
    refine List.filter_eq_nil_iff.mpr fun f hf hlead => ?_
    obtain ⟨r, -, rfl⟩ := Option.map_eq_some_iff.mp (Option.mem_toList.mp hf)
    exact hne ((isLead_routeFinding p q r).mp hlead).symm

theorem lead_of_perm (hunique : Unique view.locations)
    (hperm : (ad.routing view tunnels rows).Perm (ad.routing view tunnels few)) :
    ∀ p ∈ view.pairs, (ad.firstLead view rows p).map said = (ad.firstLead view few p).map said := by
  intro p hp
  have hfilter := hperm.filter (isLead p)
  rw [filter_isLead hunique hp, filter_isLead hunique hp] at hfilter
  have hlength := hfilter.length_eq
  cases hrows : ad.firstLead view rows p with
  | none =>
    cases hfew : ad.firstLead view few p with
    | none => rfl
    | some r' =>
      rw [hrows, hfew] at hlength
      cases hlength
  | some r =>
    cases hfew : ad.firstLead view few p with
    | none =>
      rw [hrows, hfew] at hlength
      cases hlength
    | some r' =>
      rw [hrows, hfew] at hfilter
      have hsame := congrArg Finding.params (List.singleton_perm_singleton.mp hfilter)
      simp only [routeFinding, List.cons.injEq, Prod.mk.injEq, Json.str.injEq, true_and,
        and_true] at hsame
      exact congrArg some (Prod.ext hsame.1 hsame.2)

/-- Rows that give the same findings decide the same. -/
theorem alike_of_perm (hunique : Unique view.locations) (hsub : ∀ lid, (few lid).Sublist (rows lid))
    (hperm : (ad.routing view tunnels rows).Perm (ad.routing view tunnels few)) :
    Alike ad view rows few := by
  have hknown := known_of_perm hsub hperm
  have hempty : ∀ d ∈ view.directions, (rows d.2.1 = [] ↔ few d.2.1 = []) := fun d hd =>
    ⟨eq_nil_of_sublist (hsub d.2.1), fun hfew => not_not.mp fun hrows => hknown d hd hrows hfew⟩
  have hrouted := routed_of_perm hsub hperm hempty
  have hnot : ∀ d ∈ view.directions, ∀ s ∈ ad.netsAt view d.2.2,
      routed (ad.routeNets (rows d.2.1)) s = routed (ad.routeNets (few d.2.1)) s := fun d hd s hs =>
    Bool.eq_iff_iff.mpr ⟨hrouted d hd s hs, routed_mono (hsub d.2.1)⟩
  refine ⟨hknown, hrouted, fun d hd s hs hgap hdefault => ?_, fun d hd s hs hgap hbackup => ?_,
    lead_of_perm hunique hperm⟩
  · have hrows : rows d.2.1 ≠ [] := by
      intro hnil
      rw [hnil] at hdefault
      cases hdefault
    have hback := any_of_perm hperm.symm (q := isDefault) (fun _ _ _ => rfl)
      (fun d hd => (hempty d hd).symm) (fun d hd s hs => by
        rw [noRoute_isDefault, noRoute_isDefault, hnot d hd s hs, Bool.and_eq_true,
          Bool.and_eq_true]
        exact fun h => ⟨h.1, byDefault_mono (hsub d.2.1) h.2⟩) d hd (hknown d hd hrows) s hs
    rw [noRoute_isDefault, noRoute_isDefault, ← hnot d hd s hs, hgap, hdefault] at hback
    exact hback rfl
  · by_cases hrows : rows d.2.1 = []
    · rw [hrows]
      rfl
    · have hback := any_of_perm hperm (q := isBackup) (fun _ _ _ => rfl) hempty (fun d hd s hs => by
        rw [noRoute_isBackup, noRoute_isBackup, hnot d hd s hs, Bool.and_eq_true,
          Bool.and_eq_true]
        exact fun h => ⟨h.1, all_mono (hsub d.2.1) h.2⟩) d hd hrows s hs
      rw [noRoute_isBackup, noRoute_isBackup, ← hnot d hd s hs, hgap] at hback
      exact hback hbackup

end Fewer

end SentinelNet.Blueprint
