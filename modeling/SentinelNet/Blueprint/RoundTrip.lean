import SentinelNet.Blueprint.Restore

/-!
# The groups of a restore

The operations of a restore come in five groups, and after each group the copies are known key by
key.  The old ids of locations that are gone come back where they are free; the others follow the
rule of `_free_id`, and the refs say what became of them.

* `applyFrom_loop`: a group of operations with an invariant.
* `exists_parted`, `exists_gone`, `exists_lost`, `exists_updated`, `exists_joined`: the groups.
-/

namespace SentinelNet.Blueprint

open Observability PyDict PyText Outcomes StepRuns

variable {lib : Library} {known : Known} {org : String} {probes : Probes}

/-! ## Groups of operations -/

theorem applyFrom_append {w w' : Work} {i : ℕ} {ops : List Json}
    (h : applyFrom lib probes org i w ops = .ok w') (ops' : List Json) :
    applyFrom lib probes org i w (ops ++ ops') =
      applyFrom lib probes org (i + ops.length) w' ops' := by
  induction ops generalizing i w with
  | nil =>
    rw [Except.ok.inj h]
    rfl
  | cons op ops ih =>
    cases hop : applyOp lib probes org w i op with
    | error e =>
      rw [applyFrom, hop] at h
      cases h
    | ok w₁ =>
      rw [applyFrom_cons hop] at h
      rw [List.cons_append, applyFrom_cons hop, ih h, List.length_cons, Nat.add_assoc,
        Nat.add_comm 1]

variable {α : Type}

/-- A group of operations, one for each element of a list, each of which can be applied to what the
ones before it leave behind. -/
theorem applyFrom_loop {f : α → Json} {I : List α → Work → Prop} {xs : List α}
    (hstep : ∀ done x rest w i, xs = done ++ x :: rest → I done w →
      ∃ w', applyOp lib probes org w i (f x) = .ok w' ∧ I (done ++ [x]) w')
    {w : Work} (h : I [] w) (i : ℕ) :
    ∃ w', applyFrom lib probes org i w (xs.map f) = .ok w' ∧ I xs w' := by
  have hfrom : ∀ (rest done : List α) (w : Work) (i : ℕ), xs = done ++ rest → I done w →
      ∃ w', applyFrom lib probes org i w (rest.map f) = .ok w' ∧ I xs w' := by
    intro rest
    induction rest with
    | nil =>
      intro done w i hxs hdone
      rw [hxs, List.append_nil]
      exact ⟨w, rfl, hdone⟩
    | cons x rest ih =>
      intro done w i hxs hdone
      obtain ⟨w₁, hop, hdone₁⟩ := hstep done x rest w i hxs hdone
      obtain ⟨w', hrun, hall⟩ := ih (done ++ [x]) w₁ (i + 1) (by simp [hxs]) hdone₁
      exact ⟨w', (applyFrom_cons hop).trans hrun, hall⟩
  exact hfrom xs [] w i rfl h

theorem exists_applyOp {w w' : Work} {i : ℕ} {ops : List Json}
    (h : applyFrom lib probes org i w ops = .ok w') {op : Json} (hop : op ∈ ops) :
    ∃ w₁ w₂ j, applyOp lib probes org w₁ j op = .ok w₂ := by
  induction ops generalizing i w with
  | nil => cases hop
  | cons x ops ih =>
    cases hx : applyOp lib probes org w i x with
    | error e =>
      rw [applyFrom, hx] at h
      cases h
    | ok w₁ =>
      rcases List.mem_cons.mp hop with rfl | hop
      · exact ⟨w, w₁, i, hx⟩
      · rw [applyFrom_cons hx] at h
        exact ih h hop

/-! ## Views -/

variable {k : String}

theorem mem_keys {d : Dict α} : k ∈ keys d ↔ ∃ v, get? d k = some v :=
  ⟨get?_of_mem_keys, fun ⟨_, hv⟩ => List.mem_map_of_mem (f := Prod.fst) (mem_of_get? hv)⟩

theorem get?_orgView_locations {locations : Dict Location} {links : Dict Link}
    (h : Unique locations) {l : Location} :
    get? (orgView locations links org).locations k = some l ↔
      get? locations k = some l ∧ l.org = org := by
  rw [orgView, h.get?_filter_eq_some, decide_eq_true_iff]

theorem get?_orgView_links {locations : Dict Location} {links : Dict Link}
    (h : Unique links) {l : Link} :
    get? (orgView locations links org).links k = some l ↔
      get? links k = some l ∧ l.org = org := by
  rw [orgView, h.get?_filter_eq_some, decide_eq_true_iff]

/-- A view that was recorded, with probes that there still are. -/
structure Snapshot (lib : Library) (known : Known) (org : String) (v : View) : Prop where
  linked : Linked v.locations v.links
  locationOrg : ∀ lid l, get? v.locations lid = some l → l.org = org
  linkOrg : ∀ k l, get? v.links k = some l → l.org = org
  slug : ∀ lid l, get? v.locations lid = some l → Slug lid
  fits : ∀ lid l, get? v.locations lid = some l → l.Fits lib known
  link : ∀ k l, get? v.links k = some l → l.kind ∈ kinds ∧ l.note.length ≤ maxNote

theorem Linked.orgView {locations : Dict Location} {links : Dict Link} (h : Linked locations links)
    (org : String) :
    Linked (orgView locations links org).locations (orgView locations links org).links where
  locationIds := h.locationIds.filter _
  linkIds := h.linkIds.filter _
  key k l hl := h.key k l ((get?_orgView_links h.linkIds).mp hl).1
  order k l hl := h.order k l ((get?_orgView_links h.linkIds).mp hl).1
  first k l hl := by
    obtain ⟨hl, horg⟩ := (get?_orgView_links h.linkIds).mp hl
    obtain ⟨v, hv, hvorg⟩ := h.first k l hl
    exact ⟨v, (get?_orgView_locations h.locationIds).mpr ⟨hv, hvorg.trans horg⟩, hvorg⟩
  second k l hl := by
    obtain ⟨hl, horg⟩ := (get?_orgView_links h.linkIds).mp hl
    obtain ⟨v, hv, hvorg⟩ := h.second k l hl
    exact ⟨v, (get?_orgView_locations h.locationIds).mpr ⟨hv, hvorg.trans horg⟩, hvorg⟩

theorem Recorded.snapshot {locations : Dict Location} {links : Dict Link}
    (h : Recorded lib locations links)
    (hprobes : ∀ lid l, get? (orgView locations links org).locations lid = some l →
      ∃ p ∈ known.probes, l.probe = .str p) :
    Snapshot lib known org (orgView locations links org) where
  linked := h.linked.orgView org
  locationOrg _ _ hl := ((get?_orgView_locations h.linked.locationIds).mp hl).2
  linkOrg _ _ hl := ((get?_orgView_links h.linked.linkIds).mp hl).2
  slug lid l hl := h.slug lid l ((get?_orgView_locations h.linked.locationIds).mp hl).1
  fits lid l hl :=
    { h.valid lid l ((get?_orgView_locations h.linked.locationIds).mp hl).1 with
      registered := hprobes lid l hl }
  link k l hl := h.link k l ((get?_orgView_links h.linked.linkIds).mp hl).1

variable {lid : String}

theorem View.location_eq {v : View} {l : Location}
    (h : get? v.locations lid = some l) : v.location lid = l := by
  rw [View.location, h]
  rfl

theorem View.link_eq {v : View} {l : Link} (h : get? v.links k = some l) : v.link k = l := by
  rw [View.link, h]
  rfl

/-! ## The lists of a restore -/

variable {current target : View}

theorem mem_sortedKeys {d : Dict α} : k ∈ sortedKeys d ↔ k ∈ keys d :=
  List.mem_insertionSort _

theorem sortedKeys_sorted {d : Dict α} (h : Unique d) : (sortedKeys d).Pairwise (· < ·) := by
  have hle : (sortedKeys d).Pairwise (· ≤ ·) := List.pairwise_insertionSort (· ≤ ·) _
  have hnodup : (sortedKeys d).Nodup :=
    (List.perm_insertionSort (· ≤ ·) (keys d)).nodup_iff.mpr h
  exact hle.imp₂ (fun a b hle hne => lt_of_le_of_ne hle hne) hnodup

theorem mem_partedLinks : k ∈ partedLinks current target ↔
    k ∈ keys current.links ∧ get? current.links k ≠ get? target.links k := by
  rw [partedLinks, List.mem_filter, mem_sortedKeys, decide_eq_true_iff]

theorem mem_goneLocations : lid ∈ goneLocations current target ↔
    lid ∈ keys current.locations ∧ lid ∉ keys target.locations := by
  rw [goneLocations, List.mem_filter, mem_sortedKeys, decide_eq_true_iff]

theorem mem_lostLocations : lid ∈ lostLocations current target ↔
    lid ∈ keys target.locations ∧ lid ∉ keys current.locations := by
  rw [lostLocations, List.mem_filter, mem_sortedKeys, decide_eq_true_iff]

theorem mem_changedLocations : lid ∈ changedLocations current target ↔
    lid ∈ keys current.locations ∧ lid ∈ keys target.locations ∧
      changedFields (current.location lid) (target.location lid) ≠ [] := by
  rw [changedLocations, List.mem_filter, mem_sortedKeys, decide_eq_true_iff]

theorem mem_lostLinks : k ∈ lostLinks current target ↔
    k ∈ keys target.links ∧ get? current.links k ≠ get? target.links k := by
  rw [lostLinks, List.mem_filter, mem_sortedKeys, decide_eq_true_iff]

theorem lt_of_sorted {l done rest : List String} {x : String} (h : l.Pairwise (· < ·))
    (hl : l = done ++ x :: rest) : ∀ y ∈ done, y < x := by
  intro y hy
  rw [hl] at h
  exact (List.pairwise_append.mp h).2.2 y hy x List.mem_cons_self

theorem ite_mem_concat (j k : String) (done : List String) (v : Option α) :
    (if j = k then none else if j ∈ done then none else v) =
      if j ∈ done ++ [k] then none else v := by
  by_cases hjk : j = k
  · simp [hjk]
  · by_cases hj : j ∈ done
    · simp [hj]
    · simp [hjk, hj]

theorem get?_target_of_not_parted {l : Link}
    (hl : get? current.links k = some l) (hk : k ∉ partedLinks current target) :
    get? target.links k = some l := by
  by_contra hne
  refine hk (mem_partedLinks.mpr ⟨mem_keys.mpr ⟨l, hl⟩, ?_⟩)
  rw [hl]
  exact Ne.symm hne

/-! ## The first two groups -/

section Groups

variable {locations : Dict Location} {links : Dict Link} (hS : Recorded lib locations links)
  (hT : Snapshot lib known org target)

/-- The copies without some of the links. -/
structure Parted (locations : Dict Location) (links : Dict Link) (done : List String)
    (w : Work) : Prop where
  locations : w.locations = locations
  refs : w.refs = []
  linked : Linked w.locations w.links
  links : ∀ k, get? w.links k = if k ∈ done then none else get? links k

include hS in
/-- The links that differ are removed. -/
theorem exists_parted (i : ℕ) : ∃ w,
    applyFrom lib (some known.probes) org i ⟨locations, links, []⟩
        ((partedLinks (orgView locations links org) target).map removal) = .ok w ∧
      Parted locations links (partedLinks (orgView locations links org) target) w := by
  have hsorted : (partedLinks (orgView locations links org) target).Pairwise (· < ·) :=
    (sortedKeys_sorted (hS.linked.orgView org).linkIds).filter _
  refine applyFrom_loop (fun done k rest w i hxs h => ?_) ⟨rfl, rfl, hS.linked, fun k => ?_⟩ i
  · have hk : k ∈ partedLinks (orgView locations links org) target := by simp [hxs]
    obtain ⟨l, hl⟩ := mem_keys.mp (mem_partedLinks.mp hk).1
    obtain ⟨hl, horg⟩ := (get?_orgView_links hS.linked.linkIds).mp hl
    have hnot : k ∉ done := fun hmem => lt_irrefl k (lt_of_sorted hsorted hxs k hmem)
    have hget : get? w.links k = some l := by
      rw [h.links, if_neg hnot]
      exact hl
    refine ⟨_, applyOp_removal hget horg, h.locations, h.refs, h.linked.part k, fun j => ?_⟩
    rw [get?_del, h.links]
    exact ite_mem_concat j k done _
  · rw [if_neg List.not_mem_nil]

/-- The copies without some of the locations; the links are those that did not differ. -/
structure Gone (locations : Dict Location) (links : Dict Link) (parted done : List String)
    (w : Work) : Prop where
  locations : ∀ k, get? w.locations k = if k ∈ done then none else get? locations k
  refs : w.refs = []
  linked : Linked w.locations w.links
  links : ∀ k l, get? w.links k = some l ↔ get? links k = some l ∧ k ∉ parted

include hS hT in
/-- The locations that the snapshot does not have are deleted; no link goes with them, since the
links that are left are in the snapshot or belong to another organization. -/
theorem exists_gone (i : ℕ) {w₁ : Work}
    (h₁ : Parted locations links (partedLinks (orgView locations links org) target) w₁) : ∃ w,
    applyFrom lib (some known.probes) org i w₁
        ((goneLocations (orgView locations links org) target).map deletion) = .ok w ∧
      Gone locations links (partedLinks (orgView locations links org) target)
        (goneLocations (orgView locations links org) target) w := by
  have hsorted : (goneLocations (orgView locations links org) target).Pairwise (· < ·) :=
    (sortedKeys_sorted (hS.linked.orgView org).locationIds).filter _
  refine applyFrom_loop (fun done x rest w i hxs h => ?_) ⟨fun k => ?_, h₁.refs, h₁.linked, ?_⟩ i
  · have hx : x ∈ goneLocations (orgView locations links org) target := by simp [hxs]
    obtain ⟨hcur, hnot⟩ := mem_goneLocations.mp hx
    obtain ⟨l, hl⟩ := mem_keys.mp hcur
    obtain ⟨hl, horg⟩ := (get?_orgView_locations hS.linked.locationIds).mp hl
    have hdone : x ∉ done := fun hmem => lt_irrefl x (lt_of_sorted hsorted hxs x hmem)
    have hget : get? w.locations x = some l := by
      rw [h.locations, if_neg hdone]
      exact hl
    have href : get? w.refs x = none := by
      rw [h.refs]
      rfl
    -- A link of the organization that is left has its ends in the snapshot.
    have hfree : ∀ k u, get? w.links k = some u → u.a ≠ x ∧ u.b ≠ x := by
      intro k u hu
      obtain ⟨hlink, hparted⟩ := (h.links k u).mp hu
      have hin : u.org = org → u.a ∈ keys target.locations ∧ u.b ∈ keys target.locations := by
        intro huorg
        have htarget := get?_target_of_not_parted
          ((get?_orgView_links hS.linked.linkIds).mpr ⟨hlink, huorg⟩) hparted
        obtain ⟨va, hva, -⟩ := hT.linked.first k u htarget
        obtain ⟨vb, hvb, -⟩ := hT.linked.second k u htarget
        exact ⟨mem_keys.mpr ⟨va, hva⟩, mem_keys.mpr ⟨vb, hvb⟩⟩
      constructor
      · rintro rfl
        obtain ⟨v, hv, hvorg⟩ := h.linked.first k u hu
        rw [hget] at hv
        rw [← Option.some.inj hv] at hvorg
        exact hnot (hin (hvorg.symm.trans horg)).1
      · rintro rfl
        obtain ⟨v, hv, hvorg⟩ := h.linked.second k u hu
        rw [hget] at hv
        rw [← Option.some.inj hv] at hvorg
        exact hnot (hin (hvorg.symm.trans horg)).2
    refine ⟨_, applyOp_deletion ⟨l, hget, horg⟩ href, fun k => ?_, h.refs, h.linked.remove x,
      fun k u => ?_⟩
    · rw [Work.remove, get?_del, h.locations]
      exact ite_mem_concat k x done _
    · rw [get?_links_remove h.linked.linkIds]
      exact ⟨fun hu => (h.links k u).mp hu.1,
        fun hu => ⟨(h.links k u).mpr hu, hfree k u ((h.links k u).mpr hu)⟩⟩
  · rw [if_neg List.not_mem_nil, h₁.locations]
  · intro k l
    rw [h₁.links]
    by_cases hk : k ∈ partedLinks (orgView locations links org) target
    · rw [if_pos hk]
      exact ⟨fun h => (by cases h), fun h => absurd hk h.2⟩
    · rw [if_neg hk]
      exact ⟨fun h => ⟨h, hk⟩, fun h => h.1⟩

/-! ## The locations that are created again -/

/-- An id that stays: there now, and not deleted by the restore. -/
def Stays (locations : Dict Location) (current target : View) (k : String) : Prop :=
  k ∈ keys locations ∧ k ∉ goneLocations current target

/-- A new id does not take the old id of another location that is to be created: before the old id
of such a location, the numbers behind an id that stays have come to one that does not stay. -/
def Apart (locations : Dict Location) (current target : View) : Prop :=
  ∀ lid ∈ lostLocations current target, Stays locations current target lid →
    ∀ n, candidateId lid (n + 1) ∈ lostLocations current target →
      ¬ Stays locations current target (candidateId lid (n + 1)) →
        ∃ m ≤ n, ¬ Stays locations current target (candidateId lid m)

/-- The copies with some of the lost locations. -/
structure Created (locations : Dict Location) (links : Dict Link) (current target : View)
    (done : List String) (w : Work) : Prop where
  linked : Linked w.locations w.links
  slug : ∀ k l, get? w.locations k = some l → Slug k
  getLink : ∀ k l, get? w.links k = some l ↔
    get? links k = some l ∧ k ∉ partedLinks current target
  getLocation : ∀ k l, get? w.locations k = some l ↔
    (k ∉ goneLocations current target ∧ get? locations k = some l) ∨
      ∃ x ∈ done, get? w.refs ("+" ++ x) = some k ∧ l = target.location x
  refs : ∀ ref id, get? w.refs ref = some id → ∃ x ∈ done, ref = "+" ++ x
  ref : ∀ x ∈ done, ∃ n, get? w.refs ("+" ++ x) = some (candidateId x n) ∧
    ¬ Stays locations current target (candidateId x n) ∧
      ∀ m, 0 < m → m < n → Stays locations current target (candidateId x m)
  inj : ∀ x ∈ done, ∀ y ∈ done, ∀ id, get? w.refs ("+" ++ x) = some id →
    get? w.refs ("+" ++ y) = some id → x = y
  clean : Apart locations current target → ∀ x ∈ done,
    ¬ Stays locations current target x → get? w.refs ("+" ++ x) = some x

variable {x : String}

theorem ref_injective {y : String} (h : "+" ++ x = "+" ++ y) : x = y := by
  have hlist := congrArg String.toList h
  rw [String.toList_append, String.toList_append] at hlist
  exact String.toList_injective (List.append_cancel_left hlist)

variable {done : List String} {w : Work} {k : String}

theorem Created.mem_keys (h : Created locations links current target done w) :
    k ∈ keys w.locations ↔ Stays locations current target k ∨
      ∃ y ∈ done, get? w.refs ("+" ++ y) = some k := by
  rw [Blueprint.mem_keys]
  constructor
  · rintro ⟨l, hl⟩
    rcases (h.getLocation k l).mp hl with ⟨hgone, hl⟩ | ⟨y, hy, href, -⟩
    · exact Or.inl ⟨Blueprint.mem_keys.mpr ⟨l, hl⟩, hgone⟩
    · exact Or.inr ⟨y, hy, href⟩
  · rintro (⟨hkey, hgone⟩ | ⟨y, hy, href⟩)
    · obtain ⟨l, hl⟩ := Blueprint.mem_keys.mp hkey
      exact ⟨l, (h.getLocation k l).mpr (Or.inl ⟨hgone, hl⟩)⟩
    · exact ⟨_, (h.getLocation k _).mpr (Or.inr ⟨y, hy, href, rfl⟩)⟩

theorem idFor_spec (w : Work) (x : String) : ∃ n, w.idFor x = candidateId x n ∧
    w.idFor x ∉ keys w.locations ∧ ∀ m < n, candidateId x m ∈ keys w.locations := by
  rw [Work.idFor]
  split
  · obtain ⟨n, hn, hfree, hbefore⟩ :=
      FreshNames.exists_firstFree (candidateId_injective x) (keys w.locations)
    refine ⟨n, hn, ?_, hbefore⟩
    rw [freeId, hn]
    exact hfree
  · next hfree => exact ⟨0, rfl, hfree, fun m hm => absurd hm (Nat.not_lt_zero m)⟩

/-- A number behind an id is taken by what stays only: what was created before has another
beginning. -/
theorem Created.stays_candidate
    (h : Created locations links current target done w) (hlt : ∀ y ∈ done, y < x) {m : ℕ}
    (hkey : candidateId x (m + 1) ∈ keys w.locations) :
    Stays locations current target (candidateId x (m + 1)) := by
  rcases h.mem_keys.mp hkey with hstay | ⟨y, hy, href⟩
  · exact hstay
  · obtain ⟨n, hn, -, -⟩ := h.ref y hy
    rw [hn] at href
    have heq := Option.some.inj href
    cases n with
    | zero =>
      have hxy := lt_candidateId x m
      rw [← heq] at hxy
      exact absurd (hlt y hy) (lt_asymm hxy)
    | succ n =>
      rw [candidateId_succ_injective heq] at hy
      exact absurd (hlt x hy) (lt_irrefl x)

include hT in
theorem Created.create {rest : List String}
    (hxs : lostLocations (orgView locations links org) target = done ++ x :: rest)
    (h : Created locations links (orgView locations links org) target done w) :
    Created locations links (orgView locations links org) target (done ++ [x])
      { locations := set w.locations (w.idFor x) (target.location x)
        links := w.links
        refs := set w.refs ("+" ++ x) (w.idFor x) } := by
  have hsorted : (lostLocations (orgView locations links org) target).Pairwise (· < ·) :=
    (sortedKeys_sorted hT.linked.locationIds).filter _
  have hlt := lt_of_sorted hsorted hxs
  have hnot : x ∉ done := fun hmem => lt_irrefl x (hlt x hmem)
  have hx : x ∈ lostLocations (orgView locations links org) target := by simp [hxs]
  obtain ⟨t, ht⟩ := Blueprint.mem_keys.mp (mem_lostLocations.mp hx).1
  obtain ⟨n, hid, hfree, hbefore⟩ := idFor_spec w x
  have hrefs : ∀ y, get? (set w.refs ("+" ++ x) (w.idFor x)) ("+" ++ y) =
      if y = x then some (w.idFor x) else get? w.refs ("+" ++ y) := by
    intro y
    rw [get?_set]
    by_cases hyx : y = x
    · rw [hyx, if_pos rfl, if_pos rfl]
    · rw [if_neg fun heq => hyx (ref_injective heq), if_neg hyx]
  have hold : ∀ y ∈ done, get? (set w.refs ("+" ++ x) (w.idFor x)) ("+" ++ y) =
      get? w.refs ("+" ++ y) := by
    intro y hy
    rw [hrefs, if_neg]
    rintro rfl
    exact hnot hy
  have hnew : get? (set w.refs ("+" ++ x) (w.idFor x)) ("+" ++ x) = some (w.idFor x) := by
    rw [hrefs, if_pos rfl]
  have hfresh : ¬ Stays locations (orgView locations links org) target (w.idFor x) :=
    fun hstay => hfree (h.mem_keys.mpr (Or.inl hstay))
  have hother : ∀ y ∈ done, get? w.refs ("+" ++ y) ≠ some (w.idFor x) :=
    fun y hy href => hfree (h.mem_keys.mpr (Or.inr ⟨y, hy, href⟩))
  refine ⟨h.linked.create hfree _, fun k l hl => ?_, h.getLink, fun k l => ?_, fun ref id hid' => ?_,
    fun y hy => ?_, fun y hy z hz id hidy hidz => ?_, fun hapart y hy hstay => ?_⟩
  · have hget : get? (set w.locations (w.idFor x) (target.location x)) k = some l := hl
    rw [get?_set] at hget
    split at hget
    · next hk =>
      rw [hk, hid]
      exact (hT.slug x t ht).candidate n
    · exact h.slug k l hget
  · change get? (set w.locations (w.idFor x) (target.location x)) k = some l ↔ _
    rw [get?_set]
    constructor
    · intro hget
      split at hget
      · next hk =>
        refine Or.inr ⟨x, by simp, ?_, (Option.some.inj hget).symm⟩
        rw [hk]
        exact hnew
      · rcases (h.getLocation k l).mp hget with hstay | ⟨y, hy, href, hl⟩
        · exact Or.inl hstay
        · exact Or.inr ⟨y, List.mem_append_left _ hy, (hold y hy).trans href, hl⟩
    · rintro (hstay | ⟨y, hy, href, hl⟩)
      · have hk : k ≠ w.idFor x := by
          rintro rfl
          exact hfree (Blueprint.mem_keys.mpr ⟨l, (h.getLocation _ l).mpr (Or.inl hstay)⟩)
        rw [if_neg hk]
        exact (h.getLocation k l).mpr (Or.inl hstay)
      · rcases List.mem_append.mp hy with hy | hy
        · have href' := (hold y hy).symm.trans href
          have hk : k ≠ w.idFor x := by
            rintro rfl
            exact hother y hy href'
          rw [if_neg hk]
          exact (h.getLocation k l).mpr (Or.inr ⟨y, hy, href', hl⟩)
        · obtain rfl := List.mem_singleton.mp hy
          rw [if_pos (Option.some.inj (href.symm.trans hnew)), hl]
  · have hget : get? (set w.refs ("+" ++ x) (w.idFor x)) ref = some id := hid'
    rw [get?_set] at hget
    split at hget
    · next href => exact ⟨x, by simp, href⟩
    · obtain ⟨y, hy, href⟩ := h.refs ref id hget
      exact ⟨y, List.mem_append_left _ hy, href⟩
  · rcases List.mem_append.mp hy with hy | hy
    · obtain ⟨m, hm, hrest⟩ := h.ref y hy
      exact ⟨m, (hold y hy).trans hm, hrest⟩
    · obtain rfl := List.mem_singleton.mp hy
      refine ⟨n, hnew.trans (congrArg some hid), hid ▸ hfresh, fun m hm hmn => ?_⟩
      obtain ⟨m, rfl⟩ := Nat.exists_eq_succ_of_ne_zero (Nat.pos_iff_ne_zero.mp hm)
      exact h.stays_candidate hlt (hbefore _ hmn)
  · rcases List.mem_append.mp hy with hy' | hy' <;> rcases List.mem_append.mp hz with hz' | hz'
    · exact h.inj y hy' z hz' id ((hold y hy').symm.trans hidy) ((hold z hz').symm.trans hidz)
    · rw [List.mem_singleton.mp hz'] at hidz
      have hidx := Option.some.inj (hnew.symm.trans hidz)
      exact absurd ((hold y hy').symm.trans hidy) (hidx ▸ hother y hy')
    · rw [List.mem_singleton.mp hy'] at hidy
      have hidx := Option.some.inj (hnew.symm.trans hidy)
      exact absurd ((hold z hz').symm.trans hidz) (hidx ▸ hother z hz')
    · rw [List.mem_singleton.mp hy', List.mem_singleton.mp hz']
  · rcases List.mem_append.mp hy with hy | hy
    · exact (hold y hy).trans (h.clean hapart y hy hstay)
    · obtain rfl := List.mem_singleton.mp hy
      refine hnew.trans (congrArg some ?_)
      rw [Work.idFor, if_neg]
      -- Its old id could only be the new id of a location before it.
      intro hkey
      rcases h.mem_keys.mp hkey with hstay' | ⟨z, hz, href⟩
      · exact hstay hstay'
      · obtain ⟨m, hm, hfreshz, hbetween⟩ := h.ref z hz
        rw [hm] at href
        have heq := Option.some.inj href
        by_cases hstayz : Stays locations (orgView locations links org) target z
        · cases m with
          | zero => exact hfreshz hstayz
          | succ m =>
            rw [← heq] at hx hstay
            have hzlost : z ∈ lostLocations (orgView locations links org) target := by
              rw [hxs]
              exact List.mem_append_left _ hz
            obtain ⟨j, hj, hnotstay⟩ := hapart z hzlost hstayz m hx hstay
            cases j with
            | zero => exact hnotstay hstayz
            | succ j => exact hnotstay (hbetween (j + 1) (Nat.succ_pos j) (by omega))
        · have hclean := h.clean hapart z hz hstayz
          rw [hm] at hclean
          rw [← heq, Option.some.inj hclean] at hnot
          exact hnot hz

include hS hT in
/-- The lost locations are created again. -/
theorem exists_lost (i : ℕ) {w₂ : Work}
    (hlen : ∀ lid ∈ lostLocations (orgView locations links org) target,
      (target.location lid).name.length ≤ maxName)
    (h₂ : Gone locations links (partedLinks (orgView locations links org) target)
      (goneLocations (orgView locations links org) target) w₂) : ∃ w,
    applyFrom lib (some known.probes) org i w₂
        ((lostLocations (orgView locations links org) target).map fun lid =>
          creation lid (target.location lid)) = .ok w ∧
      Created locations links (orgView locations links org) target
        (lostLocations (orgView locations links org) target) w := by
  have hback : ∀ k l, get? w₂.locations k = some l ↔
      k ∉ goneLocations (orgView locations links org) target ∧ get? locations k = some l := by
    intro k l
    rw [h₂.locations]
    split
    · next hk => exact ⟨fun h => (nomatch h), fun h => absurd hk h.1⟩
    · next hk => exact ⟨fun h => ⟨hk, h⟩, fun h => h.2⟩
  have hstart : Created locations links (orgView locations links org) target [] w₂ := by
    refine ⟨h₂.linked, fun k l hl => hS.slug k l ((hback k l).mp hl).2, h₂.links, fun k l => ?_,
      fun ref id hid => ?_, fun x hx => absurd hx List.not_mem_nil,
      fun x hx => absurd hx List.not_mem_nil, fun _ x hx => absurd hx List.not_mem_nil⟩
    · rw [hback]
      exact ⟨Or.inl, fun h => h.resolve_right fun ⟨x, hx, _⟩ => nomatch hx⟩
    · rw [h₂.refs] at hid
      cases hid
  refine applyFrom_loop (fun done x rest w i hxs h => ?_) hstart i
  have hx : x ∈ lostLocations (orgView locations links org) target := by simp [hxs]
  obtain ⟨t, ht⟩ := Blueprint.mem_keys.mp (mem_lostLocations.mp hx).1
  have hsorted : (lostLocations (orgView locations links org) target).Pairwise (· < ·) :=
    (sortedKeys_sorted hT.linked.locationIds).filter _
  have hnot : x ∉ done := fun hmem => lt_irrefl x (lt_of_sorted hsorted hxs x hmem)
  have href : has w.refs ("+" ++ x) = false := by
    cases hget : get? w.refs ("+" ++ x) with
    | none =>
      rw [has, hget]
      rfl
    | some id =>
      obtain ⟨y, hy, heq⟩ := h.refs _ _ hget
      exact absurd (ref_injective heq ▸ hy) hnot
  have htarget := View.location_eq ht
  have hop := applyOp_creation (i := i) (htarget ▸ hT.fits x t ht) (hlen x hx)
    (htarget ▸ hT.locationOrg x t ht) (hT.slug x t ht) href
  exact ⟨_, hop, h.create hT hxs⟩

/-! ## The locations that differ -/

/-- The copies with some of the locations as they were. -/
structure Updated (target : View) (w₃ : Work) (done : List String) (w : Work) : Prop where
  linked : Linked w.locations w.links
  links : w.links = w₃.links
  refs : w.refs = w₃.refs
  locations : ∀ k, get? w.locations k =
    if k ∈ done then some (target.location k) else get? w₃.locations k

theorem Created.ref_slug (h : Created locations links current target done w) (hx : Slug x) :
    get? w.refs x = none := by
  cases hget : get? w.refs x with
  | none => rfl
  | some id =>
    obtain ⟨y, -, rfl⟩ := h.refs x id hget
    have hnot := hx.not_ref
    rw [startsWith_plus] at hnot
    cases hnot

include hS hT in
/-- The locations that differ get their old fields. -/
theorem exists_updated (i : ℕ) {w₃ : Work}
    (hlen : ∀ lid ∈ changedLocations (orgView locations links org) target,
      ((orgView locations links org).location lid).name ≠ (target.location lid).name →
        (target.location lid).name.length ≤ maxName)
    (h₃ : Created locations links (orgView locations links org) target
      (lostLocations (orgView locations links org) target) w₃) : ∃ w,
    applyFrom lib (some known.probes) org i w₃
        ((changedLocations (orgView locations links org) target).map fun lid =>
          update lid ((orgView locations links org).location lid) (target.location lid)) = .ok w ∧
      Updated target w₃ (changedLocations (orgView locations links org) target) w := by
  have hsorted : (changedLocations (orgView locations links org) target).Pairwise (· < ·) :=
    (sortedKeys_sorted (hS.linked.orgView org).locationIds).filter _
  refine applyFrom_loop (fun done x rest w i hxs h => ?_) ⟨h₃.linked, rfl, rfl, fun k => ?_⟩ i
  · have hx : x ∈ changedLocations (orgView locations links org) target := by simp [hxs]
    obtain ⟨hcur, htar, hdiff⟩ := mem_changedLocations.mp hx
    obtain ⟨c, hc⟩ := Blueprint.mem_keys.mp hcur
    obtain ⟨t, ht⟩ := Blueprint.mem_keys.mp htar
    obtain ⟨hget, hcorg⟩ := (get?_orgView_locations hS.linked.locationIds).mp hc
    have hcurrent := View.location_eq hc
    have htarget := View.location_eq ht
    have hnot : x ∉ done := fun hmem => lt_irrefl x (lt_of_sorted hsorted hxs x hmem)
    have hgone : x ∉ goneLocations (orgView locations links org) target := fun hgone =>
      (mem_goneLocations.mp hgone).2 htar
    have hw : get? w.locations x = some c := by
      rw [h.locations, if_neg hnot]
      exact (h₃.getLocation x c).mpr (Or.inl ⟨hgone, hget⟩)
    have href : get? w.refs x = none := by
      rw [h.refs]
      exact h₃.ref_slug (hT.slug x t ht)
    have hname := hlen x hx
    rw [hcurrent, htarget] at hname hdiff
    have hop := applyOp_update (i := i) (hT.fits x t ht) hname hw hcorg (hT.locationOrg x t ht) href
      hdiff
    have hlinked : Linked (set w.locations x t) w.links := by
      have hchange := h.linked.change hw (t.given (changedFields c t))
      rwa [update_given_changed (hcorg.trans (hT.locationOrg x t ht).symm)] at hchange
    rw [← hcurrent, ← htarget] at hop
    rw [← htarget] at hlinked
    refine ⟨_, hop, hlinked, h.links, h.refs, fun k => ?_⟩
    change get? (set w.locations x (target.location x)) k = _
    rw [get?_set, h.locations]
    by_cases hk : k = x
    · simp [hk]
    · by_cases hkd : k ∈ done
      · simp [hk, hkd]
      · simp [hk, hkd]
  · rw [if_neg List.not_mem_nil]

/-! ## Names -/

/-- What became of an id: the ref says it where the location was created again. -/
def Work.newName (w : Work) (x : String) : String := (get? w.refs ("+" ++ x)).getD x

structure Placed (org : String) (links : Dict Link) (current target : View) (w : Work) : Prop where
  linked : Linked w.locations w.links
  slug : ∀ k l, get? w.locations k = some l → Slug k
  getLink : ∀ k l, get? w.links k = some l ↔
    get? links k = some l ∧ k ∉ partedLinks current target
  own : ∀ x ∈ keys target.locations, w.Own org (w.newName x)
  resolve : ∀ x ∈ keys target.locations, ∀ i, locId org w i
    (.str (if x ∈ lostLocations current target then "+" ++ x else x)) = .ok (w.newName x)
  inj : ∀ x ∈ keys target.locations, ∀ y ∈ keys target.locations,
    w.newName x = w.newName y → x = y
  same : ∀ x, x ∉ lostLocations current target → w.newName x = x
  place : ∀ k l, (get? w.locations k = some l ∧ l.org = org) ↔
    ∃ x, get? target.locations x = some l ∧ w.newName x = k

theorem View.location_mem {v : View} {lid : String} (h : lid ∈ keys v.locations) :
    get? v.locations lid = some (v.location lid) := by
  obtain ⟨l, hl⟩ := Blueprint.mem_keys.mp h
  rw [View.location_eq hl]
  exact hl

theorem eq_of_changedFields {c t : Location} (h : changedFields c t = []) (horg : c.org = t.org) :
    c = t := by
  have hupdate := update_given_changed horg
  rw [h, given_nil] at hupdate
  exact hupdate

theorem stays_of_mem (h : Unique locations)
    (hcur : k ∈ keys (orgView locations links org).locations) (htar : k ∈ keys target.locations) :
    Stays locations (orgView locations links org) target k := by
  obtain ⟨l, hl⟩ := Blueprint.mem_keys.mp hcur
  exact ⟨Blueprint.mem_keys.mpr ⟨l, ((get?_orgView_locations h).mp hl).1⟩,
    fun hgone => (mem_goneLocations.mp hgone).2 htar⟩

include hS hT in
theorem placed_of_updated {w₃ : Work}
    (h₃ : Created locations links (orgView locations links org) target
      (lostLocations (orgView locations links org) target) w₃)
    (h : Updated target w₃ (changedLocations (orgView locations links org) target) w) :
    Placed org links (orgView locations links org) target w := by
  have hnew : ∀ x, w.newName x = w₃.newName x := fun x => by rw [Work.newName, Work.newName, h.refs]
  have hsame : ∀ x, x ∉ lostLocations (orgView locations links org) target → w.newName x = x := by
    intro x hx
    rw [hnew, Work.newName]
    cases hget : get? w₃.refs ("+" ++ x) with
    | none => rfl
    | some id =>
      obtain ⟨y, hy, heq⟩ := h₃.refs _ _ hget
      exact absurd (ref_injective heq ▸ hy) hx
  have hlost : ∀ x ∈ lostLocations (orgView locations links org) target,
      get? w.refs ("+" ++ x) = some (w.newName x) ∧
        ¬ Stays locations (orgView locations links org) target (w.newName x) ∧
          ∃ n, w.newName x = candidateId x n := by
    intro x hx
    obtain ⟨n, hn, hfresh, -⟩ := h₃.ref x hx
    have hname : w.newName x = candidateId x n := by
      rw [hnew, Work.newName, hn]
      rfl
    rw [h.refs, hname]
    exact ⟨hn, hfresh, n, rfl⟩
  have hkept : ∀ x ∈ keys target.locations,
      x ∉ lostLocations (orgView locations links org) target →
        x ∈ keys (orgView locations links org).locations := by
    intro x hx hnot
    by_contra hcur
    exact hnot (mem_lostLocations.mpr ⟨hx, hcur⟩)
  have hplace : ∀ x t, get? target.locations x = some t →
      get? w.locations (w.newName x) = some t := by
    intro x t ht
    have hx := Blueprint.mem_keys.mpr ⟨t, ht⟩
    rw [h.locations]
    by_cases hxl : x ∈ lostLocations (orgView locations links org) target
    · obtain ⟨href, hfresh, -⟩ := hlost x hxl
      have hnot : w.newName x ∉ changedLocations (orgView locations links org) target := by
        intro hchanged
        obtain ⟨hcur, htar, -⟩ := mem_changedLocations.mp hchanged
        exact hfresh (stays_of_mem hS.linked.locationIds hcur htar)
      rw [if_neg hnot]
      rw [h.refs] at href
      exact (h₃.getLocation _ t).mpr (Or.inr ⟨x, hxl, href, (View.location_eq ht).symm⟩)
    · have hcur := hkept x hx hxl
      have hstays := stays_of_mem hS.linked.locationIds hcur hx
      obtain ⟨c, hc⟩ := Blueprint.mem_keys.mp hcur
      obtain ⟨hget, hcorg⟩ := (get?_orgView_locations hS.linked.locationIds).mp hc
      rw [hsame x hxl]
      split
      · rw [View.location_eq ht]
      · next hchanged =>
        have hfields : changedFields c t = [] := by
          by_contra hne
          refine hchanged (mem_changedLocations.mpr ⟨hcur, hx, ?_⟩)
          rw [View.location_eq hc, View.location_eq ht]
          exact hne
        rw [← eq_of_changedFields hfields (hcorg.trans (hT.locationOrg x t ht).symm)]
        exact (h₃.getLocation x c).mpr (Or.inl ⟨hstays.2, hget⟩)
  have hown : ∀ x ∈ keys target.locations, w.Own org (w.newName x) := by
    intro x hx
    obtain ⟨t, ht⟩ := Blueprint.mem_keys.mp hx
    exact ⟨t, hplace x t ht, hT.locationOrg x t ht⟩
  refine ⟨h.linked, fun k l hl => ?_, fun k l => ?_, hown, fun x hx i => ?_, fun x hx y hy hxy => ?_,
    hsame, fun k l => ⟨fun ⟨hl, horg⟩ => ?_, fun ⟨x, hx, hk⟩ => ?_⟩⟩
  · rw [h.locations] at hl
    split at hl
    · next hk =>
      exact hT.slug k _ (View.location_mem (mem_changedLocations.mp hk).2.1)
    · exact h₃.slug k l hl
  · rw [h.links]
    exact h₃.getLink k l
  · split
    · next hxl => exact locId_ref (hown x hx) (hlost x hxl).1
    · next hxl =>
      obtain ⟨t, ht⟩ := Blueprint.mem_keys.mp hx
      have href : get? w.refs x = none := by
        rw [h.refs]
        exact h₃.ref_slug (hT.slug x t ht)
      have hownx := hown x hx
      rw [hsame x hxl] at hownx ⊢
      exact locId_own hownx href
  · by_cases hxl : x ∈ lostLocations (orgView locations links org) target
    · by_cases hyl : y ∈ lostLocations (orgView locations links org) target
      · have hrefx := (hlost x hxl).1
        have hrefy := (hlost y hyl).1
        rw [h.refs] at hrefx hrefy
        exact h₃.inj x hxl y hyl _ hrefx (hxy ▸ hrefy)
      · rw [hsame y hyl] at hxy
        exact absurd (stays_of_mem hS.linked.locationIds (hkept y hy hyl) hy)
          (hxy ▸ (hlost x hxl).2.1)
    · rw [hsame x hxl] at hxy
      by_cases hyl : y ∈ lostLocations (orgView locations links org) target
      · exact absurd (stays_of_mem hS.linked.locationIds (hkept x hx hxl) hx)
          (hxy ▸ (hlost y hyl).2.1)
      · rwa [hsame y hyl] at hxy
  · have hget := hl
    rw [h.locations] at hget
    split at hget
    · next hk =>
      have htar := (mem_changedLocations.mp hk).2.1
      have hkl : k ∉ lostLocations (orgView locations links org) target := fun hkl =>
        (mem_lostLocations.mp hkl).2 (mem_changedLocations.mp hk).1
      refine ⟨k, ?_, hsame k hkl⟩
      rw [← Option.some.inj hget]
      exact View.location_mem htar
    · rcases (h₃.getLocation k l).mp hget with ⟨hgone, hk⟩ | ⟨x, hx, href, rfl⟩
      · have hcur : k ∈ keys (orgView locations links org).locations := Blueprint.mem_keys.mpr
          ⟨l, (get?_orgView_locations hS.linked.locationIds).mpr ⟨hk, horg⟩⟩
        have htar : k ∈ keys target.locations := by
          by_contra hnot
          exact hgone (mem_goneLocations.mpr ⟨hcur, hnot⟩)
        have hkl : k ∉ lostLocations (orgView locations links org) target := fun hkl =>
          (mem_lostLocations.mp hkl).2 hcur
        have hkt := hplace k _ (View.location_mem htar)
        rw [hsame k hkl, hl] at hkt
        refine ⟨k, ?_, hsame k hkl⟩
        rw [Option.some.inj hkt]
        exact View.location_mem htar
      · refine ⟨x, View.location_mem (mem_lostLocations.mp hx).1, ?_⟩
        have hrefx := (hlost x hx).1
        rw [h.refs, href] at hrefx
        exact (Option.some.inj hrefx).symm
  · rw [← hk]
    exact ⟨hplace x l hx, hT.locationOrg x l hx⟩

/-! ## The links that are missing -/

/-- The key of a link whose ends have new ids. -/
def Link.keyFor (l : Link) (name : String → String) : String := linkId (name l.a) (name l.b) l.kind

/-- A link whose ends have new ids. -/
def Link.renamed (l : Link) (name : String → String) : Link :=
  { l with
    a := (ordered (name l.a) (name l.b)).1
    b := (ordered (name l.a) (name l.b)).2 }

/-- The copies with some of the missing links. -/
structure Joined (org : String) (current target : View) (w₄ : Work) (done : List String)
    (w : Work) : Prop where
  locations : w.locations = w₄.locations
  refs : w.refs = w₄.refs
  linked : Linked w.locations w.links
  place : ∀ k l, (get? w.links k = some l ∧ l.org = org) ↔
    ∃ k₀ l₀, (k₀ ∈ done ∨ k₀ ∉ lostLinks current target) ∧ get? target.links k₀ = some l₀ ∧
      l = l₀.renamed w₄.newName ∧ k = l₀.keyFor w₄.newName

theorem ordered_pair {a b c d : String} (h : ordered a b = ordered c d) :
    (a = c ∧ b = d) ∨ (a = d ∧ b = c) := by
  rw [ordered, ordered] at h
  split at h <;> split at h <;> simp only [Prod.mk.injEq] at h <;> tauto

include hT in
theorem Placed.link_eq {current : View} (h : Placed org links current target w)
    {k' : String} {l l' : Link} (hl : get? target.links k = some l)
    (hl' : get? target.links k' = some l')
    (hends : ordered (w.newName l.a) (w.newName l.b) = ordered (w.newName l'.a) (w.newName l'.b))
    (hkind : l.kind = l'.kind) : k = k' := by
  obtain ⟨va, hva, -⟩ := hT.linked.first k l hl
  obtain ⟨vb, hvb, -⟩ := hT.linked.second k l hl
  obtain ⟨va', hva', -⟩ := hT.linked.first k' l' hl'
  obtain ⟨vb', hvb', -⟩ := hT.linked.second k' l' hl'
  have ha := Blueprint.mem_keys.mpr ⟨va, hva⟩
  have hb := Blueprint.mem_keys.mpr ⟨vb, hvb⟩
  have ha' := Blueprint.mem_keys.mpr ⟨va', hva'⟩
  have hb' := Blueprint.mem_keys.mpr ⟨vb', hvb'⟩
  rw [hT.linked.key k l hl, hT.linked.key k' l' hl', hkind]
  rcases ordered_pair hends with ⟨hfirst, hsecond⟩ | ⟨hfirst, hsecond⟩
  · rw [h.inj _ ha _ ha' hfirst, h.inj _ hb _ hb' hsecond]
  · rw [h.inj _ ha _ hb' hfirst, h.inj _ hb _ ha' hsecond, linkId, linkId, ordered_comm]

include hT in
theorem Placed.ends {current : View} (h : Placed org links current target w)
    {l : Link} (hl : get? target.links k = some l) :
    l.a ∈ keys target.locations ∧ l.b ∈ keys target.locations ∧
      w.newName l.a ≠ w.newName l.b := by
  obtain ⟨va, hva, -⟩ := hT.linked.first k l hl
  obtain ⟨vb, hvb, -⟩ := hT.linked.second k l hl
  have ha := Blueprint.mem_keys.mpr ⟨va, hva⟩
  have hb := Blueprint.mem_keys.mpr ⟨vb, hvb⟩
  exact ⟨ha, hb, fun heq => ne_of_lt (hT.linked.order k l hl) (h.inj _ ha _ hb heq)⟩

theorem Placed.slug_newName {current : View} (h : Placed org links current target w)
    (hx : x ∈ keys target.locations) : Slug (w.newName x) := by
  obtain ⟨l, hl, -⟩ := h.own x hx
  exact h.slug _ l hl

include hT in
theorem Joined.keyFor_free {current : View} {w₄ : Work} {rest : List String}
    {t : Link} (h₄ : Placed org links current target w₄)
    (hks : lostLinks current target = done ++ k :: rest) (ht : get? target.links k = some t)
    (h : Joined org current target w₄ done w) : get? w.links (t.keyFor w₄.newName) = none := by
  have hsorted : (lostLinks current target).Pairwise (· < ·) :=
    (sortedKeys_sorted hT.linked.linkIds).filter _
  have hk : k ∈ lostLinks current target := by simp [hks]
  obtain ⟨ha, hb, -⟩ := h₄.ends hT ht
  cases hget : get? w.links (t.keyFor w₄.newName) with
  | none => rfl
  | some u =>
    exfalso
    obtain ⟨va, hva, hvaorg⟩ := h.linked.first _ u hget
    obtain ⟨vb, hvb, -⟩ := h.linked.second _ u hget
    have hslugs : Slug u.a ∧ Slug u.b := by
      rw [h.locations] at hva hvb
      exact ⟨h₄.slug _ va hva, h₄.slug _ vb hvb⟩
    obtain ⟨hends, hkind⟩ := linkId_injective (h₄.slug_newName ha) (h₄.slug_newName hb) hslugs.1
      hslugs.2 (h.linked.key _ u hget)
    by_cases horg : u.org = org
    · obtain ⟨k', t', hk', ht', rfl, -⟩ := (h.place _ u).mp ⟨hget, horg⟩
      have hsame : k = k' := by
        refine h₄.link_eq hT ht ht' ?_ hkind
        have hordered : ordered (t'.renamed w₄.newName).a (t'.renamed w₄.newName).b =
            ordered (w₄.newName t'.a) (w₄.newName t'.b) :=
          ordered_of_lt (ordered_lt (h₄.ends hT ht').2.2)
        exact hends.trans hordered
      rcases hk' with hk' | hk'
      · exact lt_irrefl k (lt_of_sorted hsorted hks k (hsame ▸ hk'))
      · exact hk' (hsame ▸ hk)
    · -- Its first end belongs to the organization.
      have hend : u.a = w₄.newName t.a ∨ u.a = w₄.newName t.b := by
        rcases ordered_pair hends with ⟨hfirst, -⟩ | ⟨-, hsecond⟩
        · exact Or.inl hfirst.symm
        · exact Or.inr hsecond.symm
      have hown : w₄.Own org u.a := by
        rcases hend with heq | heq
        · rw [heq]
          exact h₄.own _ ha
        · rw [heq]
          exact h₄.own _ hb
      obtain ⟨v, hv, hvorg⟩ := hown
      rw [h.locations, hv] at hva
      rw [← Option.some.inj hva, hvorg] at hvaorg
      exact horg hvaorg.symm

include hS hT in
theorem Placed.joined (h : Placed org links (orgView locations links org) target w) :
    Joined org (orgView locations links org) target w [] w := by
  have hstay : ∀ k l, get? target.links k = some l →
      k ∉ lostLinks (orgView locations links org) target →
        get? (orgView locations links org).links k = some l := by
    intro k l hl hk
    by_contra hne
    refine hk (mem_lostLinks.mpr ⟨Blueprint.mem_keys.mpr ⟨l, hl⟩, ?_⟩)
    rw [hl]
    exact hne
  have hsame : ∀ k l, get? target.links k = some l →
      get? (orgView locations links org).links k = some l →
        l.renamed w.newName = l ∧ l.keyFor w.newName = k := by
    intro k l hl hcur
    obtain ⟨va, hva, -⟩ := (hS.linked.orgView org).first k l hcur
    obtain ⟨vb, hvb, -⟩ := (hS.linked.orgView org).second k l hcur
    have ha : w.newName l.a = l.a := h.same l.a fun hlost =>
      (mem_lostLocations.mp hlost).2 (Blueprint.mem_keys.mpr ⟨va, hva⟩)
    have hb : w.newName l.b = l.b := h.same l.b fun hlost =>
      (mem_lostLocations.mp hlost).2 (Blueprint.mem_keys.mpr ⟨vb, hvb⟩)
    rw [Link.renamed, Link.keyFor, ha, hb, ordered_of_lt (hT.linked.order k l hl)]
    exact ⟨rfl, (hT.linked.key k l hl).symm⟩
  refine ⟨rfl, rfl, h.linked, fun k l => ⟨fun ⟨hl, horg⟩ => ?_, fun ⟨k₀, l₀, hk₀, hl₀, hl, hk⟩ => ?_⟩⟩
  · obtain ⟨hlink, hparted⟩ := (h.getLink k l).mp hl
    have hcur : get? (orgView locations links org).links k = some l :=
      (get?_orgView_links hS.linked.linkIds).mpr ⟨hlink, horg⟩
    have htarget := get?_target_of_not_parted hcur hparted
    obtain ⟨hrenamed, hkey⟩ := hsame k l htarget hcur
    refine ⟨k, l, Or.inr fun hlost => (mem_lostLinks.mp hlost).2 ?_, htarget, hrenamed.symm,
      hkey.symm⟩
    rw [hcur, htarget]
  · have hcur := hstay k₀ l₀ hl₀ (hk₀.resolve_left List.not_mem_nil)
    obtain ⟨hrenamed, hkey⟩ := hsame k₀ l₀ hl₀ hcur
    rw [hl, hk, hrenamed, hkey]
    obtain ⟨hlink, horg⟩ := (get?_orgView_links hS.linked.linkIds).mp hcur
    refine ⟨(h.getLink k₀ l₀).mpr ⟨hlink, fun hparted => (mem_partedLinks.mp hparted).2 ?_⟩, horg⟩
    rw [hcur, hl₀]

theorem View.link_mem {v : View} (h : k ∈ keys v.links) : get? v.links k = some (v.link k) := by
  obtain ⟨l, hl⟩ := Blueprint.mem_keys.mp h
  rw [View.link_eq hl]
  exact hl

include hS hT in
/-- The missing links are added. -/
theorem exists_joined (i : ℕ) {w₄ : Work}
    (h₄ : Placed org links (orgView locations links org) target w₄) : ∃ w,
    applyFrom lib (some known.probes) org i w₄
        ((lostLinks (orgView locations links org) target).map fun k =>
          addition (lostLocations (orgView locations links org) target) (target.link k)) =
        .ok w ∧
      Joined org (orgView locations links org) target w₄
        (lostLinks (orgView locations links org) target) w := by
  refine applyFrom_loop (fun done k rest w i hks h => ?_) (h₄.joined hS hT) i
  have hk : k ∈ lostLinks (orgView locations links org) target := by simp [hks]
  have ht := View.link_mem (mem_lostLinks.mp hk).1
  obtain ⟨hkind, hnote⟩ := hT.link k _ ht
  have horg := hT.linkOrg k _ ht
  obtain ⟨ha, hb, hne⟩ := h₄.ends hT ht
  have hfree := h.keyFor_free hT h₄ hks ht
  -- The ids of the ends are found as before the links were added.
  have hresolve : ∀ x ∈ keys target.locations, locId org w i
      (.str (if x ∈ lostLocations (orgView locations links org) target then "+" ++ x else x)) =
        .ok (w₄.newName x) := by
    intro x hx
    have hbefore := h₄.resolve x hx i
    unfold locId at hbefore ⊢
    rw [h.locations, h.refs]
    exact hbefore
  have hop := @applyOp_addition lib known org w i _ _ _ _ (hresolve _ ha) (hresolve _ hb) hne
    hkind hnote hfree
  have hown : ∀ x ∈ keys target.locations, w.Own org (w₄.newName x) := by
    intro x hx
    rw [Work.Own, h.locations]
    exact h₄.own x hx
  have hlinked := h.linked.join (hown _ ha) (hown _ hb) hne (target.link k).kind
    (target.link k).note
  rw [newLink_note hnote] at hlinked
  have hrenamed : (⟨org, (ordered (w₄.newName (target.link k).a) (w₄.newName (target.link k).b)).1,
      (ordered (w₄.newName (target.link k).a) (w₄.newName (target.link k).b)).2,
      (target.link k).kind, (target.link k).note⟩ : Link) =
        (target.link k).renamed w₄.newName := by
    rw [← horg]
    rfl
  rw [hrenamed] at hop hlinked
  refine ⟨_, hop, h.locations, h.refs, hlinked, fun j l => ?_⟩
  change get? (set w.links ((target.link k).keyFor w₄.newName) _) j = some l ∧ l.org = org ↔ _
  rw [get?_set]
  constructor
  · rintro ⟨hl, hlorg⟩
    split at hl
    · next hj => exact ⟨k, _, Or.inl (by simp), ht, (Option.some.inj hl).symm, hj⟩
    · obtain ⟨k₀, l₀, hk₀, hrest⟩ := (h.place j l).mp ⟨hl, hlorg⟩
      exact ⟨k₀, l₀, hk₀.imp_left (List.mem_append_left _), hrest⟩
  · rintro ⟨k₀, l₀, hk₀, hl₀, hl, hj⟩
    by_cases hkk : k₀ = k
    · rw [hkk, ht] at hl₀
      rw [hj, hl, ← Option.some.inj hl₀, if_pos rfl]
      exact ⟨rfl, horg⟩
    · have hold : k₀ ∈ done ∨ k₀ ∉ lostLinks (orgView locations links org) target :=
        hk₀.imp_left fun hmem => (List.mem_append.mp hmem).resolve_right fun hmem =>
          hkk (List.mem_singleton.mp hmem)
      obtain ⟨hget, hlorg⟩ := (h.place j l).mpr ⟨k₀, l₀, hold, hl₀, hl, hj⟩
      have hne' : j ≠ (target.link k).keyFor w₄.newName := by
        rintro rfl
        rw [hfree] at hget
        cases hget
      rw [if_neg hne']
      exact ⟨hget, hlorg⟩

end Groups

end SentinelNet.Blueprint
