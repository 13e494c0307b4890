import SentinelNet.Blueprint.RoundTrip

/-!
# Restoring a snapshot

A restore is a draft like any other one, so that what the other writer of the tables allows and a
draft does not stands in its way: a name of any length, and any number of differences.  A location
whose id was taken meanwhile gets the next free one, which another lost location may be waiting for.

* `restored_iff`: it does it exactly then.
* `long_name_refused`: a location with a long name does not come back.
-/

namespace SentinelNet.Blueprint

open Observability PyDict PyText Outcomes StepRuns

variable {lib : Library} {known : Known} {org : String}

/-! ## What a restore is for, and when it does it -/

/-- The organization sees the snapshot again.  A location has a new id only where another
organization took its old one, no two have the same, and the links follow. -/
structure Restored (org : String) (locations : Dict Location) (target : View) (w : Work) :
    Prop where
  kept : ∀ x ∈ keys target.locations,
    (∀ l, get? locations x = some l → l.org = org) → w.newName x = x
  distinct : ∀ x ∈ keys target.locations, ∀ y ∈ keys target.locations,
    w.newName x = w.newName y → x = y
  locations : ∀ k l, get? (orgView w.locations w.links org).locations k = some l ↔
    ∃ x, get? target.locations x = some l ∧ w.newName x = k
  links : ∀ k l, get? (orgView w.locations w.links org).links k = some l ↔
    ∃ k₀ l₀, get? target.links k₀ = some l₀ ∧ l = l₀.renamed w.newName ∧
      k = l₀.keyFor w.newName

/-- The differences are not too many, the names that have to be written are not too long, and no new
id is the old one of another lost location. -/
structure Restorable (locations : Dict Location) (current target : View) : Prop where
  size : (partedLinks current target).length + (goneLocations current target).length +
    (lostLocations current target).length + (changedLocations current target).length +
      (lostLinks current target).length ≤ maxDraftOps
  created : ∀ x ∈ lostLocations current target, (target.location x).name.length ≤ maxName
  updated : ∀ x ∈ changedLocations current target,
    (current.location x).name ≠ (target.location x).name →
      (target.location x).name.length ≤ maxName
  apart : Apart locations current target

/-! ## Names that are too long -/

theorem length_restoreOps (current target : View) : (restoreOps current target).length =
    (partedLinks current target).length + (goneLocations current target).length +
      (lostLocations current target).length + (changedLocations current target).length +
        (lostLinks current target).length := by
  simp only [restoreOps, List.length_append, List.length_map]
  omega

theorem length_of_cleanFields {probes : Probes} {out f : Fields} {name : String}
    {fields : Dict Json} (hstrip : strip name = name)
    (h : lib.cleanFields probes out (("name", .str name) :: fields) = .ok f) :
    name.length ≤ maxName := by
  rw [Library.cleanFields, cleanField_name] at h
  obtain ⟨out', hout, -⟩ := bind_ok h
  obtain ⟨n, hn, -⟩ := bind_ok hout
  unfold Library.cleanName at hn
  rw [stripped_str hstrip] at hn
  by_contra hlong
  split at hn
  · cases hn
  · rw [if_pos (not_le.mp hlong)] at hn
    cases hn

theorem length_of_creation {w w' : Work} {i : ℕ} {lid : String} {l : Location}
    (hstrip : strip l.name = l.name)
    (h : applyOp lib (some known.probes) org w i (creation lid l) = .ok w') :
    l.name.length ≤ maxName := by
  have hcreate : createLocation lib (some known.probes) org w [("name", l.field "name"),
      ("role", l.field "role"), ("subnets", l.field "subnets"), ("probe", l.field "probe"),
      ("gateway", l.field "gateway"), ("op", .str "create_location"), ("ref", .str ("+" ++ lid)),
      ("id", .str lid)] = .ok w' := h
  unfold createLocation at hcreate
  obtain ⟨f, hf, -⟩ := bind_ok hcreate
  exact length_of_cleanFields hstrip hf

theorem length_of_update {w w' : Work} {i : ℕ} {lid : String} {c t : Location}
    (hstrip : strip t.name = t.name) (hne : c.name ≠ t.name)
    (h : applyOp lib (some known.probes) org w i (update lid c t) = .ok w') :
    t.name.length ≤ maxName := by
  have hfields : ∃ fs, changedFields c t = "name" :: fs := by
    refine ⟨["role", "subnets", "probe", "gateway"].filter fun f => c.field f ≠ t.field f, ?_⟩
    rw [changedFields, fieldNames, List.filter_cons_of_pos]
    simpa [Location.field] using hne
  obtain ⟨fs, hfs⟩ := hfields
  have hchange : changeLocation lib (some known.probes) org "update_location" w i
      [("op", .str "update_location"), ("id", .str lid),
        ("fields", .obj ((changedFields c t).map fun f => (f, t.field f)))] = .ok w' := h
  unfold changeLocation at hchange
  obtain ⟨id, -, hchange⟩ := bind_ok hchange
  obtain ⟨fields, hnew, hchange⟩ := bind_ok hchange
  obtain ⟨l, -, hchange⟩ := bind_ok hchange
  obtain ⟨f, hf, -⟩ := bind_ok hchange
  have hwritten : fields = ("name", .str t.name) :: fs.map fun f => (f, t.field f) := by
    rw [hfs] at hnew
    exact (Except.ok.inj hnew).symm
  rw [hwritten] at hf
  exact length_of_cleanFields hstrip hf

/-! ## The whole restore -/

section Whole

variable {locations : Dict Location} {links : Dict Link} {target : View}
  (hS : Recorded lib locations links) (hT : Snapshot lib known org target)

include hS hT in
theorem exists_restored
    (hsize : (restoreOps (orgView locations links org) target).length ≤ maxDraftOps)
    (hcreated : ∀ x ∈ lostLocations (orgView locations links org) target,
      (target.location x).name.length ≤ maxName)
    (hupdated : ∀ x ∈ changedLocations (orgView locations links org) target,
      ((orgView locations links org).location x).name ≠ (target.location x).name →
        (target.location x).name.length ≤ maxName) :
    ∃ w₃ w₄ w, applyOps lib (some known.probes) org locations links
        (restoreOps (orgView locations links org) target) = .ok w ∧
      Created locations links (orgView locations links org) target
        (lostLocations (orgView locations links org) target) w₃ ∧ w₄.refs = w₃.refs ∧
      Placed org links (orgView locations links org) target w₄ ∧
      Joined org (orgView locations links org) target w₄
        (lostLinks (orgView locations links org) target) w := by
  obtain ⟨w₁, hrun₁, h₁⟩ := @exists_parted lib known org target _ _ hS 0
  obtain ⟨w₂, hrun₂, h₂⟩ := exists_gone hS hT _ h₁
  obtain ⟨w₃, hrun₃, h₃⟩ := exists_lost hS hT _ hcreated h₂
  obtain ⟨w₄, hrun₄, h₄⟩ := exists_updated hS hT _ hupdated h₃
  have hplaced := placed_of_updated hS hT h₃ h₄
  obtain ⟨w, hrun, h⟩ := exists_joined hS hT _ hplaced
  refine ⟨w₃, w₄, w, ?_, h₃, h₄.refs, hplaced, h⟩
  rw [applyOps, if_neg (not_lt.mpr hsize), restoreOps, applyFrom_append hrun₁,
    applyFrom_append hrun₂, applyFrom_append hrun₃, applyFrom_append hrun₄]
  exact hrun

include hT in
theorem sizes_of_applied {w : Work}
    (h : applyOps lib (some known.probes) org locations links
      (restoreOps (orgView locations links org) target) = .ok w) :
    (restoreOps (orgView locations links org) target).length ≤ maxDraftOps ∧
      (∀ x ∈ lostLocations (orgView locations links org) target,
        (target.location x).name.length ≤ maxName) ∧
      ∀ x ∈ changedLocations (orgView locations links org) target,
        ((orgView locations links org).location x).name ≠ (target.location x).name →
          (target.location x).name.length ≤ maxName := by
  rw [applyOps] at h
  split at h
  · cases h
  · next hsize =>
    have hstrip : ∀ x ∈ keys target.locations,
        strip (target.location x).name = (target.location x).name := fun x hx =>
      (hT.fits x _ (View.location_mem hx)).name.1
    refine ⟨not_lt.mp hsize, fun x hx => ?_, fun x hx hne => ?_⟩
    · have hop : creation x (target.location x) ∈
          restoreOps (orgView locations links org) target := by
        simp only [restoreOps, List.mem_append]
        exact Or.inr (Or.inr (Or.inl (List.mem_map_of_mem (f := fun lid =>
          creation lid (target.location lid)) hx)))
      obtain ⟨w₁, w₂, j, happ⟩ := exists_applyOp h hop
      exact length_of_creation (hstrip x (mem_lostLocations.mp hx).1) happ
    · have hop : update x ((orgView locations links org).location x) (target.location x) ∈
          restoreOps (orgView locations links org) target := by
        simp only [restoreOps, List.mem_append]
        exact Or.inr (Or.inr (Or.inr (Or.inl (List.mem_map_of_mem (f := fun lid =>
          update lid ((orgView locations links org).location lid) (target.location lid)) hx))))
      obtain ⟨w₁, w₂, j, happ⟩ := exists_applyOp h hop
      exact length_of_update (hstrip x (mem_changedLocations.mp hx).2.1) hne happ

include hS in
/-- What the groups have put in its place is the snapshot again, where no new id is the old one of
another lost location. -/
theorem restored_of_apart {w₃ w₄ w : Work}
    (h₃ : Created locations links (orgView locations links org) target
      (lostLocations (orgView locations links org) target) w₃) (hrefs : w₄.refs = w₃.refs)
    (h₄ : Placed org links (orgView locations links org) target w₄)
    (h : Joined org (orgView locations links org) target w₄
      (lostLinks (orgView locations links org) target) w)
    (hapart : Apart locations (orgView locations links org) target) :
    Restored org locations target w := by
  have hnew : w.newName = w₄.newName := by
    funext x
    rw [Work.newName, Work.newName, h.refs]
  refine ⟨fun x hx hown => ?_, fun x hx y hy hxy => ?_, fun k l => ?_, fun k l => ?_⟩
  · rw [hnew]
    by_cases hlost : x ∈ lostLocations (orgView locations links org) target
    · have hfree : ¬ Stays locations (orgView locations links org) target x := by
        rintro ⟨hkey, -⟩
        obtain ⟨l, hl⟩ := Blueprint.mem_keys.mp hkey
        exact (mem_lostLocations.mp hlost).2 (Blueprint.mem_keys.mpr
          ⟨l, (get?_orgView_locations hS.linked.locationIds).mpr ⟨hl, hown l hl⟩⟩)
      rw [Work.newName, hrefs, h₃.clean hapart x hlost hfree]
      rfl
    · exact h₄.same x hlost
  · rw [hnew] at hxy
    exact h₄.inj x hx y hy hxy
  · rw [get?_orgView_locations h.linked.locationIds, h.locations, hnew]
    exact h₄.place k l
  · rw [get?_orgView_links h.linked.linkIds, h.place k l, hnew]
    constructor
    · rintro ⟨k₀, l₀, -, hrest⟩
      exact ⟨k₀, l₀, hrest⟩
    · rintro ⟨k₀, l₀, hrest⟩
      exact ⟨k₀, l₀, (em _), hrest⟩

include hS in
theorem Restored.apart {w₃ w : Work}
    (h₃ : Created locations links (orgView locations links org) target
      (lostLocations (orgView locations links org) target) w₃) (hrefs : w.refs = w₃.refs)
    (h : Restored org locations target w) :
    Apart locations (orgView locations links org) target := by
  intro x hx hstays n hlost hfree
  by_contra hnone
  have hbefore : ∀ m ≤ n, Stays locations (orgView locations links org) target
      (candidateId x m) := by
    intro m hm
    by_contra hfree
    exact hnone ⟨m, hm, hfree⟩
  obtain ⟨n', hname, hfresh, hbetween⟩ := h₃.ref x hx
  -- Its new id is the first one that does not stay.
  have hn' : n' = n + 1 := by
    rcases lt_trichotomy n' (n + 1) with hlt | heq | hgt
    · exact absurd (hbefore n' (Nat.lt_succ_iff.mp hlt)) hfresh
    · exact heq
    · exact absurd (hbetween (n + 1) (Nat.succ_pos n) hgt) hfree
  have hnew : w.newName x = candidateId x (n + 1) := by
    rw [Work.newName, hrefs, hname, hn']
    rfl
  have hkept : w.newName (candidateId x (n + 1)) = candidateId x (n + 1) := by
    refine h.kept _ (mem_lostLocations.mp hlost).1 fun l hl => ?_
    by_contra horg
    refine hfree ⟨Blueprint.mem_keys.mpr ⟨l, hl⟩, fun hgone => ?_⟩
    obtain ⟨u, hu⟩ := Blueprint.mem_keys.mp (mem_goneLocations.mp hgone).1
    obtain ⟨hu, huorg⟩ := (get?_orgView_locations hS.linked.locationIds).mp hu
    rw [hl] at hu
    rw [Option.some.inj hu] at horg
    exact horg huorg
  have heq := h.distinct x (mem_lostLocations.mp hx).1 _ (mem_lostLocations.mp hlost).1
    (hnew.trans hkept.symm)
  exact Nat.succ_ne_zero n (candidateId_injective x heq.symm)

end Whole

/-- A restore of what an organization had at one time of a run of writes brings the snapshot back if
and only if the differences are not too many, the names that have to be written are not too long,
and no new id is the old one of another lost location. -/
theorem restored_iff {acts acts' : List Act} {old now : Tables}
    (hold : Run (step lib) (fun _ _ => True) ⟨[], []⟩ acts old)
    (hnow : Run (step lib) (fun _ _ => True) old acts' now)
    (hprobes : ∀ lid l, get? (orgView old.locations old.links org).locations lid = some l →
      ∃ p ∈ known.probes, l.probe = .str p) :
    (∃ w, applyOps lib (some known.probes) org now.locations now.links
        (restoreOps (orgView now.locations now.links org)
          (orgView old.locations old.links org)) = .ok w ∧
      Restored org now.locations (orgView old.locations old.links org) w) ↔
    Restorable now.locations (orgView now.locations now.links org)
      (orgView old.locations old.links org) := by
  have hbefore := Recorded.run hold Recorded.nil
  have hS := Recorded.run hnow hbefore
  have hT : Snapshot lib known org (orgView old.locations old.links org) :=
    hbefore.snapshot hprobes
  constructor
  · rintro ⟨w, happ, hres⟩
    obtain ⟨hsize, hcreated, hupdated⟩ := sizes_of_applied hT happ
    obtain ⟨w₃, w₄, w', hrun, h₃, hrefs, h₄, h⟩ := exists_restored hS hT hsize hcreated hupdated
    rw [happ] at hrun
    obtain rfl := Except.ok.inj hrun
    rw [length_restoreOps] at hsize
    exact ⟨hsize, hcreated, hupdated, hres.apart hS h₃ (h.refs.trans hrefs)⟩
  · intro h
    have hsize := h.size
    rw [← length_restoreOps] at hsize
    obtain ⟨w₃, w₄, w, hrun, h₃, hrefs, h₄, hjoined⟩ :=
      exists_restored hS hT hsize h.created h.updated
    exact ⟨w, hrun, restored_of_apart hS h₃ hrefs h₄ hjoined h.apart⟩

/-! ## A location whose id is taken, and one with a long name -/

/-- Two organizations and one probe. -/
def acmeAndBeta : Known := ⟨["acme", "beta"], ["central"], notMem_central⟩

def romeOf (org : String) : Location := ⟨org, "Roma", "branch", [], .str "central", ""⟩

/-- An organization has a location, it is deleted, and another one takes its id. -/
theorem restored_iff_rome :
    (∃ w, applyOps ipv4Library (some ["central"]) "acme" [("roma", romeOf "beta")] []
        (restoreOps (orgView [("roma", romeOf "beta")] [] "acme")
          (orgView [("roma", romeOf "acme")] [] "acme")) = .ok w ∧
      Restored "acme" [("roma", romeOf "beta")] (orgView [("roma", romeOf "acme")] [] "acme") w) ↔
    Restorable [("roma", romeOf "beta")] (orgView [("roma", romeOf "beta")] [] "acme")
      (orgView [("roma", romeOf "acme")] [] "acme") := by
  have hold : Run (step ipv4Library) (fun _ _ => True) ⟨[], []⟩
      [.create acmeAndBeta "acme" "Roma" "branch" [] "central"]
      ⟨[("roma", romeOf "acme")], []⟩ := Run.cons True.intro (Run.nil _)
  have hnow : Run (step ipv4Library) (fun _ _ => True) ⟨[("roma", romeOf "acme")], []⟩
      [.delete "roma" 0, .create acmeAndBeta "beta" "Roma" "branch" [] "central"]
      ⟨[("roma", romeOf "beta")], []⟩ := Run.cons True.intro (Run.cons True.intro (Run.nil _))
  refine @restored_iff ipv4Library acmeAndBeta "acme" _ _ _ _ hold hnow fun lid l hl =>
    ⟨"central", List.mem_singleton_self _, ?_⟩
  have hmem : (lid, l) ∈ [("roma", romeOf "acme")] := mem_of_get? hl
  obtain ⟨-, rfl⟩ := Prod.mk.inj (List.mem_singleton.mp hmem)
  rfl

/-- The new id of one lost location is the old one of another, which has to give way. -/
example : (applyOps ipv4Library (some ["central"]) "acme" [("roma", romeOf "beta")] []
    (restoreOps (orgView [("roma", romeOf "beta")] [] "acme")
      (orgView [("roma", romeOf "acme"), ("roma-2", romeOf "acme")] [] "acme"))) =
    .ok ⟨[("roma", romeOf "beta"), ("roma-2", romeOf "acme"), ("roma-2-2", romeOf "acme")], [],
      [("+roma", "roma-2"), ("+roma-2", "roma-2-2")]⟩ := by
  decide

/-- A name that the location manager accepts and a draft does not. -/
def longName : String := String.ofList (List.replicate 101 'a')

def longLocation : Location := ⟨"acme", longName, "branch", [], .str "central", ""⟩

/-- A location with a long name is created and deleted, and the restore is refused. -/
theorem long_name_refused :
    Run (step ipv4Library) (fun _ _ => True) ⟨[], []⟩
        [.create acmeAndBeta "acme" longName "branch" [] "central"]
        ⟨[(longName, longLocation)], []⟩ ∧
      Run (step ipv4Library) (fun _ _ => True) ⟨[(longName, longLocation)], []⟩
        [.delete longName 0] ⟨[], []⟩ ∧
      (∀ l ∈ (orgView [(longName, longLocation)] [] "acme").locations,
        l.2.probe = .str "central") ∧
      applyOps ipv4Library (some acmeAndBeta.probes) "acme" [] []
          (restoreOps (orgView [] [] "acme") (orgView [(longName, longLocation)] [] "acme")) =
        .error (.opError 0 .nameTooLong) := by
  have hcreate : step ipv4Library ⟨[], []⟩
      (.create acmeAndBeta "acme" longName "branch" [] "central") =
        ⟨[(longName, longLocation)], []⟩ := by
    decide +kernel
  have hdelete : step ipv4Library ⟨[(longName, longLocation)], []⟩ (.delete longName 0) =
      ⟨[], []⟩ := by
    decide
  have hrefused : applyOps ipv4Library (some acmeAndBeta.probes) "acme" [] []
      [creation longName longLocation] = .error (.opError 0 .nameTooLong) := by
    decide
  refine ⟨Run.cons True.intro ?_, Run.cons True.intro ?_, ?_, ?_⟩
  · rw [hcreate]
    exact Run.nil _
  · rw [hdelete]
    exact Run.nil _
  · decide
  · exact hrefused

end SentinelNet.Blueprint
