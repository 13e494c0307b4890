import SentinelNet.Lib.Runs
import SentinelNet.Blueprint.Drafts
import SentinelNet.Blueprint.Slugs

/-!
# What the tables can hold

Two writers keep the tables: `services/location_manager.py`, behind the page of the locations, and
the application of a draft.  A revision of an organization is a snapshot of its view after a write.

* `Tables.createLocation`, `Tables.updateLocation`, `Tables.deleteLocation`: the location manager.
* `Recorded.run`: it holds after every run of writes.
-/

namespace SentinelNet.Blueprint

open Observability PyDict PyText Outcomes StepRuns

/-! ## The writers -/

structure Tables where
  locations : Dict Location
  links : Dict Link
  deriving DecidableEq

/-- The organizations and the probes that there are; an id of a probe is not empty. -/
structure Known where
  orgs : List String
  probes : List String
  probes_ne : "" ∉ probes

theorem notMem_central : "" ∉ ["central"] := by decide

/-- Why `location_manager` refuses. -/
inductive Refusal where
  | nameMissing
  | noOrg (org : String)
  | badRole (role : String)
  | noProbe (probe : String)
  | badSubnets (e : Exc)
  | noLocation (id : String)
  | hasDevices (n : ℕ)

section Writers

variable (lib : Library) (known : Known) (t : Tables)

def Tables.createLocation (org name role : String) (subnets : List String) (probe : String) :
    Except Refusal Tables :=
  if strip name = "" then .error .nameMissing
  else if org ∉ known.orgs then .error (.noOrg org)
  else if role ∉ roles then .error (.badRole role)
  else if probe ∉ known.probes then .error (.noProbe probe)
  else
    match lib.cleanSubnets (.arr (subnets.map .str)) with
    | .error e => .error (.badSubnets e)
    | .ok clean =>
      .ok { t with
        locations := set t.locations (freeId (Probes.slugify (strip name)) (keys t.locations))
          ⟨org, strip name, role, clean, .str probe, ""⟩ }

/-- `_clean_subnets(subnets) if subnets is not None else None`. -/
def Library.cleanGiven (subnets : Option (List String)) : Except Exc (Option (List String)) :=
  match subnets with
  | none => .ok none
  | some subnets => (lib.cleanSubnets (.arr (subnets.map .str))).map some

def Tables.updateLocation (id : String) (name role : Option String)
    (subnets : Option (List String)) (probe : Option String) : Except Refusal Tables :=
  match role.filter (· ∉ roles), probe.filter (· ∉ known.probes) with
  | some role, _ => .error (.badRole role)
  | none, some probe => .error (.noProbe probe)
  | none, none =>
    match lib.cleanGiven subnets with
    | .error e => .error (.badSubnets e)
    | .ok clean =>
      match get? t.locations id with
      | none => .error (.noLocation id)
      | some l =>
        if (name.map strip) = some "" then .error .nameMissing
        else
          .ok { t with
            locations := set t.locations id
              (l.update ⟨name.map strip, role, clean, probe.map .str, none⟩) }

/-- `delete_location`, for a location with so many devices: its links go with it. -/
def Tables.deleteLocation (id : String) (devices : ℕ) : Except Refusal Tables :=
  if devices ≠ 0 then .error (.hasDevices devices)
  else
    .ok
      { locations := del t.locations id
        links := t.links.filter fun e => e.2.a ≠ id ∧ e.2.b ≠ id }

/-- `blueprint.apply`, once it has accepted the draft. -/
def Tables.apply (org : String) (ops : List Json) : Except Exc Tables :=
  (applyOps lib (some known.probes) org t.locations t.links ops).map fun w =>
    ⟨w.locations, w.links⟩

end Writers

/-- A write. -/
inductive Act where
  | create (known : Known) (org name role : String) (subnets : List String) (probe : String)
  | update (known : Known) (id : String) (name role : Option String)
      (subnets : Option (List String)) (probe : Option String)
  | delete (id : String) (devices : ℕ)
  | apply (known : Known) (org : String) (ops : List Json)

/-- The tables after a write; one that is refused leaves them as they are. -/
def step (lib : Library) (t : Tables) : Act → Tables
  | .create known org name role subnets probe =>
    match t.createLocation lib known org name role subnets probe with
    | .error _ => t
    | .ok t' => t'
  | .update known id name role subnets probe =>
    match t.updateLocation lib known id name role subnets probe with
    | .error _ => t
    | .ok t' => t'
  | .delete id devices =>
    match t.deleteLocation id devices with
    | .error _ => t
    | .ok t' => t'
  | .apply known org ops =>
    match t.apply lib known org ops with
    | .error _ => t
    | .ok t' => t'

/-! ## What holds of the tables -/

variable {lib : Library}

/-- A location whose fields a draft would accept, but for the length of its name. -/
structure Location.Valid (lib : Library) (l : Location) : Prop where
  name : strip l.name = l.name ∧ l.name ≠ ""
  role : l.role ∈ roles
  subnets : Normal lib l.subnets
  probe : ∃ p, l.probe = .str p ∧ p ≠ ""
  gateway : strip l.gateway = l.gateway ∧ (l.gateway = "" ∨ lib.address l.gateway = true)

/-- Tables that were written by the two writers. -/
structure Recorded (lib : Library) (locations : Dict Location) (links : Dict Link) : Prop where
  linked : Linked locations links
  slug : ∀ k l, get? locations k = some l → Slug k
  valid : ∀ k l, get? locations k = some l → l.Valid lib
  link : ∀ k l, get? links k = some l → l.kind ∈ kinds ∧ l.note.length ≤ maxNote

theorem Recorded.nil : Recorded lib [] [] :=
  ⟨⟨unique_nil, unique_nil, fun _ _ h => (nomatch h), fun _ _ h => (nomatch h),
    fun _ _ h => (nomatch h), fun _ _ h => (nomatch h)⟩, fun _ _ h => (nomatch h),
    fun _ _ h => (nomatch h), fun _ _ h => (nomatch h)⟩

theorem checkProbe_known {known : Known} {p : Json}
    (h : checkProbe (some known.probes) p = .ok p) :
    ∃ s, p = .str s ∧ s ≠ "" ∧ s ∈ known.probes := by
  cases p with
  | str s =>
    unfold checkProbe at h
    dsimp only at h
    split at h
    · next hs =>
      refine ⟨s, rfl, ?_, hs⟩
      rintro rfl
      exact known.probes_ne hs
    · cases h
  | _ => cases h

/-- Fields that fit a location; their names may be long. -/
structure Fields.Fit (lib : Library) (f : Fields) : Prop where
  name : ∀ n ∈ f.name, strip n = n ∧ n ≠ ""
  role : ∀ r ∈ f.role, r ∈ roles
  subnets : ∀ s ∈ f.subnets, Normal lib s
  probe : ∀ p ∈ f.probe, ∃ s, p = .str s ∧ s ≠ ""
  gateway : ∀ g ∈ f.gateway, strip g = g ∧ (g = "" ∨ lib.address g = true)

theorem Fields.Clean.fit {known : Known} {f : Fields} (hf : f.Clean lib (some known.probes)) :
    f.Fit lib where
  name n hn := ⟨(hf.name n hn).1, (hf.name n hn).2.1⟩
  role := hf.role
  subnets := hf.subnets
  probe p hp := by
    obtain ⟨s, rfl, hs, -⟩ := checkProbe_known (hf.probe p hp)
    exact ⟨s, rfl, hs⟩
  gateway := hf.gateway

theorem Location.Valid.update {l : Location} (h : l.Valid lib) {f : Fields} (hf : f.Fit lib) :
    (l.update f).Valid lib where
  name := by
    cases hn : f.name with
    | none => simpa [Location.update, hn] using h.name
    | some n => simpa [Location.update, hn] using hf.name n hn
  role := by
    cases hr : f.role with
    | none => simpa [Location.update, hr] using h.role
    | some r => simpa [Location.update, hr] using hf.role r hr
  subnets := by
    cases hs : f.subnets with
    | none => simpa [Location.update, hs] using h.subnets
    | some s => simpa [Location.update, hs] using hf.subnets s hs
  probe := by
    cases hp : f.probe with
    | none => simpa [Location.update, hp] using h.probe
    | some p => simpa [Location.update, hp] using hf.probe p hp
  gateway := by
    cases hg : f.gateway with
    | none => simpa [Location.update, hg] using h.gateway
    | some g => simpa [Location.update, hg] using hf.gateway g hg

theorem Location.valid_of_full (org : String) {known : Known} {f : Fields}
    (hf : f.Clean lib (some known.probes)) (hfull : f.Full) :
    (Location.update ⟨org, "", "", [], .null, ""⟩ f).Valid lib where
  name := by
    obtain ⟨n, hn⟩ := Option.isSome_iff_exists.mp hfull.name
    obtain ⟨hstrip, hne, -⟩ := hf.name n hn
    simpa [Location.update, hn] using ⟨hstrip, hne⟩
  role := by
    obtain ⟨r, hr⟩ := Option.isSome_iff_exists.mp hfull.role
    simpa [Location.update, hr] using hf.role r hr
  subnets := by
    obtain ⟨s, hs⟩ := Option.isSome_iff_exists.mp hfull.subnets
    simpa [Location.update, hs] using hf.subnets s hs
  probe := by
    obtain ⟨p, hp⟩ := Option.isSome_iff_exists.mp hfull.probe
    obtain ⟨s, rfl, hs, -⟩ := checkProbe_known (hf.probe p hp)
    exact ⟨s, by simp [Location.update, hp], hs⟩
  gateway := by
    obtain ⟨g, hg⟩ := Option.isSome_iff_exists.mp hfull.gateway
    simpa [Location.update, hg] using hf.gateway g hg

theorem slug_newId {wanted : Option String} (h : ∀ id ∈ wanted, id = Probes.slugify id)
    (name : String) (taken : List String) : Slug (newId wanted name taken) := by
  have hfree : ∀ base, Slug base → Slug (freeId base taken) := by
    intro base hbase
    obtain ⟨n, hn, -⟩ := FreshNames.exists_firstFree (candidateId_injective base) taken
    rw [freeId, hn]
    exact hbase.candidate n
  cases wanted with
  | none => exact hfree _ (slug_slugify name)
  | some id =>
    have hid : Slug id := by
      rw [h id rfl]
      exact slug_slugify id
    rw [newId]
    split
    · exact hfree id hid
    · exact hid

theorem cleanGiven_normal {subnets clean : Option (List String)}
    (h : lib.cleanGiven subnets = .ok clean) : ∀ s ∈ clean, Normal lib s := by
  cases subnets with
  | none =>
    rw [← Except.ok.inj h]
    exact fun s hs => nomatch hs
  | some subnets =>
    rw [Library.cleanGiven] at h
    cases hclean : lib.cleanSubnets (.arr (subnets.map .str)) with
    | error e =>
      rw [hclean] at h
      cases h
    | ok out =>
      rw [hclean] at h
      rw [← Except.ok.inj h]
      intro s hs
      rw [← Option.some.inj hs]
      exact (ends_cleanSubnets _).of_ok hclean

/-! ## Every write keeps it -/

variable {locations : Dict Location} {links : Dict Link}

theorem Recorded.put (h : Recorded lib locations links) {k : String} {l : Location}
    (hslug : Slug k) (hvalid : l.Valid lib) (hlinked : Linked (set locations k l) links) :
    Recorded lib (set locations k l) links := by
  refine ⟨hlinked, fun j u hu => ?_, fun j u hu => ?_, h.link⟩
  · rw [get?_set] at hu
    split at hu
    · next hj =>
      rw [hj]
      exact hslug
    · exact h.slug j u hu
  · rw [get?_set] at hu
    split at hu
    · rw [← Option.some.inj hu]
      exact hvalid
    · exact h.valid j u hu

theorem Recorded.remove {w : Work} (h : Recorded lib w.locations w.links) (id : String) :
    Recorded lib (w.remove id).locations (w.remove id).links := by
  have hback : ∀ k l, get? (w.remove id).locations k = some l → get? w.locations k = some l := by
    intro k l hl
    rw [Work.remove, get?_del] at hl
    split at hl
    · cases hl
    · exact hl
  exact ⟨h.linked.remove id, fun k l hl => h.slug k l (hback k l hl),
    fun k l hl => h.valid k l (hback k l hl),
    fun k l hl => h.link k l ((get?_links_remove h.linked.linkIds).mp hl).1⟩

theorem Recorded.applied {known : Known} {org : String} {w w' : Work} {op : Json}
    (h : Recorded lib w.locations w.links)
    (ha : Applied lib (some known.probes) org w op w') : Recorded lib w'.locations w'.links := by
  have hlinked := h.linked.step ha
  cases ha with
  | create f ref wanted hf hfull href hwanted =>
    exact h.put (slug_newId hwanted _ _) (Location.valid_of_full org hf hfull) hlinked
  | change lid l f hl horg hf =>
    exact h.put (h.slug lid l hl) ((h.valid lid l hl).update hf.fit) hlinked
  | remove lid => exact h.remove lid
  | join a b kind note ha hb hab hkind hnew =>
    refine ⟨hlinked, h.slug, h.valid, fun k l hl => ?_⟩
    have hget : get? (set w.links (linkId a b kind) (newLink org a b kind note)) k = some l := hl
    rw [get?_set] at hget
    split at hget
    · rw [← Option.some.inj hget]
      refine ⟨hkind, ?_⟩
      rw [newLink, String.length_ofList, List.length_take]
      exact Nat.min_le_left _ _
    · exact h.link k l hget
  | part k l =>
    refine ⟨hlinked, h.slug, h.valid, fun j u hu => ?_⟩
    have hget : get? (del w.links k) j = some u := hu
    rw [get?_del] at hget
    split at hget
    · cases hget
    · exact h.link j u hget

theorem Recorded.applyFrom {known : Known} {org : String} {w w' : Work} {i : ℕ} {ops : List Json}
    (h : Recorded lib w.locations w.links)
    (hrun : Blueprint.applyFrom lib (some known.probes) org i w ops = .ok w') :
    Recorded lib w'.locations w'.links := by
  induction ops generalizing i w with
  | nil =>
    rw [← Except.ok.inj hrun]
    exact h
  | cons op ops ih =>
    cases hop : applyOp lib (some known.probes) org w i op with
    | error e =>
      rw [Blueprint.applyFrom, hop] at hrun
      cases hrun
    | ok w₁ =>
      rw [applyFrom_cons hop] at hrun
      exact ih (h.applied ((ends_applyOp w i op).of_ok hop)) hrun

/-- The fields of `update_location`. -/
theorem Recorded.updateLocation {t t' : Tables} {known : Known} {id : String}
    {name role : Option String} {subnets : Option (List String)} {probe : Option String}
    (h : Recorded lib t.locations t.links)
    (ht : t.updateLocation lib known id name role subnets probe = .ok t') :
    Recorded lib t'.locations t'.links := by
  unfold Tables.updateLocation at ht
  split at ht
  · cases ht
  · cases ht
  · next hrole hprobe =>
    split at ht
    · cases ht
    · next clean hclean =>
      split at ht
      · cases ht
      · next l hl =>
        split at ht
        · cases ht
        · next hname =>
          obtain rfl := Except.ok.inj ht
          have hfit : Fields.Fit lib ⟨name.map strip, role, clean, probe.map .str, none⟩ := by
            refine ⟨fun n hn => ?_, fun r hr => ?_, fun s hs => ?_, fun p hp => ?_,
              fun g hg => nomatch hg⟩
            · obtain ⟨m, rfl, rfl⟩ := Option.map_eq_some_iff.mp hn
              refine ⟨strip_strip m, fun hempty => hname ?_⟩
              rw [Option.map_some, hempty]
            · simpa using Option.filter_eq_none_iff.mp hrole r hr
            · exact cleanGiven_normal hclean s hs
            · obtain ⟨q, hq, rfl⟩ := Option.map_eq_some_iff.mp hp
              have hmem := Option.filter_eq_none_iff.mp hprobe q hq
              refine ⟨q, rfl, ?_⟩
              rintro rfl
              exact known.probes_ne (by simpa using hmem)
          exact h.put (h.slug id l hl) ((h.valid id l hl).update hfit)
            (Linked.change (w := ⟨t.locations, t.links, []⟩) h.linked hl _)

/-- A write keeps what holds of the tables. -/
theorem Recorded.step {t : Tables} (h : Recorded lib t.locations t.links) (a : Act) :
    Recorded lib (Blueprint.step lib t a).locations (Blueprint.step lib t a).links := by
  cases a with
  | create known org name role subnets probe =>
    simp only [Blueprint.step]
    split
    · exact h
    · next t' ht' =>
      unfold Tables.createLocation at ht'
      split at ht'
      · cases ht'
      · next hname =>
        split at ht'
        · cases ht'
        · split at ht'
          · cases ht'
          · next hrole =>
            split at ht'
            · cases ht'
            · next hprobe =>
              split at ht'
              · cases ht'
              · next clean hclean =>
                obtain rfl := Except.ok.inj ht'
                have hslug : Slug (freeId (Probes.slugify (strip name)) (keys t.locations)) :=
                  @slug_newId none (fun id hid => nomatch hid) (strip name) _
                have hfree := freeId_not_mem (Probes.slugify (strip name)) (keys t.locations)
                refine h.put hslug ⟨⟨strip_strip name, hname⟩, not_not.mp hrole,
                  (ends_cleanSubnets _).of_ok hclean, ⟨probe, rfl, ?_⟩, ⟨rfl, Or.inl rfl⟩⟩
                  (Linked.create (w := ⟨t.locations, t.links, []⟩) h.linked hfree _)
                rintro rfl
                exact hprobe known.probes_ne
  | update known id name role subnets probe =>
    simp only [Blueprint.step]
    split
    · exact h
    · next t' ht' => exact h.updateLocation ht'
  | delete id devices =>
    simp only [Blueprint.step]
    split
    · exact h
    · next t' ht' =>
      unfold Tables.deleteLocation at ht'
      split at ht'
      · cases ht'
      · obtain rfl := Except.ok.inj ht'
        exact Recorded.remove (w := ⟨t.locations, t.links, []⟩) h id
  | apply known org ops =>
    simp only [Blueprint.step]
    split
    · exact h
    · next t' ht' =>
      unfold Tables.apply applyOps at ht'
      split at ht'
      · cases ht'
      · cases hrun : Blueprint.applyFrom lib (some known.probes) org 0 ⟨t.locations, t.links, []⟩
            ops with
        | error e =>
          rw [hrun] at ht'
          cases ht'
        | ok w =>
          rw [hrun] at ht'
          obtain rfl := Except.ok.inj ht'
          exact Recorded.applyFrom (w := ⟨t.locations, t.links, []⟩) h hrun

/-- After every run of writes. -/
theorem Recorded.run {P : Tables → Act → Prop} {t t' : Tables} {acts : List Act}
    (hrun : Run (Blueprint.step lib) P t acts t') (h : Recorded lib t.locations t.links) :
    Recorded lib t'.locations t'.links :=
  hrun.invariant (I := fun t => Recorded lib t.locations t.links) (fun _ a h _ => h.step a) h

/-- Whatever is written to empty tables, and in whatever order, they stay tables that a draft could
have made: every link joins two locations of its organization. -/
theorem recorded_writes (lib : Library) (acts : List Act) :
    let t := acts.foldl (Blueprint.step lib) ⟨[], []⟩
    Recorded lib t.locations t.links :=
  List.foldlRecOn (motive := fun t : Tables => Recorded lib t.locations t.links) acts _ Recorded.nil
    fun _ h a _ => h.step a

end SentinelNet.Blueprint
