import SentinelNet.Blueprint.Revisions

/-!
# The operations of a restore

`restore_ops` compares what an organization has now with an older snapshot, and writes down the
operations that lead back: links that differ are removed, locations that the snapshot does not have
are deleted, those that it has and that are gone are created with their old ids, the others get
their old fields, and at last the missing links are added.

* `restoreOps`: the operations.
* `cleanFields_of`: the fields of a valid location pass their checks again.
* `applyOp_removal` to `applyOp_addition`: what each operation does where it is applied.
-/

namespace SentinelNet.Blueprint

open Observability PyDict PyText Outcomes

/-! ## The operations -/

def fieldNames : List String := ["name", "role", "subnets", "probe", "gateway"]

/-- `l.get(f, "")`. -/
def Location.field (l : Location) : String → Json
  | "name" => .str l.name
  | "role" => .str l.role
  | "subnets" => .arr (l.subnets.map .str)
  | "probe" => l.probe
  | "gateway" => .str l.gateway
  | _ => .str ""

/-- `locations[lid]`, for an id that is there. -/
def View.location (v : View) (lid : String) : Location :=
  (get? v.locations lid).getD ⟨"", "", "", [], .null, ""⟩

/-- `links[k]`, for an id that is there. -/
def View.link (v : View) (k : String) : Link := (get? v.links k).getD ⟨"", "", "", "", ""⟩

def sortedKeys {α : Type} (d : Dict α) : List String := (keys d).insertionSort (· ≤ ·)

def changedFields (c t : Location) : List String :=
  fieldNames.filter fun f => c.field f ≠ t.field f

section Lists

variable (current target : View)

/-- The links of now that differ from the snapshot. -/
def partedLinks : List String :=
  (sortedKeys current.links).filter fun k => get? current.links k ≠ get? target.links k

/-- The locations of now that the snapshot does not have. -/
def goneLocations : List String :=
  (sortedKeys current.locations).filter fun lid => lid ∉ keys target.locations

/-- The locations of the snapshot that are not there now. -/
def lostLocations : List String :=
  (sortedKeys target.locations).filter fun lid => lid ∉ keys current.locations

/-- The locations of both that differ. -/
def changedLocations : List String :=
  (sortedKeys current.locations).filter fun lid =>
    lid ∈ keys target.locations ∧ changedFields (current.location lid) (target.location lid) ≠ []

/-- The links of the snapshot that are not there now, or not as they were. -/
def lostLinks : List String :=
  (sortedKeys target.links).filter fun k => get? current.links k ≠ get? target.links k

end Lists

def removal (k : String) : Json := .obj [("op", .str "remove_link"), ("id", .str k)]

def deletion (lid : String) : Json := .obj [("op", .str "delete_location"), ("id", .str lid)]

/-- A `create_location` with the old id. -/
def creation (lid : String) (l : Location) : Json :=
  .obj [("name", l.field "name"), ("role", l.field "role"), ("subnets", l.field "subnets"),
    ("probe", l.field "probe"), ("gateway", l.field "gateway"), ("op", .str "create_location"),
    ("ref", .str ("+" ++ lid)), ("id", .str lid)]

/-- An `update_location` with the fields that differ. -/
def update (lid : String) (c t : Location) : Json :=
  .obj [("op", .str "update_location"), ("id", .str lid),
    ("fields", .obj ((changedFields c t).map fun f => (f, t.field f)))]

/-- An `add_link`; a location that is created is named by its ref. -/
def addition (created : List String) (l : Link) : Json :=
  let refOf (lid : String) : String := if lid ∈ created then "+" ++ lid else lid
  .obj [("op", .str "add_link"), ("a", .str (refOf l.a)), ("b", .str (refOf l.b)),
    ("kind", .str l.kind), ("note", .str l.note)]

def restoreOps (current target : View) : List Json :=
  (partedLinks current target).map removal ++
    ((goneLocations current target).map deletion ++
      ((lostLocations current target).map (fun lid => creation lid (target.location lid)) ++
        ((changedLocations current target).map (fun lid =>
            update lid (current.location lid) (target.location lid)) ++
          (lostLinks current target).map fun k =>
            addition (lostLocations current target) (target.link k))))

/-! ## Fields that pass their checks again -/

variable {lib : Library} {known : Known} {org : String}

def Location.given (l : Location) (fs : List String) : Fields where
  name := if "name" ∈ fs then some l.name else none
  role := if "role" ∈ fs then some l.role else none
  subnets := if "subnets" ∈ fs then some l.subnets else none
  probe := if "probe" ∈ fs then some l.probe else none
  gateway := if "gateway" ∈ fs then some l.gateway else none

theorem stripped_str {s : String} (h : strip s = s) : lib.stripped (.str s) = s := by
  rw [Library.stripped, orElse]
  split
  · exact h
  · next hs =>
    have hempty : s = "" := by simpa [truthy] using hs
    rw [hempty]
    rfl

theorem dedup_sorted {l : List String} (h : l.Pairwise (· < ·)) : sortedSet l = l := by
  have hnodup : l.Nodup := h.imp ne_of_lt
  rw [sortedSet, hnodup.dedup]
  exact (h.imp le_of_lt).insertionSort_eq

theorem networks_normal {subnets : List String} (h : ∀ s ∈ subnets, lib.network s = some s) :
    lib.networks (subnets.map .str) = .ok subnets := by
  induction subnets with
  | nil => rfl
  | cons s subnets ih =>
    have hs := h s List.mem_cons_self
    obtain ⟨-, hstrip, hne⟩ := lib.network_network s s hs
    have htext : strip (lib.text (.str s)) = s := hstrip
    rw [List.map_cons, Library.networks, htext, if_neg hne, hs, ih fun t ht => h t (List.mem_cons_of_mem s ht)]
    rfl

theorem cleanSubnets_normal {subnets : List String} (h : Normal lib subnets) :
    lib.cleanSubnets (.arr (subnets.map .str)) = .ok subnets := by
  have hitems : items (orElse (.arr (subnets.map .str)) (.arr [])) = .ok (subnets.map .str) := by
    rw [orElse]
    split
    · rfl
    · next hs =>
      have hempty : subnets = [] := by simpa [truthy] using hs
      rw [hempty]
      rfl
  rw [Library.cleanSubnets, hitems]
  change (lib.networks (subnets.map .str) >>= fun out => pure (sortedSet out)) = _
  rw [networks_normal h.networks]
  exact congrArg Except.ok (dedup_sorted h.sorted)

/-- A location that may be written again: valid, with a probe that there is. -/
structure Location.Fits (lib : Library) (known : Known) (l : Location) : Prop extends
    l.Valid lib where
  registered : ∃ p ∈ known.probes, l.probe = .str p

variable {l : Location}

theorem Location.Fits.cleanName (h : l.Fits lib known)
    (hlen : l.name.length ≤ maxName) : lib.cleanName (.str l.name) = .ok l.name := by
  have hstripped : lib.stripped (.str l.name) = l.name := stripped_str h.name.1
  unfold Library.cleanName
  rw [hstripped, if_neg h.name.2, if_neg (not_lt.mpr hlen)]

theorem Location.Fits.checkProbe (h : l.Fits lib known) :
    Blueprint.checkProbe (some known.probes) l.probe = .ok l.probe := by
  obtain ⟨p, hp, heq⟩ := h.registered
  rw [heq]
  unfold Blueprint.checkProbe
  exact if_pos hp

theorem Location.Fits.cleanGateway (h : l.Fits lib known) :
    lib.cleanGateway (.str l.gateway) = .ok l.gateway := by
  have hstripped : lib.stripped (.str l.gateway) = l.gateway := stripped_str h.gateway.1
  unfold Library.cleanGateway
  rw [hstripped, if_pos h.gateway.2]

theorem cleanField_of (h : l.Fits lib known) {f : String} (hf : f ∈ fieldNames)
    (hlen : f = "name" → l.name.length ≤ maxName) (fs : List String) :
    lib.cleanField (some known.probes) (l.given fs) f (l.field f) =
      .ok (l.given (fs ++ [f])) := by
  simp only [fieldNames, List.mem_cons, List.not_mem_nil, or_false] at hf
  rcases hf with rfl | rfl | rfl | rfl | rfl
  · rw [cleanField_name, Location.field, h.cleanName (hlen rfl)]
    refine congrArg Except.ok ?_
    simp [Location.given]
  · rw [cleanField_role, Location.field, checkRole, if_pos h.role]
    refine congrArg Except.ok ?_
    simp [Location.given]
  · rw [cleanField_subnets, Location.field, cleanSubnets_normal h.subnets]
    refine congrArg Except.ok ?_
    simp [Location.given]
  · rw [cleanField_probe, Location.field, h.checkProbe]
    refine congrArg Except.ok ?_
    simp [Location.given]
  · rw [cleanField_gateway, Location.field, h.cleanGateway]
    refine congrArg Except.ok ?_
    simp [Location.given]

/-- The fields of a valid location pass their checks again. -/
theorem cleanFields_of (h : l.Fits lib known) {fs : List String}
    (hfs : ∀ f ∈ fs, f ∈ fieldNames) (hlen : "name" ∈ fs → l.name.length ≤ maxName)
    (done : List String) :
    lib.cleanFields (some known.probes) (l.given done) (fs.map fun f => (f, l.field f)) =
      .ok (l.given (done ++ fs)) := by
  induction fs generalizing done with
  | nil =>
    rw [List.append_nil]
    rfl
  | cons f fs ih =>
    have hname : f = "name" → l.name.length ≤ maxName := by
      rintro rfl
      exact hlen List.mem_cons_self
    rw [List.map_cons, Library.cleanFields,
      cleanField_of h (hfs f List.mem_cons_self) hname done]
    have hrest := ih (fun g hg => hfs g (List.mem_cons_of_mem f hg))
      (fun hn => hlen (List.mem_cons_of_mem f hn)) (done ++ [f])
    rw [List.append_assoc, List.singleton_append] at hrest
    exact hrest

theorem given_nil (l : Location) : l.given [] = {} := rfl

theorem update_given_all (h : l.org = org) :
    Location.update ⟨org, "", "", [], .null, ""⟩ (l.given fieldNames) = l := by
  rw [← h]
  simp [Location.update, Location.given, fieldNames]

theorem update_given_changed {c t : Location} (h : c.org = t.org) :
    c.update (t.given (changedFields c t)) = t := by
  have hsame : ∀ f, f ∈ fieldNames → f ∉ changedFields c t → c.field f = t.field f := by
    intro f hf hnot
    by_contra hne
    exact hnot (List.mem_filter.mpr ⟨hf, by simpa using hne⟩)
  have hname : "name" ∉ changedFields c t → c.name = t.name := fun hn =>
    Json.str.inj (hsame "name" (by simp [fieldNames]) hn)
  have hrole : "role" ∉ changedFields c t → c.role = t.role := fun hn =>
    Json.str.inj (hsame "role" (by simp [fieldNames]) hn)
  have hsubnets : "subnets" ∉ changedFields c t → c.subnets = t.subnets := fun hn =>
    List.map_injective_iff.mpr (fun _ _ => Json.str.inj)
      (Json.arr.inj (hsame "subnets" (by simp [fieldNames]) hn))
  have hprobe : "probe" ∉ changedFields c t → c.probe = t.probe := fun hn =>
    hsame "probe" (by simp [fieldNames]) hn
  have hgateway : "gateway" ∉ changedFields c t → c.gateway = t.gateway := fun hn =>
    Json.str.inj (hsame "gateway" (by simp [fieldNames]) hn)
  have hpick : ∀ {α : Type} {p : Prop} [Decidable p] {x y : α}, (¬ p → y = x) →
      (if p then some x else none).getD y = x := by
    intro α p _ x y hxy
    split
    · rfl
    · next hp => exact hxy hp
  rw [Location.update, Location.given]
  simp only [hpick hname, hpick hrole, hpick hsubnets, hpick hprobe, hpick hgateway, h]

/-! ## One operation where it is applied -/

variable {w : Work} {i : ℕ}

theorem applyOp_removal {k : String} {l : Link} (hl : get? w.links k = some l)
    (horg : l.org = org) :
    applyOp lib (some known.probes) org w i (removal k) =
      .ok { w with links := del w.links k } := by
  have hhas : ¬ has w.links k = false := by
    rw [has, hl]
    exact Bool.noConfusion
  change removeLink org w [("op", .str "remove_link"), ("id", .str k)] = _
  unfold removeLink
  change (if has w.links k = false then _ else (getItem w.links k >>= fun l =>
    if l.org ≠ org then _ else _)) = _
  rw [if_neg hhas, getItem, hl]
  exact if_neg (not_not.mpr horg)

variable {lid : String}

theorem locId_own (hown : w.Own org lid) (href : get? w.refs lid = none) :
    locId org w i (.str lid) = .ok lid := by
  obtain ⟨l, hl, horg⟩ := hown
  have hhas : ¬ has w.locations lid = false := by
    rw [has, hl]
    exact Bool.noConfusion
  unfold locId
  dsimp only
  rw [href, Option.getD_none, if_neg hhas, getItem, hl]
  exact if_neg (not_not.mpr horg)

theorem locId_ref {ref : String} (hown : w.Own org lid) (href : get? w.refs ref = some lid) :
    locId org w i (.str ref) = .ok lid := by
  obtain ⟨l, hl, horg⟩ := hown
  have hhas : ¬ has w.locations lid = false := by
    rw [has, hl]
    exact Bool.noConfusion
  unfold locId
  dsimp only
  rw [href, Option.getD_some, if_neg hhas, getItem, hl]
  exact if_neg (not_not.mpr horg)

theorem applyOp_deletion (hown : w.Own org lid) (href : get? w.refs lid = none) :
    applyOp lib (some known.probes) org w i (deletion lid) = .ok (w.remove lid) := by
  obtain ⟨l, hl, -⟩ := id hown
  have hitem : getItem w.locations lid = .ok l := by rw [getItem, hl]
  change deleteLocation org w i _ = _
  unfold deleteLocation
  exact (bind_eq (locId_own hown href) _).trans (bind_eq hitem _)

theorem orElse_str {s : String} (h : s ≠ "") (v : Json) : orElse (.str s) v = .str s := by
  rw [orElse, if_pos]
  simpa [truthy] using h

theorem orElse_str_empty (s : String) : orElse (.str s) (.str "") = .str s := by
  by_cases h : s = ""
  · rw [h]
    rfl
  · exact orElse_str h _

theorem orElse_arr (vs : List Json) : orElse (.arr vs) (.arr []) = .arr vs := by
  cases vs with
  | nil => rfl
  | cons v vs => rfl

theorem startsWith_plus (s : String) : startsWith ("+" ++ s) "+" = true := by
  rw [startsWith, String.toList_append]
  rfl

theorem creation_fields (h : l.Fits lib known) :
    [("name", l.field "name"), ("role", orElse (l.field "role") (.str "branch")),
      ("subnets", orElse (l.field "subnets") (.arr [])),
      ("probe", orElse (l.field "probe") (.str "central")),
      ("gateway", orElse (l.field "gateway") (.str ""))] =
      fieldNames.map fun f => (f, l.field f) := by
  have hrole : l.role ≠ "" := by
    intro hempty
    have hmem := h.role
    rw [hempty] at hmem
    exact absurd hmem (by decide)
  obtain ⟨p, hp, hne⟩ := h.probe
  have hprobe : orElse (l.field "probe") (.str "central") = l.field "probe" := by
    rw [Location.field, hp]
    exact orElse_str hne _
  rw [hprobe]
  simp only [Location.field, orElse_str hrole, orElse_str_empty, orElse_arr]
  rfl

/-- The id of a location that is created again: its old one where it is free. -/
def Work.idFor (w : Work) (lid : String) : String :=
  if lid ∈ keys w.locations then freeId lid (keys w.locations) else lid

theorem applyOp_creation (h : l.Fits lib known)
    (hlen : l.name.length ≤ maxName) (horg : l.org = org) (hslug : Slug lid)
    (href : has w.refs ("+" ++ lid) = false) :
    applyOp lib (some known.probes) org w i (creation lid l) =
      .ok
        { locations := set w.locations (w.idFor lid) l
          links := w.links
          refs := set w.refs ("+" ++ lid) (w.idFor lid) } := by
  have hclean := @cleanFields_of lib known l h fieldNames (fun f hf => hf) (fun _ => hlen) []
  rw [given_nil, List.nil_append, ← creation_fields h] at hclean
  have hcheckRef : checkRef w.refs (.str ("+" ++ lid)) = .ok (some ("+" ++ lid)) := by
    refine if_neg ?_
    rw [startsWith_plus, href]
    simp
  have hcheckId : checkId (.str lid) = .ok (some lid) := by
    have hne : lid ≠ "" := by
      rintro rfl
      exact hslug.ne_nil rfl
    have htruthy : ¬ truthy (.str lid) = false := by simpa [truthy] using hne
    unfold checkId
    rw [if_neg htruthy]
    exact if_pos hslug.slugify_eq.symm
  change createLocation lib (some known.probes) org w _ = _
  unfold createLocation
  refine (bind_eq hclean _).trans ((bind_eq hcheckRef _).trans ((bind_eq hcheckId _).trans ?_))
  refine congrArg Except.ok ?_
  rw [Work.create, update_given_all horg]
  rfl

theorem applyOp_update {c t : Location} (h : t.Fits lib known)
    (hlen : c.name ≠ t.name → t.name.length ≤ maxName) (hc : get? w.locations lid = some c)
    (hcorg : c.org = org) (htorg : t.org = org) (href : get? w.refs lid = none)
    (hne : changedFields c t ≠ []) :
    applyOp lib (some known.probes) org w i (update lid c t) =
      .ok { w with locations := set w.locations lid t } := by
  have hname : "name" ∈ changedFields c t → t.name.length ≤ maxName := by
    intro hmem
    refine hlen fun heq => ?_
    have hdiff := (List.mem_filter.mp hmem).2
    rw [Location.field, Location.field, heq] at hdiff
    simp at hdiff
  have hclean := @cleanFields_of lib known t h (changedFields c t)
    (fun f hf => (List.mem_filter.mp hf).1) hname []
  rw [given_nil, List.nil_append] at hclean
  have hfields : newFields "update_location" w lid [("op", .str "update_location"),
      ("id", .str lid), ("fields", .obj ((changedFields c t).map fun f => (f, t.field f)))] =
      .ok ((changedFields c t).map fun f => (f, t.field f)) := by
    refine if_neg ?_
    simpa using hne
  have hitem : getItem w.locations lid = .ok c := by rw [getItem, hc]
  change changeLocation lib (some known.probes) org "update_location" w i _ = _
  unfold changeLocation
  refine (bind_eq (locId_own ⟨c, hc, hcorg⟩ href) _).trans ((bind_eq hfields _).trans
    ((bind_eq hitem _).trans ((bind_eq hclean _).trans ?_)))
  refine congrArg Except.ok ?_
  rw [update_given_changed (hcorg.trans htorg.symm)]

theorem newLink_note {a b kind note : String} (h : note.length ≤ maxNote) :
    newLink org a b kind note = ⟨org, (ordered a b).1, (ordered a b).2, kind, note⟩ := by
  rw [newLink, List.take_of_length_le (by rwa [String.length_toList]), String.ofList_toList]

theorem applyOp_linkOp {probes : Probes} {x y : Json} {a b kind note : String}
    (ha : locId org w i x = .ok a) (hb : locId org w i y = .ok b) (hab : a ≠ b)
    (hkind : kind ∈ kinds) (hnew : get? w.links (linkId a b kind) = none) :
    applyOp lib probes org w i (.obj [("op", .str "add_link"), ("a", x), ("b", y),
        ("kind", .str kind), ("note", .str note)]) =
      .ok { w with links := set w.links (linkId a b kind) (newLink org a b kind note) } := by
  have hhas : ¬ has w.links (linkId a b kind) = true := by
    rw [has, hnew]
    exact Bool.false_ne_true
  have hcheck : checkKind (.str kind) = .ok kind := if_pos hkind
  have htext : lib.text (orElse (.str note) (.str "")) = note := by
    rw [orElse_str_empty]
    rfl
  change addLink lib org w i _ = _
  unfold addLink
  refine (bind_eq ha _).trans ((bind_eq hb _).trans ((if_neg hab).trans
    ((bind_eq hcheck _).trans ((if_neg hhas).trans ?_))))
  exact congrArg (fun n => Except.ok
    { w with links := set w.links (linkId a b kind) (newLink org a b kind n) }) htext

theorem applyOp_addition {created : List String} {l : Link} {a b : String}
    (ha : locId org w i (.str (if l.a ∈ created then "+" ++ l.a else l.a)) = .ok a)
    (hb : locId org w i (.str (if l.b ∈ created then "+" ++ l.b else l.b)) = .ok b)
    (hab : a ≠ b) (hkind : l.kind ∈ kinds) (hnote : l.note.length ≤ maxNote)
    (hnew : get? w.links (linkId a b l.kind) = none) :
    applyOp lib (some known.probes) org w i (addition created l) =
      .ok { w with
        links := set w.links (linkId a b l.kind)
          ⟨org, (ordered a b).1, (ordered a b).2, l.kind, l.note⟩ } := by
  rw [← newLink_note hnote]
  exact applyOp_linkOp ha hb hab hkind hnew

end SentinelNet.Blueprint
