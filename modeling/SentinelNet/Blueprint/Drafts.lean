import SentinelNet.Lib.Outcomes
import SentinelNet.Blueprint.Operations

/-!
# What a draft leaves of the tables

An operation that is applied makes one of five changes to the copies; everything else it does is to
refuse.

* `ends_applyOp`: an operation makes one of them or raises what becomes an `OpError`.
* `Linked.step`, `Keeps`: a change keeps the links consistent and leaves the other organizations
  alone.
* `ends_applyOps`: the whole draft.
-/

namespace SentinelNet.Blueprint

open Observability PyDict PyText Outcomes

/-! ## Exceptions -/

/-- The exceptions that become an `OpError` with the position of the operation. -/
def Exc.Plain : Exc → Prop
  | .valueError _ => True
  | .typeError => True
  | .attributeError => True
  | .keyError => False
  | .opError _ _ => False

/-- The exceptions that end in an `OpError` at a position. -/
def Exc.At (i : ℕ) : Exc → Prop
  | .opError j _ => j = i
  | e => e.Plain

theorem Exc.Plain.at {e : Exc} (h : e.Plain) (i : ℕ) : e.At i := by
  cases e with
  | opError j r => cases h
  | _ => exact h

theorem Exc.At.asOpError {e : Exc} {i : ℕ} (h : e.At i) : ∃ r, asOpError i e = .opError i r := by
  cases e with
  | valueError r => exact ⟨r, rfl⟩
  | typeError => exact ⟨.malformed, rfl⟩
  | attributeError => exact ⟨.malformed, rfl⟩
  | keyError => cases h
  | opError j r =>
    obtain rfl : j = i := h
    exact ⟨r, rfl⟩

/-! ## Fields -/

variable {lib : Library} {probes : Probes} {org : String}

/-- Valid subnets in normal form: in their order, each once, each as a network writes itself. -/
structure Normal (lib : Library) (subnets : List String) : Prop where
  sorted : subnets.Pairwise (· < ·)
  networks : ∀ s ∈ subnets, lib.network s = some s

/-- Fields that passed their checks. -/
structure Fields.Clean (lib : Library) (probes : Probes) (f : Fields) : Prop where
  name : ∀ n ∈ f.name, strip n = n ∧ n ≠ "" ∧ n.length ≤ maxName
  role : ∀ r ∈ f.role, r ∈ roles
  subnets : ∀ s ∈ f.subnets, Normal lib s
  probe : ∀ p ∈ f.probe, checkProbe probes p = .ok p
  gateway : ∀ g ∈ f.gateway, strip g = g ∧ (g = "" ∨ lib.address g = true)

theorem Fields.clean_empty : Fields.Clean lib probes {} := by
  constructor <;> intro x hx <;> cases hx

theorem sortedSet_sorted (l : List String) : (sortedSet l).Pairwise (· < ·) := by
  have hle : (sortedSet l).Pairwise (· ≤ ·) := List.pairwise_insertionSort (· ≤ ·) _
  have hnodup : (sortedSet l).Nodup :=
    (List.perm_insertionSort (· ≤ ·) l.dedup).nodup_iff.mpr (List.nodup_dedup l)
  exact hle.imp₂ (fun a b hle hne => lt_of_le_of_ne hle hne) hnodup

theorem mem_sortedSet {l : List String} {s : String} : s ∈ sortedSet l ↔ s ∈ l := by
  rw [sortedSet, List.mem_insertionSort, List.mem_dedup]

theorem ends_items (v : Json) : Ends (items v) (fun _ => True) Exc.Plain := by
  cases v <;> trivial

theorem ends_networks (raws : List Json) :
    Ends (lib.networks raws) (fun out => ∀ s ∈ out, lib.network s = some s) Exc.Plain := by
  induction raws with
  | nil => exact fun s hs => nomatch hs
  | cons raw raws ih =>
    rw [Library.networks]
    split
    · exact ih
    · split
      · trivial
      · next t ht =>
        refine ih.bind fun out hout => ?_
        rw [ends_pure, List.forall_mem_cons]
        exact ⟨(lib.network_network _ _ ht).1, hout⟩

theorem ends_cleanSubnets (v : Json) : Ends (lib.cleanSubnets v) (Normal lib) Exc.Plain := by
  refine (ends_items _).bind fun raws _ => (ends_networks raws).bind fun out hout => ?_
  exact ⟨sortedSet_sorted out, fun s hs => hout s (mem_sortedSet.mp hs)⟩

theorem ends_checkProbe (v : Json) :
    Ends (checkProbe probes v) (fun p => checkProbe probes p = .ok p) Exc.Plain := by
  cases h : checkProbe probes v with
  | ok p =>
    have hp : p = v := by
      unfold checkProbe at h
      repeat' split at h
      all_goals first | exact (Except.ok.inj h).symm | cases h
    rw [ends_ok, hp]
    rw [hp] at h
    exact h
  | error e =>
    unfold checkProbe at h
    repeat' split at h
    all_goals first | (cases h; trivial) | cases h

theorem ends_cleanName (v : Json) :
    Ends (lib.cleanName v) (fun n => strip n = n ∧ n ≠ "" ∧ n.length ≤ maxName) Exc.Plain := by
  have hstrip : strip (lib.stripped v) = lib.stripped v := strip_strip _
  unfold Library.cleanName
  generalize lib.stripped v = n at hstrip ⊢
  refine Ends.ite (fun _ => ?_) fun hname => ?_
  · exact True.intro
  · refine Ends.ite (fun _ => ?_) fun hlen => ?_
    · exact True.intro
    · exact ⟨hstrip, hname, not_lt.mp hlen⟩

theorem ends_checkRole (v : Json) : Ends (checkRole v) (fun r => r ∈ roles) Exc.Plain := by
  cases v with
  | str r => exact Ends.ite (fun h => h) fun _ => True.intro
  | _ => exact True.intro

theorem ends_cleanGateway (v : Json) :
    Ends (lib.cleanGateway v) (fun g => strip g = g ∧ (g = "" ∨ lib.address g = true))
      Exc.Plain := by
  have hstrip : strip (lib.stripped v) = lib.stripped v := strip_strip _
  unfold Library.cleanGateway
  generalize lib.stripped v = g at hstrip ⊢
  refine Ends.ite (fun h => ?_) fun _ => ?_
  · exact ⟨hstrip, h⟩
  · exact True.intro

theorem ends_cleanField {out : Fields} (hout : out.Clean lib probes) (k : String) (v : Json) :
    Ends (lib.cleanField probes out k v) (Fields.Clean lib probes) Exc.Plain := by
  unfold Library.cleanField
  split
  · refine (ends_cleanName v).bind fun name hname => ?_
    exact { hout with name := fun n hn => Option.some.inj hn ▸ hname }
  · refine (ends_checkRole v).bind fun role hrole => ?_
    exact { hout with role := fun r hr => Option.some.inj hr ▸ hrole }
  · refine (ends_cleanSubnets v).bind fun subnets hsubnets => ?_
    exact { hout with subnets := fun s hs => Option.some.inj hs ▸ hsubnets }
  · refine (ends_checkProbe v).bind fun probe hprobe => ?_
    exact { hout with probe := fun p hp => Option.some.inj hp ▸ hprobe }
  · refine (ends_cleanGateway v).bind fun gateway hgateway => ?_
    exact { hout with gateway := fun g hg => Option.some.inj hg ▸ hgateway }
  · trivial

theorem ends_cleanFields {out : Fields} (hout : out.Clean lib probes) (fields : Dict Json) :
    Ends (lib.cleanFields probes out fields) (Fields.Clean lib probes) Exc.Plain := by
  induction fields generalizing out with
  | nil => exact hout
  | cons e fields ih =>
    rw [Library.cleanFields]
    exact (ends_cleanField hout e.1 e.2).bind fun out hout => ih hout

/-- All fields are given. -/
structure Fields.Full (f : Fields) : Prop where
  name : f.name.isSome = true
  role : f.role.isSome = true
  subnets : f.subnets.isSome = true
  probe : f.probe.isSome = true
  gateway : f.gateway.isSome = true

section

variable (out : Fields) (v : Json)

include out v

theorem cleanField_name : lib.cleanField probes out "name" v =
    lib.cleanName v >>= fun name => pure { out with name := some name } := by
  simp only [Library.cleanField]

theorem cleanField_role : lib.cleanField probes out "role" v =
    checkRole v >>= fun role => pure { out with role := some role } := by
  simp only [Library.cleanField]

theorem cleanField_subnets : lib.cleanField probes out "subnets" v =
    lib.cleanSubnets v >>= fun subnets => pure { out with subnets := some subnets } := by
  simp only [Library.cleanField]

theorem cleanField_probe : lib.cleanField probes out "probe" v =
    checkProbe probes v >>= fun probe => pure { out with probe := some probe } := by
  simp only [Library.cleanField]

theorem cleanField_gateway : lib.cleanField probes out "gateway" v =
    lib.cleanGateway v >>= fun gateway => pure { out with gateway := some gateway } := by
  simp only [Library.cleanField]

end

theorem ends_newLocationFields (name role subnets probe gateway : Json) :
    Ends (lib.cleanFields probes {} [("name", name), ("role", role), ("subnets", subnets),
      ("probe", probe), ("gateway", gateway)]) Fields.Full fun _ => True := by
  have hthen : ∀ {α : Type} (x : Except Exc α) (g : α → Fields) (f : Fields → Except Exc Fields),
      (∀ a, Ends (f (g a)) Fields.Full fun _ => True) →
        Ends ((x >>= fun a => pure (g a)) >>= f) Fields.Full fun _ => True := by
    intro α x g f hf
    cases x with
    | error e => trivial
    | ok a => exact hf a
  rw [Library.cleanFields, cleanField_name]
  refine hthen _ _ _ fun n => ?_
  rw [Library.cleanFields, cleanField_role]
  refine hthen _ _ _ fun r => ?_
  rw [Library.cleanFields, cleanField_subnets]
  refine hthen _ _ _ fun s => ?_
  rw [Library.cleanFields, cleanField_probe]
  refine hthen _ _ _ fun p => ?_
  rw [Library.cleanFields, cleanField_gateway]
  refine hthen _ _ _ fun g => ?_
  exact ⟨rfl, rfl, rfl, rfl, rfl⟩

/-! ## Locations and refs -/

/-- A location of the organization. -/
def Work.Own (org : String) (w : Work) (lid : String) : Prop :=
  ∃ l, get? w.locations lid = some l ∧ l.org = org

variable {α : Type} {d : Dict α} {k : String}

theorem ends_getItem (h : has d k ≠ false) :
    Ends (getItem d k) (fun v => get? d k = some v) Exc.Plain := by
  rw [getItem]
  cases hk : get? d k with
  | none => exact absurd (by rw [has, hk]; rfl) h
  | some v => rfl

theorem ends_locId (w : Work) (i : ℕ) (x : Json) :
    Ends (locId org w i x) (w.Own org) (Exc.At i) := by
  cases x with
  | str s =>
    refine Ends.ite (fun _ => rfl) fun hhas => ?_
    refine ((ends_getItem hhas).mono (fun _ h => h) fun _ h => h.at i).bind fun l hl => ?_
    exact Ends.ite (fun _ => rfl) fun horg => ⟨l, hl, not_not.mp horg⟩
  | arr vs => trivial
  | obj kvs => trivial
  | null => rfl
  | bool b => rfl
  | int n => rfl
  | float q => rfl

theorem ends_checkRef (refs : Dict String) (v : Json) :
    Ends (checkRef refs v) (fun ref => ∀ r ∈ ref, startsWith r "+" = true ∧ has refs r = false)
      Exc.Plain := by
  cases v with
  | null => exact fun r hr => absurd hr (by simp)
  | str s =>
    unfold checkRef
    refine Ends.ite (fun _ => ?_) fun h r hr => ?_
    · exact True.intro
    · rw [not_or] at h
      obtain rfl := Option.some.inj hr
      exact ⟨by simpa using h.1, by simpa using h.2⟩
  | _ => exact True.intro

theorem ends_checkId (v : Json) :
    Ends (checkId v) (fun wanted => ∀ id ∈ wanted, id = Probes.slugify id) Exc.Plain := by
  unfold checkId
  refine Ends.ite (fun _ id hid => ?_) fun _ => ?_
  · simp at hid
  · cases v with
    | str s =>
      dsimp only
      -- The slug stays a variable: it is not to be computed.
      generalize hslug : Probes.slugify s = t
      refine Ends.ite (fun hst id hid => ?_) fun _ => ?_
      · rw [← Option.some.inj hid, hslug]
        exact hst
      · exact True.intro
    | _ => exact True.intro

theorem ends_checkKind (v : Json) : Ends (checkKind v) (fun kind => kind ∈ kinds) Exc.Plain := by
  cases v with
  | str k => exact Ends.ite (fun h => h) fun _ => True.intro
  | _ => exact True.intro

variable {lid : String}

theorem ends_newFields (kind : String) {w : Work} (hown : w.Own org lid)
    (op : Dict Json) : Ends (newFields kind w lid op) (fun _ => True) Exc.Plain := by
  obtain ⟨l, hl, -⟩ := hown
  unfold newFields
  split
  · split
    · split <;> trivial
    · trivial
  · trivial
  · have hhas : has w.locations lid ≠ false := by
      rw [has, hl]
      exact Bool.noConfusion
    exact (ends_getItem hhas).bind fun l _ => trivial

/-! ## Changes -/

/-- The operation deletes a location. -/
def Deletes (org : String) (w : Work) (lid : String) : Json → Prop
  | .obj op => member op "op" = .str "delete_location" ∧ locId org w 0 (member op "id") = .ok lid
  | _ => False

inductive Applied (lib : Library) (probes : Probes) (org : String) (w : Work) (op : Json) :
    Work → Prop where
  | create (f : Fields) (ref wanted : Option String) :
      f.Clean lib probes → f.Full →
      (∀ r ∈ ref, startsWith r "+" = true ∧ has w.refs r = false) →
      (∀ id ∈ wanted, id = Probes.slugify id) →
      Applied lib probes org w op
        (w.create org f ref (newId wanted (f.name.getD "") (keys w.locations)))
  | change (lid : String) (l : Location) (f : Fields) :
      get? w.locations lid = some l → l.org = org → f.Clean lib probes →
      Applied lib probes org w op { w with locations := set w.locations lid (l.update f) }
  | remove (lid : String) :
      w.Own org lid → Deletes org w lid op → Applied lib probes org w op (w.remove lid)
  | join (a b kind note : String) :
      w.Own org a → w.Own org b → a ≠ b → kind ∈ kinds →
      get? w.links (linkId a b kind) = none →
      Applied lib probes org w op
        { w with links := set w.links (linkId a b kind) (newLink org a b kind note) }
  | part (k : String) (l : Link) :
      get? w.links k = some l → l.org = org →
      Applied lib probes org w op { w with links := del w.links k }

/-! ## An operation makes one of the changes -/

theorem ends_createLocation (w : Work) (i : ℕ) (v : Json) (op : Dict Json) :
    Ends (createLocation lib probes org w op) (Applied lib probes org w v) (Exc.At i) := by
  have hplain : ∀ e : Exc, e.Plain → e.At i := fun e he => he.at i
  unfold createLocation
  refine (((ends_cleanFields Fields.clean_empty _).and (ends_newLocationFields _ _ _ _ _)).mono
    (fun _ h => h) fun e he => hplain e he.1).bind fun f hf => ?_
  refine ((ends_checkRef w.refs _).mono (fun _ h => h) hplain).bind fun ref href => ?_
  refine ((ends_checkId _).mono (fun _ h => h) hplain).bind fun wanted hwanted => ?_
  exact Applied.create f ref wanted hf.1 hf.2 href hwanted

theorem ends_changeLocation (kind : String) (w : Work) (i : ℕ) (v : Json) (op : Dict Json) :
    Ends (changeLocation lib probes org kind w i op) (Applied lib probes org w v) (Exc.At i) := by
  have hplain : ∀ e : Exc, e.Plain → e.At i := fun e he => he.at i
  unfold changeLocation
  refine (ends_locId w i _).bind fun lid hown => ?_
  refine ((ends_newFields kind hown op).mono (fun _ h => h) hplain).bind fun fields _ => ?_
  obtain ⟨l, hl, horg⟩ := hown
  have hitem : getItem w.locations lid = .ok l := by rw [getItem, hl]
  rw [hitem]
  refine ((ends_cleanFields Fields.clean_empty _).mono (fun _ h => h) hplain).bind fun f hf => ?_
  exact Applied.change lid l f hl horg hf

variable {i : ℕ}

theorem locId_ok {w : Work} {x : Json} (h : locId org w i x = .ok lid)
    (j : ℕ) : locId org w j x = .ok lid := by
  cases x with
  | str s =>
    unfold locId at h ⊢
    dsimp only at h ⊢
    split at h
    · cases h
    · next hhas =>
      rw [if_neg hhas]
      obtain ⟨l, hl, h⟩ := bind_ok h
      rw [hl]
      split at h
      · cases h
      · next horg =>
        change (if l.org ≠ org then _ else _) = _
        rw [if_neg horg]
        exact h
  | _ => cases h

theorem ends_deleteLocation (w : Work) (i : ℕ) (op : Dict Json)
    (hop : member op "op" = .str "delete_location") :
    Ends (deleteLocation org w i op) (Applied lib probes org w (.obj op)) (Exc.At i) := by
  unfold deleteLocation
  have hspec := @ends_locId org w i (member op "id")
  cases hlid : locId org w i (member op "id") with
  | error e => exact hspec.of_error hlid
  | ok lid =>
    have hown := hspec.of_ok hlid
    obtain ⟨l, hl, -⟩ := id hown
    have hitem : getItem w.locations lid = .ok l := by rw [getItem, hl]
    change Ends (getItem w.locations lid >>= fun _ => pure (w.remove lid)) _ _
    rw [hitem]
    exact Applied.remove lid hown ⟨hop, locId_ok hlid 0⟩

theorem ends_addLink (w : Work) (i : ℕ) (v : Json) (op : Dict Json) :
    Ends (addLink lib org w i op) (Applied lib probes org w v) (Exc.At i) := by
  have hplain : ∀ e : Exc, e.Plain → e.At i := fun e he => he.at i
  unfold addLink
  refine (ends_locId w i _).bind fun a ha => (ends_locId w i _).bind fun b hb => ?_
  refine Ends.ite (fun _ => True.intro) fun hab => ?_
  refine ((ends_checkKind _).mono (fun _ h => h) hplain).bind fun kind hkind => ?_
  refine Ends.ite (fun _ => True.intro) fun hnew => ?_
  refine Applied.join a b kind _ ha hb hab hkind ?_
  rw [has, Option.isSome_iff_ne_none, not_not] at hnew
  exact hnew

theorem ends_removeLink (w : Work) (i : ℕ) (v : Json) (op : Dict Json) :
    Ends (removeLink org w op) (Applied lib probes org w v) (Exc.At i) := by
  have hplain : ∀ e : Exc, e.Plain → e.At i := fun e he => he.at i
  unfold removeLink
  cases member op "id" with
  | str k =>
    refine Ends.ite (fun _ => True.intro) fun hhas => ?_
    refine ((ends_getItem hhas).mono (fun _ h => h) hplain).bind fun l hl => ?_
    refine Ends.ite (fun _ => True.intro) fun horg => ?_
    exact Applied.part k l hl (not_not.mp horg)
  | _ => exact True.intro

/-- An operation makes one of the changes, or raises what becomes an `OpError`. -/
theorem ends_applyOp (w : Work) (i : ℕ) (op : Json) :
    Ends (applyOp lib probes org w i op) (Applied lib probes org w op) (Exc.At i) := by
  cases op with
  | obj op =>
    unfold applyOp
    dsimp only
    split
    · exact ends_createLocation w i _ op
    · exact ends_changeLocation _ w i _ op
    · exact ends_changeLocation _ w i _ op
    · exact ends_changeLocation _ w i _ op
    · next hop => exact ends_deleteLocation w i op hop
    · exact ends_addLink w i _ op
    · exact ends_removeLink w i _ op
    · exact True.intro
  | _ => exact True.intro

/-! ## The links stay consistent -/

variable {w w' : Work} {op : Json}

theorem Linked.create (h : Linked w.locations w.links)
    (hnew : lid ∉ keys w.locations) (l : Location) : Linked (set w.locations lid l) w.links := by
  have hkeep : ∀ k v, get? w.locations k = some v → get? (set w.locations lid l) k = some v := by
    intro k v hv
    have hne : k ≠ lid := by
      rintro rfl
      exact hnew (List.mem_map_of_mem (f := Prod.fst) (mem_of_get? hv))
    rw [get?_set, if_neg hne]
    exact hv
  refine { h with locationIds := h.locationIds.set lid l, first := ?_, second := ?_ }
  · intro k v hv
    obtain ⟨u, hu, horg⟩ := h.first k v hv
    exact ⟨u, hkeep _ u hu, horg⟩
  · intro k v hv
    obtain ⟨u, hu, horg⟩ := h.second k v hv
    exact ⟨u, hkeep _ u hu, horg⟩

theorem Linked.change (h : Linked w.locations w.links) {l : Location}
    (hl : get? w.locations lid = some l) (f : Fields) :
    Linked (set w.locations lid (l.update f)) w.links := by
  have hkeep : ∀ k v, get? w.locations k = some v →
      ∃ u, get? (set w.locations lid (l.update f)) k = some u ∧ u.org = v.org := by
    intro k v hv
    rw [get?_set]
    split
    · next hk =>
      rw [hk, hl] at hv
      obtain rfl := Option.some.inj hv
      exact ⟨_, rfl, rfl⟩
    · exact ⟨v, hv, rfl⟩
  refine { h with locationIds := h.locationIds.set lid _, first := ?_, second := ?_ }
  · intro k v hv
    obtain ⟨u, hu, horg⟩ := h.first k v hv
    obtain ⟨u', hu', horg'⟩ := hkeep _ u hu
    exact ⟨u', hu', horg'.trans horg⟩
  · intro k v hv
    obtain ⟨u, hu, horg⟩ := h.second k v hv
    obtain ⟨u', hu', horg'⟩ := hkeep _ u hu
    exact ⟨u', hu', horg'.trans horg⟩

theorem get?_links_remove (h : Unique w.links) {l : Link} :
    get? (w.remove lid).links k = some l ↔ get? w.links k = some l ∧ l.a ≠ lid ∧ l.b ≠ lid := by
  rw [Work.remove, h.get?_filter_eq_some, decide_eq_true_iff]

theorem get?_locations_remove (hk : k ≠ lid) :
    get? (w.remove lid).locations k = get? w.locations k := by
  rw [Work.remove, get?_del, if_neg hk]

theorem Linked.remove (h : Linked w.locations w.links) (lid : String) :
    Linked (w.remove lid).locations (w.remove lid).links where
  locationIds := h.locationIds.del lid
  linkIds := h.linkIds.filter _
  key k l hl := h.key k l ((get?_links_remove h.linkIds).mp hl).1
  order k l hl := h.order k l ((get?_links_remove h.linkIds).mp hl).1
  first k l hl := by
    obtain ⟨hl, ha, -⟩ := (get?_links_remove h.linkIds).mp hl
    rw [get?_locations_remove ha]
    exact h.first k l hl
  second k l hl := by
    obtain ⟨hl, -, hb⟩ := (get?_links_remove h.linkIds).mp hl
    rw [get?_locations_remove hb]
    exact h.second k l hl

theorem Linked.join (h : Linked w.locations w.links) {a b : String} (ha : w.Own org a)
    (hb : w.Own org b) (hab : a ≠ b) (kind note : String) :
    Linked w.locations (set w.links (linkId a b kind) (newLink org a b kind note)) := by
  have hends : w.Own org (ordered a b).1 ∧ w.Own org (ordered a b).2 := by
    rw [ordered]
    split
    · exact ⟨hb, ha⟩
    · exact ⟨ha, hb⟩
  have hcases : ∀ k l, get? (set w.links (linkId a b kind) (newLink org a b kind note)) k = some l →
      (k = linkId a b kind ∧ l = newLink org a b kind note) ∨ get? w.links k = some l := by
    intro k l hl
    rw [get?_set] at hl
    split at hl
    · next hk => exact Or.inl ⟨hk, (Option.some.inj hl).symm⟩
    · exact Or.inr hl
  refine ⟨h.locationIds, h.linkIds.set _ _, fun k l hl => ?_, fun k l hl => ?_, fun k l hl => ?_,
    fun k l hl => ?_⟩
  · rcases hcases k l hl with ⟨rfl, rfl⟩ | hl
    · exact (linkId_ordered a b kind).symm
    · exact h.key k l hl
  · rcases hcases k l hl with ⟨rfl, rfl⟩ | hl
    · exact ordered_lt hab
    · exact h.order k l hl
  · rcases hcases k l hl with ⟨rfl, rfl⟩ | hl
    · exact hends.1
    · exact h.first k l hl
  · rcases hcases k l hl with ⟨rfl, rfl⟩ | hl
    · exact hends.2
    · exact h.second k l hl

theorem Linked.part (h : Linked w.locations w.links) (k : String) :
    Linked w.locations (del w.links k) := by
  have hback : ∀ j l, get? (del w.links k) j = some l → get? w.links j = some l := by
    intro j l hl
    rw [get?_del] at hl
    split at hl
    · cases hl
    · exact hl
  exact ⟨h.locationIds, h.linkIds.del k, fun j l hl => h.key j l (hback j l hl),
    fun j l hl => h.order j l (hback j l hl), fun j l hl => h.first j l (hback j l hl),
    fun j l hl => h.second j l (hback j l hl)⟩

theorem newId_not_mem (wanted : Option String) (name : String) (taken : List String) :
    newId wanted name taken ∉ taken := by
  cases wanted with
  | none => exact freeId_not_mem _ taken
  | some id =>
    rw [newId]
    split
    · exact freeId_not_mem id taken
    · next h => exact h

/-- A change keeps the links consistent. -/
theorem Linked.step (h : Linked w.locations w.links) (ha : Applied lib probes org w op w') :
    Linked w'.locations w'.links := by
  cases ha with
  | create f ref wanted => exact h.create (newId_not_mem _ _ _) _
  | change lid l f hl => exact h.change hl f
  | remove lid => exact h.remove lid
  | join a b kind note ha hb hab => exact h.join ha hb hab kind note
  | part k l => exact h.part k

/-! ## Other organizations -/

/-- The locations and the links of the other organizations are the same. -/
structure Keeps (org : String) (w w' : Work) : Prop where
  locations : ∀ k l, l.org ≠ org → (get? w'.locations k = some l ↔ get? w.locations k = some l)
  links : ∀ k l, l.org ≠ org → (get? w'.links k = some l ↔ get? w.links k = some l)

theorem Keeps.refl (org : String) (w : Work) : Keeps org w w :=
  ⟨fun _ _ _ => Iff.rfl, fun _ _ _ => Iff.rfl⟩

theorem Keeps.trans {w'' : Work} (h : Keeps org w w') (h' : Keeps org w' w'') : Keeps org w w'' :=
  ⟨fun k l hl => (h'.locations k l hl).trans (h.locations k l hl),
    fun k l hl => (h'.links k l hl).trans (h.links k l hl)⟩

theorem get?_set_other (orgOf : α → String) {v : α}
    (hv : orgOf v = org) (hold : ∀ u, get? d k = some u → orgOf u = org) (j : String) {u : α}
    (hu : orgOf u ≠ org) : get? (set d k v) j = some u ↔ get? d j = some u := by
  rw [get?_set]
  split
  · next hj =>
    constructor
    · intro h
      rw [← Option.some.inj h] at hu
      exact absurd hv hu
    · intro h
      rw [hj] at h
      exact absurd (hold u h) hu
  · rfl

theorem get?_del_other {orgOf : α → String}
    (hold : ∀ u, get? d k = some u → orgOf u = org) (j : String) {u : α} (hu : orgOf u ≠ org) :
    get? (del d k) j = some u ↔ get? d j = some u := by
  rw [get?_del]
  split
  · next hj =>
    constructor
    · intro h
      cases h
    · intro h
      rw [hj] at h
      exact absurd (hold u h) hu
  · rfl

theorem get?_of_not_mem_keys (h : k ∉ keys d) : get? d k = none := by
  cases hk : get? d k with
  | none => rfl
  | some v => exact absurd (List.mem_map_of_mem (f := Prod.fst) (mem_of_get? hk)) h

/-- A change leaves the other organizations alone. -/
theorem Keeps.step (h : Linked w.locations w.links) (ha : Applied lib probes org w op w') :
    Keeps org w w' := by
  cases ha with
  | create f ref wanted =>
    refine ⟨fun k l hl => ?_, fun _ _ _ => Iff.rfl⟩
    refine get?_set_other Location.org rfl (fun u hu => ?_) k hl
    rw [get?_of_not_mem_keys (newId_not_mem _ _ _)] at hu
    cases hu
  | change lid l f hl horg =>
    refine ⟨fun k u hu => ?_, fun _ _ _ => Iff.rfl⟩
    have hold : (l.update f).org = org := horg
    refine get?_set_other Location.org hold (fun v hv => ?_) k hu
    rw [hl] at hv
    rw [← Option.some.inj hv]
    exact horg
  | remove lid hown =>
    obtain ⟨l, hl, horg⟩ := hown
    have hold : ∀ u, get? w.locations lid = some u → u.org = org := by
      intro u hu
      rw [hl] at hu
      rw [← Option.some.inj hu]
      exact horg
    refine ⟨fun k u hu => get?_del_other hold k hu, fun k u hu => ?_⟩
    rw [get?_links_remove h.linkIds]
    refine ⟨fun hk => hk.1, fun hk => ⟨hk, ?_, ?_⟩⟩
    · rintro rfl
      obtain ⟨v, hv, hvorg⟩ := h.first k u hk
      exact hu (hvorg.symm.trans (hold v hv))
    · rintro rfl
      obtain ⟨v, hv, hvorg⟩ := h.second k u hk
      exact hu (hvorg.symm.trans (hold v hv))
  | join a b kind note ha hb hab hkind hnew =>
    refine ⟨fun _ _ _ => Iff.rfl, fun k l hl => ?_⟩
    refine get?_set_other Link.org rfl (fun u hu => ?_) k hl
    rw [hnew] at hu
    cases hu
  | part k l hl horg =>
    refine ⟨fun _ _ _ => Iff.rfl, fun j u hu => get?_del_other (fun v hv => ?_) j hu⟩
    rw [hl] at hv
    rw [← Option.some.inj hv]
    exact horg

/-! ## Subnets -/

/-- The subnets of a location of the organization are in normal form, or they are those that it had
before. -/
def NormalOrKept (lib : Library) (org : String) (w w' : Work) : Prop :=
  ∀ lid l', get? w'.locations lid = some l' → l'.org = org →
    Normal lib l'.subnets ∨
      ∃ l, get? w.locations lid = some l ∧ l.org = org ∧ l.subnets = l'.subnets

theorem NormalOrKept.refl (lib : Library) (org : String) (w : Work) : NormalOrKept lib org w w :=
  fun _ l hl horg => Or.inr ⟨l, hl, horg, rfl⟩

theorem NormalOrKept.trans {w'' : Work} (h : NormalOrKept lib org w w')
    (h' : NormalOrKept lib org w' w'') : NormalOrKept lib org w w'' := by
  intro lid l'' hl'' horg''
  rcases h' lid l'' hl'' horg'' with hnormal | ⟨l', hl', horg', heq'⟩
  · exact Or.inl hnormal
  · rcases h lid l' hl' horg' with hnormal | ⟨l, hl, horg, heq⟩
    · exact Or.inl (heq' ▸ hnormal)
    · exact Or.inr ⟨l, hl, horg, heq.trans heq'⟩

theorem normal_nil (lib : Library) : Normal lib [] :=
  ⟨List.Pairwise.nil, fun _ h => nomatch h⟩

theorem Fields.Clean.subnets_update {f : Fields} (hf : f.Clean lib probes) (l : Location) :
    Normal lib (l.update f).subnets ∨ (l.update f).subnets = l.subnets := by
  cases hs : f.subnets with
  | none =>
    right
    rw [Location.update, hs]
    rfl
  | some s =>
    left
    rw [Location.update, hs]
    exact hf.subnets s hs

/-- A change leaves subnets in normal form, or as they were. -/
theorem NormalOrKept.step (ha : Applied lib probes org w op w') : NormalOrKept lib org w w' := by
  cases ha with
  | create f ref wanted hf =>
    intro k l' hl' horg
    have hget : get? (set w.locations (newId wanted (f.name.getD "") (keys w.locations))
        (Location.update ⟨org, "", "", [], .null, ""⟩ f)) k = some l' := hl'
    rw [get?_set] at hget
    split at hget
    · rw [← Option.some.inj hget]
      left
      rcases hf.subnets_update ⟨org, "", "", [], .null, ""⟩ with h | h
      · exact h
      · rw [h]
        exact normal_nil lib
    · exact Or.inr ⟨l', hget, horg, rfl⟩
  | change lid l f hl horg hf =>
    intro k l' hl' horg'
    have hget : get? (set w.locations lid (l.update f)) k = some l' := hl'
    rw [get?_set] at hget
    split at hget
    · next hk =>
      rw [← Option.some.inj hget]
      rcases hf.subnets_update l with h | h
      · exact Or.inl h
      · rw [hk]
        exact Or.inr ⟨l, hl, horg, h.symm⟩
    · exact Or.inr ⟨l', hget, horg', rfl⟩
  | remove lid =>
    intro k l' hl' horg
    have hget : get? (del w.locations lid) k = some l' := hl'
    rw [get?_del] at hget
    split at hget
    · cases hget
    · exact Or.inr ⟨l', hget, horg, rfl⟩
  | join a b kind note => exact NormalOrKept.refl lib org w
  | part k l => exact NormalOrKept.refl lib org w

/-! ## Refs -/

theorem locations_create (w : Work) (f : Fields) (ref : Option String) (lid : String) :
    (w.create org f ref lid).locations =
      set w.locations lid (Location.update ⟨org, "", "", [], .null, ""⟩ f) := rfl

/-- A location of the organization stays one, unless it is deleted. -/
theorem Work.Own.step (h : w.Own org lid) (ha : Applied lib probes org w op w') :
    w'.Own org lid ∨ Deletes org w lid op := by
  obtain ⟨l, hl, horg⟩ := h
  cases ha with
  | create f ref wanted =>
    left
    refine ⟨l, ?_, horg⟩
    have hne : lid ≠ newId wanted (f.name.getD "") (keys w.locations) := by
      intro hlid
      have hmem : lid ∈ keys w.locations := List.mem_map_of_mem (f := Prod.fst) (mem_of_get? hl)
      rw [hlid] at hmem
      exact newId_not_mem _ _ _ hmem
    rw [locations_create, get?_set, if_neg hne]
    exact hl
  | change k u f hu huorg =>
    left
    rw [Work.Own, get?_set]
    split
    · exact ⟨_, rfl, huorg⟩
    · exact ⟨l, hl, horg⟩
  | remove k hk hdel =>
    by_cases hlk : lid = k
    · rw [hlk]
      exact Or.inr hdel
    · exact Or.inl ⟨l, (get?_locations_remove hlk).trans hl, horg⟩
  | join a b kind note => exact Or.inl ⟨l, hl, horg⟩
  | part k u => exact Or.inl ⟨l, hl, horg⟩

theorem refs_step {ref : String} (ha : Applied lib probes org w op w')
    (href : get? w'.refs ref = some lid) : get? w.refs ref = some lid ∨ w'.Own org lid := by
  cases ha with
  | create f r wanted =>
    cases r with
    | none => exact Or.inl href
    | some r =>
      have hget : get? (set w.refs r (newId wanted (f.name.getD "") (keys w.locations))) ref =
          some lid := href
      rw [get?_set] at hget
      split at hget
      · obtain rfl := Option.some.inj hget
        refine Or.inr ⟨Location.update ⟨org, "", "", [], .null, ""⟩ f, ?_, rfl⟩
        rw [locations_create, get?_set, if_pos rfl]
      · exact Or.inl hget
  | change => exact Or.inl href
  | remove => exact Or.inl href
  | join => exact Or.inl href
  | part => exact Or.inl href

/-! ## The whole draft -/

/-- The draft deletes the location: with an operation that comes after others, on what they leave
behind. -/
def Deleted (lib : Library) (probes : Probes) (org : String) (i : ℕ) (w : Work) (ops : List Json)
    (lid : String) : Prop :=
  ∃ before op after w', ops = before ++ op :: after ∧
    applyFrom lib probes org i w before = .ok w' ∧ Deletes org w' lid op

/-- The operation at a position is the first one that cannot be applied. -/
def FirstRefused (lib : Library) (probes : Probes) (org : String) (i : ℕ) (w : Work)
    (ops : List Json) (j : ℕ) : Prop :=
  ∃ before op after w' e, ops = before ++ op :: after ∧ j = i + before.length ∧
    applyFrom lib probes org i w before = .ok w' ∧ applyOp lib probes org w' j op = .error e

variable {ops : List Json}

theorem applyFrom_cons (h : applyOp lib probes org w i op = .ok w') :
    applyFrom lib probes org i w (op :: ops) = applyFrom lib probes org (i + 1) w' ops := by
  rw [applyFrom, h]

theorem Deleted.cons (hop : applyOp lib probes org w i op = .ok w')
    (h : Deleted lib probes org (i + 1) w' ops lid) :
    Deleted lib probes org i w (op :: ops) lid := by
  obtain ⟨before, op', after, w'', rfl, hbefore, hdel⟩ := h
  exact ⟨op :: before, op', after, w'', rfl, (applyFrom_cons hop).trans hbefore, hdel⟩

theorem FirstRefused.cons {j : ℕ} (hop : applyOp lib probes org w i op = .ok w')
    (h : FirstRefused lib probes org (i + 1) w' ops j) :
    FirstRefused lib probes org i w (op :: ops) j := by
  obtain ⟨before, op', after, w'', e, rfl, rfl, hbefore, herr⟩ := h
  refine ⟨op :: before, op', after, w'', e, rfl, ?_, (applyFrom_cons hop).trans hbefore, herr⟩
  rw [List.length_cons]
  omega

/-- What a draft leaves of the tables. -/
structure Drafted (lib : Library) (probes : Probes) (org : String) (i : ℕ) (w : Work)
    (ops : List Json) (w' : Work) : Prop where
  linked : Linked w'.locations w'.links
  keeps : Keeps org w w'
  subnets : NormalOrKept lib org w w'
  refs : ∀ ref lid, get? w'.refs ref = some lid → get? w.refs ref = some lid ∨
    w'.Own org lid ∨ Deleted lib probes org i w ops lid
  own : ∀ lid, w.Own org lid → w'.Own org lid ∨ Deleted lib probes org i w ops lid

theorem Drafted.nil (h : Linked w.locations w.links) (i : ℕ) :
    Drafted lib probes org i w [] w where
  linked := h
  keeps := Keeps.refl org w
  subnets := NormalOrKept.refl lib org w
  refs _ _ href := Or.inl href
  own _ hown := Or.inl hown

theorem Drafted.cons {w'' : Work} (h : Linked w.locations w.links)
    (hop : applyOp lib probes org w i op = .ok w') (ha : Applied lib probes org w op w')
    (hrest : Drafted lib probes org (i + 1) w' ops w'') :
    Drafted lib probes org i w (op :: ops) w'' where
  linked := hrest.linked
  keeps := (Keeps.step h ha).trans hrest.keeps
  subnets := (NormalOrKept.step ha).trans hrest.subnets
  refs ref lid href := by
    rcases hrest.refs ref lid href with href | hown | hdel
    · rcases refs_step ha href with href | hown
      · exact Or.inl href
      · exact Or.inr ((hrest.own lid hown).imp_right (Deleted.cons hop))
    · exact Or.inr (Or.inl hown)
    · exact Or.inr (Or.inr (hdel.cons hop))
  own lid hown := by
    rcases hown.step ha with hown | hdel
    · exact (hrest.own lid hown).imp_right (Deleted.cons hop)
    · exact Or.inr ⟨[], op, ops, w, rfl, rfl, hdel⟩

theorem ends_applyFrom (ops : List Json) (i : ℕ) (h : Linked w.locations w.links) :
    Ends (applyFrom lib probes org i w ops) (Drafted lib probes org i w ops)
      fun e => ∃ j r, e = .opError j r ∧ FirstRefused lib probes org i w ops j := by
  induction ops generalizing i w with
  | nil => exact Drafted.nil h i
  | cons op ops ih =>
    have hspec := @ends_applyOp lib probes org w i op
    cases hop : applyOp lib probes org w i op with
    | error e =>
      obtain ⟨r, hr⟩ := (hspec.of_error hop).asOpError
      rw [applyFrom, hop]
      exact ⟨i, r, hr, [], op, ops, w, e, rfl, rfl, rfl, hop⟩
    | ok w' =>
      have ha := hspec.of_ok hop
      rw [applyFrom_cons hop]
      refine (ih (i + 1) (h.step ha)).mono (fun w'' hrest => Drafted.cons h hop ha hrest) ?_
      rintro e ⟨j, r, he, hfirst⟩
      exact ⟨j, r, he, hfirst.cons hop⟩

/-- A location with a subnet that is not in normal form. -/
def rome : Location := ⟨"acme", "Roma", "branch", ["10.0.0.1/8"], .str "central", ""⟩

def createdAndDeleted : List Json :=
  [.obj [("op", .str "create_location"), ("ref", .str "+1"), ("name", .str "Torino")],
    .obj [("op", .str "delete_location"), ("id", .str "+1")]]

def newGateway : List Json :=
  [.obj [("op", .str "set_gateway"), ("id", .str "roma"), ("ip", .str "10.0.0.1")]]

theorem linked_rome : Linked [("roma", rome)] [] :=
  ⟨List.nodup_singleton "roma", List.nodup_nil, fun _ _ h => (nomatch h), fun _ _ h => (nomatch h),
    fun _ _ h => (nomatch h), fun _ _ h => (nomatch h)⟩

end SentinelNet.Blueprint
